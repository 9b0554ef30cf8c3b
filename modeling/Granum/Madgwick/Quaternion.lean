import Mathlib

/-! The quaternions of the orientation filter, with reals for doubles. Their products are those of
the quaternion algebra, in which a rotation is a conjugation.
-/

namespace Granum.Madgwick

open Quaternion

noncomputable section

@[ext] structure VectorT where
  x : ℝ
  y : ℝ
  z : ℝ

@[ext] structure QuaternionT where
  w : ℝ
  x : ℝ
  y : ℝ
  z : ℝ

def quatMult (a : QuaternionT) (k : ℝ) : QuaternionT where
  w := a.w * k
  x := a.x * k
  y := a.y * k
  z := a.z * k

def quatAbs (a : QuaternionT) : ℝ := √(a.w * a.w + a.x * a.x + a.y * a.y + a.z * a.z)

def quatNormalize (a : QuaternionT) : QuaternionT := quatMult a (1 / quatAbs a)

/-- The conjugate, normalized. -/
def quatInvert (a : QuaternionT) : QuaternionT :=
  quatNormalize {
    w := a.w
    x := -1 * a.x
    y := -1 * a.y
    z := -1 * a.z }

def quatMultByQuat (a b : QuaternionT) : QuaternionT where
  w := a.w * b.w - a.x * b.x - a.y * b.y - a.z * b.z
  x := a.w * b.x + a.x * b.w + a.y * b.z - a.z * b.y
  y := a.w * b.y - a.x * b.z + a.y * b.w + a.z * b.x
  z := a.w * b.z + a.x * b.y - a.y * b.x + a.z * b.w

def quatMultByVect (a : QuaternionT) (b : VectorT) : QuaternionT :=
  quatMultByQuat a { w := 0, x := b.x, y := b.y, z := b.z }

/-- The product that `vect_rotate` takes its result from. -/
def rotationProduct (vect : VectorT) (rotation : QuaternionT) : QuaternionT :=
  let rotNormal := quatNormalize rotation
  let tmp := quatMultByVect rotNormal vect
  let inverted := quatInvert rotNormal
  quatMultByQuat tmp inverted

def vectRotate (vect : VectorT) (rotation : QuaternionT) : VectorT :=
  let tmp := rotationProduct vect rotation
  { x := tmp.x, y := tmp.y, z := tmp.z }

/-- The norm of a vector. -/
def vectAbs (v : VectorT) : ℝ := √(v.x * v.x + v.y * v.y + v.z * v.z)

/-- `(1, 0, 0, 0)` -/
def identity : QuaternionT := { w := 1, x := 0, y := 0, z := 0 }

instance : Zero QuaternionT := ⟨{ w := 0, x := 0, y := 0, z := 0 }⟩

-----------------------------------------------------------------------------------------
-- The quaternion algebra

@[simps] def QuaternionT.toQuaternion (a : QuaternionT) : ℍ[ℝ] := ⟨a.w, a.x, a.y, a.z⟩

@[simps] def VectorT.toQuaternion (v : VectorT) : ℍ[ℝ] := ⟨0, v.x, v.y, v.z⟩

variable {a b : QuaternionT} {v : VectorT}

theorem toQuaternion_injective : Function.Injective QuaternionT.toQuaternion := by
  intro a b same
  have parts := Quaternion.ext_iff.mp same
  exact QuaternionT.ext parts.1 parts.2.1 parts.2.2.1 parts.2.2.2

theorem vector_toQuaternion_injective : Function.Injective VectorT.toQuaternion := by
  intro v u same
  have parts := Quaternion.ext_iff.mp same
  exact VectorT.ext parts.2.1 parts.2.2.1 parts.2.2.2

@[simp] theorem toQuaternion_quatMult (k : ℝ)
    : (quatMult a k).toQuaternion = k • a.toQuaternion := by
  ext <;> simp [quatMult, mul_comm]

@[simp] theorem toQuaternion_quatMultByQuat
    : (quatMultByQuat a b).toQuaternion = a.toQuaternion * b.toQuaternion := by
  ext <;> simp [quatMultByQuat]

theorem quatAbs_eq_norm : quatAbs a = ‖a.toQuaternion‖ := by
  rw [← Real.sqrt_mul_self (norm_nonneg _), ← normSq_eq_norm_mul_self, normSq_def', quatAbs]
  congr 1
  simp only [QuaternionT.toQuaternion]
  ring

theorem vectAbs_eq_norm : vectAbs v = ‖v.toQuaternion‖ := by
  rw [← Real.sqrt_mul_self (norm_nonneg _), ← normSq_eq_norm_mul_self, normSq_def', vectAbs]
  congr 1
  simp only [VectorT.toQuaternion]
  ring

theorem toQuaternion_ne_zero (nonzero : a ≠ 0) : a.toQuaternion ≠ 0 :=
  toQuaternion_injective.ne nonzero

@[simp] theorem toQuaternion_quatNormalize
    : (quatNormalize a).toQuaternion = ‖a.toQuaternion‖⁻¹ • a.toQuaternion := by
  rw [quatNormalize, toQuaternion_quatMult, quatAbs_eq_norm, one_div]

@[simp] theorem toQuaternion_quatInvert
    : (quatInvert a).toQuaternion = ‖a.toQuaternion‖⁻¹ • star a.toQuaternion := by
  have conjugate
      : (QuaternionT.mk a.w (-1 * a.x) (-1 * a.y) (-1 * a.z)).toQuaternion
        = star a.toQuaternion := by
    ext <;> simp
  rw [quatInvert, toQuaternion_quatNormalize, conjugate, norm_star]

-----------------------------------------------------------------------------------------
-- Rotations

@[simp] theorem toQuaternion_quatMultByVect
    : (quatMultByVect a v).toQuaternion = a.toQuaternion * v.toQuaternion := by
  rw [quatMultByVect, toQuaternion_quatMultByQuat]
  rfl

/-- A rotation conjugates. The two normalizations make the conjugate the inverse. -/
theorem toQuaternion_rotationProduct (nonzero : a ≠ 0)
    : (rotationProduct v a).toQuaternion
      = a.toQuaternion * v.toQuaternion * a.toQuaternion⁻¹ := by
  have norm_ne : ‖a.toQuaternion‖ ≠ 0 := norm_ne_zero_iff.mpr (toQuaternion_ne_zero nonzero)
  have unit : ‖‖a.toQuaternion‖⁻¹ • a.toQuaternion‖ = 1 := by
    rw [norm_smul, norm_inv, norm_norm, inv_mul_cancel₀ norm_ne]
  rw [rotationProduct, toQuaternion_quatMultByQuat, toQuaternion_quatMultByVect,
    toQuaternion_quatInvert, toQuaternion_quatNormalize, unit, Quaternion.inv_def,
    normSq_eq_norm_mul_self]
  simp [smul_smul]

/-- The product is minus its own conjugate, as the vector is. -/
theorem rotationProduct_w (nonzero : a ≠ 0) : (rotationProduct v a).w = 0 := by
  have vector : star v.toQuaternion = -v.toQuaternion := star_eq_neg.mpr rfl
  have scalar : (rotationProduct v a).toQuaternion.re = 0 := by
    rw [toQuaternion_rotationProduct nonzero, ← star_eq_neg, Quaternion.inv_def]
    simp [vector, mul_assoc]
  exact scalar

theorem toQuaternion_vectRotate (nonzero : a ≠ 0)
    : (vectRotate v a).toQuaternion
      = a.toQuaternion * v.toQuaternion * a.toQuaternion⁻¹ := by
  rw [← toQuaternion_rotationProduct nonzero]
  ext
  · exact (rotationProduct_w nonzero).symm
  · rfl
  · rfl
  · rfl

theorem vectAbs_vectRotate (nonzero : a ≠ 0) : vectAbs (vectRotate v a) = vectAbs v := by
  have norm_ne : ‖a.toQuaternion‖ ≠ 0 := norm_ne_zero_iff.mpr (toQuaternion_ne_zero nonzero)
  rw [vectAbs_eq_norm, vectAbs_eq_norm, toQuaternion_vectRotate nonzero, norm_mul, norm_mul,
    norm_inv, mul_right_comm, mul_inv_cancel₀ norm_ne, one_mul]

theorem quatMultByQuat_ne_zero (nonzero : a ≠ 0) (other : b ≠ 0) : quatMultByQuat b a ≠ 0 := by
  intro zero
  have product := toQuaternion_quatMultByQuat (a := b) (b := a)
  rw [zero] at product
  exact mul_ne_zero (toQuaternion_ne_zero other) (toQuaternion_ne_zero nonzero) product.symm

theorem vectRotate_vectRotate (nonzero : a ≠ 0) (other : b ≠ 0)
    : vectRotate (vectRotate v a) b = vectRotate v (quatMultByQuat b a) := by
  apply vector_toQuaternion_injective
  rw [toQuaternion_vectRotate other, toQuaternion_vectRotate nonzero,
    toQuaternion_vectRotate (quatMultByQuat_ne_zero nonzero other), toQuaternion_quatMultByQuat,
    mul_inv_rev]
  simp only [mul_assoc]

theorem quatMult_ne_zero {k : ℝ} (nonzero : a ≠ 0) (factor : k ≠ 0) : quatMult a k ≠ 0 := by
  intro zero
  have multiple := toQuaternion_quatMult (a := a) k
  rw [zero] at multiple
  exact smul_ne_zero factor (toQuaternion_ne_zero nonzero) multiple.symm

theorem vectRotate_quatMult {k : ℝ} (nonzero : a ≠ 0) (factor : k ≠ 0)
    : vectRotate v (quatMult a k) = vectRotate v a := by
  apply vector_toQuaternion_injective
  rw [toQuaternion_vectRotate (quatMult_ne_zero nonzero factor), toQuaternion_vectRotate nonzero,
    toQuaternion_quatMult, smul_inv₀]
  simp [smul_smul, factor]

/-- Rotations are conjugations: isometries, which act on the vectors. -/
theorem rotation_action {k : ℝ} (nonzero : a ≠ 0) (other : b ≠ 0) (factor : k ≠ 0)
    : vectAbs (vectRotate v a) = vectAbs v
      ∧ vectRotate (vectRotate v a) b = vectRotate v (quatMultByQuat b a)
      ∧ (rotationProduct v a).w = 0
      ∧ vectRotate v (quatMult a k) = vectRotate v a
      ∧ (vectRotate v a).toQuaternion
        = a.toQuaternion * v.toQuaternion * a.toQuaternion⁻¹ :=
  ⟨vectAbs_vectRotate nonzero, vectRotate_vectRotate nonzero other, rotationProduct_w nonzero,
    vectRotate_quatMult nonzero factor, toQuaternion_vectRotate nonzero⟩

def unitX : QuaternionT := { w := 0, x := 1, y := 0, z := 0 }

theorem unitX_ne_zero : unitX ≠ 0 := fun zero => one_ne_zero (congrArg QuaternionT.x zero)

/-- Half turns about the first axis. -/
theorem rotation_action_unitX
    : vectAbs (vectRotate ⟨1, 2, 3⟩ unitX) = vectAbs ⟨1, 2, 3⟩
      ∧ vectRotate (vectRotate ⟨1, 2, 3⟩ unitX) unitX
        = vectRotate ⟨1, 2, 3⟩ (quatMultByQuat unitX unitX)
      ∧ (rotationProduct ⟨1, 2, 3⟩ unitX).w = 0
      ∧ vectRotate ⟨1, 2, 3⟩ (quatMult unitX 2) = vectRotate ⟨1, 2, 3⟩ unitX
      ∧ (vectRotate ⟨1, 2, 3⟩ unitX).toQuaternion
        = unitX.toQuaternion * VectorT.toQuaternion ⟨1, 2, 3⟩ * unitX.toQuaternion⁻¹ :=
  rotation_action unitX_ne_zero unitX_ne_zero two_ne_zero

-----------------------------------------------------------------------------------------
-- Inverses

/-- `a` and what should be its inverse, as the code computes it, cancel, and inverting twice gives
`a` again.
-/
structure Inverts (a : QuaternionT) : Prop where
  right : quatMultByQuat a (quatInvert a) = identity
  left : quatMultByQuat (quatInvert a) a = identity
  involutive : quatInvert (quatInvert a) = a

theorem toQuaternion_identity : identity.toQuaternion = 1 := by
  ext <;> simp [identity]

/-- The product is the norm, where it should be one. -/
theorem toQuaternion_mul_quatInvert (nonzero : a ≠ 0)
    : (quatMultByQuat a (quatInvert a)).toQuaternion = (‖a.toQuaternion‖ : ℝ) := by
  have norm_ne : ‖a.toQuaternion‖ ≠ 0 := norm_ne_zero_iff.mpr (toQuaternion_ne_zero nonzero)
  rw [toQuaternion_quatMultByQuat, toQuaternion_quatInvert, Algebra.mul_smul_comm, self_mul_star,
    normSq_eq_norm_mul_self, ← coe_smul, smul_eq_mul, inv_mul_cancel_left₀ norm_ne]

theorem toQuaternion_quatInvert_mul (nonzero : a ≠ 0)
    : (quatMultByQuat (quatInvert a) a).toQuaternion = (‖a.toQuaternion‖ : ℝ) := by
  have norm_ne : ‖a.toQuaternion‖ ≠ 0 := norm_ne_zero_iff.mpr (toQuaternion_ne_zero nonzero)
  rw [toQuaternion_quatMultByQuat, toQuaternion_quatInvert, Algebra.smul_mul_assoc, star_mul_self,
    normSq_eq_norm_mul_self, ← coe_smul, smul_eq_mul, inv_mul_cancel_left₀ norm_ne]

theorem toQuaternion_quatInvert_quatInvert (nonzero : a ≠ 0)
    : (quatInvert (quatInvert a)).toQuaternion = ‖a.toQuaternion‖⁻¹ • a.toQuaternion := by
  have norm_ne : ‖a.toQuaternion‖ ≠ 0 := norm_ne_zero_iff.mpr (toQuaternion_ne_zero nonzero)
  rw [toQuaternion_quatInvert, toQuaternion_quatInvert, norm_smul, norm_star, norm_inv, norm_norm,
    inv_mul_cancel₀ norm_ne]
  simp

/-- Only a quaternion of the norm one is inverted. -/
theorem inverts_iff (nonzero : a ≠ 0) : Inverts a ↔ quatAbs a = 1 := by
  rw [quatAbs_eq_norm]
  constructor
  · intro inverts
    have product := toQuaternion_mul_quatInvert nonzero
    rw [inverts.right, toQuaternion_identity] at product
    exact coe_injective (product.symm.trans coe_one.symm)
  · intro unit
    constructor
    · apply toQuaternion_injective
      rw [toQuaternion_mul_quatInvert nonzero, unit, toQuaternion_identity, coe_one]
    · apply toQuaternion_injective
      rw [toQuaternion_quatInvert_mul nonzero, unit, toQuaternion_identity, coe_one]
    · apply toQuaternion_injective
      rw [toQuaternion_quatInvert_quatInvert nonzero, unit, inv_one, one_smul]

theorem inverts_iff_unitX : unitX ≠ 0 ∧ (Inverts unitX ↔ quatAbs unitX = 1) :=
  ⟨unitX_ne_zero, inverts_iff unitX_ne_zero⟩

/-- The quaternion `(2, 0, 0, 0)` is multiplied with `(1, 0, 0, 0)`. -/
theorem two_not_inverted : ¬ ∀ a : QuaternionT, a ≠ 0 → Inverts a := by
  intro inverts
  have nonzero : QuaternionT.mk 2 0 0 0 ≠ 0 := fun zero =>
    two_ne_zero (congrArg QuaternionT.w zero)
  have right := congrArg QuaternionT.w (inverts _ nonzero).right
  simp [quatMultByQuat, quatInvert, quatNormalize, quatMult, quatAbs, identity] at right

end

end Granum.Madgwick
