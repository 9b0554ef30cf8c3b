import Granum.Madgwick.UnitNorm

/-! The corrective steps are gradients. What is descended is half the squared distance between what
the sensors should measure in an attitude and what they do measure.
-/

namespace Granum.Madgwick

open Quaternion QuaternionTurn SphereDescent
open scoped RealInnerProductSpace

noncomputable section

@[simps] def Axes.toQuaternion (a : Axes ℝ) : ℍ[ℝ] := ⟨0, a.x, a.y, a.z⟩

/-- The vertical of the earth. -/
def vertical : Axes ℝ := ⟨0, 0, 1⟩

/-- A direction of the earth frame, in the frame of the sensor. -/
def inSensorFrame (q : ℍ[ℝ]) (direction : Axes ℝ) : ℍ[ℝ] := carried q direction.toQuaternion

def errorIMU (a : Axes ℝ) (q : ℍ[ℝ]) : ℝ := (gravityResidual q a).energy

def errorMARG (b : Reference ℝ) (a m : Axes ℝ) (q : ℍ[ℝ]) : ℝ :=
  (gravityResidual q a).energy + (fieldResidual b q m).energy

def Reference.toAxes (b : Reference ℝ) : Axes ℝ := ⟨b.bx, 0, b.bz⟩

-----------------------------------------------------------------------------------------
-- Gradients

/-- The quaternion with these components. -/
def components (w x y z : ℝ) : ℍ[ℝ] := ⟨w, x, y, z⟩

@[simp] theorem components_re (w x y z : ℝ) : (components w x y z).re = w := rfl

@[simp] theorem components_imI (w x y z : ℝ) : (components w x y z).imI = x := rfl

@[simp] theorem components_imJ (w x y z : ℝ) : (components w x y z).imJ = y := rfl

@[simp] theorem components_imK (w x y z : ℝ) : (components w x y z).imK = z := rfl

section Coordinates

variable (q : ℍ[ℝ])

theorem hasGradientAt_coordinate {f : ℍ[ℝ] → ℝ} (e : ℍ[ℝ]) (linear : ∀ p, f p = ⟪e, p⟫)
    : HasGradientAt f e q := by
  rw [funext linear]
  exact hasGradientAt_inner e

theorem hasGradientAt_re : HasGradientAt (fun p : ℍ[ℝ] => p.re) (components 1 0 0 0) q := by
  refine hasGradientAt_coordinate q _ fun p => ?_
  rw [inner_eq]
  simp

theorem hasGradientAt_imI : HasGradientAt (fun p : ℍ[ℝ] => p.imI) (components 0 1 0 0) q := by
  refine hasGradientAt_coordinate q _ fun p => ?_
  rw [inner_eq]
  simp

theorem hasGradientAt_imJ : HasGradientAt (fun p : ℍ[ℝ] => p.imJ) (components 0 0 1 0) q := by
  refine hasGradientAt_coordinate q _ fun p => ?_
  rw [inner_eq]
  simp

theorem hasGradientAt_imK : HasGradientAt (fun p : ℍ[ℝ] => p.imK) (components 0 0 0 1) q := by
  refine hasGradientAt_coordinate q _ fun p => ?_
  rw [inner_eq]
  simp

/-- `q1 q3 - q0 q2`, the first component of the vertical, halved. -/
theorem hasGradientAt_upX
    : HasGradientAt (fun p : ℍ[ℝ] => p.imI * p.imK - p.re * p.imJ)
        (components (-q.imJ) q.imK (-q.re) q.imI) q := by
  have products := hasGradientAt_sub
    (hasGradientAt_mul (hasGradientAt_imI q) (hasGradientAt_imK q))
    (hasGradientAt_mul (hasGradientAt_re q) (hasGradientAt_imJ q))
  refine (congrArg (HasGradientAt _ · q) ?_).mp products
  ext <;> simp

/-- `q0 q1 + q2 q3`, the second. -/
theorem hasGradientAt_upY
    : HasGradientAt (fun p : ℍ[ℝ] => p.re * p.imI + p.imJ * p.imK)
        (components q.imI q.re q.imK q.imJ) q := by
  have products := hasGradientAt_add
    (hasGradientAt_mul (hasGradientAt_re q) (hasGradientAt_imI q))
    (hasGradientAt_mul (hasGradientAt_imJ q) (hasGradientAt_imK q))
  refine (congrArg (HasGradientAt _ · q) ?_).mp products
  ext <;> simp

/-- `q1 q2 - q0 q3`, the second component of the first axis, halved. -/
theorem hasGradientAt_frontY
    : HasGradientAt (fun p : ℍ[ℝ] => p.imI * p.imJ - p.re * p.imK)
        (components (-q.imK) q.imJ q.imI (-q.re)) q := by
  have products := hasGradientAt_sub
    (hasGradientAt_mul (hasGradientAt_imI q) (hasGradientAt_imJ q))
    (hasGradientAt_mul (hasGradientAt_re q) (hasGradientAt_imK q))
  refine (congrArg (HasGradientAt _ · q) ?_).mp products
  ext <;> simp

/-- `q0 q2 + q1 q3`, the third. -/
theorem hasGradientAt_frontZ
    : HasGradientAt (fun p : ℍ[ℝ] => p.re * p.imJ + p.imI * p.imK)
        (components q.imJ q.imK q.re q.imI) q := by
  have products := hasGradientAt_add
    (hasGradientAt_mul (hasGradientAt_re q) (hasGradientAt_imJ q))
    (hasGradientAt_mul (hasGradientAt_imI q) (hasGradientAt_imK q))
  refine (congrArg (HasGradientAt _ · q) ?_).mp products
  ext <;> simp

/-- `q1 q1 + q2 q2` -/
theorem hasGradientAt_squaresXY
    : HasGradientAt (fun p : ℍ[ℝ] => p.imI * p.imI + p.imJ * p.imJ)
        (components 0 (2 * q.imI) (2 * q.imJ) 0) q := by
  have products := hasGradientAt_add
    (hasGradientAt_mul (hasGradientAt_imI q) (hasGradientAt_imI q))
    (hasGradientAt_mul (hasGradientAt_imJ q) (hasGradientAt_imJ q))
  refine (congrArg (HasGradientAt _ · q) ?_).mp products
  ext <;> simp [two_mul]

/-- `q2 q2 + q3 q3` -/
theorem hasGradientAt_squaresYZ
    : HasGradientAt (fun p : ℍ[ℝ] => p.imJ * p.imJ + p.imK * p.imK)
        (components 0 0 (2 * q.imJ) (2 * q.imK)) q := by
  have products := hasGradientAt_add
    (hasGradientAt_mul (hasGradientAt_imJ q) (hasGradientAt_imJ q))
    (hasGradientAt_mul (hasGradientAt_imK q) (hasGradientAt_imK q))
  refine (congrArg (HasGradientAt _ · q) ?_).mp products
  ext <;> simp [two_mul]

end Coordinates

section Errors

variable (q : ℍ[ℝ]) (a m : Axes ℝ) (b : Reference ℝ)

/-- The energy of a residual grows along the gradients of its components, as far as these go. -/
theorem hasGradientAt_energy {r : ℍ[ℝ] → Axes ℝ} {x y z : ℍ[ℝ]}
    (hx : HasGradientAt (fun p => (r p).x) x q) (hy : HasGradientAt (fun p => (r p).y) y q)
    (hz : HasGradientAt (fun p => (r p).z) z q)
    : HasGradientAt (fun p => (r p).energy)
        ((r q).x • x + (r q).y • y + (r q).z • z) q :=
  hasGradientAt_add
    (hasGradientAt_add (hasGradientAt_half_sq hx) (hasGradientAt_half_sq hy))
    (hasGradientAt_half_sq hz)

/-- The transposed Jacobian of the gravity residual, applied to the residual. -/
theorem hasGradientAt_errorIMU : HasGradientAt (errorIMU a) (stepIMU q a) q := by
  have hx := hasGradientAt_sub (hasGradientAt_const_mul 2 (hasGradientAt_upX q))
    (hasGradientAt_const q a.x)
  have hy := hasGradientAt_sub (hasGradientAt_const_mul 2 (hasGradientAt_upY q))
    (hasGradientAt_const q a.y)
  have hz := hasGradientAt_sub (hasGradientAt_sub (hasGradientAt_const q (1 : ℝ))
    (hasGradientAt_const_mul 2 (hasGradientAt_squaresXY q))) (hasGradientAt_const q a.z)
  refine (congrArg (HasGradientAt _ · q) ?_).mp (hasGradientAt_energy q hx hy hz)
  ext <;> simp [stepIMU, gravityResidual] <;> ring

/-- The optimised formulas are both Jacobians, that of the field with the reference. -/
theorem hasGradientAt_errorMARG : HasGradientAt (errorMARG b a m) (stepMARG b q a m) q := by
  have half := hasGradientAt_const q (1 / 2 : ℝ)
  have hx := hasGradientAt_sub
    (hasGradientAt_add
      (hasGradientAt_const_mul b.bx (hasGradientAt_sub half (hasGradientAt_squaresYZ q)))
      (hasGradientAt_const_mul b.bz (hasGradientAt_upX q)))
    (hasGradientAt_const q m.x)
  have hy := hasGradientAt_sub
    (hasGradientAt_add
      (hasGradientAt_const_mul b.bx (hasGradientAt_frontY q))
      (hasGradientAt_const_mul b.bz (hasGradientAt_upY q)))
    (hasGradientAt_const q m.y)
  have hz := hasGradientAt_sub
    (hasGradientAt_add
      (hasGradientAt_const_mul b.bx (hasGradientAt_frontZ q))
      (hasGradientAt_const_mul b.bz (hasGradientAt_sub half (hasGradientAt_squaresXY q))))
    (hasGradientAt_const q m.z)
  have field := hasGradientAt_energy (r := fun p => fieldResidual b p m) q hx hy hz
  refine (congrArg (HasGradientAt _ · q) ?_).mp
    (hasGradientAt_add (hasGradientAt_errorIMU q a) field)
  ext <;> simp only [re_add, imI_add, imJ_add, imK_add] <;>
    simp [stepIMU, stepMARG, fieldResidual] <;> ring

end Errors

-----------------------------------------------------------------------------------------
-- What is descended

section Frames

variable {q : ℍ[ℝ]}

theorem Axes.energy_eq (r : Axes ℝ) : r.energy = ‖r.toQuaternion‖ ^ 2 / 2 := by
  rw [sq, ← normSq_eq_norm_mul_self, normSq_def', Axes.energy]
  simp only [Axes.toQuaternion]
  ring

/-- At the unit sphere, the residual is what separates the vertical from the measurement. -/
theorem gravityResidual_toQuaternion (unit : normSq q = 1) (a : Axes ℝ)
    : (gravityResidual q a).toQuaternion = inSensorFrame q vertical - a.toQuaternion := by
  rw [normSq_def'] at unit
  ext <;> simp [gravityResidual, inSensorFrame, carried, vertical]
  · ring
  · ring
  · ring
  · linear_combination -unit

theorem fieldResidual_toQuaternion (unit : normSq q = 1) (b : Reference ℝ) (m : Axes ℝ)
    : (fieldResidual b q m).toQuaternion
      = (1 / 2 : ℝ) • inSensorFrame q b.toAxes - m.toQuaternion := by
  rw [normSq_def'] at unit
  ext <;> simp [fieldResidual, inSensorFrame, carried, Reference.toAxes]
  · ring
  · linear_combination -b.bx / 2 * unit
  · ring
  · linear_combination -b.bz / 2 * unit

/-- The field in the frame of the earth is a conjugate. -/
theorem earthField_toQuaternion (q : ℍ[ℝ]) (m : Axes ℝ)
    : (earthField q m).toQuaternion = q * m.toQuaternion * star q := by
  ext <;> simp [earthField] <;> ring

theorem normSq_of_norm (unit : ‖q‖ = 1) : normSq q = 1 := by
  rw [normSq_eq_norm_mul_self, unit, one_mul]

/-- The reference is as strong as the measured field. -/
theorem norm_reference {c : Arithmetic ℝ} (root : c.sqrt = Real.sqrt) (unit : ‖q‖ = 1) (m : Axes ℝ)
    : ‖(c.reference q m).toAxes.toQuaternion‖ = ‖m.toQuaternion‖ := by
  have conjugate : ‖(earthField q m).toQuaternion‖ = ‖m.toQuaternion‖ := by
    rw [earthField_toQuaternion, norm_mul, norm_mul, norm_star, unit, one_mul, mul_one]
  have square : ‖(c.reference q m).toAxes.toQuaternion‖ ^ 2
      = ‖(earthField q m).toQuaternion‖ ^ 2 := by
    have horizontal := Real.sq_sqrt
      (add_nonneg (mul_self_nonneg (earthField q m).x) (mul_self_nonneg (earthField q m).y))
    rw [sq ‖_‖, sq ‖_‖, ← normSq_eq_norm_mul_self, ← normSq_eq_norm_mul_self, normSq_def',
      normSq_def']
    simp only [Axes.toQuaternion, Reference.toAxes, Arithmetic.reference, root, horizontal]
    ring
  rw [← conjugate]
  exact (sq_eq_sq₀ (norm_nonneg _) (norm_nonneg _)).mp square

/-- The step without a magnetometer descends along half the squared distance between the vertical
and the measured acceleration.
-/
theorem stepIMU_gradient (q : ℍ[ℝ]) (a : Axes ℝ)
    : HasGradientAt (errorIMU a) (stepIMU q a) q
      ∧ (‖q‖ = 1
        → errorIMU a q = ‖inSensorFrame q vertical - a.toQuaternion‖ ^ 2 / 2) := by
  constructor
  · exact hasGradientAt_errorIMU q a
  · intro unit
    rw [errorIMU, Axes.energy_eq, gravityResidual_toQuaternion (normSq_of_norm unit)]

/-- The step with a magnetometer also descends along that between half the reference and the
measured field. The reference is fixed, and as strong as the field.
-/
theorem stepMARG_gradient {c : Arithmetic ℝ} (root : c.sqrt = Real.sqrt) (q : ℍ[ℝ]) (a m : Axes ℝ)
    : HasGradientAt (errorMARG (c.reference q m) a m) (stepMARG (c.reference q m) q a m) q
      ∧ (‖q‖ = 1
        → errorMARG (c.reference q m) a m q
            = ‖inSensorFrame q vertical - a.toQuaternion‖ ^ 2 / 2
              + ‖(1 / 2 : ℝ) • inSensorFrame q (c.reference q m).toAxes - m.toQuaternion‖ ^ 2 / 2
          ∧ ‖(c.reference q m).toAxes.toQuaternion‖ = ‖m.toQuaternion‖) := by
  constructor
  · exact hasGradientAt_errorMARG q a m (c.reference q m)
  · intro unit
    refine ⟨?_, norm_reference root unit m⟩
    rw [errorMARG, Axes.energy_eq, Axes.energy_eq,
      gravityResidual_toQuaternion (normSq_of_norm unit),
      fieldResidual_toQuaternion (normSq_of_norm unit)]

theorem stepMARG_gradient_exact
    : HasGradientAt
        (errorMARG ((exactArithmetic 10).reference 1 ⟨1, 0, 1⟩) ⟨0, 0, 1⟩ ⟨1, 0, 1⟩)
        (stepMARG ((exactArithmetic 10).reference 1 ⟨1, 0, 1⟩) 1 ⟨0, 0, 1⟩ ⟨1, 0, 1⟩) 1
      ∧ (‖(1 : ℍ[ℝ])‖ = 1
        → errorMARG ((exactArithmetic 10).reference 1 ⟨1, 0, 1⟩) ⟨0, 0, 1⟩ ⟨1, 0, 1⟩ 1
            = ‖inSensorFrame 1 vertical - (⟨0, 0, 1⟩ : Axes ℝ).toQuaternion‖ ^ 2 / 2
              + ‖(1 / 2 : ℝ) • inSensorFrame 1
                    ((exactArithmetic 10).reference 1 ⟨1, 0, 1⟩).toAxes
                  - (⟨1, 0, 1⟩ : Axes ℝ).toQuaternion‖ ^ 2 / 2
          ∧ ‖((exactArithmetic 10).reference 1 ⟨1, 0, 1⟩).toAxes.toQuaternion‖
            = ‖(⟨1, 0, 1⟩ : Axes ℝ).toQuaternion‖) :=
  stepMARG_gradient rfl 1 ⟨0, 0, 1⟩ ⟨1, 0, 1⟩

end Frames

end

end Granum.Madgwick
