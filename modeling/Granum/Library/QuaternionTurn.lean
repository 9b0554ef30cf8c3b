import Mathlib

/-! Turns of an axis towards a direction. A unit quaternion carries an axis of one frame to another,
and a combination of the quaternion with its product between the axis and a direction carries the
axis into the plane of its image and the direction.
-/

open Quaternion
open scoped RealInnerProductSpace

namespace QuaternionTurn

/-- A direction: a unit quaternion without a real part. -/
structure Direction (a : ℍ[ℝ]) : Prop where
  star_eq : star a = -a
  mul_self : a * a = -1

/-- The image of `k` under the conjugation with `star q`. -/
noncomputable def carried (q k : ℍ[ℝ]) : ℍ[ℝ] := star q * k * q

variable {q k a d : ℍ[ℝ]}

theorem inner_eq (p q : ℍ[ℝ])
    : ⟪p, q⟫ = p.re * q.re + p.imI * q.imI + p.imJ * q.imJ + p.imK * q.imK := by
  rw [Quaternion.inner_def]
  simp only [re_mul, re_star, imI_star, imJ_star, imK_star]
  ring

theorem Direction.re_eq_zero (direction : Direction a) : a.re = 0 := by
  have same := congrArg (fun x : ℍ[ℝ] => x.re) direction.star_eq
  simp only [re_star, re_neg] at same
  linarith

theorem Direction.inner_self (direction : Direction a) : ⟪a, a⟫ = 1 := by
  rw [Quaternion.inner_def, direction.star_eq, mul_neg, direction.mul_self, neg_neg, re_one]

theorem Direction.norm_eq_one (direction : Direction a) : ‖a‖ = 1 := by
  have square := real_inner_self_eq_norm_sq a
  rw [direction.inner_self] at square
  exact (pow_eq_one_iff_of_nonneg (norm_nonneg a) two_ne_zero).mp square.symm

/-- The cosine of the angle between directions is at most one. -/
theorem Direction.abs_inner_le (left : Direction d) (right : Direction a) : |⟪d, a⟫| ≤ 1 := by
  have bound := abs_real_inner_le_norm d a
  rwa [left.norm_eq_one, right.norm_eq_one, one_mul] at bound

theorem Direction.carried (direction : Direction k) (unit : q * star q = 1)
    : Direction (carried q k) where
  star_eq := by
    rw [QuaternionTurn.carried, star_mul, star_mul, star_star, direction.star_eq]
    noncomm_ring
  mul_self := by
    have unit' : star q * q = 1 := (mul_eq_one_comm).mp unit
    calc star q * k * q * (star q * k * q)
        = star q * k * (q * star q) * k * q := by noncomm_ring
      _ = star q * (k * k) * q := by rw [unit, mul_one, mul_assoc (star q)]
      _ = -(star q * q) := by rw [direction.mul_self, mul_neg_one, neg_mul]
      _ = -1 := by rw [unit']

/-- The anticommutator of quaternions without real parts is real. -/
theorem anticommutator (left : Direction d) (right : Direction a)
    : d * a + a * d = ((-2 * ⟪d, a⟫ : ℝ) : ℍ[ℝ]) := by
  have hd := left.re_eq_zero
  have ha := right.re_eq_zero
  rw [inner_eq]
  ext <;> simp [hd, ha] <;> ring

/-- The reflection of `d` at `a`. -/
theorem sandwich (left : Direction d) (right : Direction a)
    : a * d * a = d - (2 * ⟪d, a⟫) • a := by
  have swap : a * d = ((-2 * ⟪d, a⟫ : ℝ) : ℍ[ℝ]) - d * a :=
    eq_sub_of_add_eq' (anticommutator left right)
  rw [swap, sub_mul, mul_assoc, right.mul_self, coe_mul_eq_smul, neg_mul, neg_smul, mul_neg_one]
  abel

/-- A combination of `q` with its product between the axis and a direction. -/
noncomputable def turned (q k a : ℍ[ℝ]) (u v : ℝ) : ℍ[ℝ] := u • q - v • (k * q * a)

section Turned

variable {u v : ℝ}

/-- It carries the axis into the plane of its image and the direction. -/
theorem carried_turned (axis : Direction k) (direction : Direction a) (unit : q * star q = 1)
    : carried (turned q k a u v) k
      = (u ^ 2 - v ^ 2) • carried q k + (2 * (u * v + v ^ 2 * ⟪carried q k, a⟫)) • a := by
  have unit' : star q * q = 1 := mul_eq_one_comm.mp unit
  have left : star q * k * (k * q * a) = -a := by
    calc star q * k * (k * q * a) = star q * (k * k) * q * a := by noncomm_ring
      _ = -(star q * q * a) := by rw [axis.mul_self, mul_neg_one, neg_mul, neg_mul]
      _ = -a := by rw [unit', one_mul]
  have conjugate : star (k * q * a) = a * (star q * k) := by
    rw [star_mul, star_mul, axis.star_eq, direction.star_eq]
    noncomm_ring
  have right : star (k * q * a) * k * q = -a := by
    calc star (k * q * a) * k * q = a * (star q * (k * k) * q) := by
          rw [conjugate]
          noncomm_ring
      _ = -(a * (star q * q)) := by rw [axis.mul_self, mul_neg_one, neg_mul, mul_neg]
      _ = -a := by rw [unit', mul_one]
  have both : star (k * q * a) * k * (k * q * a)
      = -(carried q k - (2 * ⟪carried q k, a⟫) • a) := by
    rw [← sandwich (axis.carried unit) direction, conjugate, carried]
    calc a * (star q * k) * k * (k * q * a) = a * star q * (k * k) * k * q * a := by noncomm_ring
      _ = -(a * (star q * k * q) * a) := by
          rw [axis.mul_self]
          noncomm_ring
  have expand : carried (turned q k a u v) k
      = (u * u) • (star q * k * q) - (u * v) • (star q * k * (k * q * a))
        - (u * v) • (star (k * q * a) * k * q)
        + (v * v) • (star (k * q * a) * k * (k * q * a)) := by
    rw [carried, turned, star_sub, Quaternion.star_smul, Quaternion.star_smul]
    simp only [sub_mul, mul_sub, smul_mul_assoc, mul_smul_comm]
    module
  rw [expand, left, right, both]
  change (u * u) • carried q k - _ - _ + _ = _
  module

theorem inner_turn (direction : Direction a) : ⟪q, k * q * a⟫ = -⟪carried q k, a⟫ := by
  have cyclic (x y : ℍ[ℝ]) : (x * y).re = (y * x).re := by
    rw [re_mul, re_mul]
    ring
  calc ⟪q, k * q * a⟫ = (k * q * a * star q).re := by
        rw [real_inner_comm, Quaternion.inner_def]
    _ = (carried q k * a).re := by
        rw [cyclic, carried]
        simp only [mul_assoc]
    _ = -⟪carried q k, a⟫ := by
        rw [Quaternion.inner_def, direction.star_eq, mul_neg, re_neg, neg_neg]

theorem norm_turned_sq (axis : Direction k) (direction : Direction a) (unit : ‖q‖ = 1)
    : ‖turned q k a u v‖ ^ 2 = u ^ 2 + v ^ 2 + 2 * u * v * ⟪carried q k, a⟫ := by
  have length : ‖k * q * a‖ = 1 := by
    rw [norm_mul, norm_mul, axis.norm_eq_one, unit, direction.norm_eq_one, one_mul, one_mul]
  rw [turned, norm_sub_sq_real, norm_smul, norm_smul, unit, length, inner_smul_left,
    inner_smul_right, inner_turn direction, mul_one, mul_one, Real.norm_eq_abs, Real.norm_eq_abs,
    sq_abs, sq_abs]
  simp only [conj_trivial]
  ring

theorem mul_star_of_norm (unit : ‖q‖ = 1) : q * star q = 1 := by
  rw [self_mul_star, normSq_eq_norm_mul_self, unit, one_mul, coe_one]

/-- What the turn gains, of the cosine of the angle to the direction. -/
theorem inner_carried_turned (axis : Direction k) (direction : Direction a) (unit : ‖q‖ = 1)
    : ⟪carried (turned q k a u v) k, a⟫
      = ⟪carried q k, a⟫ * ‖turned q k a u v‖ ^ 2
        + 2 * u * v * (1 - ⟪carried q k, a⟫ ^ 2) := by
  rw [carried_turned axis direction (mul_star_of_norm unit), norm_turned_sq axis direction unit,
    inner_add_left, inner_smul_left, inner_smul_left, direction.inner_self]
  simp only [conj_trivial]
  ring

theorem carried_smul (r : ℝ) (p k : ℍ[ℝ]) : carried (r • p) k = r ^ 2 • carried p k := by
  simp only [carried, Quaternion.star_smul, smul_mul_assoc, mul_smul_comm, smul_smul, sq]

/-- The same for the turn that is normalised. -/
theorem inner_carried_normalised (axis : Direction k) (direction : Direction a) (unit : ‖q‖ = 1)
    (nonzero : turned q k a u v ≠ 0)
    : ⟪carried (‖turned q k a u v‖⁻¹ • turned q k a u v) k, a⟫
      = ⟪carried q k, a⟫
        + 2 * u * v * (1 - ⟪carried q k, a⟫ ^ 2) / ‖turned q k a u v‖ ^ 2 := by
  have length : ‖turned q k a u v‖ ≠ 0 := norm_ne_zero_iff.mpr nonzero
  rw [carried_smul, inner_smul_left, inner_carried_turned axis direction unit, conj_trivial]
  field_simp

end Turned

-----------------------------------------------------------------------------------------
-- Turns by a rate

section Rate

variable {length radius rate cosine : ℝ}

/-- A turn does not go back while the cosine of the angle is below that of the rate. -/
theorem forward (nonneg : 0 ≤ length)
    (root : length ^ 2 = radius ^ 2 - 2 * radius * cosine + 1) (gain : 0 < rate) (small : rate < 1)
    (far : cosine < √(1 - rate ^ 2))
    : 0 < length - rate * radius := by
  have below : 0 ≤ 1 - rate ^ 2 := by nlinarith
  have sqrt_sq := Real.sq_sqrt below
  by_contra back
  have past : length ≤ rate * radius := by linarith
  have square : length ^ 2 ≤ (rate * radius) ^ 2 := pow_le_pow_left₀ nonneg past 2
  -- The quadratic in the radius has a root, so the cosine is not that small.
  have quadratic : (1 - rate ^ 2) * radius ^ 2 + 1 ≤ 2 * radius * cosine := by nlinarith
  have ahead : 0 ≤ radius := nonneg_of_mul_nonneg_right (nonneg.trans past) gain
  rcases ahead.eq_or_lt with rfl | positive
  · linarith
  · have product := mul_lt_mul_of_pos_left far positive
    nlinarith [sq_nonneg (√(1 - rate ^ 2) * radius - 1)]

/-- A turn that goes too far misses the direction by less than it turned. -/
theorem overshoot (nonneg : 0 ≤ length)
    (root : length ^ 2 = radius ^ 2 - 2 * radius * cosine + 1) (angle : |cosine| ≤ 1)
    (gain : 0 ≤ rate) (small : rate < 1) (past : length < rate * radius)
    : (1 - 2 * rate ^ 2)
        * ((length - rate * radius) ^ 2 + rate ^ 2
          + 2 * (length - rate * radius) * rate * cosine)
      ≤ cosine
          * ((length - rate * radius) ^ 2 + rate ^ 2
            + 2 * (length - rate * radius) * rate * cosine)
        + 2 * (length - rate * radius) * rate * (1 - cosine ^ 2) := by
  obtain ⟨lower, upper⟩ := abs_le.mp angle
  have bounded : rate * (radius - cosine) ≤ length := by
    apply le_of_abs_le (abs_le_of_sq_le_sq _ nonneg)
    have shrink : (rate * (radius - cosine)) ^ 2 ≤ (radius - cosine) ^ 2 := by
      rw [mul_pow]
      exact mul_le_of_le_one_left (sq_nonneg _) (pow_le_one₀ gain small.le)
    nlinarith
  -- The turn is no longer than its part across the quaternion.
  have across : 1 - cosine ^ 2 + (radius - cosine - rate * length) ^ 2
      = (length - rate * radius) ^ 2 + rate ^ 2
        + 2 * (length - rate * radius) * rate * cosine := by
    linear_combination (rate ^ 2 - 1) * root
  have between : 0 ≤ (1 - cosine)
      * (-(length - rate * radius) ^ 2 + 2 * (length - rate * radius) * rate
        + rate ^ 2 * (1 + 2 * cosine)) := by
    apply mul_nonneg (by linarith)
    have near : -(rate * cosine) ≤ length - rate * radius := by linarith
    nlinarith
  nlinarith [sq_nonneg rate,
    mul_nonneg (sq_nonneg rate) (sq_nonneg (radius - cosine - rate * length))]

end Rate

end QuaternionTurn
