import Granum.Madgwick.Gradient

/-! What an update does to the tilt of a resting sensor, in exact arithmetic. The correction turns
the vertical towards the measured acceleration, and it can overshoot by its gain at most.
-/

namespace Granum.Madgwick

open Quaternion QuaternionTurn
open scoped RealInnerProductSpace

noncomputable section

/-- The measured direction of the vertical. -/
def measuredVertical (a : Axes ℝ) : ℍ[ℝ] := ((exactArithmetic 1).normaliseAxes a).toQuaternion

/-- The cosine of the angle between the vertical in the frame of the sensor and the measured one. -/
def cosTilt (a : Axes ℝ) (q : ℍ[ℝ]) : ℝ := ⟪inSensorFrame q vertical, measuredVertical a⟫

instance : Zero (Axes ℝ) := ⟨⟨0, 0, 0⟩⟩

theorem gyroRate_still (q : ℍ[ℝ]) : gyroRate q 0 = 0 := by
  ext <;> simp [gyroRate, show (0 : Axes ℝ) = ⟨0, 0, 0⟩ from rfl]

section Directions

variable {q : ℍ[ℝ]} {a : Axes ℝ} {f : ℝ}

theorem direction_vertical : Direction vertical.toQuaternion where
  star_eq := by ext <;> simp [vertical]
  mul_self := by ext <;> simp [vertical]

theorem normalise_exact (x : ℍ[ℝ]) : (exactArithmetic f).normalise x = ‖x‖⁻¹ • x := by
  rw [Arithmetic.normalise_eq_rescale, SphereDescent.rescale]
  simp only [exactArithmetic, Real.sqrt_sq (norm_nonneg x)]

theorem normaliseAxes_eq_rescale (c : Arithmetic ℝ) (a : Axes ℝ)
    : (c.normaliseAxes a).toQuaternion = SphereDescent.rescale c.invSqrt a.toQuaternion := by
  have square : a.x * a.x + a.y * a.y + a.z * a.z = ‖a.toQuaternion‖ ^ 2 := by
    rw [sq, ← normSq_eq_norm_mul_self, normSq_def']
    simp only [Axes.toQuaternion]
    ring
  rw [SphereDescent.rescale, ← square]
  ext <;> simp [Arithmetic.normaliseAxes, mul_comm]

theorem measuredVertical_eq (a : Axes ℝ)
    : measuredVertical a = ‖a.toQuaternion‖⁻¹ • a.toQuaternion := by
  rw [measuredVertical, normaliseAxes_eq_rescale, SphereDescent.rescale]
  simp only [exactArithmetic, Real.sqrt_sq (norm_nonneg a.toQuaternion)]

theorem axes_eq_zero (zero : a.toQuaternion = 0) : a = 0 := by
  have parts := Quaternion.ext_iff.mp zero
  exact Axes.ext parts.2.1 parts.2.2.1 parts.2.2.2

theorem Axes.toQuaternion_ne_zero (valid : a ≠ 0) : a.toQuaternion ≠ 0 :=
  fun zero => valid (axes_eq_zero zero)

theorem direction_measuredVertical (valid : a ≠ 0) : Direction (measuredVertical a) := by
  have positive : ‖a.toQuaternion‖ ≠ 0 := norm_ne_zero_iff.mpr (Axes.toQuaternion_ne_zero valid)
  have conjugate : star a.toQuaternion = -a.toQuaternion := by ext <;> simp
  rw [measuredVertical_eq]
  constructor
  · rw [Quaternion.star_smul, conjugate, smul_neg]
  · have square : a.toQuaternion * a.toQuaternion = ((-(‖a.toQuaternion‖ ^ 2) : ℝ) : ℍ[ℝ]) := by
      have product := self_mul_star a.toQuaternion
      rw [conjugate, mul_neg, normSq_eq_norm_mul_self] at product
      rw [sq, coe_neg, ← product, neg_neg]
    rw [smul_mul_smul_comm, square, smul_coe, ← coe_one, ← coe_neg]
    congr 1
    field_simp

end Directions

-----------------------------------------------------------------------------------------
-- The step as a turn

section Turn

variable {q : ℍ[ℝ]} {a : Axes ℝ} {f beta : ℝ}

/-- A step is a combination of the quaternion with its product between the vertical and a direction
that is that of the measurement on the unit sphere.
-/
theorem stepIMU_eq (q : ℍ[ℝ]) (a : Axes ℝ)
    : stepIMU q a
      = (2 : ℝ) • ((normSq q - (inSensorFrame q vertical).imK + (normSq q - 1) + a.z) • q
        + vertical.toQuaternion * q
          * (a.toQuaternion + (normSq q - 1) • vertical.toQuaternion)) := by
  ext <;> simp [stepIMU, inSensorFrame, carried, vertical, normSq_def'] <;> ring

/-- How far a step leads along the quaternion, halved. -/
def radial (q : ℍ[ℝ]) (a : Axes ℝ) : ℝ := 1 + a.z - (inSensorFrame q vertical).imK

theorem stepIMU_eq_turned (unit : ‖q‖ = 1) (a : Axes ℝ)
    : stepIMU q a = (2 : ℝ) • turned q vertical.toQuaternion a.toQuaternion (radial q a) (-1) := by
  have length : 1 - (inSensorFrame q vertical).imK + (1 - 1) + a.z = radial q a := by
    rw [radial]
    ring
  rw [stepIMU_eq, normSq_of_norm unit, length, sub_self, zero_smul, add_zero, turned, neg_one_smul,
    sub_neg_eq_add]

/-- Half the length of a step. -/
def halfLength (q : ℍ[ℝ]) (a : Axes ℝ) : ℝ :=
  half ‖stepIMU q ((exactArithmetic 1).normaliseAxes a)‖

/-- How far the step leads along the quaternion, for a measurement that is normalised. -/
def measuredRadial (q : ℍ[ℝ]) (a : Axes ℝ) : ℝ := radial q ((exactArithmetic 1).normaliseAxes a)

theorem halfLength_nonneg : 0 ≤ halfLength q a := div_nonneg (norm_nonneg _) zero_le_two

theorem halfLength_sq (unit : ‖q‖ = 1) (valid : a ≠ 0)
    : halfLength q a ^ 2
      = measuredRadial q a ^ 2 - 2 * measuredRadial q a * cosTilt a q + 1 := by
  have length := norm_turned_sq (u := measuredRadial q a) (v := -1) direction_vertical
    (direction_measuredVertical valid) unit
  rw [halfLength, half, stepIMU_eq_turned unit, norm_smul, Real.norm_of_nonneg zero_le_two,
    mul_div_cancel_left₀ _ two_ne_zero]
  refine length.trans ?_
  rw [cosTilt, inSensorFrame]
  ring

/-- An update at rest without a magnetometer. -/
theorem Arithmetic.madgwickAHRSupdate_rest (c : Arithmetic ℝ) (valid : a ≠ 0) (beta : ℝ)
    : c.madgwickAHRSupdate beta q 0 a 0
      = c.normalise (q - (beta / c.sampleFreq) • c.normalise (stepIMU q (c.normaliseAxes a))) := by
  have still : ¬(a.x = 0 ∧ a.y = 0 ∧ a.z = 0) := fun zero =>
    valid (Axes.ext zero.1 zero.2.1 zero.2.2)
  rw [Arithmetic.madgwickAHRSupdate_eq, gyroRate_still, smul_zero, add_zero, Arithmetic.correction,
    if_neg still, if_pos ⟨rfl, rfl, rfl⟩]

theorem update_rest (valid : a ≠ 0) (beta : ℝ)
    : (exactArithmetic f).madgwickAHRSupdate beta q 0 a 0
      = (exactArithmetic f).normalise
          (q - (beta / f) • (exactArithmetic f).normalise
            (stepIMU q ((exactArithmetic 1).normaliseAxes a))) :=
  (exactArithmetic f).madgwickAHRSupdate_rest valid beta

/-- The update turns the quaternion. -/
theorem update_rest_eq_turned (unit : ‖q‖ = 1) (valid : a ≠ 0) (moves : 0 < halfLength q a)
    : (exactArithmetic f).madgwickAHRSupdate beta q 0 a 0
      = ‖turned q vertical.toQuaternion (measuredVertical a)
            (halfLength q a - beta / f * measuredRadial q a) (beta / f)‖⁻¹
          • turned q vertical.toQuaternion (measuredVertical a)
            (halfLength q a - beta / f * measuredRadial q a) (beta / f) := by
  have length : ‖stepIMU q ((exactArithmetic 1).normaliseAxes a)‖ = 2 * halfLength q a := by
    rw [halfLength, half]
    ring
  have before : q - (beta / f) • (exactArithmetic f).normalise
        (stepIMU q ((exactArithmetic 1).normaliseAxes a))
      = (halfLength q a)⁻¹ • turned q vertical.toQuaternion (measuredVertical a)
          (halfLength q a - beta / f * measuredRadial q a) (beta / f) := by
    rw [normalise_exact, length, stepIMU_eq_turned unit]
    change q - (beta / f) • ((2 * halfLength q a)⁻¹ • ((2 : ℝ)
      • turned q vertical.toQuaternion (measuredVertical a) (measuredRadial q a) (-1))) = _
    simp only [turned]
    match_scalars <;> field_simp
  rw [update_rest valid, before, normalise_exact, norm_smul, norm_inv,
    Real.norm_of_nonneg moves.le, smul_smul, mul_inv, inv_inv, mul_right_comm,
    mul_inv_cancel₀ moves.ne', one_mul]

theorem abs_cosTilt_le (unit : ‖q‖ = 1) (valid : a ≠ 0) : |cosTilt a q| ≤ 1 :=
  (direction_vertical.carried (mul_star_of_norm unit)).abs_inner_le
    (direction_measuredVertical valid)

/-- Without a step, the attitude remains. -/
theorem update_rest_eq_self (unit : ‖q‖ = 1) (valid : a ≠ 0) (still : halfLength q a = 0)
    : (exactArithmetic f).madgwickAHRSupdate beta q 0 a 0 = q := by
  have zero : stepIMU q ((exactArithmetic 1).normaliseAxes a) = 0 := by
    rw [← norm_eq_zero]
    exact (div_eq_zero_iff.mp still).resolve_right two_ne_zero
  rw [update_rest valid, zero, normalise_exact, normalise_exact, smul_zero, smul_zero, sub_zero,
    unit, inv_one, one_smul]

/-- A gain below one does not lose the attitude. -/
theorem turned_ne_zero (unit : ‖q‖ = 1) (valid : a ≠ 0) (moves : 0 < halfLength q a) {rate : ℝ}
    (gain : 0 ≤ rate) (small : rate < 1)
    : turned q vertical.toQuaternion (measuredVertical a)
        (halfLength q a - rate * measuredRadial q a) rate ≠ 0 := by
  intro zero
  have root := halfLength_sq unit valid
  have angle := abs_le.mp (abs_cosTilt_le unit valid)
  have length := norm_turned_sq (u := halfLength q a - rate * measuredRadial q a) (v := rate)
    direction_vertical (direction_measuredVertical valid) unit
  rw [zero, norm_zero] at length
  change _ = _ + _ + _ * cosTilt a q at length
  have across : 1 - cosTilt a q ^ 2
      + (measuredRadial q a - cosTilt a q - rate * halfLength q a) ^ 2 = 0 := by
    linear_combination (rate ^ 2 - 1) * root - length
  have inside : 0 ≤ 1 - cosTilt a q ^ 2 := by nlinarith
  have radius : measuredRadial q a - cosTilt a q = rate * halfLength q a := by
    have square : (measuredRadial q a - cosTilt a q - rate * halfLength q a) ^ 2 = 0 := by
      nlinarith [sq_nonneg (measuredRadial q a - cosTilt a q - rate * halfLength q a)]
    exact sub_eq_zero.mp (pow_eq_zero_iff two_ne_zero |>.mp square)
  have shrink : (rate * halfLength q a) ^ 2 < halfLength q a ^ 2 := by
    have squared : rate ^ 2 < 1 := by nlinarith
    nlinarith [pow_pos moves 2]
  nlinarith [sq_nonneg (measuredRadial q a - cosTilt a q - rate * halfLength q a)]

/-- The cosine after an update that moves. -/
theorem cosTilt_update (unit : ‖q‖ = 1) (valid : a ≠ 0) (moves : 0 < halfLength q a)
    (gain : 0 ≤ beta / f) (small : beta / f < 1)
    : cosTilt a ((exactArithmetic f).madgwickAHRSupdate beta q 0 a 0)
      = cosTilt a q
        + 2 * (halfLength q a - beta / f * measuredRadial q a) * (beta / f)
            * (1 - cosTilt a q ^ 2)
          / ‖turned q vertical.toQuaternion (measuredVertical a)
              (halfLength q a - beta / f * measuredRadial q a) (beta / f)‖ ^ 2 := by
  rw [update_rest_eq_turned unit valid moves]
  exact inner_carried_normalised direction_vertical (direction_measuredVertical valid) unit
    (turned_ne_zero unit valid moves gain small)

end Turn

-----------------------------------------------------------------------------------------
-- Steps and runs at rest

section Rest

variable {q : ℍ[ℝ]} {a : Axes ℝ} {f beta : ℝ}

theorem norm_update_rest (unit : ‖q‖ = 1) (small : |beta / f| < 1)
    : ‖(exactArithmetic f).madgwickAHRSupdate beta q 0 a 0‖ = 1 := by
  have reciprocal := reciprocal_exact f
  have rate : |beta / (exactArithmetic f).sampleFreq| * (1 + 0) < 1 - 0 := by
    rw [add_zero, mul_one, sub_zero]
    exact small
  have near := (Arithmetic.madgwickAHRSupdate_step reciprocal le_rfl zero_le_one beta q 0 a 0).near
    reciprocal zero_le_one rate ⟨by simp [unit], by simp [unit]⟩
  exact le_antisymm (by simpa using near.upper) (by simpa using near.lower)

/-- The angle does not grow, or it is within that of twice the gain. -/
theorem tilt_step (unit : ‖q‖ = 1) (valid : a ≠ 0) (gain : 0 ≤ beta / f) (small : beta / f < 1)
    : min (cosTilt a q) (1 - 2 * (beta / f) ^ 2)
      ≤ cosTilt a ((exactArithmetic f).madgwickAHRSupdate beta q 0 a 0) := by
  rcases halfLength_nonneg.eq_or_lt with still | moves
  · rw [update_rest_eq_self unit valid still.symm]
    exact min_le_left _ _
  · have nonzero := turned_ne_zero unit valid moves gain small
    have positive := pow_pos (norm_pos_iff.mpr nonzero) 2
    have inside : 0 ≤ 1 - cosTilt a q ^ 2 := by
      have angle := abs_le.mp (abs_cosTilt_le unit valid)
      nlinarith
    rw [cosTilt_update unit valid moves gain small]
    rcases le_or_gt 0 (halfLength q a - beta / f * measuredRadial q a) with ahead | past
    · apply min_le_of_left_le
      have gained := div_nonneg
        (mul_nonneg (mul_nonneg (mul_nonneg zero_le_two ahead) gain) inside) positive.le
      linarith
    · apply min_le_of_right_le
      have length := norm_turned_sq (u := halfLength q a - beta / f * measuredRadial q a)
        (v := beta / f) direction_vertical (direction_measuredVertical valid) unit
      have missed := overshoot halfLength_nonneg (halfLength_sq unit valid)
        (abs_cosTilt_le unit valid) gain small (sub_neg.mp past)
      change _ = _ + _ + _ * cosTilt a q at length
      rw [← length] at missed
      rw [← sub_le_iff_le_add', le_div_iff₀ positive]
      linarith

/-- Outside that of the gain, the angle shrinks. -/
theorem tilt_step_lt (unit : ‖q‖ = 1) (valid : a ≠ 0) (gain : 0 < beta / f) (small : beta / f < 1)
    (tilted : -1 < cosTilt a q) (far : cosTilt a q < √(1 - (beta / f) ^ 2))
    : cosTilt a q < cosTilt a ((exactArithmetic f).madgwickAHRSupdate beta q 0 a 0) := by
  have below : cosTilt a q < 1 :=
    far.trans_le (Real.sqrt_le_one.mpr (sub_le_self _ (sq_nonneg _)))
  have inside : 0 < 1 - cosTilt a q ^ 2 := by nlinarith
  have root := halfLength_sq unit valid
  have moves : 0 < halfLength q a := by
    refine halfLength_nonneg.lt_of_ne ?_
    intro still
    rw [← still] at root
    nlinarith [sq_nonneg (measuredRadial q a - cosTilt a q)]
  have ahead := forward halfLength_nonneg root gain small far
  have positive := pow_pos
    (norm_pos_iff.mpr (turned_ne_zero unit valid moves gain.le small)) 2
  rw [cosTilt_update unit valid moves gain.le small]
  have gained := div_pos (mul_pos (mul_pos (mul_pos zero_lt_two ahead) gain) inside) positive
  linarith

/-- The gyroscope and the magnetometer measure nothing, the accelerometer always measures the same
direction, and the gain is bounded.
-/
structure Rests (a : Axes ℝ) (f rate : ℝ) (u : Update ℝ) : Prop where
  gyro : u.g = 0
  magnetometer : u.m = 0
  valid : u.a ≠ 0
  acceleration : measuredVertical u.a = measuredVertical a
  gain : 0 ≤ u.beta / f
  bounded : u.beta / f ≤ rate

variable {rate : ℝ} {u : Update ℝ}

/-- One update at rest, for the direction that all of them measure. -/
theorem Rests.step (rests : Rests a f rate u) (small : rate < 1) (unit : ‖q‖ = 1)
    : ‖(exactArithmetic f).madgwickAHRSupdate u.beta q u.g u.a u.m‖ = 1
      ∧ min (cosTilt a q) (1 - 2 * rate ^ 2)
        ≤ cosTilt a ((exactArithmetic f).madgwickAHRSupdate u.beta q u.g u.a u.m)
      ∧ (0 < u.beta / f → -1 < cosTilt a q → cosTilt a q < √(1 - (u.beta / f) ^ 2)
        → cosTilt a q
          < cosTilt a ((exactArithmetic f).madgwickAHRSupdate u.beta q u.g u.a u.m)) := by
  have below := rests.bounded.trans_lt small
  have same : ∀ p, cosTilt u.a p = cosTilt a p := fun p => by
    rw [cosTilt, rests.acceleration, cosTilt]
  rw [rests.gyro, rests.magnetometer, ← same, ← same]
  refine ⟨norm_update_rest unit (abs_lt.mpr ⟨by linarith [rests.gain], below⟩), ?_, ?_⟩
  · refine le_trans (min_le_min_left _ ?_) (tilt_step unit rests.valid rests.gain below)
    have squares := pow_le_pow_left₀ rests.gain rests.bounded 2
    linarith
  · intro gain tilted far
    exact tilt_step_lt unit rests.valid gain below tilted far

/-- An accelerometer along the first axis. -/
def sideways : Axes ℝ := ⟨1, 0, 0⟩

theorem sideways_ne_zero : sideways ≠ 0 := fun zero => one_ne_zero (congrArg Axes.x zero)

theorem cosTilt_sideways : cosTilt sideways 1 = 0 := by
  have upright : inSensorFrame 1 vertical = vertical.toQuaternion := by
    rw [inSensorFrame, carried, star_one, one_mul, mul_one]
  rw [cosTilt, upright, measuredVertical_eq, inner_smul_right, QuaternionTurn.inner_eq]
  simp [vertical, sideways]

end Rest

-----------------------------------------------------------------------------------------
-- The gain of the start

section Lost

variable {q : ℍ[ℝ]} {g a : Axes ℝ} {f : ℝ}

theorem gyroRate_eq (q : ℍ[ℝ]) (g : Axes ℝ)
    : gyroRate q g = (1 / 2 : ℝ) • (q * g.toQuaternion) := by
  ext <;> simp [gyroRate]

/-- A vector in the unit ball whose product with a unit vector is one is that vector. -/
theorem eq_of_inner_eq_one {s : ℍ[ℝ]} (unit : ‖q‖ = 1) (ball : ‖s‖ ≤ 1) (inner : ⟪q, s⟫ = 1)
    : s = q := by
  have distance := norm_sub_sq_real s q
  rw [real_inner_comm, inner, unit] at distance
  have length : ‖s‖ ^ 2 ≤ 1 := pow_le_one₀ (norm_nonneg s) ball
  have zero : ‖s - q‖ ^ 2 = 0 := le_antisymm (by linarith) (sq_nonneg _)
  exact sub_eq_zero.mp (norm_eq_zero.mp (pow_eq_zero_iff two_ne_zero |>.mp zero))

/-- At a gain of one, an update cancels the quaternion exactly if the gyroscope is still and the
normalised correction is the quaternion.
-/
theorem update_eq_zero_iff (frequency : f ≠ 0) (unit : ‖q‖ = 1) (valid : a ≠ 0)
    : (exactArithmetic f).madgwickAHRSupdate f q g a 0 = 0
      ↔ g = 0 ∧ (exactArithmetic f).normalise
          (stepIMU q ((exactArithmetic 1).normaliseAxes a)) = q := by
  have still : ¬(a.x = 0 ∧ a.y = 0 ∧ a.z = 0) := fun zero =>
    valid (Axes.ext zero.1 zero.2.1 zero.2.2)
  have correction : (exactArithmetic f).correction q a 0
      = stepIMU q ((exactArithmetic 1).normaliseAxes a) := by
    rw [Arithmetic.correction, if_neg still, if_pos ⟨rfl, rfl, rfl⟩]
    rfl
  have rate : f / (exactArithmetic f).sampleFreq = 1 := div_self frequency
  have cancels : ∀ x, (exactArithmetic f).normalise x = 0 ↔ x = 0 := fun x => by
    rw [normalise_exact, smul_eq_zero, inv_eq_zero, norm_eq_zero, or_self]
  rw [Arithmetic.madgwickAHRSupdate_eq, cancels, correction, rate, one_smul, sub_eq_zero]
  generalize stepIMU q ((exactArithmetic 1).normaliseAxes a) = s
  have ball : ‖(exactArithmetic f).normalise s‖ ≤ 1 := by
    rw [Arithmetic.normalise_eq_rescale]
    have length := SphereDescent.norm_rescale_le (x := s) (reciprocal_exact f) le_rfl zero_le_one
    rwa [add_zero] at length
  constructor
  · intro cancel
    have inner : ⟪q, (exactArithmetic f).normalise s⟫ = 1 := by
      rw [← cancel, inner_add_right, inner_smul_right, inner_gyroRate,
        real_inner_self_eq_norm_sq, unit]
      ring
    have same := eq_of_inner_eq_one unit ball inner
    refine ⟨?_, same⟩
    rw [same, add_eq_left, smul_eq_zero, gyroRate_eq, smul_eq_zero, mul_eq_zero] at cancel
    have nonzero : q ≠ 0 := norm_ne_zero_iff.mp (by rw [unit]; exact one_ne_zero)
    rcases cancel with none | half | zero | none
    · exact absurd none (one_div_ne_zero frequency)
    · norm_num at half
    · exact absurd zero nonzero
    · exact axes_eq_zero none
  · rintro ⟨rfl, same⟩
    rw [same, gyroRate_still, smul_zero, add_zero]

/-- A step along the quaternion, by the product of the vertical and the measurement. -/
theorem step_along_iff (unit : ‖q‖ = 1) (a : Axes ℝ) (length : ℝ)
    : stepIMU q ((exactArithmetic 1).normaliseAxes a) = (2 * length) • q
      ↔ inSensorFrame q vertical * measuredVertical a
        = ((length - measuredRadial q a : ℝ) : ℍ[ℝ]) := by
  have right : q * star q = 1 := mul_star_of_norm unit
  have left : star q * q = 1 := mul_eq_one_comm.mp right
  have turn : vertical.toQuaternion * q * measuredVertical a
      = q * (inSensorFrame q vertical * measuredVertical a) := by
    rw [inSensorFrame, carried]
    calc vertical.toQuaternion * q * measuredVertical a
        = 1 * vertical.toQuaternion * q * measuredVertical a := by rw [one_mul]
      _ = q * (star q * vertical.toQuaternion * q * measuredVertical a) := by
        rw [← right]
        noncomm_ring
  have step : stepIMU q ((exactArithmetic 1).normaliseAxes a)
      = (2 : ℝ) • (measuredRadial q a • q
        + q * (inSensorFrame q vertical * measuredVertical a)) := by
    rw [stepIMU_eq_turned unit, ← turn]
    change (2 : ℝ) • turned q _ (measuredVertical a) (measuredRadial q a) (-1) = _
    rw [turned, neg_one_smul, sub_neg_eq_add]
  rw [step, mul_smul, (smul_right_injective ℍ[ℝ] (two_ne_zero' ℝ)).eq_iff, ← eq_sub_iff_add_eq',
    ← sub_smul]
  constructor
  · intro along
    have cancelled := congrArg (star q * ·) along
    rw [← mul_assoc, left, one_mul, mul_smul_comm, left] at cancelled
    rw [cancelled, ← coe_one, smul_coe, mul_one]
  · intro product
    rw [product, ← coe_commutes, coe_mul_eq_smul]

/-- The correction is the quaternion itself where the measurement is opposite to a vertical that is
not that of the sensor.
-/
theorem normalise_stepIMU_eq_self_iff (unit : ‖q‖ = 1) (valid : a ≠ 0)
    : (exactArithmetic f).normalise (stepIMU q ((exactArithmetic 1).normaliseAxes a)) = q
      ↔ measuredVertical a = -inSensorFrame q vertical
        ∧ inSensorFrame q vertical ≠ vertical.toQuaternion := by
  have carriedDirection : Direction (inSensorFrame q vertical) :=
    direction_vertical.carried (mul_star_of_norm unit)
  have measured := direction_measuredVertical valid
  have radius : measuredRadial q a
      = 1 + (measuredVertical a).imK - (inSensorFrame q vertical).imK := rfl
  rw [normalise_exact]
  constructor
  · intro same
    have nonzero : ‖stepIMU q ((exactArithmetic 1).normaliseAxes a)‖ ≠ 0 := by
      intro zero
      rw [zero, inv_zero, zero_smul] at same
      rw [← same, norm_zero] at unit
      exact zero_ne_one unit
    have along : stepIMU q ((exactArithmetic 1).normaliseAxes a) = (2 * halfLength q a) • q := by
      rw [halfLength, half, mul_div_cancel₀ _ two_ne_zero]
      exact ((inv_smul_eq_iff₀ nonzero).mp same)
    have product := (step_along_iff unit a _).mp along
    have positive : halfLength q a ≠ 0 := div_ne_zero nonzero two_ne_zero
    have reflected : inSensorFrame q vertical
        = -(halfLength q a - measuredRadial q a) • measuredVertical a := by
      have twice := congrArg (· * measuredVertical a) product
      rw [mul_assoc, measured.mul_self, mul_neg_one, coe_mul_eq_smul] at twice
      rw [neg_smul, ← twice, neg_neg]
    have sign : (halfLength q a - measuredRadial q a) ^ 2 = 1 := by
      have length := congrArg (‖·‖ ^ 2) reflected
      rw [norm_smul, carriedDirection.norm_eq_one, measured.norm_eq_one, mul_one,
        Real.norm_eq_abs, sq_abs, neg_sq] at length
      linarith
    rcases sq_eq_one_iff.mp sign with ahead | back
    · rw [ahead, neg_one_smul] at reflected
      refine ⟨by rw [reflected, neg_neg], ?_⟩
      intro upright
      apply positive
      have heights : (inSensorFrame q vertical).imK = -(measuredVertical a).imK := by
        rw [reflected, imK_neg]
      have top : (inSensorFrame q vertical).imK = 1 := by
        rw [upright]
        rfl
      linarith
    · rw [back, neg_neg, one_smul] at reflected
      have heights := congrArg (fun x : ℍ[ℝ] => x.imK) reflected
      exact absurd (by linarith) positive
  · rintro ⟨opposite, tilted⟩
    have top : (inSensorFrame q vertical).imK
        = ⟪vertical.toQuaternion, inSensorFrame q vertical⟫ := by
      rw [QuaternionTurn.inner_eq]
      simp [vertical]
    have below : (inSensorFrame q vertical).imK < 1 := by
      rw [top]
      refine lt_of_le_of_ne (le_of_abs_le (direction_vertical.abs_inner_le carriedDirection)) ?_
      intro upright
      exact tilted (eq_of_inner_eq_one direction_vertical.norm_eq_one
        carriedDirection.norm_eq_one.le upright)
    have heights : (measuredVertical a).imK = -(inSensorFrame q vertical).imK := by
      rw [opposite, imK_neg]
    have product : inSensorFrame q vertical * measuredVertical a
        = ((2 - 2 * (inSensorFrame q vertical).imK - measuredRadial q a : ℝ) : ℍ[ℝ]) := by
      rw [radius, heights, opposite, mul_neg, carriedDirection.mul_self, neg_neg, ← coe_one]
      congr 1
      ring
    have along := (step_along_iff unit a _).mpr product
    have length : 0 < 2 * (2 - 2 * (inSensorFrame q vertical).imK) := by linarith
    rw [along, norm_smul, unit, mul_one, Real.norm_of_nonneg length.le,
      inv_smul_smul₀ length.ne']

/-- With the gain of the start, that of the sample frequency, an update from the unit sphere loses
the attitude exactly if the gyroscope is still and the acceleration is opposite to a vertical that
is not that of the sensor. No later update finds it again.
-/
theorem lost_iff (frequency : f ≠ 0) (unit : ‖q‖ = 1) (valid : a ≠ 0)
    : ((exactArithmetic f).madgwickAHRSupdate f q g a 0 = 0
        ↔ g = 0
          ∧ measuredVertical a = -inSensorFrame q vertical
          ∧ inSensorFrame q vertical ≠ vertical.toQuaternion)
      ∧ ∀ later : List (Update ℝ), (exactArithmetic f).run 0 later = 0 := by
  constructor
  · rw [update_eq_zero_iff frequency unit valid, normalise_stepIMU_eq_self_iff unit valid]
  · exact Arithmetic.run_zero (reciprocal_exact f) le_rfl zero_le_one

/-- A half turn about the first axis. -/
@[simps] def halfTurn : ℍ[ℝ] := ⟨0, 1, 0, 0⟩

theorem norm_halfTurn : ‖halfTurn‖ = 1 := by
  have square := normSq_eq_norm_mul_self halfTurn
  rw [normSq_def', ← sq] at square
  norm_num at square
  exact (pow_eq_one_iff_of_nonneg (norm_nonneg _) two_ne_zero).mp square.symm

theorem vertical_ne_zero : vertical ≠ 0 := fun zero => one_ne_zero (congrArg Axes.z zero)

/-- Overturned and at rest, the filter loses its attitude. -/
theorem lost_iff_halfTurn
    : (exactArithmetic 10).madgwickAHRSupdate 10 halfTurn 0 vertical 0 = 0
      ∧ ∀ later : List (Update ℝ), (exactArithmetic 10).run 0 later = 0 := by
  have image : inSensorFrame halfTurn vertical = -vertical.toQuaternion := by
    ext <;> simp [inSensorFrame, carried, vertical]
  have measured : measuredVertical vertical = vertical.toQuaternion := by
    rw [measuredVertical_eq, direction_vertical.norm_eq_one, inv_one, one_smul]
  have overturned : -vertical.toQuaternion ≠ vertical.toQuaternion := by
    intro same
    have heights := congrArg (fun x : ℍ[ℝ] => x.imK) same
    norm_num [vertical] at heights
  obtain ⟨lost, never⟩ := lost_iff (g := 0) (by norm_num : (10 : ℝ) ≠ 0) norm_halfTurn
    vertical_ne_zero
  rw [image, measured, neg_neg] at lost
  exact ⟨lost.mpr ⟨rfl, rfl, overturned⟩, never⟩

end Lost

end

end Granum.Madgwick
