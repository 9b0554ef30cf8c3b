import Granum.Library.BoundedTurn
import Granum.Madgwick.Tilt

/-! The tilt of a resting sensor, with a reciprocal root that misses by a tolerance. The quaternion
is then a little too long or too short, and the correction aims beside the measured acceleration.
-/

namespace Granum.Madgwick

open InnerProductGeometry Quaternion QuaternionTurn SphereDescent
open scoped Real RealInnerProductSpace

noncomputable section

variable {c : Arithmetic ℝ} {q : ℍ[ℝ]} {a : Axes ℝ} {tolerance rate beta : ℝ}

/-- The angle between the vertical in the frame of the sensor and the measured one. -/
def tilt (a : Axes ℝ) (q : ℍ[ℝ]) : ℝ := angle (inSensorFrame q vertical) (measuredVertical a)

/-- What the correction aims at, instead of the measured acceleration. -/
def aim (c : Arithmetic ℝ) (q : ℍ[ℝ]) (a : Axes ℝ) : Axes ℝ :=
  ⟨(c.normaliseAxes a).x, (c.normaliseAxes a).y, (c.normaliseAxes a).z + (normSq q - 1)⟩

/-- How far the step leads along the quaternion, for any length of it. -/
def lengthwise (c : Arithmetic ℝ) (q : ℍ[ℝ]) (a : Axes ℝ) : ℝ :=
  normSq q - (inSensorFrame q vertical).imK + (normSq q - 1) + (c.normaliseAxes a).z

/-- How far beside, as a part of the length of the acceleration. -/
def miss (tolerance : ℝ) : ℝ := ((1 + tolerance) ^ 2 - 1) / (1 - tolerance)

/-- The part of the quaternion by which an update can move it. -/
def move (tolerance rate : ℝ) : ℝ := rate * (1 + tolerance) / (1 - tolerance)

/-- The angle that updates at rest cannot leave. -/
def tiltBound (tolerance rate : ℝ) : ℝ :=
  2 • Real.arcsin (move tolerance rate) + Real.arcsin (miss tolerance)

-----------------------------------------------------------------------------------------
-- The aim

theorem aim_toQuaternion (c : Arithmetic ℝ) (q : ℍ[ℝ]) (a : Axes ℝ)
    : (aim c q a).toQuaternion
      = (c.normaliseAxes a).toQuaternion + (normSq q - 1) • vertical.toQuaternion := by
  ext <;> simp [aim, vertical]

theorem stepIMU_eq_aim (c : Arithmetic ℝ) (q : ℍ[ℝ]) (a : Axes ℝ)
    : stepIMU q (c.normaliseAxes a)
      = (2 : ℝ) • (lengthwise c q a • q
        + vertical.toQuaternion * q * (aim c q a).toQuaternion) := by
  rw [stepIMU_eq, aim_toQuaternion, lengthwise]

section Aim

variable (reciprocal : ReciprocalRoot c.invSqrt tolerance) (below : tolerance < 1)
  (beside : miss tolerance < 1) (near : Near tolerance q) (valid : a ≠ 0)

include near in
theorem tolerance_nonneg : 0 ≤ tolerance := by
  have lower := near.lower
  have upper := near.upper
  linarith

include near below in
theorem miss_nonneg : 0 ≤ miss tolerance := by
  have nonneg := tolerance_nonneg near
  exact div_nonneg (by nlinarith) (sub_nonneg.mpr below.le)

include reciprocal below near valid in
/-- The aim misses the normalised acceleration by a part of its length. -/
theorem norm_missed_le
    : ‖(normSq q - 1) • vertical.toQuaternion‖
      ≤ miss tolerance * ‖(c.normaliseAxes a).toQuaternion‖ := by
  have nonneg := tolerance_nonneg near
  have rest : 0 < 1 - tolerance := sub_pos.mpr below
  have length : 1 - tolerance ≤ ‖(c.normaliseAxes a).toQuaternion‖ := by
    rw [normaliseAxes_eq_rescale]
    exact (near_rescale reciprocal below.le (Axes.toQuaternion_ne_zero valid)).lower
  have norm : |normSq q - 1| ≤ (1 + tolerance) ^ 2 - 1 := by
    have lower := near.lower
    have upper := near.upper
    rw [normSq_eq_norm_mul_self, abs_le]
    constructor <;> nlinarith [norm_nonneg q]
  rw [norm_smul, direction_vertical.norm_eq_one, mul_one, Real.norm_eq_abs]
  calc |normSq q - 1| ≤ (1 + tolerance) ^ 2 - 1 := norm
    _ = miss tolerance * (1 - tolerance) := (div_mul_cancel₀ _ rest.ne').symm
    _ ≤ miss tolerance * ‖(c.normaliseAxes a).toQuaternion‖ :=
        mul_le_mul_of_nonneg_left length (miss_nonneg below near)

include reciprocal below beside near valid in
theorem aim_ne_zero : aim c q a ≠ 0 := by
  intro zero
  have missed := norm_missed_le reciprocal below near valid
  have length : 0 < ‖(c.normaliseAxes a).toQuaternion‖ := by
    rw [normaliseAxes_eq_rescale]
    exact (sub_pos.mpr below).trans_le
      (near_rescale reciprocal below.le (Axes.toQuaternion_ne_zero valid)).lower
  have silent : (0 : Axes ℝ).toQuaternion = 0 := by
    ext <;> rfl
  have opposite := aim_toQuaternion c q a
  rw [zero, silent] at opposite
  rw [← neg_eq_of_add_eq_zero_right opposite.symm, norm_neg] at missed
  nlinarith

include reciprocal below beside near valid in
/-- The aim is beside the measured acceleration by the angle of the miss at most. -/
theorem angle_aim_le
    : angle (measuredVertical (aim c q a)) (measuredVertical a) ≤ Real.arcsin (miss tolerance) := by
  obtain ⟨factor, positive, scaled⟩ := rescale_eq_smul reciprocal below a.toQuaternion
  rw [← normaliseAxes_eq_rescale] at scaled
  have aimed := norm_pos_iff.mpr
    (Axes.toQuaternion_ne_zero (aim_ne_zero reciprocal below beside near valid))
  have measured := norm_pos_iff.mpr (Axes.toQuaternion_ne_zero valid)
  have nonzero : (c.normaliseAxes a).toQuaternion ≠ 0 := by
    rw [scaled]
    exact smul_ne_zero positive.ne' (Axes.toQuaternion_ne_zero valid)
  have deviation := angle_add_le nonzero (miss_nonneg below near) beside
    (norm_missed_le reciprocal below near valid)
  rw [← aim_toQuaternion, scaled, angle_smul_right_of_pos _ _ positive] at deviation
  rwa [measuredVertical_eq, measuredVertical_eq, angle_smul_left_of_pos _ _ (inv_pos.mpr aimed),
    angle_smul_right_of_pos _ _ (inv_pos.mpr measured)]

-----------------------------------------------------------------------------------------
-- The update as a turn

/-- The direction of the quaternion. -/
def attitude (q : ℍ[ℝ]) : ℍ[ℝ] := ‖q‖⁻¹ • q

theorem tilt_smul {factor : ℝ} (positive : 0 < factor) (a : Axes ℝ) (q : ℍ[ℝ])
    : tilt a (factor • q) = tilt a q := by
  rw [tilt, inSensorFrame, carried_smul, angle_smul_left_of_pos _ _ (pow_pos positive 2), tilt,
    inSensorFrame]

include reciprocal below beside near valid in
/-- An update at rest turns the vertical towards the aim, by a bounded part of the quaternion. -/
theorem update_eq_turned (gain : 0 ≤ beta / c.sampleFreq) (bounded : beta / c.sampleFreq ≤ rate)
    : ∃ u v factor : ℝ, 0 ≤ v ∧ (0 < beta / c.sampleFreq → 0 < v) ∧ 0 < factor
        ∧ c.madgwickAHRSupdate beta q 0 a 0
          = factor • turned (attitude q) vertical.toQuaternion (measuredVertical (aim c q a)) u v
        ∧ ‖attitude q
            - turned (attitude q) vertical.toQuaternion (measuredVertical (aim c q a)) u v‖
          ≤ move tolerance rate := by
  have rest : 0 < 1 - tolerance := sub_pos.mpr below
  have nonneg := tolerance_nonneg near
  have length : 0 < ‖q‖ := rest.trans_le near.lower
  have aimed := norm_pos_iff.mpr
    (Axes.toQuaternion_ne_zero (aim_ne_zero reciprocal below beside near valid))
  obtain ⟨inner, innerPos, step⟩ :=
    rescale_eq_smul reciprocal below (stepIMU q (c.normaliseAxes a))
  obtain ⟨outer, outerPos, result⟩ := rescale_eq_smul reciprocal below
    (q - (beta / c.sampleFreq) • c.normalise (stepIMU q (c.normaliseAxes a)))
  have correction := norm_rescale_le (x := stepIMU q (c.normaliseAxes a)) reciprocal nonneg below.le
  let u := 1 - beta / c.sampleFreq * inner * 2 * lengthwise c q a
  let v := beta / c.sampleFreq * inner * 2 * ‖(aim c q a).toQuaternion‖
  have moved : q - (beta / c.sampleFreq) • c.normalise (stepIMU q (c.normaliseAxes a))
      = ‖q‖ • turned (attitude q) vertical.toQuaternion (measuredVertical (aim c q a)) u v := by
    rw [Arithmetic.normalise_eq_rescale, step, stepIMU_eq_aim, turned, attitude,
      measuredVertical_eq]
    simp only [mul_smul_comm, smul_mul_assoc, u, v]
    match_scalars <;> field_simp
  have distance : ‖attitude q
        - turned (attitude q) vertical.toQuaternion (measuredVertical (aim c q a)) u v‖
      = beta / c.sampleFreq * ‖rescale c.invSqrt (stepIMU q (c.normaliseAxes a))‖ / ‖q‖ := by
    have scaled : turned (attitude q) vertical.toQuaternion (measuredVertical (aim c q a)) u v
        = ‖q‖⁻¹ • (q - (beta / c.sampleFreq)
          • c.normalise (stepIMU q (c.normaliseAxes a))) := by
      rw [moved, inv_smul_smul₀ length.ne']
    rw [scaled, attitude, ← smul_sub, sub_sub_cancel, norm_smul, norm_smul, norm_inv, norm_norm,
      Real.norm_of_nonneg gain, Arithmetic.normalise_eq_rescale, inv_mul_eq_div]
  refine ⟨u, v, outer * ‖q‖,
    mul_nonneg (mul_nonneg (mul_nonneg gain innerPos.le) zero_le_two) aimed.le,
    fun moves => mul_pos (mul_pos (mul_pos moves innerPos) two_pos) aimed,
    mul_pos outerPos length, ?_, ?_⟩
  · rw [c.madgwickAHRSupdate_rest valid, Arithmetic.normalise_eq_rescale c (q - _), result, moved,
      smul_smul]
  · rw [distance, move]
    have size : 0 ≤ 1 + tolerance := by linarith
    have nonnegRate := gain.trans bounded
    exact div_le_div₀ (mul_nonneg nonnegRate size)
      (mul_le_mul bounded correction (norm_nonneg _) nonnegRate) rest near.lower

include reciprocal below beside near valid in
/-- The tilt does not grow, or it is within the bound; outside of the bound it shrinks. -/
theorem tilt_update (small : move tolerance rate < 1) (facing : tilt a q ≤ π / 2)
    (gain : 0 ≤ beta / c.sampleFreq) (bounded : beta / c.sampleFreq ≤ rate)
    : tilt a (c.madgwickAHRSupdate beta q 0 a 0) ≤ max (tilt a q) (tiltBound tolerance rate)
      ∧ (0 < beta / c.sampleFreq → tiltBound tolerance rate < tilt a q
        → tilt a (c.madgwickAHRSupdate beta q 0 a 0) < tilt a q) := by
  have length : 0 < ‖q‖ := (sub_pos.mpr below).trans_le near.lower
  have unit : ‖attitude q‖ = 1 := by
    rw [attitude, norm_smul, norm_inv, norm_norm, inv_mul_cancel₀ length.ne']
  have same : tilt a (attitude q) = tilt a q := tilt_smul (inv_pos.mpr length) a q
  have aside := angle_aim_le reciprocal below beside near valid
  have close := aside.trans (Real.arcsin_le_pi_div_two _)
  obtain ⟨u, v, factor, nonneg, moves, positive, update, distance⟩ :=
    update_eq_turned reciprocal below beside near valid gain bounded
  obtain ⟨kept, shrinks⟩ := angle_turned direction_vertical
    (direction_measuredVertical (aim_ne_zero reciprocal below beside near valid))
    (direction_measuredVertical valid) unit nonneg small distance (same.trans_le facing) close
  rw [update, tilt_smul positive, ← same]
  rw [tiltBound, two_nsmul, ← two_mul]
  refine ⟨kept.trans (max_le_max le_rfl (add_le_add_right aside _)), fun gained far => ?_⟩
  exact shrinks (moves gained) ((add_le_add_right aside _).trans_lt far)

end Aim

-----------------------------------------------------------------------------------------
-- Runs at rest

section Run

variable {updates : List (Update ℝ)} {u : Update ℝ}

theorem Rests.tilt_eq (rests : Rests a c.sampleFreq rate u) (q : ℍ[ℝ]) : tilt u.a q = tilt a q := by
  rw [tilt, rests.acceleration, tilt]

/-- One update at rest, for the direction that all of them measure. -/
theorem Rests.step_tilt (rests : Rests a c.sampleFreq rate u)
    (reciprocal : ReciprocalRoot c.invSqrt tolerance) (below : tolerance < 1)
    (beside : miss tolerance < 1) (small : move tolerance rate < 1) (near : Near tolerance q)
    (facing : tilt a q ≤ π / 2)
    : Near tolerance (c.madgwickAHRSupdate u.beta q u.g u.a u.m)
      ∧ tilt a (c.madgwickAHRSupdate u.beta q u.g u.a u.m)
        ≤ max (tilt a q) (tiltBound tolerance rate)
      ∧ (0 < u.beta / c.sampleFreq → tiltBound tolerance rate < tilt a q
        → tilt a (c.madgwickAHRSupdate u.beta q u.g u.a u.m) < tilt a q) := by
  have nonneg := tolerance_nonneg near
  have rate_small : |u.beta / c.sampleFreq| * (1 + tolerance) < 1 - tolerance := by
    rw [move, div_lt_one (sub_pos.mpr below)] at small
    rw [abs_of_nonneg rests.gain]
    exact (mul_le_mul_of_nonneg_right rests.bounded (by linarith)).trans_lt small
  have step := (Arithmetic.madgwickAHRSupdate_step reciprocal nonneg below.le u.beta q u.g u.a
    u.m).near reciprocal below.le rate_small near
  refine ⟨step, ?_⟩
  rw [← rests.tilt_eq] at facing
  simp only [← rests.tilt_eq]
  rw [rests.gyro, rests.magnetometer]
  exact tilt_update reciprocal below beside near rests.valid small facing rests.gain rests.bounded

/-- The shell and the bound hold throughout, by induction on the updates. -/
theorem tilt_invariant (reciprocal : ReciprocalRoot c.invSqrt tolerance) (below : tolerance < 1)
    (beside : miss tolerance < 1) (small : move tolerance rate < 1) (near : Near tolerance q)
    (facing : tilt a q ≤ π / 2) (narrow : tiltBound tolerance rate ≤ π / 2)
    (rest : ∀ u ∈ updates, Rests a c.sampleFreq rate u)
    : Near tolerance (c.run q updates)
      ∧ tilt a (c.run q updates) ≤ max (tilt a q) (tiltBound tolerance rate) := by
  induction updates using List.reverseRecOn with
  | nil => exact ⟨near, le_max_left _ _⟩
  | append_singleton seen u ih =>
      obtain ⟨before, last⟩ := List.forall_mem_append.mp rest
      obtain ⟨shell, bound⟩ := ih before
      have step := (List.forall_mem_singleton.mp last).step_tilt reciprocal below beside small shell
        (bound.trans (max_le facing narrow))
      rw [Arithmetic.run_concat]
      exact ⟨step.1, step.2.1.trans (max_le bound (le_max_right _ _))⟩

/-- Over a run at rest, whose reciprocal root is right up to a tolerance, the angle between the
vertical and the measured one never exceeds both its first value and the bound; and it shrinks with
every update that finds it outside of the bound.
-/
theorem tilt_run_tolerance (reciprocal : ReciprocalRoot c.invSqrt tolerance)
    (below : tolerance < 1) (beside : miss tolerance < 1) (small : move tolerance rate < 1)
    (near : Near tolerance q) (facing : tilt a q ≤ π / 2)
    (narrow : tiltBound tolerance rate ≤ π / 2)
    (rest : ∀ u ∈ updates, Rests a c.sampleFreq rate u)
    : (∀ seen, seen <+: updates
        → tilt a (c.run q seen) ≤ max (tilt a q) (tiltBound tolerance rate))
      ∧ (∀ seen u, seen ++ [u] <+: updates → 0 < u.beta / c.sampleFreq
        → tiltBound tolerance rate < tilt a (c.run q seen)
        → tilt a (c.run q (seen ++ [u])) < tilt a (c.run q seen)) := by
  constructor
  · intro seen before
    exact (tilt_invariant reciprocal below beside small near facing narrow
      fun u member => rest u (before.subset member)).2
  · intro seen u before gain far
    obtain ⟨earlier, last⟩ := List.forall_mem_append.mp fun u member =>
      rest u (before.subset member)
    obtain ⟨shell, bound⟩ :=
      tilt_invariant reciprocal below beside small near facing narrow earlier
    have step := (List.forall_mem_singleton.mp last).step_tilt reciprocal below beside small shell
      (bound.trans (max_le facing narrow))
    rw [Arithmetic.run_concat]
    exact step.2.2 gain far

/-- Roots that are low by the tolerance. -/
def lowArithmetic (tolerance f : ℝ) : Arithmetic ℝ where
  invSqrt x := (1 - tolerance) * (√x)⁻¹
  sqrt := Real.sqrt
  sampleFreq := f

theorem reciprocal_low (f : ℝ) (nonneg : 0 ≤ tolerance)
    : ReciprocalRoot (lowArithmetic tolerance f).invSqrt tolerance := by
  have root (x : ℝ) (positive : 0 < x)
      : (lowArithmetic tolerance f).invSqrt x * √x = 1 - tolerance := by
    rw [lowArithmetic, mul_assoc, inv_mul_cancel₀ (Real.sqrt_pos.mpr positive).ne', mul_one]
  refine ⟨fun x positive => (root x positive).ge, fun x positive => ?_⟩
  rw [root x positive]
  linarith

theorem tilt_sideways : tilt sideways 1 = π / 2 :=
  inner_eq_zero_iff_angle_eq_pi_div_two _ _ |>.mp cosTilt_sideways

theorem tiltBound_lt : tiltBound (1 / 1000) (1 / 10) < π / 2 := by
  have sixth {x : ℝ} (small : x < 1 / 2) : Real.arcsin x < π / 6 := by
    rw [Real.arcsin_lt_iff_lt_sin' ⟨by linarith [Real.pi_pos], by linarith [Real.pi_pos]⟩,
      Real.sin_pi_div_six]
    exact small
  have turn := sixth (show move (1 / 1000) (1 / 10) < 1 / 2 by norm_num [move])
  have aside := sixth (show miss (1 / 1000) < 1 / 2 by norm_num [miss])
  rw [tiltBound, two_nsmul]
  linarith

/-- A sensor that lies on its side is turned back, though the roots are low by a thousandth. -/
theorem tilt_run_tolerance_sideways
    : (∀ seen, seen <+: [⟨1, 0, sideways, 0⟩, ⟨1, 0, sideways, 0⟩]
        → tilt sideways ((lowArithmetic (1 / 1000) 10).run 1 seen) ≤ π / 2)
      ∧ tilt sideways ((lowArithmetic (1 / 1000) 10).run 1 [⟨1, 0, sideways, 0⟩]) < π / 2 := by
  have rests : Rests sideways (lowArithmetic (1 / 1000) 10).sampleFreq (1 / 10)
      ⟨1, 0, sideways, 0⟩ :=
    ⟨rfl, rfl, sideways_ne_zero, rfl, by norm_num [lowArithmetic], by norm_num [lowArithmetic]⟩
  have rest := List.forall_mem_cons.mpr ⟨rests, List.forall_mem_singleton.mpr rests⟩
  obtain ⟨bounded, shrinks⟩ := tilt_run_tolerance
    (reciprocal_low 10 (by norm_num : (0 : ℝ) ≤ 1 / 1000)) (by norm_num) (by norm_num [miss])
    (by norm_num [move]) ⟨by simp, by simp⟩ tilt_sideways.le tiltBound_lt.le rest
  rw [tilt_sideways] at bounded
  constructor
  · intro seen before
    exact (bounded seen before).trans (max_le le_rfl tiltBound_lt.le)
  · have first := shrinks [] ⟨1, 0, sideways, 0⟩ ⟨_, rfl⟩ (by norm_num [lowArithmetic])
      (tiltBound_lt.trans_eq tilt_sideways.symm)
    exact first.trans_eq tilt_sideways

end Run

-----------------------------------------------------------------------------------------
-- The gain of the start

section Lost

variable {g : Axes ℝ}

/-- An update that loses the attitude has a correction that is the quaternion with the turn of the
gyroscope added.
-/
theorem update_lost_iff (reciprocal : ReciprocalRoot c.invSqrt tolerance) (below : tolerance < 1)
    (frequency : c.sampleFreq ≠ 0) (valid : a ≠ 0)
    : c.madgwickAHRSupdate c.sampleFreq q g a 0 = 0
      ↔ c.normalise (stepIMU q (c.normaliseAxes a)) = q + (1 / c.sampleFreq) • gyroRate q g := by
  have still : ¬(a.x = 0 ∧ a.y = 0 ∧ a.z = 0) := fun zero =>
    valid (Axes.ext zero.1 zero.2.1 zero.2.2)
  have correction : c.correction q a 0 = stepIMU q (c.normaliseAxes a) := by
    rw [Arithmetic.correction, if_neg still, if_pos ⟨rfl, rfl, rfl⟩]
  obtain ⟨factor, positive, scaled⟩ := rescale_eq_smul reciprocal below
    (q + (1 / c.sampleFreq) • gyroRate q g - c.normalise (stepIMU q (c.normaliseAxes a)))
  rw [Arithmetic.madgwickAHRSupdate_eq, correction, div_self frequency, one_smul,
    Arithmetic.normalise_eq_rescale c (_ - _), scaled, smul_eq_zero, or_iff_right positive.ne',
    sub_eq_zero, eq_comm]

/-- With the gain of the start, an update can only lose the attitude where the gyroscope is almost
still, as far as the root is right, and no later update finds it again.
-/
theorem lost_tolerance (reciprocal : ReciprocalRoot c.invSqrt tolerance) (below : tolerance < 1)
    (near : Near tolerance q) (frequency : c.sampleFreq ≠ 0) (valid : a ≠ 0)
    : (c.madgwickAHRSupdate c.sampleFreq q g a 0 = 0
        ↔ c.normalise (stepIMU q (c.normaliseAxes a)) = q + (1 / c.sampleFreq) • gyroRate q g)
      ∧ (c.madgwickAHRSupdate c.sampleFreq q g a 0 = 0
        → ‖c.normalise (stepIMU q (c.normaliseAxes a)) - q‖ ^ 2 ≤ 4 * tolerance
          ∧ ((1 - tolerance) * ‖g.toQuaternion‖ / (2 * c.sampleFreq)) ^ 2 ≤ 4 * tolerance)
      ∧ ∀ later : List (Update ℝ), c.run 0 later = 0 := by
  have nonneg := tolerance_nonneg near
  have lost := update_lost_iff (q := q) (g := g) reciprocal below frequency valid
  refine ⟨lost, fun zero => ?_, Arithmetic.run_zero reciprocal nonneg below.le⟩
  have correction := lost.mp zero
  have orthogonal : ⟪q, (1 / c.sampleFreq) • gyroRate q g⟫ = 0 := by
    rw [inner_smul_right, inner_gyroRate, mul_zero]
  have square := norm_add_sq_eq_norm_sq_add_norm_sq_of_inner_eq_zero q _ orthogonal
  have upper := norm_rescale_le (x := stepIMU q (c.normaliseAxes a)) reciprocal nonneg below.le
  rw [← Arithmetic.normalise_eq_rescale, correction] at upper
  have turned : ‖(1 / c.sampleFreq) • gyroRate q g‖ ^ 2 ≤ 4 * tolerance := by
    nlinarith [near.lower, norm_nonneg (q + (1 / c.sampleFreq) • gyroRate q g)]
  constructor
  · rwa [correction, add_sub_cancel_left]
  · refine le_trans ?_ turned
    rw [gyroRate_eq, norm_smul, norm_smul, norm_mul, mul_pow, mul_pow, mul_pow,
      Real.norm_eq_abs, Real.norm_eq_abs, sq_abs, sq_abs]
    have shell := pow_le_pow_left₀ (sub_nonneg.mpr below.le) near.lower 2
    calc ((1 - tolerance) * ‖g.toQuaternion‖ / (2 * c.sampleFreq)) ^ 2
        = (1 / c.sampleFreq) ^ 2
            * ((1 / 2) ^ 2 * ((1 - tolerance) ^ 2 * ‖g.toQuaternion‖ ^ 2)) := by ring
      _ ≤ (1 / c.sampleFreq) ^ 2 * ((1 / 2) ^ 2 * (‖q‖ ^ 2 * ‖g.toQuaternion‖ ^ 2)) := by
          gcongr

/-- A half turn of the length that low roots lead to is lost all the same. -/
theorem lost_tolerance_halfTurn
    : (lowArithmetic (1 / 1000) 10).madgwickAHRSupdate 10 ((999 / 1000 : ℝ) • halfTurn) 0 vertical 0
        = 0
      ∧ ∀ later : List (Update ℝ), (lowArithmetic (1 / 1000) 10).run 0 later = 0 := by
  have low := reciprocal_low 10 (by norm_num : (0 : ℝ) ≤ 1 / 1000)
  have near : Near (1 / 1000) ((999 / 1000 : ℝ) • halfTurn) := by
    constructor <;> rw [norm_smul, norm_halfTurn] <;> norm_num
  have step : stepIMU ((999 / 1000 : ℝ) • halfTurn)
        ((lowArithmetic (1 / 1000) 10).normaliseAxes vertical)
      = ⟨0, 4 * (999 / 1000) * (2 * (999 / 1000) ^ 2 - 1 / 1000), 0, 0⟩ := by
    ext <;> norm_num [stepIMU, vertical, Arithmetic.normaliseAxes, lowArithmetic]
  obtain ⟨lost, -, never⟩ := lost_tolerance (g := 0) low (by norm_num) near
    (by norm_num [lowArithmetic]) vertical_ne_zero
  refine ⟨lost.mpr ?_, never⟩
  rw [step, gyroRate_still, smul_zero, add_zero]
  ext <;> norm_num [Arithmetic.normalise, lowArithmetic, Real.sqrt_mul_self]

end Lost

end

end Granum.Madgwick
