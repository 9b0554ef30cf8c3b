import Granum.Library.QuaternionTurn
import Granum.Library.SphereDescent
import Granum.Madgwick.MadgwickAHRS

/-! The norm of the filter's quaternion over runs. The gyroscope moves the quaternion along the unit
sphere, and the correction shortens it by the gain at most. Sums and products are those of the
reals; the reciprocal root may miss by a relative tolerance, as that of the filter does.
-/

namespace Granum.Madgwick

open Quaternion
open scoped RealInnerProductSpace

noncomputable section

variable {c : Arithmetic ℝ} {tolerance : ℝ} {q : ℍ[ℝ]}

/-- An idealisation of the filter, with exact roots. -/
def exactArithmetic (sampleFreq : ℝ) : Arithmetic ℝ where
  invSqrt x := (√x)⁻¹
  sqrt := Real.sqrt
  sampleFreq := sampleFreq

theorem reciprocal_exact (f : ℝ) : ReciprocalRoot (exactArithmetic f).invSqrt 0 :=
  ReciprocalRoot.exact

/-- The gyroscope turns the quaternion. -/
theorem inner_gyroRate (q : ℍ[ℝ]) (g : Axes ℝ) : ⟪q, gyroRate q g⟫ = 0 := by
  rw [QuaternionTurn.inner_eq]
  simp only [gyroRate]
  ring

theorem Arithmetic.normalise_eq_rescale (c : Arithmetic ℝ) (q : ℍ[ℝ])
    : c.normalise q = SphereDescent.rescale c.invSqrt q := by
  rw [normalise_eq, SphereDescent.rescale, normSq_eq_norm_mul_self, sq]

/-- An update is a step of the descent, at the rate of its gain. -/
theorem Arithmetic.madgwickAHRSupdate_step (reciprocal : ReciprocalRoot c.invSqrt tolerance)
    (nonneg : 0 ≤ tolerance) (below : tolerance ≤ 1) (beta : ℝ) (q : ℍ[ℝ]) (g a m : Axes ℝ)
    : SphereDescent.Step c.invSqrt (|beta / c.sampleFreq| * (1 + tolerance)) q
        (c.madgwickAHRSupdate beta q g a m) := by
  refine ⟨(1 / c.sampleFreq) • gyroRate q g,
    (beta / c.sampleFreq) • c.normalise (c.correction q a m), ?_, ?_, ?_, ?_⟩
  · rw [inner_smul_right, inner_gyroRate, mul_zero]
  · have length := SphereDescent.norm_rescale_le (x := c.correction q a m) reciprocal nonneg below
    rw [norm_smul, Real.norm_eq_abs, normalise_eq_rescale]
    exact mul_le_mul_of_nonneg_left length (abs_nonneg _)
  · rintro rfl
    rw [gyroRate_zero, smul_zero, correction_zero, normalise_eq_rescale,
      SphereDescent.rescale_zero, smul_zero]
    exact ⟨rfl, rfl⟩
  · rw [madgwickAHRSupdate_eq, normalise_eq_rescale]

-----------------------------------------------------------------------------------------
-- Runs

namespace Arithmetic

/-- Nothing leaves zero, by induction on the updates. -/
theorem run_zero (reciprocal : ReciprocalRoot c.invSqrt tolerance) (nonneg : 0 ≤ tolerance)
    (below : tolerance ≤ 1)
    (updates : List (Update ℝ))
    : c.run 0 updates = 0 := by
  induction updates with
  | nil => rfl
  | cons u later ih =>
      rw [run_cons, (madgwickAHRSupdate_step reciprocal nonneg below u.beta 0 u.g u.a u.m).of_zero]
      exact ih

/-- By induction on the updates, the last of which decides. -/
theorem run_near_or_zero (reciprocal : ReciprocalRoot c.invSqrt tolerance) (nonneg : 0 ≤ tolerance)
    (below : tolerance ≤ 1)
    (start : SphereDescent.Near tolerance q) (updates : List (Update ℝ))
    : SphereDescent.Near tolerance (c.run q updates) ∨ c.run q updates = 0 := by
  induction updates using List.reverseRecOn with
  | nil => exact Or.inl start
  | append_singleton seen u _ =>
      rw [run_append]
      exact (madgwickAHRSupdate_step reciprocal nonneg below u.beta _ u.g u.a u.m).near_or_zero
        reciprocal below

/-- By induction on the updates, all of which have a small gain. -/
theorem run_near (reciprocal : ReciprocalRoot c.invSqrt tolerance) (nonneg : 0 ≤ tolerance)
    (below : tolerance ≤ 1)
    (updates : List (Update ℝ))
    (small : ∀ u ∈ updates, |u.beta / c.sampleFreq| * (1 + tolerance) < 1 - tolerance)
    (start : SphereDescent.Near tolerance q)
    : SphereDescent.Near tolerance (c.run q updates) := by
  induction updates generalizing q with
  | nil => exact start
  | cons u later ih =>
      obtain ⟨first, rest⟩ := List.forall_mem_cons.mp small
      rw [run_cons]
      apply ih rest
      exact (madgwickAHRSupdate_step reciprocal nonneg below u.beta q u.g u.a u.m).near reciprocal
        below first start

/-- The norm stays one up to the tolerance, unless the quaternion is lost for good; and it is never
lost while every gain is small.
-/
theorem run_norm (reciprocal : ReciprocalRoot c.invSqrt tolerance) (nonneg : 0 ≤ tolerance)
    (below : tolerance < 1)
    (start : SphereDescent.Near tolerance q) (updates : List (Update ℝ)) (seen : List (Update ℝ))
    (before : seen <+: updates)
    : (SphereDescent.Near tolerance (c.run q seen)
        ∨ c.run q seen = 0 ∧ c.run q updates = 0)
      ∧ ((∀ u ∈ seen, |u.beta / c.sampleFreq| * (1 + tolerance) < 1 - tolerance)
        → SphereDescent.Near tolerance (c.run q seen)) := by
  constructor
  · refine (run_near_or_zero reciprocal nonneg below.le start seen).imp_right ?_
    intro lost
    obtain ⟨later, rfl⟩ := before
    rw [run_append, lost]
    exact ⟨rfl, run_zero reciprocal nonneg below.le later⟩
  · intro small
    exact run_near reciprocal nonneg below.le seen small start

/-- An update with the gain of the flight. -/
def flightUpdate : Update ℝ := ⟨0.041, ⟨1, 0, 0⟩, ⟨0, 0, 1⟩, ⟨1, 0, 0⟩⟩

theorem run_norm_flightUpdate
    : (SphereDescent.Near 0 ((exactArithmetic 10).run 1 [flightUpdate])
        ∨ (exactArithmetic 10).run 1 [flightUpdate] = 0
          ∧ (exactArithmetic 10).run 1 [flightUpdate, flightUpdate] = 0)
      ∧ ((∀ u ∈ [flightUpdate], |u.beta / (exactArithmetic 10).sampleFreq| * (1 + 0) < 1 - 0)
        → SphereDescent.Near 0 ((exactArithmetic 10).run 1 [flightUpdate])) :=
  run_norm (reciprocal_exact 10) le_rfl zero_lt_one ⟨by simp, by simp⟩
    [flightUpdate, flightUpdate] [flightUpdate] ⟨[flightUpdate], rfl⟩

end Arithmetic

end

end Granum.Madgwick
