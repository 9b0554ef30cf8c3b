import Granum.Flight.VelocityMemory

/-! The delay before the chute is cut, `10 / v` seconds with a velocity `v` that is the
altitude over the time since boot, since the estimate remembers zeros.
-/

namespace Granum.Flight

open ExactDouble (fin posInf negInf)

/-- The delay is well defined: no operation divides by zero, and the microseconds convert to
`useconds_t` without wrapping.
-/
structure VelocityOperands.DelayDefined (x : VelocityOperands) : Prop where
  elapsed : x.currentTimeDbl - x.prevTime ≠ fin 0
  moving : x.v ≠ fin 0
  range : fin 0 ≤ x.cutDelay ∧ x.cutDelay < fin (2 ^ 32)

/-- Altitudes for which the delay at `ms` milliseconds since boot is well defined: infinite,
or positive and not too close to the ground.
-/
def CutAltitude (altitude : ExactDouble) (ms : ℕ) : Prop :=
  altitude = posInf ∨ altitude = negInf
    ∨ ∃ q, altitude = fin q ∧ 0 < q ∧ 10 ^ 4 * (ms : ℚ) < 2 ^ 32 * q

/-- The velocity over zero memories is the altitude over the time. -/
theorem velocity_of_zeros (altitude time : ExactDouble)
    : VelocityOperands.v ⟨altitude, fin 0, time, fin 0⟩ = altitude / time := by
  simp [VelocityOperands.v]

/-- An infinite velocity gives a delay of zero. -/
theorem delayDefined_of_infinite {altitude : ExactDouble} {time : ℚ} (positive : 0 < time)
    (infinite : altitude = posInf ∨ altitude = negInf)
    : VelocityOperands.DelayDefined ⟨altitude, fin 0, fin time, fin 0⟩ := by
  have velocity : altitude / fin time = altitude := by
    rcases infinite with rfl | rfl
    · exact ExactDouble.posInf_div_of_pos positive
    · exact ExactDouble.negInf_div_of_pos positive
  have delay : VelocityOperands.cutDelay ⟨altitude, fin 0, fin time, fin 0⟩ = fin 0 := by
    rw [VelocityOperands.cutDelay, velocity_of_zeros, velocity]
    rcases infinite with rfl | rfl <;> simp
  refine ⟨by simpa using positive.ne', ?_, by simp [delay]⟩
  rw [velocity_of_zeros, velocity]
  rcases infinite with rfl | rfl <;> simp

/-- A nonzero rational altitude gives the delay of exact division. -/
theorem cutDelay_of_fin {q time : ℚ} (nonzero : q ≠ 0) (positive : 0 < time)
    : VelocityOperands.cutDelay ⟨fin q, fin 0, fin time, fin 0⟩ = fin (10 ^ 7 * time / q) := by
  have velocity : q / time ≠ 0 := div_ne_zero nonzero positive.ne'
  rw [VelocityOperands.cutDelay, velocity_of_zeros, ExactDouble.fin_div_fin q positive.ne',
    ExactDouble.fin_div_fin 10 velocity, ExactDouble.fin_mul_fin]
  congr 1
  field_simp
  norm_num

/-- The exact condition for a delay over zero memories, by cases on the altitude. -/
theorem delayDefined_iff (altitude : ExactDouble) {ms : ℕ} (positive : 0 < ms)
    : VelocityOperands.DelayDefined ⟨altitude, fin 0, fin ((ms : ℚ) / 1000), fin 0⟩
      ↔ CutAltitude altitude ms := by
  have time : 0 < (ms : ℚ) / 1000 := by positivity
  cases altitude with
  | posInf => exact iff_of_true (delayDefined_of_infinite time (Or.inl rfl)) (Or.inl rfl)
  | negInf =>
      exact iff_of_true (delayDefined_of_infinite time (Or.inr rfl)) (Or.inr (Or.inl rfl))
  | nan =>
      refine iff_of_false ?_ (by simp [CutAltitude])
      intro defined
      have range := defined.range.1
      rw [VelocityOperands.cutDelay, velocity_of_zeros] at range
      simp at range
  | fin q =>
      have altitudes : CutAltitude (fin q) ms ↔ 0 < q ∧ 10 ^ 4 * (ms : ℚ) < 2 ^ 32 * q := by
        simp [CutAltitude]
      rw [altitudes]
      constructor
      · intro defined
        have nonzero : q ≠ 0 := by
          intro zero
          apply defined.moving
          rw [velocity_of_zeros, ExactDouble.fin_div_fin q time.ne', zero, zero_div]
        obtain ⟨lower, upper⟩ := defined.range
        rw [cutDelay_of_fin nonzero time] at lower upper
        rw [ExactDouble.fin_le_fin] at lower
        rw [ExactDouble.fin_lt_fin] at upper
        have above : 0 < q := by
          rcases lt_or_gt_of_ne nonzero with below | above
          · exact absurd (div_neg_of_pos_of_neg (by positivity) below) (not_lt.mpr lower)
          · exact above
        rw [div_lt_iff₀ above] at upper
        exact ⟨above, by linarith⟩
      · intro condition
        obtain ⟨above, bound⟩ := condition
        refine ⟨by simpa using time.ne', ?_, ?_⟩
        · rw [velocity_of_zeros, ExactDouble.fin_div_fin q time.ne']
          simpa using ⟨above.ne', positive.ne'⟩
        · rw [cutDelay_of_fin above.ne' time, ExactDouble.fin_le_fin, ExactDouble.fin_lt_fin]
          refine ⟨by positivity, ?_⟩
          rw [div_lt_iff₀ above]
          linarith

variable (f : Flight)

/-- The delay of iteration `n`, if it reaches the `usleep`, is well defined. -/
def DelayDefinedAt (n : ℕ) : Prop :=
  ∀ x, .velocity .cutDistance x ∈ (f.after n).events
    → .usleep x.cutDelay ∈ (f.after n).events ∧ x.DelayDefined

/-- The operands of the delay: the altitude and the time of the iteration, and zeros. -/
theorem landingOperands_eq (n : ℕ)
    : (f.testAt n .cutDistance).landingOperands f.log
      = ⟨f.altitudeAt n, fin 0, fin ((f.timeAt n).toNat / 1000), fin 0⟩ := by
  obtain ⟨height, time⟩ := f.testAt_landingPrev n
  rw [State.landingOperands, f.testAt_altitude n .cutDistance (by decide),
    f.testAt_currentTimeDbl n, height, time]
  rfl

/-- An iteration that reaches the PRE_LANDING estimate sleeps for the delay it computes. -/
theorem usleep_mem {n : ℕ} {x : VelocityOperands}
    (estimated : .velocity .cutDistance x ∈ (f.after n).events)
    : .usleep x.cutDelay ∈ (f.after n).events := by
  have cut : CallSite.cutDistance.Opens f.log (f.testAt n .cutDistance)
      ∧ x = (f.testAt n .cutDistance).landingOperands f.log := by
    rcases f.mem_velocity.mp estimated with ⟨site, _⟩ | ⟨_, landing, near, operands⟩
    · cases site
    · exact ⟨⟨landing, near⟩, operands⟩
  have estimates : .usleep x.cutDelay ∈ (f.after n).estimates := by
    rw [f.estimates_eq, if_pos cut.1, cut.2]
    apply List.mem_append_right _
    exact List.mem_cons_of_mem _ (List.mem_singleton.mpr rfl)
  exact (List.mem_filter.mp estimates).1

/-- At positive times the delay is well defined, in each of the first `bound` iterations
that reaches the `usleep`, exactly when the altitude held there is infinite, or positive and
above `10^4 * T / 2^32`.
-/
theorem delayDefined_iff_altitude (bound : ℕ) (started : ∀ n < bound, 0 < f.timeAt n)
    : (∀ n < bound, f.DelayDefinedAt n)
      ↔ ∀ n < bound,
          (f.testAt n .cutDistance).grState = .preLanding
          → (f.testAt n .cutDistance).distance < 1200
          → CutAltitude (f.altitudeAt n) (f.timeAt n).toNat := by
  have positive (n : ℕ) (early : n < bound) : 0 < (f.timeAt n).toNat :=
    UInt64.lt_iff_toNat_lt.mp (started n early)
  constructor
  · intro defined n early landing near
    have estimated := f.mem_velocity.mpr (Or.inr ⟨rfl, landing, near, rfl⟩)
    have delay := (defined n early _ estimated).2
    rw [f.landingOperands_eq n] at delay
    exact (delayDefined_iff _ (positive n early)).mp delay
  · intro condition n early x estimated
    refine ⟨f.usleep_mem estimated, ?_⟩
    rcases f.mem_velocity.mp estimated with ⟨site, _⟩ | ⟨_, landing, near, rfl⟩
    · cases site
    · rw [f.landingOperands_eq n]
      exact (delayDefined_iff _ (positive n early)).mpr (condition n early landing near)

theorem benchFlight_delay_condition
    : (∀ n < 1, (benchFlight fun _ => 500).DelayDefinedAt n)
      ↔ ∀ n < 1,
          ((benchFlight fun _ => 500).testAt n .cutDistance).grState = .preLanding
          → ((benchFlight fun _ => 500).testAt n .cutDistance).distance < 1200
          → CutAltitude ((benchFlight fun _ => 500).altitudeAt n)
              ((benchFlight fun _ => 500).timeAt n).toNat :=
  delayDefined_iff_altitude (benchFlight fun _ => 500) 1 (by decide +kernel)

/-- On the bench the altitude is zero, and the delay is `10 / 0`. -/
theorem benchFlight_delay_undefined
    : ¬ ∀ (f : Flight) (n : ℕ), 0 < f.timeAt n → f.DelayDefinedAt n := by
  intro defined
  have estimated : .velocity .cutDistance ⟨fin 0, fin 0, fin 300, fin 0⟩
      ∈ ((benchFlight fun _ => 500).after 0).events := by decide +kernel
  have delay := (defined (benchFlight fun _ => 500) 0 (by decide +kernel) _ estimated).2
  exact delay.moving (by decide +kernel)

end Granum.Flight
