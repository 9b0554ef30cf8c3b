import Granum.Flight.GuardHistory

/-! What the velocity estimates remember. The AWAITING_CHUTE block stores a sample in every
iteration it runs in; the PRE_LANDING block has variables of the same names that it never
assigns, so its estimate differences against power-on zeros.
-/

namespace Granum.Flight

open ExactDouble (fin)

/-- The estimate memories in a state between two iterations: empty before the chute is
deployed, the last sample while the chute is awaited, and zero in the PRE_LANDING block.
-/
structure Remembers (log : ExactDouble → ExactDouble) (s : State) : Prop where
  fresh : s.grState.toNat < GrState.awaitingChute.toNat → s.memory = ⟨fin 0, fin 0, 0⟩
  sampled : s.grState = .awaitingChute
    → s.prevHeight = s.altitude log ∧ s.prevTime = s.currentTimeDbl
  unassigned : s.landingPrevHeight = fin 0 ∧ s.landingPrevTime = fin 0

variable (f : Flight)

theorem testAt_memory (n : ℕ) : (f.testAt n .slowDescent).memory = (f.stateAt n).memory :=
  (State.upToSlowDescent_memory (f.env n) (f.stateAt n)).1

/-- The time operand of a test is the one of its iteration. -/
theorem testAt_currentTimeDbl (n : ℕ) (site : CallSite)
    : (f.testAt n site).currentTimeDbl = (f.after n).currentTimeDbl := by
  have tested := @State.testState_held f.log (f.env n) (f.stateAt n) site
  have clock : (f.testAt n site).currentTime = (f.after n).currentTime := by
    have final := congrArg Held.currentTime (f.after_held n)
    cases site <;> exact (congrArg Held.currentTime tested).trans final.symm
  simp only [State.currentTimeDbl, State.timeBootMs, clock]

/-- The mission state of a test lies between those before and after its iteration. -/
theorem testAt_bounds (n : ℕ) (site : CallSite)
    : (f.stateAt n).grState.toNat ≤ (f.testAt n site).grState.toNat
      ∧ (f.testAt n site).grState.toNat ≤ (f.after n).grState.toNat :=
  ⟨(f.path_through n site).1.le, (f.path_through n site).2.le⟩

/-- An iteration that ends in AWAITING_CHUTE has run the AWAITING_CHUTE block: no call site
from that block on leads into the state.
-/
theorem awaiting_at_slowDescent {n : ℕ} (awaiting : (f.after n).grState = .awaitingChute)
    : (f.testAt n .slowDescent).grState = .awaitingChute := by
  obtain ⟨_, path⟩ := f.path_through n .slowDescent
  have final := GrState.awaitingChute_iff.mp awaiting
  have upper := (f.testAt_bounds n .slowDescent).2
  apply GrState.awaitingChute_iff.mpr
  by_contra other
  obtain ⟨site, member, left⟩ := path.stage_left (le_refl _)
    (show (f.testAt n .slowDescent).grState.toNat < (f.after n).grState.toNat by omega)
  have late : site = .slowDescent ∨ site = .cutDistance := by
    have listed := (f.mem_openedAt.mp member).1
    cases site <;> simp [CallSite.bodyOrder] at listed ⊢
  have stage : 4 ≤ site.stage := by
    rcases late with rfl | rfl <;> decide
  omega

theorem after_memory (n : ℕ)
    : (f.after n).memory = ((f.testAt n .slowDescent).slowDescentTest f.log).memory :=
  State.loopBody_memory (f.env n) (f.stateAt n)

/-- In AWAITING_CHUTE the repetition counter is the one of the estimate, if one is due. -/
theorem after_repetitions {n : ℕ}
    (awaiting : (f.testAt n .slowDescent).grState = .awaitingChute)
    : (f.after n).repetitions
      = if (f.testAt n .slowDescent).prevHeight ≠ fin 0
          then ((f.testAt n .slowDescent).countEstimate f.log).repetitions
          else (f.stateAt n).repetitions := by
  have stored := congrArg Memory.repetitions ((f.after_memory n).trans
    (State.slowDescentTest_memory awaiting))
  have kept := congrArg Memory.repetitions (f.testAt_memory n)
  exact stored.trans (congrArg (ite _ _) kept)

theorem after_memory_of_not {n : ℕ}
    (other : (f.testAt n .slowDescent).grState ≠ .awaitingChute)
    : (f.after n).memory = (f.stateAt n).memory := by
  rw [after_memory, State.slowDescentTest_of_not other, testAt_memory]

/-- The memories of the PRE_LANDING estimate keep their power-on zeros. -/
theorem landingPrev_eq (n : ℕ)
    : (f.stateAt n).landingPrevHeight = fin 0 ∧ (f.stateAt n).landingPrevTime = fin 0 := by
  have keep (s : State) (i : Sample)
      : (s.loopBody f.log i).landingPrevHeight = s.landingPrevHeight
        ∧ (s.loopBody f.log i).landingPrevTime = s.landingPrevTime :=
    ⟨congrArg Held.landingPrevHeight (State.loopBody_held i s),
      congrArg Held.landingPrevTime (State.loopBody_held i s)⟩
  exact ⟨StreamRun.frozen (fun s i => (keep s i).1) n,
    StreamRun.frozen (fun s i => (keep s i).2) n⟩

/-- Every reachable state remembers what it should, by induction on the run: an iteration
that ends before the deployment has kept the empty memory, and one that ends in
AWAITING_CHUTE has just stored its sample.
-/
theorem remembers (n : ℕ) : Remembers f.log (f.stateAt n) := by
  induction n with
  | zero => exact ⟨fun _ => rfl, fun awaiting => (by cases awaiting), rfl, rfl⟩
  | succ n ih =>
      refine ⟨?_, ?_, f.landingPrev_eq (n + 1)⟩
      · intro early
        obtain ⟨lower, upper⟩ := f.testAt_bounds n .slowDescent
        have before : (f.testAt n .slowDescent).grState.toNat < 4 := upper.trans_lt early
        refine (f.after_memory_of_not ?_).trans (ih.fresh (lower.trans_lt before))
        intro awaiting
        have reached := GrState.awaitingChute_iff.mp awaiting
        omega
      · intro awaiting
        have stored := (f.after_memory n).trans
          (State.slowDescentTest_memory (f.awaiting_at_slowDescent awaiting))
        constructor
        · exact (congrArg Memory.prevHeight stored).trans
            (f.testAt_altitude n .slowDescent (by decide))
        · exact (congrArg Memory.prevTime stored).trans
            (f.testAt_currentTimeDbl n .slowDescent)

theorem estimates_eq (n : ℕ)
    : (f.after n).estimates
      = (if (f.testAt n .slowDescent).grState = .awaitingChute
            ∧ (f.testAt n .slowDescent).prevHeight ≠ fin 0
          then [.velocity .slowDescent ((f.testAt n .slowDescent).descentOperands f.log)]
          else [])
        ++ if CallSite.cutDistance.Opens f.log (f.testAt n .cutDistance)
            then [.velocity .cutDistance ((f.testAt n .cutDistance).landingOperands f.log),
              .usleep ((f.testAt n .cutDistance).landingOperands f.log).cutDelay]
            else [] :=
  State.loopBody_estimates (f.env n) (f.stateAt n)

/-- The operands of the estimates of iteration `n`. -/
theorem mem_velocity {n : ℕ} {site : CallSite} {x : VelocityOperands}
    : .velocity site x ∈ (f.after n).events
      ↔ (site = .slowDescent ∧ (f.testAt n .slowDescent).grState = .awaitingChute
          ∧ (f.testAt n .slowDescent).prevHeight ≠ fin 0
          ∧ x = (f.testAt n .slowDescent).descentOperands f.log)
        ∨ (site = .cutDistance ∧ (f.testAt n .cutDistance).grState = .preLanding
          ∧ (f.testAt n .cutDistance).distance < 1200
          ∧ x = (f.testAt n .cutDistance).landingOperands f.log) := by
  have listed : Event.velocity site x ∈ (f.after n).events
      ↔ Event.velocity site x ∈ (f.after n).estimates := by
    simp [State.estimates, Event.isEstimate]
  rw [listed, estimates_eq, List.mem_append]
  refine or_congr ?_ ?_
  · split
    case isTrue due => simp [due]
    case isFalse idle => simp only [List.not_mem_nil, false_iff]; tauto
  · by_cases opened : CallSite.cutDistance.Opens f.log (f.testAt n .cutDistance)
    · simp [if_pos opened, opened.1, show (f.testAt n .cutDistance).distance < 1200 from opened.2]
    · rw [if_neg opened]
      simp only [List.not_mem_nil, false_iff]
      intro estimated
      exact opened ⟨estimated.2.1, estimated.2.2.1⟩

/-- Every estimate of iteration `n` remembers the altitude and the time of the iteration
before it.
-/
def ConsecutiveAt (n : ℕ) : Prop :=
  ∀ site x, .velocity site x ∈ (f.after n).events
    → ∃ m, n = m + 1 ∧ x.prevHeight = f.altitudeAt m
      ∧ x.prevTime = (f.after m).currentTimeDbl

/-- The AWAITING_CHUTE estimate differences consecutive samples: a nonzero memory means that
the iteration before ended in AWAITING_CHUTE, and stored its sample.
-/
theorem slowDescent_consecutive {n : ℕ}
    (awaiting : (f.testAt n .slowDescent).grState = .awaitingChute)
    (stored : (f.testAt n .slowDescent).prevHeight ≠ fin 0)
    : ∃ m, n = m + 1
      ∧ (f.testAt n .slowDescent).prevHeight = f.altitudeAt m
      ∧ (f.testAt n .slowDescent).prevTime = (f.after m).currentTimeDbl := by
  have remembers := f.remembers n
  have memory := f.testAt_memory n
  have height := congrArg Memory.prevHeight memory
  have time := congrArg Memory.prevTime memory
  have upper : (f.stateAt n).grState.toNat ≤ 4 := by
    have reached := GrState.awaitingChute_iff.mp awaiting
    exact (f.testAt_bounds n .slowDescent).1.trans reached.le
  have entered : (f.stateAt n).grState = .awaitingChute := by
    apply GrState.awaitingChute_iff.mpr
    by_contra other
    have empty := remembers.fresh (show _ < 4 by omega)
    exact stored (height.trans (congrArg Memory.prevHeight empty))
  cases n with
  | zero => cases entered
  | succ m =>
      obtain ⟨sampledHeight, sampledTime⟩ := remembers.sampled entered
      exact ⟨m, rfl, height.trans sampledHeight, time.trans sampledTime⟩

theorem testAt_landingPrev (n : ℕ)
    : (f.testAt n .cutDistance).landingPrevHeight = fin 0
      ∧ (f.testAt n .cutDistance).landingPrevTime = fin 0 := by
  have held := @State.testState_held f.log (f.env n) (f.stateAt n) .cutDistance
  obtain ⟨height, time⟩ := f.landingPrev_eq n
  exact ⟨(congrArg Held.landingPrevHeight held).trans height,
    (congrArg Held.landingPrevTime held).trans time⟩

theorem currentTimeDbl_eq_zero (n : ℕ)
    : (f.after n).currentTimeDbl = fin 0 ↔ f.timeAt n = 0 := by
  have rational : (f.after n).currentTimeDbl = fin 0 ↔ (f.timeAt n).toNat = 0 := by
    simp [State.currentTimeDbl, timeAt]
  rw [rational, ← UInt64.toNat_inj]
  rfl

/-- In the first `bound` iterations both estimates difference consecutive samples exactly
when no iteration reaches the PRE_LANDING estimate, save after an iteration with altitude
zero at time zero. Witness: the AWAITING_CHUTE memory is the last sample, while that of the
PRE_LANDING block is always zero.
-/
theorem consecutive_iff (bound : ℕ)
    : (∀ n < bound, f.ConsecutiveAt n)
      ↔ ∀ n < bound,
          (f.testAt n .cutDistance).grState = .preLanding
          → (f.testAt n .cutDistance).distance < 1200
          → ∃ m, n = m + 1 ∧ f.altitudeAt m = fin 0 ∧ f.timeAt m = 0 := by
  have unassigned := f.testAt_landingPrev
  constructor
  · intro consecutive n early landing near
    obtain ⟨m, next, height, time⟩ := consecutive n early .cutDistance _
      (f.mem_velocity.mpr (Or.inr ⟨rfl, landing, near, rfl⟩))
    refine ⟨m, next, ?_, ?_⟩
    · exact height.symm.trans (unassigned n).1
    · exact (f.currentTimeDbl_eq_zero m).mp (time.symm.trans (unassigned n).2)
  · intro condition n early site x estimated
    rcases f.mem_velocity.mp estimated with
      ⟨_, awaiting, stored, rfl⟩ | ⟨_, landing, near, rfl⟩
    · exact f.slowDescent_consecutive awaiting stored
    · obtain ⟨m, next, height, time⟩ := condition n early landing near
      refine ⟨m, next, ?_, ?_⟩
      · exact (unassigned n).1.trans height.symm
      · exact (unassigned n).2.trans ((f.currentTimeDbl_eq_zero m).mpr time).symm

/-- The bench flight comes within 12 m of the ground in its second iteration, and its cut
estimate takes the time of the first iteration, 300 s, for 0.
-/
theorem benchFlight_not_consecutive
    : ¬ ∀ (f : Flight) (n : ℕ), f.ConsecutiveAt n := by
  intro consecutive
  let approach := benchFlight (fun n => if n = 0 then 2000 else 500)
  have estimated : .velocity .cutDistance ⟨fin 0, fin 0, fin 301, fin 0⟩
      ∈ (approach.after 1).events := by decide +kernel
  obtain ⟨m, next, _, time⟩ := consecutive approach 1 .cutDistance _ estimated
  obtain rfl : m = 0 := by omega
  have before : (approach.after 0).currentTimeDbl = fin 300 := by decide +kernel
  rw [before] at time
  exact absurd time (by decide)

end Granum.Flight
