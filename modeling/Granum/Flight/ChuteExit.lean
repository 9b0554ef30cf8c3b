import Granum.Flight.PyroCascade
import Granum.Library.TrailingRun

/-! Leaving AWAITING_CHUTE: by the timer, near the ground, or by the tenth slow estimate in a
row, whichever comes first. The repetition counter is the run of slow estimates at the end
of all estimates since the deployment.
-/

namespace Granum.Flight

open ExactDouble (fin fabs)
open TrailingRun (streak)

variable (f : Flight)

theorem mission_monotone {m n : ℕ} (order : m ≤ n)
    : (f.stateAt m).grState.toNat ≤ (f.stateAt n).grState.toNat :=
  monotone_nat_of_le_succ (fun k => (f.path_at k).le) order

/-- The mission state after a deployment is at least AWAITING_CHUTE. -/
theorem deployed_le {k n : ℕ} (deploy : .chuteDeploy ∈ f.firedAt k) (order : k < n)
    : 4 ≤ (f.stateAt n).grState.toNat := by
  have later : (f.after k).grState.toNat ≤ (f.stateAt n).grState.toNat :=
    f.mission_monotone order
  exact (f.deploy_bounds deploy).2.trans later

/-- An iteration that reaches AWAITING_CHUTE and fires no legs ends in it. -/
theorem stays_awaiting {n : ℕ} (before : (f.stateAt n).grState.toNat ≤ 4)
    (reached : 4 ≤ (f.after n).grState.toNat) (kept : .legsDeploy ∉ f.firedAt n)
    : (f.after n).grState = .awaitingChute := by
  apply GrState.awaitingChute_iff.mpr
  by_contra other
  obtain ⟨site, member, left⟩ := (f.path_at n).stage_left before (by omega)
  exact kept (f.fired_iff.mpr ⟨site, member, left⟩)

/-- A test in an iteration that starts in AWAITING_CHUTE still finds that state, unless an
earlier call site has left it.
-/
theorem testAt_awaiting {n : ℕ} {site : CallSite}
    (entered : (f.stateAt n).grState = .awaitingChute)
    (kept : ∀ other ∈ CallSite.bodyOrder.takeWhile (· ≠ site),
      other.stage = 4 → other ∉ f.sitesAt n)
    : (f.testAt n site).grState = .awaitingChute := by
  have start := GrState.awaitingChute_iff.mp entered
  have lower := (f.testAt_bounds n site).1
  apply GrState.awaitingChute_iff.mpr
  by_contra left
  obtain ⟨other, member, stage⟩ := (f.path_through n site).1.stage_left start.le (by omega)
  obtain ⟨listed, taken⟩ := f.mem_openedAt.mp member
  exact kept other listed stage taken

/-- An iteration that ends in AWAITING_CHUTE has left it through no call site. -/
theorem not_left {n : ℕ} {site : CallSite} (awaiting : (f.after n).grState.toNat ≤ 4)
    (stage : site.stage = 4)
    : site ∉ f.sitesAt n := by
  intro member
  have passed := ((f.path_at n).stage_bounds member).2
  omega

/-- The chute clock is the clock of the iteration that deploys the chute. -/
theorem after_chuteOpenTime (n : ℕ)
    : (f.after n).chuteOpenTime
      = if .deployAltitude ∈ f.sitesAt n then f.secAt n else (f.stateAt n).chuteOpenTime := by
  have sites : f.sitesAt n
      = State.opened f.log (f.env n) (f.stateAt n) CallSite.bodyOrder :=
    State.loopBody_sites (f.env n) (f.stateAt n)
  rw [sites]
  exact (State.loopBody_advances (f.env n) (f.stateAt n)).chuteOpenTime

/-- The timer is tested before the deployment of its own iteration. -/
theorem testAt_chuteOpenTime (n : ℕ)
    : (f.testAt n .chuteTimer).chuteOpenTime = (f.stateAt n).chuteOpenTime := by
  have advances := @State.testState_advances f.log (f.env n) (f.stateAt n) .chuteTimer
  have absent : .deployAltitude ∉ State.opened f.log (f.env n) (f.stateAt n)
      (CallSite.bodyOrder.takeWhile (· ≠ .chuteTimer)) := by
    intro member
    exact absurd (State.mem_opened.mp member).1 (by decide)
  have kept := advances.chuteOpenTime
  rw [if_neg absent] at kept
  exact kept

/-- While the chute is awaited, its clock is that of the one deployment. -/
theorem chuteOpenTime_eq {k n : ℕ} (deploy : .chuteDeploy ∈ f.firedAt k) (order : k ≤ n)
    : (f.after n).chuteOpenTime = f.secAt k := by
  have member := f.deploy_iff.mp deploy
  induction n, order using Nat.le_induction with
  | base => rw [after_chuteOpenTime, if_pos member]
  | succ n order ih =>
      have once : .deployAltitude ∉ f.sitesAt (n + 1) := by
        intro again
        have same := (f.left_once member again rfl).1
        omega
      rw [after_chuteOpenTime, if_neg once]
      exact ih

/-- In an iteration that starts in AWAITING_CHUTE the timer compares with the clock of the
deployment.
-/
theorem timer_iff {n : ℕ} (entered : (f.stateAt n).grState = .awaitingChute)
    : .chuteTimer ∈ f.sitesAt n ↔ 30 < f.secAt n - (f.stateAt n).chuteOpenTime := by
  have awaiting : (f.testAt n .chuteTimer).grState = .awaitingChute := by
    apply f.testAt_awaiting entered
    intro other listed stage
    have first : other = .readyTimer := by
      revert listed
      cases other <;> decide
    subst first
    exact absurd stage (by decide)
  rw [f.mem_sitesAt, ← (f.testAt_clock n .chuteTimer).1, ← f.testAt_chuteOpenTime n]
  exact and_iff_right awaiting

/-- At the end of every iteration in AWAITING_CHUTE the timer has not run out: it has just
been started, or was tested in this iteration.
-/
theorem elapsed_le {n : ℕ} (awaiting : (f.after n).grState = .awaitingChute)
    : f.secAt n - (f.after n).chuteOpenTime ≤ 30 := by
  have final := GrState.awaitingChute_iff.mp awaiting
  rw [after_chuteOpenTime]
  by_cases deployed : .deployAltitude ∈ f.sitesAt n
  · rw [if_pos deployed, sub_self]
    exact UInt32.zero_le
  · rw [if_neg deployed]
    have entered : (f.stateAt n).grState = .awaitingChute := by
      have upper := (f.path_at n).le
      apply GrState.awaitingChute_iff.mpr
      by_contra early
      obtain ⟨site, member, left⟩ := (f.path_at n).stage_left
        (show (f.stateAt n).grState.toNat ≤ 3 by omega) (by omega)
      obtain rfl := CallSite.eq_of_stage.2.2.1 left
      exact deployed member
    have closed : .chuteTimer ∉ f.sitesAt n := f.not_left final.le rfl
    rw [f.timer_iff entered] at closed
    exact UInt32.not_lt.mp closed

-----------------------------------------------------------------------------------------
-- The repetition counter
-----------------------------------------------------------------------------------------

/-- An estimate raises the counter by one or resets it. -/
theorem countEstimate_le {log : ExactDouble → ExactDouble} {s : State} {bound : ℕ}
    (lower : s.repetitions.toNat ≤ bound) (small : bound < 255)
    : (s.countEstimate log).repetitions.toNat ≤ bound + 1 := by
  have counted : (s.countEstimate log).repetitions
      = if fabs (s.descentOperands log).v < fin 10 then s.repetitions + 1 else 0 := rfl
  rw [counted]
  split
  · rw [UInt8.toNat_add]
    have one : (1 : UInt8).toNat = 1 := rfl
    omega
  · exact Nat.zero_le _

/-- The counter stays below ten up to AWAITING_CHUTE and never passes ten, by induction on
the run: it grows in AWAITING_CHUTE only, and reaching ten leaves that state.
-/
theorem repetitions_bounds (n : ℕ)
    : (f.stateAt n).repetitions.toNat ≤ 10
      ∧ ((f.stateAt n).grState.toNat ≤ 4 → (f.stateAt n).repetitions.toNat < 10) := by
  induction n with
  | zero => exact ⟨Nat.zero_le _, fun _ => Nat.zero_lt_succ _⟩
  | succ n ih =>
      obtain ⟨whole, low⟩ := ih
      obtain ⟨lower, upper⟩ := f.testAt_bounds n .slowDescent
      by_cases awaiting : (f.testAt n .slowDescent).grState = .awaitingChute
      · have before := GrState.awaitingChute_iff.mp awaiting
        have fewer : (f.testAt n .slowDescent).repetitions.toNat ≤ 9 := by
          have same := congrArg Memory.repetitions (f.testAt_memory n)
          have early := low (lower.trans before.le)
          rw [show (f.testAt n .slowDescent).repetitions = (f.stateAt n).repetitions from same]
          omega
        have counted := @countEstimate_le f.log _ _ fewer (by omega)
        rw [show (f.stateAt (n + 1)).repetitions = _ from f.after_repetitions awaiting]
        split
        case isTrue sampled =>
          refine ⟨counted, fun kept => ?_⟩
          have closed : .slowDescent ∉ f.sitesAt n := f.not_left kept rfl
          rw [f.mem_sitesAt] at closed
          have notTen : ((f.testAt n .slowDescent).countEstimate f.log).repetitions.toNat ≠ 10 :=
            fun ten => closed ⟨awaiting, sampled, UInt8.toNat_inj.mp ten⟩
          omega
        case isFalse unsampled => exact ⟨by omega, fun _ => by omega⟩
      · have same : (f.stateAt (n + 1)).repetitions = (f.stateAt n).repetitions :=
          congrArg Memory.repetitions (f.after_memory_of_not awaiting)
        rw [same]
        exact ⟨whole, fun kept => low (((f.path_at n).le).trans kept)⟩

-----------------------------------------------------------------------------------------
-- Estimates over exact altitudes
-----------------------------------------------------------------------------------------

/-- From the deployment in iteration `k` to iteration `bound`, the altitudes are the rationals
`h` and the times strictly increase.
-/
structure ExactDescent (h : ℕ → ℚ) (k bound : ℕ) : Prop where
  deploy : .chuteDeploy ∈ f.firedAt k
  altitude : ∀ n, k ≤ n → n ≤ bound → f.altitudeAt n = fin (h n)
  clock : ∀ n, k ≤ n → n < bound → f.timeAt n < f.timeAt (n + 1)

/-- The estimate of iteration `m`, in metres per second. -/
def velocity (h : ℕ → ℚ) (m : ℕ) : ℚ :=
  1000 * (h m - h (m - 1)) / (((f.timeAt m).toNat : ℚ) - (f.timeAt (m - 1)).toNat)

/-- An estimate is performed after the deployment, unless the altitude before is zero. -/
def Performed (h : ℕ → ℚ) (k m : ℕ) : Prop := k < m ∧ h (m - 1) ≠ 0

instance (h : ℕ → ℚ) (k m : ℕ) : Decidable (Performed h k m) := instDecidableAnd

/-- The estimates performed from the deployment up to iteration `n`, the latest last. -/
def estimates (h : ℕ → ℚ) (k n : ℕ) : List ℚ :=
  ((List.range (n + 1)).filter (Performed h k ·)).map (f.velocity h)

/-- A slow estimate, below 10 m/s in either direction. -/
def slow (v : ℚ) : Bool := decide (|v| < 10)

/-- The exit condition of iteration `n`: the timer has run out, or the vehicle is near the
ground, or an estimate is performed and the ten latest ones are slow.
-/
def ExitAt (h : ℕ → ℚ) (k n : ℕ) : Prop :=
  (k < n ∧ 30 < f.secAt n - f.secAt k)
  ∨ h n ≤ 50
  ∨ (Performed h k n ∧ 10 ≤ (f.estimates h k n).length
    ∧ ∀ v ∈ (f.estimates h k n).rtake 10, |v| < 10)

theorem estimates_succ (h : ℕ → ℚ) (k n : ℕ)
    : f.estimates h k (n + 1)
      = f.estimates h k n
        ++ if Performed h k (n + 1) then [f.velocity h (n + 1)] else [] := by
  rw [estimates, List.range_succ, List.filter_append, List.map_append]
  apply congrArg (f.estimates h k n ++ ·)
  by_cases performed : Performed h k (n + 1)
  · simp [performed]
  · simp [performed]

theorem estimates_self (h : ℕ → ℚ) (k : ℕ) : f.estimates h k k = [] := by
  simp only [estimates, List.map_eq_nil_iff, List.filter_eq_nil_iff, decide_eq_true_eq]
  intro m early performed
  have bound := List.mem_range.mp early
  have after := performed.1
  omega

/-- The exit condition counts the slow estimates at the end of the list. -/
theorem exitAt_iff (h : ℕ → ℚ) (k n : ℕ)
    : f.ExitAt h k n
      ↔ (k < n ∧ 30 < f.secAt n - f.secAt k) ∨ h n ≤ 50
        ∨ (Performed h k n ∧ 10 ≤ streak slow (f.estimates h k n)) := by
  have latest := @TrailingRun.le_streak_iff ℚ slow 10 (f.estimates h k n)
  simp only [slow, decide_eq_true_eq] at latest
  rw [ExitAt, ← latest]

variable {f}

section Descent

variable {h : ℕ → ℚ} {k bound : ℕ} (descent : f.ExactDescent h k bound)

include descent

theorem ExactDescent.entered {n : ℕ} (order : k < n)
    (upper : (f.stateAt n).grState.toNat ≤ 4)
    : (f.stateAt n).grState = .awaitingChute :=
  GrState.awaitingChute_iff.mpr (le_antisymm upper (f.deployed_le descent.deploy order))

/-- The memory at the AWAITING_CHUTE block of iteration `n + 1` is the sample of iteration
`n`, so the block performs an estimate exactly when that altitude is nonzero.
-/
theorem ExactDescent.performed_iff {n : ℕ} (order : k ≤ n) (early : n < bound)
    (entered : (f.stateAt (n + 1)).grState = .awaitingChute)
    : (f.testAt (n + 1) .slowDescent).prevHeight ≠ fin 0 ↔ Performed h k (n + 1) := by
  have memory := congrArg Memory.prevHeight (f.testAt_memory (n + 1))
  have sampled := ((f.remembers (n + 1)).sampled entered).1
  have height : (f.testAt (n + 1) .slowDescent).prevHeight = fin (h n) :=
    (memory.trans sampled).trans (descent.altitude n order early.le)
  rw [height, Performed, Nat.add_sub_cancel]
  simp [Nat.lt_succ_of_le order]

/-- Over exact altitudes the operands of the AWAITING_CHUTE estimate give the velocity. -/
theorem ExactDescent.velocity_eq {n : ℕ} (order : k ≤ n) (early : n < bound)
    (entered : (f.stateAt (n + 1)).grState = .awaitingChute)
    : ((f.testAt (n + 1) .slowDescent).descentOperands f.log).v
      = fin (f.velocity h (n + 1)) := by
  have memory := f.testAt_memory (n + 1)
  obtain ⟨sampledHeight, sampledTime⟩ := (f.remembers (n + 1)).sampled entered
  have operands : (f.testAt (n + 1) .slowDescent).descentOperands f.log
      = ⟨fin (h (n + 1)), fin (h n), fin ((f.timeAt (n + 1)).toNat / 1000),
          fin ((f.timeAt n).toNat / 1000)⟩ := by
    have height := (congrArg Memory.prevHeight memory).trans
      (sampledHeight.trans (descent.altitude n order early.le))
    have time := (congrArg Memory.prevTime memory).trans sampledTime
    have current := (f.testAt_altitude (n + 1) .slowDescent (by decide)).trans
      (descent.altitude (n + 1) (by omega) early)
    have now := f.testAt_currentTimeDbl (n + 1) .slowDescent
    simp only [State.descentOperands, current, now]
    exact congrArg₂ (VelocityOperands.mk _ · _ ·) height time
  have elapsed : ((f.timeAt n).toNat : ℚ) < (f.timeAt (n + 1)).toNat :=
    Nat.cast_lt.mpr (UInt64.lt_iff_toNat_lt.mp (descent.clock n order early))
  have nonzero : ((f.timeAt (n + 1)).toNat : ℚ) / 1000 - (f.timeAt n).toNat / 1000 ≠ 0 := by
    apply ne_of_gt
    linarith
  have difference : ((f.timeAt (n + 1)).toNat : ℚ) - (f.timeAt n).toNat ≠ 0 :=
    (sub_pos.mpr elapsed).ne'
  rw [operands, VelocityOperands.v, ExactDouble.fin_sub_fin, ExactDouble.fin_sub_fin,
    ExactDouble.fin_div_fin _ nonzero, velocity, Nat.add_sub_cancel]
  congr 1
  field_simp

/-- A performed estimate makes the counter the streak of slow estimates, if it was before. -/
theorem ExactDescent.countEstimate_eq {n : ℕ} (order : k ≤ n) (early : n < bound)
    (entered : (f.stateAt (n + 1)).grState = .awaitingChute)
    (performed : Performed h k (n + 1))
    (counted : (f.stateAt (n + 1)).repetitions.toNat = streak slow (f.estimates h k n))
    : ((f.testAt (n + 1) .slowDescent).countEstimate f.log).repetitions.toNat
      = streak slow (f.estimates h k (n + 1)) := by
  have before := congrArg Memory.repetitions (f.testAt_memory (n + 1))
  have small := (f.repetitions_bounds (n + 1)).1
  rw [estimates_succ, if_pos performed, TrailingRun.streak_concat, ← counted]
  change (if fabs ((f.testAt (n + 1) .slowDescent).descentOperands f.log).v < fin 10
    then (f.testAt (n + 1) .slowDescent).repetitions + 1 else 0).toNat = _
  rw [descent.velocity_eq order early entered, ExactDouble.fabs_fin,
    show (f.testAt (n + 1) .slowDescent).repetitions = _ from before]
  by_cases isSlow : |f.velocity h (n + 1)| < 10
  · have accepted : slow (f.velocity h (n + 1)) := decide_eq_true isSlow
    rw [if_pos (ExactDouble.fin_lt_fin.mpr isSlow), if_pos accepted, UInt8.toNat_add]
    have next : (f.stateAt (n + 1)).repetitions.toNat + 1 < 256 :=
      lt_of_le_of_lt (Nat.succ_le_succ small) (by decide)
    exact Nat.mod_eq_of_lt next
  · have rejected : ¬ slow (f.velocity h (n + 1)) := fun accepted =>
      isSlow (of_decide_eq_true accepted)
    rw [if_neg (fun below => isSlow (ExactDouble.fin_lt_fin.mp below)), if_neg rejected]
    rfl

/-- As long as the chute is awaited, the counter is the streak of slow estimates since the
deployment; by induction from the deployment, which finds the counter at zero.
-/
theorem ExactDescent.repetitions_eq {n : ℕ} (order : k ≤ n) (early : n ≤ bound)
    (awaiting : (f.after n).grState = .awaitingChute)
    : (f.after n).repetitions.toNat = streak slow (f.estimates h k n) := by
  induction n, order using Nat.le_induction with
  | base =>
      have start := (f.deploy_bounds descent.deploy).1
      have empty := (f.remembers k).fresh (Nat.lt_succ_of_le start)
      have stored := f.after_repetitions (f.awaiting_at_slowDescent awaiting)
      have unsampled : ¬ (f.testAt k .slowDescent).prevHeight ≠ fin 0 :=
        not_not.mpr (congrArg Memory.prevHeight ((f.testAt_memory k).trans empty))
      rw [if_neg unsampled] at stored
      have zero : (f.after k).repetitions = 0 :=
        stored.trans (congrArg Memory.repetitions empty)
      rw [zero, estimates_self]
      rfl
  | succ n order ih =>
      have upper : (f.stateAt (n + 1)).grState.toNat ≤ 4 :=
        ((f.path_at (n + 1)).le).trans (GrState.awaitingChute_iff.mp awaiting).le
      have entered := descent.entered (Nat.lt_succ_of_le order) upper
      have counted := ih (by omega) entered
      have stored := f.after_repetitions (f.awaiting_at_slowDescent awaiting)
      by_cases performed : Performed h k (n + 1)
      · have sampled := (descent.performed_iff order early entered).mpr performed
        rw [stored, if_pos sampled]
        exact descent.countEstimate_eq order early entered performed counted
      · have unsampled := mt (descent.performed_iff order early entered).mp performed
        rw [stored, if_neg unsampled, estimates_succ, if_neg performed, List.append_nil]
        exact counted

/-- The AWAITING_CHUTE block leaves the state exactly when it performs an estimate and the
streak reaches ten.
-/
theorem ExactDescent.slowDescent_iff {n : ℕ} (order : k ≤ n) (early : n < bound)
    (entered : (f.stateAt (n + 1)).grState = .awaitingChute)
    (awaiting : (f.testAt (n + 1) .slowDescent).grState = .awaitingChute)
    : .slowDescent ∈ f.sitesAt (n + 1)
      ↔ Performed h k (n + 1) ∧ 10 ≤ streak slow (f.estimates h k (n + 1)) := by
  have counted := descent.repetitions_eq order early.le entered
  have fewer := (f.repetitions_bounds (n + 1)).2 (GrState.awaitingChute_iff.mp entered).le
  have opens : .slowDescent ∈ f.sitesAt (n + 1)
      ↔ (f.testAt (n + 1) .slowDescent).prevHeight ≠ fin 0
        ∧ ((f.testAt (n + 1) .slowDescent).countEstimate f.log).repetitions = 10 :=
    f.mem_sitesAt.trans (and_iff_right awaiting)
  rw [opens, descent.performed_iff order early entered]
  refine and_congr_right (fun performed => ?_)
  have reached := descent.countEstimate_eq order early entered performed counted
  have before : (f.testAt (n + 1) .slowDescent).repetitions.toNat ≤ 9 := by
    have same := congrArg Memory.repetitions (f.testAt_memory (n + 1))
    rw [show (f.testAt (n + 1) .slowDescent).repetitions = _ from same]
    exact Nat.le_of_lt_succ fewer
  have upper := @countEstimate_le f.log _ _ before (by omega)
  rw [← reached, ← UInt8.toNat_inj]
  exact ⟨fun ten => ten.ge, fun ten => le_antisymm upper ten⟩

/-- Before the legs are fired, an iteration fires them exactly when its exit condition holds;
the three call sites are tested in the order of the body, each unless an earlier one left.
-/
theorem ExactDescent.legs_iff {n : ℕ} (order : k ≤ n) (early : n ≤ bound)
    (waiting : n = k ∨ (f.stateAt n).grState = .awaitingChute)
    : .legsDeploy ∈ f.firedAt n ↔ f.ExitAt h k n := by
  have altitude := descent.altitude n order early
  rw [exitAt_iff]
  by_cases first : n = k
  · subst first
    rw [f.legs_with_deploy descent.deploy, altitude, ExactDouble.fin_le_fin]
    simp [Performed]
  · have entered := waiting.resolve_left first
    obtain ⟨m, rfl⟩ : ∃ m, n = m + 1 := ⟨n - 1, by omega⟩
    have began : (f.stateAt (m + 1)).chuteOpenTime = f.secAt k :=
      f.chuteOpenTime_eq descent.deploy (show k ≤ m by omega)
    have timer := f.timer_iff entered
    rw [began] at timer
    have fires {site : CallSite} (stage : site.stage = 4) (member : site ∈ f.sitesAt (m + 1))
        : .legsDeploy ∈ f.firedAt (m + 1) := f.fired_iff.mpr ⟨site, member, stage⟩
    by_cases timed : .chuteTimer ∈ f.sitesAt (m + 1)
    · exact iff_of_true (fires rfl timed) (Or.inl ⟨by omega, timer.mp timed⟩)
    · have landing : (f.testAt (m + 1) .nearGround).grState = .awaitingChute := by
        apply f.testAt_awaiting entered
        intro other listed stage
        rcases CallSite.awaiting_cases stage with rfl | rfl | rfl
        · exact timed
        · exact absurd listed (by decide)
        · exact absurd listed (by decide)
      have near : .nearGround ∈ f.sitesAt (m + 1) ↔ h (m + 1) ≤ 50 := by
        rw [f.mem_sitesAt, ← ExactDouble.fin_le_fin, ← altitude,
          ← f.testAt_altitude (m + 1) .nearGround (by decide)]
        exact and_iff_right landing
      by_cases low : .nearGround ∈ f.sitesAt (m + 1)
      · exact iff_of_true (fires rfl low) (Or.inr (Or.inl (near.mp low)))
      · have awaiting : (f.testAt (m + 1) .slowDescent).grState = .awaitingChute := by
          apply f.testAt_awaiting entered
          intro other listed stage
          rcases CallSite.awaiting_cases stage with rfl | rfl | rfl
          · exact timed
          · exact low
          · exact absurd listed (by decide)
        have descended := descent.slowDescent_iff (show k ≤ m by omega) (by omega)
          entered awaiting
        constructor
        · intro legs
          obtain ⟨site, member, stage⟩ := f.fired_iff.mp legs
          rcases CallSite.awaiting_cases stage with rfl | rfl | rfl
          · exact absurd member timed
          · exact absurd member low
          · exact Or.inr (Or.inr (descended.mp member))
        · intro leaving
          rcases leaving with elapsed | ground | estimated
          · exact fires rfl (timer.mpr elapsed.2)
          · exact fires rfl (near.mpr ground)
          · exact fires rfl (descended.mpr estimated)

/-- Without legs so far the chute is still awaited, by induction from the deployment. -/
theorem ExactDescent.awaiting_of_none {n : ℕ} (order : k ≤ n)
    (none : ∀ m, k ≤ m → m ≤ n → .legsDeploy ∉ f.firedAt m)
    : (f.after n).grState = .awaitingChute := by
  have reached : 4 ≤ (f.after n).grState.toNat :=
    f.deployed_le descent.deploy (Nat.lt_succ_of_le order)
  induction n, order using Nat.le_induction with
  | base =>
      have start := (f.deploy_bounds descent.deploy).1
      exact f.stays_awaiting (by omega) reached (none k le_rfl le_rfl)
  | succ n order ih =>
      have entered := ih (fun m lower upper => none m lower (by omega))
        (f.deployed_le descent.deploy (Nat.lt_succ_of_le order))
      exact f.stays_awaiting (GrState.awaitingChute_iff.mp entered).le reached
        (none (n + 1) (by omega) le_rfl)

/-- The legs are fired in the first iteration whose exit condition holds. -/
theorem ExactDescent.legs_iff_isLeast {n : ℕ} (order : k ≤ n) (early : n ≤ bound)
    : .legsDeploy ∈ f.firedAt n ↔ IsLeast {m | k ≤ m ∧ f.ExitAt h k m} n := by
  have exits {m : ℕ} (lower : k ≤ m) (upper : m ≤ n)
      (none : ∀ i, k ≤ i → i < m → .legsDeploy ∉ f.firedAt i)
      : .legsDeploy ∈ f.firedAt m ↔ f.ExitAt h k m := by
    apply descent.legs_iff lower (upper.trans early)
    rcases Nat.eq_or_lt_of_le lower with rfl | later
    · exact Or.inl rfl
    · obtain ⟨i, rfl⟩ : ∃ i, m = i + 1 := ⟨m - 1, by omega⟩
      exact Or.inr (descent.awaiting_of_none (show k ≤ i by omega)
        (fun j lower upper => none j lower (by omega)))
  constructor
  · intro legs
    have none (m : ℕ) (_ : k ≤ m) (before : m < n) : .legsDeploy ∉ f.firedAt m := by
      intro again
      exact absurd (f.fired_once again legs) before.ne
    refine ⟨⟨order, (exits order le_rfl none).mp legs⟩, ?_⟩
    intro m exit
    by_contra before
    have before := not_le.mp before
    exact none m exit.1 before ((exits exit.1 before.le
      (fun i lower upper => none i lower (upper.trans before))).mpr exit.2)
  · intro least
    have none (m : ℕ) (lower : k ≤ m) (before : m < n) : .legsDeploy ∉ f.firedAt m := by
      induction m using Nat.strong_induction_on with
      | _ m ih =>
          intro legs
          have exit := (exits lower before.le
            (fun i bound upper => ih i upper bound (upper.trans before))).mp legs
          exact absurd (least.2 ⟨lower, exit⟩) (not_le.mpr before)
    exact (exits order le_rfl none).mpr least.1.2

end Descent

/-- Over exact altitudes and strictly increasing times, the legs are fired in the first
iteration, from the deployment on, in which the timer has run out, the vehicle is near the
ground, or the tenth slow estimate in a row is performed. So the counter never passes ten,
and at the end of an iteration in AWAITING_CHUTE at most 30 s have elapsed; elapsed seconds
are those of `time_t`, and of the integers while the seconds have not gone back.
-/
theorem awaitingChute_exit (f : Flight)
    : (∀ h k bound, f.ExactDescent h k bound
        → ∀ n, k ≤ n → n ≤ bound
          → (.legsDeploy ∈ f.firedAt n ↔ IsLeast {m | k ≤ m ∧ f.ExitAt h k m} n))
      ∧ (∀ n, (f.after n).repetitions ≤ 10)
      ∧ (∀ n, (f.after n).grState = .awaitingChute
        → f.secAt n - (f.after n).chuteOpenTime ≤ 30)
      ∧ ∀ k n, f.secAt k ≤ f.secAt n
        → (f.secAt n - f.secAt k).toNat = (f.secAt n).toNat - (f.secAt k).toNat := by
  refine ⟨?_, ?_, ?_, ?_⟩
  · intro h k bound descent n order early
    exact descent.legs_iff_isLeast order early
  · intro n
    exact UInt8.le_iff_toNat_le.mpr (f.repetitions_bounds (n + 1)).1
  · intro n awaiting
    exact f.elapsed_le awaiting
  · intro k n order
    exact UInt32.toNat_sub_of_le _ _ order

/-- A descent from 240 m, by ten metres in each iteration of eleven seconds. -/
def timedDescent : Flight where
  log := ExactDouble.tangentLog
  boot := ⟨0, 0, some ⟨fin 100000, fin 20⟩, ⟨0, 0⟩⟩
  env n :=
    ⟨⟨300 + 11 * UInt32.ofNat n, 0⟩, some 1000,
      some ⟨fin (100000 * (1 - 118558460224151 / 10 ^ 18 * (240 - 10 * n))), fin 20⟩, some 30000⟩

/-- Two slow estimates are too few, and then the timer has run out. -/
theorem timedDescent_exit
    : IsLeast {m | 0 ≤ m ∧ timedDescent.ExitAt (fun n => 240 - 10 * n) 0 m} 3 := by
  have descent : timedDescent.ExactDescent (fun n => 240 - 10 * n) 0 3 := by
    refine ⟨by decide +kernel, ?_, ?_⟩
    · intro n _ early
      interval_cases n <;> decide +kernel
    · intro n _ early
      interval_cases n <;> decide +kernel
  have legs : .legsDeploy ∈ timedDescent.firedAt 3 := by decide +kernel
  exact ((awaitingChute_exit _).1 _ 0 3 descent 3 (by omega) (by omega)).mp legs

end Granum.Flight
