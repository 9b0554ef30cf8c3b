import Granum.Flight.VelocityMemory

/-! Several pyro commands in one iteration. The guards of the loop body test the mission
state one after the other, so a transition can satisfy the next guard on the same samples.
-/

namespace Granum.Flight

open ExactDouble (fin)

variable (f : Flight)

/-- The chute deployment of iteration `n` is seen by the 50 m test after it. -/
theorem awaiting_after_deploy {n : ℕ} (member : .deployAltitude ∈ f.sitesAt n)
    : (f.testAt n .nearGround).grState = .awaitingChute := by
  have opened := f.mem_sitesAt.mp member
  exact (State.callIf_of false opened opened.source).1

/-- The other two ways out of AWAITING_CHUTE are closed in the iteration of the deployment:
the timer is tested before it, and no sample is stored yet.
-/
theorem not_left_otherwise {n : ℕ} (member : .deployAltitude ∈ f.sitesAt n)
    : .chuteTimer ∉ f.sitesAt n ∧ .slowDescent ∉ f.sitesAt n := by
  have falling := GrState.freeFall_iff.mp (f.mem_sitesAt.mp member).source
  constructor
  · intro timer
    have passed := (f.path_through n .deployAltitude).1.stage_bounds
      (f.mem_openedAt.mpr ⟨by decide, timer⟩)
    exact absurd (falling ▸ passed.2) (by decide)
  · intro slow
    have early := (f.testAt_bounds n .deployAltitude).1
    have empty := (f.remembers n).fresh (show _ < 4 by omega)
    have stored : (f.testAt n .slowDescent).prevHeight ≠ fin 0 := (f.mem_sitesAt.mp slow).2.1
    exact stored (congrArg Memory.prevHeight ((f.testAt_memory n).trans empty))

/-- After a deployment, the same iteration fires the legs exactly at 50 m or below. -/
theorem legs_with_deploy {n : ℕ} (fired : .chuteDeploy ∈ f.firedAt n)
    : .legsDeploy ∈ f.firedAt n ↔ f.altitudeAt n ≤ fin 50 := by
  have member := f.deploy_iff.mp fired
  obtain ⟨noTimer, noSlow⟩ := f.not_left_otherwise member
  rw [← f.testAt_altitude n .nearGround (by decide)]
  constructor
  · intro legs
    obtain ⟨site, listed, stage⟩ := f.fired_iff.mp legs
    rcases CallSite.awaiting_cases stage with rfl | rfl | rfl
    · exact absurd listed noTimer
    · exact (f.mem_sitesAt.mp listed).2
    · exact absurd listed noSlow
  · intro low
    exact f.fired_iff.mpr
      ⟨.nearGround, f.mem_sitesAt.mpr ⟨f.awaiting_after_deploy member, low⟩, rfl⟩

/-- The legs of iteration `n` are seen by its distance test, the last test of the body. -/
theorem preLanding_after_legs {n : ℕ} (fired : .legsDeploy ∈ f.firedAt n)
    : (f.testAt n .cutDistance).grState = .preLanding := by
  obtain ⟨site, member, left⟩ := f.fired_iff.mp fired
  have before : site ∈ CallSite.bodyOrder.takeWhile (· ≠ .cutDistance) := by
    rcases CallSite.awaiting_cases left with rfl | rfl | rfl <;> decide
  obtain ⟨path, _⟩ := f.path_through n .cutDistance
  obtain ⟨lower, upper⟩ := path.stage_bounds (f.mem_openedAt.mpr ⟨before, member⟩)
  have stage : site.stage = 4 := left
  apply GrState.preLanding_iff.mpr
  by_contra other
  obtain ⟨cut, listed, cutStage⟩ := path.stage_left (show _ ≤ 5 by omega) (by omega)
  obtain rfl := CallSite.eq_of_stage.2.2.2 cutStage
  exact absurd (f.mem_openedAt.mp listed).1 (by decide)

/-- After the legs, the same iteration cuts the chute exactly below 12 m. -/
theorem cut_with_legs {n : ℕ} (fired : .legsDeploy ∈ f.firedAt n)
    : .chuteCut ∈ f.firedAt n ↔ (f.after n).distance < 1200 := by
  rw [f.cut_iff, f.mem_sitesAt, ← f.testAt_distance n]
  exact and_iff_right (f.preLanding_after_legs fired)

/-- The commands of one iteration are a segment of the plan: in its order, each at most
once, and a deployment with a cut has the legs between them.
-/
theorem firedAt_segment (n : ℕ)
    : (f.firedAt n).Sublist [.chuteDeploy, .legsDeploy, .chuteCut]
      ∧ (.chuteDeploy ∈ f.firedAt n → .chuteCut ∈ f.firedAt n → .legsDeploy ∈ f.firedAt n)
      ∧ (1 < (f.firedAt n).length
        ↔ (.chuteDeploy ∈ f.firedAt n ∧ .legsDeploy ∈ f.firedAt n)
          ∨ (.legsDeploy ∈ f.firedAt n ∧ .chuteCut ∈ f.firedAt n)) := by
  have commands : f.firedAt n
      = (List.range' (f.stateAt n).grState.toNat
          ((f.after n).grState.toNat - (f.stateAt n).grState.toNat)).flatMap stagePyro :=
    (f.firedAt_eq n).trans (path_pyros (f.path_at n))
  obtain ⟨lower, _⟩ := f.stage_bounds n
  have upper : (f.after n).grState.toNat ≤ 6 := (f.stage_bounds (n + 1)).2
  rw [commands]
  generalize (f.stateAt n).grState.toNat = start at lower
  generalize (f.after n).grState.toNat = finish at upper
  by_cases idle : finish ≤ start
  · simp [Nat.sub_eq_zero_of_le idle]
  · have bound : start ≤ 6 := by omega
    interval_cases start <;> interval_cases finish <;> revert idle <;> decide

/-- What one iteration fires: a segment of DEPLOY, LEGS, CUT. A deployment fires the legs
with it exactly at 50 m or below, the legs fire the cut with them exactly below 12 m, and
more than one command is fired in no other way. Witness: each guard tests the mission state
that the transitions before it have reached, on the samples of its own iteration.
-/
theorem firedAt_cascade (n : ℕ)
    : (f.firedAt n).Sublist [.chuteDeploy, .legsDeploy, .chuteCut]
      ∧ (.chuteDeploy ∈ f.firedAt n
        → (.legsDeploy ∈ f.firedAt n ↔ f.altitudeAt n ≤ fin 50))
      ∧ (.legsDeploy ∈ f.firedAt n
        → (.chuteCut ∈ f.firedAt n ↔ (f.after n).distance < 1200))
      ∧ (.chuteDeploy ∈ f.firedAt n
        → (.chuteCut ∈ f.firedAt n
          ↔ f.altitudeAt n ≤ fin 50 ∧ (f.after n).distance < 1200))
      ∧ (1 < (f.firedAt n).length
        ↔ (.chuteDeploy ∈ f.firedAt n ∧ f.altitudeAt n ≤ fin 50)
          ∨ (.legsDeploy ∈ f.firedAt n ∧ (f.after n).distance < 1200)) := by
  obtain ⟨segment, between, several⟩ := f.firedAt_segment n
  refine ⟨segment, f.legs_with_deploy, f.cut_with_legs, ?_, ?_⟩
  · intro deploy
    constructor
    · intro cut
      have legs := between deploy cut
      exact ⟨(f.legs_with_deploy deploy).mp legs, (f.cut_with_legs legs).mp cut⟩
    · intro low
      exact (f.cut_with_legs ((f.legs_with_deploy deploy).mpr low.1)).mpr low.2
  · rw [several]
    exact or_congr (and_congr_right f.legs_with_deploy) (and_congr_right f.cut_with_legs)

/-- The bench flight fires all three commands in its first iteration. -/
theorem benchFlight_cascades
    : ¬ ∀ (f : Flight) (n : ℕ),
        (f.firedAt n).length ≤ 1
        ∧ (.chuteDeploy ∈ f.firedAt n → .chuteCut ∉ f.firedAt n) := by
  intro single
  have fired : (benchFlight fun _ => 500).firedAt 0
      = [.chuteDeploy, .legsDeploy, .chuteCut] := by decide +kernel
  have length := (single (benchFlight fun _ => 500) 0).1
  rw [fired] at length
  exact absurd length (by decide)

end Granum.Flight
