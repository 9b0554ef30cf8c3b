import Granum.Flight.Transitions

/-! The pyro commands of a run follow the mission states: the transitions of all iterations
form one path from READY, and the log is the list of commands on that path.
-/

namespace Granum.Flight

open StreamRun (history)

/-- The pyro command that a mission plan fires when it leaves a stage. -/
def stagePyro : ℕ → List Pyro
  | 3 => [.chuteDeploy]
  | 4 => [.legsDeploy]
  | 5 => [.chuteCut]
  | _ => []

/-- The commands of a call site are those of the stage it leaves. -/
theorem CallSite.pyro_eq (site : CallSite) : site.pyro = stagePyro site.stage := by
  cases site <;> rfl

/-- No call site leaves a stage outside READY to PRE_LANDING. -/
theorem CallSite.stage_bounds (site : CallSite) : 1 ≤ site.stage ∧ site.stage ≤ 5 := by
  cases site <;> decide

/-- The commands along a path are those of the stages between its ends, since the stages of
a path count upwards without a gap.
-/
theorem path_pyros {start finish : ℕ} {sites : List CallSite}
    (path : StagedPath.Path CallSite.stage start sites finish)
    : sites.flatMap CallSite.pyro
      = (List.range' start (finish - start)).flatMap stagePyro := by
  obtain ⟨counted, reached⟩ := path.stages
  have length : finish - start = sites.length := by omega
  rw [length, ← counted, List.flatMap_map]
  exact List.flatMap_congr (fun site _ => site.pyro_eq)

variable (f : Flight)

theorem path_at (n : ℕ)
    : StagedPath.Path CallSite.stage (f.stateAt n).grState.toNat (f.sitesAt n)
        (f.after n).grState.toNat :=
  State.loopBody_path (f.env n) (f.stateAt n)

/-- The commands of an iteration are those of its transitions. -/
theorem firedAt_eq (n : ℕ) : f.firedAt n = (f.sitesAt n).flatMap CallSite.pyro :=
  State.loopBody_codes (f.env n) (f.stateAt n)

theorem boardctlLog_after (n : ℕ)
    : (f.after n).boardctlLog = (f.stateAt n).boardctlLog ++ f.firedAt n :=
  State.loopBody_boardctlLog (f.env n) (f.stateAt n)

/-- The transitions of the first `n` iterations lead from READY to the state before iteration
`n`, by induction on the run.
-/
theorem path_history (n : ℕ)
    : StagedPath.Path CallSite.stage 1 ((history f.sitesAt n).map Prod.snd)
        (f.stateAt n).grState.toNat := by
  induction n with
  | zero => exact .nil 1
  | succ n ih =>
      have step := ih.append (f.path_at n)
      simpa [StreamRun.history_succ, Function.comp_def, after] using step

/-- The log before iteration `n` holds the commands of all transitions so far. -/
theorem boardctlLog_history (n : ℕ)
    : (f.stateAt n).boardctlLog
      = ((history f.sitesAt n).map Prod.snd).flatMap CallSite.pyro := by
  induction n with
  | zero => rfl
  | succ n ih =>
      have step := f.boardctlLog_after n
      rw [firedAt_eq, ih] at step
      rw [show f.stateAt (n + 1) = f.after n from rfl, step]
      simp [StreamRun.history_succ, Function.comp_def]

/-- The mission stage stays between READY and LANDED: it is one above the last stage left. -/
theorem stage_bounds (n : ℕ)
    : 1 ≤ (f.stateAt n).grState.toNat ∧ (f.stateAt n).grState.toNat ≤ 6 := by
  have path := f.path_history n
  refine ⟨path.le, ?_⟩
  by_contra beyond
  obtain ⟨site, _, left⟩ := path.stage_left (show 1 ≤ 6 by omega) (by omega)
  have bounds := site.stage_bounds
  omega

/-- The log is a function of the mission stage alone. -/
theorem boardctlLog_eq (n : ℕ)
    : (f.stateAt n).boardctlLog
      = (List.range' 1 ((f.stateAt n).grState.toNat - 1)).flatMap stagePyro := by
  rw [boardctlLog_history]
  exact path_pyros (f.path_history n)

/-- Every run starts in READY with an empty log; its log is always a prefix of DEPLOY, LEGS,
CUT, whose length tells the mission state, and the mission state never decreases and never
passes LANDED. Witness: the log is the plan up to the current stage, and the stage is one of
READY to LANDED.
-/
theorem boardctlLog_follows_grState
    : (f.stateAt 0).grState = .ready
      ∧ (f.stateAt 0).boardctlLog = []
      ∧ ∀ n,
          (f.stateAt n).boardctlLog <+: [.chuteDeploy, .legsDeploy, .chuteCut]
          ∧ ((f.stateAt n).boardctlLog.length = 0
              ↔ (f.stateAt n).grState.toNat ≤ GrState.freeFall.toNat)
          ∧ ((f.stateAt n).boardctlLog.length = 1 ↔ (f.stateAt n).grState = .awaitingChute)
          ∧ ((f.stateAt n).boardctlLog.length = 2 ↔ (f.stateAt n).grState = .preLanding)
          ∧ ((f.stateAt n).boardctlLog.length = 3 ↔ (f.stateAt n).grState = .landed)
          ∧ (f.stateAt n).grState.toNat ≤ (f.stateAt (n + 1)).grState.toNat
          ∧ (f.stateAt n).grState.toNat ≤ GrState.landed.toNat := by
  refine ⟨rfl, rfl, ?_⟩
  intro n
  have named (state : GrState)
      : (f.stateAt n).grState = state ↔ (f.stateAt n).grState.toNat = state.toNat :=
    GrState.toNat_injective.eq_iff.symm
  have grows := (f.path_at n).le
  obtain ⟨lower, upper⟩ := f.stage_bounds n
  have plan := f.boardctlLog_eq n
  simp only [named, plan]
  refine ⟨?_, ?_, ?_, ?_, ?_, grows, upper⟩ <;>
    generalize (f.stateAt n).grState.toNat = stage at lower upper <;>
    interval_cases stage <;> decide

end Granum.Flight
