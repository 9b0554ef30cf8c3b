import Granum.Flight.PyroOrder

/-! Every state of the mission remembers that its entry guard was met.
A transition in the history of a run is preceded by one transition for each earlier stage,
and each of them found its guard open in its own iteration.
-/

namespace Granum.Flight

open ExactDouble (fin)
open StreamRun (history mem_history history_sorted)

variable (f : Flight)

/-- The state in which iteration `n` tests the guard of `site`. -/
def testAt (n : ℕ) (site : CallSite) : State := (f.stateAt n).testState f.log (f.env n) site

theorem mem_sitesAt {n : ℕ} {site : CallSite}
    : site ∈ f.sitesAt n ↔ site.Opens f.log (f.testAt n site) := by
  change site ∈ ((f.stateAt n).loopBody f.log (f.env n)).sites ↔ _
  rw [State.loopBody_sites, State.mem_opened]
  exact and_iff_right site.mem_bodyOrder

/-- The transitions of iteration `n` at the listed call sites. -/
def openedAt (n : ℕ) (sites : List CallSite) : List CallSite :=
  State.opened f.log (f.env n) (f.stateAt n) sites

theorem mem_openedAt {n : ℕ} {sites : List CallSite} {site : CallSite}
    : site ∈ f.openedAt n sites ↔ site ∈ sites ∧ site ∈ f.sitesAt n := by
  rw [mem_sitesAt]
  exact State.mem_opened

/-- The test of a call site splits the path of its iteration: the transitions at earlier call
sites lead to the tested mission state, the others lead on from there.
-/
theorem path_through (n : ℕ) (site : CallSite)
    : StagedPath.Path CallSite.stage (f.stateAt n).grState.toNat
          (f.openedAt n (CallSite.bodyOrder.takeWhile (· ≠ site)))
          (f.testAt n site).grState.toNat
        ∧ StagedPath.Path CallSite.stage (f.testAt n site).grState.toNat
          (f.openedAt n (CallSite.bodyOrder.dropWhile (· ≠ site)))
          (f.after n).grState.toNat := by
  have reached : StagedPath.Path CallSite.stage (f.stateAt n).grState.toNat
      (f.openedAt n (CallSite.bodyOrder.takeWhile (· ≠ site)))
      (f.testAt n site).grState.toNat :=
    (State.testState_advances (f.env n) (f.stateAt n) site).path
  have whole : f.openedAt n (CallSite.bodyOrder.takeWhile (· ≠ site))
      ++ f.openedAt n (CallSite.bodyOrder.dropWhile (· ≠ site)) = f.sitesAt n := by
    rw [openedAt, openedAt, State.opened, State.opened, ← List.flatMap_append,
      List.takeWhile_append_dropWhile]
    exact (State.loopBody_sites (f.env n) (f.stateAt n)).symm
  have path := f.path_at n
  rw [← whole] at path
  obtain ⟨middle, left, right⟩ := path.split
  have same : middle = (f.testAt n site).grState.toNat :=
    left.stages.2.trans reached.stages.2.symm
  exact ⟨reached, same ▸ right⟩

theorem after_held (n : ℕ)
    : (f.after n).held
      = ((((f.stateAt n).held.tick (f.env n).clock).loadLumen (f.env n).lumen).loadBaro
          (f.env n).baro).loadSonar (f.env n).sonar :=
  State.loopBody_held (f.env n) (f.stateAt n)

/-- The boot time never changes, by the frame of the loop body. -/
theorem boottime_eq (n : ℕ) : (f.stateAt n).boottime = f.boot.clock.tvSec := by
  have keep (s : State) (i : Sample) : (s.loopBody f.log i).boottime = s.boottime :=
    congrArg Held.boottime (State.loopBody_held i s)
  exact StreamRun.frozen keep n

theorem groundPressure_eq (n : ℕ)
    : (f.stateAt n).groundPressure = (startUp f.boot).groundPressure := by
  have keep (s : State) (i : Sample)
      : (s.loopBody f.log i).groundPressure = s.groundPressure :=
    congrArg Held.groundPressure (State.loopBody_held i s)
  exact StreamRun.frozen keep n

/-- A test reads the clock of its own iteration. -/
theorem testAt_clock (n : ℕ) (site : CallSite)
    : (f.testAt n site).currentTime.tvSec = f.secAt n
      ∧ (f.testAt n site).boottime = f.boot.clock.tvSec := by
  have held := @State.testState_held f.log (f.env n) (f.stateAt n) site
  have clock := congrArg Held.currentTime held
  have boot := congrArg Held.boottime held
  rw [← f.boottime_eq n]
  cases site <;> exact ⟨congrArg Timespec.tvSec clock, boot⟩

/-- Every test after the BMP280 read sees the pressures held at the end of its iteration. -/
theorem testAt_barometer (n : ℕ) (site : CallSite)
    (late : site ∈ [.deployAltitude, .nearGround, .slowDescent, CallSite.cutDistance])
    : (f.testAt n site).bmp280Result = (f.after n).bmp280Result
      ∧ (f.testAt n site).groundPressure = (f.after n).groundPressure := by
  have held := @State.testState_held f.log (f.env n) (f.stateAt n) site
  have same {β : Type} (measure : Held → β)
      (plain : ∀ h r, measure (h.loadSonar r) = measure h)
      : measure (f.testAt n site).held = measure (f.after n).held := by
    rw [f.after_held n, testAt, held]
    cases site <;> simp at late <;> simp only [plain]
  exact ⟨same Held.bmp280Result (fun _ _ => rfl), same Held.groundPressure (fun _ _ => rfl)⟩

theorem testAt_altitude (n : ℕ) (site : CallSite)
    (late : site ∈ [.deployAltitude, .nearGround, .slowDescent, CallSite.cutDistance])
    : (f.testAt n site).altitude f.log = f.altitudeAt n := by
  obtain ⟨pressure, ground⟩ := f.testAt_barometer n site late
  rw [State.altitude, pressure, ground]
  rfl

/-- The luminosity tested is the one held at the end of the iteration. -/
theorem testAt_luminosity (n : ℕ)
    : (f.testAt n .luminosity).luminosity = (f.after n).luminosity := by
  have held := @State.testState_held f.log (f.env n) (f.stateAt n) .luminosity
  exact (congrArg Held.luminosity held).trans
    (congrArg Held.luminosity (f.after_held n)).symm

theorem testAt_distance (n : ℕ)
    : (f.testAt n .cutDistance).distance = (f.after n).distance := by
  have held := @State.testState_held f.log (f.env n) (f.stateAt n) .cutDistance
  exact (congrArg Held.distance held).trans
    (congrArg Held.distance (f.after_held n)).symm

/-- A command is fired in an iteration exactly when one of its transitions fires it. -/
theorem mem_firedAt {n : ℕ} {code : Pyro}
    : code ∈ f.firedAt n ↔ ∃ site ∈ f.sitesAt n, code ∈ stagePyro site.stage := by
  simp only [firedAt_eq, List.mem_flatMap, CallSite.pyro_eq]

/-- The stage that a command leaves. -/
def Pyro.stage : Pyro → ℕ
  | chuteDeploy => 3
  | legsDeploy => 4
  | chuteCut => 5

theorem mem_stagePyro {code : Pyro} {stage : ℕ}
    : code ∈ stagePyro stage ↔ stage = code.stage := by
  cases code <;> simp only [Pyro.stage] <;> unfold stagePyro <;> split <;> simp_all

theorem fired_iff {n : ℕ} {code : Pyro}
    : code ∈ f.firedAt n ↔ ∃ site ∈ f.sitesAt n, site.stage = code.stage := by
  simp only [mem_firedAt, mem_stagePyro]

/-- A stage below that of a transition was left in the same or an earlier iteration. -/
theorem left_earlier {n : ℕ} {site : CallSite} (member : site ∈ f.sitesAt n) (stage : ℕ)
    (lower : 1 ≤ stage) (upper : stage < site.stage)
    : ∃ m ≤ n, ∃ first ∈ f.sitesAt m, first.stage = stage := by
  have listed : (n, site) ∈ history f.sitesAt (n + 1) := mem_history.mpr ⟨by omega, member⟩
  obtain ⟨m, order, first, entry, left⟩ := (f.path_history (n + 1)).left_earlier
    (history_sorted f.sitesAt (n + 1)) listed lower upper
  exact ⟨m, order, first, (mem_history.mp entry).2, left⟩

/-- Each stage is left in one iteration only, and through one call site. -/
theorem left_once {m n : ℕ} {first second : CallSite} (left : first ∈ f.sitesAt m)
    (right : second ∈ f.sitesAt n) (same : first.stage = second.stage)
    : m = n ∧ first = second := by
  have listed {k : ℕ} {site : CallSite} (bound : k < max m n + 1)
      (member : site ∈ f.sitesAt k)
      : (k, site) ∈ history f.sitesAt (max m n + 1) := mem_history.mpr ⟨bound, member⟩
  have entry := (f.path_history (max m n + 1)).entry_unique
    (listed (by omega) left) (listed (by omega) right) same
  exact ⟨congrArg Prod.fst entry, congrArg Prod.snd entry⟩

/-- The transition out of READY is the timer's, out of LOADED the luminosity's. -/
theorem CallSite.eq_of_stage {site : CallSite}
    : (site.stage = 1 → site = .readyTimer)
      ∧ (site.stage = 2 → site = .luminosity)
      ∧ (site.stage = 3 → site = .deployAltitude)
      ∧ (site.stage = 5 → site = .cutDistance) := by
  cases site <;> decide

/-- AWAITING_CHUTE is left by its timer, near the ground, or after a slow descent. -/
theorem CallSite.awaiting_cases {site : CallSite} (left : site.stage = 4)
    : site = .chuteTimer ∨ site = .nearGround ∨ site = .slowDescent := by
  revert left
  cases site <;> decide

/-- The chute is deployed by one call site only. -/
theorem deploy_iff {n : ℕ} : .chuteDeploy ∈ f.firedAt n ↔ .deployAltitude ∈ f.sitesAt n := by
  rw [fired_iff]
  constructor
  · rintro ⟨site, member, left⟩
    obtain rfl := CallSite.eq_of_stage.2.2.1 left
    exact member
  · intro member
    exact ⟨.deployAltitude, member, rfl⟩

/-- The chute is cut by one call site only. -/
theorem cut_iff {n : ℕ} : .chuteCut ∈ f.firedAt n ↔ .cutDistance ∈ f.sitesAt n := by
  rw [fired_iff]
  constructor
  · rintro ⟨site, member, left⟩
    obtain rfl := CallSite.eq_of_stage.2.2.2 left
    exact member
  · intro member
    exact ⟨.cutDistance, member, rfl⟩

/-- Each command is fired in one iteration only. -/
theorem fired_once {m n : ℕ} {code : Pyro} (first : code ∈ f.firedAt m)
    (second : code ∈ f.firedAt n)
    : m = n := by
  obtain ⟨site, member, left⟩ := f.fired_iff.mp first
  obtain ⟨other, member', left'⟩ := f.fired_iff.mp second
  exact (f.left_once member member' (left.trans left'.symm)).1

/-- The iteration of the deployment starts in FREE_FALL or before and ends after it. -/
theorem deploy_bounds {n : ℕ} (deploy : .chuteDeploy ∈ f.firedAt n)
    : (f.stateAt n).grState.toNat ≤ 3 ∧ 4 ≤ (f.after n).grState.toNat :=
  (f.path_at n).stage_bounds (f.deploy_iff.mp deploy)

/-- The seconds of the clock never go back, from the boot sample on. -/
structure ClockNondecreasing : Prop where
  boot : f.boot.clock.tvSec ≤ f.secAt 0
  step : ∀ n, f.secAt n ≤ f.secAt (n + 1)

theorem ClockNondecreasing.mono {f : Flight} (clock : f.ClockNondecreasing) {m n : ℕ}
    (order : m ≤ n)
    : (f.secAt m).toNat ≤ (f.secAt n).toNat :=
  monotone_nat_of_le_succ (fun k => UInt32.le_iff_toNat_le.mp (clock.step k)) order

/-- The READY timer opens 300 s after boot, when the subtraction cannot wrap. -/
theorem ClockNondecreasing.elapsed {f : Flight} (clock : f.ClockNondecreasing) {n : ℕ}
    (member : CallSite.readyTimer ∈ f.sitesAt n)
    : f.boot.clock.tvSec.toNat + 300 ≤ (f.secAt n).toNat := by
  have order := (UInt32.le_iff_toNat_le.mp clock.boot).trans (clock.mono (Nat.zero_le n))
  have opened : 300 ≤ (f.testAt n .readyTimer).currentTime.tvSec
      - (f.testAt n .readyTimer).boottime := (f.mem_sitesAt.mp member).2
  rw [(f.testAt_clock n .readyTimer).1, (f.testAt_clock n .readyTimer).2,
    UInt32.le_iff_toNat_le, UInt32.toNat_sub_of_le _ _ (UInt32.le_iff_toNat_le.mpr order)]
    at opened
  have limit : (300 : UInt32).toNat = 300 := rfl
  omega

/-- With a nondecreasing clock, every pyro command is preceded by the guards of all earlier
states: the deployment by the timer, the luminosity and the altitude, the cut by the legs
and the distance; and none is fired earlier than 300 s after boot. Witness: each stage below
a command was left no later, through a call site whose guard was open then.
-/
theorem pyro_guards_were_met (clock : f.ClockNondecreasing)
    : (∀ k, .chuteDeploy ∈ f.firedAt k
        → ∃ i j, i ≤ j ∧ j ≤ k
          ∧ f.boot.clock.tvSec.toNat + 300 ≤ (f.secAt i).toNat
          ∧ 1000 ≤ (f.after j).luminosity
          ∧ f.altitudeAt k ≤ fin 250)
      ∧ (∀ m, .chuteCut ∈ f.firedAt m
          → (∃ k, .chuteDeploy ∈ f.firedAt k)
            ∧ (∀ k, .chuteDeploy ∈ f.firedAt k
                → ∃ l, k ≤ l ∧ l ≤ m ∧ .legsDeploy ∈ f.firedAt l)
            ∧ (f.after m).distance < 1200)
      ∧ ∀ n code,
          code ∈ f.firedAt n → f.boot.clock.tvSec.toNat + 300 ≤ (f.secAt n).toNat := by
  refine ⟨?_, ?_, ?_⟩
  · intro k fired
    have member := f.deploy_iff.mp fired
    obtain ⟨j, jk, lit, litMember, litStage⟩ := f.left_earlier member 2
      (by decide) (by decide)
    obtain rfl := CallSite.eq_of_stage.2.1 litStage
    obtain ⟨i, ij, timed, timedMember, timedStage⟩ := f.left_earlier litMember 1
      (by decide) (by decide)
    obtain rfl := CallSite.eq_of_stage.1 timedStage
    refine ⟨i, j, ij, jk, clock.elapsed timedMember, ?_, ?_⟩
    · rw [← f.testAt_luminosity j]
      exact (f.mem_sitesAt.mp litMember).2
    · have opened : (f.testAt k .deployAltitude).altitude f.log ≤ fin 250 :=
        (f.mem_sitesAt.mp member).2
      rwa [f.testAt_altitude k .deployAltitude (by decide)] at opened
  · intro m fired
    have member := f.cut_iff.mp fired
    obtain ⟨l, lm, legs, legsMember, legsStage⟩ := f.left_earlier member 4
      (by decide) (by decide)
    obtain ⟨k, kl, deploy, deployMember, deployStage⟩ := f.left_earlier legsMember 3
      (by decide) (by omega)
    have deployed : .chuteDeploy ∈ f.firedAt k :=
      f.fired_iff.mpr ⟨deploy, deployMember, deployStage⟩
    refine ⟨⟨k, deployed⟩, ?_, ?_⟩
    · intro other deployed'
      have same := f.fired_once deployed' deployed
      exact ⟨l, same ▸ kl, lm, f.fired_iff.mpr ⟨legs, legsMember, legsStage⟩⟩
    · rw [← f.testAt_distance m]
      exact (f.mem_sitesAt.mp member).2
  · intro n code fired
    obtain ⟨site, member, left⟩ := f.fired_iff.mp fired
    obtain ⟨i, order, timed, timedMember, timedStage⟩ := f.left_earlier member 1
      (by decide) (by rw [left]; cases code <;> decide)
    obtain rfl := CallSite.eq_of_stage.1 timedStage
    exact (clock.elapsed timedMember).trans (clock.mono order)

/-- A vehicle that stays on the ground, in daylight and with all sensors read. Its loop starts
300 s after boot and then runs at 301 s; `sonar` gives the distances.
-/
def benchFlight (sonar : ℕ → UInt16) : Flight where
  log := ExactDouble.tangentLog
  boot := ⟨0, 0, some ⟨fin 100000, fin 20⟩, ⟨0, 0⟩⟩
  env n :=
    ⟨⟨if n = 0 then 300 else 301, 0⟩, some 1000, some ⟨fin 100000, fin 20⟩, some (sonar n)⟩

theorem benchFlight_guards_were_met
    : (benchFlight fun _ => 500).ClockNondecreasing
      ∧ .chuteCut ∈ (benchFlight fun _ => 500).firedAt 0
      ∧ ((benchFlight fun _ => 500).after 0).distance < 1200 := by
  have clock : (benchFlight fun _ => 500).ClockNondecreasing := by
    refine ⟨by decide, fun n => ?_⟩
    cases n with
    | zero => decide
    | succ n => exact UInt32.le_refl 301
  have fired : .chuteCut ∈ (benchFlight fun _ => 500).firedAt 0 := by decide +kernel
  exact ⟨clock, fired, ((pyro_guards_were_met _ clock).2.1 0 fired).2.2⟩

end Granum.Flight
