import Granum.Flight.MainLoop
import Granum.Library.StagedPath

/-! What one iteration can do: which variables it keeps, and that the transitions it takes
form a path through the mission stages with the pyro commands of that path.
-/

namespace Granum.Flight

open ExactDouble (fin fabs)

/-- The mission state that the guard of a call site tests for. -/
def CallSite.source : CallSite → GrState
  | readyTimer => .ready
  | chuteTimer | nearGround | slowDescent => .awaitingChute
  | luminosity => .loaded
  | deployAltitude => .freeFall
  | cutDistance => .preLanding

/-- The mission stage that a call site leaves. -/
def CallSite.stage (site : CallSite) : ℕ := site.source.toNat

/-- The call sites in the order in which the loop body tests them. -/
def CallSite.bodyOrder : List CallSite :=
  [readyTimer, chuteTimer, luminosity, deployAltitude, nearGround, slowDescent, cutDistance]

theorem CallSite.mem_bodyOrder (site : CallSite) : site ∈ bodyOrder := by
  cases site <;> decide

/-- The pyro commands fired by a transition at a call site. -/
def CallSite.pyro : CallSite → List Pyro
  | readyTimer | luminosity => []
  | deployAltitude => [.chuteDeploy]
  | chuteTimer | nearGround | slowDescent => [.legsDeploy]
  | cutDistance => [.chuteCut]

/-- The variables loaded from the environment, and those of the PRE_LANDING estimate. -/
structure Held where
  currentTime : Timespec
  boottime : UInt32
  groundPressure : ExactDouble
  bmp280Result : Bmp280Data
  luminosity : UInt16
  distance : UInt16
  landingPrevHeight : ExactDouble
  landingPrevTime : ExactDouble

/-- The held variables after the clock and the sensors are read in the order of the body. -/
def Held.tick (now : Timespec) (h : Held) : Held := { h with currentTime := now }

def Held.loadLumen (result : Option UInt16) (h : Held) : Held :=
  { h with luminosity := result.getD h.luminosity }

def Held.loadBaro (result : Option Bmp280Data) (h : Held) : Held :=
  { h with bmp280Result := result.getD h.bmp280Result }

def Held.loadSonar (result : Option UInt16) (h : Held) : Held :=
  { h with distance := result.getD h.distance }

/-- The variables of the AWAITING_CHUTE estimate. -/
structure Memory where
  prevHeight : ExactDouble
  prevTime : ExactDouble
  repetitions : UInt8

namespace State

variable {log : ExactDouble → ExactDouble}

def held (s : State) : Held where
  currentTime := s.currentTime
  boottime := s.boottime
  groundPressure := s.groundPressure
  bmp280Result := s.bmp280Result
  luminosity := s.luminosity
  distance := s.distance
  landingPrevHeight := s.landingPrevHeight
  landingPrevTime := s.landingPrevTime

def memory (s : State) : Memory := ⟨s.prevHeight, s.prevTime, s.repetitions⟩

@[simp] theorem sites_emit (event : Event) (s : State)
    : (s.emit event).sites = s.sites ++ event.site?.toList := by
  cases event <;> simp [sites, emit, Event.site?]

@[simp] theorem codes_emit (event : Event) (s : State)
    : (s.emit event).codes = s.codes ++ event.code?.toList := by
  cases event <;> simp [codes, emit, Event.code?]

/-- A call site writes only the mission state, the chute clock, the log and the events. -/
@[simp] theorem callIf_held (site : CallSite) (openLegs : Bool) (guard : Prop)
    [Decidable guard] (s : State)
    : (s.callIf site openLegs guard).held = s.held
      ∧ (s.callIf site openLegs guard).memory = s.memory
      ∧ (s.callIf site openLegs guard).estimates = s.estimates := by
  unfold callIf translateState
  split
  · split <;> refine ⟨rfl, rfl, ?_⟩ <;> simp [estimates, boardctl, emit, Event.isEstimate]
  · exact ⟨rfl, rfl, rfl⟩

theorem callIf_of_not {site : CallSite} {openLegs : Bool} {guard : Prop} [Decidable guard]
    {s : State} (closed : ¬ guard)
    : s.callIf site openLegs guard = s := if_neg closed

/-- A transition taken from the source of its call site moves one mission state up, and
fires the commands of the site; by cases on the site.
-/
theorem callIf_of {site : CallSite} (openLegs : Bool) {guard : Prop} [Decidable guard]
    {s : State} (opened : guard) (source : s.grState = site.source)
    : (s.callIf site openLegs guard).grState = site.source.succ
      ∧ (s.callIf site openLegs guard).sites = s.sites ++ [site]
      ∧ (s.callIf site openLegs guard).codes = s.codes ++ site.pyro
      ∧ (s.callIf site openLegs guard).boardctlLog = s.boardctlLog ++ site.pyro
      ∧ (s.callIf site openLegs guard).chuteOpenTime
        = if site = .deployAltitude then s.currentTime.tvSec else s.chuteOpenTime := by
  unfold callIf
  rw [if_pos opened]
  cases site <;>
    simp [translateState, boardctl, emit, sites, codes, source, CallSite.source,
      CallSite.pyro, Event.site?, Event.code?, List.filterMap_cons]

-----------------------------------------------------------------------------------------
-- The transitions of one iteration
-----------------------------------------------------------------------------------------

/-- State `t` follows from `s` by the transitions at `taken`: they lead from the mission
stage of `s` to that of `t`, and account for every event, command and log entry between.
-/
structure Advances (s t : State) (taken : List CallSite) : Prop where
  path : StagedPath.Path CallSite.stage s.grState.toNat taken t.grState.toNat
  sites : t.sites = s.sites ++ taken
  codes : t.codes = s.codes ++ taken.flatMap CallSite.pyro
  boardctlLog : t.boardctlLog = s.boardctlLog ++ taken.flatMap CallSite.pyro
  currentTime : t.currentTime = s.currentTime
  chuteOpenTime : t.chuteOpenTime
    = if .deployAltitude ∈ taken then s.currentTime.tvSec else s.chuteOpenTime

/-- Writing other variables advances along no transition. -/
theorem Advances.quiet {s t : State} (grState : t.grState = s.grState)
    (sites : t.sites = s.sites) (codes : t.codes = s.codes)
    (boardctlLog : t.boardctlLog = s.boardctlLog)
    (currentTime : t.currentTime = s.currentTime)
    (chuteOpenTime : t.chuteOpenTime = s.chuteOpenTime)
    : Advances s t [] where
  path := grState ▸ .nil _
  sites := by simpa using sites
  codes := by simpa using codes
  boardctlLog := by simpa using boardctlLog
  currentTime := currentTime
  chuteOpenTime := by simpa using chuteOpenTime

theorem Advances.trans {s t u : State} {first second : List CallSite}
    (left : Advances s t first) (right : Advances t u second)
    : Advances s u (first ++ second) where
  path := left.path.append right.path
  sites := by rw [right.sites, left.sites, List.append_assoc]
  codes := by rw [right.codes, left.codes, List.append_assoc, List.flatMap_append]
  boardctlLog := by
    rw [right.boardctlLog, left.boardctlLog, List.append_assoc, List.flatMap_append]
  currentTime := right.currentTime.trans left.currentTime
  chuteOpenTime := by
    rw [right.chuteOpenTime, left.chuteOpenTime, left.currentTime]
    by_cases late : .deployAltitude ∈ second
    · simp [late]
    · simp [late]

/-- A call site whose guard tests for its source advances along that site or stays. -/
theorem Advances.callIf (site : CallSite) (openLegs : Bool) {guard : Prop}
    [Decidable guard] {s : State} (source : guard → s.grState = site.source)
    : Advances s (s.callIf site openLegs guard) (if guard then [site] else []) := by
  by_cases opened : guard
  · obtain ⟨grState, sites, codes, boardctlLog, opening⟩ :=
      callIf_of openLegs opened (source opened)
    rw [if_pos opened]
    refine ⟨?_, sites, by simpa using codes, by simpa using boardctlLog, ?_, ?_⟩
    · rw [grState, source opened, GrState.toNat_succ]
      exact .single site
    · exact congrArg Held.currentTime (callIf_held site openLegs guard s).1
    · simpa [eq_comm] using opening
  · rw [if_neg opened, callIf_of_not opened]
    exact .quiet rfl rfl rfl rfl rfl rfl

/-- The state in which the guard of a call site is tested during an iteration. -/
def testState (log : ExactDouble → ExactDouble) (i : Sample) (s : State) : CallSite → State
  | .readyTimer => s.upToReadyTimer i
  | .chuteTimer => s.upToChuteTimer i
  | .luminosity => s.upToLuminosity i
  | .deployAltitude => s.upToDeployAltitude i
  | .nearGround => s.upToNearGround log i
  | .slowDescent => s.upToSlowDescent log i
  | .cutDistance => s.upToCutDistance log i

end State

/-- The guard of a call site, in the state in which it is tested. -/
def CallSite.Opens (log : ExactDouble → ExactDouble) (u : State) : CallSite → Prop
  | readyTimer => u.grState = .ready ∧ 300 ≤ u.currentTime.tvSec - u.boottime
  | chuteTimer => u.grState = .awaitingChute ∧ 30 < u.currentTime.tvSec - u.chuteOpenTime
  | luminosity => u.grState = .loaded ∧ 1000 ≤ u.luminosity
  | deployAltitude => u.grState = .freeFall ∧ u.altitude log ≤ fin 250
  | nearGround => u.grState = .awaitingChute ∧ u.altitude log ≤ fin 50
  | slowDescent =>
      u.grState = .awaitingChute ∧ u.prevHeight ≠ fin 0 ∧ (u.countEstimate log).repetitions = 10
  | cutDistance => u.grState = .preLanding ∧ u.distance < 1200

instance (log : ExactDouble → ExactDouble) (u : State) (site : CallSite)
    : Decidable (site.Opens log u) :=
  match site with
  | .readyTimer => instDecidableAnd
  | .chuteTimer => instDecidableAnd
  | .luminosity => instDecidableAnd
  | .deployAltitude => instDecidableAnd
  | .nearGround => instDecidableAnd
  | .slowDescent => instDecidableAnd
  | .cutDistance => instDecidableAnd

/-- Every guard tests for the source of its call site. -/
theorem CallSite.Opens.source {log : ExactDouble → ExactDouble} {u : State}
    {site : CallSite} (opened : site.Opens log u)
    : u.grState = site.source := by
  cases site <;> exact opened.1

namespace State

variable {log : ExactDouble → ExactDouble}

/-- The label of a call site, when its guard is open. -/
def labelIf (log : ExactDouble → ExactDouble) (site : CallSite) (u : State)
    : List CallSite :=
  if site.Opens log u then [site] else []

theorem labelIf_of {site : CallSite} {u : State} (opened : site.Opens log u)
    : labelIf log site u = [site] := if_pos opened

theorem labelIf_of_not {site : CallSite} {u : State} (closed : ¬ site.Opens log u)
    : labelIf log site u = [] := if_neg closed

/-- A plain test of the guard advances along its call site exactly when it is open. -/
theorem Advances.test (log : ExactDouble → ExactDouble) (site : CallSite) (openLegs : Bool)
    (u : State)
    : Advances u (u.callIf site openLegs (site.Opens log u)) (labelIf log site u) :=
  .callIf site openLegs CallSite.Opens.source

theorem storeSample_advances (height time : ExactDouble) (u : State)
    : Advances u (u.storeSample height time) [] :=
  .quiet rfl rfl rfl rfl rfl rfl

/-- The bookkeeping of an estimate is no transition. -/
theorem countEstimate_advances (u : State) : Advances u (u.countEstimate log) [] :=
  .quiet rfl (by simp [countEstimate, sites, emit, Event.site?])
    (by simp [countEstimate, codes, emit, Event.code?]) rfl rfl rfl

/-- The AWAITING_CHUTE block advances along its call site exactly when an estimate brings
the repetition count to ten; by cases on the block's three conditions.
-/
theorem slowDescentTest_advances (u : State)
    : Advances u (u.slowDescentTest log) (labelIf log .slowDescent u) := by
  unfold slowDescentTest
  by_cases awaiting : u.grState = .awaitingChute
  · rw [if_pos awaiting]
    by_cases sampled : u.prevHeight ≠ fin 0
    · rw [if_pos sampled]
      have tested : Advances (u.countEstimate log)
          ((u.countEstimate log).callIf .slowDescent true
            ((u.countEstimate log).repetitions = 10)) _ :=
        .callIf .slowDescent true (fun _ => awaiting)
      have whole := ((countEstimate_advances u).trans tested).trans
        (storeSample_advances (u.altitude log) u.currentTimeDbl _)
      by_cases tenth : (u.countEstimate log).repetitions = 10
      · have opened : CallSite.slowDescent.Opens log u := ⟨awaiting, sampled, tenth⟩
        rw [labelIf_of opened]
        simpa [if_pos tenth] using whole
      · have closed : ¬ CallSite.slowDescent.Opens log u := fun opened => tenth opened.2.2
        rw [labelIf_of_not closed]
        simpa [if_neg tenth] using whole
    · have closed : ¬ CallSite.slowDescent.Opens log u := fun opened => sampled opened.2.1
      rw [if_neg sampled, labelIf_of_not closed]
      exact .quiet rfl rfl rfl rfl rfl rfl
  · have closed : ¬ CallSite.slowDescent.Opens log u := fun opened => awaiting opened.1
    rw [if_neg awaiting, labelIf_of_not closed]
    exact .quiet rfl rfl rfl rfl rfl rfl

/-- The PRE_LANDING block advances along its call site exactly when its guard is open. -/
theorem cutDistanceTest_advances (u : State)
    : Advances u (u.cutDistanceTest log) (labelIf log .cutDistance u) := by
  unfold cutDistanceTest
  by_cases opened : CallSite.cutDistance.Opens log u
  · have estimated : Advances u
        ((u.emit (.velocity .cutDistance (u.landingOperands log))).emit
          (.usleep (u.landingOperands log).cutDelay)) [] :=
      .quiet rfl (by simp [Event.site?]) (by simp [Event.code?]) rfl rfl rfl
    rw [labelIf_of opened, if_pos (show u.grState = .preLanding ∧ u.distance < 1200 from opened)]
    exact estimated.trans (.callIf .cutDistance false (fun _ => opened.1))
  · rw [labelIf_of_not opened,
      if_neg (show ¬ (u.grState = .preLanding ∧ u.distance < 1200) from opened)]
    exact .quiet rfl rfl rfl rfl rfl rfl

theorem readLumen_advances (result : Option UInt16) (u : State)
    : Advances u (u.readLumen result) [] :=
  .quiet rfl (by simp [readLumen, sites, emit, Event.site?])
    (by simp [readLumen, codes, emit, Event.code?]) rfl rfl rfl

theorem readBaro_advances (result : Option Bmp280Data) (u : State)
    : Advances u (u.readBaro result) [] :=
  .quiet rfl (by simp [readBaro, sites, emit, Event.site?])
    (by simp [readBaro, codes, emit, Event.code?]) rfl rfl rfl

theorem readSonar_advances (result : Option UInt16) (u : State)
    : Advances u (u.readSonar result) [] :=
  .quiet rfl (by simp [readSonar, sites, emit, Event.site?])
    (by simp [readSonar, codes, emit, Event.code?]) rfl rfl rfl

theorem sendStatus_advances (u : State) : Advances u u.sendStatus [] := by
  unfold sendStatus
  dsimp only
  split
  · exact .quiet rfl (by simp [sites, emit, Event.site?])
      (by simp [codes, emit, Event.code?]) rfl rfl rfl
  · exact .quiet rfl rfl rfl rfl rfl rfl

/-- The transitions at those of the listed call sites whose guards are open. -/
def opened (log : ExactDouble → ExactDouble) (i : Sample) (s : State)
    (sites : List CallSite)
    : List CallSite :=
  sites.flatMap (fun site => labelIf log site (s.testState log i site))

@[simp] theorem mem_opened {i : Sample} {s : State} {sites : List CallSite}
    {site : CallSite}
    : site ∈ opened log i s sites
      ↔ site ∈ sites ∧ site.Opens log (s.testState log i site) := by
  simp only [opened, List.mem_flatMap]
  constructor
  · intro member
    obtain ⟨other, listed, labelled⟩ := member
    by_cases open_ : other.Opens log (s.testState log i other)
    · rw [labelIf_of open_, List.mem_singleton] at labelled
      exact labelled ▸ ⟨listed, open_⟩
    · simp [labelIf_of_not open_] at labelled
  · intro member
    exact ⟨site, member.1, by simp [labelIf_of member.2]⟩

/-- The guard of a call site is tested after the transitions at the call sites before it.
Witness: the advances of the sections in body order.
-/
theorem testState_advances (i : Sample) (s : State) (site : CallSite)
    : Advances (s.upToReadyTimer i) (s.testState log i site)
        (opened log i s (CallSite.bodyOrder.takeWhile (· ≠ site))) := by
  have ready : Advances (s.upToReadyTimer i) (s.upToChuteTimer i)
      (labelIf log .readyTimer (s.upToReadyTimer i)) := .test log .readyTimer false _
  have timed : Advances (s.upToChuteTimer i) (s.upToLuminosity i)
      (labelIf log .chuteTimer (s.upToChuteTimer i) ++ []) :=
    (Advances.test log .chuteTimer false _).trans (readLumen_advances i.lumen _)
  have lit : Advances (s.upToLuminosity i) (s.upToDeployAltitude i)
      (labelIf log .luminosity (s.upToLuminosity i) ++ []) :=
    (Advances.test log .luminosity false _).trans (readBaro_advances i.baro _)
  have deployed : Advances (s.upToDeployAltitude i) (s.upToNearGround log i)
      (labelIf log .deployAltitude (s.upToDeployAltitude i)) :=
    .test log .deployAltitude false _
  have landing : Advances (s.upToNearGround log i) (s.upToSlowDescent log i)
      (labelIf log .nearGround (s.upToNearGround log i)) := .test log .nearGround true _
  have descended : Advances (s.upToSlowDescent log i) (s.upToCutDistance log i)
      (labelIf log .slowDescent (s.upToSlowDescent log i) ++ []) :=
    (slowDescentTest_advances _).trans (readSonar_advances i.sonar _)
  cases site
  case readyTimer => exact .quiet rfl rfl rfl rfl rfl rfl
  case chuteTimer => simpa [opened, CallSite.bodyOrder, testState] using ready
  case luminosity => simpa [opened, CallSite.bodyOrder, testState] using ready.trans timed
  case deployAltitude =>
    simpa [opened, CallSite.bodyOrder, testState] using ready.trans (timed.trans lit)
  case nearGround =>
    simpa [opened, CallSite.bodyOrder, testState]
      using ready.trans (timed.trans (lit.trans deployed))
  case slowDescent =>
    simpa [opened, CallSite.bodyOrder, testState]
      using ready.trans (timed.trans (lit.trans (deployed.trans landing)))
  case cutDistance =>
    simpa [opened, CallSite.bodyOrder, testState]
      using ready.trans (timed.trans (lit.trans (deployed.trans (landing.trans descended))))

/-- One iteration advances along exactly the call sites whose guards are open. -/
theorem loopBody_advances (i : Sample) (s : State)
    : Advances (s.upToReadyTimer i) (s.loopBody log i) (opened log i s CallSite.bodyOrder) := by
  have tested := @testState_advances log i s .cutDistance
  have cut : Advances (s.upToCutDistance log i) (s.loopBody log i)
      (labelIf log .cutDistance (s.upToCutDistance log i) ++ []) :=
    (cutDistanceTest_advances _).trans (sendStatus_advances _)
  simpa [opened, CallSite.bodyOrder, testState] using tested.trans cut

/-- The call sites recorded in the events are the ones taken. -/
theorem loopBody_sites (i : Sample) (s : State)
    : (s.loopBody log i).sites = opened log i s CallSite.bodyOrder := by
  simpa [sites, upToReadyTimer, clockGettime] using (loopBody_advances i s).sites

theorem loopBody_codes (i : Sample) (s : State)
    : (s.loopBody log i).codes = (s.loopBody log i).sites.flatMap CallSite.pyro := by
  rw [loopBody_sites]
  simpa [codes, upToReadyTimer, clockGettime] using (loopBody_advances i s).codes

theorem loopBody_boardctlLog (i : Sample) (s : State)
    : (s.loopBody log i).boardctlLog = s.boardctlLog ++ (s.loopBody log i).codes := by
  rw [loopBody_codes, loopBody_sites]
  exact (loopBody_advances i s).boardctlLog

theorem loopBody_path (i : Sample) (s : State)
    : StagedPath.Path CallSite.stage s.grState.toNat (s.loopBody log i).sites
        (s.loopBody log i).grState.toNat := by
  rw [loopBody_sites]
  exact (loopBody_advances i s).path

-----------------------------------------------------------------------------------------
-- Variables that an iteration keeps or loads
-----------------------------------------------------------------------------------------

theorem slowDescentTest_of_not {u : State} (other : u.grState ≠ .awaitingChute)
    : u.slowDescentTest log = u := if_neg other

/-- The AWAITING_CHUTE block stores its sample, whether or not an estimate was due. -/
theorem slowDescentTest_memory {u : State} (awaiting : u.grState = .awaitingChute)
    : (u.slowDescentTest log).memory
      = { prevHeight := u.altitude log
          prevTime := u.currentTimeDbl
          repetitions :=
            if u.prevHeight ≠ fin 0 then (u.countEstimate log).repetitions
            else u.repetitions } := by
  unfold slowDescentTest
  rw [if_pos awaiting]
  by_cases sampled : u.prevHeight ≠ fin 0
  · rw [if_pos sampled, if_pos sampled]
    have kept := congrArg Memory.repetitions (callIf_held .slowDescent true
      ((u.countEstimate log).repetitions = 10) (u.countEstimate log)).2.1
    exact congrArg (Memory.mk _ _) kept
  · rw [if_neg sampled, if_neg sampled]
    rfl

@[simp] theorem slowDescentTest_held (u : State) : (u.slowDescentTest log).held = u.held := by
  unfold slowDescentTest
  split
  · change State.held (ite _ _ _) = u.held
    split
    · exact (callIf_held _ _ _ _).1
    · rfl
  · rfl

/-- The AWAITING_CHUTE block estimates exactly when a sample is stored. -/
theorem slowDescentTest_estimates (u : State)
    : (u.slowDescentTest log).estimates
      = u.estimates ++ if u.grState = .awaitingChute ∧ u.prevHeight ≠ fin 0
          then [.velocity .slowDescent (u.descentOperands log)] else [] := by
  by_cases awaiting : u.grState = .awaitingChute
  · by_cases sampled : u.prevHeight ≠ fin 0
    · have kept := (callIf_held .slowDescent true ((u.countEstimate log).repetitions = 10)
        (u.countEstimate log)).2.2
      rw [slowDescentTest, if_pos awaiting, if_pos sampled, if_pos ⟨awaiting, sampled⟩]
      apply kept.trans
      simp [countEstimate, estimates, emit, Event.isEstimate]
    · rw [slowDescentTest, if_pos awaiting, if_neg sampled, if_neg (fun both => sampled both.2),
        List.append_nil]
      rfl
  · rw [slowDescentTest_of_not awaiting, if_neg (fun both => awaiting both.1), List.append_nil]

/-- The PRE_LANDING block estimates exactly when its guard is open, and writes nothing else. -/
theorem cutDistanceTest_held (u : State)
    : (u.cutDistanceTest log).held = u.held
      ∧ (u.cutDistanceTest log).memory = u.memory
      ∧ (u.cutDistanceTest log).estimates
        = u.estimates ++ if CallSite.cutDistance.Opens log u
            then [.velocity .cutDistance (u.landingOperands log),
              .usleep (u.landingOperands log).cutDelay]
            else [] := by
  unfold cutDistanceTest
  by_cases opened : CallSite.cutDistance.Opens log u
  · rw [if_pos opened, if_pos (show u.grState = .preLanding ∧ u.distance < 1200 from opened)]
    obtain ⟨held, memory, estimates⟩ := callIf_held .cutDistance false True
      ((u.emit (.velocity .cutDistance (u.landingOperands log))).emit
        (.usleep (u.landingOperands log).cutDelay))
    refine ⟨held, memory, estimates.trans ?_⟩
    simp [State.estimates, emit, Event.isEstimate]
  · rw [if_neg opened, List.append_nil,
      if_neg (show ¬ (u.grState = .preLanding ∧ u.distance < 1200) from opened)]
    exact ⟨rfl, rfl, rfl⟩

@[simp] theorem sendStatus_held (u : State)
    : u.sendStatus.held = u.held ∧ u.sendStatus.memory = u.memory
      ∧ u.sendStatus.estimates = u.estimates ∧ u.sendStatus.grState = u.grState
      ∧ u.sendStatus.chuteOpenTime = u.chuteOpenTime := by
  unfold sendStatus
  dsimp only
  split
  · exact ⟨rfl, rfl, by simp [estimates, emit, Event.isEstimate], rfl, rfl⟩
  · exact ⟨rfl, rfl, rfl, rfl, rfl⟩

@[simp] theorem clockGettime_held (now : Timespec) (u : State)
    : (u.clockGettime now).held = u.held.tick now ∧ (u.clockGettime now).memory = u.memory
      ∧ (u.clockGettime now).estimates = [] :=
  ⟨rfl, rfl, rfl⟩

@[simp] theorem readLumen_held (result : Option UInt16) (u : State)
    : (u.readLumen result).held = u.held.loadLumen result
      ∧ (u.readLumen result).memory = u.memory
      ∧ (u.readLumen result).estimates = u.estimates :=
  ⟨rfl, rfl, by simp [readLumen, estimates, emit, Event.isEstimate]⟩

@[simp] theorem readBaro_held (result : Option Bmp280Data) (u : State)
    : (u.readBaro result).held = u.held.loadBaro result
      ∧ (u.readBaro result).memory = u.memory
      ∧ (u.readBaro result).estimates = u.estimates :=
  ⟨rfl, rfl, by simp [readBaro, estimates, emit, Event.isEstimate]⟩

@[simp] theorem readSonar_held (result : Option UInt16) (u : State)
    : (u.readSonar result).held = u.held.loadSonar result
      ∧ (u.readSonar result).memory = u.memory
      ∧ (u.readSonar result).estimates = u.estimates :=
  ⟨rfl, rfl, by simp [readSonar, estimates, emit, Event.isEstimate]⟩

@[simp] theorem readyTimerTest_held (u : State)
    : u.readyTimerTest.held = u.held ∧ u.readyTimerTest.memory = u.memory
      ∧ u.readyTimerTest.estimates = u.estimates :=
  callIf_held _ _ _ _

@[simp] theorem chuteTimerTest_held (u : State)
    : u.chuteTimerTest.held = u.held ∧ u.chuteTimerTest.memory = u.memory
      ∧ u.chuteTimerTest.estimates = u.estimates :=
  callIf_held _ _ _ _

@[simp] theorem luminosityTest_held (u : State)
    : u.luminosityTest.held = u.held ∧ u.luminosityTest.memory = u.memory
      ∧ u.luminosityTest.estimates = u.estimates :=
  callIf_held _ _ _ _

@[simp] theorem deployAltitudeTest_held (u : State)
    : (u.deployAltitudeTest log).held = u.held
      ∧ (u.deployAltitudeTest log).memory = u.memory
      ∧ (u.deployAltitudeTest log).estimates = u.estimates :=
  callIf_held _ _ _ _

@[simp] theorem nearGroundTest_held (u : State)
    : (u.nearGroundTest log).held = u.held ∧ (u.nearGroundTest log).memory = u.memory
      ∧ (u.nearGroundTest log).estimates = u.estimates :=
  callIf_held _ _ _ _

/-- The held variables while the guard of a call site is tested: the sensors read so far. -/
theorem testState_held (i : Sample) (s : State) (site : CallSite)
    : (s.testState log i site).held
      = match site with
        | .readyTimer | .chuteTimer => s.held.tick i.clock
        | .luminosity => (s.held.tick i.clock).loadLumen i.lumen
        | .deployAltitude | .nearGround | .slowDescent =>
            ((s.held.tick i.clock).loadLumen i.lumen).loadBaro i.baro
        | .cutDistance =>
            (((s.held.tick i.clock).loadLumen i.lumen).loadBaro i.baro).loadSonar i.sonar := by
  cases site <;>
    simp [testState, upToReadyTimer, upToChuteTimer, upToLuminosity, upToDeployAltitude,
      upToNearGround, upToSlowDescent, upToCutDistance]

/-- An iteration keeps every held variable that it does not read. -/
theorem loopBody_held (i : Sample) (s : State)
    : (s.loopBody log i).held
      = (((s.held.tick i.clock).loadLumen i.lumen).loadBaro i.baro).loadSonar i.sonar := by
  have tested := @testState_held log i s .cutDistance
  simpa [loopBody, testState, cutDistanceTest_held] using tested

/-- No section before the AWAITING_CHUTE block writes its memory or estimates. -/
theorem upToSlowDescent_memory (i : Sample) (s : State)
    : (s.upToSlowDescent log i).memory = s.memory
      ∧ (s.upToSlowDescent log i).estimates = [] := by
  simp [upToReadyTimer, upToChuteTimer, upToLuminosity, upToDeployAltitude,
    upToNearGround, upToSlowDescent]

/-- Only the AWAITING_CHUTE block writes its memory. -/
theorem loopBody_memory (i : Sample) (s : State)
    : (s.loopBody log i).memory = ((s.upToSlowDescent log i).slowDescentTest log).memory := by
  simp [loopBody, upToCutDistance, cutDistanceTest_held]

/-- The estimates of an iteration: one of each block, when its conditions hold. -/
theorem loopBody_estimates (i : Sample) (s : State)
    : (s.loopBody log i).estimates
      = (if (s.upToSlowDescent log i).grState = .awaitingChute
            ∧ (s.upToSlowDescent log i).prevHeight ≠ fin 0
          then [.velocity .slowDescent ((s.upToSlowDescent log i).descentOperands log)]
          else [])
        ++ if CallSite.cutDistance.Opens log (s.upToCutDistance log i)
            then [.velocity .cutDistance ((s.upToCutDistance log i).landingOperands log),
              .usleep ((s.upToCutDistance log i).landingOperands log).cutDelay]
            else [] := by
  have before : (s.upToCutDistance log i).estimates
      = ((s.upToSlowDescent log i).slowDescentTest log).estimates := by
    simp [upToCutDistance]
  rw [loopBody, (sendStatus_held _).2.2.1, (cutDistanceTest_held _).2.2, before,
    slowDescentTest_estimates, (upToSlowDescent_memory i s).2, List.nil_append]

end State

end Granum.Flight
