import Granum.Flight.ChuteExit

/-! Where the values behind the guarded transitions come from. A failed `read` leaves its
variable as it was, so a guard can use a value that no sensor has delivered: the contents of
the two uninitialised message fields, or a ground pressure of zero.
-/

namespace Granum.Flight

open ExactDouble (fin nan posInf negInf IsLog)

variable (f : Flight)

/-- Some `read` of the barometer, the ground reference included, has delivered the pressure
by iteration `n`.
-/
def PressureRead (n : ℕ) (pressure : ExactDouble) : Prop :=
  (∃ data, f.boot.baro = some data ∧ data.pressure = pressure)
  ∨ ∃ m ≤ n, ∃ data, (f.env m).baro = some data ∧ data.pressure = pressure

/-- The values that the guard of a call site uses in iteration `n` have all been delivered
by their sensors, and the ground pressure is not zero.
-/
def GuardRead (n : ℕ) : CallSite → Prop
  | .readyTimer | .chuteTimer => True
  | .luminosity => ∃ m ≤ n, (f.env m).lumen = some (f.testAt n .luminosity).luminosity
  | .cutDistance => ∃ m ≤ n, (f.env m).sonar = some (f.testAt n .cutDistance).distance
  | site =>
      f.PressureRead n (f.testAt n site).bmp280Result.pressure
      ∧ f.PressureRead n (f.testAt n site).groundPressure
      ∧ (f.testAt n site).groundPressure ≠ fin 0

/-- The ground-reference read has delivered a pressure other than zero. -/
def GroundReferenced : Prop :=
  ∃ data, f.boot.baro = some data ∧ data.pressure ≠ fin 0

/-- No guard of iteration `n` falls back on a value that was never read: a bright initial
luminosity in LOADED, a positive pressure over an unread ground pressure in FREE_FALL, or a
short initial distance in PRE_LANDING.
-/
structure ReadInTime (n : ℕ) : Prop where
  lumen : (f.testAt n .luminosity).grState = .loaded → 1000 ≤ f.boot.luminosity
    → ∃ m ≤ n, (f.env m).lumen.isSome
  baro : (f.testAt n .deployAltitude).grState = .freeFall
    → fin 0 < (f.testAt n .deployAltitude).bmp280Result.pressure → f.GroundReferenced
  sonar : (f.testAt n .cutDistance).grState = .preLanding → f.boot.distance < 1200
    → ∃ m ≤ n, (f.env m).sonar.isSome

/-- A sensor's variable holds its initial value until the first successful read, and a
delivered value from then on.
-/
theorem latched_by {β : Type} {variable_ : State → β} {load : Sample → Option β}
    (latch : ∀ s i, variable_ (s.loopBody f.log i) = (load i).getD (variable_ s)) (n : ℕ)
    : ((∀ m ≤ n, load (f.env m) = none)
        ∧ variable_ (f.after n) = variable_ (startUp f.boot))
      ∨ ∃ m ≤ n, load (f.env m) = some (variable_ (f.after n)) := by
  have latched : ((∀ m < n + 1, load (f.env m) = none)
        ∧ variable_ (f.after n) = variable_ (startUp f.boot))
      ∨ ∃ m < n + 1, load (f.env m) = some (variable_ (f.after n)) :=
    StreamRun.latched latch (n + 1)
  simpa only [Nat.lt_succ_iff] using latched

theorem luminosity_latched (n : ℕ)
    : ((∀ m ≤ n, (f.env m).lumen = none)
        ∧ (f.testAt n .luminosity).luminosity = f.boot.luminosity)
      ∨ ∃ m ≤ n, (f.env m).lumen = some (f.testAt n .luminosity).luminosity := by
  rw [f.testAt_luminosity n]
  exact f.latched_by (fun s i => congrArg Held.luminosity (State.loopBody_held i s)) n

theorem distance_latched (n : ℕ)
    : ((∀ m ≤ n, (f.env m).sonar = none)
        ∧ (f.testAt n .cutDistance).distance = f.boot.distance)
      ∨ ∃ m ≤ n, (f.env m).sonar = some (f.testAt n .cutDistance).distance := by
  rw [f.testAt_distance n]
  exact f.latched_by (fun s i => congrArg Held.distance (State.loopBody_held i s)) n

theorem bmp280Result_latched (n : ℕ)
    : ((∀ m ≤ n, (f.env m).baro = none)
        ∧ (f.after n).bmp280Result = f.boot.baro.getD ⟨fin 0, fin 0⟩)
      ∨ ∃ m ≤ n, (f.env m).baro = some (f.after n).bmp280Result :=
  f.latched_by (fun s i => congrArg Held.bmp280Result (State.loopBody_held i s)) n

/-- Every test sees the ground pressure of the start, zero if the reference read failed. -/
theorem testAt_groundPressure (n : ℕ) (site : CallSite)
    : (f.testAt n site).groundPressure = (f.boot.baro.getD ⟨fin 0, fin 0⟩).pressure := by
  have held := @State.testState_held f.log (f.env n) (f.stateAt n) site
  have ground := f.groundPressure_eq n
  cases site <;> exact (congrArg Held.groundPressure held).trans ground

/-- Without a ground reference every test divides by zero. -/
theorem groundPressure_of_not (unread : ¬ f.GroundReferenced) (n : ℕ) (site : CallSite)
    : (f.testAt n site).groundPressure = fin 0 := by
  rw [testAt_groundPressure]
  by_contra nonzero
  cases delivered : f.boot.baro with
  | none => exact nonzero (by rw [delivered]; rfl)
  | some data => exact unread ⟨data, delivered, by simpa [delivered] using nonzero⟩

/-- Over a ground pressure of zero, every positive pressure lies below every altitude, and
no other pressure does; by cases on the pressure.
-/
theorem alt_over_zero {log : ExactDouble → ExactDouble} (isLog : IsLog log)
    (pressure : ExactDouble) (limit : ℚ)
    : alt log pressure (fin 0) ≤ fin limit ↔ fin 0 < pressure := by
  have scale : (-(118558460224151 / 10 ^ 18) : ℚ) < 0 := by norm_num
  cases pressure with
  | nan => simp [alt, isLog.of_nan]
  | negInf => simp [alt, isLog.of_negInf]
  | posInf => simp [alt, isLog.of_posInf, ExactDouble.posInf_div_of_neg scale]
  | fin p =>
      rcases lt_trichotomy p 0 with negative | rfl | positive
      · simp [alt, ExactDouble.fin_div_zero_of_neg negative, isLog.of_negInf, negative.le]
      · simp [alt, isLog.of_nan]
      · simp [alt, ExactDouble.fin_div_zero_of_pos positive, isLog.of_posInf,
          ExactDouble.posInf_div_of_neg scale, positive]

/-- The guards over the altitude use read values exactly with a ground reference: it is also
a delivered pressure for every test that no later read precedes.
-/
theorem guardRead_altitude {n : ℕ} {site : CallSite}
    (barometric : site = .deployAltitude ∨ site = .nearGround ∨ site = .slowDescent)
    : f.GuardRead n site ↔ f.GroundReferenced := by
  have unfolded : f.GuardRead n site
      ↔ f.PressureRead n (f.testAt n site).bmp280Result.pressure
        ∧ f.PressureRead n (f.testAt n site).groundPressure
        ∧ (f.testAt n site).groundPressure ≠ fin 0 := by
    rcases barometric with rfl | rfl | rfl <;> exact Iff.rfl
  rw [unfolded]
  constructor
  · intro read
    by_contra unread
    exact read.2.2 (f.groundPressure_of_not unread n site)
  · intro referenced
    obtain ⟨data, delivered, nonzero⟩ := referenced
    have ground : (f.testAt n site).groundPressure = data.pressure := by
      rw [testAt_groundPressure, delivered]
      rfl
    have late : site ∈ [.deployAltitude, .nearGround, .slowDescent, CallSite.cutDistance] := by
      rcases barometric with rfl | rfl | rfl <;> decide
    refine ⟨?_, ?_, ?_⟩
    · rw [(f.testAt_barometer n site late).1]
      rcases f.bmp280Result_latched n with ⟨_, initial⟩ | ⟨m, order, loaded⟩
      · refine Or.inl ⟨data, delivered, ?_⟩
        rw [initial, delivered]
        rfl
      · exact Or.inr ⟨m, order, _, loaded, rfl⟩
    · exact Or.inl ⟨data, delivered, ground.symm⟩
    · exact ground ▸ nonzero

/-- A transition over the altitude has a deployment before it, whose altitude test found a
positive pressure if the ground pressure is zero.
-/
theorem groundReferenced_of_altitude (isLog : IsLog f.log) {n : ℕ}
    (inTime : ∀ m ≤ n, f.ReadInTime m) {site : CallSite} (member : site ∈ f.sitesAt n)
    (barometric : site = .deployAltitude ∨ site = .nearGround ∨ site = .slowDescent)
    : f.GroundReferenced := by
  obtain ⟨m, order, deploy⟩ : ∃ m ≤ n, .deployAltitude ∈ f.sitesAt m := by
    by_cases first : site = .deployAltitude
    · exact ⟨n, le_rfl, first ▸ member⟩
    · obtain ⟨m, order, earlier, deploy, left⟩ := f.left_earlier member 3
        (by decide) (by rcases barometric with rfl | rfl | rfl <;> first | decide | contradiction)
      obtain rfl := CallSite.eq_of_stage.2.2.1 left
      exact ⟨m, order, deploy⟩
  obtain ⟨falling, low⟩ : (f.testAt m .deployAltitude).grState = .freeFall
      ∧ (f.testAt m .deployAltitude).altitude f.log ≤ fin 250 := f.mem_sitesAt.mp deploy
  by_contra unread
  rw [State.altitude, f.groundPressure_of_not unread, alt_over_zero isLog] at low
  exact unread ((inTime m order).baro falling low)

/-- In the first `bound` iterations every guarded transition uses read values exactly when
no guard has fallen back on an unread one. Witness: a sensor's variable holds a delivered
value from its first successful read on, and until then opens its guard by its initial value.
-/
theorem transitions_read_iff (isLog : IsLog f.log) (bound : ℕ)
    : (∀ n < bound, ∀ site ∈ f.sitesAt n, f.GuardRead n site)
      ↔ ∀ n < bound, f.ReadInTime n := by
  constructor
  · intro read n early
    refine ⟨?_, ?_, ?_⟩
    · intro loaded bright
      rcases f.luminosity_latched n with ⟨_, initial⟩ | ⟨m, order, delivered⟩
      · have opened : .luminosity ∈ f.sitesAt n :=
          f.mem_sitesAt.mpr ⟨loaded, initial.symm ▸ bright⟩
        obtain ⟨m, order, delivered⟩ := read n early _ opened
        exact ⟨m, order, by simp [delivered]⟩
      · exact ⟨m, order, by simp [delivered]⟩
    · intro falling positive
      by_contra unread
      have low : (f.testAt n .deployAltitude).altitude f.log ≤ fin 250 := by
        rw [State.altitude, f.groundPressure_of_not unread, alt_over_zero isLog]
        exact positive
      have opened : .deployAltitude ∈ f.sitesAt n := f.mem_sitesAt.mpr ⟨falling, low⟩
      exact unread ((f.guardRead_altitude (Or.inl rfl)).mp (read n early _ opened))
    · intro landing near
      rcases f.distance_latched n with ⟨_, initial⟩ | ⟨m, order, delivered⟩
      · have opened : .cutDistance ∈ f.sitesAt n :=
          f.mem_sitesAt.mpr ⟨landing, initial.symm ▸ near⟩
        obtain ⟨m, order, delivered⟩ := read n early _ opened
        exact ⟨m, order, by simp [delivered]⟩
      · exact ⟨m, order, by simp [delivered]⟩
  · intro inTime n early site member
    have before (m : ℕ) (order : m ≤ n) : f.ReadInTime m := inTime m (by omega)
    cases site
    case readyTimer => trivial
    case chuteTimer => trivial
    case luminosity =>
      rcases f.luminosity_latched n with ⟨silent, initial⟩ | delivered
      · obtain ⟨loaded, bright⟩ := f.mem_sitesAt.mp member
        obtain ⟨m, order, present⟩ := (before n le_rfl).lumen loaded (initial ▸ bright)
        simp [silent m order] at present
      · exact delivered
    case deployAltitude =>
      exact (f.guardRead_altitude (Or.inl rfl)).mpr
        (f.groundReferenced_of_altitude isLog before member (Or.inl rfl))
    case nearGround =>
      exact (f.guardRead_altitude (Or.inr (Or.inl rfl))).mpr
        (f.groundReferenced_of_altitude isLog before member (Or.inr (Or.inl rfl)))
    case slowDescent =>
      exact (f.guardRead_altitude (Or.inr (Or.inr rfl))).mpr
        (f.groundReferenced_of_altitude isLog before member (Or.inr (Or.inr rfl)))
    case cutDistance =>
      rcases f.distance_latched n with ⟨silent, initial⟩ | delivered
      · obtain ⟨landing, near⟩ := f.mem_sitesAt.mp member
        obtain ⟨m, order, present⟩ := (before n le_rfl).sonar landing (initial ▸ near)
        simp [silent m order] at present
      · exact delivered

theorem benchFlight_transitions_read
    : (∀ n < 1, ∀ site ∈ (benchFlight fun _ => 500).sitesAt n,
        (benchFlight fun _ => 500).GuardRead n site)
      ↔ ∀ n < 1, (benchFlight fun _ => 500).ReadInTime n :=
  transitions_read_iff (benchFlight fun _ => 500) ExactDouble.tangentLog_isLog 1

/-- The bench flight with a failed reference read deploys the chute on the ground. -/
theorem unreferencedFlight_not_read
    : ¬ ∀ f : Flight, IsLog f.log → ∀ n, ∀ site ∈ f.sitesAt n, f.GuardRead n site := by
  intro read
  let bench := benchFlight (fun _ => 500)
  let unreferenced : Flight := { bench with boot := { bench.boot with baro := none } }
  have deploy : .deployAltitude ∈ unreferenced.sitesAt 0 := by decide +kernel
  have guardRead := read unreferenced ExactDouble.tangentLog_isLog 0 _ deploy
  obtain ⟨data, delivered, _⟩ :=
    (unreferenced.guardRead_altitude (Or.inl rfl)).mp guardRead
  cases delivered

end Granum.Flight
