import Granum.Flight.State
import Granum.Library.StreamRun

/-! The main loop of `granum_main`, one function for each part of its body.
The C library's `log` is a parameter; every other operation is the source's.
-/

namespace Granum.Flight

open ExactDouble (fin fabs)

namespace State

/-- Append to the events of the current iteration. -/
def emit (event : Event) (s : State) : State := { s with events := s.events ++ [event] }

/-- `boardctl(code, NULL)`. -/
def boardctl (code : Pyro) (s : State) : State :=
  { s.emit (.boardctl code) with boardctlLog := s.boardctlLog ++ [code] }

/-- `_translate_state(open_legs)`. The source tests `if(true)` before deploying the legs, so
the argument has no effect.
-/
def translateState (_openLegs : Bool) (s : State) : State :=
  match s.grState with
  | .booting | .ready | .loaded => { s with grState := s.grState.succ }
  | .freeFall =>
      let s := s.boardctl .chuteDeploy
      let s := { s with chuteOpenTime := s.currentTime.tvSec }
      { s with grState := s.grState.succ }
  | .awaitingChute =>
      let s := s.boardctl .legsDeploy
      { s with grState := s.grState.succ }
  | .preLanding =>
      let s := s.boardctl .chuteCut
      { s with grState := s.grState.succ }
  | .landed | .unnamed _ => s

/-- `if(guard) _translate_state(openLegs)` at a call site. -/
def callIf (site : CallSite) (openLegs : Bool) (guard : Prop) [Decidable guard] (s : State)
    : State :=
  if guard then (s.emit (.translate site)).translateState openLegs else s

/-- `time_boot_ms`: the seconds and milliseconds are added in 32 bits and then widened. -/
def timeBootMs (s : State) : UInt64 :=
  (s.currentTime.tvSec * 1000 + (s.currentTime.tvNsec / 1000000).toUInt32).toUInt64

/-- `time_boot_ms / 1000.0`. -/
def currentTimeDbl (s : State) : ExactDouble := fin ((s.timeBootMs.toNat : ℚ) / 1000)

end State

/-- `_alt`, over the library function `log`. -/
def alt (log : ExactDouble → ExactDouble) (pressure referencePressure : ExactDouble)
    : ExactDouble :=
  log (pressure / referencePressure) / fin (-(118558460224151 / 10 ^ 18))

namespace State

variable (log : ExactDouble → ExactDouble)

/-- The altitude of the pressure held, `_alt(bmp280_result.pressure, ground_pressure)`. -/
def altitude (s : State) : ExactDouble := alt log s.bmp280Result.pressure s.groundPressure

-----------------------------------------------------------------------------------------
-- The loop body, in the order of the source
-----------------------------------------------------------------------------------------

/-- `clock_gettime`; the events of the previous iteration are dropped. -/
def clockGettime (now : Timespec) (s : State) : State :=
  { s with currentTime := now, events := [] }

def readyTimerTest (s : State) : State :=
  s.callIf .readyTimer false
    (s.grState = .ready ∧ 300 ≤ s.currentTime.tvSec - s.boottime)

def chuteTimerTest (s : State) : State :=
  s.callIf .chuteTimer false
    (s.grState = .awaitingChute ∧ 30 < s.currentTime.tvSec - s.chuteOpenTime)

/-- The TSL2561 section up to its test. -/
def readLumen (result : Option UInt16) (s : State) : State :=
  let s := { s with luminosity := result.getD s.luminosity }
  s.emit (.sendTelem (.luminosity s.timeBootMs s.luminosity))

def luminosityTest (s : State) : State :=
  s.callIf .luminosity false (s.grState = .loaded ∧ 1000 ≤ s.luminosity)

/-- The BMP280 section up to its tests; the result of the `read` is stored and not used. -/
def readBaro (result : Option Bmp280Data) (s : State) : State :=
  let s := { s with bmp280Result := result.getD s.bmp280Result }
  s.emit (.sendTelem (.scaledPressure s.timeBootMs
    (s.bmp280Result.pressure / fin 100) (s.bmp280Result.temperature * fin 100)))

def deployAltitudeTest (s : State) : State :=
  s.callIf .deployAltitude false (s.grState = .freeFall ∧ s.altitude log ≤ fin 250)

def nearGroundTest (s : State) : State :=
  s.callIf .nearGround true (s.grState = .awaitingChute ∧ s.altitude log ≤ fin 50)

/-- The operands of the AWAITING_CHUTE estimate. -/
def descentOperands (s : State) : VelocityOperands where
  currentHeight := s.altitude log
  prevHeight := s.prevHeight
  currentTimeDbl := s.currentTimeDbl
  prevTime := s.prevTime

/-- Compute one estimate and count slow estimates in a row. -/
def countEstimate (s : State) : State :=
  let operands := s.descentOperands log
  { s.emit (.velocity .slowDescent operands) with
    repetitions := if fabs operands.v < fin 10 then s.repetitions + 1 else 0 }

/-- `prev_height = current_height; prev_time = current_time_dbl;` -/
def storeSample (currentHeight currentTimeDbl : ExactDouble) (s : State) : State :=
  { s with prevHeight := currentHeight, prevTime := currentTimeDbl }

/-- The AWAITING_CHUTE block: the tenth slow estimate in a row leaves the state. A zero
`prev_height` means that no sample is stored yet.
-/
def slowDescentTest (s : State) : State :=
  if s.grState = .awaitingChute then
    let estimated :=
      if s.prevHeight ≠ fin 0 then
        (s.countEstimate log).callIf .slowDescent true ((s.countEstimate log).repetitions = 10)
      else s
    estimated.storeSample (s.altitude log) s.currentTimeDbl
  else s

/-- The SONAR section up to its test. -/
def readSonar (result : Option UInt16) (s : State) : State :=
  let s := { s with distance := result.getD s.distance }
  s.emit (.sendTelem (.sonar s.timeBootMs s.distance))

/-- The operands of the PRE_LANDING estimate. -/
def landingOperands (s : State) : VelocityOperands where
  currentHeight := s.altitude log
  prevHeight := s.landingPrevHeight
  currentTimeDbl := s.currentTimeDbl
  prevTime := s.landingPrevTime

end State

/-- The argument `t * 1000000` of `usleep`, with `t = 10.0 / v`. -/
def VelocityOperands.cutDelay (x : VelocityOperands) : ExactDouble :=
  fin 10 / x.v * fin 1000000

namespace State

variable (log : ExactDouble → ExactDouble)

/-- The PRE_LANDING block; the memories of its estimate are never assigned. -/
def cutDistanceTest (s : State) : State :=
  if s.grState = .preLanding ∧ s.distance < 1200 then
    let operands := s.landingOperands log
    let s := s.emit (.velocity .cutDistance operands)
    let s := s.emit (.usleep operands.cutDelay)
    s.callIf .cutDistance false True
  else s

/-- The status message of every tenth iteration. -/
def sendStatus (s : State) : State :=
  let s := { s with stSendDelay := s.stSendDelay + 1 }
  if s.stSendDelay = 10 then
    { s.emit (.sendTelem (.granumStatus s.timeBootMs s.grState)) with stSendDelay := 0 }
  else s

/-- The state in which the READY timer is tested, and so on for the later tests. -/
def upToReadyTimer (i : Sample) (s : State) : State := s.clockGettime i.clock

def upToChuteTimer (i : Sample) (s : State) : State := (s.upToReadyTimer i).readyTimerTest

def upToLuminosity (i : Sample) (s : State) : State :=
  (s.upToChuteTimer i).chuteTimerTest.readLumen i.lumen

def upToDeployAltitude (i : Sample) (s : State) : State :=
  (s.upToLuminosity i).luminosityTest.readBaro i.baro

def upToNearGround (i : Sample) (s : State) : State :=
  (s.upToDeployAltitude i).deployAltitudeTest log

def upToSlowDescent (i : Sample) (s : State) : State :=
  (s.upToNearGround log i).nearGroundTest log

def upToCutDistance (i : Sample) (s : State) : State :=
  ((s.upToSlowDescent log i).slowDescentTest log).readSonar i.sonar

/-- One iteration of the `while` loop. -/
def loopBody (s : State) (i : Sample) : State :=
  ((s.upToCutDistance log i).cutDistanceTest log).sendStatus

end State

-----------------------------------------------------------------------------------------
-- Start-up and runs
-----------------------------------------------------------------------------------------

/-- Memory when `granum_main` starts: globals and statics are zero, `bmp280_result` is
initialised, the two message fields hold whatever the stack held.
-/
def powerOn (boot : Boot) : State where
  grState := .booting
  currentTime := ⟨0, 0⟩
  boottime := 0
  chuteOpenTime := 0
  groundPressure := fin 0
  bmp280Result := ⟨fin 0, fin 0⟩
  luminosity := boot.luminosity
  distance := boot.distance
  prevHeight := fin 0
  prevTime := fin 0
  repetitions := 0
  landingPrevHeight := fin 0
  landingPrevTime := fin 0
  stSendDelay := 0
  boardctlLog := []
  events := []

/-- The state in which the loop starts. -/
def startUp (boot : Boot) : State :=
  let s := (powerOn boot).translateState false
  let s := { s with bmp280Result := boot.baro.getD s.bmp280Result }
  let s := { s with groundPressure := s.bmp280Result.pressure }
  let s := { s with currentTime := boot.clock }
  { s with boottime := s.currentTime.tvSec }

end Granum.Flight

/-- One mission: the library function, the boot environment and the samples of the loop. -/
structure Granum.Flight where
  log : ExactDouble → ExactDouble
  boot : Granum.Flight.Boot
  env : ℕ → Granum.Flight.Sample

namespace Granum.Flight

variable (f : Flight)

/-- The state before iteration `n`. -/
def stateAt (n : ℕ) : State := StreamRun.stateAt (State.loopBody f.log) (startUp f.boot) f.env n

/-- The state after iteration `n`: every sensor value held in it is the one iteration `n`
tested, since each sensor is read once, before its tests.
-/
def after (n : ℕ) : State := f.stateAt (n + 1)

/-- The call sites that took a transition in iteration `n`, in order. -/
def sitesAt (n : ℕ) : List CallSite := (f.after n).sites

/-- The pyro commands fired in iteration `n`, in order. -/
def firedAt (n : ℕ) : List Pyro := (f.after n).codes

/-- The altitude tested in iteration `n`. -/
def altitudeAt (n : ℕ) : ExactDouble := (f.after n).altitude f.log

/-- `time_boot_ms` of iteration `n`. -/
def timeAt (n : ℕ) : UInt64 := (f.after n).timeBootMs

/-- `current_time.tv_sec` of iteration `n`. -/
def secAt (n : ℕ) : UInt32 := (f.env n).clock.tvSec

end Granum.Flight
