import Granum.Library.ExactDouble

/-! Data of the on-board main loop: mission states, pyro commands and the loop's variables. -/

namespace Granum.Flight

/-- `gr_state_t`. The object is an integer in C, so `++` on the last enumerator yields a
value without a name; `unnamed excess` stands for the integer `7 + excess`.
-/
inductive GrState
  | booting
  | ready
  | loaded
  | freeFall
  | awaitingChute
  | preLanding
  | landed
  | unnamed (excess : ℕ)
  deriving DecidableEq, Repr

/-- The integer value of a mission state. -/
def GrState.toNat : GrState → ℕ
  | booting => 0
  | ready => 1
  | loaded => 2
  | freeFall => 3
  | awaitingChute => 4
  | preLanding => 5
  | landed => 6
  | unnamed excess => 7 + excess

/-- The C operator `++` on a mission state. -/
def GrState.succ : GrState → GrState
  | booting => ready
  | ready => loaded
  | loaded => freeFall
  | freeFall => awaitingChute
  | awaitingChute => preLanding
  | preLanding => landed
  | landed => unnamed 0
  | unnamed excess => unnamed (excess + 1)

@[simp] theorem GrState.toNat_succ (state : GrState) : state.succ.toNat = state.toNat + 1 := by
  cases state <;> rfl

/-- Distinct mission states are distinct integers. -/
theorem GrState.toNat_injective : Function.Injective GrState.toNat := by
  intro left right same
  cases left <;> cases right <;> simp only [toNat] at same <;>
    first | rfl | (exfalso; omega) | (congr 1; omega)

theorem GrState.freeFall_iff {state : GrState} : state = .freeFall ↔ state.toNat = 3 :=
  toNat_injective.eq_iff.symm

theorem GrState.awaitingChute_iff {state : GrState}
    : state = .awaitingChute ↔ state.toNat = 4 :=
  toNat_injective.eq_iff.symm

theorem GrState.preLanding_iff {state : GrState} : state = .preLanding ↔ state.toNat = 5 :=
  toNat_injective.eq_iff.symm

/-- The pyro commands passed to `boardctl`: the codes `BOARDIOC_USER+1`, `+3` and `+2`. -/
inductive Pyro
  | chuteDeploy
  | legsDeploy
  | chuteCut
  deriving DecidableEq, Repr

/-- The places in the loop body that call `_translate_state`, in the order of the body. -/
inductive CallSite
  | readyTimer
  | chuteTimer
  | luminosity
  | deployAltitude
  | nearGround
  | slowDescent
  | cutDistance
  deriving DecidableEq, Repr

/-- `struct timespec` of the 32-bit target: unsigned seconds and signed nanoseconds. -/
structure Timespec where
  tvSec : UInt32
  tvNsec : Int32
  deriving DecidableEq, Repr

/-- `bmp280_data_t`. -/
structure Bmp280Data where
  pressure : ExactDouble
  temperature : ExactDouble
  deriving DecidableEq, Repr

/-- Telemetry handed to `send_telem`, with the field values before the message encoder
narrows them to their wire types.
-/
inductive Telemetry
  | luminosity (timeBootMs : UInt64) (luminosity : UInt16)
  | scaledPressure (timeBootMs : UInt64) (pressAbs temperature : ExactDouble)
  | sonar (timeBootMs : UInt64) (distance : UInt16)
  | granumStatus (timeBootMs : UInt64) (state : GrState)
  deriving DecidableEq, Repr

/-- The operands of one vertical-velocity estimate. -/
structure VelocityOperands where
  currentHeight : ExactDouble
  prevHeight : ExactDouble
  currentTimeDbl : ExactDouble
  prevTime : ExactDouble
  deriving DecidableEq, Repr

/-- `(current_height - prev_height) / (current_time_dbl - prev_time)`. -/
def VelocityOperands.v (x : VelocityOperands) : ExactDouble :=
  (x.currentHeight - x.prevHeight) / (x.currentTimeDbl - x.prevTime)

/-- What one iteration does that can be seen from outside, or that a law speaks about. -/
inductive Event
  | translate (site : CallSite)
  | boardctl (code : Pyro)
  | velocity (site : CallSite) (operands : VelocityOperands)
  | usleep (useconds : ExactDouble)
  | sendTelem (message : Telemetry)
  deriving DecidableEq, Repr

/-- The call site of a transition event. -/
def Event.site? : Event → Option CallSite
  | translate site => some site
  | _ => none

/-- The command of a pyro event. -/
def Event.code? : Event → Option Pyro
  | boardctl code => some code
  | _ => none

/-- Whether an event belongs to a velocity estimate. -/
def Event.isEstimate : Event → Bool
  | velocity _ _ | usleep _ => true
  | _ => false

/-- The variables of `granum_main` and of the functions it calls. `prevHeight`, `prevTime`
and `repetitions` are the statics of the AWAITING_CHUTE block, `landingPrevHeight` and
`landingPrevTime` those of the PRE_LANDING block. The GPS section shares none of them.
`boardctlLog` lists every pyro command so far; `events` belongs to the current iteration.
-/
structure State where
  grState : GrState
  currentTime : Timespec
  boottime : UInt32
  chuteOpenTime : UInt32
  groundPressure : ExactDouble
  bmp280Result : Bmp280Data
  luminosity : UInt16
  distance : UInt16
  prevHeight : ExactDouble
  prevTime : ExactDouble
  repetitions : UInt8
  landingPrevHeight : ExactDouble
  landingPrevTime : ExactDouble
  stSendDelay : UInt8
  boardctlLog : List Pyro
  events : List Event
  deriving DecidableEq, Repr

/-- The call sites that took a transition in the current iteration, in order. -/
def State.sites (s : State) : List CallSite := s.events.filterMap Event.site?

/-- The pyro commands fired in the current iteration, in order. -/
def State.codes (s : State) : List Pyro := s.events.filterMap Event.code?

/-- The estimates of the current iteration and the delays computed from them, in order. -/
def State.estimates (s : State) : List Event := s.events.filter Event.isEstimate

/-- What the environment delivers to one iteration: the clock, and for each sensor the value
of a successful `read`, or `none` when it fails and leaves the variable as it was.
-/
structure Sample where
  clock : Timespec
  lumen : Option UInt16
  baro : Option Bmp280Data
  sonar : Option UInt16
  deriving DecidableEq, Repr

/-- What the environment delivers before the loop: the contents of the two uninitialised
message fields, the ground-reference read and the boot clock.
-/
structure Boot where
  luminosity : UInt16
  distance : UInt16
  baro : Option Bmp280Data
  clock : Timespec
  deriving DecidableEq, Repr

end Granum.Flight
