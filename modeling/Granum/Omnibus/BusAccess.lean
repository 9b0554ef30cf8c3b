import Granum.Library.Mealy

/-! Registers of devices on a bus. Before each access the interface should be initialised if it is
not yet, but the flag is never set and the result of the initialisation is not looked at.
-/

namespace Granum.Omnibus

inductive HalStatus
  | ok
  | error
  | busy
  | timeout
  deriving DecidableEq, Repr

/-- The number of a status, which is what `GR_ERROR_FROMHAL` makes an error of. -/
def HalStatus.code : HalStatus → UInt8
  | .ok => 0
  | .error => 1
  | .busy => 2
  | .timeout => 3

def GR_ERROR_OK : UInt8 := 0
def GR_ERROR_WRONGARG : UInt8 := 1

inductive InterfaceType
  | i2c
  | spi
  | stream
  deriving DecidableEq, Repr

/-- Of an interface, what its register accesses look at. -/
structure BusInterface where
  type : InterfaceType
  inited : Bool
  deriving DecidableEq, Repr

/-- The calls of the hardware library. -/
inductive HalFunction
  | i2cInit
  | spiInit
  | i2cMemRead
  | i2cMemWrite
  | spiTransmit
  | spiReceive
  deriving DecidableEq, Repr

def HalFunction.isInit : HalFunction → Bool
  | .i2cInit | .spiInit => true
  | .i2cMemRead | .i2cMemWrite | .spiTransmit | .spiReceive => false

structure HalEvent where
  function : HalFunction
  status : HalStatus
  deriving DecidableEq, Repr

inductive Access
  | readreg
  | writereg
  deriving DecidableEq, Repr

/-- A call of `gr_dev_readreg` or `gr_dev_writereg`, with what the hardware library answers to its
initialisation and to its first and its second transfer.
-/
structure DevCall where
  access : Access
  init : HalStatus
  first : HalStatus
  second : HalStatus
  deriving DecidableEq, Repr

/-- What a call does and returns. -/
structure CallLog where
  events : List HalEvent
  returned : UInt8
  deriving DecidableEq, Repr

def initOnNeed (iface : BusInterface) (init : HalStatus) : CallLog :=
  if !iface.inited then
    match iface.type with
    | .i2c => { events := [⟨.i2cInit, init⟩], returned := init.code }
    | .spi => { events := [⟨.spiInit, init⟩], returned := init.code }
    | .stream => { events := [], returned := GR_ERROR_WRONGARG }
  else { events := [], returned := GR_ERROR_OK }

/-- `_readreg_i2c` and `_writereg_i2c` -/
def regI2C (function : HalFunction) (call : DevCall) : CallLog :=
  { events := [⟨function, call.first⟩], returned := call.first.code }

/-- `_readreg_spi` and `_writereg_spi`: the address, and then the data unless that has failed. -/
def regSPI (function : HalFunction) (call : DevCall) : CallLog :=
  if call.first = .ok then
    { events := [⟨.spiTransmit, call.first⟩, ⟨function, call.second⟩], returned := call.second.code }
  else { events := [⟨.spiTransmit, call.first⟩], returned := call.first.code }

def readregI2C : DevCall → CallLog := regI2C .i2cMemRead
def writeregI2C : DevCall → CallLog := regI2C .i2cMemWrite
def readregSPI : DevCall → CallLog := regSPI .spiReceive
def writeregSPI : DevCall → CallLog := regSPI .spiTransmit

/-- What `gr_dev_readreg` and `gr_dev_writereg` share: of `_init_on_need` only the effects are kept. -/
def devReg (i2c spi : DevCall → CallLog) (iface : BusInterface) (call : DevCall)
    : BusInterface × CallLog :=
  let initialisation := initOnNeed iface call.init
  let transfer :=
    match iface.type with
    | .i2c => i2c call
    | .spi => spi call
    | .stream => { events := [], returned := GR_ERROR_WRONGARG }
  (iface, { transfer with events := initialisation.events ++ transfer.events })

def grDevReadreg : BusInterface → DevCall → BusInterface × CallLog := devReg readregI2C readregSPI

def grDevWritereg : BusInterface → DevCall → BusInterface × CallLog := devReg writeregI2C writeregSPI

/-- An interface that is called again and again. -/
def bus : Mealy BusInterface DevCall CallLog where
  step iface call :=
    let (iface, log) :=
      match call.access with
      | .readreg => grDevReadreg iface call
      | .writereg => grDevWritereg iface call
    (iface, [log])

-----------------------------------------------------------------------------------------
-- Initialise once, and only then transfer

/-- An initialisation that has succeeded. -/
def HalEvent.Initialises (event : HalEvent) : Prop :=
  event.function.isInit ∧ event.status = .ok

/-- What the logs of the calls should satisfy, `before` telling whether an initialisation has
succeeded before the first call.
-/
structure InitialisedOnce (before : Prop) (logs : List CallLog) : Prop where
  transfers : ∀ seen event later, logs.flatMap (·.events) = seen ++ event :: later
    → ¬ event.function.isInit → before ∨ ∃ earlier ∈ seen, earlier.Initialises
  errors : ∀ log ∈ logs, ∀ event ∈ log.events, event.function.isInit → event.status ≠ .ok
    → log.returned = event.status.code
  once : ∀ seen event later, logs.flatMap (·.events) = seen ++ event :: later
    → event.function.isInit → ¬ before ∧ ∀ earlier ∈ seen, ¬ earlier.Initialises

variable {iface : BusInterface} {call : DevCall} {calls : List DevCall} {before : Prop}

/-- The log of a single call. -/
def logOf (iface : BusInterface) (call : DevCall) : CallLog :=
  match call.access with
  | .readreg => (grDevReadreg iface call).2
  | .writereg => (grDevWritereg iface call).2

/-- No call changes the interface, by induction on the calls. -/
theorem bus_outputs : bus.outputs iface calls = calls.map (logOf iface) := by
  induction calls with
  | nil => rfl
  | cons call rest ih =>
      have step : bus.step iface call = (iface, [logOf iface call]) := by
        cases access : call.access <;> simp [bus, logOf, access, grDevReadreg, grDevWritereg, devReg]
      rw [Mealy.outputs, step, ih]
      rfl

/-- A call issues transfers, after an initialisation unless the flag is set. -/
theorem logOf_events (onBus : iface.type ≠ .stream) (call : DevCall)
    : ∃ init first rest, init.isInit ∧ (∀ event ∈ first :: rest, ¬ event.function.isInit)
      ∧ (logOf iface call).events
        = (if iface.inited then [] else [⟨init, call.init⟩]) ++ first :: rest := by
  obtain ⟨type, inited⟩ := iface
  cases type with
  | stream => exact absurd rfl onBus
  | i2c =>
      refine ⟨.i2cInit, ?_⟩
      cases access : call.access with
      | readreg =>
          refine ⟨⟨.i2cMemRead, call.first⟩, [], ?_⟩
          cases inited <;> simp [logOf, access, grDevReadreg, devReg, initOnNeed, readregI2C,
            regI2C, HalFunction.isInit]
      | writereg =>
          refine ⟨⟨.i2cMemWrite, call.first⟩, [], ?_⟩
          cases inited <;> simp [logOf, access, grDevWritereg, devReg, initOnNeed, writeregI2C,
            regI2C, HalFunction.isInit]
  | spi =>
      refine ⟨.spiInit, ⟨.spiTransmit, call.first⟩, ?_⟩
      cases access : call.access with
      | readreg =>
          refine ⟨if call.first = .ok then [⟨.spiReceive, call.second⟩] else [], ?_⟩
          by_cases sent : call.first = .ok <;>
            cases inited <;> simp [logOf, access, grDevReadreg, devReg, initOnNeed, readregSPI,
              regSPI, HalFunction.isInit, sent]
      | writereg =>
          refine ⟨if call.first = .ok then [⟨.spiTransmit, call.second⟩] else [], ?_⟩
          by_cases sent : call.first = .ok <;>
            cases inited <;> simp [logOf, access, grDevWritereg, devReg, initOnNeed, writeregSPI,
              regSPI, HalFunction.isInit, sent]

/-- With the flag set, nothing is initialised any more. -/
theorem initialisedOnce_of_inited (onBus : iface.type ≠ .stream) (inited : iface.inited)
    (initialised : before)
    : InitialisedOnce before (bus.outputs iface calls) := by
  have transfer : ∀ log ∈ bus.outputs iface calls, ∀ event ∈ log.events,
      ¬ event.function.isInit := by
    rw [bus_outputs]
    intro log mem event there
    obtain ⟨call, -, rfl⟩ := List.mem_map.mp mem
    obtain ⟨_, first, rest, -, transfers, events⟩ := logOf_events onBus call
    rw [events, if_pos inited] at there
    exact transfers event there
  constructor
  · exact fun _ _ _ _ _ => Or.inl initialised
  · exact fun log mem event there isInit => absurd isInit (transfer log mem event there)
  · intro seen event later split isInit
    have there : event ∈ (bus.outputs iface calls).flatMap (·.events) := by simp [split]
    obtain ⟨log, mem, there⟩ := List.mem_flatMap.mp there
    exact absurd isInit (transfer log mem event there)

/-- A single call that initialises the interface. -/
theorem initialisedOnce_of_single (onBus : iface.type ≠ .stream) (notInited : ¬ iface.inited)
    (notBefore : ¬ before) (succeeds : call.init = .ok)
    : InitialisedOnce before (bus.outputs iface [call]) := by
  obtain ⟨init, first, rest, isInit, transfers, events⟩ := logOf_events onBus call
  rw [if_neg notInited, succeeds] at events
  have all : (bus.outputs iface [call]).flatMap (·.events) = ⟨init, .ok⟩ :: first :: rest := by
    simp [bus_outputs, events]
  constructor
  · intro seen event later split transfer
    rw [all] at split
    cases seen with
    | nil =>
        obtain ⟨rfl, -⟩ := List.cons.inj split
        exact absurd isInit transfer
    | cons earlier seen =>
        obtain ⟨rfl, -⟩ := List.cons.inj split
        exact Or.inr ⟨_, List.mem_cons_self, isInit, rfl⟩
  · intro log mem event there eventInit failed
    obtain rfl : log = logOf iface call := by simpa [bus_outputs] using mem
    rw [events] at there
    rcases List.mem_cons.mp there with rfl | there
    · exact absurd rfl failed
    · exact absurd eventInit (transfers event there)
  · intro seen event later split eventInit
    rw [all] at split
    cases seen with
    | nil => exact ⟨notBefore, fun _ none => by cases none⟩
    | cons earlier seen =>
        have there : event ∈ first :: rest := by simp [(List.cons.inj split).2]
        exact absurd eventInit (transfers event there)

/-- The flag stays as it is, so that no second call may come where it is not set, and the first one
has to succeed.
-/
theorem initialisedOnce_iff (onBus : iface.type ≠ .stream)
    : InitialisedOnce before (bus.outputs iface calls)
      ↔ calls = [] ∨ (iface.inited ∧ before)
        ∨ (¬ iface.inited ∧ ¬ before ∧ ∃ call, calls = [call] ∧ call.init = .ok) := by
  constructor
  · intro once
    cases calls with
    | nil => exact Or.inl rfl
    | cons call rest =>
    obtain ⟨init, first, later, isInit, transfers, events⟩ := logOf_events onBus call
    have all : (bus.outputs iface (call :: rest)).flatMap (·.events)
        = (logOf iface call).events ++ (bus.outputs iface rest).flatMap (·.events) := by
      simp [bus_outputs]
    rw [events] at all
    by_cases inited : iface.inited
    · -- The first event of all is a transfer.
      rw [if_pos inited] at all
      have initialised := once.transfers [] first _ all (transfers first List.mem_cons_self)
      exact Or.inr (Or.inl ⟨inited, initialised.resolve_right (by simp)⟩)
    · rw [if_neg inited] at all
      have notBefore := (once.once [] ⟨init, call.init⟩ _ all isInit).1
      have initialised := once.transfers [⟨init, call.init⟩] first _ all
        (transfers first List.mem_cons_self)
      have succeeds : call.init = .ok := by
        obtain ⟨_, mem, -, ok⟩ := initialised.resolve_left notBefore
        obtain rfl := List.mem_singleton.mp mem
        exact ok
      refine Or.inr (Or.inr ⟨inited, notBefore, call, ?_, succeeds⟩)
      -- A second call would initialise again.
      cases rest with
      | nil => rfl
      | cons second rest =>
          obtain ⟨again, head, tail, againInit, -, secondEvents⟩ :=
            logOf_events onBus second
          rw [if_neg inited] at secondEvents
          have split : (bus.outputs iface (call :: second :: rest)).flatMap (·.events)
              = (⟨init, call.init⟩ :: first :: later) ++ ⟨again, second.init⟩ :: (head :: tail
                ++ (bus.outputs iface rest).flatMap (·.events)) := by
            simp [bus_outputs, events, inited, secondEvents]
          have never := (once.once _ _ _ split againInit).2 _ List.mem_cons_self
          exact absurd ⟨isInit, succeeds⟩ never
  · rintro (rfl | ⟨inited, initialised⟩ | ⟨notInited, notBefore, call, rfl, succeeds⟩)
    · constructor <;> simp
    · exact initialisedOnce_of_inited onBus inited initialised
    · exact initialisedOnce_of_single onBus notInited notBefore succeeds

/-- As an interface is declared. -/
def GR_IF_I2C_1 : BusInterface where
  type := .i2c
  inited := false

theorem initialisedOnce_iff_GR_IF_I2C_1
    : GR_IF_I2C_1.type ≠ .stream
      ∧ (InitialisedOnce False (bus.outputs GR_IF_I2C_1 [⟨.readreg, .ok, .ok, .ok⟩])
        ↔ [DevCall.mk .readreg .ok .ok .ok] = [] ∨ (GR_IF_I2C_1.inited ∧ False)
          ∨ (¬ GR_IF_I2C_1.inited ∧ ¬ False
            ∧ ∃ call, [DevCall.mk .readreg .ok .ok .ok] = [call] ∧ call.init = .ok)) :=
  have onBus : GR_IF_I2C_1.type ≠ .stream := by decide
  ⟨onBus, initialisedOnce_iff onBus⟩

/-- The transfer is issued although the initialisation has failed. -/
theorem read_after_failed_init
    : ¬ ∀ calls : List DevCall, InitialisedOnce False (bus.outputs GR_IF_I2C_1 calls) := by
  intro once
  have transfers := (once [⟨.readreg, .error, .ok, .ok⟩]).transfers
  have initialised := transfers [⟨.i2cInit, .error⟩] ⟨.i2cMemRead, .ok⟩ [] rfl (by decide)
  rcases initialised with impossible | ⟨earlier, mem, -, ok⟩
  · exact impossible
  · obtain rfl := List.mem_singleton.mp mem
    cases ok

end Granum.Omnibus
