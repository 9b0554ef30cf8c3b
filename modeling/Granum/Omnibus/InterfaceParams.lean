import Mathlib

/-! Setting the parameters of a bus interface. A comparison decides whether anything is done, and the
peripheral selects the constant for its clock.
-/

namespace Granum.Omnibus

def PERIPH_BASE : UInt32 := 0x40000000
def APB1PERIPH_BASE : UInt32 := PERIPH_BASE
def APB2PERIPH_BASE : UInt32 := PERIPH_BASE + 0x00010000

def SPI1 : UInt32 := APB2PERIPH_BASE + 0x3000
def SPI2 : UInt32 := APB1PERIPH_BASE + 0x3800
def SPI3 : UInt32 := APB1PERIPH_BASE + 0x3C00
def I2C1 : UInt32 := APB1PERIPH_BASE + 0x5400
def I2C2 : UInt32 := APB1PERIPH_BASE + 0x5800
def I2C3 : UInt32 := APB1PERIPH_BASE + 0x5C00

def GR_IF_PARAM_SPEED_SLOW : UInt8 := 0
def GR_IF_PARAM_SPEED_FAST : UInt8 := 1

def GR_INTERFACE_I2C_1_SPEED_SLOW : UInt32 := 100000
def GR_INTERFACE_I2C_1_SPEED_FAST : UInt32 := 400000
def GR_INTERFACE_I2C_2_SPEED_SLOW : UInt32 := 100000
def GR_INTERFACE_I2C_2_SPEED_FAST : UInt32 := 400000
def GR_INTERFACE_I2C_3_SPEED_SLOW : UInt32 := 100000
def GR_INTERFACE_I2C_3_SPEED_FAST : UInt32 := 400000

def SPI_BAUDRATEPRESCALER_4 : UInt32 := 0x08
def SPI_BAUDRATEPRESCALER_128 : UInt32 := 0x30

def GR_INTERFACE_SPI_1_PRESC_SLOW : UInt32 := SPI_BAUDRATEPRESCALER_128
def GR_INTERFACE_SPI_1_PRESC_FAST : UInt32 := SPI_BAUDRATEPRESCALER_4
def GR_INTERFACE_SPI_2_PRESC_SLOW : UInt32 := SPI_BAUDRATEPRESCALER_128
def GR_INTERFACE_SPI_2_PRESC_FAST : UInt32 := SPI_BAUDRATEPRESCALER_4
def GR_INTERFACE_SPI_3_PRESC_SLOW : UInt32 := SPI_BAUDRATEPRESCALER_128
def GR_INTERFACE_SPI_3_PRESC_FAST : UInt32 := SPI_BAUDRATEPRESCALER_4

inductive GrError
  | ok
  | wrongArg
  deriving DecidableEq, Repr

/-- The parameters in memory. The enumeration takes one byte, so three bytes of padding follow. -/
structure GrInterfaceParams where
  speed : UInt8
  padding : Vector UInt8 3
  timeout : UInt32
  deriving DecidableEq, Repr

/-- Two parameters of one value, whatever their padding is. -/
def GrInterfaceParams.SameValue (params other : GrInterfaceParams) : Prop :=
  params.speed = other.speed ∧ params.timeout = other.timeout

/-- `!memcmp(params, other, sizeof(gr_interface_params_t))` -/
def GrInterfaceParams.sameBytes (params other : GrInterfaceParams) : Bool := params = other

inductive HalState
  | reset
  | ready
  deriving DecidableEq, Repr

/-- A handle of the hardware library, with the one field of `Init` that is set here. -/
structure I2CHandle where
  instance_ : UInt32
  clockSpeed : UInt32
  state : HalState
  deriving DecidableEq, Repr

structure SPIHandle where
  instance_ : UInt32
  baudRatePrescaler : UInt32
  state : HalState
  deriving DecidableEq, Repr

def halI2CDeInit (descr : I2CHandle) : I2CHandle := { descr with state := .reset }

def halI2CInit (descr : I2CHandle) : I2CHandle := { descr with state := .ready }

def halSPIDeInit (descr : SPIHandle) : SPIHandle := { descr with state := .reset }

def halSPIInit (descr : SPIHandle) : SPIHandle := { descr with state := .ready }

/-- The type of an interface, with the descriptor that belongs to it. -/
inductive Device
  | i2c (descr : I2CHandle)
  | spi (descr : SPIHandle)
  | stream
  | unknown
  deriving DecidableEq, Repr

structure GrInterface where
  device : Device
  params : GrInterfaceParams
  deriving DecidableEq, Repr

/-- The inner `switch`, over the peripheral. -/
def switchInstance (instance_ first second third : UInt32) : Option UInt32 :=
  if instance_ = SPI1 then some first
  else if instance_ = SPI2 then some second
  else if instance_ = SPI3 then some third
  else none

/-- The outer `switch`, over the speed. -/
def switchSpeed (speed : UInt8) (slow fast : Option UInt32) : Option UInt32 :=
  if speed = GR_IF_PARAM_SPEED_SLOW then slow
  else if speed = GR_IF_PARAM_SPEED_FAST then fast
  else none

def chparamsI2C (iface : GrInterface) (descr : I2CHandle) (params : GrInterfaceParams)
    : GrError × GrInterface :=
  let newSPEED := switchSpeed params.speed
    (switchInstance descr.instance_ GR_INTERFACE_I2C_1_SPEED_SLOW GR_INTERFACE_I2C_2_SPEED_SLOW
      GR_INTERFACE_I2C_3_SPEED_SLOW)
    (switchInstance descr.instance_ GR_INTERFACE_I2C_1_SPEED_FAST GR_INTERFACE_I2C_2_SPEED_FAST
      GR_INTERFACE_I2C_3_SPEED_FAST)
  match newSPEED with
  | none => (.wrongArg, iface)
  | some newSPEED =>
      (.ok, {
        device := .i2c (halI2CInit { halI2CDeInit descr with clockSpeed := newSPEED })
        params := params })

def chparamsSPI (iface : GrInterface) (descr : SPIHandle) (params : GrInterfaceParams)
    : GrError × GrInterface :=
  let newPRESC := switchSpeed params.speed
    (switchInstance descr.instance_ GR_INTERFACE_SPI_1_PRESC_SLOW GR_INTERFACE_SPI_2_PRESC_SLOW
      GR_INTERFACE_SPI_3_PRESC_SLOW)
    (switchInstance descr.instance_ GR_INTERFACE_SPI_1_PRESC_FAST GR_INTERFACE_SPI_2_PRESC_FAST
      GR_INTERFACE_SPI_3_PRESC_FAST)
  match newPRESC with
  | none => (.wrongArg, iface)
  | some newPRESC =>
      (.ok, {
        device := .spi (halSPIInit { halSPIDeInit descr with baudRatePrescaler := newPRESC })
        params := params })

/-- The parameters are set if they are the current ones, byte by byte. -/
def grIfSetParams (iface : GrInterface) (params : GrInterfaceParams) : GrError × GrInterface :=
  if iface.params.sameBytes params then
    match iface.device with
    | .i2c descr => chparamsI2C iface descr params
    | .spi descr => chparamsSPI iface descr params
    | .stream | .unknown => (.wrongArg, iface)
  else (.ok, iface)

-----------------------------------------------------------------------------------------
-- What the parameters select

/-- The value that a speed selects for a peripheral, out of the three of one type. -/
def ofPeripherals (peripherals slow fast : Fin 3 → UInt32) (instance_ : UInt32) (speed : UInt8)
    (value : UInt32) : Prop :=
  ∃ i, instance_ = peripherals i
    ∧ ((speed = GR_IF_PARAM_SPEED_SLOW ∧ value = slow i)
      ∨ (speed = GR_IF_PARAM_SPEED_FAST ∧ value = fast i))

def i2cPeripherals : Fin 3 → UInt32 := ![I2C1, I2C2, I2C3]
def spiPeripherals : Fin 3 → UInt32 := ![SPI1, SPI2, SPI3]

/-- A device with one of its peripherals, and the value that a valid speed selects for it. -/
def Device.Selects (device : Device) (speed : UInt8) (value : UInt32) : Prop :=
  match device with
  | .i2c descr =>
      ofPeripherals i2cPeripherals
        ![GR_INTERFACE_I2C_1_SPEED_SLOW, GR_INTERFACE_I2C_2_SPEED_SLOW,
          GR_INTERFACE_I2C_3_SPEED_SLOW]
        ![GR_INTERFACE_I2C_1_SPEED_FAST, GR_INTERFACE_I2C_2_SPEED_FAST,
          GR_INTERFACE_I2C_3_SPEED_FAST]
        descr.instance_ speed value
  | .spi descr =>
      ofPeripherals spiPeripherals
        ![GR_INTERFACE_SPI_1_PRESC_SLOW, GR_INTERFACE_SPI_2_PRESC_SLOW,
          GR_INTERFACE_SPI_3_PRESC_SLOW]
        ![GR_INTERFACE_SPI_1_PRESC_FAST, GR_INTERFACE_SPI_2_PRESC_FAST,
          GR_INTERFACE_SPI_3_PRESC_FAST]
        descr.instance_ speed value
  | .stream | .unknown => False

/-- The clock that a descriptor holds. -/
def Device.clock : Device → Option UInt32
  | .i2c descr => some descr.clockSpeed
  | .spi descr => some descr.baudRatePrescaler
  | .stream | .unknown => none

def Device.isSPI : Device → Bool
  | .spi _ => true
  | .i2c _ | .stream | .unknown => false

/-- The call succeeds, and then the interface has the parameters and its descriptor the clock. -/
def TakesEffect (iface : GrInterface) (params : GrInterfaceParams) (value : UInt32) : Prop :=
  (grIfSetParams iface params).1 = .ok
    ∧ (grIfSetParams iface params).2.params.SameValue params
    ∧ (grIfSetParams iface params).2.device.clock = some value

section Set

variable {iface : GrInterface} {params : GrInterfaceParams} {value : UInt32}

/-- Other parameters are not set at all. -/
theorem set_other (other : iface.params ≠ params) : grIfSetParams iface params = (.ok, iface) := by
  have bytes : iface.params.sameBytes params = false := decide_eq_false other
  rw [grIfSetParams, bytes]
  rfl

/-- The three peripherals of I2C are none of those that the switch is over. -/
theorem switchInstance_i2c (first second third : UInt32) (i : Fin 3)
    : switchInstance (i2cPeripherals i) first second third = none := by
  have spi1 : i2cPeripherals i ≠ SPI1 := by revert i; decide
  have spi2 : i2cPeripherals i ≠ SPI2 := by revert i; decide
  have spi3 : i2cPeripherals i ≠ SPI3 := by revert i; decide
  simp [switchInstance, spi1, spi2, spi3]

theorem switchInstance_spi (values : Fin 3 → UInt32) (i : Fin 3)
    : switchInstance (spiPeripherals i) (values 0) (values 1) (values 2) = some (values i) := by
  fin_cases i <;> rfl

theorem switchSpeed_i2c {slow fast : Fin 3 → UInt32} {instance_ : UInt32} {speed : UInt8}
    (selects : ofPeripherals i2cPeripherals slow fast instance_ speed value)
    : switchSpeed speed (switchInstance instance_ (slow 0) (slow 1) (slow 2))
        (switchInstance instance_ (fast 0) (fast 1) (fast 2)) = none := by
  obtain ⟨i, rfl, ⟨rfl, -⟩ | ⟨rfl, -⟩⟩ := selects
  · exact switchInstance_i2c ..
  · exact switchInstance_i2c ..

theorem switchSpeed_spi {slow fast : Fin 3 → UInt32} {instance_ : UInt32} {speed : UInt8}
    (selects : ofPeripherals spiPeripherals slow fast instance_ speed value)
    : switchSpeed speed (switchInstance instance_ (slow 0) (slow 1) (slow 2))
        (switchInstance instance_ (fast 0) (fast 1) (fast 2)) = some value := by
  obtain ⟨i, rfl, ⟨rfl, rfl⟩ | ⟨rfl, rfl⟩⟩ := selects
  · exact switchInstance_spi slow i
  · exact switchInstance_spi fast i

theorem set_i2c {descr : I2CHandle} (device : iface.device = .i2c descr)
    (same : iface.params = params) (selects : iface.device.Selects params.speed value)
    : grIfSetParams iface params = (.wrongArg, iface) := by
  have bytes : iface.params.sameBytes params = true := decide_eq_true same
  rw [device] at selects
  have newSPEED := switchSpeed_i2c selects
  simp only [Matrix.cons_val] at newSPEED
  rw [grIfSetParams, bytes, device]
  simp [chparamsI2C, newSPEED]

theorem set_spi {descr : SPIHandle} (device : iface.device = .spi descr)
    (same : iface.params = params) (selects : iface.device.Selects params.speed value)
    : grIfSetParams iface params
      = (.ok, ⟨.spi { descr with baudRatePrescaler := value, state := .ready }, params⟩) := by
  have bytes : iface.params.sameBytes params = true := decide_eq_true same
  rw [device] at selects
  have newPRESC := switchSpeed_spi selects
  simp only [Matrix.cons_val] at newPRESC
  rw [grIfSetParams, bytes, device]
  simp [chparamsSPI, newPRESC, halSPIInit, halSPIDeInit]

/-- The interface is an SPI one that has the parameters already, or other bytes hide the same value
under a clock that is already right.
-/
theorem takesEffect_iff (selects : iface.device.Selects params.speed value)
    : TakesEffect iface params value
      ↔ (iface.device.isSPI ∧ iface.params = params)
        ∨ (iface.params ≠ params ∧ iface.params.SameValue params
          ∧ iface.device.clock = some value) := by
  by_cases same : iface.params = params
  case neg =>
    simp [TakesEffect, set_other same, same]
  cases device : iface.device with
  | i2c descr =>
      have set := set_i2c device same selects
      simp [TakesEffect, set, same, Device.isSPI]
  | spi descr =>
      have set := set_spi device same selects
      simp [TakesEffect, set, same, Device.isSPI, Device.clock, GrInterfaceParams.SameValue]
  | stream | unknown =>
      rw [device] at selects
      exact selects.elim

end Set

/-- The first peripheral of SPI at its slow speed. -/
def slowSPI1 : GrInterface where
  device := .spi { instance_ := SPI1, baudRatePrescaler := SPI_BAUDRATEPRESCALER_128, state := .ready }
  params := { speed := GR_IF_PARAM_SPEED_SLOW, padding := ⟨#[0, 0, 0], rfl⟩, timeout := 1000 }

theorem takesEffect_iff_slowSPI1
    : slowSPI1.device.Selects GR_IF_PARAM_SPEED_SLOW SPI_BAUDRATEPRESCALER_128
      ∧ (TakesEffect slowSPI1 slowSPI1.params SPI_BAUDRATEPRESCALER_128
        ↔ (slowSPI1.device.isSPI ∧ slowSPI1.params = slowSPI1.params)
          ∨ (slowSPI1.params ≠ slowSPI1.params ∧ slowSPI1.params.SameValue slowSPI1.params
            ∧ slowSPI1.device.clock = some SPI_BAUDRATEPRESCALER_128)) :=
  have selects : slowSPI1.device.Selects GR_IF_PARAM_SPEED_SLOW SPI_BAUDRATEPRESCALER_128 :=
    ⟨0, rfl, Or.inl ⟨rfl, rfl⟩⟩
  ⟨selects, takesEffect_iff selects⟩

/-- Asked for its fast speed, the interface answers that all is well and stays slow. -/
theorem slowSPI1_stays_slow
    : ¬ ∀ (iface : GrInterface) (params : GrInterfaceParams) (value : UInt32),
        iface.device.Selects params.speed value → TakesEffect iface params value := by
  intro takesEffect
  let fast : GrInterfaceParams := { slowSPI1.params with speed := GR_IF_PARAM_SPEED_FAST }
  have selects : slowSPI1.device.Selects fast.speed SPI_BAUDRATEPRESCALER_4 :=
    ⟨0, rfl, Or.inr ⟨rfl, rfl⟩⟩
  obtain ⟨-, set, -⟩ := takesEffect slowSPI1 fast SPI_BAUDRATEPRESCALER_4 selects
  have stays : grIfSetParams slowSPI1 fast = (.ok, slowSPI1) := by decide
  rw [stays] at set
  exact absurd set.1 (by decide)

end Granum.Omnibus
