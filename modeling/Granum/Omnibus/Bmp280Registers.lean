import Mathlib
import Granum.Omnibus.BusAccess

/-! The registers of the pressure sensor. A block is written as pairs of an address and a byte, and
read from an address on.
-/

namespace Granum.Omnibus

/-- Where the sensor is in a period of its chip select. -/
inductive SelectPhase
  | unselected
  | address
  | data (register : ℕ)
  | reading (register : ℕ)
  deriving DecidableEq, Repr

/-- The sensor: its registers, which have numbers below 128. -/
structure Bmp280 where
  registers : ℕ → UInt8
  phase : SelectPhase := .unselected

/-- Exchanges a byte. A read goes on with the next register each time. -/
def Bmp280.exchange (sensor : Bmp280) (byte : UInt8) : Bmp280 × UInt8 :=
  match sensor.phase with
  | .unselected => (sensor, 0)
  | .address =>
      if byte.toNat < 128 then ({ sensor with phase := .data byte.toNat }, 0)
      else ({ sensor with phase := .reading (byte.toNat - 128) }, 0)
  | .data register =>
      ({ registers := Function.update sensor.registers register byte, phase := .address }, 0)
  | .reading register =>
      ({ sensor with phase := .reading ((register + 1) % 128) }, sensor.registers register)

def Bmp280.exchangeAll (sensor : Bmp280) : List UInt8 → Bmp280 × List UInt8
  | [] => (sensor, [])
  | byte :: rest =>
      let (next, answer) := sensor.exchange byte
      let (last, answers) := next.exchangeAll rest
      (last, answer :: answers)

/-- What becomes of a call of the hardware library: where it fails, some bytes may have gone through. -/
inductive SpiOutcome
  | ok
  | failed (status : HalStatus) (through : ℕ)
  deriving DecidableEq, Repr

/-- `_spi3` with the sensor on it. After the outcomes that are given, all calls succeed. -/
structure Spi3 where
  sensor : Bmp280
  outcomes : List SpiOutcome := []

def Spi3.transfer (bus : Spi3) (bytes : List UInt8) : Spi3 × List UInt8 × HalStatus :=
  match bus.outcomes with
  | .failed status through :: rest =>
      let (sensor, answers) := bus.sensor.exchangeAll (bytes.take through)
      ({ sensor := sensor, outcomes := rest }, answers, status)
  | .ok :: _ | [] =>
      let (sensor, answers) := bus.sensor.exchangeAll bytes
      ({ sensor := sensor, outcomes := bus.outcomes.tail }, answers, .ok)

def halSPITransmit (bus : Spi3) (bytes : List UInt8) : Spi3 × HalStatus :=
  let (bus, _, status) := bus.transfer bytes
  (bus, status)

/-- What comes in is stored over the beginning of the buffer. -/
def halSPIReceive (bus : Spi3) (buffer : List UInt8) (cnt : ℕ) : Spi3 × List UInt8 × HalStatus :=
  let (bus, answers, status) := bus.transfer (List.replicate cnt 0)
  (bus, answers ++ buffer.drop answers.length, status)

def bmp280CsControl (bus : Spi3) (state : Bool) : Spi3 :=
  { bus with sensor := { bus.sensor with phase := if state then .address else .unselected } }

def brctlBmp280RegRead (bus : Spi3) (regAddr : UInt8) (regData : List UInt8) (cnt : UInt8)
    : Spi3 × List UInt8 × HalStatus :=
  let regAddr := regAddr ||| ((1 : UInt8) <<< 7)
  let bus := bmp280CsControl bus true
  let (bus, status) := halSPITransmit bus [regAddr]
  if status ≠ .ok then (bmp280CsControl bus false, regData, status)
  else
    let (bus, regData, status) := halSPIReceive bus regData cnt.toNat
    (bmp280CsControl bus false, regData, status)

/-- The loop over the bytes. The address is the same for all of them. -/
def writeLoop (bus : Spi3) (regAddr : UInt8) : List UInt8 → Spi3 × HalStatus
  | [] => (bus, .ok)
  | byte :: rest =>
      let (bus, status) := halSPITransmit bus [regAddr]
      if status ≠ .ok then (bus, status)
      else
        let (bus, status) := halSPITransmit bus [byte]
        if status ≠ .ok then (bus, status)
        else writeLoop bus regAddr rest

def brctlBmp280RegWrite (bus : Spi3) (regAddr : UInt8) (regData : List UInt8) (cnt : UInt8)
    : Spi3 × HalStatus :=
  let regAddr := regAddr &&& ~~~((1 : UInt8) <<< 7)
  let bus := bmp280CsControl bus true
  let (bus, status) := writeLoop bus regAddr (regData.take cnt.toNat)
  (bmp280CsControl bus false, status)

-----------------------------------------------------------------------------------------
-- What a write and a read do

/-- All calls of the hardware library succeed. -/
def Spi3.Succeeds (bus : Spi3) : Prop := ∀ outcome ∈ bus.outcomes, outcome = .ok

/-- A block is read back as it was written, and no other register changes. -/
def RoundTrip (bus : Spi3) (regAddr : UInt8) (data buf : List UInt8) (cnt : UInt8) : Prop :=
  let written := (brctlBmp280RegWrite bus regAddr data cnt).1
  let (read, got, _) := brctlBmp280RegRead written regAddr buf cnt
  got = data
    ∧ ∀ register, register < regAddr.toNat ∨ regAddr.toNat + data.length ≤ register
      → read.sensor.registers register = bus.sensor.registers register

variable {bus : Spi3} {regAddr : UInt8} {bytes data buf : List UInt8}

theorem transfer_ok (succeeds : bus.Succeeds) (bytes : List UInt8)
    : bus.transfer bytes
      = ({ sensor := (bus.sensor.exchangeAll bytes).1, outcomes := bus.outcomes.tail },
        (bus.sensor.exchangeAll bytes).2, .ok) := by
  cases outcomes : bus.outcomes with
  | nil => simp [Spi3.transfer, outcomes]
  | cons outcome rest =>
      obtain rfl : outcome = .ok := succeeds outcome (by simp [outcomes])
      simp [Spi3.transfer, outcomes]

theorem tail_succeeds (succeeds : bus.Succeeds) (sensor : Bmp280)
    : ({ sensor := sensor, outcomes := bus.outcomes.tail } : Spi3).Succeeds :=
  fun outcome mem => succeeds outcome (List.mem_of_mem_tail mem)

theorem transmit_ok (succeeds : bus.Succeeds)
    : halSPITransmit bus bytes
      = ({ sensor := (bus.sensor.exchangeAll bytes).1, outcomes := bus.outcomes.tail }, .ok) := by
  rw [halSPITransmit, transfer_ok succeeds bytes]

/-- All bytes go to one register, by induction on them. -/
theorem writeLoop_ok (succeeds : bus.Succeeds) (selected : bus.sensor.phase = .address)
    (low : regAddr.toNat < 128) (bytes : List UInt8)
    : ∃ outcomes,
        writeLoop bus regAddr bytes
          = ({ sensor := {
                  registers := bytes.foldl (fun registers byte =>
                    Function.update registers regAddr.toNat byte) bus.sensor.registers
                  phase := .address }
               outcomes := outcomes }, .ok)
        ∧ ∀ outcome ∈ outcomes, outcome = .ok := by
  induction bytes generalizing bus with
  | nil =>
      obtain ⟨⟨registers, phase⟩, outcomes⟩ := bus
      obtain rfl : phase = .address := selected
      exact ⟨outcomes, rfl, succeeds⟩
  | cons byte rest ih =>
      have addressed : (bus.sensor.exchangeAll [regAddr]).1
          = { bus.sensor with phase := .data regAddr.toNat } := by
        simp [Bmp280.exchangeAll, Bmp280.exchange, selected, low]
      have afterAddress := tail_succeeds succeeds (bus.sensor.exchangeAll [regAddr]).1
      have afterByte := tail_succeeds afterAddress
        { registers := Function.update bus.sensor.registers regAddr.toNat byte, phase := .address }
      obtain ⟨outcomes, written, ok⟩ := ih afterByte rfl
      refine ⟨outcomes, ?_, ok⟩
      rw [writeLoop, transmit_ok succeeds]
      simp only [ne_eq, not_true_eq_false, if_false]
      rw [transmit_ok afterAddress]
      simp only [not_true_eq_false, if_false, addressed]
      exact written

/-- A read goes through the registers, by induction on their number. -/
theorem exchangeAll_reading (registers : ℕ → UInt8) (register n : ℕ) (inside : register + n ≤ 128)
    : ∃ phase,
        (Bmp280.mk registers (.reading (register % 128))).exchangeAll (List.replicate n 0)
          = (⟨registers, phase⟩, (List.range' register n).map registers) := by
  induction n generalizing register with
  | zero => exact ⟨_, rfl⟩
  | succ n ih =>
      obtain ⟨phase, rest⟩ := ih (register + 1) (by omega)
      have here : register % 128 = register := Nat.mod_eq_of_lt (by omega)
      refine ⟨phase, ?_⟩
      rw [List.replicate_succ, Bmp280.exchangeAll, Bmp280.exchange]
      simp only [here]
      rw [rest, List.range'_succ, List.map_cons]

/-- The last byte stays in the register, by induction on the bytes. -/
theorem foldl_update (registers : ℕ → UInt8) (register : ℕ) (first : UInt8) (rest : List UInt8)
    : (first :: rest).foldl (fun registers byte => Function.update registers register byte) registers
      = Function.update registers register ((first :: rest).getLast (by simp)) := by
  induction rest generalizing registers first with
  | nil => rfl
  | cons second rest ih =>
      rw [List.foldl_cons, ih, Function.update_idem]
      rfl

theorem or_bit7 (low : regAddr.toNat < 128)
    : (regAddr ||| (1 : UInt8) <<< 7).toNat = regAddr.toNat + 128 := by
  have all : ∀ n < 128, n ||| 128 = n + 128 := by decide
  rw [UInt8.toNat_or]
  exact all _ low

theorem and_not_bit7 (low : regAddr.toNat < 128)
    : (regAddr &&& ~~~((1 : UInt8) <<< 7)) = regAddr := by
  have all : ∀ n < 128, n &&& 127 = n := by decide
  apply UInt8.toNat_inj.mp
  rw [UInt8.toNat_and]
  exact all _ low

/-- What a write leaves in the registers. -/
theorem write_ok {cnt : UInt8} (succeeds : bus.Succeeds) (low : regAddr.toNat < 128)
    {first : UInt8} {rest : List UInt8} (length : (first :: rest).length = cnt.toNat)
    : (brctlBmp280RegWrite bus regAddr (first :: rest) cnt).1.Succeeds
      ∧ (brctlBmp280RegWrite bus regAddr (first :: rest) cnt).1.sensor.registers
        = Function.update bus.sensor.registers regAddr.toNat
          ((first :: rest).getLast (by simp)) := by
  have selected : (bmp280CsControl bus true).Succeeds := succeeds
  obtain ⟨outcomes, written, ok⟩ := writeLoop_ok selected rfl low (first :: rest)
  rw [brctlBmp280RegWrite, and_not_bit7 low, ← length, List.take_length, written, foldl_update]
  exact ⟨ok, rfl⟩

/-- What a read gives, and that it changes no register. -/
theorem read_ok {cnt : UInt8} (succeeds : bus.Succeeds)
    (inside : regAddr.toNat + cnt.toNat ≤ 128) (low : regAddr.toNat < 128)
    (length : buf.length = cnt.toNat)
    : (brctlBmp280RegRead bus regAddr buf cnt).1.sensor.registers = bus.sensor.registers
      ∧ (brctlBmp280RegRead bus regAddr buf cnt).2.1
        = (List.range' regAddr.toNat cnt.toNat).map bus.sensor.registers := by
  have addressed : (bmp280CsControl bus true).sensor.exchangeAll [regAddr ||| (1 : UInt8) <<< 7]
      = (⟨bus.sensor.registers, .reading regAddr.toNat⟩, [0]) := by
    have high : ¬ (regAddr ||| (1 : UInt8) <<< 7).toNat < 128 := by rw [or_bit7 low]; omega
    rw [Bmp280.exchangeAll, Bmp280.exchange]
    simp only [bmp280CsControl, if_true, or_bit7 low, Nat.add_sub_cancel]
    rfl
  have selected : (bmp280CsControl bus true).Succeeds := succeeds
  obtain ⟨phase, answers⟩ :=
    exchangeAll_reading bus.sensor.registers regAddr.toNat cnt.toNat inside
  rw [Nat.mod_eq_of_lt low] at answers
  have received := transfer_ok
    (tail_succeeds selected ⟨bus.sensor.registers, .reading regAddr.toNat⟩)
    (List.replicate cnt.toNat 0)
  rw [answers] at received
  rw [brctlBmp280RegRead, transmit_ok selected, addressed]
  simp only [ne_eq, not_true_eq_false, if_false, halSPIReceive, received]
  simp [bmp280CsControl, length]

theorem map_range'_eq_iff {f : ℕ → UInt8} {start : ℕ} {l : List UInt8}
    : (List.range' start l.length).map f = l
      ↔ ∀ i byte, l[i]? = some byte → byte = f (start + i) := by
  rw [List.ext_getElem?_iff]
  constructor
  · intro same i byte there
    have here := (List.getElem?_eq_some_iff.mp there).1
    have eq := same i
    rw [there, List.getElem?_map, List.getElem?_range' here] at eq
    simpa using eq.symm
  · intro all i
    by_cases here : i < l.length
    · rw [List.getElem?_map, List.getElem?_range' here, List.getElem?_eq_getElem here]
      simp [all i l[i] (List.getElem?_eq_getElem here)]
    · rw [List.getElem?_eq_none (by simpa using here), List.getElem?_eq_none (by simpa using here)]

/-- The block comes back if its last byte, which the first register has got, is its first one, and
its other bytes were in their registers before.
-/
theorem roundTrip_iff {cnt : UInt8} (succeeds : bus.Succeeds) (nonempty : data ≠ [])
    (inside : regAddr.toNat + data.length ≤ 128) (length : data.length = cnt.toNat)
    (room : buf.length = cnt.toNat)
    : RoundTrip bus regAddr data buf cnt
      ↔ data.getLast? = data.head?
        ∧ ∀ i byte, data[i + 1]? = some byte
          → byte = bus.sensor.registers (regAddr.toNat + (i + 1)) := by
  cases data with
  | nil => exact absurd rfl nonempty
  | cons first rest =>
  have low : regAddr.toNat < 128 := by
    rw [List.length_cons] at inside
    omega
  obtain ⟨stillSucceeds, written⟩ := write_ok succeeds low length
  obtain ⟨kept, got⟩ := read_ok stillSucceeds (length ▸ inside) low room
  have frame : ∀ register,
      register < regAddr.toNat ∨ regAddr.toNat + (first :: rest).length ≤ register
      → Function.update bus.sensor.registers regAddr.toNat ((first :: rest).getLast (by simp))
          register = bus.sensor.registers register := by
    intro register outside
    apply Function.update_of_ne
    rw [List.length_cons] at outside
    omega
  have others (i : ℕ)
      : Function.update bus.sensor.registers regAddr.toNat ((first :: rest).getLast (by simp))
          (regAddr.toNat + 1 + i) = bus.sensor.registers (regAddr.toNat + (i + 1)) := by
    rw [Function.update_of_ne (by omega)]
    congr 1
    omega
  unfold RoundTrip
  simp only
  rw [got, kept, written, and_iff_left frame, ← length, List.length_cons, List.range'_succ,
    List.map_cons, List.cons_eq_cons, Function.update_self, map_range'_eq_iff]
  simp only [others, List.getElem?_cons_succ, List.head?_cons,
    List.getLast?_eq_some_getLast (List.cons_ne_nil first rest), Option.some.injEq]

/-- The sensor with all registers zero. -/
def clearedSpi3 : Spi3 where
  sensor := { registers := fun _ => 0 }

/-- A sensor whose third register from 0x74 holds 0x27 already. -/
def configuredSpi3 : Spi3 where
  sensor := { registers := fun register => if register = 0x76 then 0x27 else 0 }

theorem roundTrip_iff_configured
    : configuredSpi3.Succeeds ∧ RoundTrip configuredSpi3 0x74 [0x27, 0, 0x27] [0, 0, 0] 3 := by
  have succeeds : configuredSpi3.Succeeds := fun _ none => by cases none
  have held : ∀ i byte, [(0x27 : UInt8), 0, 0x27][i + 1]? = some byte
      → byte = configuredSpi3.sensor.registers ((0x74 : UInt8).toNat + (i + 1)) := by
    intro i byte found
    rcases i with _ | _ | i
    · exact (Option.some.inj found).symm
    · exact (Option.some.inj found).symm
    · simp at found
  exact ⟨succeeds,
    (roundTrip_iff succeeds (by simp) (by decide) rfl rfl).mpr ⟨rfl, held⟩⟩

/-- Of two bytes the second one is in the first register. -/
theorem two_bytes_not_read_back
    : ¬ ∀ data : List UInt8, data ≠ [] → (0x74 : UInt8).toNat + data.length ≤ 128
        → RoundTrip clearedSpi3 0x74 data (data.map fun _ => 0) (UInt8.ofNat data.length) := by
  intro roundTrip
  obtain ⟨got, -⟩ := roundTrip [1, 2] (by simp) (by decide)
  exact absurd got (by decide)

end Granum.Omnibus
