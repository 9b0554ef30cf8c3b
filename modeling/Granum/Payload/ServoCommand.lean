import Granum.Library.Mealy

/-! A position of the servo on its way: `Servo.set_servo` writes two bytes to the bus, the interrupt
handler of the slave puts them together again.
-/

namespace Granum.Payload

-----------------------------------------------------------------------------------------
-- The slave
-----------------------------------------------------------------------------------------

/-- What `I2C_GetLastEvent` reports. Events of the last kind end in `default`. -/
inductive I2cEvent
  | slaveReceiverAddressMatched
  | slaveByteReceived (byte : UInt8)
  | slaveStopDetected
  | other
  deriving DecidableEq, Repr

inductive ReceiverState
  | state1bite
  | state2bite
  deriving DecidableEq, Repr

/-- `state` and the two places of `Slave_Buffer_Rx`. -/
structure Receiver where
  state : ReceiverState := .state1bite
  slaveBufferRx : UInt8 × UInt8 := (0, 0)
  deriving DecidableEq, Repr

/-- What the slave reads from two places as `uint16_t`, with the high byte first. -/
def bigEndian (first second : UInt8) : ℕ := 256 * first.toNat + second.toNat

/-- `I2C_IRQHandler`, with the values passed to `TIM2_SetCompare1`. -/
def i2cIrqHandler (s : Receiver) : I2cEvent → Receiver × List ℕ
  | .slaveReceiverAddressMatched => ({ s with state := .state1bite }, [])
  | .slaveByteReceived byte =>
      match s.state with
      | .state1bite =>
          ({ state := .state2bite, slaveBufferRx := (byte, s.slaveBufferRx.2) }, [])
      | .state2bite =>
          let slaveBufferRx := (s.slaveBufferRx.1, byte)
          ({ state := .state1bite, slaveBufferRx },
            [bigEndian slaveBufferRx.1 slaveBufferRx.2])
  | .slaveStopDetected => (s, [])
  | .other => (s, [])

def receiver : Mealy Receiver I2cEvent ℕ := ⟨i2cIrqHandler⟩

/-- The bytes of a transaction after another event. -/
def bytesAfter (bytes : List UInt8) : I2cEvent → List UInt8
  | .slaveReceiverAddressMatched => []
  | .slaveByteReceived byte => bytes ++ [byte]
  | .slaveStopDetected | .other => bytes

/-- The bytes that have come since the last address match, or since reset. -/
def bytesSinceMatch (history : List I2cEvent) : List UInt8 := history.foldl bytesAfter []

/-- What the receiver keeps of the bytes since the last address match: the last one, after an odd
number of them.
-/
inductive Paired (s : Receiver) : List UInt8 → Prop
  | even {bytes : List UInt8} (state : s.state = .state1bite) (even : Even bytes.length)
      : Paired s bytes
  | odd {bytes : List UInt8} (state : s.state = .state2bite) (even : Even bytes.length)
      : Paired s (bytes ++ [s.slaveBufferRx.1])

variable {s : Receiver} {bytes : List UInt8}

theorem Paired.step (h : Paired s bytes) (event : I2cEvent)
    : Paired (receiver.step s event).1 (bytesAfter bytes event) := by
  cases event with
  | slaveReceiverAddressMatched => exact .even rfl ⟨0, rfl⟩
  | slaveStopDetected => exact h
  | other => exact h
  | slaveByteReceived byte =>
      cases h with
      | even state even =>
          have step : (receiver.step s (.slaveByteReceived byte)).1
              = ⟨.state2bite, byte, s.slaveBufferRx.2⟩ := by
            simp only [receiver, i2cIrqHandler, state]
          rw [step]
          exact .odd rfl even
      | @odd bytes state even =>
          have step : (receiver.step s (.slaveByteReceived byte)).1
              = ⟨.state1bite, s.slaveBufferRx.1, byte⟩ := by
            simp only [receiver, i2cIrqHandler, state]
          rw [step]
          have length : (bytesAfter (bytes ++ [s.slaveBufferRx.1]) (.slaveByteReceived byte)).length
              = bytes.length + 2 := by
            simp [bytesAfter]
          exact .even rfl (length ▸ even.add even_two)

/-- A value is passed on with the second byte of a pair. -/
theorem Paired.compare (h : Paired s bytes) {event : I2cEvent} {value : ℕ}
    (passed : value ∈ (receiver.step s event).2)
    : ∃ earlier first second, event = .slaveByteReceived second ∧ bytes = earlier ++ [first]
        ∧ Even earlier.length ∧ value = bigEndian first second := by
  cases event with
  | slaveReceiverAddressMatched => exact absurd passed List.not_mem_nil
  | slaveStopDetected => exact absurd passed List.not_mem_nil
  | other => exact absurd passed List.not_mem_nil
  | slaveByteReceived byte =>
      cases h with
      | even state even =>
          simp only [receiver, i2cIrqHandler, state] at passed
          exact absurd passed List.not_mem_nil
      | @odd bytes state even =>
          simp only [receiver, i2cIrqHandler, state] at passed
          exact ⟨bytes, s.slaveBufferRx.1, byte, rfl, rfl, even, List.mem_singleton.mp passed⟩

/-- After every history the receiver is inside a pair exactly if the bytes are, by induction from
its end.
-/
theorem paired_receiver (history : List I2cEvent)
    : Paired (receiver.finish {} history) (bytesSinceMatch history) := by
  induction history using List.reverseRecOn with
  | nil => exact .even rfl ⟨0, rfl⟩
  | append_singleton history event ih =>
      rw [Mealy.finish_concat, bytesSinceMatch, List.foldl_concat]
      exact ih.step event

/-- Every value that is passed on is made of two consecutive bytes of a transaction, the first of
them after an even number of bytes; by induction from the end of the history.
-/
theorem compare_of_pair {history : List I2cEvent} {value : ℕ}
    (passed : value ∈ receiver.outputs {} history)
    : ∃ before earlier first second, before ++ [.slaveByteReceived second] <+: history
        ∧ bytesSinceMatch before = earlier ++ [first] ∧ Even earlier.length
        ∧ value = bigEndian first second := by
  induction history using List.reverseRecOn with
  | nil => exact absurd passed List.not_mem_nil
  | append_singleton history event ih =>
      rw [Mealy.outputs_concat] at passed
      rcases List.mem_append.mp passed with earlier | now
      · obtain ⟨before, earlier, first, second, inside, pair⟩ := ih earlier
        exact ⟨before, earlier, first, second, inside.trans (List.prefix_append _ _), pair⟩
      · obtain ⟨earlier, first, second, rfl, pair⟩ := (paired_receiver history).compare now
        exact ⟨history, earlier, first, second, List.prefix_rfl, pair⟩

-----------------------------------------------------------------------------------------
-- The master
-----------------------------------------------------------------------------------------

def inMin : ℤ := 0
def inMax : ℤ := 180
def outMin : ℤ := 1600
def outMax : ℤ := 5000

/-- `int(x)`, which drops the fraction. -/
def pyInt (x : ℚ) : ℤ := if 0 ≤ x then ⌊x⌋ else ⌈x⌉

namespace Servo

/-- `map` of `servo.py`. -/
def map (x : ℚ) (inMin inMax outMin outMax : ℤ) : ℤ :=
  if inMax < x then outMax
  else if x < inMin then outMin
  else pyInt ((x - inMin) * (outMax - outMin) / (inMax - inMin) + outMin)

/-- The value that `set_servo` sends. -/
def signal (position : ℚ) : ℤ := Servo.map position inMin inMax outMin outMax

/-- The bytes that `set_servo` writes: `signal >> 8` and `signal`, each with `& 0xFF`. -/
def setServo (position : ℚ) : List UInt8 :=
  let b1 := UInt8.ofNat (signal position % 256).toNat
  let b2 := UInt8.ofNat (signal position / 256 % 256).toNat
  [b2, b1]

/-- What the slave sees of a write: its address, the bytes and the stop. -/
def written (data : List UInt8) : List I2cEvent :=
  .slaveReceiverAddressMatched :: data.map .slaveByteReceived ++ [.slaveStopDetected]

theorem signal_of_gt {position : ℚ} (high : 180 < position) : signal position = 5000 :=
  if_pos high

theorem signal_of_lt {position : ℚ} (low : position < 0) : signal position = 1600 := by
  have inside : ¬ (180 : ℚ) < position := by linarith
  exact (if_neg inside).trans (if_pos low)

/-- In the range of the input the value is rounded down. -/
theorem signal_of_mem {position : ℚ} (low : 0 ≤ position) (high : position ≤ 180)
    : signal position = ⌊position * 3400 / 180 + 1600⌋ := by
  have inside : ¬ ((inMax : ℤ) : ℚ) < position := not_lt.mpr high
  have inside' : ¬ position < ((inMin : ℤ) : ℚ) := not_lt.mpr low
  have value : (position - (inMin : ℤ)) * ((outMax : ℤ) - (outMin : ℤ)) / ((inMax : ℤ) - (inMin : ℤ))
      + (outMin : ℤ) = position * 3400 / 180 + 1600 := by
    norm_num [inMin, inMax, outMin, outMax]
  have positive : 0 ≤ position * 3400 / 180 + 1600 := by positivity
  rw [signal, Servo.map, if_neg inside, if_neg inside', value, pyInt, if_pos positive]

theorem signal_mem (position : ℚ) : 1600 ≤ signal position ∧ signal position ≤ 5000 := by
  rcases lt_or_ge position 0 with low | low
  · rw [signal_of_lt low]
    decide
  · rcases lt_or_ge 180 position with high | high
    · rw [signal_of_gt high]
      decide
    · rw [signal_of_mem low high]
      refine ⟨Int.le_floor.mpr ?_, ?_⟩
      · push_cast
        linarith
      · apply Int.cast_le.mp (Int.floor_le (position * 3400 / 180 + 1600) |>.trans _)
        push_cast
        linarith

theorem signal_mono : Monotone signal := by
  intro position next le
  rcases lt_or_ge position 0 with low | low
  · rw [signal_of_lt low]
    exact (signal_mem next).1
  · rcases lt_or_ge 180 next with high | high
    · rw [signal_of_gt high]
      exact (signal_mem position).2
    · rw [signal_of_mem low (le.trans high), signal_of_mem (low.trans le) high]
      apply Int.floor_le_floor
      linarith

/-- The slave reads the two bytes as the value again. -/
theorem bigEndian_setServo (position : ℚ)
    : ∃ first second, setServo position = [first, second]
        ∧ (bigEndian first second : ℤ) = signal position := by
  obtain ⟨low, high⟩ := signal_mem position
  refine ⟨_, _, rfl, ?_⟩
  simp only [bigEndian, UInt8.toNat_ofNat']
  omega

end Servo

/-- After every history of the bus, `set_servo` makes the slave pass on one value, that of the
position; every value that it ever passes on is made of two consecutive bytes of a transaction, and
the values lie in the range of the output and grow with the position.
-/
theorem set_servo_compares (history : List I2cEvent) (position : ℚ)
    : ((receiver.outputs (receiver.finish {} history) (Servo.written (Servo.setServo position))).map
          Nat.cast = [Servo.signal position])
      ∧ (∀ value ∈ receiver.outputs {} history, ∃ before earlier first second,
          before ++ [.slaveByteReceived second] <+: history
            ∧ bytesSinceMatch before = earlier ++ [first] ∧ Even earlier.length
            ∧ value = bigEndian first second)
      ∧ 1600 ≤ Servo.signal position ∧ Servo.signal position ≤ 5000
      ∧ ∀ next, position ≤ next → Servo.signal position ≤ Servo.signal next := by
  refine ⟨?_, fun _ => compare_of_pair, (Servo.signal_mem position).1,
    (Servo.signal_mem position).2, fun _ le => Servo.signal_mono le⟩
  obtain ⟨first, second, data, value⟩ := Servo.bigEndian_setServo position
  rw [data, ← value]
  rfl

end Granum.Payload
