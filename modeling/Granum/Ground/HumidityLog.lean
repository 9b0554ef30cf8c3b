import Mathlib
import Granum.Library.FallibleRun

/-! The log of the humidity sensor. Every message is accepted, and after every message what was
last accepted is saved.
-/

namespace Granum.Ground.Am2320

/-- A message of the sensor, or of another type. -/
inductive Message (Other : Type)
  | am2320 (timeBootMs : UInt64) (temperature : Int16) (humidity : UInt16)
  | other (message : Other)

/-- `float(value / 10.0)` -/
def tenth (value : ℤ) : Float := Float.ofInt value / 10.0

/-- A row of either file: the value, and the time. -/
abbrev Row := Float × UInt64

/-- The attributes of the listener. The first three exist only once they have been set. -/
structure Listener where
  temperature : Option Float := none
  humidity : Option Float := none
  time : Option UInt64 := none
  tRows : List Row := []
  hRows : List Row := []

inductive PyError
  | attributeError (name : String)

def getAttribute {α : Type} (name : String) (value : Option α) : Except PyError α :=
  match value with
  | some value => .ok value
  | none => .error (.attributeError name)

def Listener.saveData (self : Listener) : Except PyError Listener := do
  let temperature ← getAttribute "temperature" self.temperature
  let time ← getAttribute "time" self.time
  let self := { self with tRows := self.tRows ++ [(temperature, time)] }
  let humidity ← getAttribute "humidity" self.humidity
  let time ← getAttribute "time" self.time
  return { self with hRows := self.hRows ++ [(humidity, time)] }

variable {Other : Type}

def Listener.acceptMessage (self : Listener) (msg : Message Other) : Listener :=
  match msg with
  | .am2320 timeBootMs temperature humidity =>
      { self with
        temperature := some (tenth temperature.toInt)
        humidity := some (tenth humidity.toNat)
        time := some timeBootMs }
  | .other _ => self

/-- The body of the loop of `main`. -/
def Listener.step (self : Listener) (msg : Message Other) : Except PyError Listener :=
  (self.acceptMessage msg).saveData

/-- The loop for the messages that come, from the listener as it is made. -/
def main (messages : List (Message Other)) : Except PyError Listener :=
  FallibleRun.run Listener.step {} messages

-----------------------------------------------------------------------------------------
-- One row for each measurement

/-- The row of a measurement in the file of the temperatures, and in that of the humidities. -/
def Message.temperatureRow : Message Other → Option Row
  | .am2320 timeBootMs temperature _ => some (tenth temperature.toInt, timeBootMs)
  | .other _ => none

def Message.humidityRow : Message Other → Option Row
  | .am2320 timeBootMs _ humidity => some (tenth humidity.toNat, timeBootMs)
  | .other _ => none

def Message.isMeasurement : Message Other → Bool
  | .am2320 _ _ _ => true
  | .other _ => false

/-- The loop does not raise, and the files have the rows of the measurements. -/
def OneRowEach (messages : List (Message Other)) : Prop :=
  ∃ listener, main messages = .ok listener
    ∧ listener.tRows = messages.filterMap Message.temperatureRow
    ∧ listener.hRows = messages.filterMap Message.humidityRow

variable {messages : List (Message Other)} {listener after : Listener} {msg : Message Other}

theorem step_am2320 (timeBootMs : UInt64) (temperature : Int16) (humidity : UInt16)
    : listener.step (.am2320 timeBootMs temperature humidity : Message Other)
      = .ok {
          temperature := some (tenth temperature.toInt)
          humidity := some (tenth humidity.toNat)
          time := some timeBootMs
          tRows := listener.tRows ++ [(tenth temperature.toInt, timeBootMs)]
          hRows := listener.hRows ++ [(tenth humidity.toNat, timeBootMs)] } := rfl

/-- A step that does not raise adds a row, whatever the message is. -/
theorem step_length (done : listener.step msg = .ok after)
    : after.tRows.length = listener.tRows.length + 1 := by
  cases msg with
  | am2320 timeBootMs temperature humidity =>
      rw [step_am2320] at done
      cases done
      simp
  | other message =>
      obtain ⟨temperature, _, done⟩ := FallibleRun.bind_ok done
      obtain ⟨time, _, done⟩ := FallibleRun.bind_ok done
      obtain ⟨humidity, _, done⟩ := FallibleRun.bind_ok done
      obtain ⟨_, _, done⟩ := FallibleRun.bind_ok done
      cases done
      simp [Listener.acceptMessage]

/-- By induction on the messages. -/
theorem main_length (ran : main messages = .ok listener)
    : listener.tRows.length = messages.length := by
  induction messages using List.reverseRecOn generalizing listener with
  | nil =>
      cases ran
      rfl
  | append_singleton messages msg ih =>
      obtain ⟨before, ran, done⟩ := FallibleRun.run_concat_ok ran
      rw [step_length done, ih ran, List.length_append, List.length_singleton]

/-- Measurements alone are written one by one, by induction on the messages. -/
theorem oneRowEach_of_measurements (all : ∀ msg ∈ messages, msg.isMeasurement)
    : OneRowEach messages := by
  induction messages using List.reverseRecOn with
  | nil => exact ⟨{}, rfl, rfl, rfl⟩
  | append_singleton messages msg ih =>
      obtain ⟨listener, ran, tRows, hRows⟩ := ih fun msg mem => all msg (by simp [mem])
      cases msg with
      | am2320 timeBootMs temperature humidity =>
          have concat : main (messages ++ [.am2320 timeBootMs temperature humidity])
              = listener.step (.am2320 timeBootMs temperature humidity : Message Other) := by
            rw [main, FallibleRun.run_concat, ← main, ran]
            rfl
          rw [step_am2320] at concat
          refine ⟨_, concat, ?_, ?_⟩
          · simp [tRows, Message.temperatureRow]
          · simp [hRows, Message.humidityRow]
      | other message =>
          have measured := all (.other message) (by simp)
          exact absurd measured (by simp [Message.isMeasurement])

theorem oneRowEach_iff
    : OneRowEach messages ↔ ∀ msg ∈ messages, msg.isMeasurement := by
  refine ⟨?_, oneRowEach_of_measurements⟩
  rintro ⟨listener, ran, tRows, -⟩ msg mem
  have lengths := main_length ran
  rw [tRows, List.filterMap_length_eq_length] at lengths
  have measured := lengths msg mem
  cases msg with
  | am2320 => rfl
  | other => exact absurd measured (by simp [Message.temperatureRow])

/-- A message of another type that comes first finds nothing to save. -/
theorem other_first_raises
    : ¬ ∀ messages : List (Message Unit), OneRowEach messages := by
  intro each
  obtain ⟨listener, ran, -⟩ := each [.other ()]
  have raised : main [(.other () : Message Unit)] = .error (.attributeError "temperature") := rfl
  cases raised.symm.trans ran

end Granum.Ground.Am2320
