import Granum.Flight.GpsSentences

/-! The buffer of the GPS test program. It frames sentences as `_parseGPS` does, but the zero that
ends a string is also stored after the loop has been left for the size of the buffer.
-/

namespace Granum.Flight

/-- Which of the two loops the program is in, with `_msg_carret` and `_msg_buffer`. -/
structure GpsTest where
  accumulating : Bool := false
  msgCarret : ℕ := 0
  msgBuffer : ℕ → UInt8 := fun _ => 0

namespace GpsTest

variable (s : GpsTest)

/-- `read(fd, _msg_buffer + index, 1)` -/
def read (outcome : Option UInt8) (index : ℕ) : GpsTest :=
  match outcome with
  | some byte => { s with msgBuffer := Function.update s.msgBuffer index byte }
  | none => s

/-- `_msg_buffer[_msg_carret] = '\x00'`, after which the program waits for a sentence again. -/
def terminate : GpsTest :=
  { s with
    accumulating := false
    msgBuffer := Function.update s.msgBuffer s.msgCarret 0 }

/-- The body of the first loop, with the indices of the buffer that are accessed. -/
def await (outcome : Option UInt8) : GpsTest × List ℕ :=
  let s := s.read outcome 0
  if s.msgBuffer 0 = dollar then ({ s with accumulating := true, msgCarret := 1 }, [0, 0])
  else (s, [0, 0])

/-- The body of the second loop, and what follows it where it ends. -/
def accumulate (outcome : Option UInt8) : GpsTest × List ℕ :=
  let index := s.msgCarret
  let s := { s.read outcome index with msgCarret := index + 1 }
  if msgBufSize ≤ s.msgCarret then (s.terminate, [index, s.msgCarret])
  else if s.msgBuffer (s.msgCarret - 2) = carriageReturn
      ∧ s.msgBuffer (s.msgCarret - 1) = lineFeed then
    (s.terminate, [index, s.msgCarret - 2, s.msgCarret - 1, s.msgCarret])
  else (s, [index, s.msgCarret - 2, s.msgCarret - 1])

end GpsTest

/-- The program, read by read. -/
def gpsTestMain : Mealy GpsTest (Option UInt8) ℕ where
  step s outcome := if s.accumulating then s.accumulate outcome else s.await outcome

-----------------------------------------------------------------------------------------
-- The segment that is in the buffer
-----------------------------------------------------------------------------------------

namespace GpsTest

/-- What has been accumulated, with the dollar sign. -/
def segment (s : GpsTest) : List UInt8 :=
  if s.accumulating then (List.range s.msgCarret).map s.msgBuffer else []

/-- A sentence that is accumulated has begun, and fits so far. -/
def InBuffer (s : GpsTest) : Prop :=
  s.accumulating → 0 < s.msgCarret ∧ s.msgCarret < msgBufSize

variable {s : GpsTest} {c : Collector UInt8} (byte : UInt8)

theorem segment_of_accumulating (accumulating : s.accumulating)
    : s.segment = Gps.segment { msgCarret := s.msgCarret, msgBuffer := s.msgBuffer } :=
  if_pos accumulating

theorem segment_of_waiting (waiting : s.accumulating = false) : s.segment = [] := by
  simp [segment, waiting]

theorem length_segment (accumulating : s.accumulating) : s.segment.length = s.msgCarret := by
  rw [segment_of_accumulating accumulating, Gps.length_segment]

/-- The state after a read at the position, which moves it. -/
def advance (s : GpsTest) : GpsTest :=
  { s with
    msgCarret := s.msgCarret + 1
    msgBuffer := Function.update s.msgBuffer s.msgCarret byte }

theorem segment_advance (accumulating : s.accumulating)
    : (s.advance byte).segment = s.segment ++ [byte] := by
  rw [segment_of_accumulating accumulating, ← Gps.segment_advance]
  exact if_pos accumulating

theorem accumulate_eq (accumulating : s.accumulating) (inBuffer : s.InBuffer)
    : s.accumulate (some byte)
      = if gpsFraming.limit ≤ s.segment.length + 1 then
          ((s.advance byte).terminate, [s.msgCarret, s.msgCarret + 1])
        else if gpsFraming.closing <:+ s.segment ++ [byte] then
          ((s.advance byte).terminate,
            [s.msgCarret, s.msgCarret - 1, s.msgCarret, s.msgCarret + 1])
        else (s.advance byte, [s.msgCarret, s.msgCarret - 1, s.msgCarret]) := by
  obtain ⟨position, carret⟩ := Nat.exists_eq_succ_of_ne_zero (inBuffer accumulating).1.ne'
  let gps : Gps :=
    { msgCarret := s.msgCarret + 1
      msgBuffer := Function.update s.msgBuffer s.msgCarret byte }
  have segment : gps.segment = s.segment ++ [byte] := by
    rw [← segment_advance byte accumulating]
    exact (if_pos accumulating).symm
  have closing := gps.closing_suffix (congrArg (· + 1) carret)
  rw [segment] at closing
  rw [length_segment accumulating]
  simp only [closing]
  rfl

theorem terminate_segment : s.terminate.segment = [] := segment_of_waiting rfl

theorem step_waiting (waiting : s.accumulating = false)
    : gpsTestMain.step s (some byte)
      = (if byte = dollar then ⟨true, 1, Function.update s.msgBuffer 0 byte⟩
          else { s with msgBuffer := Function.update s.msgBuffer 0 byte }, [0, 0]) := by
  have waits : gpsTestMain.step s (some byte) = s.await (some byte) := if_neg (by simp [waiting])
  have stored : (s.read (some byte) 0).msgBuffer 0 = byte := by simp [read]
  rw [waits, await]
  simp only [stored]
  by_cases opens : byte = dollar
  · rw [if_pos opens, if_pos opens]
    rfl
  · rw [if_neg opens, if_neg opens]
    rfl

theorem step_accumulating (accumulating : s.accumulating)
    : gpsTestMain.step s (some byte) = s.accumulate (some byte) :=
  if_pos accumulating

theorem InBuffer.step (inBuffer : s.InBuffer)
    : (gpsTestMain.step s (some byte)).1.InBuffer := by
  cases accumulating : s.accumulating with
  | false =>
      rw [step_waiting byte accumulating]
      by_cases opens : byte = dollar
      · rw [if_pos opens]
        exact fun _ => ⟨Nat.one_pos, (by decide : 1 < msgBufSize)⟩
      · rw [if_neg opens]
        exact fun impossible => absurd impossible (by simp [accumulating])
  | true =>
      have begun := (inBuffer accumulating).1
      rw [step_accumulating byte accumulating, accumulate_eq byte accumulating inBuffer,
        length_segment accumulating]
      split_ifs with long closing
      · exact fun impossible => absurd impossible (by simp [terminate])
      · exact fun impossible => absurd impossible (by simp [terminate])
      · exact fun _ => ⟨Nat.succ_pos _, Nat.not_le.mp long⟩

/-- The program goes through the segments of the framer that has no buffer. -/
theorem step_segment (inBuffer : s.InBuffer) (same : c.segment = s.segment)
    : (gpsFraming.collector.step c byte).1.segment
      = (gpsTestMain.step s (some byte)).1.segment := by
  obtain ⟨position, segment⟩ := c
  obtain rfl : segment = s.segment := same
  have opening : gpsFraming.opening = dollar := rfl
  cases accumulating : s.accumulating with
  | false =>
      rw [segment_of_waiting accumulating, Framing.step_idle, step_waiting byte accumulating,
        opening]
      by_cases opens : byte = dollar
      · simp [opens, GpsTest.segment]
      · simp [opens, GpsTest.segment, accumulating]
  | true =>
      have begun := (inBuffer accumulating).1
      have opened : s.segment ≠ [] := by
        rw [ne_eq, ← List.length_eq_zero_iff, length_segment accumulating]
        exact begun.ne'
      rw [Framing.step_open _ _ _ opened, step_accumulating byte accumulating,
        accumulate_eq byte accumulating inBuffer]
      split_ifs with long closing
      · exact terminate_segment.symm
      · exact terminate_segment.symm
      · exact (segment_advance byte accumulating).symm

/-- By induction on the bytes. -/
theorem finish_segment (inBuffer : s.InBuffer) (same : c.segment = s.segment) (bytes : List UInt8)
    : (gpsTestMain.finish s (bytes.map some)).InBuffer
      ∧ (gpsFraming.collector.finish c bytes).segment
        = (gpsTestMain.finish s (bytes.map some)).segment := by
  induction bytes generalizing s c with
  | nil => exact ⟨inBuffer, same⟩
  | cons byte rest ih => exact ih (inBuffer.step byte) (step_segment byte inBuffer same)

/-- A step leaves the buffer only with the zero behind a sentence that has reached its size. -/
theorem step_inside_iff (inBuffer : s.InBuffer)
    : (∀ index ∈ (gpsTestMain.step s (some byte)).2, index < msgBufSize)
      ↔ s.segment.length + 1 < msgBufSize := by
  have size : msgBufSize = 256 := rfl
  cases accumulating : s.accumulating with
  | false =>
      rw [segment_of_waiting accumulating, step_waiting byte accumulating]
      simp [size]
  | true =>
      obtain ⟨begun, inside⟩ := inBuffer accumulating
      have limit : gpsFraming.limit = msgBufSize := rfl
      rw [step_accumulating byte accumulating, accumulate_eq byte accumulating inBuffer,
        length_segment accumulating, limit]
      split_ifs with long closing
      · simp
        omega
      · simp
        omega
      · simp
        omega

/-- All accesses are in the buffer exactly if no sentence has 255 characters before the next one is
read.
-/
theorem gpsTest_inside_iff (bytes : List UInt8)
    : (∀ index ∈ gpsTestMain.outputs {} (bytes.map some), index < msgBufSize)
      ↔ ∀ seen byte rest, bytes = seen ++ byte :: rest
        → (gpsFraming.reference 0 seen).2.length + 1 < msgBufSize := by
  have start : InBuffer {} := fun impossible => absurd impossible (by simp)
  have step (seen : List UInt8) (byte : UInt8)
      : (∀ index ∈ (gpsTestMain.step (gpsTestMain.finish {} (seen.map some)) (some byte)).2,
          index < msgBufSize)
        ↔ (gpsFraming.reference 0 seen).2.length + 1 < msgBufSize := by
    obtain ⟨inBuffer, same⟩ := finish_segment (c := {}) start rfl seen
    rw [step_inside_iff byte inBuffer, ← same,
      (gpsFraming.collector_eq_reference_of_idle seen 0).2]
  rw [Mealy.forall_mem_outputs_iff]
  constructor
  · rintro inside seen byte rest rfl
    exact (step seen byte).mp (inside (seen.map some) (some byte) (rest.map some) (by simp))
  · intro short seen outcome rest split
    obtain ⟨before, later, rfl, rfl, tail⟩ := List.map_eq_append_iff.mp split
    obtain ⟨byte, more, rfl, rfl, rfl⟩ := List.map_eq_cons_iff.mp tail
    exact (step before byte).mpr (short before byte more rfl)

end GpsTest

/-- The zero behind a sentence that does not end is stored behind the buffer. -/
theorem gpsTest_zero_outside
    : ¬ ∀ bytes : List UInt8,
        ∀ index ∈ gpsTestMain.outputs {} (bytes.map some), index < msgBufSize := by
  intro inside
  have stored : 256 ∈ gpsTestMain.outputs {} ((dollar :: List.replicate 255 65).map some) := by
    decide +kernel
  exact absurd (inside _ 256 stored) (by decide)

end Granum.Flight
