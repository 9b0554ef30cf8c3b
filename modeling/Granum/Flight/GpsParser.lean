import Granum.Library.Mealy

/-! The framer of the GPS sentences, `_parseGPS`. It keeps its position and its buffer from one
call to the next, and does not look at what `read` returns.
-/

namespace Granum.Flight

def msgBufSize : ℕ := 256

/-- The characters that frame a sentence. -/
def dollar : UInt8 := 36
def carriageReturn : UInt8 := 13
def lineFeed : UInt8 := 10

/-- `_msg_carret` and `_msg_buffer`, with the number of calls of `read` and the indices of the
buffer that have been written.
-/
structure Gps where
  msgCarret : ℕ := 0
  msgBuffer : ℕ → UInt8 := fun _ => 0
  reads : ℕ := 0
  writes : List ℕ := []

/-- How an iteration of the loop ends: with the next one, by `break`, or by `return true` with
what stands in the buffer before the terminating zero.
-/
inductive GpsExit
  | next
  | overflow
  | found (sentence : List UInt8)
  deriving DecidableEq, Repr

namespace Gps

variable (s : Gps)

/-- `_msg_buffer[index] = value`. -/
def store (index : ℕ) (value : UInt8) : Gps :=
  { s with
    msgBuffer := Function.update s.msgBuffer index value
    writes := s.writes ++ [index] }

/-- `read(fd, _msg_buffer + index, 1)`: a read that fails leaves the buffer unchanged. -/
def read (outcome : Option UInt8) (index : ℕ) : Gps :=
  let s := { s with reads := s.reads + 1 }
  match outcome with
  | some byte => s.store index byte
  | none => s

/-- The part of the buffer before the position. -/
def segment : List UInt8 := (List.range s.msgCarret).map s.msgBuffer

/-- The body of the loop of `_parseGPS`. -/
def iterate (outcome : Option UInt8) : Gps × GpsExit :=
  if s.msgCarret = 0 then
    let s := s.read outcome 0
    if s.msgBuffer 0 = dollar then ({ s with msgCarret := s.msgCarret + 1 }, .next)
    else (s, .next)
  else
    let s := { s.read outcome s.msgCarret with msgCarret := s.msgCarret + 1 }
    if msgBufSize ≤ s.msgCarret then ({ s with msgCarret := 0 }, .overflow)
    else if s.msgBuffer (s.msgCarret - 2) = carriageReturn
        ∧ s.msgBuffer (s.msgCarret - 1) = lineFeed then
      let sentence := s.segment
      ({ s.store s.msgCarret 0 with msgCarret := 0 }, .found sentence)
    else (s, .next)

end Gps

/-- A call of `_parseGPS`, with the sentence if it returns true; `outcomes` are the results of
all calls of `read`.
-/
def parseGPS (outcomes : ℕ → Option UInt8) : ℕ → Gps → Gps × Option (List UInt8)
  | 0, s => (s, none)
  | cycles + 1, s =>
      match s.iterate (outcomes s.reads) with
      | (s, .next) => parseGPS outcomes cycles s
      | (s, .overflow) => (s, none)
      | (s, .found sentence) => (s, some sentence)

/-- Calls of `_parseGPS` one after the other, with the sentences that they deliver and the
number of reads at that time.
-/
def parseCalls (outcomes : ℕ → Option UInt8) : List ℕ → Gps → Gps × List (ℕ × List UInt8)
  | [], s => (s, [])
  | cycles :: rest, s =>
      let (s, sentence) := parseGPS outcomes cycles s
      let (last, more) := parseCalls outcomes rest s
      (last, (sentence.map (s.reads, ·)).toList ++ more)

-----------------------------------------------------------------------------------------
-- The calls do not matter
-----------------------------------------------------------------------------------------

/-- What an iteration delivers, with the number of reads. -/
def GpsExit.delivered (reads : ℕ) : GpsExit → List (ℕ × List UInt8)
  | .found sentence => [(reads, sentence)]
  | .next | .overflow => []

/-- The iterations of the loop without the calls. -/
def gpsFramer : Mealy Gps (Option UInt8) (ℕ × List UInt8) where
  step s outcome :=
    let (s, exit) := s.iterate outcome
    (s, exit.delivered s.reads)

theorem gpsFramer_step (s : Gps) (outcome : Option UInt8)
    : gpsFramer.step s outcome
      = ((s.iterate outcome).1, (s.iterate outcome).2.delivered (s.iterate outcome).1.reads) :=
  rfl

/-- The results of `count` reads from the `start`th on. -/
def outcomesFrom (outcomes : ℕ → Option UInt8) (start count : ℕ) : List (Option UInt8) :=
  (List.range' start count).map outcomes

theorem outcomesFrom_succ (outcomes : ℕ → Option UInt8) (start count : ℕ)
    : outcomesFrom outcomes start (count + 1)
      = outcomes start :: outcomesFrom outcomes (start + 1) count := rfl

theorem outcomesFrom_add (outcomes : ℕ → Option UInt8) (start first second : ℕ)
    : outcomesFrom outcomes start (first + second)
      = outcomesFrom outcomes start first ++ outcomesFrom outcomes (start + first) second := by
  rw [outcomesFrom, ← List.range'_append_1, List.map_append]
  rfl

@[simp] theorem Gps.reads_read (s : Gps) (outcome : Option UInt8) (index : ℕ)
    : (s.read outcome index).reads = s.reads + 1 := by
  cases outcome <;> rfl

/-- Every iteration makes one read. -/
theorem Gps.reads_iterate (s : Gps) (outcome : Option UInt8)
    : (s.iterate outcome).1.reads = s.reads + 1 := by
  unfold iterate
  dsimp only
  split_ifs <;> simp [store]

/-- A call makes the iterations for some reads, at most one for each cycle; by induction on the
cycles.
-/
theorem parseGPS_eq (outcomes : ℕ → Option UInt8) (cycles : ℕ) (s : Gps)
    : ∃ count ≤ cycles,
        (parseGPS outcomes cycles s).1
            = gpsFramer.finish s (outcomesFrom outcomes s.reads count)
          ∧ ((parseGPS outcomes cycles s).2.map
              ((parseGPS outcomes cycles s).1.reads, ·)).toList
            = gpsFramer.outputs s (outcomesFrom outcomes s.reads count)
          ∧ (parseGPS outcomes cycles s).1.reads = s.reads + count := by
  induction cycles generalizing s with
  | zero => exact ⟨0, le_rfl, rfl, rfl, rfl⟩
  | succ cycles ih =>
      cases iteration : s.iterate (outcomes s.reads) with
      | mk t exit =>
          have reads : t.reads = s.reads + 1 := by
            rw [← s.reads_iterate (outcomes s.reads), iteration]
          cases exit with
          | next =>
              obtain ⟨count, bound, state, sentences, more⟩ := ih t
              refine ⟨count + 1, Nat.succ_le_succ bound, ?_⟩
              have first : gpsFramer.step s (outcomes s.reads) = (t, []) := by
                simp only [gpsFramer, iteration, GpsExit.delivered]
              have call : parseGPS outcomes (cycles + 1) s = parseGPS outcomes cycles t := by
                simp only [parseGPS, iteration]
              rw [call, outcomesFrom_succ, Mealy.finish_cons, Mealy.outputs, first, ← reads]
              exact ⟨state, sentences, more.trans (by omega)⟩
          | overflow =>
              refine ⟨1, Nat.succ_le_succ (Nat.zero_le _), ?_⟩
              simp only [parseGPS, iteration, outcomesFrom_succ, Mealy.finish_cons, Mealy.outputs,
                gpsFramer, GpsExit.delivered]
              exact ⟨rfl, rfl, reads⟩
          | found sentence =>
              refine ⟨1, Nat.succ_le_succ (Nat.zero_le _), ?_⟩
              simp only [parseGPS, iteration, outcomesFrom_succ, Mealy.finish_cons, Mealy.outputs,
                gpsFramer, GpsExit.delivered]
              exact ⟨rfl, rfl, reads⟩

/-- Calls make the iterations for the reads that they have made, by induction on the calls. -/
theorem parseCalls_eq (outcomes : ℕ → Option UInt8) (calls : List ℕ) (s : Gps)
    : ∃ count,
        (parseCalls outcomes calls s).1
            = gpsFramer.finish s (outcomesFrom outcomes s.reads count)
          ∧ (parseCalls outcomes calls s).2
            = gpsFramer.outputs s (outcomesFrom outcomes s.reads count)
          ∧ (parseCalls outcomes calls s).1.reads = s.reads + count := by
  induction calls generalizing s with
  | nil => exact ⟨0, rfl, rfl, rfl⟩
  | cons cycles rest ih =>
      obtain ⟨first, -, state, sentence, reads⟩ := parseGPS_eq outcomes cycles s
      obtain ⟨second, last, more, end_⟩ := ih (parseGPS outcomes cycles s).1
      refine ⟨first + second, ?_, ?_, ?_⟩
      · rw [outcomesFrom_add, Mealy.finish_append, ← state, ← reads]
        exact last
      · rw [outcomesFrom_add, Mealy.outputs_append, ← state, ← reads, ← sentence]
        exact congrArg (_ ++ ·) more
      · rw [← Nat.add_assoc, ← reads]
        exact end_

end Granum.Flight
