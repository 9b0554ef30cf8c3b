import Granum.Flight.GpsParser
import Granum.Library.SegmentFramer

/-! What `_parseGPS` delivers: the segments of a one-pass reference as long as every read
succeeds. A read that fails moves the position as well.
-/

namespace Granum.Flight

/-- A sentence begins with a dollar sign and ends with CR LF; the buffer has no place for one of
256 characters.
-/
def gpsFraming : Framing UInt8 where
  opening := dollar
  closing := [carriageReturn, lineFeed]
  limit := msgBufSize
  closing_ne := List.cons_ne_nil _ _
  opening_notMem := by decide
  one_lt_limit := by decide

namespace Gps

variable (s : Gps)

/-- The state without what is left in the buffer behind the position. -/
def collected : Collector UInt8 := ⟨s.reads, s.segment⟩

@[simp] theorem length_segment : s.segment.length = s.msgCarret := by
  simp [segment]

theorem segment_eq_nil : s.segment = [] ↔ s.msgCarret = 0 := by
  simp [segment]

/-- The state after a read at the position, which moves it. -/
def advance (outcome : Option UInt8) : Gps :=
  { s.read outcome s.msgCarret with msgCarret := s.msgCarret + 1 }

theorem segment_advance (byte : UInt8)
    : (s.advance (some byte)).segment = s.segment ++ [byte] := by
  have kept : (List.range s.msgCarret).map (Function.update s.msgBuffer s.msgCarret byte)
      = s.segment := by
    apply List.map_congr_left
    intro index mem
    exact Function.update_of_ne (List.mem_range.mp mem).ne _ _
  change (List.range (s.msgCarret + 1)).map (Function.update s.msgBuffer s.msgCarret byte) = _
  rw [List.range_succ, List.map_append, kept, List.map_singleton, Function.update_self]

/-- The last two characters of the segment. -/
theorem closing_suffix {position : ℕ} (h : s.msgCarret = position + 2)
    : gpsFraming.closing <:+ s.segment
      ↔ s.msgBuffer (s.msgCarret - 2) = carriageReturn
        ∧ s.msgBuffer (s.msgCarret - 1) = lineFeed := by
  have split : s.segment = (List.range position).map s.msgBuffer
      ++ [s.msgBuffer position, s.msgBuffer (position + 1)] := by
    simp [segment, h, List.range_succ]
  rw [split, h]
  constructor
  · intro suffix
    have last := List.suffix_of_suffix_length_le suffix (List.suffix_append _ _) le_rfl
    obtain ⟨return_, feed⟩ := List.cons.inj (last.eq_of_length rfl)
    exact ⟨return_.symm, (List.cons.inj feed).1.symm⟩
  · rintro ⟨return_, feed⟩
    exact ⟨_, congrArg _ (congrArg₂ (fun a b => [a, b]) return_.symm feed.symm)⟩

theorem iterate_idle (outcome : Option UInt8) (idle : s.msgCarret = 0)
    : s.iterate outcome
      = ({ s.read outcome 0 with
            msgCarret := if (s.read outcome 0).msgBuffer 0 = dollar then 1 else 0 }, .next) := by
  have kept : (s.read outcome 0).msgCarret = 0 := by
    cases outcome <;> exact idle
  rw [iterate, if_pos idle]
  dsimp only
  split_ifs with opens
  · rw [kept]
  · exact congrArg (fun position => ({ s.read outcome 0 with msgCarret := position }, _)) kept

theorem iterate_advance (outcome : Option UInt8) (h : s.msgCarret ≠ 0)
    : s.iterate outcome
      = if msgBufSize ≤ s.msgCarret + 1 then ({ s.advance outcome with msgCarret := 0 }, .overflow)
        else if gpsFraming.closing <:+ (s.advance outcome).segment then
          ({ (s.advance outcome).store (s.msgCarret + 1) 0 with msgCarret := 0 },
            .found (s.advance outcome).segment)
        else (s.advance outcome, .next) := by
  obtain ⟨position, carret⟩ := Nat.exists_eq_succ_of_ne_zero h
  have closing := (s.advance outcome).closing_suffix (congrArg (· + 1) carret)
  simp only [closing]
  exact if_neg h

/-- An iteration is a step of the framer that has no buffer. -/
theorem step_collected (byte : UInt8)
    : gpsFraming.collector.step s.collected byte
      = ((gpsFramer.step s (some byte)).1.collected, (gpsFramer.step s (some byte)).2) := by
  have limit : gpsFraming.limit = msgBufSize := rfl
  have opening : gpsFraming.opening = dollar := rfl
  by_cases idle : s.msgCarret = 0
  · have none : s.segment = [] := s.segment_eq_nil.mpr idle
    have first : (s.read (some byte) 0).msgBuffer 0 = byte := by
      simp [read, store]
    rw [collected, none, Framing.step_idle, opening, gpsFramer_step, s.iterate_idle _ idle, first]
    by_cases opens : byte = dollar
    · rw [if_pos opens, if_pos opens]
      have segment : [byte] = [(s.read (some byte) 0).msgBuffer 0] := by rw [first]
      exact congrArg (fun segment => ((⟨s.reads + 1, segment⟩ : Collector UInt8), [])) segment
    · rw [if_neg opens, if_neg opens]
      rfl
  · have opened : s.segment ≠ [] := fun none => idle (s.segment_eq_nil.mp none)
    have added := s.segment_advance byte
    rw [collected, Framing.step_open _ _ _ opened, length_segment, limit, ← added,
      gpsFramer_step, s.iterate_advance _ idle]
    by_cases long : msgBufSize ≤ s.msgCarret + 1
    · rw [if_pos long, if_pos long]
      rfl
    · rw [if_neg long, if_neg long]
      by_cases closing : gpsFraming.closing <:+ (s.advance (some byte)).segment
      · rw [if_pos closing, if_pos closing]
        rfl
      · rw [if_neg closing, if_neg closing]
        rfl

/-- What a byte can do to the segment, with what is delivered. -/
theorem step_cases (byte : UInt8)
    : ((gpsFramer.step s (some byte)).1.segment = [] ∧ (gpsFramer.step s (some byte)).2 = [])
      ∨ ((gpsFramer.step s (some byte)).1.segment = s.segment ++ [byte]
        ∧ (gpsFramer.step s (some byte)).2 = [])
      ∨ ((gpsFramer.step s (some byte)).1.segment = []
        ∧ (gpsFramer.step s (some byte)).2 = [(s.reads + 1, s.segment ++ [byte])]) := by
  have step := s.step_collected byte
  rcases gpsFraming.step_cases s.collected byte with none | added | ended
  · obtain ⟨state, sentences⟩ := Prod.mk.inj (none.symm.trans step)
    exact Or.inl ⟨(congrArg Collector.segment state).symm, sentences.symm⟩
  · obtain ⟨state, sentences⟩ := Prod.mk.inj (added.symm.trans step)
    exact Or.inr (Or.inl ⟨(congrArg Collector.segment state).symm, sentences.symm⟩)
  · obtain ⟨state, sentences⟩ := Prod.mk.inj (ended.symm.trans step)
    exact Or.inr (Or.inr ⟨(congrArg Collector.segment state).symm, sentences.symm⟩)

end Gps

-----------------------------------------------------------------------------------------
-- The buffer is large enough
-----------------------------------------------------------------------------------------

/-- The position, and what has been written, lie in the buffer. -/
structure Gps.InBounds (s : Gps) : Prop where
  msgCarret : s.msgCarret < msgBufSize
  writes : ∀ index ∈ s.writes, index < msgBufSize

namespace Gps.InBounds

variable {s : Gps}

theorem start : InBounds {} := ⟨by decide, List.forall_mem_nil _⟩

theorem at_position (h : s.InBounds) {position : ℕ} (inside : position < msgBufSize)
    : InBounds { s with msgCarret := position } :=
  ⟨inside, h.writes⟩

theorem store (h : s.InBounds) {index : ℕ} (value : UInt8) (inside : index < msgBufSize)
    : (s.store index value).InBounds := by
  refine ⟨h.msgCarret, ?_⟩
  intro written mem
  rcases List.mem_append.mp mem with earlier | now
  · exact h.writes written earlier
  · exact List.mem_singleton.mp now ▸ inside

theorem read (h : s.InBounds) (outcome : Option UInt8) {index : ℕ} (inside : index < msgBufSize)
    : (s.read outcome index).InBounds := by
  have counted : InBounds { s with reads := s.reads + 1 } := ⟨h.msgCarret, h.writes⟩
  cases outcome with
  | none => exact counted
  | some byte => exact counted.store byte inside

/-- An iteration stays in the buffer: it ends the sentence before the position gets out. -/
theorem iterate (h : s.InBounds) (outcome : Option UInt8) : (s.iterate outcome).1.InBounds := by
  by_cases idle : s.msgCarret = 0
  · rw [s.iterate_idle outcome idle]
    refine (h.read outcome (by decide)).at_position ?_
    split_ifs <;> decide
  · have read := h.read outcome h.msgCarret
    rw [s.iterate_advance outcome idle]
    split_ifs with long closing
    · exact read.at_position (by decide)
    · have advanced := read.at_position (not_le.mp long)
      exact (advanced.store 0 (not_le.mp long)).at_position (by decide)
    · exact read.at_position (not_le.mp long)

end Gps.InBounds

-----------------------------------------------------------------------------------------
-- Every read succeeds
-----------------------------------------------------------------------------------------

/-- As long as every read succeeds the framer that has no buffer delivers the same, by induction
on the bytes.
-/
theorem gpsFramer_eq_collector (bytes : List UInt8) (s : Gps)
    : gpsFramer.outputs s (bytes.map some) = gpsFraming.collector.outputs s.collected bytes
      ∧ (gpsFramer.finish s (bytes.map some)).collected
        = gpsFraming.collector.finish s.collected bytes := by
  induction bytes generalizing s with
  | nil => exact ⟨rfl, rfl⟩
  | cons byte rest ih =>
      obtain ⟨outputs, finish⟩ := ih (gpsFramer.step s (some byte)).1
      rw [List.map_cons, Mealy.outputs, Mealy.finish_cons, Mealy.outputs, Mealy.finish_cons,
        s.step_collected byte]
      exact ⟨congrArg (_ ++ ·) outputs, finish⟩

/-- The sentences that calls deliver, with the numbers of reads at these times. -/
def deliveries (outcomes : ℕ → Option UInt8) (calls : List ℕ) : List (ℕ × List UInt8) :=
  (parseCalls outcomes calls {}).2

/-- The bytes that calls read. -/
def consumed (bytes : ℕ → UInt8) (calls : List ℕ) : List UInt8 :=
  (List.range (parseCalls (some ∘ bytes) calls {}).1.reads).map bytes

/-- What calls deliver is what the framer that has no buffer delivers. -/
theorem deliveries_eq_collector (bytes : ℕ → UInt8) (calls : List ℕ)
    : deliveries (some ∘ bytes) calls = gpsFraming.collector.outputs {} (consumed bytes calls) := by
  obtain ⟨count, -, delivered, reads⟩ := parseCalls_eq (some ∘ bytes) calls {}
  have outcomes : outcomesFrom (some ∘ bytes) 0 count = (consumed bytes calls).map some := by
    rw [consumed, reads, List.map_map, outcomesFrom, List.range_eq_range', Nat.zero_add]
  rw [deliveries, delivered, outcomes]
  exact (gpsFramer_eq_collector (consumed bytes calls) {}).1

/-- As long as every read succeeds, no call writes or ends outside the buffer or reads more bytes
than its cycles, and the calls deliver the sentences of the reference, which do not depend on
how the bytes are divided among the calls.
-/
theorem parseGPS_frames (bytes : ℕ → UInt8) (calls : List ℕ)
    : (parseCalls (some ∘ bytes) calls {}).1.InBounds
      ∧ (∀ cycles s, (parseGPS (some ∘ bytes) cycles s).1.reads ≤ s.reads + cycles)
      ∧ deliveries (some ∘ bytes) calls = (gpsFraming.reference 0 (consumed bytes calls)).1
      ∧ ∀ others divided, consumed others divided = consumed bytes calls
        → deliveries (some ∘ others) divided = deliveries (some ∘ bytes) calls := by
  refine ⟨?_, ?_, ?_, ?_⟩
  · obtain ⟨count, state, -⟩ := parseCalls_eq (some ∘ bytes) calls {}
    rw [state]
    exact gpsFramer.finish_invariant (fun _ outcome h => h.iterate outcome) .start _
  · intro cycles s
    obtain ⟨count, bound, -, -, reads⟩ := parseGPS_eq (some ∘ bytes) cycles s
    rw [reads]
    exact Nat.add_le_add_left bound _
  · rw [deliveries_eq_collector]
    exact (gpsFraming.collector_eq_reference_of_idle _ 0).1
  · intro others divided same
    rw [deliveries_eq_collector, deliveries_eq_collector, same]

def gpsSentence (body : List UInt8) : List UInt8 := dollar :: body ++ [carriageReturn, lineFeed]

/-- A sentence that fits is delivered at its last byte exactly if the reference has no segment
open after what comes before it. It does not matter whether the body has a dollar sign: the
framer only looks for one while no segment is open.
-/
theorem resynchronised_iff {bytes : ℕ → UInt8} {calls : List ℕ} {junk body : List UInt8}
    (return_notMem : carriageReturn ∉ body) (feed_notMem : lineFeed ∉ body)
    (short : (gpsSentence body).length ≤ 255)
    (read : junk ++ gpsSentence body <+: consumed bytes calls)
    : (junk.length + (gpsSentence body).length, gpsSentence body)
        ∈ deliveries (some ∘ bytes) calls
      ↔ (gpsFraming.reference 0 junk).2 = [] := by
  have fits : gpsFraming.Body body := by
    refine ⟨?_, Nat.lt_succ_of_le short⟩
    intro symbol mem closing
    rcases List.mem_pair.mp closing with rfl | rfl
    · exact return_notMem mem
    · exact feed_notMem mem
  obtain ⟨more, consumed⟩ := read
  rw [deliveries_eq_collector, ← consumed]
  exact gpsFraming.delivered_after_iff fits junk more

/-- The bytes of a list, and zeros. -/
def streamOf (bytes : List UInt8) (index : ℕ) : UInt8 := bytes.getD index 0

/-- A sentence after one that has come completely. -/
theorem resynchronised_iff_complete
    : (8, gpsSentence [71]) ∈ deliveries
          (some ∘ streamOf (gpsSentence [65] ++ gpsSentence [71])) [3, 100, 4]
      ↔ (gpsFraming.reference 0 (gpsSentence [65])).2 = [] := by
  have read : gpsSentence [65] ++ gpsSentence [71]
      <+: consumed (streamOf (gpsSentence [65] ++ gpsSentence [71])) [3, 100, 4] := by
    decide
  exact resynchronised_iff (by simp [carriageReturn]) (by simp [lineFeed]) (by simp [gpsSentence])
    read

/-- The beginning of a sentence swallows the next one. -/
theorem truncated_swallows
    : ∃ bytes calls, consumed bytes calls = [dollar, 71] ++ gpsSentence [65]
        ∧ (6, gpsSentence [65]) ∉ deliveries (some ∘ bytes) calls :=
  ⟨streamOf ([dollar, 71] ++ gpsSentence [65]), [6], by decide, by decide⟩

-----------------------------------------------------------------------------------------
-- Reads that fail
-----------------------------------------------------------------------------------------

/-- The bytes of the successful reads from one number of reads to another. -/
def received (outcomes : ℕ → Option UInt8) (start stop : ℕ) : List UInt8 :=
  (outcomesFrom outcomes start (stop - start)).reduceOption

/-- Each sentence consists of bytes received since the one before it, in order. -/
def FromReads (outcomes : ℕ → Option UInt8) : ℕ → List (ℕ × List UInt8) → Prop
  | _, [] => True
  | start, (stop, sentence) :: rest =>
      sentence.Sublist (received outcomes start stop) ∧ FromReads outcomes stop rest

/-- A read that fails leaves the position where it is. -/
def StaysIdle (s : Gps) (outcome : Option UInt8) : Prop :=
  outcome = none → s.msgCarret = 0 ∧ s.msgBuffer 0 ≠ dollar

theorem received_succ (outcomes : ℕ → Option UInt8) {start stop : ℕ} (le : start ≤ stop)
    : received outcomes start (stop + 1)
      = received outcomes start stop ++ (outcomes stop).toList := by
  have count : stop + 1 - start = stop - start + 1 := Nat.succ_sub le
  rw [received, count, outcomesFrom_add, Nat.add_sub_cancel' le, List.reduceOption_append]
  exact congrArg (_ ++ ·) (List.reduceOption_singleton (outcomes stop))

/-- An iteration in which no read that fails moves the position keeps what has been received in
the segment, or delivers it.
-/
theorem step_received (outcomes : ℕ → Option UInt8) {start : ℕ} {s : Gps} (le : start ≤ s.reads)
    (segment : s.segment.Sublist (received outcomes start s.reads))
    (condition : StaysIdle s (outcomes s.reads))
    : ((gpsFramer.step s (outcomes s.reads)).2 = []
        ∧ (gpsFramer.step s (outcomes s.reads)).1.segment.Sublist
          (received outcomes start (s.reads + 1)))
      ∨ ((gpsFramer.step s (outcomes s.reads)).1.segment = []
        ∧ ∃ sentence, (gpsFramer.step s (outcomes s.reads)).2 = [(s.reads + 1, sentence)]
          ∧ sentence.Sublist (received outcomes start (s.reads + 1))) := by
  have seen := received_succ outcomes le
  cases outcome : outcomes s.reads with
  | none =>
      obtain ⟨idle, other⟩ := condition outcome
      rw [gpsFramer_step, s.iterate_idle none idle]
      have still : (s.read none 0).msgBuffer 0 ≠ dollar := other
      rw [if_neg still]
      exact Or.inl ⟨rfl, List.nil_sublist _⟩
  | some byte =>
      have pushed : (s.segment ++ [byte]).Sublist (received outcomes start (s.reads + 1)) := by
        rw [seen, outcome]
        exact segment.append_right [byte]
      rcases s.step_cases byte with ⟨closed, silent⟩ | ⟨added, silent⟩ | ⟨closed, delivered⟩
      · refine Or.inl ⟨silent, ?_⟩
        rw [closed]
        exact List.nil_sublist _
      · refine Or.inl ⟨silent, ?_⟩
        rw [added]
        exact pushed
      · exact Or.inr ⟨closed, s.segment ++ [byte], delivered, pushed⟩

/-- Runs in which no read that fails moves the position, by induction on the reads: the segment
has been received since the last sentence.
-/
theorem fromReads_outputs (outcomes : ℕ → Option UInt8) (count : ℕ) {start : ℕ} {s : Gps}
    (le : start ≤ s.reads) (segment : s.segment.Sublist (received outcomes start s.reads))
    (meets : gpsFramer.Meets StaysIdle s (outcomesFrom outcomes s.reads count))
    : FromReads outcomes start (gpsFramer.outputs s (outcomesFrom outcomes s.reads count)) := by
  induction count generalizing start s with
  | zero => trivial
  | succ count ih =>
      rw [outcomesFrom_succ] at meets ⊢
      obtain ⟨condition, meets⟩ := meets
      have step := step_received outcomes le segment condition
      have reads : (gpsFramer.step s (outcomes s.reads)).1.reads = s.reads + 1 :=
        s.reads_iterate _
      have later : start ≤ (gpsFramer.step s (outcomes s.reads)).1.reads :=
        reads ▸ Nat.le_succ_of_le le
      rw [← reads] at meets step ⊢
      rw [Mealy.outputs]
      rcases step with ⟨silent, kept⟩ | ⟨closed, sentence, delivered, kept⟩
      · rw [silent]
        exact ih later kept meets
      · rw [delivered]
        refine ⟨kept, ih le_rfl ?_ meets⟩
        rw [closed]
        exact List.nil_sublist _

/-- In every run in which no read that fails moves the position, the sentences consist of bytes
received since the one before.
-/
theorem deliveries_fromReads {outcomes : ℕ → Option UInt8} {calls : List ℕ}
    (meets : gpsFramer.Meets StaysIdle {}
      (outcomesFrom outcomes 0 (parseCalls outcomes calls {}).1.reads))
    : FromReads outcomes 0 (deliveries outcomes calls) := by
  obtain ⟨count, -, delivered, reads⟩ := parseCalls_eq outcomes calls {}
  rw [reads, Nat.zero_add] at meets
  rw [deliveries, delivered]
  exact fromReads_outputs outcomes count le_rfl (List.nil_sublist _) meets

/-- A read that fails before the sentence comes. -/
def lateSentence (index : ℕ) : Option UInt8 := (none :: (gpsSentence [65]).map some).getD index none

theorem deliveries_fromReads_late : FromReads lateSentence 0 (deliveries lateSentence [2, 3]) := by
  have reads : (parseCalls lateSentence [2, 3] {}).1.reads = 5 := by decide
  apply deliveries_fromReads
  rw [reads]
  have succeeds : ∀ s byte, StaysIdle s (some byte) := by
    intro s byte failed
    cases failed
  exact ⟨fun _ => ⟨rfl, by decide⟩, succeeds _ _, succeeds _ _, succeeds _ _, succeeds _ _, trivial⟩

/-- After a sentence every read fails. -/
def lostFix (index : ℕ) : Option UInt8 := ((gpsSentence []).map some).getD index none

/-- Reads that fail deliver the sentence that they find in the buffer. -/
theorem lostFix_again : ¬ FromReads lostFix 0 (deliveries lostFix [100, 100]) := by
  have delivered : deliveries lostFix [100, 100] = [(3, gpsSentence []), (6, gpsSentence [])] := by
    decide
  rw [delivered]
  rintro ⟨-, again, -⟩
  have received : received lostFix 3 6 = [] := by decide
  rw [received] at again
  exact absurd again (by decide)

end Granum.Flight
