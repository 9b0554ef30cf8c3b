import Granum.Library.Mealy

/-! Segments of a stream that begin with an opening symbol and end with a closing word. A framer
that reads the symbols one by one drops a segment that reaches its limit.
-/

/-- What begins a segment, what ends it, and the length at which it is dropped. -/
structure Framing (α : Type*) where
  opening : α
  closing : List α
  limit : ℕ
  closing_ne : closing ≠ []
  opening_notMem : opening ∉ closing
  one_lt_limit : 1 < limit

/-- The number of symbols read and the segment that is open, if any. -/
structure Collector (α : Type*) where
  position : ℕ := 0
  segment : List α := []

namespace Framing

section Opening

variable {α : Type*} (f : Framing α)

/-- A segment that has begun, has not ended and stays below the limit. -/
structure Open (segment : List α) : Prop where
  begins : segment.head? = some f.opening
  unended : ∀ stop ≤ segment.length, ¬ f.closing <:+ segment.take stop
  short : segment.length < f.limit

namespace Open

variable {f} {segment : List α}

theorem opening : f.Open [f.opening] := by
  refine ⟨rfl, ?_, f.one_lt_limit⟩
  intro stop _ suffix
  obtain ⟨symbol, last⟩ := List.exists_mem_of_ne_nil f.closing f.closing_ne
  have begins := List.mem_of_mem_take (suffix.subset last)
  exact f.opening_notMem (List.mem_singleton.mp begins ▸ last)

theorem ne_nil (h : f.Open segment) : segment ≠ [] := by
  rintro rfl
  exact absurd h.begins (by simp)

theorem push {symbol : α} (h : f.Open segment) (short : ¬ f.limit ≤ segment.length + 1)
    (unended : ¬ f.closing <:+ segment ++ [symbol])
    : f.Open (segment ++ [symbol]) := by
  refine ⟨by rw [List.head?_append, h.begins]; rfl, ?_, by simpa using short⟩
  intro stop inside
  rw [List.length_append, List.length_singleton] at inside
  rcases Nat.lt_or_eq_of_le inside with earlier | rfl
  · rw [List.take_append_of_le_length (Nat.le_of_lt_succ earlier)]
    exact h.unended stop (Nat.le_of_lt_succ earlier)
  · rwa [List.take_of_length_le (by simp)]

end Open

end Opening

variable {α : Type*} [DecidableEq α] (f : Framing α)

/-- Reads one symbol, and delivers a segment that it ends with the position after it. -/
def collect (c : Collector α) (symbol : α) : Collector α × List (ℕ × List α) :=
  if c.segment = [] then
    (⟨c.position + 1, if symbol = f.opening then [symbol] else []⟩, [])
  else if f.limit ≤ c.segment.length + 1 then (⟨c.position + 1, []⟩, [])
  else if f.closing <:+ c.segment ++ [symbol] then
    (⟨c.position + 1, []⟩, [(c.position + 1, c.segment ++ [symbol])])
  else (⟨c.position + 1, c.segment ++ [symbol]⟩, [])

def collector : Mealy (Collector α) α (ℕ × List α) := ⟨f.collect⟩

theorem step_idle (position : ℕ) (symbol : α)
    : f.collector.step ⟨position, []⟩ symbol
      = (⟨position + 1, if symbol = f.opening then [symbol] else []⟩, []) := rfl

theorem step_open (position : ℕ) {segment : List α} (symbol : α) (h : segment ≠ [])
    : f.collector.step ⟨position, segment⟩ symbol
      = if f.limit ≤ segment.length + 1 then (⟨position + 1, []⟩, [])
        else if f.closing <:+ segment ++ [symbol] then
          (⟨position + 1, []⟩, [(position + 1, segment ++ [symbol])])
        else (⟨position + 1, segment ++ [symbol]⟩, []) :=
  if_neg h

/-- What a symbol can do: none is open after it, it is added to the segment, or the segment is
delivered with it.
-/
theorem step_cases (c : Collector α) (symbol : α)
    : f.collector.step c symbol = (⟨c.position + 1, []⟩, [])
      ∨ f.collector.step c symbol = (⟨c.position + 1, c.segment ++ [symbol]⟩, [])
      ∨ f.collector.step c symbol
        = (⟨c.position + 1, []⟩, [(c.position + 1, c.segment ++ [symbol])]) := by
  simp only [collector, collect]
  split_ifs with idle
  · exact Or.inr (Or.inl (by rw [idle]; rfl))
  · exact Or.inl rfl
  · exact Or.inl rfl
  · exact Or.inr (Or.inr rfl)
  · exact Or.inr (Or.inl rfl)

theorem position_step (c : Collector α) (symbol : α)
    : (f.collector.step c symbol).1.position = c.position + 1 := by
  rcases f.step_cases c symbol with none | added | ended
  · rw [none]
  · rw [added]
  · rw [ended]

theorem eq_of_mem_step {c : Collector α} {symbol : α} {delivery : ℕ × List α}
    (delivered : delivery ∈ (f.collector.step c symbol).2)
    : delivery = (c.position + 1, c.segment ++ [symbol]) := by
  rcases f.step_cases c symbol with none | added | ended
  · rw [none] at delivered
    exact absurd delivered List.not_mem_nil
  · rw [added] at delivered
    exact absurd delivered List.not_mem_nil
  · rw [ended] at delivered
    exact List.mem_singleton.mp delivered

/-- Every symbol counts, by induction on the symbols. -/
theorem position_finish (c : Collector α) (symbols : List α)
    : (f.collector.finish c symbols).position = c.position + symbols.length := by
  induction symbols generalizing c with
  | nil => rfl
  | cons symbol rest ih =>
      rw [Mealy.finish_cons, ih, position_step, List.length_cons, Nat.add_right_comm, Nat.add_assoc]

/-- The length of the shortest part from the beginning that ends with the closing word. -/
def firstEnd (symbols : List α) : Option ℕ :=
  (List.range (symbols.length + 1)).find? fun stop => f.closing <:+ symbols.take stop

theorem firstEnd_eq_some {symbols : List α} {stop : ℕ}
    : f.firstEnd symbols = some stop
      ↔ f.closing <:+ symbols.take stop ∧ stop ≤ symbols.length
        ∧ ∀ earlier < stop, ¬ f.closing <:+ symbols.take earlier := by
  simp [firstEnd, List.find?_range_eq_some]

theorem firstEnd_eq_none {symbols : List α}
    : f.firstEnd symbols = none
      ↔ ∀ stop ≤ symbols.length, ¬ f.closing <:+ symbols.take stop := by
  simp [firstEnd]

theorem firstEnd_pos {symbols : List α} {stop : ℕ} (ended : f.firstEnd symbols = some stop)
    : 0 < stop := by
  obtain ⟨suffix, -, -⟩ := f.firstEnd_eq_some.mp ended
  rcases Nat.eq_zero_or_pos stop with rfl | positive
  · exact absurd (List.suffix_nil.mp suffix) f.closing_ne
  · exact positive

/-- The segments in one pass, with the positions after them, and what is still open at the end:
skip up to an opening symbol, deliver up to the first closing word if that stays below the
limit, or drop as many symbols as the limit says.
-/
def reference (start : ℕ) : List α → List (ℕ × List α) × List α
  | [] => ([], [])
  | symbol :: rest =>
      if symbol = f.opening then
        match _ended : (f.firstEnd (symbol :: rest)).filter (· < f.limit) with
        | some stop =>
            let (segments, pending) := reference (start + stop) ((symbol :: rest).drop stop)
            ((start + stop, (symbol :: rest).take stop) :: segments, pending)
        | none =>
            if f.limit ≤ (symbol :: rest).length then
              reference (start + f.limit) ((symbol :: rest).drop f.limit)
            else ([], symbol :: rest)
      else reference (start + 1) rest
termination_by symbols => symbols.length
decreasing_by
  · have positive := f.firstEnd_pos (Option.filter_eq_some_iff.mp _ended).1
    rw [List.length_drop, List.length_cons]
    omega
  · have positive := f.one_lt_limit
    rw [List.length_drop, List.length_cons]
    omega
  · exact Nat.lt_succ_self _

/-- Symbols before an opening symbol are skipped. -/
theorem reference_skip (start : ℕ) {symbol : α} (rest : List α) (other : symbol ≠ f.opening)
    : f.reference start (symbol :: rest) = f.reference (start + 1) rest := by
  rw [reference, if_neg other]

namespace Open

variable {f} {segment : List α}

/-- The first closing word after an open segment lies beyond it. -/
theorem length_lt {rest : List α} {stop : ℕ} (h : f.Open segment)
    (ended : f.firstEnd (segment ++ rest) = some stop)
    : segment.length < stop := by
  by_contra earlier
  rw [not_lt] at earlier
  have suffix := (f.firstEnd_eq_some.mp ended).1
  rw [List.take_append_of_le_length earlier] at suffix
  exact h.unended stop earlier suffix

/-- The reference begins with the segment that is open. -/
theorem reference_eq (h : f.Open segment) (start : ℕ) (rest : List α)
    : f.reference start (segment ++ rest)
      = match (f.firstEnd (segment ++ rest)).filter (· < f.limit) with
        | some stop =>
            ((start + stop, (segment ++ rest).take stop)
                :: (f.reference (start + stop) ((segment ++ rest).drop stop)).1,
              (f.reference (start + stop) ((segment ++ rest).drop stop)).2)
        | none =>
            if f.limit ≤ (segment ++ rest).length then
              f.reference (start + f.limit) ((segment ++ rest).drop f.limit)
            else ([], segment ++ rest) := by
  cases segment with
  | nil => exact absurd rfl h.ne_nil
  | cons symbol tail =>
      obtain rfl : symbol = f.opening := Option.some.inj h.begins
      rw [List.cons_append, reference, if_pos rfl]
      split <;> rename_i ended <;> rw [ended]

theorem reference_pending (h : f.Open segment) (start : ℕ)
    : f.reference start segment = ([], segment) := by
  have unended := f.firstEnd_eq_none.mpr h.unended
  have eq := h.reference_eq start []
  rw [List.append_nil] at eq
  rw [eq, unended]
  exact if_neg (Nat.not_le.mpr h.short)

theorem reference_deliver {symbol : α} (h : f.Open segment) (start : ℕ) (rest : List α)
    (short : ¬ f.limit ≤ segment.length + 1) (ended : f.closing <:+ segment ++ [symbol])
    : f.reference start (segment ++ symbol :: rest)
      = ((start + (segment.length + 1), segment ++ [symbol])
            :: (f.reference (start + (segment.length + 1)) rest).1,
          (f.reference (start + (segment.length + 1)) rest).2) := by
  have split : segment ++ symbol :: rest = segment ++ [symbol] ++ rest := by simp
  have length : (segment ++ [symbol]).length = segment.length + 1 := by simp
  have first : f.firstEnd (segment ++ symbol :: rest) = some (segment.length + 1) := by
    refine f.firstEnd_eq_some.mpr ⟨?_, by simp, ?_⟩
    · rwa [split, ← length, List.take_left]
    · intro stop earlier
      rw [List.take_append_of_le_length (Nat.le_of_lt_succ earlier)]
      exact h.unended stop (Nat.le_of_lt_succ earlier)
  have below : (some (segment.length + 1)).filter (fun stop => decide (stop < f.limit))
      = some (segment.length + 1) := by
    simpa using short
  rw [h.reference_eq, first, below, split, ← length]
  dsimp only
  rw [List.take_left, List.drop_left]

theorem reference_drop {symbol : α} (h : f.Open segment) (start : ℕ) (rest : List α)
    (long : f.limit ≤ segment.length + 1)
    : f.reference start (segment ++ symbol :: rest)
      = f.reference (start + (segment.length + 1)) rest := by
  have split : segment ++ symbol :: rest = segment ++ [symbol] ++ rest := by simp
  have limit : f.limit = (segment ++ [symbol]).length := by
    rw [List.length_append]
    exact le_antisymm long h.short
  have length : (segment ++ [symbol]).length = segment.length + 1 := by simp
  have late : (f.firstEnd (segment ++ symbol :: rest)).filter (· < f.limit) = none := by
    rw [Option.filter_eq_none_iff]
    intro stop ended
    have beyond := h.length_lt ended
    simpa using long.trans beyond
  have enough : f.limit ≤ (segment ++ symbol :: rest).length := by
    rw [split, List.length_append, limit]
    exact Nat.le_add_right _ _
  rw [h.reference_eq, late]
  dsimp only
  rw [if_pos enough, split, limit, List.drop_left, length]

end Open

/-- The framer delivers the segments of the reference, and keeps what is open at its end; by
induction on the symbols, from any state that has a segment open or none.
-/
theorem collector_eq_reference (symbols : List α) (start : ℕ) {segment : List α}
    (h : segment = [] ∨ f.Open segment)
    : f.collector.outputs ⟨start + segment.length, segment⟩ symbols
        = (f.reference start (segment ++ symbols)).1
      ∧ (f.collector.finish ⟨start + segment.length, segment⟩ symbols).segment
        = (f.reference start (segment ++ symbols)).2 := by
  induction symbols generalizing start segment with
  | nil =>
      rw [List.append_nil]
      rcases h with rfl | h
      · rw [reference]
        exact ⟨rfl, rfl⟩
      · rw [h.reference_pending]
        exact ⟨rfl, rfl⟩
  | cons symbol rest ih =>
      rw [Mealy.outputs, Mealy.finish_cons]
      rcases h with rfl | h
      · rw [List.length_nil, Nat.add_zero, step_idle]
        by_cases opens : symbol = f.opening
        · subst opens
          rw [if_pos rfl]
          exact ih start (Or.inr .opening)
        · rw [List.nil_append (symbol :: rest), if_neg opens, f.reference_skip start rest opens]
          exact ih (start + 1) (Or.inl rfl)
      · rw [step_open _ _ _ h.ne_nil, Nat.add_assoc]
        split_ifs with long ended
        · rw [h.reference_drop start rest long]
          exact ih (start + (segment.length + 1)) (Or.inl rfl)
        · have idle : ([] : List α) = [] ∨ f.Open [] := Or.inl rfl
          obtain ⟨outputs, finish⟩ := ih (start + (segment.length + 1)) idle
          rw [h.reference_deliver start rest long ended]
          exact ⟨congrArg (_ :: ·) outputs, finish⟩
        · have pushed := ih start (Or.inr (h.push long ended))
          rw [List.length_append, List.append_assoc] at pushed
          exact pushed

/-- From an idle framer on. -/
theorem collector_eq_reference_of_idle (symbols : List α) (position : ℕ)
    : f.collector.outputs ⟨position, []⟩ symbols = (f.reference position symbols).1
      ∧ (f.collector.finish ⟨position, []⟩ symbols).segment
        = (f.reference position symbols).2 :=
  f.collector_eq_reference symbols position (Or.inl rfl)

/-- Segments are delivered at the symbols that are read, by induction on them. -/
theorem position_of_mem_outputs {symbols : List α} {c : Collector α} {delivery : ℕ × List α}
    (delivered : delivery ∈ f.collector.outputs c symbols)
    : c.position < delivery.1 ∧ delivery.1 ≤ c.position + symbols.length := by
  induction symbols generalizing c with
  | nil => exact absurd delivered List.not_mem_nil
  | cons symbol rest ih =>
      rw [List.length_cons]
      rcases List.mem_append.mp delivered with now | later
      · rw [f.eq_of_mem_step now]
        omega
      · have position := ih later
        rw [position_step] at position
        omega

/-- A delivered segment begins where the open one does, or with a later symbol; by induction on
the symbols.
-/
theorem begin_of_mem_outputs {symbols : List α} {c : Collector α} {delivery : ℕ × List α}
    (delivered : delivery ∈ f.collector.outputs c symbols)
    : delivery.2.length + c.position = delivery.1 + c.segment.length
      ∨ delivery.2.length + c.position < delivery.1 := by
  induction symbols generalizing c with
  | nil => exact absurd delivered List.not_mem_nil
  | cons symbol rest ih =>
      rcases List.mem_append.mp delivered with now | later
      · rw [f.eq_of_mem_step now, List.length_append, List.length_singleton]
        omega
      · have begins := ih later
        rw [position_step] at begins
        rcases f.step_cases c symbol with none | added | ended
        · rw [none, List.length_nil] at begins
          omega
        · rw [added, List.length_append, List.length_singleton] at begins
          omega
        · rw [ended, List.length_nil] at begins
          omega

/-- What lies between the opening symbol and the closing word of a segment. -/
structure Body (body : List α) : Prop where
  disjoint : ∀ symbol ∈ body, symbol ∉ f.closing
  short : (f.opening :: body ++ f.closing).length < f.limit

/-- A closing word that comes after other symbols only ends with its last one. -/
theorem firstEnd_append_closing {before : List α} (disjoint : ∀ symbol ∈ before, symbol ∉ f.closing)
    : f.firstEnd (before ++ f.closing) = some (before ++ f.closing).length := by
  refine f.firstEnd_eq_some.mpr ⟨?_, le_rfl, ?_⟩
  · rw [List.take_length]
    exact List.suffix_append _ _
  · rintro stop earlier ⟨rest, split⟩
    rw [List.length_append] at earlier
    rw [List.take_append] at split
    have whole : f.closing.length ≤ (f.closing.take (stop - before.length)).length → False := by
      rw [List.length_take]
      have positive := List.length_pos_iff.mpr f.closing_ne
      omega
    rcases List.append_eq_append_iff.mp split with ⟨more, before_eq, closing⟩ | ⟨more, -, closing⟩
    · cases more with
      | nil => exact whole (congrArg List.length closing).le
      | cons symbol more =>
          have mem : symbol ∈ f.closing := closing ▸ List.mem_append_left _ List.mem_cons_self
          have inside : symbol ∈ before.take stop := by
            rw [before_eq]
            exact List.mem_append_right _ List.mem_cons_self
          exact disjoint symbol (List.mem_of_mem_take inside) mem
    · refine whole ?_
      rw [closing, List.length_append]
      exact Nat.le_add_left _ _

/-- Such a segment is delivered at its last symbol exactly if no segment is open before it. -/
theorem delivered_iff {body : List α} (h : f.Body body) (c : Collector α)
    : (c.position + (f.opening :: body ++ f.closing).length, f.opening :: body ++ f.closing)
        ∈ f.collector.outputs c (f.opening :: body ++ f.closing)
      ↔ c.segment = [] := by
  refine ⟨fun delivered => ?_, fun idle => ?_⟩
  · have begins := f.begin_of_mem_outputs delivered
    rw [← List.length_eq_zero_iff]
    simp only at begins
    omega
  · obtain ⟨position, segment⟩ := c
    obtain rfl : segment = [] := idle
    obtain ⟨outputs, -⟩ :=
      f.collector_eq_reference_of_idle (f.opening :: body ++ f.closing) position
    have ended : f.firstEnd (f.opening :: body ++ f.closing)
        = some (f.opening :: body ++ f.closing).length := by
      apply f.firstEnd_append_closing
      rintro symbol (_ | ⟨_, mem⟩)
      · exact f.opening_notMem
      · exact h.disjoint symbol mem
    have below : (some (f.opening :: body ++ f.closing).length).filter (· < f.limit)
        = some (f.opening :: body ++ f.closing).length := by
      simpa using h.short
    have begun : f.Open [f.opening] := .opening
    have whole : [f.opening] ++ (body ++ f.closing) = f.opening :: body ++ f.closing := rfl
    have eq := begun.reference_eq position (body ++ f.closing)
    rw [whole, ended, below] at eq
    dsimp only at eq
    rw [List.take_length] at eq
    rw [outputs, eq]
    exact List.mem_cons_self

/-- After other symbols and before more of them. -/
theorem delivered_after_iff {body : List α} (h : f.Body body) (junk more : List α)
    : (junk.length + (f.opening :: body ++ f.closing).length, f.opening :: body ++ f.closing)
        ∈ f.collector.outputs {} (junk ++ (f.opening :: body ++ f.closing) ++ more)
      ↔ (f.reference 0 junk).2 = [] := by
  set segment := f.opening :: body ++ f.closing
  set reached := f.collector.finish {} junk
  have position : reached.position = junk.length :=
    (f.position_finish {} junk).trans (Nat.zero_add _)
  have pending : reached.segment = (f.reference 0 junk).2 :=
    (f.collector_eq_reference_of_idle junk 0).2
  have positive : 0 < segment.length := Nat.succ_pos _
  rw [← pending, ← f.delivered_iff h reached, position, Mealy.outputs_append, Mealy.outputs_append]
  refine ⟨fun delivered => ?_, fun delivered => ?_⟩
  · rcases List.mem_append.mp delivered with early | late
    · rcases List.mem_append.mp early with earlier | now
      · have before := (f.position_of_mem_outputs earlier).2
        simp only at before
        omega
      · exact now
    · have after := (f.position_of_mem_outputs late).1
      rw [position_finish, List.length_append] at after
      simp only at after
      omega
  · exact List.mem_append_left _ (List.mem_append_right _ delivered)

end Framing
