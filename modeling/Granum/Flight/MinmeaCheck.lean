import Granum.Flight.Minmea

/-! What `minmea_check` accepts, and what one wrong byte can do to a sentence with a checksum. -/

namespace Granum.Flight

-----------------------------------------------------------------------------------------
-- The accepted strings
-----------------------------------------------------------------------------------------

/-- A string with what its checksum covers and what is left behind. -/
structure Covers (sentence body rest : List UInt8) : Prop where
  eq : sentence = dollar :: (body ++ rest)
  covered : ∀ c ∈ body, isCovered c
  stops : isCovered (deref rest) = false

/-- An asterisk and two digits, which are the checksum. -/
def Seals (body tag : List UInt8) : Prop :=
  ∃ upper lower u l, tag = [asterisk, upper, lower] ∧ hex2int upper = some u
    ∧ hex2int lower = some l ∧ (xorAll body).toNat = u <<< 4 ||| l

/-- What may stand at the end. -/
def newlines : List (List UInt8) := [[], [lineFeed], [carriageReturn, lineFeed]]

section Accepted

variable {sentence body rest : List UInt8} {strict : Bool}

theorem endsHere_iff : endsHere sentence = true ↔ sentence ∈ newlines := by
  simp [endsHere, newlines, or_assoc]

theorem hex2int_zero : hex2int 0 = none := rfl

theorem takeWhile_isCovered (covered : ∀ c ∈ body, isCovered c)
    (stops : isCovered (deref rest) = false)
    : (body ++ rest).takeWhile isCovered = body := by
  rw [List.takeWhile_append_of_pos covered]
  cases rest with
  | nil => simp
  | cons c rest =>
      have uncovered : ¬isCovered c = true := Bool.eq_false_iff.mp stops
      rw [List.takeWhile_cons_of_neg uncovered, List.append_nil]

theorem dropWhile_isCovered (covered : ∀ c ∈ body, isCovered c)
    (stops : isCovered (deref rest) = false)
    : (body ++ rest).dropWhile isCovered = rest := by
  rw [List.dropWhile_append_of_pos covered]
  cases rest with
  | nil => rfl
  | cons c rest => exact List.dropWhile_cons_of_neg (Bool.eq_false_iff.mp stops)

theorem deref_dropWhile (characters : List UInt8)
    : isCovered (deref (characters.dropWhile isCovered)) = false := by
  induction characters with
  | nil => decide
  | cons c rest ih =>
      by_cases covered : isCovered c
      · rwa [List.dropWhile_cons_of_pos covered]
      · rw [List.dropWhile_cons_of_neg covered]
        exact Bool.eq_false_iff.mpr covered

theorem Covers.check (covers : Covers sentence body rest) (strict : Bool)
    : minmeaCheck sentence strict
      = (decide (sentence.length ≤ minmeaMaxLength + 3) && checkEnd body rest strict) := by
  have first : deref sentence = dollar := by
    rw [covers.eq]
    rfl
  have tail : sentence.tail = body ++ rest := by
    rw [covers.eq, List.tail_cons]
  rw [minmeaCheck, first, tail, takeWhile_isCovered covers.covered covers.stops,
    dropWhile_isCovered covers.covered covers.stops]
  by_cases long : minmeaMaxLength + 3 < sentence.length
  · simp [long, not_le.mpr long]
  · simp [long, not_lt.mp long]

/-- Every string that is accepted has been gone through. -/
theorem covers_of_check (accepted : minmeaCheck sentence strict = true)
    : ∃ body rest, Covers sentence body rest := by
  obtain - | ⟨first, tail⟩ := sentence
  · simp [minmeaCheck, deref, dollar] at accepted
  · by_cases begins : first = dollar
    · exact ⟨tail.takeWhile isCovered, tail.dropWhile isCovered,
        by rw [List.takeWhile_append_dropWhile, begins],
        fun c member => List.mem_takeWhile_imp member, deref_dropWhile tail⟩
    · simp [minmeaCheck, deref, begins] at accepted

theorem checkEnd_cons (body : List UInt8) (upper lower : UInt8) (rest : List UInt8) (strict : Bool)
    : checkEnd body (asterisk :: upper :: lower :: rest) strict = true
      ↔ Seals body [asterisk, upper, lower] ∧ rest ∈ newlines := by
  rw [← endsHere_iff]
  cases high : hex2int upper with
  | none => simp [checkEnd, deref, high, Seals]
  | some u =>
      cases low : hex2int lower with
      | none => simp [checkEnd, deref, high, low, Seals]
      | some l =>
          by_cases sum : (xorAll body).toNat = u <<< 4 ||| l
          · simp [checkEnd, deref, high, low, Seals, sum]
          · simp [checkEnd, deref, high, low, Seals, sum]

theorem checkEnd_iff
    : checkEnd body rest strict = true
      ↔ (∃ tag newline, rest = tag ++ newline ∧ Seals body tag ∧ newline ∈ newlines)
        ∨ rest ∈ newlines ∧ strict = false := by
  have unsealed : ∀ newline ∈ newlines, deref newline ≠ asterisk := by decide
  by_cases begins : deref rest = asterisk
  · have apart : rest ∉ newlines := fun member => unsealed rest member begins
    simp only [apart, false_and, or_false]
    constructor
    · intro accepted
      obtain ⟨after, rfl⟩ : ∃ after, rest = asterisk :: after := by
        cases rest with
        | nil => cases begins
        | cons c after => exact ⟨after, congrArg (· :: after) begins⟩
      match after with
      | [] => simp [checkEnd, deref, hex2int_zero] at accepted
      | [upper] =>
          cases high : hex2int upper <;> simp [checkEnd, deref, high, hex2int_zero] at accepted
      | upper :: lower :: newline =>
          obtain ⟨seals, ends⟩ := (checkEnd_cons body upper lower newline strict).mp accepted
          exact ⟨[asterisk, upper, lower], newline, rfl, seals, ends⟩
    · rintro ⟨tag, newline, rfl, seals, ends⟩
      obtain ⟨upper, lower, u, l, rfl, -⟩ := id seals
      exact (checkEnd_cons body upper lower newline strict).mpr ⟨seals, ends⟩
  · rw [← endsHere_iff, checkEnd, if_neg begins]
    have untagged :
        ¬∃ tag newline, rest = tag ++ newline ∧ Seals body tag ∧ newline ∈ newlines := by
      rintro ⟨tag, newline, rfl, ⟨upper, lower, u, l, rfl, -⟩, -⟩
      exact begins rfl
    cases strict <;> simp [untagged]

/-- A string is accepted exactly if it fits, begins with a dollar sign and ends with a newline or
nothing, with a checksum before it that is right, or with none unless it is required. What is
covered is printed and has no asterisk.
-/
theorem minmeaCheck_iff (sentence : List UInt8) (strict : Bool)
    : minmeaCheck sentence strict = true
      ↔ sentence.length ≤ minmeaMaxLength + 3
        ∧ ∃ body tag newline, sentence = dollar :: (body ++ (tag ++ newline))
          ∧ (∀ c ∈ body, isPrint c ∧ c ≠ asterisk) ∧ newline ∈ newlines
          ∧ (Seals body tag ∨ tag = [] ∧ strict = false) := by
  have covered_iff : ∀ c, isCovered c = true ↔ isPrint c = true ∧ c ≠ asterisk := fun c => by
    simp [isCovered, and_comm]
  have ends : ∀ newline ∈ newlines, isCovered (deref newline) = false := by decide
  constructor
  · intro accepted
    obtain ⟨body, rest, covers⟩ := covers_of_check accepted
    rw [covers.check, Bool.and_eq_true, decide_eq_true_iff] at accepted
    refine ⟨accepted.1, ?_⟩
    have printed : ∀ c ∈ body, isPrint c ∧ c ≠ asterisk := fun c member =>
      (covered_iff c).mp (covers.covered c member)
    rcases checkEnd_iff.mp accepted.2 with ⟨tag, newline, rfl, seals, member⟩ | ⟨member, loose⟩
    · exact ⟨body, tag, newline, covers.eq, printed, member, Or.inl seals⟩
    · exact ⟨body, [], rest, covers.eq, printed, member, Or.inr ⟨rfl, loose⟩⟩
  · rintro ⟨short, body, tag, newline, eq, printed, member, seals⟩
    have stops : isCovered (deref (tag ++ newline)) = false := by
      rcases seals with ⟨upper, lower, u, l, rfl, -⟩ | ⟨rfl, -⟩
      · rfl
      · exact ends newline member
    have covers : Covers sentence body (tag ++ newline) :=
      ⟨eq, fun c inside => (covered_iff c).mpr (printed c inside), stops⟩
    rw [covers.check, Bool.and_eq_true, decide_eq_true_iff, checkEnd_iff]
    refine ⟨short, ?_⟩
    rcases seals with seals | ⟨rfl, loose⟩
    · exact Or.inl ⟨tag, newline, rfl, seals, member⟩
    · exact Or.inr ⟨member, loose⟩

end Accepted

-----------------------------------------------------------------------------------------
-- One wrong byte
-----------------------------------------------------------------------------------------

/-- One byte at most was changed, lost or added. -/
def OneByte (sent received : List UInt8) : Prop :=
  ∃ before old new after, sent = before ++ (old ++ after) ∧ received = before ++ (new ++ after)
    ∧ old.length ≤ 1 ∧ new.length ≤ 1

section OneByte

variable {sentence body rest : List UInt8}

/-- By induction on the characters, from the last. -/
theorem xorAll_append (first second : List UInt8)
    : xorAll (first ++ second) = xorAll first ^^^ xorAll second := by
  induction second using List.reverseRecOn with
  | nil => simp [xorAll]
  | append_singleton second c ih =>
      have concat : ∀ characters : List UInt8,
          xorAll (characters ++ [c]) = xorAll characters ^^^ c :=
        fun characters => List.foldl_concat _ _ _ _
      rw [← List.append_assoc, concat, concat, ih, UInt8.xor_assoc]

@[simp] theorem xorAll_nil : xorAll [] = 0 := rfl

@[simp] theorem xorAll_singleton (c : UInt8) : xorAll [c] = c := UInt8.zero_xor

theorem xorAll_cons (c : UInt8) (characters : List UInt8)
    : xorAll (c :: characters) = c ^^^ xorAll characters := by
  rw [← List.singleton_append, xorAll_append, xorAll_singleton]

theorem isCovered_ne_zero {c : UInt8} (covered : isCovered c) : c ≠ 0 := by
  rintro rfl
  exact absurd covered (by decide)

theorem cString_append (covered : ∀ c ∈ body, isCovered c) (rest : List UInt8)
    : cString (body ++ rest) = body ++ cString rest :=
  List.takeWhile_append_of_pos fun c member =>
    decide_eq_true (isCovered_ne_zero (covered c member))

theorem deref_cString (buffer : List UInt8) : deref (cString buffer) = deref buffer := by
  cases buffer with
  | nil => rfl
  | cons c rest =>
      by_cases zero : c = 0
      · simp [cString, deref, zero]
      · simp [cString, deref, zero]

theorem covers_cString (covered : ∀ c ∈ body, isCovered c) (stops : isCovered (deref rest) = false)
    : Covers (cString (dollar :: (body ++ rest))) body (cString rest) := by
  refine ⟨?_, covered, by rwa [deref_cString]⟩
  rw [← cString_append covered]
  rfl

theorem Covers.body_eq (covers : Covers sentence body rest)
    : body = sentence.tail.takeWhile isCovered := by
  rw [covers.eq, List.tail_cons, takeWhile_isCovered covers.covered covers.stops]

/-- What is covered is covered whatever comes behind it. -/
theorem Covers.isPrefix {start more : List UInt8} (covered : ∀ c ∈ start, isCovered c)
    (covers : Covers (cString (dollar :: (start ++ more))) body rest)
    : start <+: body := by
  have eq : cString (dollar :: (start ++ more)) = dollar :: (start ++ cString more) := by
    rw [← cString_append covered]
    rfl
  rw [covers.body_eq, eq, List.tail_cons, List.takeWhile_append_of_pos covered]
  exact List.prefix_append _ _

theorem Seals.xor_eq {body' tag : List UInt8} (seals : Seals body tag) (seals' : Seals body' tag)
    : xorAll body = xorAll body' := by
  obtain ⟨upper, lower, u, l, rfl, high, low, sum⟩ := seals
  obtain ⟨upper', lower', u', l', same, high', low', sum'⟩ := seals'
  simp only [List.cons.injEq, and_true, true_and] at same
  obtain ⟨rfl, rfl⟩ := same
  rw [high] at high'
  rw [low] at low'
  rw [← UInt8.toNat_inj, sum, sum', Option.some.inj high', Option.some.inj low']

/-- A tag that is still there covers what it did, as far as the checksum tells. -/
theorem xor_eq_of_tagged {body' tag newline : List UInt8} (seals : Seals body tag)
    (covered : ∀ c ∈ body', isCovered c)
    (accepted : minmeaCheck (cString (dollar :: (body' ++ (tag ++ newline)))) false = true)
    : xorAll body' = xorAll body := by
  obtain ⟨upper, lower, u, l, rfl, high, low, -⟩ := id seals
  have nonzero : ∀ c v, hex2int c = some v → c ≠ 0 := by
    rintro c v digit rfl
    cases digit
  have string : cString ([asterisk, upper, lower] ++ newline)
      = asterisk :: upper :: lower :: cString newline := by
    simp [cString, asterisk, nonzero upper u high, nonzero lower l low]
  have stops : isCovered (deref ([asterisk, upper, lower] ++ newline)) = false := rfl
  have covers := covers_cString covered stops
  rw [covers.check, Bool.and_eq_true, string, checkEnd_cons] at accepted
  exact accepted.2.1.xor_eq seals

/-- A checksum tells lists of one character at most apart. -/
theorem eq_of_xorAll {first second : List UInt8} (one : first.length ≤ 1) (one' : second.length ≤ 1)
    (covered : ∀ c ∈ first, isCovered c) (covered' : ∀ c ∈ second, isCovered c)
    (same : xorAll first = xorAll second)
    : first = second := by
  rcases first with _ | ⟨c, _ | ⟨c', more⟩⟩
  · rcases second with _ | ⟨d, _ | ⟨d', more⟩⟩
    · rfl
    · rw [xorAll_nil, xorAll_singleton] at same
      exact absurd same.symm (isCovered_ne_zero (covered' d (List.mem_singleton_self d)))
    · simp at one'
  · rcases second with _ | ⟨d, _ | ⟨d', more⟩⟩
    · rw [xorAll_nil, xorAll_singleton] at same
      exact absurd same (isCovered_ne_zero (covered c (List.mem_singleton_self c)))
    · rw [xorAll_singleton, xorAll_singleton] at same
      rw [same]
    · simp at one'
  · simp at one

/-- Where the wrong byte stands in what is covered, or is the asterisk behind it. -/
theorem oneByte_inside {before after old new tag newline more rest' body' : List UInt8}
    (covered : ∀ c ∈ before ++ more, isCovered c)
    (seals : Seals (before ++ more) tag) (position : old ++ after = more ++ (tag ++ newline))
    (lost : old.length ≤ 1) (added : new.length ≤ 1)
    (accepted : minmeaCheck (cString (dollar :: (before ++ (new ++ after)))) false = true)
    (covers : Covers (cString (dollar :: (before ++ (new ++ after)))) body' rest')
    : body' <+: before ++ more ∨ before ++ more <+: body' := by
  obtain ⟨start, rest⟩ := List.forall_mem_append.mp covered
  -- The byte that comes in ends what is covered, or belongs to it.
  by_cases stops : ∃ c, new = [c] ∧ isCovered c = false
  · obtain ⟨c, rfl, uncovered⟩ := stops
    have ends : isCovered (deref ([c] ++ after)) = false := uncovered
    have here := covers_cString start ends
    left
    rw [covers.body_eq, ← here.body_eq]
    exact List.prefix_append before more
  have inside : ∀ c ∈ new, isCovered c := by
    intro c member
    match new, added with
    | [d], _ =>
        rw [List.mem_singleton.mp member]
        exact Bool.of_not_eq_false fun uncovered => stops ⟨d, rfl, uncovered⟩
  -- What is left of the rest, unless the asterisk itself is gone.
  have remains : (∃ left, after = left ++ (tag ++ newline) ∧ old ++ left = more)
      ∨ more = [] ∧ old ≠ [] := by
    cases old with
    | nil => exact Or.inl ⟨more, position, rfl⟩
    | cons x none =>
        obtain rfl : none = [] :=
          List.length_eq_zero_iff.mp (Nat.le_zero.mp (Nat.succ_le_succ_iff.mp lost))
        cases more with
        | nil => exact Or.inr ⟨rfl, List.cons_ne_nil x []⟩
        | cons y left =>
            obtain ⟨rfl, behind⟩ := List.cons.inj position
            exact Or.inl ⟨left, behind, rfl⟩
  rcases remains with ⟨left, rfl, rfl⟩ | ⟨rfl, -⟩
  · have whole : ∀ c ∈ before ++ (new ++ left), isCovered c :=
      List.forall_mem_append.mpr
        ⟨start, List.forall_mem_append.mpr ⟨inside, fun c member =>
          rest c (List.mem_append_right old member)⟩⟩
    have grouped : before ++ (new ++ (left ++ (tag ++ newline)))
        = before ++ (new ++ left) ++ (tag ++ newline) := by
      simp only [List.append_assoc]
    rw [grouped] at accepted covers
    have sums := xor_eq_of_tagged seals whole accepted
    have same : xorAll new = xorAll old := by
      simpa only [xorAll_append, UInt8.xor_right_inj, UInt8.xor_left_inj] using sums
    have equal := eq_of_xorAll added lost inside
      (fun c member => rest c (List.mem_append_left left member)) same
    rw [equal] at covers
    exact Or.inr (covers.isPrefix covered)
  · right
    rw [List.append_nil]
    exact covers.isPrefix start

/-- Where the wrong byte is the dollar sign or stands before it. -/
theorem oneByte_begins {old new after tag newline body' rest' : List UInt8}
    (covered : ∀ c ∈ body, isCovered c) (seals : Seals body tag)
    (position : dollar :: (body ++ (tag ++ newline)) = old ++ after)
    (lost : old.length ≤ 1) (added : new.length ≤ 1)
    (accepted : minmeaCheck (cString (new ++ after)) false = true)
    (covers : Covers (cString (new ++ after)) body' rest')
    : body <+: body' := by
  have begins : deref (new ++ after) = dollar := by
    rw [← deref_cString, covers.eq]
    rfl
  have unlike : ∀ c : UInt8, c ^^^ xorAll body ≠ xorAll body ∨ c = 0 := fun c => by
    by_cases zero : c = 0
    · exact Or.inr zero
    · refine Or.inl fun same => zero ?_
      rwa [← UInt8.xor_left_inj (xorAll body), UInt8.zero_xor]
  have printed : dollar ≠ 0 := by decide
  match old, new, lost, added with
  | [], [], _, _ =>
      obtain rfl : dollar :: (body ++ (tag ++ newline)) = after := position
      exact covers.isPrefix covered
  | [], [c], _, _ =>
      obtain rfl : dollar :: (body ++ (tag ++ newline)) = after := position
      obtain rfl : c = dollar := begins
      have whole : ∀ c ∈ dollar :: body, isCovered c :=
        List.forall_mem_cons.mpr ⟨rfl, covered⟩
      have sums := xor_eq_of_tagged seals whole accepted
      rw [xorAll_cons] at sums
      exact absurd ((unlike dollar).resolve_left (not_not.mpr sums)) printed
  | [x], [], _, _ =>
      obtain ⟨rfl, rfl⟩ := List.cons.inj position
      cases body with
      | nil =>
          obtain ⟨upper, lower, u, l, rfl, -⟩ := seals
          exact absurd begins (show asterisk ≠ dollar by decide)
      | cons b body =>
          obtain rfl : b = dollar := begins
          have sums := xor_eq_of_tagged seals
            (fun c member => covered c (List.mem_cons_of_mem _ member)) accepted
          rw [xorAll_cons] at sums
          refine absurd ?_ printed
          rw [← UInt8.xor_left_inj (xorAll body), ← sums, UInt8.zero_xor]
  | [x], [c], _, _ =>
      obtain ⟨rfl, rfl⟩ := List.cons.inj position
      obtain rfl : c = dollar := begins
      exact covers.isPrefix covered

/-- If a sentence with a checksum is still accepted, what is covered has been cut off or continued.
Nothing in it has been replaced.
-/
theorem oneByte_covers {sent received : List UInt8} (tagged : minmeaCheck sent true = true)
    (accepted : minmeaCheck (cString received) false = true) (wrong : OneByte sent received)
    : ∃ body rest body' rest', Covers sent body rest ∧ Covers (cString received) body' rest'
      ∧ (body' <+: body ∨ body <+: body') := by
  obtain ⟨body, rest, covers⟩ := covers_of_check tagged
  obtain ⟨body', rest', covers'⟩ := covers_of_check accepted
  refine ⟨body, rest, body', rest', covers, covers', ?_⟩
  rw [covers.check, Bool.and_eq_true, checkEnd_iff] at tagged
  obtain ⟨tag, newline, rfl, seals, -⟩ := tagged.2.resolve_right fun loose => nomatch loose.2
  obtain ⟨before, old, new, after, sentEq, rfl, lost, added⟩ := wrong
  have position := covers.eq.symm.trans sentEq
  cases before with
  | nil =>
      right
      rw [List.nil_append] at position
      exact oneByte_begins covers.covered seals position lost added accepted covers'
  | cons d before =>
      obtain ⟨rfl, behind⟩ := List.cons.inj position
      rcases List.append_eq_append_iff.mp behind with ⟨beyond, rfl, -⟩ | ⟨more, rfl, inside⟩
      · right
        rw [List.cons_append, List.append_assoc] at covers'
        exact covers'.isPrefix covers.covered
      · exact oneByte_inside covers.covered seals inside lost added accepted covers'

end OneByte

end Granum.Flight
