import Granum.Flight.MinmeaCheck

/-! The pointers of `minmea_scan` go from field to field. What they find is what the list of the
fields has.
-/

namespace Granum.Flight

-----------------------------------------------------------------------------------------
-- The end of a field
-----------------------------------------------------------------------------------------

/-- What comes behind the fields. -/
def Ends (rest : List UInt8) : Prop := deref rest = asterisk ∨ rest ∈ newlines

/-- What comes behind a field. -/
def Closes (rest : List UInt8) : Prop := deref rest = comma ∨ Ends rest

theorem Ends.closes {rest : List UInt8} (ends : Ends rest) : Closes rest := Or.inr ends

theorem Closes.elim (P : UInt8 → Prop) {rest : List UInt8} (closes : Closes rest)
    (atComma : P comma) (atAsterisk : P asterisk) (atNewline : ∀ newline ∈ newlines, P (deref newline))
    : P (deref rest) := by
  rcases closes with separated | starred | member
  · rwa [separated]
  · rwa [starred]
  · exact atNewline rest member

section Fields

variable {field rest : List UInt8}

theorem Closes.notField (closes : Closes rest) : minmeaIsField (deref rest) = false :=
  closes.elim (minmeaIsField · = false) rfl rfl (by decide)

theorem Closes.notDigit (closes : Closes rest) : isDigit (deref rest) = false :=
  closes.elim (isDigit · = false) rfl rfl (by decide)

theorem Closes.ne (closes : Closes rest) {c : UInt8} (other : c ≠ comma ∧ c ≠ asterisk)
    (ends : ∀ newline ∈ newlines, deref newline ≠ c)
    : deref rest ≠ c :=
  closes.elim (· ≠ c) other.1.symm other.2.symm ends

/-- Behind spaces there is no number either. -/
theorem Closes.unspaced (closes : Closes rest)
    : isDigit (deref (rest.dropWhile isSpace)) = false
      ∧ deref (rest.dropWhile isSpace) ≠ plus ∧ deref (rest.dropWhile isSpace) ≠ minus := by
  rcases closes with separated | starred | member
  · cases rest with
    | nil => cases separated
    | cons c later =>
        obtain rfl : c = comma := separated
        exact ⟨rfl, (by decide : comma ≠ plus), (by decide : comma ≠ minus)⟩
  · cases rest with
    | nil => cases starred
    | cons c later =>
        obtain rfl : c = asterisk := starred
        exact ⟨rfl, (by decide : asterisk ≠ plus), (by decide : asterisk ≠ minus)⟩
  · have all : ∀ newline ∈ newlines, isDigit (deref (newline.dropWhile isSpace)) = false
        ∧ deref (newline.dropWhile isSpace) ≠ plus
        ∧ deref (newline.dropWhile isSpace) ≠ minus := by
      decide
    exact all rest member

theorem deref_append_of_isField (inside : minmeaIsField (deref field)) (rest : List UInt8)
    : deref (field ++ rest) = deref field := by
  cases field with
  | nil => cases inside
  | cons c later => rfl

theorem isField_append (closes : Closes rest)
    : minmeaIsField (deref (field ++ rest)) = minmeaIsField (deref field) := by
  cases field with
  | nil => exact closes.notField
  | cons c later => rfl

theorem takeWhile_append {P : UInt8 → Bool} (stops : P (deref rest) = false)
    : (field ++ rest).takeWhile P = field.takeWhile P := by
  induction field with
  | nil =>
      cases rest with
      | nil => rfl
      | cons c later => exact List.takeWhile_cons_of_neg (Bool.eq_false_iff.mp stops)
  | cons c later ih =>
      rw [List.cons_append, List.takeWhile_cons, List.takeWhile_cons, ih]

theorem dropWhile_append {P : UInt8 → Bool} (stops : P (deref rest) = false)
    : (field ++ rest).dropWhile P = field.dropWhile P ++ rest := by
  induction field with
  | nil =>
      cases rest with
      | nil => rfl
      | cons c later => exact List.dropWhile_cons_of_neg (Bool.eq_false_iff.mp stops)
  | cons c later ih =>
      rw [List.cons_append, List.dropWhile_cons, List.dropWhile_cons, ih]
      split <;> rfl

/-- Characters that are required one after the other are in the field, by induction on how many. -/
theorem all_getD_append {P : UInt8 → Bool} (zero : P 0 = false) (stops : P (deref rest) = false)
    (n : ℕ) (field : List UInt8)
    : ((List.range n).all fun f => P ((field ++ rest).getD f 0))
      = (List.range n).all fun f => P (field.getD f 0) := by
  induction n generalizing field with
  | zero => rfl
  | succ n ih =>
      simp only [List.range_succ_eq_map, List.all_cons, List.all_map, Function.comp_def]
      cases field with
      | nil =>
          have here : P (([] ++ rest).getD 0 0) = false := by
            cases rest with
            | nil => exact zero
            | cons c later => exact stops
          have none : P (([] : List UInt8).getD 0 0) = false := zero
          rw [here, none, Bool.false_and, Bool.false_and]
      | cons c later => exact congrArg (P c && ·) (ih later)

theorem length_of_all {P : UInt8 → Bool} (zero : P 0 = false) {n : ℕ}
    (all : ((List.range n).all fun f => P (field.getD f 0)) = true)
    : n ≤ field.length := by
  by_contra short
  have last := List.all_eq_true.mp all field.length (List.mem_range.mpr (not_le.mp short))
  rw [List.getD_eq_default _ _ le_rfl, zero] at last
  cases last

end Fields

-----------------------------------------------------------------------------------------
-- The conversions
-----------------------------------------------------------------------------------------

section Conversions

variable {field rest : List UInt8}

theorem scanChar_append (closes : Closes rest)
    : scanChar (some (field ++ rest)) = scanChar (some field) := by
  simp only [scanChar, Option.getD_some, isField_append closes]
  split
  · exact deref_append_of_isField ‹_› rest
  · rfl

theorem scanDirection_append (closes : Closes rest)
    : scanDirection (some (field ++ rest)) = scanDirection (some field) := by
  simp only [scanDirection, Option.getD_some, isField_append closes]
  split
  · simp only [deref_append_of_isField ‹_› rest]
  · rfl

/-- By induction on the field. -/
theorem floatLoop_append (closes : Closes rest) (s : FloatScan)
    : floatLoop s (field ++ rest) = floatLoop s field := by
  induction field generalizing s with
  | nil =>
      cases rest with
      | nil => rfl
      | cons c later =>
          have stops : minmeaIsField c = false := closes.notField
          simp [floatLoop, stops]
  | cons c later ih => simp only [List.cons_append, floatLoop, ih]

theorem scanFloat_append (closes : Closes rest)
    : scanFloat (some (field ++ rest)) = scanFloat (some field) :=
  congrArg (Option.bind · FloatScan.finish) (floatLoop_append closes {})

theorem unsignedNumber_append (closes : Closes rest) (sign : ℤ) (field : List UInt8)
    : unsignedNumber sign (field ++ rest)
      = (unsignedNumber sign field).map fun found => (found.1, found.2 ++ rest) := by
  simp only [unsignedNumber, takeWhile_append closes.notDigit, dropWhile_append closes.notDigit]
  split <;> rfl

theorem signedNumber_append (closes : Closes rest) (c : UInt8) (later : List UInt8)
    : signedNumber (c :: later ++ rest)
      = (signedNumber (c :: later)).map fun found => (found.1, found.2 ++ rest) := by
  have first : deref (c :: later ++ rest) = deref (c :: later) := rfl
  rw [signedNumber, signedNumber, first]
  split
  · exact unsignedNumber_append closes (-1) later
  · split
    · exact unsignedNumber_append closes 1 later
    · exact unsignedNumber_append closes 1 (c :: later)

/-- No number begins behind a field. -/
theorem signedNumber_unspaced (closes : Closes rest)
    : signedNumber (rest.dropWhile isSpace) = none := by
  obtain ⟨stops, noPlus, noMinus⟩ := closes.unspaced
  have none : ([] ++ rest.dropWhile isSpace).takeWhile isDigit = [] := takeWhile_append stops
  rw [List.nil_append] at none
  rw [signedNumber, if_neg noMinus, if_neg noPlus, unsignedNumber, none]
  rfl

/-- A number is read from the field, also if spaces lead up to the end of it. -/
theorem strtol_append (closes : Closes rest)
    : (strtol (field ++ rest)).1 = (strtol field).1
      ∧ minmeaIsField (deref (strtol (field ++ rest)).2)
        = minmeaIsField (deref (strtol field).2) := by
  rw [strtol, strtol, List.dropWhile_append]
  cases unspaced : field.dropWhile isSpace with
  | nil =>
      rw [List.isEmpty_nil, if_pos rfl, signedNumber_unspaced closes]
      exact ⟨rfl, isField_append closes⟩
  | cons c later =>
      rw [List.isEmpty_cons, if_neg Bool.false_ne_true, signedNumber_append closes]
      cases signedNumber (c :: later) with
      | none => exact ⟨rfl, isField_append closes⟩
      | some found => exact ⟨rfl, isField_append closes⟩

theorem scanInt_append (closes : Closes rest)
    : scanInt (some (field ++ rest)) = scanInt (some field) := by
  obtain ⟨value, endptr⟩ := @strtol_append field rest closes
  simp only [scanInt, value, endptr]

theorem sixDigits_append (closes : Closes rest) : sixDigits (field ++ rest) = sixDigits field :=
  all_getD_append rfl closes.notDigit 6 field

theorem twoDigits_append {f : ℕ} (inside : f + 1 < field.length)
    : twoDigits (field ++ rest) f = twoDigits field f := by
  rw [twoDigits, twoDigits, List.getD_append _ _ _ _ inside,
    List.getD_append _ _ _ _ (Nat.lt_of_succ_lt inside)]

theorem scanDate_append (closes : Closes rest)
    : scanDate (some (field ++ rest)) = scanDate (some field) := by
  simp only [scanDate, Option.getD_some, isField_append closes, sixDigits_append closes]
  split
  · split
    · have long := length_of_all rfl ‹sixDigits field = true›
      rw [twoDigits_append (by omega), twoDigits_append (by omega), twoDigits_append (by omega)]
    · rfl
  · rfl

theorem fractionLoop_append (closes : Closes rest) (value scale : ℤ)
    : fractionLoop value scale (field ++ rest) = fractionLoop value scale field := by
  induction field generalizing value scale with
  | nil =>
      cases rest with
      | nil => rfl
      | cons c later =>
          have stops : isDigit c = false := closes.notDigit
          simp [fractionLoop, stops]
  | cons c later ih => simp only [List.cons_append, fractionLoop, ih]

theorem scanTime_append (closes : Closes rest)
    : scanTime (some (field ++ rest)) = scanTime (some field) := by
  simp only [scanTime, Option.getD_some, isField_append closes, sixDigits_append closes]
  split
  · split
    · have long : 6 ≤ field.length := length_of_all rfl ‹sixDigits field = true›
      rw [twoDigits_append (by omega), twoDigits_append (by omega), twoDigits_append (by omega),
        List.drop_append_of_le_length long]
      have fraction : (if deref (field.drop 6 ++ rest) = point then
            fractionLoop 0 1000000 (field.drop 6 ++ rest).tail
          else 0)
          = if deref (field.drop 6) = point then fractionLoop 0 1000000 (field.drop 6).tail
            else 0 := by
        cases field.drop 6 with
        | nil =>
            have apart : deref rest ≠ point := closes.ne (by decide) (by decide)
            rw [List.nil_append, if_neg apart, if_neg (by decide)]
        | cons c later =>
            simp only [List.cons_append, deref, List.headD_cons, List.tail_cons,
              fractionLoop_append closes]
            rfl
      rw [fraction]
    · rfl
  · rfl

theorem scanType_append (closes : Closes rest)
    : scanType (some (field ++ rest)) = scanType (some field) := by
  simp only [scanType, Option.bind_some]
  cases field with
  | nil =>
      have apart : deref rest ≠ dollar := closes.ne (by decide) (by decide)
      rw [List.nil_append, if_pos apart, if_pos (by decide)]
  | cons c later =>
      have all := all_getD_append rfl closes.notField 5 later
      have shift : ∀ (characters : List UInt8) (f : ℕ),
          (c :: characters).getD (1 + f) 0 = characters.getD f 0 := fun characters f => by
        rw [Nat.add_comm, List.getD_cons_succ]
      simp only [List.cons_append, shift, all, deref, List.headD_cons, List.drop_succ_cons,
        List.drop_zero]
      split
      · rfl
      · split
        · have long : 5 ≤ later.length := length_of_all rfl ‹_›
          rw [List.take_append_of_le_length long]
        · rfl

/-- Every letter of the format reads the field it stands at, and nothing behind it. -/
theorem scanField_append (closes : Closes rest) (type : Char)
    : scanField type (some (field ++ rest)) = scanField type (some field) := by
  simp only [scanField, scanChar_append closes, scanDirection_append closes,
    scanFloat_append closes, scanInt_append closes, scanType_append closes,
    scanDate_append closes, scanTime_append closes, Option.getD_some,
    takeWhile_append closes.notField]

end Conversions

-----------------------------------------------------------------------------------------
-- The format
-----------------------------------------------------------------------------------------

/-- The format, applied to a list of fields. -/
def scanFields : List Char → Bool → List (List UInt8) → Option (List ScanValue)
  | [], _, _ => some []
  | type :: format, optional, fields =>
      if type = ';' then scanFields format true fields
      else if fields = [] ∧ ¬optional then none
      else
        (scanField type fields.head?).bind fun values =>
          (scanFields format optional fields.tail).map (values ++ ·)

section Format

variable {body rest : List UInt8}

theorem isCovered_iff {c : UInt8} : isCovered c = true ↔ minmeaIsField c = true ∨ c = comma := by
  simp only [isCovered, minmeaIsField, Bool.and_eq_true, decide_eq_true_iff, ne_eq]
  constructor
  · rintro ⟨unstarred, printed⟩
    by_cases separates : c = comma
    · exact Or.inr separates
    · exact Or.inl ⟨⟨printed, separates⟩, unstarred⟩
  · rintro (⟨⟨printed, -⟩, unstarred⟩ | rfl)
    · exact ⟨unstarred, printed⟩
    · decide

theorem nextField_append {field : List UInt8} (inside : ∀ c ∈ field, minmeaIsField c)
    (closes : Closes rest)
    : nextField (field ++ rest)
      = if deref rest = comma then (some rest.tail, rest.tail) else (none, rest) := by
  have behind : (field ++ rest).dropWhile minmeaIsField = rest := by
    rw [dropWhile_append closes.notField, List.dropWhile_eq_nil_iff.mpr inside, List.nil_append]
  rw [nextField, behind]

/-- Behind the last field the format finds nothing, by induction on it. -/
theorem scanLoop_none (ends : Ends rest) (unseparated : deref rest ≠ comma) (format : List Char)
    (optional : Bool)
    : scanLoop format optional none rest = scanFields format optional [] := by
  have next : nextField rest = (none, rest) := by
    have stays := @nextField_append rest [] (List.forall_mem_nil _) ends.closes
    rwa [List.nil_append, if_neg unseparated] at stays
  induction format generalizing optional with
  | nil => rfl
  | cons type format ih =>
      simp only [scanLoop, scanFields, next, ih, Option.isNone_none, List.head?_nil,
        List.tail_nil]

/-- By induction on the format, which takes one field after the other. -/
theorem scanLoop_eq_fields (ends : Ends rest) (format : List Char) (optional : Bool)
    (covered : ∀ c ∈ body, isCovered c)
    : scanLoop format optional (some (body ++ rest)) (body ++ rest)
      = scanFields format optional (body.splitOn comma) := by
  have unseparated : deref rest ≠ comma := by
    rcases ends with starred | member
    · rw [starred]
      decide
    · exact (by decide : ∀ newline ∈ newlines, deref newline ≠ comma) rest member
  induction format generalizing optional body with
  | nil => rfl
  | cons type format ih =>
      have nonempty : body.splitOn comma ≠ [] := List.splitOn_ne_nil comma body
      rw [scanLoop, scanFields]
      simp only [Option.isNone_some, Bool.false_eq_true, false_and, if_false, nonempty]
      split
      · exact ih true covered
      by_cases separated : comma ∈ body
      · obtain ⟨field, later, rfl, first⟩ := List.eq_append_cons_of_mem separated
        obtain ⟨start, behind⟩ := List.forall_mem_append.mp covered
        have inside : ∀ c ∈ field, minmeaIsField c := fun c member =>
          (isCovered_iff.mp (start c member)).resolve_right fun eq => first (eq ▸ member)
        have closes : Closes (comma :: later ++ rest) := Or.inl rfl
        have next : nextField (field ++ (comma :: later ++ rest))
            = (some (later ++ rest), later ++ rest) :=
          (nextField_append inside closes).trans (if_pos rfl)
        rw [List.append_assoc, scanField_append closes, next,
          List.splitOn_append_cons_self_of_not_mem first, List.head?_cons, List.tail_cons]
        simp only [ih optional fun c member => behind c (List.mem_cons_of_mem comma member)]
      · have inside : ∀ c ∈ body, minmeaIsField c := fun c member =>
          (isCovered_iff.mp (covered c member)).resolve_right fun eq => separated (eq ▸ member)
        have next : nextField (body ++ rest) = (none, rest) :=
          (nextField_append inside ends.closes).trans (if_neg unseparated)
        rw [scanField_append ends.closes, next, List.splitOn_eq_singleton separated,
          List.head?_cons, List.tail_cons]
        simp only [scanLoop_none ends unseparated]

end Format

-----------------------------------------------------------------------------------------
-- One wrong byte in a fix
-----------------------------------------------------------------------------------------

/-- Continuing a text changes its last field and adds others, by induction on it. -/
theorem splitOn_append (first second : List UInt8)
    : ∃ last more, (first ++ second).splitOn comma
        = (first.splitOn comma).dropLast ++ last :: more := by
  induction first with
  | nil =>
      obtain ⟨last, more, eq⟩ := List.exists_cons_of_ne_nil (List.splitOn_ne_nil comma second)
      exact ⟨last, more, by simpa [List.splitOn_nil] using eq⟩
  | cons c first ih =>
      obtain ⟨last, more, eq⟩ := ih
      have nonempty := List.splitOn_ne_nil comma first
      rw [List.cons_append, List.splitOn_cons_eq_if_modifyHead, List.splitOn_cons_eq_if_modifyHead,
        eq]
      by_cases separates : (c == comma) = true
      · rw [if_pos separates, if_pos separates, List.dropLast_cons_of_ne_nil nonempty]
        exact ⟨last, more, rfl⟩
      · rw [if_neg separates, if_neg separates]
        rcases start : first.splitOn comma with _ | ⟨field, _ | ⟨next, fields⟩⟩
        · exact absurd start nonempty
        · exact ⟨c :: last, more, rfl⟩
        · exact ⟨last, more, rfl⟩

/-- The fields before the last one of a text are those of every continuation. -/
theorem take_splitOn_prefix {first text : List UInt8} (isPrefix : first <+: text) {n : ℕ}
    (before : n < (first.splitOn comma).length)
    : (text.splitOn comma).take n = (first.splitOn comma).take n
      ∧ n < (text.splitOn comma).length := by
  obtain ⟨second, rfl⟩ := isPrefix
  obtain ⟨last, more, eq⟩ := splitOn_append first second
  have inside : n ≤ (first.splitOn comma).dropLast.length := by
    rw [List.length_dropLast]
    omega
  rw [eq]
  constructor
  · rw [List.take_append_of_le_length inside, List.dropLast_eq_take, List.take_take,
      min_eq_left (by omega)]
  · rw [List.length_append, List.length_cons]
    omega

/-- A format that ends with a field to ignore reads those before it, by induction on it. -/
theorem scanFields_ignored {format : List Char} (required : ';' ∉ format)
    (fields : List (List UInt8))
    : scanFields (format ++ ['_']) false fields
      = if format.length < fields.length then
          scanFields format false (fields.take format.length)
        else none := by
  induction format generalizing fields with
  | nil =>
      cases fields with
      | nil => rfl
      | cons field more => rfl
  | cons type format ih =>
      obtain ⟨here, later⟩ := not_or.mp (fun mem => required (List.mem_cons.mpr mem))
      have other : type ≠ ';' := fun eq => here eq.symm
      cases fields with
      | nil => simp [scanFields, other]
      | cons field more =>
          simp only [List.cons_append, scanFields, other, if_false, List.cons_ne_nil, false_and,
            List.tail_cons, ih later, List.length_cons, Nat.succ_lt_succ_iff, List.take_succ_cons,
            List.head?_cons]
          split
          · rfl
          · exact Option.bind_fun_none _

section Fix

variable {sentence sentence' body body' rest rest' : List UInt8} {frame frame' : MinmeaSentenceGga}

/-- The fields of the fix that are read. -/
def ggaRead : List Char := ['t', 'T', 'f', 'd', 'f', 'd', 'i', 'i', 'f', 'f', 'c', 'f', 'c', 'i']

theorem Covers.ends {strict : Bool} (covers : Covers sentence body rest)
    (accepted : minmeaCheck sentence strict = true)
    : Ends rest := by
  rw [covers.check, Bool.and_eq_true, checkEnd_iff] at accepted
  rcases accepted.2 with ⟨tag, newline, rfl, ⟨upper, lower, u, l, rfl, -⟩, -⟩ | ⟨member, -⟩
  · exact Or.inl rfl
  · exact Or.inr member

/-- The scan of an accepted sentence is that of its fields. -/
theorem Covers.scan {strict : Bool} (covers : Covers sentence body rest)
    (accepted : minmeaCheck sentence strict = true) (format : List Char)
    : minmeaScan sentence format = scanFields format false ((dollar :: body).splitOn comma) := by
  have covered : ∀ c ∈ dollar :: body, isCovered c :=
    List.forall_mem_cons.mpr ⟨rfl, covers.covered⟩
  rw [minmeaScan, covers.eq]
  exact scanLoop_eq_fields (covers.ends accepted) format false covered

/-- The scan of a fix stops before the last field that it needs. -/
theorem Covers.scan_gga {strict : Bool} (covers : Covers sentence body rest)
    (accepted : minmeaCheck sentence strict = true)
    : minmeaScan sentence ggaFormat
      = if 14 < ((dollar :: body).splitOn comma).length then
          scanFields ggaRead false (((dollar :: body).splitOn comma).take 14)
        else none :=
  (covers.scan accepted ggaFormat).trans
    (@scanFields_ignored ggaRead (by decide) _)

theorem long_of_parse {strict : Bool} (covers : Covers sentence body rest)
    (accepted : minmeaCheck sentence strict = true)
    (parsed : minmeaParseGga sentence = some frame)
    : 14 < ((dollar :: body).splitOn comma).length := by
  by_contra short
  rw [minmeaParseGga, covers.scan_gga accepted, if_neg short] at parsed
  cases parsed

/-- A fix whose text is cut off or continued, and is a fix still, is the same. -/
theorem parse_eq_of_prefix {strict strict' : Bool} (covers : Covers sentence body rest)
    (covers' : Covers sentence' body' rest') (accepted : minmeaCheck sentence strict = true)
    (accepted' : minmeaCheck sentence' strict' = true)
    (parsed : minmeaParseGga sentence = some frame)
    (isPrefix : body <+: body')
    : minmeaParseGga sentence' = some frame := by
  have long := long_of_parse covers accepted parsed
  obtain ⟨same, long'⟩ := take_splitOn_prefix (List.cons_prefix_cons.mpr ⟨rfl, isPrefix⟩) long
  rw [minmeaParseGga, covers.scan_gga accepted, if_pos long, ← same] at parsed
  rw [minmeaParseGga, covers'.scan_gga accepted', if_pos long']
  exact parsed

/-- One wrong byte in a fix with a checksum does not change it, although the main loop also accepts
sentences that have none: what is received is rejected or the same fix.
-/
theorem gga_oneByte {sent received : List UInt8} (tagged : minmeaCheck sent true = true)
    (fix : minmeaParseGga sent = some frame) (wrong : OneByte sent received)
    (accepted : minmeaCheck (cString received) false = true)
    (parsed : minmeaParseGga (cString received) = some frame')
    : frame' = frame := by
  obtain ⟨body, rest, body', rest', covers, covers', cut | continued⟩ :=
    oneByte_covers tagged accepted wrong
  · have again := parse_eq_of_prefix covers' covers accepted tagged parsed cut
    exact Option.some.inj (again.symm.trans fix)
  · have again := parse_eq_of_prefix covers covers' tagged accepted fix continued
    exact Option.some.inj (parsed.symm.trans again)

end Fix

end Granum.Flight
