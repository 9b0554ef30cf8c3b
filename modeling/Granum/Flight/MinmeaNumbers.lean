import Granum.Flight.MinmeaFields
import Granum.Library.Decimal

/-! What the conversions of `minmea_scan` make of numbers. -/

namespace Granum.Flight

open Decimal

/-- The character of a digit. -/
def digitChar (d : Fin 10) : UInt8 := UInt8.ofNat (48 + d)

def digitsText (digits : List (Fin 10)) : List UInt8 := digits.map digitChar

-----------------------------------------------------------------------------------------
-- Digits
-----------------------------------------------------------------------------------------

theorem isDigit_digitChar (d : Fin 10) : isDigit (digitChar d) = true := by
  revert d
  decide

theorem isField_digitChar (d : Fin 10) : minmeaIsField (digitChar d) = true := by
  revert d
  decide

theorem isSpace_digitChar (d : Fin 10) : isSpace (digitChar d) = false := by
  revert d
  decide

theorem value_digitChar (d : Fin 10) : ((digitChar d).toNat : ℤ) - 48 = d := by
  revert d
  decide

theorem digitChar_ne_sign (d : Fin 10) : digitChar d ≠ plus ∧ digitChar d ≠ minus := by
  revert d
  decide

theorem forall_digitsText {P : UInt8 → Prop} (all : ∀ d, P (digitChar d)) (digits : List (Fin 10))
    : ∀ c ∈ digitsText digits, P c := by
  intro c member
  obtain ⟨d, -, rfl⟩ := List.mem_map.mp member
  exact all d

theorem digitsValue_text (digits : List (Fin 10))
    : digitsValue (digitsText digits) = number digits := by
  have continues : ∀ n : ℕ, (digitsText digits).foldl (fun m c => 10 * m + ((c.toNat : ℤ) - 48)) n
      = continued n digits := by
    induction digits with
    | nil => exact fun n => rfl
    | cons d rest ih =>
        intro n
        rw [digitsText, List.map_cons, List.foldl_cons, value_digitChar, continued_cons,
          ← digitsText]
        exact_mod_cast ih (10 * n + d)
  exact continues 0

-----------------------------------------------------------------------------------------
-- Whole numbers
-----------------------------------------------------------------------------------------

theorem unsignedNumber_text {digits : List (Fin 10)} (nonempty : digits ≠ []) (sign : ℤ)
    : unsignedNumber sign (digitsText digits)
      = some (max (-2 ^ 31) (min (2 ^ 31 - 1) (sign * number digits)), []) := by
  have all : (digitsText digits).takeWhile isDigit = digitsText digits :=
    List.takeWhile_eq_self_iff.mpr (forall_digitsText isDigit_digitChar digits)
  have none : (digitsText digits).dropWhile isDigit = [] :=
    List.dropWhile_eq_nil_iff.mpr (forall_digitsText isDigit_digitChar digits)
  have some : digitsText digits ≠ [] := by simpa [digitsText] using nonempty
  simp only [unsignedNumber, all, none, some, if_false, digitsValue_text]

/-- A whole number is read as it is, up to the largest that there is. -/
theorem strtol_text {digits : List (Fin 10)} (nonempty : digits ≠ [])
    : strtol (digitsText digits) = (min (2 ^ 31 - 1) (number digits : ℤ), []) := by
  obtain ⟨d, rest, rfl⟩ := List.exists_cons_of_ne_nil nonempty
  have unspaced : (digitsText (d :: rest)).dropWhile isSpace = digitsText (d :: rest) :=
    List.dropWhile_cons_of_neg (Bool.eq_false_iff.mp (isSpace_digitChar d))
  have first : deref (digitsText (d :: rest)) = digitChar d := rfl
  obtain ⟨noPlus, noMinus⟩ := digitChar_ne_sign d
  rw [strtol, unspaced, signedNumber, first, if_neg noMinus, if_neg noPlus,
    unsignedNumber_text nonempty, Option.getD_some, one_mul, max_eq_right]
  have natural : (0 : ℤ) ≤ number (d :: rest) := Int.natCast_nonneg _
  omega

theorem scanInt_text {digits : List (Fin 10)} (nonempty : digits ≠ [])
    : scanInt (some (digitsText digits)) = some (min (2 ^ 31 - 1) (number digits : ℤ)) := by
  rw [scanInt, strtol_text nonempty]
  rfl

theorem twoDigits_text (field : List UInt8) {f : ℕ} {a b : Fin 10}
    (first : field.getD f 0 = digitChar a) (second : field.getD (f + 1) 0 = digitChar b)
    : twoDigits field f = number [a, b] := by
  rw [twoDigits, first, second]
  have read := strtol_text (List.cons_ne_nil a [b])
  have small : (number [a, b] : ℤ) < 10 ^ 2 := by exact_mod_cast number_lt [a, b]
  rw [digitsText, List.map_cons, List.map_singleton] at read
  rw [read]
  exact min_eq_right (by omega)

-----------------------------------------------------------------------------------------
-- The time
-----------------------------------------------------------------------------------------

/-- The time of a sentence, with its hours, minutes and seconds and the digits behind the point. -/
structure TimeText where
  hours : Fin 10 × Fin 10
  minutes : Fin 10 × Fin 10
  seconds : Fin 10 × Fin 10
  fraction : Option (List (Fin 10))

def pairDigits (pair : Fin 10 × Fin 10) : List (Fin 10) := [pair.1, pair.2]

/-- A point and the digits behind it. -/
def fractionText (fraction : Option (List (Fin 10))) : List UInt8 :=
  fraction.elim [] fun digits => point :: digitsText digits

def TimeText.text (t : TimeText) : List UInt8 :=
  digitsText (pairDigits t.hours ++ pairDigits t.minutes ++ pairDigits t.seconds)
    ++ fractionText t.fraction

/-- The time that it says, cut off at the microsecond. -/
def TimeText.time (t : TimeText) : MinmeaTime where
  hours := number (pairDigits t.hours)
  minutes := number (pairDigits t.minutes)
  seconds := number (pairDigits t.seconds)
  microseconds :=
    let digits := (t.fraction.getD []).take 6
    number digits * 10 ^ (6 - digits.length)

/-- By induction on the digits, as long as there is a microsecond for them. -/
theorem fractionLoop_text (digits : List (Fin 10)) (value : ℕ) {places : ℕ}
    : fractionLoop value (10 ^ places) (digitsText digits)
      = continued value (digits.take places) * 10 ^ (places - (digits.take places).length) := by
  induction digits generalizing value places with
  | nil => simp [digitsText, fractionLoop]
  | cons d rest ih =>
      rw [digitsText, List.map_cons, fractionLoop, ← digitsText, value_digitChar]
      cases places with
      | zero => simp
      | succ places =>
          have more : (1 : ℤ) < 10 ^ (places + 1) := one_lt_pow₀ (by decide) (Nat.succ_ne_zero _)
          have tenth : (10 : ℤ) ^ (places + 1) / 10 = 10 ^ places := by
            rw [pow_succ]
            exact Int.mul_ediv_cancel _ (by decide)
          have step : (value : ℤ) * 10 + (d : ℕ) = ((10 * value + d : ℕ) : ℤ) := by
            push_cast
            ring
          rw [if_pos ⟨isDigit_digitChar d, more⟩, tenth, step, ih, List.take_succ_cons,
            continued_cons, List.length_cons, Nat.add_sub_add_right]

theorem scanTime_text (t : TimeText) : scanTime (some t.text) = some t.time := by
  obtain ⟨⟨h, h'⟩, ⟨m, m'⟩, ⟨s, s'⟩, fraction⟩ := t
  have six : sixDigits (TimeText.text ⟨(h, h'), (m, m'), (s, s'), fraction⟩) = true := by
    simp [sixDigits, TimeText.text, pairDigits, digitsText, List.range_succ, isDigit_digitChar]
  have starts :
      minmeaIsField (deref (TimeText.text ⟨(h, h'), (m, m'), (s, s'), fraction⟩)) = true :=
    isField_digitChar h
  have hours := twoDigits_text (TimeText.text ⟨(h, h'), (m, m'), (s, s'), fraction⟩)
    (f := 0) (a := h) (b := h') rfl rfl
  have minutes := twoDigits_text (TimeText.text ⟨(h, h'), (m, m'), (s, s'), fraction⟩)
    (f := 2) (a := m) (b := m') rfl rfl
  have seconds := twoDigits_text (TimeText.text ⟨(h, h'), (m, m'), (s, s'), fraction⟩)
    (f := 4) (a := s) (b := s') rfl rfl
  have rest : (TimeText.text ⟨(h, h'), (m, m'), (s, s'), fraction⟩).drop 6
      = fractionText fraction := rfl
  rw [scanTime]
  simp only [Option.getD_some, starts, six, if_true, hours, minutes, seconds, rest]
  cases fraction with
  | none =>
      have unpointed : deref (fractionText none) ≠ point := by decide
      rw [if_neg unpointed]
      simp [TimeText.time, pairDigits, number]
  | some digits =>
      have read := @fractionLoop_text digits 0 6
      have pointed : deref (fractionText (some digits)) = point := rfl
      have behind : (fractionText (some digits)).tail = digitsText digits := rfl
      rw [if_pos pointed, behind]
      simp only [TimeText.time, Option.getD_some, Option.some.injEq, MinmeaTime.mk.injEq]
      exact ⟨rfl, rfl, rfl, read⟩

-----------------------------------------------------------------------------------------
-- Fractional values
-----------------------------------------------------------------------------------------

/-- The largest value, `INT_LEAST32_MAX`. -/
def maxValue : ℕ := 2 ^ 31 - 1

theorem maxValue_eq : maxValue = 2147483647 := rfl

/-- A number as it is written, with digits behind a point. -/
structure NumberText where
  negative : Bool
  whole : List (Fin 10)
  fraction : List (Fin 10)

namespace NumberText

variable (n : NumberText)

def text : List UInt8 :=
  (if n.negative then [minus] else []) ++ (digitsText n.whole ++ point :: digitsText n.fraction)

def sign : ℤ := if n.negative then -1 else 1

/-- The number that it says. -/
def exact : ℚ := n.sign * decimal n.whole n.fraction

/-- The digits behind the point for which there are bits. -/
def keptFraction : List (Fin 10) := kept maxValue (number n.whole) n.fraction

/-- What the conversion makes of it. -/
def value : MinmeaFloat where
  value := n.sign * number (n.whole ++ n.keptFraction)
  scale := wrap32 (10 ^ n.keptFraction.length)

end NumberText

/-- A digit belongs to the number as long as that fits. -/
theorem fits_iff (n : ℕ) (d : Fin 10)
    : (intLeast32Max - (d : ℕ)) / 10 < (n : ℤ) ↔ ¬10 * n + d ≤ maxValue := by
  rw [intLeast32Max, maxValue_eq]
  omega

theorem floatLoop_digit (sign scale : ℤ) (n : ℕ) (d : Fin 10) (field : List UInt8)
    : floatLoop ⟨sign, n, scale⟩ (digitChar d :: field)
      = if 10 * n + d ≤ maxValue then
          floatLoop ⟨sign, (10 * n + d : ℕ), if scale ≠ 0 then wrap32 (scale * 10) else scale⟩ field
        else if scale ≠ 0 then some ⟨sign, n, scale⟩
        else none := by
  obtain ⟨noPlus, noMinus⟩ := digitChar_ne_sign d
  have started : (n : ℤ) ≠ -1 := by omega
  rw [floatLoop]
  simp only [isField_digitChar, Bool.not_true, Bool.false_eq_true, if_false, noPlus, noMinus,
    false_and, isDigit_digitChar, if_true, value_digitChar, started, fits_iff, ite_not]
  push_cast
  rfl

/-- The first digit starts the number. -/
theorem floatLoop_first (sign : ℤ) (d : Fin 10) (field : List UInt8)
    : floatLoop ⟨sign, -1, 0⟩ (digitChar d :: field)
      = floatLoop ⟨sign, d, 0⟩ field := by
  obtain ⟨noPlus, noMinus⟩ := digitChar_ne_sign d
  have fits : ¬(intLeast32Max - (d : ℕ)) / 10 < 0 := by
    rw [intLeast32Max]
    omega
  rw [floatLoop]
  simp only [isField_digitChar, Bool.not_true, Bool.false_eq_true, if_false, noPlus, noMinus,
    false_and, isDigit_digitChar, if_true, value_digitChar, fits, ne_eq, not_true_eq_false,
    mul_zero, zero_add]

/-- Digits before the point, by induction on them. -/
theorem floatLoop_whole (sign : ℤ) (digits : List (Fin 10)) {n : ℕ} (fits : n ≤ maxValue)
    (field : List UInt8)
    : floatLoop ⟨sign, n, 0⟩ (digitsText digits ++ field)
      = if continued n digits ≤ maxValue then floatLoop ⟨sign, continued n digits, 0⟩ field
        else none := by
  induction digits generalizing n with
  | nil => rw [continued_nil, if_pos fits]; rfl
  | cons d rest ih =>
      rw [digitsText, List.map_cons, List.cons_append, floatLoop_digit, ← digitsText,
        continued_cons]
      by_cases more : 10 * n + d ≤ maxValue
      · rw [if_pos more, ← ih more]
        rfl
      · have beyond : ¬continued (10 * n + d) rest ≤ maxValue := fun le =>
          more ((le_continued _ rest).trans le)
        rw [if_neg more, if_neg beyond]
        rfl

theorem wrap32_mul (x : ℤ) : wrap32 (wrap32 x * 10) = wrap32 (x * 10) := by
  rw [wrap32, wrap32, wrap32, Int.bmod_mul_bmod]

/-- A power of ten is not lost completely before the thirty-second. -/
theorem wrap32_pow_ne_zero {k : ℕ} (small : k < 32) : wrap32 (10 ^ k) ≠ 0 := by
  revert k
  decide

theorem wrap32_pow_iff {k : ℕ} (small : k < 32) : wrap32 (10 ^ k) = 10 ^ k ↔ k ≤ 9 := by
  revert k
  decide

namespace NumberText

variable (n : NumberText)

theorem abs_sign : |(n.sign : ℚ)| = 1 := by
  rw [sign]
  split <;> norm_num

/-- A whole part that is not zero leaves no room for a tenth digit. -/
theorem kept_length (fits : number n.whole ≤ maxValue) (nonzero : number n.whole ≠ 0)
    : n.keptFraction.length ≤ 9 := by
  have bound : continued (number n.whole) n.keptFraction ≤ maxValue :=
    continued_kept_le fits n.fraction
  rw [continued_eq, maxValue_eq] at bound
  by_contra long
  have large : 10 ^ 10 ≤ 10 ^ n.keptFraction.length :=
    Nat.pow_le_pow_right (by decide) (not_le.mp long)
  have whole := Nat.mul_le_mul (Nat.one_le_iff_ne_zero.mpr nonzero) large
  omega

end NumberText

/-- Digits behind the point are read as long as they fit, by induction on them. -/
theorem floatLoop_fraction (sign : ℤ) (digits : List (Fin 10)) {n k : ℕ} (fits : n ≤ maxValue)
    (short : k + digits.length < 32)
    : floatLoop ⟨sign, n, wrap32 (10 ^ k)⟩ (digitsText digits)
      = some
          ⟨sign, continued n (kept maxValue n digits),
            wrap32 (10 ^ (k + (kept maxValue n digits).length))⟩ := by
  induction digits generalizing n k with
  | nil => rfl
  | cons d rest ih =>
      rw [List.length_cons] at short
      have scaled : wrap32 (10 ^ k) ≠ 0 := wrap32_pow_ne_zero (by omega)
      rw [digitsText, List.map_cons, floatLoop_digit, if_pos scaled, ← digitsText, kept]
      by_cases more : 10 * n + d ≤ maxValue
      · rw [if_pos more, if_pos more, wrap32_mul, ← pow_succ, ih more (by omega), continued_cons,
          List.length_cons, Nat.add_right_comm, Nat.add_assoc]
      · rw [if_neg more, if_neg more, if_pos scaled]
        rfl

theorem floatLoop_minus (field : List UInt8)
    : floatLoop {} (minus :: field) = floatLoop { sign := -1 } field := by
  rw [floatLoop, if_neg (by decide), if_neg (by decide), if_pos (by decide)]

theorem floatLoop_point (sign : ℤ) (n : ℕ) (field : List UInt8)
    : floatLoop ⟨sign, n, 0⟩ (point :: field) = floatLoop ⟨sign, n, 1⟩ field := by
  have other : point ≠ plus ∧ point ≠ minus := by decide
  rw [floatLoop, if_neg (by decide), if_neg fun h => other.1 h.1, if_neg fun h => other.2 h.1,
    if_neg (by decide), if_pos ⟨rfl, rfl⟩]

/-- The digits of a number, after its sign. -/
theorem floatLoop_text (sign : ℤ) {whole : List (Fin 10)} (nonempty : whole ≠ [])
    {fraction : List (Fin 10)} (short : fraction.length < 32)
    : floatLoop ⟨sign, -1, 0⟩ (digitsText whole ++ point :: digitsText fraction)
      = if number whole ≤ maxValue then
          some
            ⟨sign, number (whole ++ kept maxValue (number whole) fraction),
              wrap32 (10 ^ (kept maxValue (number whole) fraction).length)⟩
        else none := by
  obtain ⟨d, rest, rfl⟩ := List.exists_cons_of_ne_nil nonempty
  have small : (d : ℕ) ≤ maxValue := by
    rw [maxValue_eq]
    omega
  have value : number (d :: rest) = continued d rest := by
    rw [number, continued_cons, mul_zero, zero_add]
  have one_scale : wrap32 (10 ^ 0) = 1 := rfl
  rw [digitsText, List.map_cons, List.cons_append, floatLoop_first, ← digitsText,
    floatLoop_whole sign rest small, number_append, value]
  by_cases fits : continued d rest ≤ maxValue
  · have begins := floatLoop_fraction sign fraction fits (k := 0) (by omega)
    rw [if_pos fits, if_pos fits, floatLoop_point]
    rwa [Nat.zero_add, one_scale] at begins
  · rw [if_neg fits, if_neg fits]

theorem finish_read (sign : ℤ) (n : ℕ) {scale : ℤ} (scaled : scale ≠ 0)
    : FloatScan.finish ⟨sign, n, scale⟩
      = some (if sign ≠ 0 then ⟨n * sign, scale⟩ else ⟨n, scale⟩) := by
  have started : (n : ℤ) ≠ -1 := by omega
  rw [FloatScan.finish, if_neg fun unread => started unread.2]
  simp only [started, scaled, if_false]

/-- A fractional value is refused exactly if its whole part does not fit. Else it is cut off where
it does not fit any more, and its scale counts the digits that are left, in 32 bits.
-/
theorem scanFloat_text (n : NumberText) (nonempty : n.whole ≠ []) (short : n.fraction.length < 32)
    : scanFloat (some n.text)
      = if number n.whole ≤ maxValue then some n.value else none := by
  have left : n.keptFraction.length < 32 :=
    ((kept_isPrefix _ _ _).length_le).trans_lt short
  have scaled : wrap32 (10 ^ n.keptFraction.length) ≠ 0 := wrap32_pow_ne_zero left
  have digits : ∀ sign,
      floatLoop ⟨sign, -1, 0⟩ (digitsText n.whole ++ point :: digitsText n.fraction)
      = if number n.whole ≤ maxValue then
          some ⟨sign, number (n.whole ++ n.keptFraction), wrap32 (10 ^ n.keptFraction.length)⟩
        else none :=
    fun sign => floatLoop_text sign nonempty short
  rw [scanFloat, Option.elim_some, NumberText.text, NumberText.value, NumberText.sign]
  by_cases fits : number n.whole ≤ maxValue
  · simp only [if_pos fits] at digits ⊢
    cases n.negative with
    | false =>
        rw [if_neg Bool.false_ne_true, List.nil_append, digits, Option.bind_some,
          finish_read 0 _ scaled, if_neg (not_not.mpr rfl), if_neg Bool.false_ne_true, one_mul]
    | true =>
        rw [if_pos rfl, List.singleton_append, floatLoop_minus, digits, Option.bind_some,
          finish_read (-1) _ scaled, if_pos (by decide), if_pos rfl, mul_comm]
  · simp only [if_neg fits] at digits ⊢
    cases n.negative with
    | false => rw [if_neg Bool.false_ne_true, List.nil_append, digits, Option.bind_none]
    | true => rw [if_pos rfl, List.singleton_append, floatLoop_minus, digits, Option.bind_none]

/-- The value is that of the digits that are kept. What the conversion loses is less than one unit of
the last of them, as long as its scale is right: exactly up to nine digits, and always if the whole
part is not zero.
-/
theorem scanFloat_cut (n : NumberText) (nonempty : n.whole ≠ []) (short : n.fraction.length < 32)
    : (scanFloat (some n.text) = none ↔ maxValue < number n.whole)
      ∧ ∀ f, scanFloat (some n.text) = some f
        → f.value = n.sign * number (n.whole ++ n.keptFraction)
          ∧ (f.scale = 10 ^ n.keptFraction.length ↔ n.keptFraction.length ≤ 9)
          ∧ (number n.whole ≠ 0 → n.keptFraction.length ≤ 9)
          ∧ (n.keptFraction.length ≤ 9
            → |(f.value / f.scale : ℚ)| ≤ |n.exact|
              ∧ |n.exact - f.value / f.scale| < 1 / f.scale) := by
  have left : n.keptFraction.length < 32 :=
    ((kept_isPrefix _ _ _).length_le).trans_lt short
  rw [scanFloat_text n nonempty short]
  constructor
  · by_cases fits : number n.whole ≤ maxValue
    · simp [fits]
    · simp [fits, not_le.mp fits]
  · intro f read
    by_cases fits : number n.whole ≤ maxValue
    · rw [if_pos fits] at read
      obtain rfl : n.value = f := Option.some.inj read
      have wrapped : n.value.scale = wrap32 (10 ^ n.keptFraction.length) := by
        rw [NumberText.value]
      have digits : n.value.value = n.sign * number (n.whole ++ n.keptFraction) := by
        rw [NumberText.value]
      refine ⟨digits, ?_, fun nonzero => ?_, fun few => ?_⟩
      · rw [wrapped]
        exact wrap32_pow_iff left
      · exact n.kept_length fits nonzero
      · have scale : (n.value.scale : ℚ) = 10 ^ n.keptFraction.length := by
          rw [wrapped, (wrap32_pow_iff left).mpr few, Int.cast_pow, Int.cast_ofNat]
        have top : (n.value.value : ℚ) = n.sign * (number (n.whole ++ n.keptFraction) : ℕ) := by
          rw [digits, Int.cast_mul, Int.cast_natCast]
        have ratio : (n.value.value / n.value.scale : ℚ)
            = n.sign * decimal n.whole n.keptFraction := by
          rw [top, scale, decimal, mul_div_assoc]
        have isPrefix : n.keptFraction <+: n.fraction := kept_isPrefix _ _ _
        obtain ⟨lower, upper⟩ := decimal_cut n.whole isPrefix
        have positive : 0 ≤ decimal n.whole n.keptFraction := decimal_nonneg _ _
        rw [ratio, scale, NumberText.exact, ← mul_sub, abs_mul, abs_mul, abs_mul, n.abs_sign,
          one_mul, one_mul, one_mul, abs_of_nonneg positive, abs_of_nonneg (positive.trans lower),
          abs_of_nonneg (sub_nonneg.mpr lower)]
        exact ⟨lower, sub_lt_iff_lt_add'.mpr upper⟩
    · rw [if_neg fits] at read
      cases read

/-- Of ten digits behind the point five are read. -/
theorem scanFloat_cut_ten
    : scanFloat (some (NumberText.text ⟨true, [4, 8, 0, 7], [0, 3, 8, 2, 4, 7, 0, 1, 2, 3]⟩))
        = some ⟨-480703824, 100000⟩
      ∧ (-480703824 : ℤ)
        = NumberText.sign ⟨true, [4, 8, 0, 7], [0, 3, 8, 2, 4, 7, 0, 1, 2, 3]⟩
          * number ([4, 8, 0, 7] ++ [0, 3, 8, 2, 4])
      ∧ |NumberText.exact ⟨true, [4, 8, 0, 7], [0, 3, 8, 2, 4, 7, 0, 1, 2, 3]⟩
          - (-480703824) / 100000| < 1 / 100000 := by
  have read :
      scanFloat (some (NumberText.text ⟨true, [4, 8, 0, 7], [0, 3, 8, 2, 4, 7, 0, 1, 2, 3]⟩))
        = some ⟨-480703824, 100000⟩ := by
    decide +kernel
  have kept : NumberText.keptFraction ⟨true, [4, 8, 0, 7], [0, 3, 8, 2, 4, 7, 0, 1, 2, 3]⟩
      = [0, 3, 8, 2, 4] := by
    decide +kernel
  obtain ⟨value, -, scaled, lost⟩ := (scanFloat_cut _ (by decide) (by decide)).2 _ read
  rw [kept] at value
  refine ⟨read, value, ?_⟩
  simpa using (lost (scaled (by decide +kernel))).2

/-- A number with enough bits is read as it is. -/
theorem scanFloat_fits (n : NumberText) (nonempty : n.whole ≠ [])
    (fits : number (n.whole ++ n.fraction) ≤ maxValue) (short : n.fraction.length ≤ 9)
    : scanFloat (some n.text)
      = some ⟨n.sign * number (n.whole ++ n.fraction), 10 ^ n.fraction.length⟩ := by
  have all : continued (number n.whole) n.fraction ≤ maxValue := by rwa [← number_append]
  have whole : number n.whole ≤ maxValue := (le_continued _ _).trans all
  have kept : n.keptFraction = n.fraction := kept_of_le all
  rw [scanFloat_text n nonempty (by omega), if_pos whole, NumberText.value, kept,
    (wrap32_pow_iff (by omega)).mpr short]

end Granum.Flight
