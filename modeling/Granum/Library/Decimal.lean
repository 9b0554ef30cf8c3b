import Mathlib

/-! Decimal numbers as lists of digits, and how far they fit below a limit. -/

namespace Decimal

/-- The number that continues `n` with these digits. -/
def continued (n : ℕ) (digits : List (Fin 10)) : ℕ :=
  digits.foldl (fun n (d : Fin 10) => 10 * n + d) n

def number (digits : List (Fin 10)) : ℕ := continued 0 digits

variable {limit n : ℕ} {digits : List (Fin 10)}

@[simp] theorem continued_nil (n : ℕ) : continued n [] = n := rfl

@[simp] theorem continued_cons (n : ℕ) (d : Fin 10) (digits : List (Fin 10))
    : continued n (d :: digits) = continued (10 * n + d) digits := rfl

theorem continued_append (n : ℕ) (first second : List (Fin 10))
    : continued n (first ++ second) = continued (continued n first) second :=
  List.foldl_append

theorem number_append (first second : List (Fin 10))
    : number (first ++ second) = continued (number first) second :=
  continued_append 0 first second

/-- What was there before stands in front, by induction on the digits. -/
theorem continued_eq (n : ℕ) (digits : List (Fin 10))
    : continued n digits = n * 10 ^ digits.length + number digits := by
  induction digits generalizing n with
  | nil => simp [number]
  | cons d rest ih =>
      rw [number, continued_cons, continued_cons, ih, ih, List.length_cons]
      ring

theorem number_lt (digits : List (Fin 10)) : number digits < 10 ^ digits.length := by
  induction digits with
  | nil => exact one_pos
  | cons d rest ih =>
      rw [number, continued_cons, mul_zero, zero_add, continued_eq, List.length_cons, pow_succ]
      have first : (d : ℕ) * 10 ^ rest.length ≤ 9 * 10 ^ rest.length :=
        Nat.mul_le_mul_right _ (Nat.le_of_lt_succ d.isLt)
      omega

theorem le_continued (n : ℕ) (digits : List (Fin 10)) : n ≤ continued n digits := by
  rw [continued_eq]
  exact le_add_right (Nat.le_mul_of_pos_right n (by positivity))

/-- The digits up to the first that would lead beyond the limit. -/
def kept (limit n : ℕ) : List (Fin 10) → List (Fin 10)
  | [] => []
  | d :: digits =>
      if 10 * n + d ≤ limit then d :: kept limit (10 * n + d) digits else []

theorem kept_isPrefix (limit n : ℕ) (digits : List (Fin 10)) : kept limit n digits <+: digits := by
  induction digits generalizing n with
  | nil => exact List.prefix_refl []
  | cons d rest ih =>
      rw [kept]
      split
      · exact List.cons_prefix_cons.mpr ⟨rfl, ih _⟩
      · exact List.nil_prefix

theorem continued_kept_le (below : n ≤ limit) (digits : List (Fin 10))
    : continued n (kept limit n digits) ≤ limit := by
  induction digits generalizing n with
  | nil => exact below
  | cons d rest ih =>
      rw [kept]
      split
      · exact ih ‹_›
      · exact below

/-- Everything is kept that fits, by induction on the digits. -/
theorem kept_of_le (fits : continued n digits ≤ limit) : kept limit n digits = digits := by
  induction digits generalizing n with
  | nil => rfl
  | cons d rest ih =>
      rw [continued_cons] at fits
      rw [kept, if_pos ((le_continued _ rest).trans fits), ih fits]

/-- A prefix of the digits is the number cut off. -/
theorem continued_cut (n : ℕ) {first : List (Fin 10)} (isPrefix : first <+: digits)
    : continued n first * 10 ^ (digits.length - first.length) ≤ continued n digits
      ∧ continued n digits
        < (continued n first + 1) * 10 ^ (digits.length - first.length) := by
  obtain ⟨rest, rfl⟩ := isPrefix
  have small := number_lt rest
  rw [continued_append, continued_eq _ rest, List.length_append, Nat.add_sub_cancel_left]
  constructor
  · omega
  · rw [Nat.add_mul]
    omega

/-- A number with digits behind the point. -/
def decimal (whole fraction : List (Fin 10)) : ℚ :=
  number (whole ++ fraction) / 10 ^ fraction.length

theorem decimal_nonneg (whole fraction : List (Fin 10)) : 0 ≤ decimal whole fraction :=
  div_nonneg (Nat.cast_nonneg _) (pow_nonneg (by norm_num) _)

/-- What cutting a fraction off loses. -/
theorem decimal_cut (whole : List (Fin 10)) {first fraction : List (Fin 10)}
    (isPrefix : first <+: fraction)
    : decimal whole first ≤ decimal whole fraction
      ∧ decimal whole fraction < decimal whole first + 1 / 10 ^ first.length := by
  obtain ⟨lower, upper⟩ := continued_cut (number whole) isPrefix
  have length : fraction.length = first.length + (fraction.length - first.length) :=
    (Nat.add_sub_cancel' isPrefix.length_le).symm
  have scale : (10 : ℚ) ^ fraction.length
      = 10 ^ first.length * 10 ^ (fraction.length - first.length) := by
    rw [← pow_add, ← length]
  rw [decimal, decimal, number_append, number_append, scale]
  have positive : (0 : ℚ) < 10 ^ (fraction.length - first.length) := by positivity
  have unit : (0 : ℚ) < 10 ^ first.length := by positivity
  constructor
  · rw [div_le_div_iff₀ unit (mul_pos unit positive)]
    have scaled : (continued (number whole) first : ℚ) * 10 ^ (fraction.length - first.length)
        ≤ continued (number whole) fraction := by
      exact_mod_cast lower
    nlinarith
  · rw [← add_div, div_lt_div_iff₀ (mul_pos unit positive) unit]
    have scaled : (continued (number whole) fraction : ℚ)
        < (continued (number whole) first + 1) * 10 ^ (fraction.length - first.length) := by
      exact_mod_cast upper
    nlinarith

end Decimal
