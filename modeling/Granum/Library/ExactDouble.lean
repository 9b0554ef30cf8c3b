import Mathlib

/-! Double arithmetic in which no operation rounds: the rationals with both infinities and
NaN. Zero carries no sign, so a quotient by zero is a quotient by positive zero.
-/

/-- The value of a double when every finite operation is exact. -/
inductive ExactDouble
  | nan
  | negInf
  | posInf
  | fin (value : ℚ)
  deriving DecidableEq, Repr

namespace ExactDouble

/-- The C operator `<=`: every comparison with NaN is false. -/
def ble : ExactDouble → ExactDouble → Bool
  | nan, _ | _, nan => false
  | negInf, _ | _, posInf => true
  | posInf, _ | _, negInf => false
  | fin a, fin b => decide (a ≤ b)

instance : LE ExactDouble := ⟨fun a b => ble a b = true⟩

/-- The C operator `<`: below, and not above. -/
instance : LT ExactDouble := ⟨fun a b => (ble a b && !ble b a) = true⟩

instance (a b : ExactDouble) : Decidable (a ≤ b) :=
  inferInstanceAs (Decidable (ble a b = true))

instance (a b : ExactDouble) : Decidable (a < b) :=
  inferInstanceAs (Decidable ((ble a b && !ble b a) = true))

@[simp] theorem fin_le_fin {a b : ℚ} : fin a ≤ fin b ↔ a ≤ b := by
  simp [LE.le, ble]

@[simp] theorem fin_lt_fin {a b : ℚ} : fin a < fin b ↔ a < b := by
  simp only [LT.lt, ble, Bool.and_eq_true, Bool.not_eq_true', decide_eq_true_eq,
    decide_eq_false_iff_not]
  constructor
  · intro strict
    exact not_le.mp strict.2
  · intro below
    exact ⟨le_of_lt below, not_le.mpr below⟩

@[simp] theorem negInf_le_fin {b : ℚ} : negInf ≤ fin b := rfl

@[simp] theorem nan_not_le {b : ExactDouble} : ¬ nan ≤ b := by
  simp [LE.le, ble]

@[simp] theorem not_le_nan {a : ExactDouble} : ¬ a ≤ nan := by
  cases a <;> simp [LE.le, ble]

@[simp] theorem posInf_not_le_fin {b : ℚ} : ¬ posInf ≤ fin b := by
  simp [LE.le, ble]

@[simp] theorem not_lt_nan {a : ExactDouble} : ¬ a < nan := by
  cases a <;> simp [LT.lt, ble]

@[simp] theorem fin_lt_posInf {a : ℚ} : fin a < posInf := rfl

@[simp] theorem fin_not_lt_negInf {a : ℚ} : ¬ fin a < negInf := by
  simp [LT.lt, ble]

/-- The infinity with the sign of `q`; an infinity scaled by zero is NaN. -/
def signedInf (q : ℚ) : ExactDouble :=
  if 0 < q then posInf else if q < 0 then negInf else nan

/-- The C function `fabs`. -/
def fabs : ExactDouble → ExactDouble
  | nan => nan
  | negInf | posInf => posInf
  | fin a => fin |a|

/-- The C operator `-` on two operands. -/
def sub : ExactDouble → ExactDouble → ExactDouble
  | nan, _ | _, nan => nan
  | posInf, posInf | negInf, negInf => nan
  | posInf, _ | _, negInf => posInf
  | negInf, _ | _, posInf => negInf
  | fin a, fin b => fin (a - b)

/-- The C operator `*`. -/
def mul : ExactDouble → ExactDouble → ExactDouble
  | nan, _ | _, nan => nan
  | posInf, posInf | negInf, negInf => posInf
  | posInf, negInf | negInf, posInf => negInf
  | posInf, fin b | fin b, posInf => signedInf b
  | negInf, fin b | fin b, negInf => signedInf (-b)
  | fin a, fin b => fin (a * b)

/-- The C operator `/`. -/
def div : ExactDouble → ExactDouble → ExactDouble
  | nan, _ | _, nan => nan
  | posInf, fin b => if b < 0 then negInf else posInf
  | negInf, fin b => if b < 0 then posInf else negInf
  | posInf, _ | negInf, _ => nan
  | fin _, posInf | fin _, negInf => fin 0
  | fin a, fin b => if b = 0 then signedInf a else fin (a / b)

instance : Sub ExactDouble := ⟨sub⟩
instance : Mul ExactDouble := ⟨mul⟩
instance : Div ExactDouble := ⟨div⟩

@[simp] theorem fabs_fin (a : ℚ) : fabs (fin a) = fin |a| := rfl

@[simp] theorem fin_sub_fin (a b : ℚ) : fin a - fin b = fin (a - b) := rfl

@[simp] theorem fin_mul_fin (a b : ℚ) : fin a * fin b = fin (a * b) := rfl

/-- Division by a nonzero rational is rational division, by the finite branch. -/
theorem fin_div_fin (a : ℚ) {b : ℚ} (nonzero : b ≠ 0) : fin a / fin b = fin (a / b) := by
  change (if b = 0 then signedInf a else fin (a / b)) = fin (a / b)
  rw [if_neg nonzero]

/-- A positive number over zero is positive infinity. -/
theorem fin_div_zero_of_pos {a : ℚ} (positive : 0 < a) : fin a / fin 0 = posInf := by
  change (if (0 : ℚ) = 0 then signedInf a else fin (a / 0)) = posInf
  rw [if_pos rfl, signedInf, if_pos positive]

/-- A negative number over zero is negative infinity. -/
theorem fin_div_zero_of_neg {a : ℚ} (negative : a < 0) : fin a / fin 0 = negInf := by
  change (if (0 : ℚ) = 0 then signedInf a else fin (a / 0)) = negInf
  rw [if_pos rfl, signedInf, if_neg (not_lt.mpr negative.le), if_pos negative]

@[simp] theorem zero_div_zero : fin 0 / fin 0 = nan := rfl

@[simp] theorem nan_div (a : ExactDouble) : nan / a = nan := by cases a <;> rfl

@[simp] theorem fin_div_posInf (a : ℚ) : fin a / posInf = fin 0 := rfl

@[simp] theorem fin_div_negInf (a : ℚ) : fin a / negInf = fin 0 := rfl

@[simp] theorem div_nan (a : ExactDouble) : a / nan = nan := by cases a <;> rfl

@[simp] theorem nan_mul (a : ExactDouble) : nan * a = nan := by cases a <;> rfl

/-- Positive infinity over a negative rational is negative infinity. -/
theorem posInf_div_of_neg {b : ℚ} (negative : b < 0) : posInf / fin b = negInf := by
  change (if b < 0 then negInf else posInf) = negInf
  rw [if_pos negative]

/-- An infinity keeps its sign over a positive rational. -/
theorem posInf_div_of_pos {b : ℚ} (positive : 0 < b) : posInf / fin b = posInf := by
  change (if b < 0 then negInf else posInf) = posInf
  rw [if_neg (not_lt.mpr positive.le)]

theorem negInf_div_of_pos {b : ℚ} (positive : 0 < b) : negInf / fin b = negInf := by
  change (if b < 0 then posInf else negInf) = negInf
  rw [if_neg (not_lt.mpr positive.le)]

@[simp] theorem posInf_div_zero : posInf / fin 0 = posInf := rfl

@[simp] theorem negInf_div_zero : negInf / fin 0 = negInf := rfl

@[simp] theorem sub_fin_zero (a : ExactDouble) : a - fin 0 = a := by
  cases a with
  | fin value =>
      change fin (value - 0) = fin value
      rw [sub_zero]
  | nan | negInf | posInf => rfl

/-- What the C standard documents for `log` outside the positive reals: a domain error gives
NaN, a pole at zero negative infinity, and positive infinity is kept.
-/
structure IsLog (log : ExactDouble → ExactDouble) : Prop where
  of_nan : log nan = nan
  of_negInf : log negInf = nan
  of_negative : ∀ q < 0, log (fin q) = nan
  of_zero : log (fin 0) = negInf
  of_posInf : log posInf = posInf

/-- The tangent of the logarithm at one, with the special values of `log`: it agrees with
the logarithm at one and at every special value.
-/
def tangentLog : ExactDouble → ExactDouble
  | nan | negInf => nan
  | posInf => posInf
  | fin q => if 0 < q then fin (q - 1) else if q = 0 then negInf else nan

theorem tangentLog_isLog : IsLog tangentLog where
  of_nan := rfl
  of_negInf := rfl
  of_negative := by
    intro q negative
    simp [tangentLog, negative.not_gt, negative.ne]
  of_zero := rfl
  of_posInf := rfl

end ExactDouble
