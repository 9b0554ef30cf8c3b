import Granum.Library.Binary32

/-! The reciprocal root of the filter: a first guess from the bits of the argument, and one step of
Newton's method.
-/

namespace Granum.Madgwick

open Binary32

/-- `0x5f3759df - (i>>1)`, with the 32 bits that `long` has on the target. -/
def guessBits (i : BitVec 32) : BitVec 32 := 0x5f3759df#32 - i.sshiftRight 1

/-- The function of the filter on the bits of its argument. Every operation rounds with `fl`. -/
def invSqrt (fl : ℚ → ℚ) (x : BitVec 32) : ℚ :=
  let halfx := fl (1 / 2 * value x)
  let y := value (guessBits x)
  fl (y * fl (3 / 2 - fl (fl (halfx * y) * y)))

-----------------------------------------------------------------------------------------
-- The first guess

/-- The mantissa bits of the constant, as a fraction. -/
def magic : ℚ := 3627487 / 8388608

section Cubics

variable {u : ℚ}

/-- Each piece of the guess is a cubic in the mantissa: an even exponent without a borrow. -/
theorem cubic_even (lower : 0 ≤ u) (upper : u ≤ magic)
    : 1.864 ≤ (1 + 2 * u) * (1 + magic - u) ^ 2 ∧ (1 + 2 * u) * (1 + magic - u) ^ 2 ≤ 2.1385 := by
  unfold magic at *
  have inside := mul_nonneg lower (sub_nonneg.mpr upper)
  have top := sq_nonneg (u - 3627487 / 25165824)
  constructor
  · nlinarith [mul_nonneg inside lower]
  · nlinarith [mul_nonneg lower top, mul_nonneg (sub_nonneg.mpr upper) top]

/-- An even exponent with a borrow. -/
theorem cubic_borrow (lower : magic ≤ u) (upper : u ≤ 1 / 2)
    : 7.456 ≤ (1 + 2 * u) * (2 + magic - u) ^ 2 ∧ (1 + 2 * u) * (2 + magic - u) ^ 2 ≤ 8.5 := by
  unfold magic at *
  have inside := mul_nonneg (sub_nonneg.mpr lower) (sub_nonneg.mpr upper)
  constructor <;> nlinarith [mul_nonneg inside (sub_nonneg.mpr lower)]

/-- An odd exponent. -/
theorem cubic_odd (lower : 0 ≤ u) (upper : u ≤ 1 / 2)
    : 3.728 ≤ (1 + 2 * u) * (3 / 2 + magic - u) ^ 2
      ∧ (1 + 2 * u) * (3 / 2 + magic - u) ^ 2 ≤ 4.277 := by
  unfold magic at *
  have inside := mul_nonneg lower (sub_nonneg.mpr upper)
  have top := sq_nonneg (u - 0.3108)
  constructor
  · nlinarith [mul_nonneg inside lower]
  · nlinarith [mul_nonneg lower top, mul_nonneg (sub_nonneg.mpr upper) top]

end Cubics

theorem guessBits_toNat {x : BitVec 32} (sign : x.msb = false)
    : (guessBits x).toNat = 0x5f3759df - x.toNat / 2 := by
  have small := BitVec.msb_eq_false_iff_two_mul_lt.mp sign
  rw [guessBits, BitVec.sshiftRight_eq_of_msb_false sign, BitVec.toNat_sub_of_le]
  · rw [BitVec.toNat_ushiftRight]
    rfl
  · rw [BitVec.le_def, BitVec.toNat_ushiftRight, Nat.shiftRight_eq_div_pow]
    norm_num
    omega

/-- The ratio depends on the mantissas, and on the exponents by a power of two. -/
theorem ratio_of_parts {x g : BitVec 32} {e e' m m' : ℕ} (shift : ℤ)
    (argument : value x = (2 ^ 23 + m) * 2 ^ ((e : ℤ) - 150))
    (guess : value g = (2 ^ 23 + m') * 2 ^ ((e' : ℤ) - 150)) (sum : (e : ℤ) + 2 * e' = 381 + shift)
    : value x * value g ^ 2
      = (1 + (m : ℚ) / 2 ^ 23) * (1 + (m' : ℚ) / 2 ^ 23) ^ 2 * 2 ^ shift := by
  have powers : (2 : ℚ) ^ ((e : ℤ) - 150) * (2 ^ ((e' : ℤ) - 150)) ^ 2 = 2 ^ (shift - 69) := by
    rw [← zpow_natCast, ← zpow_mul, ← zpow_add₀ two_ne_zero]
    congr 1
    push_cast
    linarith
  have scale : (2 : ℚ) ^ (shift - 69) = 2 ^ shift / 2 ^ 69 := by
    rw [zpow_sub₀ two_ne_zero]
    norm_num
  calc value x * value g ^ 2
      = (2 ^ 23 + m) * (2 ^ 23 + m') ^ 2
          * (2 ^ ((e : ℤ) - 150) * (2 ^ ((e' : ℤ) - 150)) ^ 2) := by
        rw [argument, guess]
        ring
    _ = (1 + (m : ℚ) / 2 ^ 23) * (1 + (m' : ℚ) / 2 ^ 23) ^ 2 * 2 ^ shift := by
        rw [powers, scale]
        ring

/-- The bit that the shift drops changes a cubic little. -/
theorem dropped_bit {u c b low high : ℚ} (nonneg : 0 ≤ b) (small : b ≤ 1 / 8388608)
    (above : 0 ≤ c - u) (below : c - u ≤ 3)
    (bounds : low ≤ (1 + 2 * u) * (c - u) ^ 2 ∧ (1 + 2 * u) * (c - u) ^ 2 ≤ high)
    : low ≤ (1 + (2 * u + b)) * (c - u) ^ 2
      ∧ (1 + (2 * u + b)) * (c - u) ^ 2 ≤ high + 9 / 8388608 := by
  have square : (c - u) ^ 2 ≤ 3 ^ 2 := pow_le_pow_left₀ above below 2
  have product := mul_le_mul small square (sq_nonneg _) (by norm_num)
  have positive := mul_nonneg nonneg (sq_nonneg (c - u))
  constructor <;> linarith [bounds.1, bounds.2]

theorem parts_pos (m : ℕ) (e : ℤ) : 0 < ((2 : ℚ) ^ 23 + m) * 2 ^ e := by positivity

/-- A fraction of the mantissa. -/
theorem fraction_bounds {h n : ℕ} (below : h ≤ n)
    : (0 : ℚ) ≤ h / 8388608 ∧ (h : ℚ) / 8388608 ≤ n / 8388608 := by
  have top : (h : ℚ) ≤ n := by exact_mod_cast below
  exact ⟨by positivity, by linarith⟩

section Pieces

variable {x : BitVec 32} {k h b : ℕ}

theorem mantissa_split (h b : ℕ)
    : 1 + ((2 * h + b : ℕ) : ℚ) / 2 ^ 23 = 1 + (2 * (h / 8388608) + b / 8388608) := by
  push_cast
  ring

theorem guess_mantissa {h n : ℕ} (below : h ≤ n)
    : 1 + ((n - h : ℕ) : ℚ) / 2 ^ 23 = (1 + n / 8388608) - h / 8388608 := by
  rw [Nat.cast_sub below]
  ring

/-- One piece of the guess: its exponent and mantissa, and the bounds of its cubic. -/
theorem ratio_piece {e g n : ℕ} {low high : ℚ} (shift : ℤ) (dropped : b < 2)
    (argument : value x = (2 ^ 23 + (2 * h + b : ℕ)) * 2 ^ ((e : ℤ) - 150))
    (below : h ≤ n) (small : n ≤ 2 * 8388608)
    (guess : value (guessBits x) = (2 ^ 23 + (n - h : ℕ)) * 2 ^ ((g : ℤ) - 150))
    (sum : (e : ℤ) + 2 * g = 381 + shift)
    (bounds : low ≤ (1 + 2 * ((h : ℚ) / 8388608)) * ((1 + n / 8388608) - h / 8388608) ^ 2
      ∧ (1 + 2 * ((h : ℚ) / 8388608)) * ((1 + n / 8388608) - h / 8388608) ^ 2 ≤ high)
    : 0 < value (guessBits x)
      ∧ low * 2 ^ shift ≤ value x * value (guessBits x) ^ 2
      ∧ value x * value (guessBits x) ^ 2 ≤ (high + 9 / 8388608) * 2 ^ shift := by
  have bit := fraction_bounds (Nat.lt_succ_iff.mp dropped)
  have place := fraction_bounds below
  have top : (n : ℚ) / 8388608 ≤ 2 := by
    have cast : (n : ℚ) ≤ 2 * 8388608 := by exact_mod_cast small
    linarith
  have power : (0 : ℚ) < 2 ^ shift := zpow_pos two_pos shift
  rw [Nat.cast_one] at bit
  have kept := dropped_bit bit.1 bit.2 (by linarith) (by linarith) bounds
  refine ⟨guess ▸ parts_pos _ _, ?_, ?_⟩
  · rw [ratio_of_parts shift argument guess sum, mantissa_split, guess_mantissa below]
    exact mul_le_mul_of_nonneg_right kept.1 power.le
  · rw [ratio_of_parts shift argument guess sum, mantissa_split, guess_mantissa below]
    exact mul_le_mul_of_nonneg_right kept.2 power.le

end Pieces

/-- The ratio of the guess to the reciprocal root, squared; by the parity of the exponent and the
borrow from it.
-/
theorem guess_ratio_of_parts {x : BitVec 32} (k odd h b : ℕ) (sign : x.msb = false)
    (bits : x.toNat = (2 * k + odd) * 2 ^ 23 + (2 * h + b)) (parity : odd < 2) (dropped : b < 2)
    (fraction : h < 2 ^ 22) (lower : 0 < 2 * k + odd) (upper : 2 * k + odd < 255)
    : 0 < value (guessBits x)
      ∧ 233 / 250 ≤ value x * value (guessBits x) ^ 2
      ∧ value x * value (guessBits x) ^ 2 ≤ 2139 / 2000 := by
  have difference := guessBits_toNat sign
  have argument := value_of_toNat bits (by omega) lower (by omega)
  have half := fraction_bounds fraction.le
  rw [bits] at difference
  clear bits
  have wide : ((2 ^ 22 : ℕ) : ℚ) / 8388608 = 1 / 2 := by norm_num
  rw [wide] at half
  obtain rfl | rfl : odd = 0 ∨ odd = 1 := by omega
  · rcases Nat.lt_or_ge 3627487 h with borrow | none
    · have guess := value_of_toNat (w := guessBits x) (e := 189 - k) (m := 12016095 - h)
        (by omega) (by omega) (by omega) (by omega)
      have place : 1 + ((12016095 : ℕ) : ℚ) / 8388608 = 2 + magic := by norm_num [magic]
      have past : magic ≤ (h : ℚ) / 8388608 := (fraction_bounds borrow.le).2
      have bounds := cubic_borrow past half.2
      rw [← place] at bounds
      have piece := ratio_piece (-3) dropped argument (by omega) (by omega) guess (by omega) bounds
      norm_num at piece ⊢
      exact ⟨piece.1, by linarith, by linarith⟩
    · have guess := value_of_toNat (w := guessBits x) (e := 190 - k) (m := 3627487 - h)
        (by omega) (by omega) (by omega) (by omega)
      have place : 1 + ((3627487 : ℕ) : ℚ) / 8388608 = 1 + magic := by norm_num [magic]
      have bounds := cubic_even half.1 (fraction_bounds none).2
      rw [← place] at bounds
      have piece := ratio_piece (-1) dropped argument none (by omega) guess (by omega) bounds
      norm_num at piece ⊢
      exact ⟨piece.1, by linarith, by linarith⟩
  · have guess := value_of_toNat (w := guessBits x) (e := 189 - k) (m := 7821791 - h)
      (by omega) (by omega) (by omega) (by omega)
    have place : 1 + ((7821791 : ℕ) : ℚ) / 8388608 = 3 / 2 + magic := by norm_num [magic]
    have bounds := cubic_odd half.1 half.2
    rw [← place] at bounds
    have piece := ratio_piece (-2) dropped argument (by omega) (by omega) guess (by omega) bounds
    norm_num at piece ⊢
    exact ⟨piece.1, by linarith, by linarith⟩

theorem guess_ratio {x : BitVec 32} (normal : PositiveNormal x)
    : 0 < value (guessBits x)
      ∧ 233 / 250 ≤ value x * value (guessBits x) ^ 2
      ∧ value x * value (guessBits x) ^ 2 ≤ 2139 / 2000 := by
  have fraction : mantissa x < 2 ^ 23 := Nat.mod_lt _ (by decide)
  have lower := normal.lower
  have upper := normal.upper
  refine guess_ratio_of_parts (exponent x / 2) (exponent x % 2) (mantissa x / 2) (mantissa x % 2)
    normal.sign ?_ (Nat.mod_lt _ two_pos) (Nat.mod_lt _ two_pos) ?_ ?_ ?_
  · rw [Nat.div_add_mod, Nat.div_add_mod]
    exact normal.toNat_eq
  · omega
  · rwa [Nat.div_add_mod]
  · rwa [Nat.div_add_mod]

-----------------------------------------------------------------------------------------
-- The step

section Newton

/-- One step of Newton's method from a guess that is a few percent off. -/
theorem newton_exact {s : ℝ} (positive : 0 < s) (lower : 233 / 250 ≤ s ^ 2)
    (upper : s ^ 2 ≤ 2139 / 2000)
    : 1 - 0.001797 ≤ s * ((3 - s ^ 2) / 2) ∧ s * ((3 - s ^ 2) / 2) ≤ 1 := by
  have low : 0.9654 ≤ s := by nlinarith
  have high : s ≤ 1.0342 := by nlinarith
  have error : 1 - s * ((3 - s ^ 2) / 2) = (1 - s) ^ 2 * ((2 + s) / 2) := by ring
  have nonneg : 0 ≤ (1 - s) ^ 2 * ((2 + s) / 2) := by positivity
  refine ⟨?_, by linarith⟩
  rcases le_total s 1 with short | long
  · have square : (1 - s) ^ 2 ≤ 0.0346 ^ 2 := pow_le_pow_left₀ (by linarith) (by linarith) 2
    have factor := mul_le_mul square (by linarith : (2 + s) / 2 ≤ 3 / 2) (by linarith)
      (by norm_num)
    norm_num at factor ⊢
    linarith
  · have square : (s - 1) ^ 2 ≤ 0.0342 ^ 2 := pow_le_pow_left₀ (by linarith) (by linarith) 2
    have factor := mul_le_mul square (by linarith : (2 + s) / 2 ≤ 3.0342 / 2) (by linarith)
      (by norm_num)
    rw [show (s - 1) ^ 2 = (1 - s) ^ 2 by ring] at factor
    norm_num at factor ⊢
    linarith

/-- The step with rounding errors in the factor and in the product. -/
theorem newton_rounded {s c r : ℝ} (positive : 0 < s) (lower : 233 / 250 ≤ s ^ 2)
    (upper : s ^ 2 ≤ 2139 / 2000) (factor : |c - (3 - s ^ 2) / 2| ≤ 1 / 1000000)
    (product : |r - s * c| ≤ 1 / 1000000 * (s * c))
    : |r - 1| ≤ 9 / 5000 := by
  obtain ⟨low, high⟩ := newton_exact positive lower upper
  have size : s ≤ 1.0342 := by nlinarith
  obtain ⟨c1, c2⟩ := abs_le.mp factor
  obtain ⟨r1, r2⟩ := abs_le.mp product
  have below := mul_le_mul_of_nonneg_left c1 positive.le
  have above := mul_le_mul_of_nonneg_left c2 positive.le
  rw [abs_le]
  norm_num at *
  constructor <;> nlinarith

section Factor

variable {x y : ℚ}

/-- The range of a guess. -/
theorem guess_range (large : 2 ^ (-125 : ℤ) ≤ x) (small : x < 2 ^ (128 : ℤ)) (positive : 0 < y)
    (lower : 233 / 250 ≤ x * y ^ 2) (upper : x * y ^ 2 ≤ 2139 / 2000)
    : 2 ^ (-66 : ℤ) ≤ y ∧ y ≤ 2 ^ (64 : ℤ) := by
  constructor
  · by_contra tiny
    have square := pow_le_pow_left₀ positive.le (not_le.mp tiny).le 2
    have product := mul_le_mul small.le square (by positivity) (by positivity)
    norm_num at *
    linarith
  · by_contra huge
    have square := pow_le_pow_left₀ (by positivity) (not_le.mp huge).le 2
    have product := mul_le_mul large square (by positivity)
      ((by positivity : (0 : ℚ) ≤ _).trans large)
    norm_num at *
    linarith

/-- The factor of the step, after four operations that round. -/
theorem factor_error {fl : ℚ → ℚ} (rounding : Rounding fl)
    (large : 2 ^ (-125 : ℤ) ≤ x) (small : x < 2 ^ (128 : ℤ)) (positive : 0 < y)
    (lower : 233 / 250 ≤ x * y ^ 2) (upper : x * y ^ 2 ≤ 2139 / 2000)
    : |fl (3 / 2 - fl (fl (fl (1 / 2 * x) * y) * y)) - (3 - x * y ^ 2) / 2| ≤ 1 / 1000000 := by
  obtain ⟨tiny, huge⟩ := guess_range large small positive lower upper
  have unit : (2 : ℚ) ^ (-24 : ℤ) ≤ 1 / 10000000 := by norm_num
  have product : 2 ^ (-66 : ℤ) ≤ x * y ∧ x * y ≤ 2 ^ (68 : ℤ) := by
    have whole : x * y ^ 2 = x * y * y := by ring
    have nonneg : 0 ≤ x * y := mul_nonneg ((zpow_pos two_pos _).le.trans large) positive.le
    have above := mul_le_mul_of_nonneg_left huge nonneg
    have below := mul_le_mul_of_nonneg_left tiny nonneg
    norm_num at *
    constructor <;> linarith
  have half : Within (1 / 10000000) (1 / 2 * x) (fl (1 / 2 * x)) := by
    refine (rounding.within ?_ ?_).mono unit ?_ <;> norm_num at * <;> linarith
  have once := half.mul_right positive.le
  have twice : Within (1 / 4000000) (1 / 2 * x * y) (fl (fl (1 / 2 * x) * y)) := by
    have low := once.lower
    have high := once.upper
    refine (once.trans (rounding.within ?_ ?_) (by positivity)).mono ?_ ?_ <;> norm_num at * <;>
      linarith
  have squared := twice.mul_right positive.le
  have whole : 1 / 2 * x * y * y = x * y ^ 2 / 2 := by ring
  rw [whole] at squared
  have thrice : Within (1 / 2000000) (x * y ^ 2 / 2) (fl (fl (fl (1 / 2 * x) * y) * y)) := by
    have low := squared.lower
    have high := squared.upper
    refine (squared.trans (rounding.within ?_ ?_) (by positivity)).mono ?_ ?_ <;> norm_num at * <;>
      linarith
  have low := thrice.lower
  have high := thrice.upper
  generalize fl (fl (fl (1 / 2 * x) * y) * y) = b at *
  have difference : Within (1 / 10000000) (3 / 2 - b) (fl (3 / 2 - b)) := by
    refine (rounding.within ?_ ?_).mono unit ?_ <;> norm_num at * <;> linarith
  have below := difference.lower
  have above := difference.upper
  rw [abs_le]
  constructor <;> norm_num at * <;> linarith

end Factor

end Newton

theorem value_range {x : BitVec 32} (normal : PositiveNormal x)
    (halvable : 1 < exponent x)
    : 2 ^ (-125 : ℤ) ≤ value x ∧ value x < 2 ^ (128 : ℤ) := by
  have upper := normal.upper
  have fraction : mantissa x < 2 ^ 23 := Nat.mod_lt _ (by decide)
  have small : (mantissa x : ℚ) < 2 ^ 23 := by exact_mod_cast fraction
  rw [value_of_toNat normal.toNat_eq fraction normal.lower (by omega)]
  constructor
  · have power : (2 : ℚ) ^ (-148 : ℤ) ≤ 2 ^ ((exponent x : ℤ) - 150) :=
      zpow_le_zpow_right₀ one_le_two (by omega)
    have product := mul_le_mul (le_add_of_nonneg_right (Nat.cast_nonneg (mantissa x))) power
      (zpow_pos two_pos _).le (by positivity : (0 : ℚ) ≤ 2 ^ 23 + mantissa x)
    refine le_trans (le_of_eq ?_) product
    norm_num
  · have power : (2 : ℚ) ^ ((exponent x : ℤ) - 150) ≤ 2 ^ (104 : ℤ) :=
      zpow_le_zpow_right₀ one_le_two (by omega)
    have product := mul_lt_mul (add_lt_add_right small (2 ^ 23)) power (zpow_pos two_pos _)
      (by positivity)
    refine product.trans_le (le_of_eq ?_)
    norm_num

/-- The function of the filter misses the reciprocal root by less than two parts in a thousand,
whatever way its operations round.
-/
theorem invSqrt_accurate {fl : ℚ → ℚ} (rounding : Rounding fl) {x : BitVec 32}
    (normal : PositiveNormal x) (halvable : 1 < exponent x)
    : |(invSqrt fl x : ℝ) * √(value x) - 1| ≤ 9 / 5000 := by
  obtain ⟨positive, lower, upper⟩ := guess_ratio normal
  obtain ⟨large, small⟩ := value_range normal halvable
  have factor := factor_error rounding large small positive lower upper
  obtain ⟨tiny, huge⟩ := guess_range large small positive lower upper
  rw [invSqrt]
  generalize value (guessBits x) = y at *
  generalize fl (3 / 2 - fl (fl (fl (1 / 2 * value x) * y) * y)) = c at *
  generalize value x = v at *
  obtain ⟨c1, c2⟩ := abs_le.mp factor
  have near : 9 / 10 ≤ c ∧ c ≤ 11 / 10 := by
    norm_num at *
    constructor <;> linarith
  have low := mul_le_mul_of_nonneg_left near.1 positive.le
  have high := mul_le_mul_of_nonneg_left near.2 positive.le
  have product : Within (1 / 10000000) (y * c) (fl (y * c)) := by
    refine (rounding.within ?_ ?_).mono ?_ ?_ <;> norm_num at * <;> linarith
  have nonneg : (0 : ℝ) ≤ v := by exact_mod_cast (zpow_pos two_pos _).le.trans large
  have root := Real.sqrt_nonneg (v : ℝ)
  have square : (√(v : ℝ) * y) ^ 2 = (v * y ^ 2 : ℚ) := by
    rw [mul_pow, Real.sq_sqrt nonneg]
    push_cast
    ring
  have rootPositive : 0 < √(v : ℝ) := by
    apply Real.sqrt_pos.mpr
    exact_mod_cast (zpow_pos two_pos _).trans_le large
  have guessPositive : (0 : ℝ) < y := by exact_mod_cast positive
  apply newton_rounded (s := √(v : ℝ) * y) (c := c) (mul_pos rootPositive guessPositive)
  · have bound : ((233 / 250 : ℚ) : ℝ) ≤ ((v * y ^ 2 : ℚ) : ℝ) := Rat.cast_le.mpr lower
    rw [square]
    simpa using bound
  · have bound : ((v * y ^ 2 : ℚ) : ℝ) ≤ ((2139 / 2000 : ℚ) : ℝ) := Rat.cast_le.mpr upper
    rw [square]
    simpa using bound
  · have bound : ((|c - (3 - v * y ^ 2) / 2| : ℚ) : ℝ) ≤ ((1 / 1000000 : ℚ) : ℝ) :=
      Rat.cast_le.mpr factor
    rw [square]
    simpa using bound
  · have miss : (fl (y * c) : ℝ) * √v - √v * y * c = √v * ((fl (y * c) - y * c : ℚ) : ℝ) := by
      push_cast
      ring
    have bound : ((|fl (y * c) - y * c| : ℚ) : ℝ) ≤ ((1 / 10000000 * (y * c) : ℚ) : ℝ) := by
      exact_mod_cast product
    rw [miss, abs_mul, abs_of_nonneg root, ← Rat.cast_abs]
    refine (mul_le_mul_of_nonneg_left bound root).trans ?_
    push_cast
    have size : 0 ≤ √(v : ℝ) * (y * c) := by
      have factorNonneg : (0 : ℝ) ≤ c := by
        exact_mod_cast (by norm_num : (0 : ℚ) ≤ 9 / 10).trans near.1
      positivity
    linarith

/-- The bits of `1.0f`. -/
theorem invSqrt_accurate_one
    : |(invSqrt nearest 0x3f800000#32 : ℝ) * √(value 0x3f800000#32) - 1| ≤ 9 / 5000 :=
  invSqrt_accurate rounding_nearest ⟨by decide, by decide, by decide⟩ (by decide)

end Granum.Madgwick
