import Mathlib

/-! Numbers of a fixed width as little-endian bytes. -/

namespace LittleEndian

/-- The `width` low bytes of a number, the lowest first. -/
def leBytes : ℕ → ℕ → List UInt8
  | 0, _ => []
  | width + 1, n => UInt8.ofNat n :: leBytes width (n / 256)

/-- The number that bytes stand for, the lowest first. -/
def leNat : List UInt8 → ℕ
  | [] => 0
  | byte :: rest => byte.toNat + 256 * leNat rest

@[simp] theorem length_leBytes (width n : ℕ) : (leBytes width n).length = width := by
  induction width generalizing n with
  | zero => rfl
  | succ width ih => simp [leBytes, ih]

theorem leNat_leBytes (width n : ℕ) : leNat (leBytes width n) = n % 256 ^ width := by
  induction width generalizing n with
  | zero => simp [leBytes, leNat, Nat.mod_one]
  | succ width ih =>
      have head : (UInt8.ofNat n).toNat = n % 256 := by simp
      rw [leBytes, leNat, ih, head, Nat.pow_succ', Nat.mod_mul]

/-- The bytes of a 32-bit word. -/
def word (x : UInt32) : List UInt8 := leBytes 4 x.toNat

@[simp] theorem length_word (x : UInt32) : (word x).length = 4 := length_leBytes 4 _

@[simp] theorem leNat_word (x : UInt32) : leNat (word x) = x.toNat := by
  rw [word, leNat_leBytes]
  exact Nat.mod_eq_of_lt x.toNat_lt

end LittleEndian
