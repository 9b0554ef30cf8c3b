import Mathlib

/-! Signed integers of 32 bits: when their operations are exact, and loops that count them up. -/

namespace Int32

variable {a b : Int32}

theorem toInt_add_exact (low : -2 ^ 31 ≤ a.toInt + b.toInt) (high : a.toInt + b.toInt < 2 ^ 31)
    : (a + b).toInt = a.toInt + b.toInt := by
  rw [toInt_add]
  exact Int.bmod_eq_of_le low high

theorem toInt_sub_exact (low : -2 ^ 31 ≤ a.toInt - b.toInt) (high : a.toInt - b.toInt < 2 ^ 31)
    : (a - b).toInt = a.toInt - b.toInt := by
  rw [toInt_sub]
  exact Int.bmod_eq_of_le low high

/-- A sum that is too large comes out negative. -/
theorem toInt_add_large (large : 2 ^ 31 ≤ a.toInt + b.toInt)
    : (a + b).toInt = a.toInt + b.toInt - 2 ^ 32 := by
  have ha := a.toInt_lt
  have hb := b.toInt_lt
  rw [toInt_add, ← Int.sub_bmod_right]
  exact Int.bmod_eq_of_le (by omega) (by omega)

theorem toInt_half (nonnegative : 0 ≤ a.toInt) : (a / 2).toInt = a.toInt / 2 := by
  rw [toInt_div_of_ne_right a 2 (by decide)]
  exact Int.tdiv_eq_ediv_of_nonneg nonnegative

/-- Consecutive integers, from a first one. -/
def consecutive (start : ℤ) (count : ℕ) : List ℤ :=
  (List.range count).map fun n : ℕ => start + n

theorem mem_consecutive {start n : ℤ} {count : ℕ}
    : n ∈ consecutive start count ↔ start ≤ n ∧ n < start + count := by
  rw [consecutive, List.mem_map]
  constructor
  · rintro ⟨k, mem, eq⟩
    rw [List.mem_range] at mem
    omega
  · rintro ⟨above, below⟩
    exact ⟨(n - start).toNat, List.mem_range.mpr (by omega), by omega⟩

theorem consecutive_succ (start : ℤ) (count : ℕ)
    : consecutive start (count + 1) = consecutive start count ++ [start + count] := by
  simp [consecutive, List.range_succ]

/-- The values of a counter that starts at `low` and is increased while it is below `high`. -/
def upTo (low high : Int32) : List Int32 :=
  (List.range (high.toInt - low.toInt).toNat).map fun i => low + ofNat i

variable {low high i : Int32}

theorem toInt_counter {n : ℕ} (inside : n < (high.toInt - low.toInt).toNat)
    : (low + ofNat n).toInt = low.toInt + n := by
  have bottom := low.le_toInt
  have top := high.toInt_lt
  have width : size = 2 ^ 32 := rfl
  rw [toInt_add, toInt_ofNat', width, Int.add_bmod_bmod]
  exact Int.bmod_eq_of_le (by omega) (by omega)

theorem map_toInt_upTo
    : (upTo low high).map toInt = consecutive low.toInt (high.toInt - low.toInt).toNat := by
  rw [upTo, consecutive, List.map_map]
  exact List.map_congr_left fun n mem => toInt_counter (List.mem_range.mp mem)

theorem mem_upTo : i ∈ upTo low high ↔ low.toInt ≤ i.toInt ∧ i.toInt < high.toInt := by
  have mapped : i ∈ upTo low high ↔ i.toInt ∈ (upTo low high).map toInt :=
    (List.mem_map_of_injective fun _ _ => toInt.inj).symm
  rw [mapped, map_toInt_upTo, mem_consecutive]
  omega

/-- What holds of all values of a counter, over the integers. -/
theorem forall_mem_upTo {P : ℤ → Prop}
    : (∀ i ∈ upTo low high, P i.toInt) ↔ ∀ n, low.toInt ≤ n → n < high.toInt → P n := by
  constructor
  · intro all n above below
    have bottom := low.le_toInt
    have top := high.toInt_lt
    have exact : (ofInt n).toInt = n := toInt_ofInt_of_le (by omega) (by omega)
    have at_n := all (ofInt n) (mem_upTo.mpr (by omega))
    rwa [exact] at at_n
  · intro all i mem
    obtain ⟨above, below⟩ := mem_upTo.mp mem
    exact all i.toInt above below

theorem upTo_eq_nil (empty : high.toInt ≤ low.toInt) : upTo low high = [] := by
  rw [upTo, Int.toNat_of_nonpos (by omega)]
  rfl

/-- An accumulator holds the sum of what was added, reduced to the range of an integer. -/
theorem toInt_foldl_add {ι : Type*} (f : ι → Int32) (items : List ι) (start : Int32)
    : (items.foldl (fun total i => total + f i) start).toInt
      = (start.toInt + (items.map fun i => (f i).toInt).sum).bmod (2 ^ 32) := by
  induction items generalizing start with
  | nil => simp
  | cons i rest ih =>
      rw [List.foldl_cons, ih, toInt_add, List.map_cons, List.sum_cons, Int.bmod_add_bmod,
        Int.add_assoc]

end Int32
