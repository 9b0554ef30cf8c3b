import Granum.Library.FallibleRun
import Granum.Spectrometer.FrameMessageProcessor

/-! The stretch of the contrast. Its gain is a quotient of integers, by the upper bound alone, where
the range between both bounds should become that of a byte.
-/

namespace Granum.Spectrometer.Client

/-- `array[index]` -/
def byteOf (array : List UInt8) (index : ℕ) : Except Throwable UInt8 :=
  if index < array.length then .ok (array.getD index 0)
  else .error (.arrayIndexOutOfBounds (Int32.ofNat index))

/-- `array[index] = byte` -/
def setByte (array : List UInt8) (index : ℕ) (byte : UInt8) : Except Throwable (List UInt8) :=
  if index < array.length then .ok (array.set index byte)
  else .error (.arrayIndexOutOfBounds (Int32.ofNat index))

namespace FrameMessageProcessor

variable (p : FrameMessageProcessor)

/-- The gain is an `int`; the floats hold integers below `2 ^ 24`, without rounding. -/
def resampleLuma (byte : UInt8) : Except Throwable UInt8 :=
  let y := (unsigned byte).toInt - p.resampleMin.toInt
  if p.resampleMax = 0 then .error .arithmetic
  else
    let y := y * (255 / p.resampleMax).toInt
    .ok (UInt8.ofNat (max (min y 255) 0).toNat)

/-- One turn of the loop. -/
def resamplePixel (input output : List UInt8) (pixId : ℕ) : Except Throwable (List UInt8) := do
  let luma ← p.resampleLuma (← byteOf input (pixId * 2))
  let output ← setByte output (pixId * 2) luma
  setByte output (pixId * 2 + 1) (← byteOf input (pixId * 2 + 1))

def resampleYUYV (input : List UInt8) : Except Throwable (List UInt8) :=
  (List.range (input.length / 2)).foldlM (p.resamplePixel input) (List.replicate input.length 0)

end FrameMessageProcessor

/-- The luma between two bounds, stretched to the range of a byte and narrowed to an integer. -/
def contrast (low high y : ℤ) : ℤ :=
  ⌊max (min ((y - low : ℚ) * 255 / (high - low)) 255) 0⌋

/-- An array is stretched: the chroma stays, and the luma is mapped by the contrast, in order. -/
def FrameMessageProcessor.Stretches (p : FrameMessageProcessor) (input : List UInt8) : Prop :=
  ∃ output, p.resampleYUYV input = .ok output
    ∧ output.length = input.length
    ∧ (∀ i : ℕ, output[2 * i + 1]? = input[2 * i + 1]?)
    ∧ (∀ (i j : ℕ) (y z y' z' : UInt8), input[2 * i]? = some y → input[2 * j]? = some z → y ≤ z
      → output[2 * i]? = some y' → output[2 * j]? = some z' → y' ≤ z')
    ∧ ∀ (i : ℕ) (y : UInt8), input[2 * i]? = some y
      → ∃ y' : UInt8, output[2 * i]? = some y'
        ∧ (y'.toNat : ℤ) = contrast p.resampleMin.toInt p.resampleMax.toInt y.toNat

/-- What the gain loses does not reach a whole level for a luma byte. -/
def GainSuffices (low high y : ℤ) : Prop :=
  y ≤ low ∨ 255 ≤ (y - low) * (255 / high)
    ∨ (y - low) * (255 % high + 255 / high * low) < high - low

instance (low high y : ℤ) : Decidable (GainSuffices low high y) :=
  inferInstanceAs (Decidable (_ ∨ _ ∨ _))

section Gain

variable {low high y : ℤ}

theorem contrast_eq (ordered : low < high)
    : contrast low high y = max (min ((y - low) * 255 / (high - low)) 255) 0 := by
  have quotient : ⌊((y - low : ℚ) * 255 / (high - low))⌋ = (y - low) * 255 / (high - low) := by
    obtain ⟨width, positive⟩ := Int.eq_ofNat_of_zero_le (a := high - low) (by omega)
    have floor := Rat.floor_intCast_div_natCast ((y - low) * 255) width
    rw [← positive] at floor
    rw [← floor]
    congr 1
    push_cast
    rw [← Int.cast_natCast, ← positive]
    push_cast
    ring
  rw [contrast, Int.floor_mono.map_max, Int.floor_mono.map_min, quotient]
  rfl

/-- No float is rounded on the way to a level, as long as the bounds are bytes. -/
theorem floats_exact (nonnegative : 0 ≤ low) (ordered : low < high) (byte : high ≤ 255)
    (luma : UInt8)
    : |luma.toNat - low| < 2 ^ 24 ∧ |(luma.toNat - low) * (255 / high)| < 2 ^ 24 := by
  have positive : 0 ≤ 255 / high := Int.ediv_nonneg (by decide) (by omega)
  have gain : 255 / high ≤ 255 := Int.ediv_le_self _ (by decide)
  have bright := luma.toNat_lt
  have difference : |(luma.toNat : ℤ) - low| ≤ 255 := abs_le.mpr ⟨by omega, by omega⟩
  refine ⟨by omega, ?_⟩
  rw [abs_mul, abs_of_nonneg positive]
  have product := mul_le_mul difference gain positive (by decide)
  omega

/-- The gain gives the contrast of a byte, or less. -/
theorem gain_eq_contrast_iff (nonnegative : 0 ≤ low) (ordered : low < high)
    : max (min ((y - low) * (255 / high)) 255) 0 = contrast low high y
      ↔ GainSuffices low high y := by
  rw [contrast_eq ordered, GainSuffices]
  have gain : 0 ≤ 255 / high := Int.ediv_nonneg (by decide) (by omega)
  have lost : 0 ≤ 255 % high + 255 / high * low :=
    add_nonneg (Int.emod_nonneg _ (by omega)) (mul_nonneg gain nonnegative)
  rcases le_or_gt y low with below | above
  · have least : (y - low) * (255 / high) ≤ 0 := mul_nonpos_of_nonpos_of_nonneg (by omega) gain
    have dark : (y - low) * 255 / (high - low) ≤ 0 := 
      Int.ediv_nonpos_of_nonpos_of_neg (by omega) (by omega)
    omega
  · have level : 0 ≤ (y - low) * (255 / high) := mul_nonneg (by omega) gain
    have missing : 0 ≤ (y - low) * (255 % high + 255 / high * low) := mul_nonneg (by omega) lost
    -- the exact product is the one with the gain, and a rest
    have rest : (y - low) * 255
        = (y - low) * (255 % high + 255 / high * low)
          + (y - low) * (255 / high) * (high - low) := by
      have whole := Int.mul_ediv_add_emod 255 high
      calc (y - low) * 255 = (y - low) * (high * (255 / high) + 255 % high) := by rw [whole]
        _ = _ := by ring
    rw [rest, Int.add_mul_ediv_right _ _ (by omega)]
    have less : (y - low) * (255 % high + 255 / high * low) / (high - low) ≤ 0
        ↔ (y - low) * (255 % high + 255 / high * low) < high - low := by
      rw [← Int.lt_add_one_iff, zero_add, Int.ediv_lt_iff_lt_mul (by omega), one_mul]
    have quotient : 0 ≤ (y - low) * (255 % high + 255 / high * low) / (high - low) :=
      Int.ediv_nonneg missing (by omega)
    omega

end Gain

-----------------------------------------------------------------------------------------
-- The loop

section Loop

open FrameMessageProcessor

variable {p : FrameMessageProcessor} {input : List UInt8}

/-- The byte that is stored for a luma byte. -/
def level (p : FrameMessageProcessor) (byte : UInt8) : UInt8 :=
  UInt8.ofNat
    (max (min ((byte.toNat - p.resampleMin.toInt) * (255 / p.resampleMax).toInt) 255) 0).toNat

theorem resampleLuma_ok (nonzero : p.resampleMax ≠ 0) (byte : UInt8)
    : p.resampleLuma byte = .ok (level p byte) := by
  rw [resampleLuma, toInt_unsigned, if_neg nonzero]
  rfl

/-- What has been stored after some pixels. -/
structure Filled (p : FrameMessageProcessor) (input output : List UInt8) (count : ℕ) : Prop where
  length : output.length = input.length
  luma : ∀ i < count, output[2 * i]? = input[2 * i]?.map (level p)
  chroma : ∀ i < count, output[2 * i + 1]? = input[2 * i + 1]?

theorem resamplePixel_filled (nonzero : p.resampleMax ≠ 0) {output : List UInt8} {count : ℕ}
    (inside : 2 * count + 1 < input.length) (filled : Filled p input output count)
    : ∃ next, p.resamplePixel input output count = .ok next
      ∧ Filled p input next (count + 1) := by
  have length := filled.length
  have read (index : ℕ) (small : index < input.length)
      : byteOf input index = .ok (input.getD index 0) := if_pos small
  refine ⟨(output.set (count * 2) (level p (input.getD (count * 2) 0))).set (count * 2 + 1)
    (input.getD (count * 2 + 1) 0), ?_, ?_⟩
  · have stored : setByte output (count * 2) (level p (input.getD (count * 2) 0))
        = .ok (output.set (count * 2) (level p (input.getD (count * 2) 0))) :=
      if_pos (by omega)
    have storedNext (luma : UInt8) : setByte (output.set (count * 2) luma) (count * 2 + 1)
          (input.getD (count * 2 + 1) 0)
        = .ok ((output.set (count * 2) luma).set (count * 2 + 1)
          (input.getD (count * 2 + 1) 0)) :=
      if_pos (by rw [List.length_set]; omega)
    rw [resamplePixel, read _ (by omega), read _ (by omega)]
    simp only [bind, Except.bind, resampleLuma_ok nonzero, stored, storedNext]
  · have at_luma : input[2 * count]? = some (input.getD (count * 2) 0) := by
      rw [mul_comm 2 count, List.getD_eq_getElem?_getD, List.getElem?_eq_getElem (by omega)]
      rfl
    have at_chroma : input[2 * count + 1]? = some (input.getD (count * 2 + 1) 0) := by
      rw [mul_comm 2 count, List.getD_eq_getElem?_getD, List.getElem?_eq_getElem (by omega)]
      rfl
    refine ⟨by rw [List.length_set, List.length_set, length], ?_, ?_⟩
    · intro i below
      rcases Nat.lt_succ_iff_lt_or_eq.mp below with before | rfl
      · rw [List.getElem?_set_ne (by omega), List.getElem?_set_ne (by omega), filled.luma i before]
      · rw [List.getElem?_set_ne (by omega), mul_comm 2 i, List.getElem?_set_self (by omega),
          mul_comm i 2, at_luma, mul_comm i 2]
        rfl
    · intro i below
      rcases Nat.lt_succ_iff_lt_or_eq.mp below with before | rfl
      · rw [List.getElem?_set_ne (by omega), List.getElem?_set_ne (by omega),
          filled.chroma i before]
      · rw [mul_comm 2 i, List.getElem?_set_self (by rw [List.length_set]; omega), mul_comm i 2,
          at_chroma, mul_comm i 2]

/-- All pixels are stored, by induction on their number. -/
theorem loop_filled (nonzero : p.resampleMax ≠ 0) {count : ℕ} (inside : 2 * count ≤ input.length)
    : ∃ output, (List.range count).foldlM (p.resamplePixel input)
        (List.replicate input.length 0) = .ok output
      ∧ Filled p input output count := by
  induction count with
  | zero => exact ⟨_, rfl, List.length_replicate, by simp, by simp⟩
  | succ count ih =>
      obtain ⟨output, ran, filled⟩ := ih (by omega)
      obtain ⟨next, stepped, filledNext⟩ := resamplePixel_filled nonzero (by omega) filled
      refine ⟨next, ?_, filledNext⟩
      rw [List.range_succ]
      refine (FallibleRun.run_concat count).trans ?_
      rw [FallibleRun.run, ran]
      exact stepped

theorem resampleYUYV_filled (nonzero : p.resampleMax ≠ 0) (input : List UInt8)
    : ∃ output, p.resampleYUYV input = .ok output
      ∧ Filled p input output (input.length / 2) := loop_filled nonzero (by omega)

theorem toNat_level (byte : UInt8)
    : ((level p byte).toNat : ℤ)
      = max (min ((byte.toNat - p.resampleMin.toInt) * (255 / p.resampleMax).toInt) 255) 0 := by
  rw [level, UInt8.toNat_ofNat_of_lt' (by simp)]
  omega

/-- Each byte is stretched in order, also where the gain is wrong. -/
theorem level_mono (gain : 0 ≤ (255 / p.resampleMax).toInt) {y z : UInt8} (le : y ≤ z)
    : level p y ≤ level p z := by
  have scaled : ((y.toNat : ℤ) - p.resampleMin.toInt) * (255 / p.resampleMax).toInt
      ≤ (z.toNat - p.resampleMin.toInt) * (255 / p.resampleMax).toInt := by
    have bytes : y.toNat ≤ z.toNat := le
    exact mul_le_mul_of_nonneg_right (by omega) gain
  have levels : ((level p y).toNat : ℤ) ≤ (level p z).toNat := by
    rw [toNat_level, toNat_level]
    omega
  exact UInt8.le_iff_toNat_le.mpr (by omega)

end Loop

/-- An array is stretched exactly if for each of its luma bytes what is lost by dividing 255 by the
upper bound is less than a level.
-/
theorem stretches_iff (p : FrameMessageProcessor) {min max : Int32} (nonnegative : 0 ≤ min.toInt)
    (ordered : min.toInt < max.toInt) (byte : max.toInt ≤ 255) {input : List UInt8}
    (even : Even input.length)
    : (p.setResampleParams min max).Stretches input
      ↔ ∀ (i : ℕ) (y : UInt8), input[2 * i]? = some y → GainSuffices min.toInt max.toInt y.toNat := by
  have gain : (255 / max).toInt = 255 / max.toInt := by
    rw [Int32.toInt_div_of_ne_left 255 max (by decide)]
    exact Int.tdiv_eq_ediv_of_nonneg (by decide)
  have nonzero : max ≠ 0 := by
    rintro rfl
    rw [Int32.toInt_zero] at ordered
    omega
  obtain ⟨pixels, length⟩ := even
  obtain ⟨output, ran, filled⟩ :=
    resampleYUYV_filled (p := p.setResampleParams min max) nonzero input
  have luma (i : ℕ) (y : UInt8) (found : input[2 * i]? = some y)
      : output[2 * i]? = some (level (p.setResampleParams min max) y) := by
    obtain ⟨inside, -⟩ := List.getElem?_eq_some_iff.mp found
    rw [filled.luma i (by omega), found]
    rfl
  have right (y : UInt8)
      : ((level (p.setResampleParams min max) y).toNat : ℤ) = contrast min.toInt max.toInt y.toNat
        ↔ GainSuffices min.toInt max.toInt y.toNat := by
    rw [toNat_level, ← gain_eq_contrast_iff nonnegative ordered, ← gain]
    rfl
  constructor
  · rintro ⟨output', ran', -, -, -, stretched⟩ i y found
    obtain rfl := Except.ok.inj (ran.symm.trans ran')
    obtain ⟨y', stored, exact⟩ := stretched i y found
    obtain rfl := Option.some.inj ((luma i y found).symm.trans stored)
    exact (right y).mp exact
  · intro gains
    refine ⟨output, ran, filled.length, ?_, ?_, ?_⟩
    · intro i
      rcases Nat.lt_or_ge i (input.length / 2) with inside | outside
      · exact filled.chroma i inside
      · have short := filled.length
        rw [List.getElem?_eq_none (by omega), List.getElem?_eq_none (by omega)]
    · intro i j y z y' z' first second le firstStored secondStored
      rw [luma i y first] at firstStored
      rw [luma j z second] at secondStored
      obtain rfl := Option.some.inj firstStored
      obtain rfl := Option.some.inj secondStored
      exact level_mono (gain ▸ Int.ediv_nonneg (by decide) (by omega)) le
    · intro i y found
      exact ⟨_, luma i y found, (right y).mpr (gains i y found)⟩

/-- The contrast of all bytes is right exactly if the bounds are 0 and a divisor of 255. -/
theorem gainSuffices_all_iff {low high : ℤ} (nonnegative : 0 ≤ low) (ordered : low < high)
    (byte : high ≤ 255)
    : (∀ y : UInt8, GainSuffices low high y.toNat) ↔ low = 0 ∧ high ∣ 255 := by
  have whole := Int.mul_ediv_add_emod 255 high
  have gain : 1 ≤ 255 / high := (Int.le_ediv_iff_mul_le (by omega)).mpr (by omega)
  have rest := Int.emod_nonneg 255 (b := high) (by omega)
  have product : 0 ≤ 255 / high * low := mul_nonneg (by omega) nonnegative
  constructor
  · intro all
    obtain ⟨y, upper⟩ : ∃ y : UInt8, (y.toNat : ℤ) = high := by
      refine ⟨UInt8.ofNat high.toNat, ?_⟩
      rw [UInt8.toNat_ofNat_of_lt' (by simp; omega)]
      omega
    have nothing : 255 % high + 255 / high * low = 0 := by
      rcases upper ▸ all y with none | bright | less
      · omega
      · have exact : (high - low) * (255 / high) = 255 - (255 % high + 255 / high * low) := by
          linarith
        omega
      · have below := lt_of_mul_lt_mul_left (less.trans_eq (mul_one _).symm) (by omega)
        omega
    refine ⟨?_, Int.dvd_of_emod_eq_zero (by omega)⟩
    rcases mul_eq_zero.mp (by omega : 255 / high * low = 0) with none | dark
    · omega
    · exact dark
  · rintro ⟨rfl, divides⟩ y
    refine Or.inr (Or.inr ?_)
    rw [Int.emod_eq_zero_of_dvd divides]
    simpa using ordered

/-- Dark pixels, five times as bright. -/
theorem stretches_iff_fivefold
    : (({} : FrameMessageProcessor).setResampleParams 0 51).Stretches
        [10, 128, 51, 127, 200, 128] := by
  refine (stretches_iff {} (by decide) (by decide) (by decide) (by decide)).mpr ?_
  intro i y _
  exact (gainSuffices_all_iff (by decide) (by decide) (by decide)).mpr ⟨rfl, by decide⟩ y

/-- The bounds 100 and 200, of which the upper one is stretched to 100 only. -/
def narrowed : FrameMessageProcessor := ({} : FrameMessageProcessor).setResampleParams 100 200

theorem upper_bound_stays_dark
    : ¬ ∀ (p : FrameMessageProcessor) (min max : Int32) (input : List UInt8), 0 ≤ min.toInt
      → min.toInt < max.toInt → max.toInt ≤ 255 → Even input.length
      → (p.setResampleParams min max).Stretches input := by
  intro stretches
  obtain ⟨output, ran, -, -, -, luma⟩ :=
    stretches {} 100 200 [200, 128] (by decide) (by decide) (by decide) (by decide)
  have computed : narrowed.resampleYUYV [200, 128] = .ok [100, 128] := by decide
  obtain rfl := Except.ok.inj (computed.symm.trans ran)
  obtain ⟨y, stored, exact⟩ := luma 0 200 rfl
  obtain rfl := Option.some.inj stored
  rw [contrast_eq (by decide)] at exact
  exact absurd exact (by decide)

end Granum.Spectrometer.Client
