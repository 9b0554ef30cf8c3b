import Granum.Flight.GpsSentences
import Granum.Flight.MinmeaNumbers
import Granum.Library.Binary32

/-! The GPS part of the main loop: from the sentences of the framer to the messages. What is not
defined, a time that was never set or a float that does not fit, is missing.
-/

namespace Granum.Flight

open Binary32 Decimal

-----------------------------------------------------------------------------------------
-- The functions of the header
-----------------------------------------------------------------------------------------

/-- `minmea_tofloat`, without a value for the NaN. -/
def minmeaTofloat (fl : ℚ → ℚ) (f : MinmeaFloat) : Option ℚ :=
  if f.scale = 0 then none else some (fl (fl f.value / fl f.scale))

/-- `minmea_tocoord`, from degrees and minutes to degrees. -/
def minmeaTocoord (fl : ℚ → ℚ) (f : MinmeaFloat) : Option ℚ :=
  if f.scale = 0 then none
  else
    let degrees := f.value.tdiv (wrap32 (f.scale * 100))
    let minutes := f.value.tmod (wrap32 (f.scale * 100))
    some (fl (fl degrees + fl (fl minutes / fl (wrap32 (60 * f.scale)))))

/-- `(int32_t)`, where it is defined. -/
def toInt32 (x : ℚ) : Option ℤ :=
  let truncated := if 0 ≤ x then ⌊x⌋ else ⌈x⌉
  if -2 ^ 31 ≤ truncated ∧ truncated ≤ 2 ^ 31 - 1 then some truncated else none

/-- The days since 1970, in the Gregorian calendar. -/
def daysFromCivil (year month day : ℤ) : ℤ :=
  let year := if month ≤ 2 then year - 1 else year
  let era := year / 400
  let yearOfEra := year - era * 400
  let dayOfYear := (153 * ((month + 9) % 12) + 2) / 5 + day - 1
  era * 146097 + (yearOfEra * 365 + yearOfEra / 4 - yearOfEra / 100 + dayOfYear) - 719468

/-- `mktime` on a clock of UTC. -/
def mktime (year month day hours minutes seconds : ℤ) : ℤ :=
  daysFromCivil year month day * 86400 + hours * 3600 + minutes * 60 + seconds

/-- `struct timespec`, as `minmea_gettime` sets it. -/
structure GpsTime where
  tvSec : ℤ
  tvNsec : ℤ
  deriving DecidableEq, Repr

/-- The time that is set, unless the result is `-1`. -/
def minmeaGettime (date : MinmeaDate) (time : MinmeaTime) : Option GpsTime :=
  if date.year = -1 ∨ time.hours = -1 then none
  else
    let timestamp :=
      mktime (2000 + date.year) date.month date.day time.hours time.minutes time.seconds
    if timestamp ≠ -1 then some ⟨timestamp, time.microseconds * 1000⟩ else none

-----------------------------------------------------------------------------------------
-- The main loop
-----------------------------------------------------------------------------------------

/-- `gps_basedate` -/
def gpsBasedate : MinmeaDate := ⟨1, 5, 18⟩

/-- `HIL_GPS` -/
structure HilGps where
  timeUsec : Option ℤ
  lat : Option ℤ
  lon : Option ℤ
  alt : Option ℤ
  eph : UInt16
  epv : UInt16
  vel : UInt16
  vn : Int16
  ve : Int16
  vd : Int16
  cog : UInt16
  fixType : UInt8
  satellitesVisible : UInt8

/-- The doubles of the time are exact. -/
def timeUsec (time : GpsTime) : ℤ := ⌊(time.tvSec * 1000000 + time.tvNsec / 1000 : ℚ)⌋

/-- `gps_msg` for a fix. -/
def hilGps (fl : ℚ → ℚ) (gpsTime : Option GpsTime) (frame : MinmeaSentenceGga) : HilGps where
  timeUsec := gpsTime.map timeUsec
  lat :=
    (minmeaTocoord fl frame.latitude).bind fun coordinate => toInt32 (fl (coordinate * 10000000))
  lon :=
    (minmeaTocoord fl frame.longitude).bind fun coordinate => toInt32 (fl (coordinate * 10000000))
  alt := (minmeaTofloat fl frame.altitude).bind fun altitude => toInt32 (fl (altitude * 1000))
  eph := 0
  epv := 0
  vel := 0
  vn := 0
  ve := 0
  vd := 0
  cog := 0
  fixType := UInt8.ofInt frame.fixQuality
  satellitesVisible := 0xff

/-- The block of the main loop for a sentence in `_msg_buffer`. Its state is `gps_time`, if set. -/
def gpsPass (fl : ℚ → ℚ) (gpsTime : Option GpsTime) (msgBuffer : List UInt8)
    : Option GpsTime × List HilGps :=
  let sentence := cString msgBuffer
  if minmeaCheck sentence false then
    match minmeaParseGga sentence with
    | none => (gpsTime, [])
    | some frame =>
        if frame.fixQuality = 0 then (gpsTime, [])
        else
          let gpsTime := (minmeaGettime gpsBasedate frame.time).orElse fun _ => gpsTime
          (gpsTime, [hilGps fl gpsTime frame])
  else (gpsTime, [])

def gpsBranch (fl : ℚ → ℚ) : Mealy (Option GpsTime) (List UInt8) HilGps := ⟨gpsPass fl⟩

/-- The messages that the bytes of the receiver lead to, over calls of `_parseGPS`. -/
def gpsMessages (fl : ℚ → ℚ) (bytes : ℕ → UInt8) (calls : List ℕ) : List HilGps :=
  (gpsBranch fl).outputs none ((deliveries (some ∘ bytes) calls).map Prod.snd)

-----------------------------------------------------------------------------------------
-- Coordinates
-----------------------------------------------------------------------------------------

/-- A coordinate as it is written: degrees, two digits of minutes, and those behind the point. -/
structure CoordinateText where
  positive : Bool
  degrees : List (Fin 10)
  minutes : Fin 10 × Fin 10
  fraction : List (Fin 10)

namespace CoordinateText

variable (c : CoordinateText)

def number : NumberText := ⟨false, c.degrees ++ pairDigits c.minutes, c.fraction⟩

def sign : ℤ := if c.positive then 1 else -1

/-- Its degrees, without the sign. -/
def magnitude : ℚ := Decimal.number c.degrees + decimal (pairDigits c.minutes) c.fraction / 60

/-- The coordinate that it says, in degrees. -/
def exact : ℚ := c.sign * c.magnitude

/-- The numbers have enough bits. -/
structure Fits : Prop where
  value : Decimal.number (c.degrees ++ pairDigits c.minutes ++ c.fraction) ≤ maxValue
  fraction : c.fraction.length ≤ 7
  degrees : Decimal.number c.degrees ≤ 180

/-- What is read. -/
def float : MinmeaFloat where
  value := Decimal.number (c.degrees ++ pairDigits c.minutes ++ c.fraction)
  scale := 10 ^ c.fraction.length

variable {c}

theorem sign_cases (c : CoordinateText) : c.sign = 1 ∨ c.sign = -1 := by
  rw [sign]
  split
  · exact Or.inl rfl
  · exact Or.inr rfl

theorem scan (fits : c.Fits) : scanFloat (some c.number.text) = some c.float := by
  have nonempty : c.number.whole ≠ [] := by simp [number, pairDigits]
  have read := scanFloat_fits c.number nonempty fits.value (fits.fraction.trans (by decide))
  have unsigned : c.number.sign = 1 := rfl
  rw [read, unsigned, one_mul]
  rfl

/-- The minutes, with what is behind their point. -/
def minutesNumber (c : CoordinateText) : ℕ := Decimal.number (pairDigits c.minutes ++ c.fraction)

theorem value_split (c : CoordinateText)
    : Decimal.number (c.degrees ++ pairDigits c.minutes ++ c.fraction)
      = Decimal.number c.degrees * 10 ^ (c.fraction.length + 2) + c.minutesNumber := by
  rw [List.append_assoc, number_append, continued_eq, minutesNumber, List.length_append,
    Nat.add_comm c.fraction.length]
  rfl

theorem minutesNumber_lt (c : CoordinateText) : c.minutesNumber < 10 ^ (c.fraction.length + 2) := by
  have bound := number_lt (pairDigits c.minutes ++ c.fraction)
  rwa [List.length_append, Nat.add_comm] at bound

theorem wrap32_scales {k : ℕ} (short : k ≤ 7)
    : wrap32 (10 ^ k * 100) = 10 ^ (k + 2) ∧ wrap32 (60 * 10 ^ k) = 60 * 10 ^ k
      ∧ (10 : ℤ) ^ k ≠ 0 := by
  have all : ∀ k < 8, wrap32 (10 ^ k * 100) = 10 ^ (k + 2) ∧ wrap32 (60 * 10 ^ k) = 60 * 10 ^ k
      ∧ (10 : ℤ) ^ k ≠ 0 := by
    decide
  exact all k (Nat.lt_succ_of_le short)

/-- The degrees and the minutes are told apart. -/
theorem tocoord_float (fits : c.Fits) (fl : ℚ → ℚ)
    : minmeaTocoord fl c.float
      = some (fl (fl (Decimal.number c.degrees)
          + fl (fl c.minutesNumber / fl (60 * 10 ^ c.fraction.length)))) := by
  obtain ⟨hundred, sixty, nonzero⟩ := wrap32_scales fits.fraction
  have split : (Decimal.number (c.degrees ++ pairDigits c.minutes ++ c.fraction) : ℤ)
      = c.minutesNumber + Decimal.number c.degrees * 10 ^ (c.fraction.length + 2) := by
    rw [value_split]
    push_cast
    ring
  have small : (c.minutesNumber : ℤ) < 10 ^ (c.fraction.length + 2) := by
    exact_mod_cast c.minutesNumber_lt
  have natural : (0 : ℤ) ≤ c.minutesNumber := Int.natCast_nonneg _
  have positive : (10 : ℤ) ^ (c.fraction.length + 2) ≠ 0 := pow_ne_zero _ (by decide)
  have total : (0 : ℤ)
      ≤ c.minutesNumber + Decimal.number c.degrees * 10 ^ (c.fraction.length + 2) :=
    add_nonneg natural (mul_nonneg (Int.natCast_nonneg _) (pow_nonneg (by decide) _))
  have degrees : (c.float.value).tdiv (10 ^ (c.fraction.length + 2))
      = Decimal.number c.degrees := by
    rw [float, split, Int.tdiv_eq_ediv_of_nonneg total,
      Int.add_mul_ediv_right _ _ positive, Int.ediv_eq_zero_of_lt natural small, zero_add]
  have minutes : (c.float.value).tmod (10 ^ (c.fraction.length + 2)) = c.minutesNumber := by
    rw [float, split, Int.tmod_eq_emod_of_nonneg total, Int.add_mul_emod_self_right,
      Int.emod_eq_of_lt natural small]
  have scale : c.float.scale = 10 ^ c.fraction.length := rfl
  rw [minmeaTocoord, if_neg (by rwa [scale]), scale, hundred, sixty, degrees, minutes]
  push_cast
  rfl

end CoordinateText

-----------------------------------------------------------------------------------------
-- Rounding
-----------------------------------------------------------------------------------------

section Accuracy

variable {fl : ℚ → ℚ}

theorem tocoord_directed (rounding : Rounding fl) {s : ℤ} (sign : s = 1 ∨ s = -1) (f : MinmeaFloat)
    : minmeaTocoord fl (f.directed s) = (minmeaTocoord fl f).map ((s : ℚ) * ·) := by
  by_cases unset : f.scale = 0
  · simp [minmeaTocoord, MinmeaFloat.directed, unset]
  · rcases sign with rfl | rfl
    · simp [minmeaTocoord, MinmeaFloat.directed, unset]
    · simp only [minmeaTocoord, MinmeaFloat.directed, unset, if_false, mul_neg_one, Int.neg_tdiv,
        Int.neg_tmod, Int.cast_neg, Int.cast_one, neg_one_mul, rounding.neg, neg_div, ← neg_add,
        Option.map_some]

/-- A conversion of a number that is not negative rounds down. -/
theorem toInt32_floor {x : ℚ} (nonneg : 0 ≤ x) (small : x < 2 ^ 31)
    : toInt32 x = some ⌊x⌋ ∧ toInt32 (-x) = some (-⌊x⌋) := by
  have lower : 0 ≤ ⌊x⌋ := Int.floor_nonneg.mpr nonneg
  have upper : ⌊x⌋ < 2 ^ 31 := Int.floor_lt.mpr (by exact_mod_cast small)
  constructor
  · rw [toInt32, if_pos nonneg, if_pos ⟨by omega, by omega⟩]
  · rcases nonneg.eq_or_lt with rfl | positive
    · simp [toInt32]
    · have below : ¬0 ≤ -x := by linarith
      simp only [toInt32, below, if_false, Int.ceil_neg]
      rw [if_pos ⟨by omega, by omega⟩]

/-- A float that is near a number, converted with a sign. -/
theorem toInt32_near {e x y : ℚ} (near : Within e x y) (small : e ≤ 1 / 1000) (nonneg : 0 ≤ x)
    (fits : x ≤ 2000000000) {s : ℤ} (sign : s = 1 ∨ s = -1)
    : ∃ z : ℤ, toInt32 (s * y) = some z ∧ |(z : ℚ) - s * x| ≤ e * x + 1 := by
  have lower : 0 ≤ y :=
    (mul_nonneg (by linarith) nonneg).trans near.lower
  have upper : y < 2 ^ 31 := by
    have bound := near.upper.trans (mul_le_mul (by linarith : 1 + e ≤ 1001 / 1000) fits nonneg
      (by norm_num))
    norm_num at bound ⊢
    linarith
  obtain ⟨up, down⟩ := toInt32_floor lower upper
  have cut : |(⌊y⌋ : ℚ) - y| ≤ 1 := by
    rw [abs_le]
    exact ⟨by linarith [Int.lt_floor_add_one y], by linarith [Int.floor_le y]⟩
  have error : |(⌊y⌋ : ℚ) - x| ≤ e * x + 1 :=
    calc |(⌊y⌋ : ℚ) - x| ≤ |(⌊y⌋ : ℚ) - y| + |y - x| := abs_sub_le _ _ _
      _ ≤ 1 + e * x := add_le_add cut near
      _ = e * x + 1 := add_comm _ _
  rcases sign with rfl | rfl
  · exact ⟨⌊y⌋, by rwa [Int.cast_one, one_mul], by rwa [Int.cast_one, one_mul]⟩
  · refine ⟨-⌊y⌋, ?_, ?_⟩
    · rw [Int.cast_neg, Int.cast_one, neg_one_mul, down]
    · rw [Int.cast_neg, Int.cast_neg, Int.cast_one, neg_one_mul, neg_sub_neg, abs_sub_comm]
      exact error

/-- The relative error of a quotient of two rounded numbers, rounded. -/
theorem quotient_near (rounding : Rounding fl) {n d : ℕ} (top : n ≤ 2 ^ 31) (bottom : d ≤ 2 ^ 31)
    (positive : 0 < d)
    : Within (3002 / 1000 * 2 ^ (-24 : ℤ)) ((n : ℚ) / d) (fl (fl n / fl d)) := by
  have above : (0 : ℚ) < d := Nat.cast_pos.mpr positive
  have first := rounding.within_exact (moderate_natCast (top.trans (by norm_num)))
  have second := rounding.within_exact (moderate_natCast (bottom.trans (by norm_num)))
  have ratio := (first.div second (Nat.cast_nonneg n) above (by norm_num)).mono
    (by norm_num : _ ≤ (2001 / 1000 * 2 ^ (-24 : ℤ) : ℚ)) (div_nonneg (Nat.cast_nonneg n) above.le)
  have moderate : Moderate ((n : ℚ) / d) := by
    rcases Nat.eq_zero_or_pos n with rfl | some
    · exact Or.inl (by rw [Nat.cast_zero, zero_div])
    · have one : (1 : ℚ) ≤ n := Nat.one_le_cast.mpr some
      have large : (n : ℚ) ≤ 2 ^ 31 := by exact_mod_cast top
      have divisor : (d : ℚ) ≤ 2 ^ 31 := by exact_mod_cast bottom
      have unit : (1 : ℚ) ≤ d := Nat.one_le_cast.mpr positive
      refine Or.inr ⟨?_, ?_⟩
      · rw [div_le_div_iff₀ (by norm_num) above]
        linarith
      · rw [div_le_iff₀ above]
        linarith
  exact (rounding.within_of_within ratio (by norm_num) moderate).mono (by norm_num)
    moderate.nonneg

namespace CoordinateText

variable {c : CoordinateText}

theorem magnitude_eq (c : CoordinateText)
    : c.magnitude
      = Decimal.number c.degrees + (c.minutesNumber : ℚ) / (60 * 10 ^ c.fraction.length : ℕ) := by
  rw [magnitude, decimal, div_div, minutesNumber]
  push_cast
  rw [mul_comm (60 : ℚ)]

theorem bounds (fits : c.Fits)
    : c.minutesNumber ≤ 10 ^ 9 ∧ 60 * 10 ^ c.fraction.length ≤ 2 ^ 31
      ∧ 0 < 60 * 10 ^ c.fraction.length := by
  have power : 10 ^ c.fraction.length ≤ 10 ^ 7 := Nat.pow_le_pow_right (by decide) fits.fraction
  have minutes := c.minutesNumber_lt
  rw [pow_add] at minutes
  refine ⟨by omega, by omega, by positivity⟩

theorem moderate_magnitude (fits : c.Fits) : Moderate c.magnitude := by
  obtain ⟨few, sixty, positive⟩ := bounds fits
  have divisor : (0 : ℚ) < (60 * 10 ^ c.fraction.length : ℕ) := Nat.cast_pos.mpr positive
  have least : (1 : ℚ) ≤ (60 * 10 ^ c.fraction.length : ℕ) := Nat.one_le_cast.mpr positive
  have most : ((60 * 10 ^ c.fraction.length : ℕ) : ℚ) ≤ 2 ^ 31 := by exact_mod_cast sixty
  have degrees : (Decimal.number c.degrees : ℚ) ≤ 180 := by exact_mod_cast fits.degrees
  have minutes : (c.minutesNumber : ℚ) ≤ 10 ^ 9 := by exact_mod_cast few
  have share : (0 : ℚ) ≤ c.minutesNumber / (60 * 10 ^ c.fraction.length : ℕ) :=
    div_nonneg (Nat.cast_nonneg _) divisor.le
  have shareMost : (c.minutesNumber : ℚ) / (60 * 10 ^ c.fraction.length : ℕ) ≤ 10 ^ 9 :=
    (div_le_self (Nat.cast_nonneg _) least).trans minutes
  rw [magnitude_eq]
  rcases Nat.eq_zero_or_pos (Decimal.number c.degrees) with none | some
  · rcases Nat.eq_zero_or_pos c.minutesNumber with north | some
    · exact Or.inl (by rw [none, north, Nat.cast_zero, zero_div, add_zero])
    · have one : (1 : ℚ) ≤ c.minutesNumber := Nat.one_le_cast.mpr some
      refine Or.inr ⟨?_, by linarith⟩
      rw [none, Nat.cast_zero, zero_add, div_le_div_iff₀ (by norm_num) divisor]
      linarith
  · have one : (1 : ℚ) ≤ Decimal.number c.degrees := Nat.one_le_cast.mpr some
    exact Or.inr ⟨by linarith, by linarith⟩

/-- The float of the coordinate. -/
theorem near_magnitude {fl : ℚ → ℚ} (rounding : Rounding fl) (fits : c.Fits)
    : Within (4003 / 1000 * 2 ^ (-24 : ℤ)) c.magnitude
        (fl (fl (Decimal.number c.degrees)
          + fl (fl c.minutesNumber / fl (60 * 10 ^ c.fraction.length)))) := by
  obtain ⟨few, sixty, positive⟩ := bounds fits
  have small : Decimal.number c.degrees ≤ 10 ^ 12 := fits.degrees.trans (by norm_num)
  have degrees := (rounding.within_exact (moderate_natCast small)).mono
    (by norm_num : _ ≤ (3002 / 1000 * 2 ^ (-24 : ℤ) : ℚ)) (Nat.cast_nonneg _)
  have minutes := quotient_near rounding (few.trans (by norm_num)) sixty positive
  have sum := degrees.add minutes
  rw [← magnitude_eq] at sum
  have rounded := rounding.within_of_within sum (by norm_num) (moderate_magnitude fits)
  have shown := rounded.mono (by norm_num : _ ≤ (4003 / 1000 * 2 ^ (-24 : ℤ) : ℚ))
    (moderate_magnitude fits).nonneg
  simpa only [Nat.cast_mul, Nat.cast_pow, Nat.cast_ofNat] using shown

theorem magnitude_le (fits : c.Fits) : c.magnitude ≤ 182 := by
  have degrees : (Decimal.number c.degrees : ℚ) ≤ 180 := by exact_mod_cast fits.degrees
  have minutes : (c.minutesNumber : ℚ) ≤ 10 ^ (c.fraction.length + 2) := by
    exact_mod_cast c.minutesNumber_lt.le
  have positive : (0 : ℚ) < 60 * 10 ^ c.fraction.length :=
    mul_pos (by norm_num) (pow_pos (by norm_num) _)
  have share : (c.minutesNumber : ℚ) / (60 * 10 ^ c.fraction.length : ℕ) ≤ 2 := by
    push_cast
    rw [div_le_iff₀ positive]
    rw [pow_add] at minutes
    linarith
  rw [magnitude_eq]
  linarith

/-- The coordinate of a message, in units of `1e-7` degrees. -/
theorem reported {fl : ℚ → ℚ} (rounding : Rounding fl) (fits : c.Fits)
    : ∃ z : ℤ, ((minmeaTocoord fl (c.float.directed c.sign)).bind fun coordinate =>
          toInt32 (fl (coordinate * 10000000))) = some z
        ∧ |(z : ℚ) - c.exact * 10000000| ≤ 3 * |c.exact| + 1 := by
  have nonneg := (moderate_magnitude fits).nonneg
  have most := magnitude_le fits
  have moderate : Moderate (c.magnitude * 10000000) := by
    rcases moderate_magnitude fits with zero | ⟨lower, upper⟩
    · exact Or.inl (by rw [zero, zero_mul])
    · exact Or.inr ⟨by linarith, by linarith⟩
  have product := (near_magnitude rounding fits).mul_right (z := 10000000) (by norm_num)
  have rounded := (rounding.within_of_within product (by norm_num) moderate).mono
    (by norm_num : _ ≤ (3 / 10000000 : ℚ)) moderate.nonneg
  obtain ⟨z, converted, near⟩ := toInt32_near rounded (by norm_num) moderate.nonneg (by linarith)
    c.sign_cases
  have magnitude : |c.exact| = c.magnitude := by
    rw [exact, abs_mul, abs_of_nonneg nonneg, sign]
    split <;> norm_num
  refine ⟨z, ?_, ?_⟩
  · rw [tocoord_directed rounding c.sign_cases, tocoord_float fits, Option.map_some,
      Option.bind_some, mul_assoc, rounding.mul_sign c.sign_cases, converted]
  · rw [magnitude, exact, mul_assoc]
    exact near.trans (by linarith)

end CoordinateText

namespace NumberText

variable {n : NumberText}

/-- An altitude with enough bits, also for its millimetres. -/
structure Fits (n : NumberText) : Prop where
  nonempty : n.whole ≠ []
  value : Decimal.number (n.whole ++ n.fraction) ≤ maxValue
  fraction : n.fraction.length ≤ 9
  whole : Decimal.number n.whole ≤ 1000000

/-- What is read. -/
def float (n : NumberText) : MinmeaFloat where
  value := n.sign * Decimal.number (n.whole ++ n.fraction)
  scale := 10 ^ n.fraction.length

theorem sign_cases (n : NumberText) : n.sign = 1 ∨ n.sign = -1 := by
  rw [sign]
  split
  · exact Or.inr rfl
  · exact Or.inl rfl

theorem scan (fits : n.Fits) : scanFloat (some n.text) = some n.float :=
  scanFloat_fits n fits.nonempty fits.value fits.fraction

theorem decimal_le (fits : n.Fits) : decimal n.whole n.fraction ≤ 1000001 := by
  have cut := (decimal_cut n.whole (List.nil_prefix : [] <+: n.fraction)).2
  have whole : decimal n.whole [] = Decimal.number n.whole := by
    rw [decimal, List.append_nil, List.length_nil, pow_zero, div_one]
  have most : (Decimal.number n.whole : ℚ) ≤ 1000000 := by exact_mod_cast fits.whole
  rw [whole, List.length_nil, pow_zero, div_one] at cut
  linarith

/-- The altitude of a message, in millimetres. -/
theorem reported {fl : ℚ → ℚ} (rounding : Rounding fl) (fits : n.Fits)
    : ∃ z : ℤ, ((minmeaTofloat fl n.float).bind fun altitude => toInt32 (fl (altitude * 1000)))
          = some z
        ∧ |(z : ℚ) - n.exact * 1000| ≤ |n.exact| / 4000 + 1 := by
  have top : Decimal.number (n.whole ++ n.fraction) ≤ 2 ^ 31 := by
    have value := fits.value
    rw [maxValue_eq] at value
    omega
  have bottom : 10 ^ n.fraction.length ≤ 2 ^ 31 :=
    (Nat.pow_le_pow_right (by decide) fits.fraction).trans (by decide)
  have nonneg := decimal_nonneg n.whole n.fraction
  have most := decimal_le fits
  have near : Within (3002 / 1000 * 2 ^ (-24 : ℤ)) (decimal n.whole n.fraction)
      (fl (fl (Decimal.number (n.whole ++ n.fraction)) / fl (10 ^ n.fraction.length))) := by
    simpa only [decimal, Nat.cast_pow, Nat.cast_ofNat]
      using quotient_near rounding top bottom (by positivity)
  have moderate : Moderate (decimal n.whole n.fraction * 1000) := by
    rcases Nat.eq_zero_or_pos (Decimal.number (n.whole ++ n.fraction)) with zero | some
    · exact Or.inl (by rw [decimal, zero, Nat.cast_zero, zero_div, zero_mul])
    · have one : (1 : ℚ) ≤ Decimal.number (n.whole ++ n.fraction) := Nat.one_le_cast.mpr some
      have scale : (10 : ℚ) ^ n.fraction.length ≤ 2 ^ 31 := by exact_mod_cast bottom
      refine Or.inr ⟨?_, by linarith⟩
      rw [decimal, div_mul_eq_mul_div, div_le_div_iff₀ (by norm_num) (pow_pos (by norm_num) _)]
      linarith
  have rounded := (rounding.within_of_within (near.mul_right (z := 1000) (by norm_num))
    (by norm_num) moderate).mono (by norm_num : _ ≤ (1 / 4000000 : ℚ)) moderate.nonneg
  obtain ⟨z, converted, error⟩ := toInt32_near rounded (by norm_num) moderate.nonneg (by linarith)
    n.sign_cases
  have magnitude : |n.exact| = decimal n.whole n.fraction := by
    rw [exact, abs_mul, abs_sign, one_mul, abs_of_nonneg nonneg]
  have scaled : n.float.scale ≠ 0 := pow_ne_zero _ (by decide)
  have scale : (n.float.scale : ℚ) = 10 ^ n.fraction.length := by
    rw [float, Int.cast_pow, Int.cast_ofNat]
  refine ⟨z, ?_, ?_⟩
  · rw [minmeaTofloat, if_neg scaled, Option.bind_some, scale, float, Int.cast_mul,
      Int.cast_natCast, rounding.mul_sign n.sign_cases, mul_div_assoc,
      rounding.mul_sign n.sign_cases, mul_assoc, rounding.mul_sign n.sign_cases, converted]
  · rw [magnitude, exact, mul_assoc]
    exact error.trans (by linarith)

end NumberText

end Accuracy

end Granum.Flight
