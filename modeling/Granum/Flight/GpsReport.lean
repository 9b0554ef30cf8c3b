import Granum.Flight.GpsFix

/-! A fix, from the sentence of the receiver to the message of the main loop. -/

namespace Granum.Flight

open Binary32

/-- The fields of a fix as they are written. Those that the main loop does not use may be any. -/
structure GgaText where
  talker : UInt8 × UInt8
  time : TimeText
  latitude : CoordinateText
  longitude : CoordinateText
  quality : Fin 10
  satellites : List UInt8
  hdop : List UInt8
  altitude : NumberText
  altitudeUnits : List UInt8
  height : List UInt8
  heightUnits : List UInt8
  age : List UInt8
  station : List UInt8

namespace GgaText

/-- `N` and `S`, `E` and `W`. -/
def directionText (positive : Bool) (letters : UInt8 × UInt8) : List UInt8 :=
  [if positive then letters.1 else letters.2]

def northSouth : UInt8 × UInt8 := (78, 83)
def eastWest : UInt8 × UInt8 := (69, 87)

variable (g : GgaText)

def fields : List (List UInt8) :=
  [dollar :: g.talker.1 :: g.talker.2 :: ggaType, g.time.text, g.latitude.number.text,
    directionText g.latitude.positive northSouth, g.longitude.number.text,
    directionText g.longitude.positive eastWest, digitsText [g.quality], g.satellites, g.hdop,
    g.altitude.text, g.altitudeUnits, g.height, g.heightUnits, g.age, g.station]

/-- What stands between the dollar sign and the checksum. -/
def body : List UInt8 := ([comma].intercalate g.fields).tail

/-- The fields whose text may be any. -/
def others : List (List UInt8) :=
  [[g.talker.1, g.talker.2], g.satellites, g.hdop, g.altitudeUnits, g.height, g.heightUnits, g.age,
    g.station]

/-- A fix whose fields can be read. -/
structure Valid : Prop where
  characters : ∀ field ∈ g.others, ∀ c ∈ field, minmeaIsField c
  latitude : g.latitude.Fits
  longitude : g.longitude.Fits
  fixed : g.quality ≠ 0
  satellites : (scanInt (some g.satellites)).isSome
  hdop : (scanFloat (some g.hdop)).isSome
  altitude : g.altitude.Fits
  height : (scanFloat (some g.height)).isSome
  age : (scanInt (some g.age)).isSome

theorem text_eq : [comma].intercalate g.fields = dollar :: g.body := rfl

-----------------------------------------------------------------------------------------
-- The sentence and its fields
-----------------------------------------------------------------------------------------

/-- By induction on the fields. -/
theorem covered_intercalate {fields : List (List UInt8)}
    (all : ∀ field ∈ fields, ∀ c ∈ field, minmeaIsField c)
    : ∀ c ∈ [comma].intercalate fields, isCovered c := by
  induction fields with
  | nil => simp
  | cons field rest ih =>
      obtain ⟨here, later⟩ := List.forall_mem_cons.mp all
      have inside : ∀ c ∈ field, isCovered c := fun c member =>
        isCovered_iff.mpr (Or.inl (here c member))
      cases rest with
      | nil => simpa using inside
      | cons next rest =>
          rw [List.intercalate_cons_cons]
          intro c member
          rcases List.mem_append.mp member with before | behind
          · rcases List.mem_append.mp before with inField | separates
            · exact inside c inField
            · exact isCovered_iff.mpr (Or.inr (List.mem_singleton.mp separates))
          · exact ih later c behind

theorem isField_timeText (t : TimeText) : ∀ c ∈ t.text, minmeaIsField c := by
  rw [TimeText.text, List.forall_mem_append]
  refine ⟨forall_digitsText isField_digitChar _, ?_⟩
  cases t.fraction with
  | none => exact List.forall_mem_nil _
  | some digits => exact List.forall_mem_cons.mpr ⟨rfl, forall_digitsText isField_digitChar digits⟩

theorem isField_numberText (n : NumberText) : ∀ c ∈ n.text, minmeaIsField c := by
  rw [NumberText.text, List.forall_mem_append, List.forall_mem_append, List.forall_mem_cons]
  refine ⟨?_, forall_digitsText isField_digitChar _, rfl, forall_digitsText isField_digitChar _⟩
  split
  · exact List.forall_mem_singleton.mpr rfl
  · exact List.forall_mem_nil _

theorem isField_directionText {letters : UInt8 × UInt8}
    (all : minmeaIsField letters.1 ∧ minmeaIsField letters.2) (positive : Bool)
    : ∀ c ∈ directionText positive letters, minmeaIsField c := by
  rw [directionText, List.forall_mem_singleton]
  split
  · exact all.1
  · exact all.2

section Valid

variable {g}

theorem Valid.isField (valid : g.Valid) : ∀ field ∈ g.fields, ∀ c ∈ field, minmeaIsField c := by
  have others := valid.characters
  have digits : ∀ c ∈ digitsText [g.quality], minmeaIsField c :=
    forall_digitsText isField_digitChar _
  simp only [GgaText.others, fields, ggaType, List.forall_mem_cons, List.not_mem_nil, false_implies,
    implies_true, and_true] at others ⊢
  obtain ⟨⟨first, second⟩, satellites, hdop, units, height, heightUnits, age, station⟩ := others
  exact ⟨⟨rfl, first, second, rfl, rfl, rfl⟩, isField_timeText _, isField_numberText _,
    isField_directionText ⟨rfl, rfl⟩ _, isField_numberText _, isField_directionText ⟨rfl, rfl⟩ _,
    digits, satellites, hdop, isField_numberText _, units, height, heightUnits, age, station⟩

theorem Valid.covered (valid : g.Valid) : ∀ c ∈ g.body, isCovered c := fun c member =>
  covered_intercalate valid.isField c (by rw [text_eq]; exact List.mem_cons_of_mem _ member)

/-- The text is split into its fields again. -/
theorem Valid.split (valid : g.Valid) : (dollar :: g.body).splitOn comma = g.fields := by
  rw [← text_eq]
  refine List.splitOn_intercalate comma ?_ (List.cons_ne_nil _ _)
  intro field member separates
  exact absurd (valid.isField field member comma separates) (by decide)

theorem scanDirection_text (positive : Bool)
    : scanDirection (some (directionText positive northSouth)) = some (if positive then 1 else -1)
      ∧ scanDirection (some (directionText positive eastWest))
        = some (if positive then 1 else -1) := by
  cases positive <;> decide

theorem scanType_text {talker : UInt8 × UInt8}
    (characters : ∀ c ∈ dollar :: talker.1 :: talker.2 :: ggaType, minmeaIsField c)
    : scanType (some (dollar :: talker.1 :: talker.2 :: ggaType))
      = some (talker.1 :: talker.2 :: ggaType) := by
  have first := characters talker.1 (by simp)
  have second := characters talker.2 (by simp)
  have letters : minmeaIsField 71 = true ∧ minmeaIsField 65 = true := by decide
  simp [scanType, deref, List.range_succ, first, second, ggaType, letters]

/-- The main loop reads the fix that is written. -/
theorem Valid.parse (valid : g.Valid) {sentence rest : List UInt8} (ends : Ends rest)
    (text : sentence = dollar :: (g.body ++ rest))
    : ∃ frame, minmeaParseGga sentence = some frame
        ∧ frame.time = g.time.time
        ∧ frame.latitude = g.latitude.float.directed g.latitude.sign
        ∧ frame.longitude = g.longitude.float.directed g.longitude.sign
        ∧ frame.altitude = g.altitude.float
        ∧ frame.fixQuality = (g.quality : ℕ) := by
  have covered : ∀ c ∈ dollar :: g.body, isCovered c :=
    List.forall_mem_cons.mpr ⟨rfl, valid.covered⟩
  have scan : minmeaScan sentence ggaFormat = scanFields ggaFormat false g.fields := by
    rw [minmeaScan, text, ← valid.split, ← List.cons_append]
    exact scanLoop_eq_fields ends ggaFormat false covered
  have type := scanType_text (valid.isField _ (List.mem_cons_self ..))
  have quality : scanInt (some (digitsText [g.quality])) = some ((g.quality : ℕ) : ℤ) := by
    have digit : Decimal.number [g.quality] = g.quality := by simp [Decimal.number]
    rw [scanInt_text (List.cons_ne_nil g.quality []), digit, min_eq_right (by omega)]
  obtain ⟨satellites, satellitesRead⟩ := Option.isSome_iff_exists.mp valid.satellites
  obtain ⟨hdop, hdopRead⟩ := Option.isSome_iff_exists.mp valid.hdop
  obtain ⟨height, heightRead⟩ := Option.isSome_iff_exists.mp valid.height
  obtain ⟨age, ageRead⟩ := Option.isSome_iff_exists.mp valid.age
  have values : scanFields ggaFormat false g.fields
      = some [.string (g.talker.1 :: g.talker.2 :: ggaType), .time g.time.time,
          .float g.latitude.float, .int g.latitude.sign, .float g.longitude.float,
          .int g.longitude.sign, .int (g.quality : ℕ), .int satellites, .float hdop,
          .float g.altitude.float, .char (scanChar (some g.altitudeUnits)), .float height,
          .char (scanChar (some g.heightUnits)), .int age] := by
    simp [ggaFormat, fields, scanFields, scanField, type, scanTime_text,
      CoordinateText.scan valid.latitude, CoordinateText.scan valid.longitude,
      scanDirection_text, quality, satellitesRead, hdopRead, NumberText.scan valid.altitude,
      heightRead, ageRead, CoordinateText.sign]
  have named : (g.talker.1 :: g.talker.2 :: ggaType).drop 2 = ggaType := rfl
  rw [minmeaParseGga, scan, values]
  simp only [named, ne_eq, not_true_eq_false, if_false]
  exact ⟨_, rfl, rfl, rfl, rfl, rfl, rfl⟩

end Valid

-----------------------------------------------------------------------------------------
-- The message
-----------------------------------------------------------------------------------------

/-- The time on the day of `gps_basedate`, in microseconds. -/
def usec : ℤ :=
  mktime 2018 5 1 g.time.time.hours g.time.time.minutes g.time.time.seconds * 1000000
    + g.time.time.microseconds

/-- The message says what the fix does: the time exactly, the coordinates up to three parts in ten
million and a unit, the altitude up to one part in four million and a millimetre.
-/
structure Reported (message : HilGps) : Prop where
  timeUsec : message.timeUsec = some g.usec
  lat : ∃ z : ℤ, message.lat = some z
    ∧ |(z : ℚ) - g.latitude.exact * 10000000| ≤ 3 * |g.latitude.exact| + 1
  lon : ∃ z : ℤ, message.lon = some z
    ∧ |(z : ℚ) - g.longitude.exact * 10000000| ≤ 3 * |g.longitude.exact| + 1
  alt : ∃ z : ℤ, message.alt = some z
    ∧ |(z : ℚ) - g.altitude.exact * 1000| ≤ |g.altitude.exact| / 4000 + 1
  fixType : message.fixType.toNat = g.quality

theorem gettime_usec
    : ∃ now, minmeaGettime gpsBasedate g.time.time = some now ∧ timeUsec now = g.usec := by
  have hours : 0 ≤ g.time.time.hours := Int.natCast_nonneg _
  have minutes : 0 ≤ g.time.time.minutes := Int.natCast_nonneg _
  have seconds : 0 ≤ g.time.time.seconds := Int.natCast_nonneg _
  have day : daysFromCivil 2018 5 1 = 17652 := by decide
  have set : ¬(gpsBasedate.year = -1 ∨ g.time.time.hours = -1) := by
    rintro (unset | unset)
    · exact absurd unset (by decide)
    · omega
  have started : mktime 2018 5 1 g.time.time.hours g.time.time.minutes g.time.time.seconds ≠ -1 := by
    rw [mktime, day]
    omega
  refine ⟨⟨mktime 2018 5 1 g.time.time.hours g.time.time.minutes g.time.time.seconds,
    g.time.time.microseconds * 1000⟩, ?_, ?_⟩
  · rw [minmeaGettime, if_neg set]
    exact if_pos started
  · -- Nanoseconds that are microseconds lose nothing.
    have whole : ∀ s u : ℤ, (s : ℚ) * 1000000 + ((u * 1000 : ℤ) : ℚ) / 1000
        = ((s * 1000000 + u : ℤ) : ℚ) := fun s u => by
      push_cast
      ring
    rw [timeUsec, whole, Int.floor_intCast]
    rfl

section Stream

variable {g}

/-- One pass of the main loop over a sentence that is written. -/
theorem Valid.pass {fl : ℚ → ℚ} (rounding : Rounding fl) (valid : g.Valid) {rest : List UInt8}
    {sentence : List UInt8} (text : cString sentence = dollar :: (g.body ++ rest))
    (ends : Ends rest) (accepted : minmeaCheck (cString sentence) false = true)
    (gpsTime : Option GpsTime)
    : ∃ message ∈ (gpsPass fl gpsTime sentence).2, g.Reported message := by
  obtain ⟨frame, parsed, time, latitude, longitude, altitude, quality⟩ := valid.parse ends text
  have fixed : frame.fixQuality ≠ 0 := by
    rw [quality]
    exact_mod_cast Fin.val_ne_zero_iff.mpr valid.fixed
  obtain ⟨now, set, usec⟩ := g.gettime_usec
  have sent : (gpsPass fl gpsTime sentence).2 = [hilGps fl (some now) frame] := by
    simp only [gpsPass, accepted, if_true, parsed, fixed, if_false, time, set, Option.orElse_some]
  rw [sent]
  refine ⟨hilGps fl (some now) frame, List.mem_singleton_self _, ?_, ?_, ?_, ?_, ?_⟩
  · exact congrArg some usec
  · obtain ⟨z, reported, near⟩ := CoordinateText.reported rounding valid.latitude
    exact ⟨z, by rw [hilGps, latitude, reported], near⟩
  · obtain ⟨z, reported, near⟩ := CoordinateText.reported rounding valid.longitude
    exact ⟨z, by rw [hilGps, longitude, reported], near⟩
  · obtain ⟨z, reported, near⟩ := NumberText.reported rounding valid.altitude
    exact ⟨z, by rw [hilGps, altitude, reported], near⟩
  · have all : ∀ q : Fin 10, (UInt8.ofInt (q : ℕ)).toNat = q := by decide
    rw [hilGps, quality, all]

section Sentence

variable {body tag : List UInt8}

/-- Neither the fields nor the checksum can be taken for the end of the sentence. -/
theorem plain_of_sealed (covered : ∀ c ∈ body, isCovered c) (sealed : Seals body tag ∨ tag = [])
    : ∀ c ∈ body ++ tag, c ∉ [0, carriageReturn, lineFeed] := by
  have unlike : ∀ c ∈ [0, carriageReturn, lineFeed],
      isCovered c = false ∧ hex2int c = none ∧ c ≠ asterisk := by
    rw [List.forall_mem_cons, List.forall_mem_cons, List.forall_mem_singleton]
    exact ⟨⟨rfl, rfl, by decide⟩, ⟨rfl, rfl, by decide⟩, ⟨rfl, rfl, by decide⟩⟩
  intro c member framing
  obtain ⟨uncovered, digit, star⟩ := unlike c framing
  rcases List.mem_append.mp member with inBody | inTag
  · exact absurd (covered c inBody) (Bool.eq_false_iff.mp uncovered)
  · rcases sealed with ⟨upper, lower, u, l, rfl, high, low, -⟩ | rfl
    · rcases List.mem_cons.mp inTag with rfl | inDigits
      · exact star rfl
      · rcases List.mem_pair.mp inDigits with rfl | rfl
        · exact nomatch high.symm.trans digit
        · exact nomatch low.symm.trans digit
    · cases inTag

theorem framed_of_plain (plain : ∀ c ∈ body ++ tag, c ∉ [0, carriageReturn, lineFeed])
    (short : (body ++ tag).length ≤ minmeaMaxLength)
    : gpsFraming.Body (body ++ tag)
      ∧ cString (gpsSentence (body ++ tag)) = gpsSentence (body ++ tag) := by
  rw [minmeaMaxLength] at short
  constructor
  · refine ⟨fun symbol mem closing => plain symbol mem (List.mem_cons_of_mem _ closing), ?_⟩
    change (gpsSentence (body ++ tag)).length < msgBufSize
    rw [gpsSentence, List.length_append, List.length_cons, msgBufSize]
    exact Nat.lt_of_le_of_lt (Nat.add_le_add_right (Nat.succ_le_succ short) _) (by decide)
  · rw [cString, List.takeWhile_eq_self_iff]
    intro c member
    rw [decide_eq_true_iff]
    rintro rfl
    rcases List.mem_append.mp member with inside | closing
    · rcases List.mem_cons.mp inside with opening | inside
      · exact absurd opening (by decide)
      · exact plain 0 inside (List.mem_cons_self ..)
    · exact absurd closing (by decide)

theorem covers_gpsSentence (covered : ∀ c ∈ body, isCovered c) (sealed : Seals body tag ∨ tag = [])
    : Covers (gpsSentence (body ++ tag)) body (tag ++ [carriageReturn, lineFeed]) := by
  refine ⟨by simp [gpsSentence], covered, ?_⟩
  rcases sealed with ⟨upper, lower, u, l, rfl, -⟩ | rfl
  · rfl
  · rfl

theorem check_gpsSentence (covered : ∀ c ∈ body, isCovered c) (sealed : Seals body tag ∨ tag = [])
    (short : (body ++ tag).length ≤ minmeaMaxLength)
    : minmeaCheck (gpsSentence (body ++ tag)) false = true := by
  have ends : [carriageReturn, lineFeed] ∈ newlines := by decide
  rw [(covers_gpsSentence covered sealed).check, Bool.and_eq_true, decide_eq_true_iff,
    checkEnd_iff]
  constructor
  · rw [gpsSentence, List.length_append, List.length_cons]
    exact Nat.add_le_add_right (Nat.succ_le_succ short) 2
  · rcases sealed with seals | rfl
    · exact Or.inl ⟨tag, _, rfl, seals, ends⟩
    · exact Or.inr ⟨ends, rfl⟩

end Sentence

/-- A fix that comes while the framer has no sentence open is reported, whatever came before it and
however its bytes are divided among the calls of `_parseGPS`.
-/
theorem fix_reported {fl : ℚ → ℚ} (rounding : Rounding fl) (valid : g.Valid) {tag : List UInt8}
    (sealed : Seals g.body tag ∨ tag = []) (short : (g.body ++ tag).length ≤ minmeaMaxLength)
    {bytes : ℕ → UInt8} {calls : List ℕ} {junk : List UInt8}
    (idle : (gpsFraming.reference 0 junk).2 = [])
    (read : junk ++ gpsSentence (g.body ++ tag) <+: consumed bytes calls)
    : ∃ message ∈ gpsMessages fl bytes calls, g.Reported message := by
  have covers := covers_gpsSentence valid.covered sealed
  have accepted := check_gpsSentence valid.covered sealed short
  obtain ⟨body, string⟩ := framed_of_plain (plain_of_sealed valid.covered sealed) short
  obtain ⟨more, consumed⟩ := read
  have delivered : gpsSentence (g.body ++ tag)
      ∈ (deliveries (some ∘ bytes) calls).map Prod.snd := by
    rw [deliveries_eq_collector, ← consumed]
    exact List.mem_map_of_mem ((gpsFraming.delivered_after_iff body junk more).mpr idle)
  obtain ⟨before, after, split⟩ := List.append_of_mem delivered
  have text : cString (gpsSentence (g.body ++ tag))
      = dollar :: (g.body ++ (tag ++ [carriageReturn, lineFeed])) :=
    string.trans covers.eq
  have checked : minmeaCheck (cString (gpsSentence (g.body ++ tag))) false = true := by
    rw [string]
    exact accepted
  obtain ⟨message, sent, reported⟩ := valid.pass rounding text (covers.ends accepted) checked
    ((gpsBranch fl).finish none before)
  refine ⟨message, ?_, reported⟩
  rw [gpsMessages, split, Mealy.outputs_append]
  exact List.mem_append_right _ (List.mem_append_left _ sent)

/-- A fix as a receiver writes it. -/
def sampleFix : GgaText where
  talker := (71, 80)
  time := ⟨(1, 2), (3, 5), (1, 9), none⟩
  latitude := ⟨true, [4, 8], (0, 7), [0, 3, 8]⟩
  longitude := ⟨true, [0, 1, 1], (3, 1), [0, 0, 0]⟩
  quality := 1
  satellites := [48, 56]
  hdop := [48, 46, 57]
  altitude := ⟨false, [5, 4, 5], [4]⟩
  altitudeUnits := [77]
  height := [52, 54, 46, 57]
  heightUnits := [77]
  age := []
  station := []

theorem sampleFix_valid : sampleFix.Valid where
  characters := by decide +kernel
  latitude := ⟨by decide +kernel, by decide, by decide⟩
  longitude := ⟨by decide +kernel, by decide, by decide⟩
  fixed := by decide
  satellites := by decide +kernel
  hdop := by decide +kernel
  altitude := ⟨by decide, by decide +kernel, by decide, by decide⟩
  height := by decide +kernel
  age := by decide

/-- What the receiver writes, after the end of a sentence before it. -/
def sampleBytes : List UInt8 :=
  [52, carriageReturn, lineFeed] ++ gpsSentence (sampleFix.body ++ [asterisk, 52, 55])

theorem fix_reported_sample
    : ∃ message ∈ gpsMessages nearest (streamOf sampleBytes) [40, 100], sampleFix.Reported message := by
  have sealed : Seals sampleFix.body [asterisk, 52, 55] ∨ [asterisk, 52, 55] = [] :=
    Or.inl ⟨52, 55, 4, 7, rfl, by decide, by decide, by decide +kernel⟩
  have read : [52, carriageReturn, lineFeed] ++ gpsSentence (sampleFix.body ++ [asterisk, 52, 55])
      <+: consumed (streamOf sampleBytes) [40, 100] := by
    decide +kernel
  have idle : (gpsFraming.reference 0 [52, carriageReturn, lineFeed]).2 = [] := by
    rw [gpsFraming.reference_skip 0 _ (by decide), gpsFraming.reference_skip _ _ (by decide),
      gpsFraming.reference_skip _ _ (by decide), Framing.reference]
  exact fix_reported rounding_nearest sampleFix_valid sealed (by decide +kernel) idle read

end Stream

end GgaText

-----------------------------------------------------------------------------------------
-- Wrong bytes
-----------------------------------------------------------------------------------------

/-- A fix with a checksum, and what has come of it: at most one byte is wrong. -/
structure Damaged (sent received : List UInt8) : Prop where
  tagged : minmeaCheck sent true = true
  fix : (minmeaParseGga sent).isSome
  wrong : OneByte sent received

/-- The messages for fixes that follow each other. A fix whose time cannot be read gets that of the
fix before it.
-/
def reports (fl : ℚ → ℚ) : Option GpsTime → List MinmeaSentenceGga → List HilGps
  | _, [] => []
  | gpsTime, frame :: rest =>
      let now := (minmeaGettime gpsBasedate frame.time).orElse fun _ => gpsTime
      hilGps fl now frame :: reports fl now rest

section Damaged

variable {fl : ℚ → ℚ}

variable (fl) in
/-- A pass over a damaged sentence does nothing, or what the sentence as it was sent leads to. -/
theorem Damaged.pass {sent received : List UInt8} (damaged : Damaged sent received)
    (gpsTime : Option GpsTime)
    : gpsPass fl gpsTime received = (gpsTime, [])
      ∨ ∃ frame, minmeaParseGga sent = some frame ∧ frame.fixQuality ≠ 0
        ∧ gpsPass fl gpsTime received
          = ((minmeaGettime gpsBasedate frame.time).orElse fun _ => gpsTime,
            [hilGps fl ((minmeaGettime gpsBasedate frame.time).orElse fun _ => gpsTime) frame]) := by
  obtain ⟨frame, fix⟩ := Option.isSome_iff_exists.mp damaged.fix
  by_cases accepted : minmeaCheck (cString received) false = true
  · cases parsed : minmeaParseGga (cString received) with
    | none => exact Or.inl (by simp only [gpsPass, accepted, if_true, parsed])
    | some frame' =>
        obtain rfl := gga_oneByte damaged.tagged fix damaged.wrong accepted parsed
        by_cases fixed : frame'.fixQuality = 0
        · exact Or.inl (by simp only [gpsPass, accepted, if_true, parsed, fixed])
        · refine Or.inr ⟨frame', fix, fixed, ?_⟩
          simp only [gpsPass, accepted, if_true, parsed, fixed, if_false]
  · exact Or.inl (by simp only [gpsPass, accepted, Bool.false_eq_true, if_false])

end Damaged

end Granum.Flight
