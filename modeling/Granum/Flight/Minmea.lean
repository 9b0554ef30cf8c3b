import Granum.Flight.GpsParser

/-! The reader of the sentences, `minmea`. A string is the list of its characters without the
terminating zero, and a pointer into it is what is left from there on.
-/

namespace Granum.Flight

def minmeaMaxLength : ℕ := 100

def asterisk : UInt8 := 42
def comma : UInt8 := 44
def point : UInt8 := 46
def plus : UInt8 := 43
def minus : UInt8 := 45
def space : UInt8 := 32

/-- The string in a buffer. -/
def cString (buffer : List UInt8) : List UInt8 := buffer.takeWhile (· ≠ 0)

/-- `*pointer` -/
def deref (pointer : List UInt8) : UInt8 := pointer.headD 0

def isPrint (c : UInt8) : Bool := 32 ≤ c && c < 127

def isDigit (c : UInt8) : Bool := 48 ≤ c && c ≤ 57

def isSpace (c : UInt8) : Bool := c = 32 || 9 ≤ c && c ≤ 13

/-- `hex2int`, without a value instead of `-1`. -/
def hex2int (c : UInt8) : Option ℕ :=
  if 48 ≤ c ∧ c ≤ 57 then some (c.toNat - 48)
  else if 65 ≤ c ∧ c ≤ 70 then some (c.toNat - 65 + 10)
  else if 97 ≤ c ∧ c ≤ 102 then some (c.toNat - 97 + 10)
  else none

def minmeaIsField (c : UInt8) : Bool := isPrint c && c ≠ comma && c ≠ asterisk

-----------------------------------------------------------------------------------------
-- The checksum
-----------------------------------------------------------------------------------------

def xorAll (characters : List UInt8) : UInt8 := characters.foldl (· ^^^ ·) 0

/-- The end of the string, or a newline before it. -/
def endsHere (sentence : List UInt8) : Bool :=
  sentence = [] || sentence = [lineFeed] || sentence = [carriageReturn, lineFeed]

/-- What the checksum covers. -/
def isCovered (c : UInt8) : Bool := c ≠ asterisk && isPrint c

/-- `minmea_check` behind what is covered. -/
def checkEnd (covered sentence : List UInt8) (strict : Bool) : Bool :=
  if deref sentence = asterisk then
    let sentence := sentence.tail
    match hex2int (deref sentence) with
    | none => false
    | some upper =>
        let sentence := sentence.tail
        match hex2int (deref sentence) with
        | none => false
        | some lower =>
            if (xorAll covered).toNat ≠ upper <<< 4 ||| lower then false
            else endsHere sentence.tail
  else if strict then false
  else endsHere sentence

def minmeaCheck (sentence : List UInt8) (strict : Bool) : Bool :=
  if minmeaMaxLength + 3 < sentence.length then false
  else if deref sentence ≠ dollar then false
  else checkEnd (sentence.tail.takeWhile isCovered) (sentence.tail.dropWhile isCovered) strict

-----------------------------------------------------------------------------------------
-- The fields
-----------------------------------------------------------------------------------------

structure MinmeaFloat where
  value : ℤ
  scale : ℤ
  deriving DecidableEq, Repr

structure MinmeaDate where
  day : ℤ
  month : ℤ
  year : ℤ
  deriving DecidableEq, Repr

structure MinmeaTime where
  hours : ℤ
  minutes : ℤ
  seconds : ℤ
  microseconds : ℤ
  deriving DecidableEq, Repr

/-- What a letter of the format stores. -/
inductive ScanValue
  | char (value : UInt8)
  | int (value : ℤ)
  | float (value : MinmeaFloat)
  | string (value : List UInt8)
  | date (value : MinmeaDate)
  | time (value : MinmeaTime)
  deriving DecidableEq, Repr

/-- `INT_LEAST32_MAX` -/
def intLeast32Max : ℤ := 2 ^ 31 - 1

/-- What a product of 32 bits keeps. -/
def wrap32 (x : ℤ) : ℤ := x.bmod (2 ^ 32)

/-- The variables of the fractional value. -/
structure FloatScan where
  sign : ℤ := 0
  value : ℤ := -1
  scale : ℤ := 0
  deriving DecidableEq, Repr

/-- The loop of `f`. The scale is zero before the point. -/
def floatLoop (s : FloatScan) : List UInt8 → Option FloatScan
  | [] => some s
  | c :: field =>
      if !minmeaIsField c then some s
      else if c = plus ∧ s.sign = 0 ∧ s.value = -1 then floatLoop { s with sign := 1 } field
      else if c = minus ∧ s.sign = 0 ∧ s.value = -1 then floatLoop { s with sign := -1 } field
      else if isDigit c then
        let digit : ℤ := c.toNat - 48
        let value := if s.value = -1 then 0 else s.value
        if (intLeast32Max - digit) / 10 < value then
          -- Extra precision is truncated, a whole number is not.
          if s.scale ≠ 0 then some { s with value := value } else none
        else
          floatLoop
            { s with
              value := 10 * value + digit
              scale := if s.scale ≠ 0 then wrap32 (s.scale * 10) else s.scale }
            field
      else if c = point ∧ s.scale = 0 then floatLoop { s with scale := 1 } field
      else if c = space then
        if s.sign ≠ 0 ∨ s.value ≠ -1 ∨ s.scale ≠ 0 then none else floatLoop s field
      else none

/-- What the loop leaves, with zeros if there was no digit. -/
def FloatScan.finish (s : FloatScan) : Option MinmeaFloat :=
  if (s.sign ≠ 0 ∨ s.scale ≠ 0) ∧ s.value = -1 then none
  else
    let f : MinmeaFloat :=
      if s.value = -1 then ⟨0, 0⟩
      else if s.scale = 0 then ⟨s.value, 1⟩
      else ⟨s.value, s.scale⟩
    some (if s.sign ≠ 0 then { f with value := f.value * s.sign } else f)

def scanFloat (field : Option (List UInt8)) : Option MinmeaFloat :=
  ((field.elim (some {}) (floatLoop {})).bind FloatScan.finish)

/-- The number with these digits. -/
def digitsValue (digits : List UInt8) : ℤ := digits.foldl (fun n c => 10 * n + (c.toNat - 48)) 0

/-- A number of 32 bits after its sign, and what is left behind it. -/
def unsignedNumber (sign : ℤ) (text : List UInt8) : Option (ℤ × List UInt8) :=
  let digits := text.takeWhile isDigit
  if digits = [] then none
  else
    some (max (-2 ^ 31) (min (2 ^ 31 - 1) (sign * digitsValue digits)), text.dropWhile isDigit)

def signedNumber (text : List UInt8) : Option (ℤ × List UInt8) :=
  if deref text = minus then unsignedNumber (-1) text.tail
  else if deref text = plus then unsignedNumber 1 text.tail
  else unsignedNumber 1 text

/-- `strtol` to the base 10, with `endptr`. It is zero where there is no digit, and nothing is read
then.
-/
def strtol (s : List UInt8) : ℤ × List UInt8 := (signedNumber (s.dropWhile isSpace)).getD (0, s)

def scanInt (field : Option (List UInt8)) : Option ℤ :=
  match field with
  | none => some 0
  | some field =>
      let (value, endptr) := strtol field
      if minmeaIsField (deref endptr) then none else some value

def sixDigits (field : List UInt8) : Bool := (List.range 6).all fun f => isDigit (field.getD f 0)

/-- The number of two characters. -/
def twoDigits (field : List UInt8) (f : ℕ) : ℤ := (strtol [field.getD f 0, field.getD (f + 1) 0]).1

def scanDate (field : Option (List UInt8)) : Option MinmeaDate :=
  let field := field.getD []
  if minmeaIsField (deref field) then
    if sixDigits field then some ⟨twoDigits field 0, twoDigits field 2, twoDigits field 4⟩
    else none
  else some ⟨-1, -1, -1⟩

/-- The digits of the second, as many as there are microseconds for. -/
def fractionLoop (value scale : ℤ) : List UInt8 → ℤ
  | [] => value * scale
  | c :: field =>
      if isDigit c ∧ 1 < scale then fractionLoop (value * 10 + (c.toNat - 48)) (scale / 10) field
      else value * scale

def scanTime (field : Option (List UInt8)) : Option MinmeaTime :=
  let field := field.getD []
  if minmeaIsField (deref field) then
    if sixDigits field then
      let rest := field.drop 6
      let u := if deref rest = point then fractionLoop 0 1000000 rest.tail else 0
      some ⟨twoDigits field 0, twoDigits field 2, twoDigits field 4, u⟩
    else none
  else some ⟨-1, -1, -1, -1⟩

/-- The letters of the two directions. -/
def scanDirection (field : Option (List UInt8)) : Option ℤ :=
  let c := deref (field.getD [])
  if minmeaIsField c then
    if c = 78 ∨ c = 69 then some 1
    else if c = 83 ∨ c = 87 then some (-1)
    else none
  else some 0

def scanChar (field : Option (List UInt8)) : UInt8 :=
  let c := deref (field.getD [])
  if minmeaIsField c then c else 0

/-- The talker and the type of the sentence, which are not optional. -/
def scanType (field : Option (List UInt8)) : Option (List UInt8) :=
  field.bind fun field =>
    if deref field ≠ dollar then none
    else if (List.range 5).all fun f => minmeaIsField (field.getD (1 + f) 0) then
      some ((field.drop 1).take 5)
    else none

/-- The body of the `switch` of `minmea_scan`, with what it stores. -/
def scanField (type : Char) (field : Option (List UInt8)) : Option (List ScanValue) :=
  match type with
  | 'c' => some [.char (scanChar field)]
  | 'd' => (scanDirection field).map ([.int ·])
  | 'f' => (scanFloat field).map ([.float ·])
  | 'i' => (scanInt field).map ([.int ·])
  | 's' => some [.string ((field.getD []).takeWhile minmeaIsField)]
  | 't' => (scanType field).map ([.string ·])
  | 'D' => (scanDate field).map ([.date ·])
  | 'T' => (scanTime field).map ([.time ·])
  | '_' => some []
  | _ => none

/-- `next_field`: the field and the sentence from there on. -/
def nextField (sentence : List UInt8) : Option (List UInt8) × List UInt8 :=
  let sentence := sentence.dropWhile minmeaIsField
  if deref sentence = comma then (some sentence.tail, sentence.tail) else (none, sentence)

def scanLoop : List Char → Bool → Option (List UInt8) → List UInt8 → Option (List ScanValue)
  | [], _, _, _ => some []
  | type :: format, optional, field, sentence =>
      if type = ';' then scanLoop format true field sentence
      else if field.isNone ∧ ¬optional then none
      else
        (scanField type field).bind fun values =>
          let next := nextField sentence
          (scanLoop format optional next.1 next.2).map (values ++ ·)

def minmeaScan (sentence : List UInt8) (format : List Char) : Option (List ScanValue) :=
  scanLoop format false (some sentence) sentence

-----------------------------------------------------------------------------------------
-- The fix
-----------------------------------------------------------------------------------------

structure MinmeaSentenceGga where
  time : MinmeaTime
  latitude : MinmeaFloat
  longitude : MinmeaFloat
  fixQuality : ℤ
  satellitesTracked : ℤ
  hdop : MinmeaFloat
  altitude : MinmeaFloat
  altitudeUnits : UInt8
  height : MinmeaFloat
  heightUnits : UInt8
  dgpsAge : ℤ
  deriving DecidableEq, Repr

/-- `"tTfdfdiiffcfci_"` -/
def ggaFormat : List Char :=
  ['t', 'T', 'f', 'd', 'f', 'd', 'i', 'i', 'f', 'f', 'c', 'f', 'c', 'i', '_']

/-- `"GGA"` -/
def ggaType : List UInt8 := [71, 71, 65]

/-- `frame->latitude.value *= latitude_direction` -/
def MinmeaFloat.directed (f : MinmeaFloat) (direction : ℤ) : MinmeaFloat :=
  { f with value := f.value * direction }

def minmeaParseGga (sentence : List UInt8) : Option MinmeaSentenceGga :=
  match minmeaScan sentence ggaFormat with
  | some [.string type, .time time, .float latitude, .int latitudeDirection, .float longitude,
      .int longitudeDirection, .int fixQuality, .int satellitesTracked, .float hdop,
      .float altitude, .char altitudeUnits, .float height, .char heightUnits, .int dgpsAge] =>
      if type.drop 2 ≠ ggaType then none
      else
        some
          { time, fixQuality, satellitesTracked, hdop, altitude, altitudeUnits, height,
            heightUnits, dgpsAge
            latitude := latitude.directed latitudeDirection
            longitude := longitude.directed longitudeDirection }
  | _ => none

end Granum.Flight
