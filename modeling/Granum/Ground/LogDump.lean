import Granum.Ground.OfflineListener
import Granum.Library.FallibleRun

/-! The conversion of telemetry logs to CSV files. Each type of messages has a file of its own,
but all spectra go to one file, and once that one is open no other is opened any more.
-/

namespace Granum.Ground

/-- A value in a row of a CSV file; a float is given by its bits. -/
inductive PyValue
  | int (value : ℤ)
  | float (bits : UInt64)
  | ints (items : List ℕ)
  | text (value : String)
  deriving DecidableEq, Repr

abbrev Row := List (String × PyValue)

/-- The message types of a MAVLink dialect, besides the four of the spectrometer: their ids and
names are their own, and neither those of the spectrometer nor of the file of the spectra.
-/
structure Dialect where
  Other : Type
  msgId : Other → ℤ
  typeName : Other → String
  fieldnames : Other → List String
  msgId_injective : Function.Injective msgId
  typeName_injective : Function.Injective typeName
  msgId_other : ∀ type, msgId type ∉ [152, 131, 153, 154, 768]
  typeName_other : ∀ type, typeName type ∉ ["PICTURE_HEADER", "ENCAPSULATED_DATA",
    "INTENSITY_HEADER", "INTENSITY_ENCAPSULATED_DATA", "mega"]

/-- The fields of a `PICTURE_HEADER` or an `INTENSITY_HEADER`. -/
structure HeaderFields where
  timeBootMs : ℕ
  servo : ℕ
  yUpleftCrop : ℕ
  size : ℕ
  packets : ℕ
  payload : ℕ
  deriving DecidableEq, Repr

def HeaderFields.fieldnames : List String :=
  ["time_boot_ms", "servo", "y_upleft_crop", "size", "packets", "payload"]

def HeaderFields.dict (h : HeaderFields) : Row :=
  [("time_boot_ms", .int h.timeBootMs), ("servo", .int h.servo),
    ("y_upleft_crop", .int h.yUpleftCrop), ("size", .int h.size), ("packets", .int h.packets),
    ("payload", .int h.payload)]

/-- A message of a log. -/
inductive LogMessage (d : Dialect)
  | pictureHeader (fields : HeaderFields)
  | encapsulatedData (packet : Packet UInt8)
  | intensityHeader (fields : HeaderFields)
  | intensityEncapsulatedData (packet : Packet UInt16)
  | other (type : d.Other) (value : String → PyValue)

namespace LogMessage

variable {d : Dialect}

def getMsgId : LogMessage d → ℤ
  | pictureHeader _ => 152
  | encapsulatedData _ => 131
  | intensityHeader _ => 153
  | intensityEncapsulatedData _ => 154
  | other type _ => d.msgId type

def getType : LogMessage d → String
  | pictureHeader _ => "PICTURE_HEADER"
  | encapsulatedData _ => "ENCAPSULATED_DATA"
  | intensityHeader _ => "INTENSITY_HEADER"
  | intensityEncapsulatedData _ => "INTENSITY_ENCAPSULATED_DATA"
  | other type _ => d.typeName type

def getFieldnames : LogMessage d → List String
  | pictureHeader _ | intensityHeader _ => HeaderFields.fieldnames
  | encapsulatedData _ | intensityEncapsulatedData _ => ["seqnr", "data"]
  | other type _ => d.fieldnames type

/-- The values of the fields of a message. -/
def fields : LogMessage d → Row
  | pictureHeader h | intensityHeader h => h.dict
  | encapsulatedData packet =>
      [("seqnr", .int packet.seqnr), ("data", .ints (packet.data.map UInt8.toNat))]
  | intensityEncapsulatedData packet =>
      [("seqnr", .int packet.seqnr), ("data", .ints (packet.data.map UInt16.toNat))]
  | other type value => (d.fieldnames type).map fun name => (name, value name)

def toDict (msg : LogMessage d) : Row := ("mavpackettype", .text msg.getType) :: msg.fields

/-- `to_dict` without `mavpackettype`. -/
def row (msg : LogMessage d) : Row := msg.toDict.filter fun field => field.1 ≠ "mavpackettype"

/-- An `INTENSITY_HEADER` or an `INTENSITY_ENCAPSULATED_DATA`. -/
def IsIntensity (msg : LogMessage d) : Prop := msg.getMsgId = 153 ∨ msg.getMsgId = 154

instance (msg : LogMessage d) : Decidable msg.IsIntensity := inferInstanceAs (Decidable (_ ∨ _))

/-- The message as the reassemblers take it. -/
def live : LogMessage d → Message
  | pictureHeader h => .pictureHeader ⟨h.size, h.packets⟩
  | encapsulatedData packet => .encapsulatedData packet
  | intensityHeader h => .intensityHeader ⟨h.size, h.packets⟩
  | intensityEncapsulatedData packet => .intensityEncapsulatedData packet
  | other _ _ => .other

/-- The `config` that is made for a picture message: a `PICTURE_HEADER` has no `number`. -/
def config : LogMessage d → Except PyException (List ℕ)
  | pictureHeader _ => .error (.attributeError "number")
  | _ => .ok []

end LogMessage

/-- A writer for an open file. -/
structure CsvWriter where
  path : String
  fieldnames : List String
  deriving DecidableEq, Repr

/-- The variables of `main`, and the rows below the headers of the files. -/
structure LogDump where
  aggregator : OfflineAggregator := {}
  processors : ℤ → Option CsvWriter := fun _ => none
  files : String → List Row := fun _ => []
  config : Option (List ℕ) := none
  timeBootMs : ℕ := 0
  servo : ℕ := 0
  yUpleftCrop : ℕ := 0
  i : ℕ := 0
  b : Bool := true

namespace LogDump

variable {d : Dialect} (s : LogDump)

/-- Opens a file, which empties it, and keeps its writer under a key. -/
def openWriter (key : ℤ) (writer : CsvWriter) : LogDump :=
  { s with
    processors := Function.update s.processors key (some writer)
    files := Function.update s.files writer.path [] }

def megaMsgId : ℤ := 768

def megaWriter : CsvWriter where
  path := "mega.csv"
  fieldnames := ["number", "time_boot_ms", "servo", "y_upleft_crop", "data"]

/-- The writer of the file of a message's type. -/
def ownWriter (msg : LogMessage d) : CsvWriter where
  path := msg.getType ++ ".csv"
  fieldnames := msg.getFieldnames

/-- A writer for the message is opened while `b` is set. -/
def openFor (msg : LogMessage d) : LogDump :=
  if (s.processors msg.getMsgId).isNone ∧ s.b then
    if msg.IsIntensity then
      { s.openWriter megaMsgId megaWriter with b := false }
    else s.openWriter msg.getMsgId (ownWriter msg)
  else s

/-- `processors[key].writerow(dict)`: no key of the row may be unknown to the writer. -/
def writeRow (key : ℤ) (row : Row) : Except PyException LogDump :=
  match s.processors key with
  | none => .error (.keyError key)
  | some writer =>
      if ∀ field ∈ row, field.1 ∈ writer.fieldnames then
        .ok { s with
          files := Function.update s.files writer.path (s.files writer.path ++ [row]) }
      else .error .valueError

/-- What is done for pictures. -/
def collectPicture (msg : LogMessage d) : Except PyException LogDump := do
  if msg.getMsgId = 152 ∨ msg.getMsgId = 131 then
    let config ← msg.config
    let aggregator ← s.aggregator.acceptMessage msg.live config
    return { s with config := some config, aggregator }
  else return s

/-- The variables that an `INTENSITY_HEADER` sets. -/
def noteHeader : LogMessage d → LogDump
  | .intensityHeader h =>
      { s with timeBootMs := h.timeBootMs, servo := h.servo, yUpleftCrop := h.yUpleftCrop }
  | _ => s

/-- The row of a spectrum. -/
def megaRow : Row :=
  [("number", .int s.i), ("time_boot_ms", .int s.timeBootMs), ("servo", .int s.servo),
    ("y_upleft_crop", .int s.yUpleftCrop),
    ("data", .ints (s.aggregator.heap.read s.aggregator.ref))]

/-- `spectrumAggregator.data_ready = False`. -/
def acknowledge : LogDump := { s with aggregator := { s.aggregator with dataReady := false } }

/-- The flag is polled, and a spectrum that is complete is written. -/
def pollReady : Except PyException LogDump := do
  if s.aggregator.dataReady then
    let s := s.acknowledge
    let s ← s.writeRow megaMsgId s.megaRow
    return { s with i := s.i + 1 }
  else return s

/-- What is done for spectra, with the `config` of whatever message has bound it. -/
def collectSpectrum (msg : LogMessage d) : Except PyException LogDump := do
  let config ← match s.config with
    | none => .error (.unboundLocalError "config")
    | some config => pure config
  let aggregator ← s.aggregator.acceptMessage msg.live config
  let s := { s with aggregator }
  if msg.getMsgId = 153 then return s.noteHeader msg
  else s.pollReady

/-- What is done for all other messages. -/
def writeOwn (msg : LogMessage d) : Except PyException LogDump :=
  s.writeRow msg.getMsgId msg.row

/-- The body of the main loop. -/
def step (msg : LogMessage d) : Except PyException LogDump := do
  let s ← (s.openFor msg).collectPicture msg
  if msg.IsIntensity then s.collectSpectrum msg
  else s.writeOwn msg

end LogDump

/-- The main loop, until the log ends or an exception is raised. -/
def mavlogdump {d : Dialect} (log : List (LogMessage d)) : Except PyException LogDump :=
  FallibleRun.run LogDump.step {} log

end Granum.Ground
