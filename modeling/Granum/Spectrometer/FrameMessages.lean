import Granum.Library.LittleEndian
import Granum.Library.StreamDecoder

/-! The frame messages of the spectrometer: the server writes the memory of a message to the
socket, and the client decodes what the channel has received so far.
-/

namespace Granum.Spectrometer

open LittleEndian

/-- A frame of the camera, with the pixel format it was taken in. -/
structure Frame where
  width : UInt32
  height : UInt32
  pixelformat : UInt32
  data : List UInt8
  deriving DecidableEq, Repr

/-- The four characters of a pixel format, the first one lowest. -/
def v4l2Fourcc (a b c d : Char) : UInt32 :=
  a.val ||| (b.val <<< 8) ||| (c.val <<< 16) ||| (d.val <<< 24)

def V4L2_PIX_FMT_YUYV : UInt32 := v4l2Fourcc 'Y' 'U' 'Y' 'V'

/-- A frame as the camera delivers it: YUYV, and short enough for the size fields. -/
structure YuyvFrame extends Frame where
  yuyv : pixelformat = V4L2_PIX_FMT_YUYV
  short : 24 + data.length < 2 ^ 31

namespace Sender

/-- The bytes of an `int32_t` in the memory of the host. -/
def int32Bytes (x : Int32) : List UInt8 := word x.toUInt32

structure MessageHeader where
  messageSize : Int32
  messageType : Int32

structure FrameHeader where
  width : Int32
  height : Int32
  v4l2Fourcc : Int32
  size : Int32

def MessageHeader.bytes (h : MessageHeader) : List UInt8 :=
  int32Bytes h.messageSize ++ int32Bytes h.messageType

def FrameHeader.bytes (h : FrameHeader) : List UInt8 :=
  int32Bytes h.width ++ int32Bytes h.height ++ int32Bytes h.v4l2Fourcc ++ int32Bytes h.size

/-- A message in memory. -/
structure FrameMessage where
  messageHeader : MessageHeader
  frameHeader : FrameHeader
  frame : Frame

/-- A `const_buffer` of a message points into its memory. -/
inductive ConstBuffer
  | messageHeader
  | frameHeader
  | frameData
  deriving DecidableEq, Repr

def MESSAGE_TYPE_RAW_FRAME : Int32 := 0

/-- The constructor fills both headers, the message header as `{type, }`. -/
def FrameMessage.new (frame : Frame) : FrameMessage where
  messageHeader := { messageSize := MESSAGE_TYPE_RAW_FRAME, messageType := 0 }
  frameHeader :=
    { width := frame.width.toInt32
      height := frame.height.toInt32
      v4l2Fourcc := frame.pixelformat.toInt32
      size := Int32.ofNat frame.data.length }
  frame := frame

namespace FrameMessage

variable (m : FrameMessage)

/-- What a buffer of the message holds at the moment. -/
def read : ConstBuffer → List UInt8
  | .messageHeader => m.messageHeader.bytes
  | .frameHeader => m.frameHeader.bytes
  | .frameData => m.frame.data

def doFillBufferSequence : List ConstBuffer × Int32 :=
  ([.frameHeader, .frameData], Int32.ofNat (16 + m.frame.data.length))

/-- The message header is pushed before its size is known, and the size is stored later. -/
def fillBufferSequnce : List ConstBuffer × FrameMessage :=
  let (sequence, size) := m.doFillBufferSequence
  (.messageHeader :: sequence,
    { m with messageHeader := { m.messageHeader with messageSize := 8 + size } })

/-- What is written to the socket: the buffers, as the memory is after they were filled. -/
def wire : List UInt8 :=
  let (sequence, filled) := m.fillBufferSequnce
  sequence.flatMap filled.read

end FrameMessage

end Sender

namespace Client

inductive JavaException
  | indexOutOfBounds
  | illegalArgument (message : String)
  | negativeArraySize
  | decoder (message : String)
  deriving DecidableEq, Repr

/-- A `ByteBuf` with the bytes written to it; its writer index is their number. -/
structure ByteBuf where
  bytes : List UInt8
  readerIndex : ℕ
  markedReaderIndex : ℕ
  reader_le : readerIndex ≤ bytes.length

namespace ByteBuf

variable (b : ByteBuf)

def readableBytes : ℕ := b.bytes.length - b.readerIndex

def unread : List UInt8 := b.bytes.drop b.readerIndex

@[simp] theorem length_unread : b.unread.length = b.readableBytes := by
  simp [unread, readableBytes]

def isReadable (size : Int32) : Bool := size.toInt ≤ b.readableBytes

def write (chunk : List UInt8) : ByteBuf :=
  { b with
    bytes := b.bytes ++ chunk
    reader_le := by simpa using b.reader_le.trans (Nat.le_add_right _ _) }

@[simp] theorem unread_write (chunk : List UInt8)
    : (b.write chunk).unread = b.unread ++ chunk := List.drop_append_of_le_length b.reader_le

/-- The reader index, moved to some index, or to the end if that is beyond it. -/
def seek (index : ℕ) : ByteBuf :=
  { b with
    readerIndex := min index b.bytes.length
    reader_le := Nat.min_le_right _ _ }

/-- The buffer with some more bytes read. -/
def skip (n : ℕ) : ByteBuf := b.seek (b.readerIndex + n)

theorem unread_seek (index : ℕ) : (b.seek index).unread = b.bytes.drop index := by
  rcases Nat.le_total index b.bytes.length with inside | beyond
  · simp [seek, unread, inside]
  · simp [seek, unread, beyond]

@[simp] theorem unread_skip (n : ℕ) : (b.skip n).unread = b.unread.drop n := by
  rw [skip, unread_seek, unread, List.drop_drop]

def markReaderIndex : ByteBuf := { b with markedReaderIndex := b.readerIndex }

@[simp] theorem unread_mark : b.markReaderIndex.unread = b.unread := rfl

def resetReaderIndex : ByteBuf := b.seek b.markedReaderIndex

/-- A reset undoes the reads since the mark. -/
@[simp] theorem unread_reset_skip (n : ℕ)
    : (b.markReaderIndex.skip n).resetReaderIndex.unread = b.unread := unread_seek _ _

end ByteBuf

/-- The channel with the bytes it has received. -/
structure Channel where
  received : ByteBuf
  disconnected : Bool

def Channel.modifyReceived (c : Channel) (f : ByteBuf → ByteBuf) : Channel :=
  { c with received := f c.received }

@[simp] theorem Channel.received_modify (c : Channel) (f : ByteBuf → ByteBuf)
    : (c.modifyReceived f).received = f c.received := rfl

/-- Java code that may throw, and reads from a channel. -/
abbrev Reading := ExceptT JavaException (StateM Channel)

def readBytes (length : ℕ) : Reading (List UInt8) := fun c =>
  if length ≤ c.received.readableBytes then
    (.ok (c.received.unread.take length), c.modifyReceived (·.skip length))
  else (.error .indexOutOfBounds, c)

def readWord : Reading UInt32 := do
  return UInt32.ofNat (leNat (← readBytes 4))

def readIntLE : Reading Int32 := do
  return (← readWord).toInt32

def readUnsignedIntLE : Reading Int64 := do
  return (← readWord).toUInt64.toInt64

def isReadable (size : Int32) : Reading Bool := do
  return (← get).received.isReadable size

def markReaderIndex : Reading Unit := modify (·.modifyReceived ByteBuf.markReaderIndex)

def resetReaderIndex : Reading Unit := modify (·.modifyReceived ByteBuf.resetReaderIndex)

def disconnect : Reading Unit := modify ({ · with disconnected := true })

inductive MessageType
  | rawFrame
  deriving DecidableEq, Repr

def MessageType.fromInt (value : Int32) : Reading MessageType :=
  if 0 = value then pure .rawFrame
  else throw (.illegalArgument "Не верный тип сообщения")

inductive PixFmt
  | yuyv422
  deriving DecidableEq, Repr

/-- The bytes of the code are promoted to `int` before they are shifted. -/
def fourccFromString (code : Vector Char 4) : Int64 :=
  let raw (i : Fin 4) : Int32 := code[i].val.toUInt8.toInt8.toInt32
  (raw 0 <<< 0 ||| raw 1 <<< 8 ||| raw 2 <<< 16 ||| raw 3 <<< 24).toInt64

def PixFmt.fromUint (value : Int64) : Reading PixFmt :=
  if fourccFromString #v['Y', 'U', 'Y', 'V'] = value then pure .yuyv422
  else throw (.illegalArgument "Не верный fourcc код типа данных кадра")

structure FrameMessage where
  size : Int32
  messageType : MessageType
  width : Int32
  height : Int32
  pixFmt : PixFmt
  pixData : List UInt8
  deriving DecidableEq, Repr

/-- The array is made first, then filled. -/
def readPixData (pixDataSize : Int32) : Reading (List UInt8) :=
  if pixDataSize < 0 then throw .negativeArraySize
  else readBytes pixDataSize.toInt.toNat

/-- The constructor, with assertions disabled. -/
def FrameMessage.new (size : Int32) (messageType : MessageType) : Reading FrameMessage :=
  tryCatch (do
      let width ← readIntLE
      let height ← readIntLE
      let pixFmt ← PixFmt.fromUint (← readUnsignedIntLE)
      let pixDataSize := (← readUnsignedIntLE).toInt32
      let pixData ← readPixData pixDataSize
      return { size, messageType, width, height, pixFmt, pixData })
    fun e => do
      resetReaderIndex
      throw e

def Message.headerSize : Int32 := 8

/-- The `try` block of `decode`. -/
def MessageDecoder.decodeMessage (messageSize : Int32) : Reading (List FrameMessage) :=
  tryCatch (do
      match ← MessageType.fromInt (← readIntLE) with
      | .rawFrame => return [← FrameMessage.new messageSize .rawFrame])
    fun e => do
      disconnect
      throw e

def MessageDecoder.decode : Reading (List FrameMessage) := do
  if !(← isReadable Message.headerSize) then return []
  markReaderIndex
  let messageSize ← readIntLE
  if !(← isReadable (messageSize - 4)) then
    resetReaderIndex
    return []
  decodeMessage messageSize

/-- The decoder in its pipeline, which calls it as bytes arrive. -/
def MessageDecoder.pipeline : StreamDecoder Channel UInt8 FrameMessage JavaException where
  unread c := c.received.unread
  append c chunk := c.modifyReceived (·.write chunk)
  unread_append c chunk := ByteBuf.unread_write c.received chunk
  decode := MessageDecoder.decode
  stalled := .decoder "decode() did not read anything but decoded a message."

/-- A channel that has received nothing yet. -/
def Channel.active : Channel where
  received :=
    { bytes := []
      readerIndex := 0
      markedReaderIndex := 0
      reader_le := Nat.le_refl 0 }
  disconnected := false

end Client

end Granum.Spectrometer
