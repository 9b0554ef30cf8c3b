import Granum.Spectrometer.FrameMessages

/-! Frames cross the connection unchanged: the decoder reads the memory the server has sent,
for every cut of the stream into chunks.
-/

namespace Granum.Spectrometer

open LittleEndian

namespace Client

variable {α β : Type}

@[simp] theorem ByteBuf.skip_zero (b : ByteBuf) : b.skip 0 = b := by
  simp [skip, seek, b.reader_le]

theorem ByteBuf.skip_skip (b : ByteBuf) (m n : ℕ) : (b.skip m).skip n = b.skip (m + n) := by
  have inside := b.reader_le
  have reader : min (min (b.readerIndex + m) b.bytes.length + n) b.bytes.length
      = min (b.readerIndex + (m + n)) b.bytes.length := by
    omega
  simp [skip, seek, reader]

/-- A reader that answers `a` on a channel whose unread bytes begin with `bytes`, and reads
just these.
-/
def Reads (x : Reading α) (bytes : List UInt8) (a : α) : Prop :=
  ∀ (c : Channel) rest, c.received.unread = bytes ++ rest
    → x c = (.ok a, c.modifyReceived (·.skip bytes.length))

theorem Reads.answer (a : α) : Reads (pure a) [] a := by
  intro c rest front
  have same : c.modifyReceived (·.skip 0) = c := by simp [Channel.modifyReceived]
  exact congrArg (Prod.mk _) same.symm

/-- What is not read is left. -/
theorem Reads.leaves {x : Reading α} {bytes : List UInt8} {a : α} (read : Reads x bytes a)
    (c : Channel) (rest : List UInt8) (front : c.received.unread = bytes ++ rest)
    : ∃ t, x c = (.ok a, t) ∧ t.received.unread = rest :=
  ⟨_, read c rest front, by simp [front]⟩

theorem Reads.andThen {x : Reading α} {f : α → Reading β} {first second : List UInt8} {a : α}
    {b : β} (head : Reads x first a) (tail : Reads (f a) second b)
    : Reads (x >>= f) (first ++ second) b := by
  intro c rest front
  have here := head c (second ++ rest) (by simpa using front)
  have there := tail (c.modifyReceived (·.skip first.length)) rest (by simp [front])
  have joined : (x >>= f) c = f a (c.modifyReceived (·.skip first.length)) := by
    simp [bind, ExceptT.bind, ExceptT.mk, StateT.bind, ExceptT.bindCont, here]
  rw [joined, there]
  simp [Channel.modifyReceived, ByteBuf.skip_skip]

/-- What is answered without reading comes before any bytes. -/
theorem Reads.first {x : Reading α} {f : α → Reading β} {bytes : List UInt8} {a : α} {b : β}
    (head : Reads x [] a) (tail : Reads (f a) bytes b) : Reads (x >>= f) bytes b :=
  head.andThen tail

theorem Reads.map {x : Reading α} {bytes : List UInt8} {a : α} (f : α → β)
    (read : Reads x bytes a) : Reads (x >>= fun a => pure (f a)) bytes (f a) := by
  have mapped := read.andThen (f := fun a => pure (f a)) (Reads.answer (f a))
  rwa [List.append_nil] at mapped

/-- What does not fail is not caught. -/
theorem Reads.uncaught {x : Reading α} {bytes : List UInt8} {a : α} (read : Reads x bytes a)
    (handler : JavaException → Reading α) : Reads (tryCatch x handler) bytes a := by
  intro c rest front
  have here := read c rest front
  simp only [tryCatch, tryCatchThe, MonadExceptOf.tryCatch, ExceptT.tryCatch, ExceptT.mk,
    bind, StateT.bind, here]
  rfl

theorem readBytes_reads (bytes : List UInt8) : Reads (readBytes bytes.length) bytes bytes := by
  intro c rest front
  have enough : bytes.length ≤ c.received.readableBytes := by
    rw [← ByteBuf.length_unread, front]
    simp
  simp [readBytes, enough, front]

theorem readWord_reads (x : UInt32) : Reads readWord (word x) x := by
  have bytes := readBytes_reads (word x)
  rw [length_word] at bytes
  have value := bytes.map (fun bytes => UInt32.ofNat (leNat bytes))
  rwa [leNat_word, UInt32.ofNat_toNat] at value

open Sender (int32Bytes)

theorem readIntLE_reads (x : Int32) : Reads readIntLE (int32Bytes x) x :=
  (readWord_reads x.toUInt32).map UInt32.toInt32

theorem readUnsignedIntLE_reads (x : Int32)
    : Reads readUnsignedIntLE (int32Bytes x) x.toUInt32.toUInt64.toInt64 :=
  (readWord_reads x.toUInt32).map fun x : UInt32 => x.toUInt64.toInt64

theorem fromInt_reads : Reads (MessageType.fromInt 0) [] .rawFrame := Reads.answer _

/-- Sender and client agree on the code of YUYV. -/
theorem fourcc_yuyv : fourccFromString #v['Y', 'U', 'Y', 'V']
    = V4L2_PIX_FMT_YUYV.toInt32.toUInt32.toUInt64.toInt64 := by decide

theorem fromUint_reads
    : Reads (PixFmt.fromUint V4L2_PIX_FMT_YUYV.toInt32.toUInt32.toUInt64.toInt64) [] .yuyv422 := by
  rw [PixFmt.fromUint, if_pos fourcc_yuyv]
  exact Reads.answer _

theorem toInt_ofNat_short {n : ℕ} (short : n < 2 ^ 31) : (Int32.ofNat n).toInt = n :=
  Int32.toInt_ofNat_of_lt short

theorem readPixData_reads (data : List UInt8) (short : data.length < 2 ^ 31)
    : Reads (readPixData (Int32.ofNat data.length)) data data := by
  have size := toInt_ofNat_short short
  have nonnegative : ¬Int32.ofNat data.length < 0 := by
    rw [Int32.lt_iff_toInt_lt, size]
    simp
  have read := readBytes_reads data
  rw [readPixData, if_neg nonnegative, size]
  exact read

/-- What the client makes of a frame. -/
def FrameMessage.of (frame : YuyvFrame) : FrameMessage where
  size := Int32.ofNat (24 + frame.data.length)
  messageType := .rawFrame
  width := frame.width.toInt32
  height := frame.height.toInt32
  pixFmt := .yuyv422
  pixData := frame.data

/-- A size read as `long` and cast to `int` is the size. -/
theorem narrow_widened (x : Int32) : x.toUInt32.toUInt64.toInt64.toInt32 = x := by
  apply Int32.toBitVec_inj.mp
  simp [BitVec.signExtend_eq_setWidth_of_le]

/-- The memory after the header of a message. -/
def payload (frame : YuyvFrame) : List UInt8 :=
  int32Bytes frame.width.toInt32 ++ (int32Bytes frame.height.toInt32
    ++ (int32Bytes V4L2_PIX_FMT_YUYV.toInt32 ++ (int32Bytes (Int32.ofNat frame.data.length)
      ++ frame.data)))

theorem frameMessage_reads (frame : YuyvFrame)
    : Reads (FrameMessage.new (Int32.ofNat (24 + frame.data.length)) .rawFrame) (payload frame)
        (FrameMessage.of frame) := by
  have short := frame.short
  refine Reads.uncaught ?_ _
  refine (readIntLE_reads _).andThen ((readIntLE_reads _).andThen ?_)
  refine (readUnsignedIntLE_reads _).andThen (fromUint_reads.first ?_)
  refine (readUnsignedIntLE_reads _).andThen ?_
  rw [narrow_widened]
  exact (readPixData_reads frame.data (by omega)).map _

/-- The memory of a filled message: its size, its type, and the rest. -/
theorem wire_eq (frame : YuyvFrame)
    : (Sender.FrameMessage.new frame.toFrame).wire
      = int32Bytes (Int32.ofNat (24 + frame.data.length)) ++ (int32Bytes 0 ++ payload frame) := by
  have total : Int32.ofNat (24 + frame.data.length)
      = 8 + Int32.ofNat (16 + frame.data.length) := by
    rw [show 24 + frame.data.length = 8 + (16 + frame.data.length) by omega, Int32.ofNat_add 8]
    rfl
  rw [total]
  simp [Sender.FrameMessage.wire, Sender.FrameMessage.fillBufferSequnce,
    Sender.FrameMessage.doFillBufferSequence, Sender.FrameMessage.new, Sender.FrameMessage.read,
    Sender.MessageHeader.bytes, Sender.FrameHeader.bytes, payload, frame.yuyv]

@[simp] theorem length_int32Bytes (x : Int32) : (int32Bytes x).length = 4 := length_word _

theorem length_wire (frame : YuyvFrame)
    : (Sender.FrameMessage.new frame.toFrame).wire.length = 24 + frame.data.length := by
  simp only [wire_eq, payload, List.length_append, length_int32Bytes]
  omega

theorem decodeMessage_reads (frame : YuyvFrame)
    : Reads (MessageDecoder.decodeMessage (Int32.ofNat (24 + frame.data.length)))
        (int32Bytes 0 ++ payload frame) [FrameMessage.of frame] := by
  refine Reads.uncaught ?_ _
  refine (readIntLE_reads _).andThen (fromInt_reads.first ?_)
  exact (frameMessage_reads frame).map _

theorem isReadable_run (size : Int32) (c : Channel)
    : isReadable size c = (.ok (c.received.isReadable size), c) := rfl

theorem markReaderIndex_run (c : Channel)
    : markReaderIndex c = (.ok (), c.modifyReceived ByteBuf.markReaderIndex) := rfl

theorem bind_run {x : Reading α} {f : α → Reading β} {c t : Channel} {a : α}
    (ran : x c = (.ok a, t)) : (x >>= f) c = f a t := by
  simp [bind, ExceptT.bind, ExceptT.mk, StateT.bind, ExceptT.bindCont, ran]

/-- Too little for a header: nothing is read. -/
theorem decode_short (c : Channel) (short : c.received.isReadable Message.headerSize = false)
    : MessageDecoder.decode c = (.ok [], c) := by
  rw [MessageDecoder.decode, bind_run (isReadable_run _ c), short]
  rfl

/-- The size of the message is read, and the message if it is there. -/
theorem decode_sized (c t : Channel) (messageSize : Int32)
    (long : c.received.isReadable Message.headerSize = true)
    (size : readIntLE (c.modifyReceived ByteBuf.markReaderIndex) = (.ok messageSize, t))
    : MessageDecoder.decode c =
        if t.received.isReadable (messageSize - 4) then MessageDecoder.decodeMessage messageSize t
        else (.ok [], t.modifyReceived ByteBuf.resetReaderIndex) := by
  rw [MessageDecoder.decode, bind_run (isReadable_run _ c), long]
  simp only [Bool.not_true, Bool.false_eq_true, if_false]
  rw [bind_run (markReaderIndex_run c), bind_run size, bind_run (isReadable_run _ t)]
  cases readable : t.received.isReadable (messageSize - 4)
  · rfl
  · rfl

theorem isReadable_iff (b : ByteBuf) (size : Int32)
    : b.isReadable size = true ↔ size.toInt ≤ b.unread.length := by
  simp [ByteBuf.isReadable]

/-- What must follow the size of a message. -/
theorem toInt_following (frame : YuyvFrame)
    : (Int32.ofNat (24 + frame.data.length) - 4).toInt = 20 + frame.data.length := by
  have short := frame.short
  have following : Int32.ofNat (24 + frame.data.length) - 4
      = Int32.ofNat (20 + frame.data.length) := by
    rw [show 24 + frame.data.length = 20 + frame.data.length + 4 by omega, Int32.ofNat_add _ 4]
    exact Int32.add_sub_cancel _ _
  rw [following, toInt_ofNat_short (by omega)]
  simp

/-- The size is read after the mark, so that a reset makes it unread. -/
theorem size_read (size : Int32) (rest : List UInt8) (c : Channel)
    (front : c.received.unread = int32Bytes size ++ rest)
    : ∃ t, readIntLE (c.modifyReceived ByteBuf.markReaderIndex) = (.ok size, t)
        ∧ t.received.unread = rest ∧ t.received.resetReaderIndex.unread = c.received.unread := by
  have read := readIntLE_reads size (c.modifyReceived ByteBuf.markReaderIndex) rest front
  exact ⟨_, read, by simp [front], ByteBuf.unread_reset_skip c.received _⟩

theorem headerSize_readable (c : Channel)
    : c.received.isReadable Message.headerSize = true ↔ 8 ≤ c.received.unread.length := by
  have size : Message.headerSize.toInt = 8 := by decide
  rw [isReadable_iff, size]
  norm_cast

/-- A whole message at the front is decoded. -/
theorem decode_whole (frame : YuyvFrame) (rest : List UInt8) (c : Channel)
    (front : c.received.unread = (Sender.FrameMessage.new frame.toFrame).wire ++ rest)
    : ∃ t, MessageDecoder.decode c = (.ok [FrameMessage.of frame], t)
        ∧ t.received.unread = rest := by
  have long : c.received.isReadable Message.headerSize = true := by
    rw [headerSize_readable, front, List.length_append, length_wire]
    omega
  have total : c.received.unread.length = 24 + frame.data.length + rest.length := by
    rw [front, List.length_append, length_wire]
  rw [wire_eq, List.append_assoc] at front
  obtain ⟨t, size, unread, -⟩ := size_read _ _ c front
  have readable : t.received.isReadable (Int32.ofNat (24 + frame.data.length) - 4) = true := by
    rw [isReadable_iff, toInt_following, unread]
    rw [front, List.length_append, length_int32Bytes] at total
    omega
  rw [decode_sized c t _ long size, if_pos readable]
  exact (decodeMessage_reads frame).leaves t rest unread

/-- A proper prefix of a message is left unread: its size is there or not. -/
theorem decode_proper (frame : YuyvFrame) (c : Channel)
    (cut : c.received.unread <+: (Sender.FrameMessage.new frame.toFrame).wire)
    (proper : c.received.unread ≠ (Sender.FrameMessage.new frame.toFrame).wire)
    : ∃ t, MessageDecoder.decode c = (.ok [], t) ∧ t.received.unread = c.received.unread := by
  have incomplete : c.received.unread.length < 24 + frame.data.length := by
    rw [← length_wire]
    exact lt_of_le_of_ne cut.length_le fun same => proper (cut.eq_of_length same)
  cases long : c.received.isReadable Message.headerSize with
  | false => exact ⟨c, decode_short c long, rfl⟩
  | true =>
      have header := (headerSize_readable c).mp long
      obtain ⟨tail, message⟩ := cut
      have front : c.received.unread
          = int32Bytes (Int32.ofNat (24 + frame.data.length)) ++ c.received.unread.drop 4 := by
        have first := congrArg (List.take 4) message
        rw [wire_eq, List.take_append_of_le_length (by omega)] at first
        nth_rewrite 1 [← List.take_append_drop 4 c.received.unread, first]
        simp
      obtain ⟨t, size, unread, reset⟩ := size_read _ _ c front
      have blocked : ¬t.received.isReadable (Int32.ofNat (24 + frame.data.length) - 4) = true := by
        rw [isReadable_iff, toInt_following, unread, List.length_drop]
        omega
      rw [decode_sized c t _ long size, if_neg blocked]
      exact ⟨_, rfl, reset⟩

/-- The decoder recognises the messages of the server. -/
theorem decoder_recognises : MessageDecoder.pipeline.Recognises
    (fun frame : YuyvFrame => (Sender.FrameMessage.new frame.toFrame).wire) FrameMessage.of where
  nonempty frame := by
    rw [← List.length_pos_iff, length_wire]
    omega
  whole := decode_whole
  proper := decode_proper

/-- Every list of frames arrives as it was sent, however its stream is cut into chunks, and
nothing is left unread.
-/
theorem frames_round_trip (frames : List YuyvFrame) (chunks : List (List UInt8))
    (cut : chunks.flatten
      = frames.flatMap fun frame => (Sender.FrameMessage.new frame.toFrame).wire)
    : ∃ last, MessageDecoder.pipeline.feed Channel.active chunks
          = (.ok (), frames.map FrameMessage.of, last)
        ∧ last.received.unread = [] := by
  refine decoder_recognises.feed_frames chunks frames Channel.active cut ?_
  intro nothing
  cases frames with
  | nil => rfl
  | cons frame frames =>
      have first := decoder_recognises.nonempty frame
      rw [nothing, List.flatMap_cons] at cut
      exact absurd (List.append_eq_nil_iff.mp cut.symm).1 first

def smallFrame : YuyvFrame where
  width := 2
  height := 1
  pixelformat := V4L2_PIX_FMT_YUYV
  data := [16, 128, 235, 128]
  yuyv := rfl
  short := by decide

/-- A frame whose size field is torn apart. -/
theorem frames_round_trip_torn
    : ∃ last, MessageDecoder.pipeline.feed Channel.active
          [(Sender.FrameMessage.new smallFrame.toFrame).wire.take 3,
            (Sender.FrameMessage.new smallFrame.toFrame).wire.drop 3]
          = (.ok (), [FrameMessage.of smallFrame], last)
        ∧ last.received.unread = [] :=
  frames_round_trip [smallFrame] _ (by simp [List.take_append_drop])

end Client

end Granum.Spectrometer
