import Granum.Spectrometer.FrameRoundTrip

/-! One call of the decoder on any bytes. It compares the size of the message with what has arrived,
but takes the length of the pixel data from the field in the frame header, whatever the size says.
-/

namespace Granum.Spectrometer

open LittleEndian

namespace Client

/-- The word at some place of the unread bytes. -/
def wordAt (bytes : List UInt8) (place : ℕ) : UInt32 :=
  UInt32.ofNat (leNat ((bytes.drop place).take 4))

def intAt (bytes : List UInt8) (place : ℕ) : Int32 := (wordAt bytes place).toInt32

/-- The call leaves everything unread, or raises, or appends one message and reads as many bytes as
its size says.
-/
def Framed (c : Channel) : Prop :=
  match MessageDecoder.decode c with
  | (.error _, _) => True
  | (.ok out, t) =>
      (out = [] ∧ t.received.readerIndex = c.received.readerIndex)
        ∨ ∃ message, out = [message]
          ∧ (t.received.readerIndex : ℤ)
            = c.received.readerIndex + (intAt c.received.unread 0).toInt
          ∧ 24 ≤ (intAt c.received.unread 0).toInt

/-- The bytes of a frame message: its type, the code of YUYV, and pixel data of the length in the
frame header; the size of the message is not more than what has arrived.
-/
structure FrameBytes (bytes : List UInt8) : Prop where
  header : 24 ≤ bytes.length
  following : (intAt bytes 0 - 4).toInt ≤ (bytes.length - 4 : ℕ)
  messageType : intAt bytes 4 = 0
  fourcc : wordAt bytes 16 = V4L2_PIX_FMT_YUYV
  nonnegative : 0 ≤ (intAt bytes 20).toInt
  whole : 24 + (intAt bytes 20).toInt ≤ bytes.length

variable {α β : Type}

/-- The code throws. -/
def Throws (x : Reading α) (c : Channel) : Prop := ∃ e t, x c = (.error e, t)

namespace Throws

variable {x : Reading α} {f : α → Reading β} {c t : Channel} {a : α}

theorem first (throws : Throws x c) : Throws (x >>= f) c := by
  obtain ⟨e, t, ran⟩ := throws
  exact ⟨e, t, by simp [bind, ExceptT.bind, ExceptT.mk, StateT.bind, ExceptT.bindCont, ran]; rfl⟩

theorem later (ran : x c = (.ok a, t)) (throws : Throws (f a) t) : Throws (x >>= f) c := by
  obtain ⟨e, last, failed⟩ := throws
  exact ⟨e, last, (bind_run ran).trans failed⟩

/-- What is caught is thrown again. -/
theorem rethrown {cleanup : Reading Unit} (clean : ∀ c, ∃ t, cleanup c = (.ok (), t))
    (throws : Throws x c)
    : Throws (tryCatch x fun e => do
        cleanup
        throw e) c := by
  obtain ⟨e, t, ran⟩ := throws
  obtain ⟨last, cleaned⟩ := clean t
  refine ⟨e, last, ?_⟩
  have handled : (do cleanup; throw e : Reading α) t = (.error e, last) := bind_run cleaned
  simp only [tryCatch, tryCatchThe, MonadExceptOf.tryCatch, ExceptT.tryCatch, ExceptT.mk,
    bind, StateT.bind, ran]
  exact handled

end Throws

/-- What does not throw is not caught. -/
theorem tryCatch_run {x : Reading α} {c t : Channel} {a : α} (ran : x c = (.ok a, t))
    (handler : JavaException → Reading α) : tryCatch x handler c = (.ok a, t) := by
  simp only [tryCatch, tryCatchThe, MonadExceptOf.tryCatch, ExceptT.tryCatch, ExceptT.mk,
    bind, StateT.bind, ran]
  rfl

/-- The channel with some more bytes read. -/
def Channel.advance (c : Channel) (n : ℕ) : Channel := c.modifyReceived (·.skip n)

theorem Channel.unread_advance (c : Channel) (n : ℕ)
    : (c.advance n).received.unread = c.received.unread.drop n := ByteBuf.unread_skip _ n

theorem Channel.advance_advance (c : Channel) (m n : ℕ)
    : (c.advance m).advance n = c.advance (m + n) := by
  simp [advance, modifyReceived, ByteBuf.skip_skip]

variable {c : Channel} {place : ℕ}

theorem readBytes_at {length : ℕ} (inside : place + length ≤ c.received.unread.length)
    : readBytes length (c.advance place)
      = (.ok ((c.received.unread.drop place).take length), c.advance (place + length)) := by
  have enough : length ≤ (c.advance place).received.readableBytes := by
    rw [← ByteBuf.length_unread, c.unread_advance, List.length_drop]
    omega
  rw [readBytes, if_pos enough, c.unread_advance, ← c.advance_advance]
  rfl

theorem readBytes_throws {length : ℕ} (inside : place ≤ c.received.unread.length)
    (short : c.received.unread.length < place + length)
    : Throws (readBytes length) (c.advance place) := by
  have few : ¬ length ≤ (c.advance place).received.readableBytes := by
    rw [← ByteBuf.length_unread, c.unread_advance, List.length_drop]
    omega
  refine ⟨.indexOutOfBounds, c.advance place, ?_⟩
  rw [readBytes, if_neg few]

theorem readIntLE_at (inside : place + 4 ≤ c.received.unread.length)
    : readIntLE (c.advance place) = (.ok (intAt c.received.unread place), c.advance (place + 4)) :=
  bind_run (bind_run (readBytes_at inside))

theorem readUnsignedIntLE_at (inside : place + 4 ≤ c.received.unread.length)
    : readUnsignedIntLE (c.advance place)
      = (.ok (wordAt c.received.unread place).toUInt64.toInt64, c.advance (place + 4)) :=
  bind_run (bind_run (readBytes_at inside))

theorem narrowed_word (x : UInt32) : x.toUInt64.toInt64.toInt32 = x.toInt32 := by
  have narrow := narrow_widened x.toInt32
  rwa [UInt32.toUInt32_toInt32] at narrow

/-- Reading the code of YUYV. -/
theorem fourcc_iff (x : UInt32)
    : fourccFromString #v['Y', 'U', 'Y', 'V'] = x.toUInt64.toInt64 ↔ x = V4L2_PIX_FMT_YUYV := by
  rw [fourcc_yuyv, UInt32.toUInt32_toInt32]
  constructor
  · intro same
    have narrow := congrArg Int64.toInt32 same
    rw [narrowed_word, narrowed_word] at narrow
    have words := congrArg Int32.toUInt32 narrow
    rwa [UInt32.toUInt32_toInt32, UInt32.toUInt32_toInt32, eq_comm] at words
  · rintro rfl
    rfl

/-- The fields of the frame header, read after the message header. -/
structure PixelBytes (bytes : List UInt8) : Prop where
  header : 24 ≤ bytes.length
  fourcc : wordAt bytes 16 = V4L2_PIX_FMT_YUYV
  nonnegative : 0 ≤ (intAt bytes 20).toInt
  whole : 24 + (intAt bytes 20).toInt ≤ bytes.length

/-- An array of the announced length is filled if the bytes are there. -/
theorem readPixData_at {size : Int32} (inside : place ≤ c.received.unread.length)
    : (0 ≤ size.toInt ∧ place + size.toInt ≤ c.received.unread.length
        → ∃ data, readPixData size (c.advance place)
          = (.ok data, c.advance (place + size.toInt.toNat)))
      ∧ (¬ (0 ≤ size.toInt ∧ place + size.toInt ≤ c.received.unread.length)
        → Throws (readPixData size) (c.advance place)) := by
  have negative : size < 0 ↔ size.toInt < 0 := Int32.lt_iff_toInt_lt
  rw [readPixData]
  constructor
  · rintro ⟨nonnegative, whole⟩
    rw [if_neg (mt negative.mp (by omega))]
    exact ⟨_, readBytes_at (by omega)⟩
  · intro misfits
    by_cases below : size.toInt < 0
    · rw [if_pos (negative.mpr below)]
      exact ⟨.negativeArraySize, _, rfl⟩
    · rw [if_neg (mt negative.mp below)]
      exact readBytes_throws inside (by omega)

theorem fromUint_at (d : Channel) {x : UInt32}
    : (x = V4L2_PIX_FMT_YUYV → PixFmt.fromUint x.toUInt64.toInt64 d = (.ok .yuyv422, d))
      ∧ (x ≠ V4L2_PIX_FMT_YUYV → Throws (PixFmt.fromUint x.toUInt64.toInt64) d) := by
  rw [PixFmt.fromUint]
  constructor
  · intro yuyv
    rw [if_pos ((fourcc_iff x).mpr yuyv)]
    rfl
  · intro other
    rw [if_neg (mt (fourcc_iff x).mp other)]
    exact ⟨_, d, rfl⟩

theorem readWord_throws (inside : place ≤ c.received.unread.length)
    (short : c.received.unread.length < place + 4)
    : Throws readWord (c.advance place) := (readBytes_throws inside short).first

/-- The constructor reads its header and the pixel data, or throws. -/
theorem frameMessage_at (size : Int32) (inside : 8 ≤ c.received.unread.length)
    : (PixelBytes c.received.unread
        → ∃ message, FrameMessage.new size .rawFrame (c.advance 8)
          = (.ok message, c.advance (24 + (intAt c.received.unread 20).toInt.toNat)))
      ∧ (¬ PixelBytes c.received.unread
        → Throws (FrameMessage.new size .rawFrame) (c.advance 8)) := by
  have clean : ∀ c, ∃ t, resetReaderIndex c = (.ok (), t) := fun c => ⟨_, rfl⟩
  constructor
  · intro fits
    have header := fits.header
    obtain ⟨data, filled⟩ := (readPixData_at header).1 ⟨fits.nonnegative, fits.whole⟩
    refine ⟨_, tryCatch_run (a := ⟨size, .rawFrame, intAt c.received.unread 8,
      intAt c.received.unread 12, .yuyv422, data⟩) ?_ _⟩
    refine (bind_run (readIntLE_at (by omega))).trans ?_
    refine (bind_run (readIntLE_at (by omega))).trans ?_
    refine (bind_run (readUnsignedIntLE_at (by omega))).trans ?_
    refine (bind_run ((fromUint_at _).1 fits.fourcc)).trans ?_
    refine (bind_run (readUnsignedIntLE_at (by omega))).trans ?_
    rw [narrowed_word]
    exact bind_run filled
  · intro misfits
    apply Throws.rethrown clean
    by_cases width : c.received.unread.length < 12
    · exact (readWord_throws inside width).first.first
    refine Throws.later (readIntLE_at (by omega)) ?_
    by_cases height : c.received.unread.length < 16
    · exact (readWord_throws (by omega) height).first.first
    refine Throws.later (readIntLE_at (by omega)) ?_
    by_cases code : c.received.unread.length < 20
    · exact (readWord_throws (by omega) code).first.first
    refine Throws.later (readUnsignedIntLE_at (by omega)) ?_
    by_cases yuyv : wordAt c.received.unread 16 = V4L2_PIX_FMT_YUYV
    · refine Throws.later ((fromUint_at _).1 yuyv) ?_
      by_cases length : c.received.unread.length < 24
      · exact (readWord_throws (by omega) length).first.first
      refine Throws.later (readUnsignedIntLE_at (by omega)) ?_
      have header : 24 ≤ c.received.unread.length := by omega
      rw [narrowed_word]
      refine ((readPixData_at header).2 fun fits => ?_).first
      exact misfits ⟨header, yuyv, fits.1, fits.2⟩
    · exact ((fromUint_at _).2 yuyv).first

/-- The message is decoded, or something is thrown. -/
theorem decodeMessage_at (size : Int32) (inside : 8 ≤ c.received.unread.length)
    : (intAt c.received.unread 4 = 0 ∧ PixelBytes c.received.unread
        → ∃ message, MessageDecoder.decodeMessage size (c.advance 4)
          = (.ok [message], c.advance (24 + (intAt c.received.unread 20).toInt.toNat)))
      ∧ (¬ (intAt c.received.unread 4 = 0 ∧ PixelBytes c.received.unread)
        → Throws (MessageDecoder.decodeMessage size) (c.advance 4)) := by
  have clean : ∀ c, ∃ t, disconnect c = (.ok (), t) := fun c => ⟨_, rfl⟩
  obtain ⟨decoded, thrown⟩ := frameMessage_at size inside
  constructor
  · rintro ⟨rawFrame, pixels⟩
    obtain ⟨message, read⟩ := decoded pixels
    refine ⟨message, tryCatch_run ?_ _⟩
    refine (bind_run (readIntLE_at (by omega))).trans ?_
    rw [rawFrame]
    refine (bind_run (a := MessageType.rawFrame) rfl).trans ?_
    exact bind_run read
  · intro misfits
    apply Throws.rethrown clean
    refine Throws.later (readIntLE_at (by omega)) ?_
    by_cases rawFrame : intAt c.received.unread 4 = 0
    · rw [rawFrame]
      refine Throws.later (a := MessageType.rawFrame) rfl ?_
      exact (thrown fun pixels => misfits ⟨rawFrame, pixels⟩).first
    · refine Throws.first ?_
      rw [MessageType.fromInt, if_neg (Ne.symm rawFrame)]
      exact ⟨_, _, rfl⟩

theorem readerIndex_advance (c : Channel) {n : ℕ} (inside : n ≤ c.received.unread.length)
    : (c.advance n).received.readerIndex = c.received.readerIndex + n := by
  have bound := c.received.reader_le
  rw [ByteBuf.length_unread, ByteBuf.readableBytes] at inside
  exact Nat.min_eq_left (by omega)

/-- What a call does on at least eight bytes. -/
theorem decode_cases (inside : 8 ≤ c.received.unread.length)
    : (∃ t, MessageDecoder.decode c = (.ok [], t)
          ∧ t.received.readerIndex = c.received.readerIndex
          ∧ ¬ FrameBytes c.received.unread)
      ∨ (∃ message t, MessageDecoder.decode c = (.ok [message], t)
          ∧ t.received.readerIndex
            = c.received.readerIndex + (24 + (intAt c.received.unread 20).toInt.toNat)
          ∧ FrameBytes c.received.unread)
      ∨ (Throws MessageDecoder.decode c ∧ ¬ FrameBytes c.received.unread) := by
  have long := (headerSize_readable c).mpr inside
  set marked := c.modifyReceived ByteBuf.markReaderIndex
  have unread : marked.received.unread = c.received.unread := rfl
  have start : marked.advance 0 = marked := by
    simp [Channel.advance, Channel.modifyReceived]
  have size : readIntLE (marked.advance 0)
      = (.ok (intAt marked.received.unread 0), marked.advance (0 + 4)) :=
    readIntLE_at (by rw [unread]; omega)
  rw [start, unread] at size
  rw [Throws, decode_sized c _ _ long size]
  have left : (marked.advance 4).received.unread.length = c.received.unread.length - 4 := by
    rw [Channel.unread_advance, List.length_drop, unread]
  by_cases following : (intAt c.received.unread 0 - 4).toInt ≤ (c.received.unread.length - 4 : ℕ)
  · rw [if_pos ((isReadable_iff _ _).mpr (left ▸ following))]
    obtain ⟨decoded, thrown⟩ := decodeMessage_at (c := marked) (intAt c.received.unread 0) inside
    by_cases fits : FrameBytes c.received.unread
    · obtain ⟨message, read⟩ := decoded
        ⟨fits.messageType, fits.header, fits.fourcc, fits.nonnegative, fits.whole⟩
      have whole := fits.whole
      have nonnegative := fits.nonnegative
      refine Or.inr (Or.inl ⟨message, _, read, ?_, fits⟩)
      exact readerIndex_advance marked (by rw [unread]; omega)
    · refine Or.inr (Or.inr ⟨thrown ?_, fits⟩)
      rintro ⟨rawFrame, header, fourcc, nonnegative, whole⟩
      exact fits ⟨header, following, rawFrame, fourcc, nonnegative, whole⟩
  · rw [if_neg (fun readable => following (left ▸ (isReadable_iff _ _).mp readable))]
    refine Or.inl ⟨_, rfl, ?_, fun fits => following fits.following⟩
    exact Nat.min_eq_left c.received.reader_le

/-- A call leaves everything unread, or raises, or reads as many bytes as the size of the message
says, unless it appends a message whose pixel data have another length than the size says.
-/
theorem framed_iff (inside : 8 ≤ c.received.unread.length)
    : Framed c
      ↔ (FrameBytes c.received.unread
        → (intAt c.received.unread 0).toInt = 24 + (intAt c.received.unread 20).toInt) := by
  rw [Framed]
  rcases decode_cases inside with ⟨t, ran, same, misfits⟩ | ⟨message, t, ran, index, fits⟩
    | ⟨⟨e, t, ran⟩, misfits⟩
  · rw [ran]
    exact iff_of_true (Or.inl ⟨rfl, same⟩) fun fits => absurd fits misfits
  · rw [ran]
    have nonnegative := fits.nonnegative
    constructor
    · rintro (⟨none, -⟩ | ⟨_, -, read, -⟩) _
      · cases none
      · rw [index] at read
        push_cast at read
        omega
    · intro agrees
      have size := agrees fits
      refine Or.inr ⟨message, rfl, ?_, by omega⟩
      rw [index]
      push_cast
      omega
  · rw [ran]
    exact iff_of_true trivial fun fits => absurd fits misfits

/-- A channel that has received some bytes. -/
def receivedBytes (bytes : List UInt8) : Channel where
  received :=
    { bytes := bytes
      readerIndex := 0
      markedReaderIndex := 0
      reader_le := Nat.zero_le _ }
  disconnected := false

/-- A frame of two pixels, with a size and a length of the pixel data. -/
def frameBytes (size length : UInt8) : List UInt8 :=
  [size, 0, 0, 0, 0, 0, 0, 0, 2, 0, 0, 0, 1, 0, 0, 0, 89, 85, 89, 86, length, 0, 0, 0, 16, 128, 235, 128]

theorem framed_iff_whole
    : Framed (receivedBytes (frameBytes 28 4))
      ↔ (FrameBytes (frameBytes 28 4)
        → (intAt (frameBytes 28 4) 0).toInt = 24 + (intAt (frameBytes 28 4) 20).toInt) :=
  framed_iff (by decide)

/-- The size says that there are no pixel data, and four bytes of them are read. -/
theorem pixels_beyond_size : ¬ ∀ c : Channel, 8 ≤ c.received.readableBytes → Framed c := by
  intro framed
  have one := framed (receivedBytes (frameBytes 24 4)) (by decide)
  have fits : FrameBytes (frameBytes 24 4) := by
    refine ⟨?_, ?_, ?_, ?_, ?_, ?_⟩ <;> decide
  rw [Framed] at one
  rcases decode_cases (c := receivedBytes (frameBytes 24 4)) (by decide)
    with ⟨_, -, -, misfits⟩ | ⟨message, t, ran, index, -⟩ | ⟨-, misfits⟩
  · exact misfits fits
  · rw [ran] at one
    rcases one with ⟨none, -⟩ | ⟨_, -, read, -⟩
    · cases none
    · rw [index] at read
      exact absurd read (by decide)
  · exact misfits fits

end Client

end Granum.Spectrometer
