import Granum.Library.ListHeap
import Granum.Library.Mealy

/-! Pictures from `MavSender.send_picture` to the `PictureListener` of `listener.py`. The listener
starts with the list that belongs to its class, and extends it in place.
-/

namespace Granum.Payload

def bytesPerPacket : ℕ := 253

/-- What `send_picture` is called with. `packets` has to fit into 16 bits. -/
structure Picture where
  data : List UInt8
  width : UInt16
  height : UInt16
  fits : data.length ≤ bytesPerPacket * 65535

structure DataTransmissionHandshake where
  type : UInt8
  size : UInt32
  width : UInt16
  height : UInt16
  packets : UInt16
  payload : UInt8
  jpgQuality : UInt8
  deriving DecidableEq, Repr

structure EncapsulatedData where
  seqnr : UInt16
  data : List UInt8
  deriving DecidableEq, Repr

inductive PictureMessage
  | dataTransmissionHandshake (msg : DataTransmissionHandshake)
  | encapsulatedData (msg : EncapsulatedData)
  deriving DecidableEq, Repr

-----------------------------------------------------------------------------------------
-- The sender
-----------------------------------------------------------------------------------------

/-- `data[start:]`, where a negative index counts from the end. -/
def sliceFrom (data : List UInt8) (start : ℤ) : List UInt8 :=
  if start < 0 then data.drop (data.length - start.natAbs) else data.drop start.toNat

namespace Picture

variable (p : Picture)

/-- `math.ceil(len(data) / BYTES_PER_PACKET)`. -/
def packets : ℕ := p.data.length ⌈/⌉ bytesPerPacket

def handshake : DataTransmissionHandshake where
  type := 0
  size := UInt32.ofNat p.data.length
  width := p.width
  height := p.height
  packets := UInt16.ofNat p.packets
  payload := UInt8.ofNat bytesPerPacket
  jpgQuality := 100

/-- A packet that is not the last one. -/
def fullPacket (i : ℕ) : EncapsulatedData :=
  ⟨UInt16.ofNat i, (p.data.take (bytesPerPacket * (i + 1))).drop (bytesPerPacket * i)⟩

/-- The last packet, filled up with zeros, unless there is nothing to send. -/
def lastPacket : Option EncapsulatedData :=
  let i : ℤ := p.packets - 1
  let lastData := sliceFrom p.data (bytesPerPacket * i)
  if lastData.length ≠ 0 then
    some ⟨UInt16.ofNat i.toNat,
      lastData ++ List.replicate (bytesPerPacket - lastData.length) 0⟩
  else none

/-- The messages of `send_picture`. -/
def sendPicture : List PictureMessage :=
  .dataTransmissionHandshake p.handshake
    :: ((List.range (p.packets - 1)).map p.fullPacket ++ p.lastPacket.toList).map .encapsulatedData

end Picture

-----------------------------------------------------------------------------------------
-- The listener
-----------------------------------------------------------------------------------------

/-- The list of the class `Listener`. -/
def classData : ℕ := 0

/-- A `PictureListener` and all lists. `wholeData` is the attribute of the instance, if it has been
assigned; otherwise `WHOLE_DATA` is that of the class.
-/
structure PictureListener where
  heap : ListHeap UInt8 := ⟨[[]]⟩
  dataPacketsCount : ℕ := 0
  totalSize : ℕ := 0
  wholeData : Option ℕ := none
  allocated : wholeData.getD classData < heap.size := by decide

namespace PictureListener

variable (l : PictureListener)

/-- The list that `self.WHOLE_DATA` finds. -/
def ref : ℕ := l.wholeData.getD classData

/-- What that list holds. -/
def collected : List UInt8 := l.heap.read l.ref

/-- `self.WHOLE_DATA += data`. -/
def extend (data : List UInt8) : PictureListener :=
  { l with
    heap := l.heap.extend l.ref data
    wholeData := some l.ref
    allocated := (l.heap.size_extend l.ref data).symm ▸ l.allocated }

/-- `self.WHOLE_DATA` is assigned a new list. -/
def assign (items : List UInt8) : PictureListener :=
  { l with
    heap := (l.heap.alloc items).1
    wholeData := some (l.heap.alloc items).2
    allocated := by simp }

/-- `accept_data`, with what is written to the file. -/
def acceptData (data : List UInt8) (seqnr : ℕ) : PictureListener × List (List UInt8) :=
  let l := l.extend data
  if (seqnr : ℤ) = l.dataPacketsCount - 1 then
    let l := l.assign (l.collected.take l.totalSize)
    (l.assign [], [l.collected])
  else (l, [])

/-- `accept_message`. -/
def acceptMessage : PictureMessage → PictureListener × List (List UInt8)
  | .dataTransmissionHandshake msg =>
      ({ l with dataPacketsCount := msg.packets.toNat, totalSize := msg.size.toNat }, [])
  | .encapsulatedData msg => l.acceptData msg.data msg.seqnr.toNat

@[simp] theorem collected_extend (data : List UInt8)
    : (l.extend data).collected = l.collected ++ data :=
  l.heap.read_extend_same l.allocated data

@[simp] theorem collected_assign (items : List UInt8) : (l.assign items).collected = items :=
  l.heap.read_alloc_new items

end PictureListener

def pictureListener : Mealy PictureListener PictureMessage (List UInt8) :=
  ⟨PictureListener.acceptMessage⟩

-----------------------------------------------------------------------------------------
-- The listener without objects
-----------------------------------------------------------------------------------------

/-- What the listener has collected, as a value. -/
structure PictureBuffer where
  dataPacketsCount : ℕ := 0
  totalSize : ℕ := 0
  wholeData : List UInt8 := []
  deriving DecidableEq, Repr

def PictureBuffer.accept (b : PictureBuffer) : PictureMessage → PictureBuffer × List (List UInt8)
  | .dataTransmissionHandshake msg =>
      ({ b with dataPacketsCount := msg.packets.toNat, totalSize := msg.size.toNat }, [])
  | .encapsulatedData msg =>
      if (msg.seqnr.toNat : ℤ) = b.dataPacketsCount - 1 then
        ({ b with wholeData := [] }, [(b.wholeData ++ msg.data).take b.totalSize])
      else ({ b with wholeData := b.wholeData ++ msg.data }, [])

def pictureBuffer : Mealy PictureBuffer PictureMessage (List UInt8) := ⟨PictureBuffer.accept⟩

namespace PictureBuffer

variable {b : PictureBuffer} {msg : EncapsulatedData}

/-- The last packet writes what has been collected. -/
theorem accept_last (due : (msg.seqnr.toNat : ℤ) = b.dataPacketsCount - 1)
    : b.accept (.encapsulatedData msg)
      = ({ b with wholeData := [] }, [(b.wholeData ++ msg.data).take b.totalSize]) := if_pos due

/-- Another packet is collected. -/
theorem accept_other (early : ¬ (msg.seqnr.toNat : ℤ) = b.dataPacketsCount - 1)
    : b.accept (.encapsulatedData msg)
      = ({ b with wholeData := b.wholeData ++ msg.data }, []) := if_neg early

end PictureBuffer

/-- The lists other than the one of the listener do not matter. -/
def pictureListenerValues : Mealy.Projection pictureListener pictureBuffer where
  state l := ⟨l.dataPacketsCount, l.totalSize, l.collected⟩
  input := some
  output := some
  of_some l msg msg' same := by
    obtain rfl := Option.some.inj same
    rw [List.filterMap_some]
    cases msg with
    | dataTransmissionHandshake msg => rfl
    | encapsulatedData msg =>
        simp only [pictureListener, pictureBuffer, PictureListener.acceptMessage,
          PictureListener.acceptData, PictureBuffer.accept]
        by_cases last : (msg.seqnr.toNat : ℤ) = l.dataPacketsCount - 1
        · have last' : (msg.seqnr.toNat : ℤ) = (l.extend msg.data).dataPacketsCount - 1 := last
          rw [if_pos last, if_pos last']
          simp only [PictureListener.collected_assign, PictureListener.collected_extend]
          rfl
        · have last' : ¬ (msg.seqnr.toNat : ℤ) = (l.extend msg.data).dataPacketsCount - 1 := last
          rw [if_neg last, if_neg last']
          simp only [PictureListener.collected_extend]
          rfl
  of_none l msg none := by cases none

/-- A listener writes what the buffer of its values writes. -/
theorem pictureListener_outputs (msgs : List PictureMessage)
    : pictureListener.outputs {} msgs = pictureBuffer.outputs {} msgs := by
  have run := (pictureListenerValues.run {} msgs).2
  have whole : msgs.filterMap pictureListenerValues.input = msgs := List.filterMap_some
  have written : (pictureListener.outputs {} msgs).filterMap pictureListenerValues.output
      = pictureListener.outputs {} msgs := List.filterMap_some
  rw [whole, written] at run
  exact run.symm

-----------------------------------------------------------------------------------------
-- A picture
-----------------------------------------------------------------------------------------

namespace Picture

variable (p : Picture)

theorem packets_le : p.packets ≤ 65535 := by
  rw [packets, ceilDiv_le_iff_le_mul (by decide)]
  exact p.fits

/-- The packets of a picture cover its data, and all but the last one do not. -/
theorem packets_spec (h : p.data ≠ [])
    : 0 < p.packets ∧ bytesPerPacket * (p.packets - 1) < p.data.length
      ∧ p.data.length ≤ bytesPerPacket * p.packets := by
  have positive := List.length_pos_iff.mpr h
  rw [packets, Nat.ceilDiv_eq_add_pred_div, bytesPerPacket]
  omega

theorem fullPacket_seqnr {i : ℕ} (small : i < 65536) : (p.fullPacket i).seqnr.toNat = i :=
  UInt16.toNat_ofNat_of_lt' small

/-- A full packet continues the first part of the data. -/
theorem take_append_fullPacket (i : ℕ)
    : p.data.take (bytesPerPacket * i) ++ (p.fullPacket i).data
      = p.data.take (bytesPerPacket * (i + 1)) := by
  have first : p.data.take (bytesPerPacket * i)
      = (p.data.take (bytesPerPacket * (i + 1))).take (bytesPerPacket * i) := by
    rw [List.take_take, Nat.min_eq_left (Nat.mul_le_mul_left _ (Nat.le_succ i))]
  rw [first]
  exact List.take_append_drop _ _

/-- The full packets add up to the first part of the data, by induction on their number. -/
theorem fullPackets_accepted {b : PictureBuffer} (whole : b.wholeData = []) {count : ℕ}
    (before : (count : ℤ) ≤ b.dataPacketsCount - 1) (small : count < 65536)
    : pictureBuffer.outputs b (((List.range count).map p.fullPacket).map .encapsulatedData) = []
      ∧ pictureBuffer.finish b (((List.range count).map p.fullPacket).map .encapsulatedData)
        = { b with wholeData := p.data.take (bytesPerPacket * count) } := by
  induction count with
  | zero =>
      refine ⟨rfl, ?_⟩
      rw [Nat.mul_zero, List.take_zero, ← whole]
      rfl
  | succ count ih =>
      push_cast at before
      obtain ⟨outputs, finish⟩ := ih (by omega) (by omega)
      have other : ¬ (((p.fullPacket count).seqnr.toNat : ℕ) : ℤ) = b.dataPacketsCount - 1 := by
        rw [p.fullPacket_seqnr (by omega)]
        omega
      rw [List.range_succ, List.map_append, List.map_append, List.map_singleton, List.map_singleton,
        Mealy.outputs_concat, Mealy.finish_concat, outputs, finish]
      simp only [pictureBuffer, PictureBuffer.accept]
      rw [if_neg other, p.take_append_fullPacket]
      exact ⟨rfl, rfl⟩

/-- The last packet has the rest of the data. -/
theorem lastPacket_eq (h : p.data ≠ [])
    : p.lastPacket = some ⟨UInt16.ofNat (p.packets - 1),
        p.data.drop (bytesPerPacket * (p.packets - 1))
          ++ List.replicate (bytesPerPacket * p.packets - p.data.length) 0⟩ := by
  obtain ⟨positive, rest, covered⟩ := p.packets_spec h
  have index : (p.packets : ℤ) - 1 = ((p.packets - 1 : ℕ) : ℤ) := by omega
  have lastData : sliceFrom p.data (bytesPerPacket * ((p.packets - 1 : ℕ) : ℤ))
      = p.data.drop (bytesPerPacket * (p.packets - 1)) := by
    rw [← Nat.cast_mul]
    exact if_neg (by omega)
  have nonempty : (p.data.drop (bytesPerPacket * (p.packets - 1))).length ≠ 0 := by
    rw [List.length_drop]
    omega
  have zeros : bytesPerPacket - (p.data.drop (bytesPerPacket * (p.packets - 1))).length
      = bytesPerPacket * p.packets - p.data.length := by
    rw [List.length_drop, bytesPerPacket] at *
    omega
  rw [lastPacket, index, lastData, if_pos nonempty, Int.toNat_natCast, zeros]

/-- The state after the handshake. -/
theorem handshake_accepted (b : PictureBuffer)
    : pictureBuffer.step b (.dataTransmissionHandshake p.handshake)
      = (⟨p.packets, p.data.length, b.wholeData⟩, []) := by
  have packets : p.handshake.packets.toNat = p.packets :=
    UInt16.toNat_ofNat_of_lt' (Nat.lt_succ_of_le p.packets_le)
  have size : p.handshake.size.toNat = p.data.length := by
    apply UInt32.toNat_ofNat_of_lt'
    exact p.fits.trans_lt (by decide)
  simp only [pictureBuffer, PictureBuffer.accept, packets, size]

theorem sendPicture_empty (h : p.data = [])
    : p.sendPicture = [.dataTransmissionHandshake p.handshake] := by
  have packets : p.packets = 0 := by
    rw [Picture.packets, h]
    rfl
  have none : p.lastPacket = none := by
    have lastData : ∀ start, sliceFrom p.data start = [] := by
      intro start
      simp [sliceFrom, h]
    rw [lastPacket, lastData]
    rfl
  rw [sendPicture, packets, none]
  rfl

/-- A picture without data writes nothing and leaves nothing behind. -/
theorem sendPicture_empty_accepted {b : PictureBuffer} (h : p.data = [])
    : pictureBuffer.outputs b p.sendPicture = []
      ∧ (pictureBuffer.finish b p.sendPicture).wholeData = b.wholeData := by
  rw [p.sendPicture_empty h, Mealy.outputs, Mealy.finish_cons, p.handshake_accepted]
  exact ⟨rfl, rfl⟩

/-- A picture with data is written when its last packet comes. -/
theorem sendPicture_accepted {b : PictureBuffer} (whole : b.wholeData = []) (h : p.data ≠ [])
    : pictureBuffer.outputs b p.sendPicture = [p.data]
      ∧ (pictureBuffer.finish b p.sendPicture).wholeData = []
      ∧ pictureBuffer.outputs b p.sendPicture.dropLast = [] := by
  obtain ⟨positive, -, covered⟩ := p.packets_spec h
  have last := p.lastPacket_eq h
  set packet : EncapsulatedData := ⟨UInt16.ofNat (p.packets - 1),
    p.data.drop (bytesPerPacket * (p.packets - 1))
      ++ List.replicate (bytesPerPacket * p.packets - p.data.length) 0⟩
  set fulls := ((List.range (p.packets - 1)).map p.fullPacket).map PictureMessage.encapsulatedData
  have messages : p.sendPicture
      = .dataTransmissionHandshake p.handshake :: fulls ++ [.encapsulatedData packet] := by
    rw [sendPicture, last, List.map_append]
    rfl
  have opened : pictureBuffer.outputs b (.dataTransmissionHandshake p.handshake :: fulls) = []
      ∧ pictureBuffer.finish b (.dataTransmissionHandshake p.handshake :: fulls)
        = ⟨p.packets, p.data.length, p.data.take (bytesPerPacket * (p.packets - 1))⟩ := by
    have before : ((p.packets - 1 : ℕ) : ℤ) ≤ (p.packets : ℤ) - 1 := by omega
    have small := p.packets_le
    have full := p.fullPackets_accepted (b := ⟨p.packets, p.data.length, []⟩) rfl before (by omega)
    rw [Mealy.outputs, Mealy.finish_cons, p.handshake_accepted, whole]
    exact full
  have step : pictureBuffer.step
      ⟨p.packets, p.data.length, p.data.take (bytesPerPacket * (p.packets - 1))⟩
      (.encapsulatedData packet) = (⟨p.packets, p.data.length, []⟩, [p.data]) := by
    have seqnr : packet.seqnr.toNat = p.packets - 1 :=
      UInt16.toNat_ofNat_of_lt' ((Nat.sub_le _ _).trans_lt (Nat.lt_succ_of_le p.packets_le))
    have due : (packet.seqnr.toNat : ℤ) = (p.packets : ℤ) - 1 := by
      rw [seqnr]
      omega
    simp only [pictureBuffer, PictureBuffer.accept]
    rw [if_pos due, ← List.append_assoc, List.take_append_drop, List.take_left]
  rw [messages, List.dropLast_concat, Mealy.outputs_concat, Mealy.finish_concat, opened.1, opened.2,
    step]
  exact ⟨rfl, rfl, rfl⟩

end Picture

/-- What is written on the messages of several pictures, by induction on them. -/
theorem pictures_accepted (pictures : List Picture) {b : PictureBuffer} (whole : b.wholeData = [])
    : pictureBuffer.outputs b (pictures.flatMap Picture.sendPicture)
        = (pictures.map Picture.data).filter (· ≠ [])
      ∧ (pictureBuffer.finish b (pictures.flatMap Picture.sendPicture)).wholeData = [] := by
  induction pictures generalizing b with
  | nil => exact ⟨rfl, whole⟩
  | cons p rest ih =>
      rw [List.flatMap_cons, Mealy.outputs_append, Mealy.finish_append, List.map_cons]
      by_cases empty : p.data = []
      · obtain ⟨written, next⟩ := p.sendPicture_empty_accepted (b := b) empty
        obtain ⟨others, last⟩ := ih (next.trans whole)
        rw [written, others, List.filter_cons_of_neg (by simpa using empty)]
        exact ⟨rfl, last⟩
      · obtain ⟨written, next, -⟩ := p.sendPicture_accepted whole empty
        obtain ⟨others, last⟩ := ih next
        rw [written, others, List.filter_cons_of_pos (by simpa using empty)]
        exact ⟨rfl, last⟩

/-- A listener that gets all messages of some pictures writes those that are not empty, in order and
as they were sent, and each of them when its last packet comes.
-/
theorem pictures_round_trip (pictures : List Picture)
    : pictureListener.outputs {} (pictures.flatMap Picture.sendPicture)
        = (pictures.map Picture.data).filter (· ≠ [])
      ∧ ∀ p : Picture,
          pictureListener.outputs {}
              (pictures.flatMap Picture.sendPicture ++ p.sendPicture.dropLast)
            = (pictures.map Picture.data).filter (· ≠ []) := by
  obtain ⟨written, next⟩ := pictures_accepted pictures (b := {}) rfl
  refine ⟨(pictureListener_outputs _).trans written, fun p => ?_⟩
  rw [pictureListener_outputs, Mealy.outputs_append, written]
  by_cases empty : p.data = []
  · rw [p.sendPicture_empty empty]
    exact List.append_nil _
  · rw [(p.sendPicture_accepted next empty).2.2, List.append_nil]

end Granum.Payload
