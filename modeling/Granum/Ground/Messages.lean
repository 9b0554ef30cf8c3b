import Mathlib

/-! The messages of the spectrum link, and the transmissions that a sender makes of them. -/

namespace Granum.Ground

/-- The two channels of the link. -/
inductive Kind
  | picture
  | spectrum
  deriving DecidableEq, Repr

/-- The other channel. -/
def Kind.other : Kind → Kind
  | picture => spectrum
  | spectrum => picture

/-- One item of the data of a channel: a byte of a picture, an intensity of a spectrum. -/
@[reducible] def Kind.Elem : Kind → Type
  | picture => UInt8
  | spectrum => UInt16

/-- The fields `size` and `packets` of a `PICTURE_HEADER` or an `INTENSITY_HEADER`. -/
structure Header where
  size : ℕ
  packets : ℕ
  deriving DecidableEq, Repr

/-- An `ENCAPSULATED_DATA` or an `INTENSITY_ENCAPSULATED_DATA`. -/
structure Packet (α : Type) where
  seqnr : ℕ
  data : List α
  deriving DecidableEq, Repr

/-- A MAVLink message, as told apart by `get_type`. -/
inductive Message
  | pictureHeader (header : Header)
  | encapsulatedData (packet : Packet UInt8)
  | intensityHeader (header : Header)
  | intensityEncapsulatedData (packet : Packet UInt16)
  | other
  deriving DecidableEq, Repr

/-- A message of one channel. -/
inductive ChannelMessage (α : Type)
  | header (header : Header)
  | data (packet : Packet α)
  deriving DecidableEq, Repr

/-- The sequence number of a packet. -/
def ChannelMessage.seqnr? {α : Type} : ChannelMessage α → Option ℕ
  | .header _ => none
  | .data packet => some packet.seqnr

/-- The message of a channel that a message is, if it belongs to that channel. -/
def Message.on : (kind : Kind) → Message → Option (ChannelMessage kind.Elem)
  | .picture, .pictureHeader header => some (.header header)
  | .picture, .encapsulatedData packet => some (.data packet)
  | .spectrum, .intensityHeader header => some (.header header)
  | .spectrum, .intensityEncapsulatedData packet => some (.data packet)
  | _, _ => none

/-- The message that carries a message of a channel. -/
def Message.of : (kind : Kind) → ChannelMessage kind.Elem → Message
  | .picture, .header header => .pictureHeader header
  | .picture, .data packet => .encapsulatedData packet
  | .spectrum, .header header => .intensityHeader header
  | .spectrum, .data packet => .intensityEncapsulatedData packet

@[simp] theorem Message.on_of {kind : Kind} (msg : ChannelMessage kind.Elem)
    : (Message.of kind msg).on kind = some msg := by
  cases kind <;> cases msg <;> rfl

theorem Message.on_of_ne {kind other : Kind} (different : other ≠ kind)
    (msg : ChannelMessage kind.Elem)
    : (Message.of kind msg).on other = none := by
  cases kind <;> cases other <;> cases msg <;> first | rfl | exact absurd rfl different

theorem filterMap_on_of {kind : Kind} (messages : List (ChannelMessage kind.Elem))
    : (messages.map (Message.of kind)).filterMap (Message.on kind) = messages := by
  simp [List.filterMap_map]

theorem filterMap_on_of_ne {kind other : Kind} (different : other ≠ kind)
    (messages : List (ChannelMessage kind.Elem))
    : (messages.map (Message.of kind)).filterMap (Message.on other) = [] := by
  simp [List.filterMap_map, Message.on_of_ne different]

/-- One transmission: the announced size and the payloads of its packets. -/
structure Transmission (α : Type) where
  size : ℕ
  payloads : List (List α)
  deriving DecidableEq, Repr

/-- The packets that carry the payloads, numbered from zero. -/
def packets {α : Type} (payloads : List (List α)) : List (ChannelMessage α) :=
  payloads.mapIdx (fun seqnr data => .data ⟨seqnr, data⟩)

namespace Transmission

variable {α : Type} (t : Transmission α)

def header : Header := ⟨t.size, t.payloads.length⟩

/-- The header and then all packets. -/
def messages : List (ChannelMessage α) := .header t.header :: packets t.payloads

/-- The payloads one after the other, cut to the announced size. -/
def data : List α := t.payloads.flatten.take t.size

end Transmission

@[simp] theorem packets_concat {α : Type} (payloads : List (List α)) (data : List α)
    : packets (payloads ++ [data]) = packets payloads ++ [.data ⟨payloads.length, data⟩] := by
  simp [packets, List.mapIdx_concat]

theorem mem_packets {α : Type} {payloads : List (List α)} {packet : Packet α}
    : .data packet ∈ packets payloads ↔ payloads[packet.seqnr]? = some packet.data := by
  simp only [packets, List.mem_mapIdx, ChannelMessage.data.injEq]
  constructor
  · intro member
    obtain ⟨seqnr, bound, rfl⟩ := member
    exact List.getElem?_eq_getElem bound
  · intro found
    obtain ⟨bound, same⟩ := List.getElem?_eq_some_iff.mp found
    exact ⟨packet.seqnr, bound, by rw [same]⟩

theorem header_not_mem_packets {α : Type} {payloads : List (List α)} {header : Header}
    : .header header ∉ packets payloads := by
  simp [packets, List.mem_mapIdx]

end Granum.Ground
