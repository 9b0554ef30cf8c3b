import Granum.Library.FixedWidth
import Granum.Payload.PictureTransfer

/-! Pictures under loss. What is written depends on which packets have come since the last picture;
it is one of the pictures, whatever they show, exactly if these begin with all packets of one.
-/

namespace Granum.Payload

/-- A message of `send_picture`, by the index of its picture. -/
inductive SentMessage (n : ℕ)
  | handshake (picture : Fin n)
  | packet (picture : Fin n) (seqnr : UInt16)
  deriving DecidableEq

namespace Picture

variable (p : Picture)

/-- The packet with a number. -/
def packet (seqnr : UInt16) : EncapsulatedData :=
  if seqnr.toNat + 1 = p.packets then p.lastPacket.getD (p.fullPacket seqnr.toNat)
  else p.fullPacket seqnr.toNat

/-- The numbers of the packets. -/
def seqnrs : List UInt16 := (List.range p.packets).map UInt16.ofNat

end Picture

variable {n : ℕ}

def SentMessage.message (pictures : Fin n → Picture) : SentMessage n → PictureMessage
  | .handshake j => .dataTransmissionHandshake (pictures j).handshake
  | .packet j seqnr => .encapsulatedData ((pictures j).packet seqnr)

/-- What `send_picture` sends for some pictures. -/
def sentBy (pictures : Fin n → Picture) : List (SentMessage n) :=
  (List.finRange n).flatMap fun j => .handshake j :: (pictures j).seqnrs.map (.packet j)

namespace Picture

variable (p : Picture)

theorem seqnrs_eq (h : p.data ≠ [])
    : p.seqnrs = (List.range (p.packets - 1)).map UInt16.ofNat ++ [UInt16.ofNat (p.packets - 1)] := by
  have last : p.packets = p.packets - 1 + 1 := by
    have positive := (p.packets_spec h).1
    omega
  rw [seqnrs, last, List.range_succ, List.map_append, Nat.add_sub_cancel]
  rfl

/-- Numbers of packets fit into 16 bits. -/
theorem toNat_seqnr {i : ℕ} (inside : i < p.packets) : (UInt16.ofNat i).toNat = i := by
  have few := p.packets_le
  have size : UInt16.size = 65536 := rfl
  exact UInt16.toNat_ofNat_of_lt' (by omega)

theorem packet_full {i : ℕ} (before : i < p.packets - 1)
    : p.packet (UInt16.ofNat i) = p.fullPacket i := by
  rw [packet, p.toNat_seqnr (by omega), if_neg (by omega)]

theorem packet_last (h : p.data ≠ [])
    : p.lastPacket = some (p.packet (UInt16.ofNat (p.packets - 1))) := by
  have positive := (p.packets_spec h).1
  rw [packet, p.toNat_seqnr (by omega), if_pos (by omega), p.lastPacket_eq h]
  rfl

theorem packets_empty (h : p.data = []) : p.packets = 0 := by
  rw [packets, h]
  rfl

theorem seqnrs_packets
    : .dataTransmissionHandshake p.handshake
        :: p.seqnrs.map (fun seqnr => PictureMessage.encapsulatedData (p.packet seqnr))
      = p.sendPicture := by
  by_cases empty : p.data = []
  · rw [p.sendPicture_empty empty, seqnrs, p.packets_empty empty]
    rfl
  · rw [p.seqnrs_eq empty, sendPicture, p.packet_last empty, Option.toList_some, List.map_append,
      List.map_append, List.map_map, List.map_map]
    refine congrArg (_ :: · ++ _) (List.map_congr_left fun i mem => ?_)
    exact congrArg PictureMessage.encapsulatedData (p.packet_full (List.mem_range.mp mem))

/-- A packet carries the number that it is known by. -/
theorem packet_seqnr (seqnr : UInt16) : (p.packet seqnr).seqnr = seqnr := by
  have full : (p.fullPacket seqnr.toNat).seqnr = seqnr := UInt16.ofNat_toNat
  by_cases last : seqnr.toNat + 1 = p.packets
  · have nonempty : p.data ≠ [] := by
      intro empty
      rw [p.packets_empty empty] at last
      exact absurd last (Nat.succ_ne_zero _)
    rw [packet, if_pos last, p.lastPacket_eq nonempty, ← last]
    exact UInt16.ofNat_toNat
  · rw [packet, if_neg last]
    exact full

end Picture

/-- Messages that are known by their pictures are those of `send_picture`. -/
theorem sentBy_messages (pictures : Fin n → Picture)
    : (sentBy pictures).map (SentMessage.message pictures)
      = (List.finRange n).flatMap fun j => (pictures j).sendPicture := by
  rw [sentBy, List.map_flatMap]
  refine List.flatMap_congr fun j _ => ?_
  rw [← (pictures j).seqnrs_packets, List.map_cons, List.map_map]
  rfl

-----------------------------------------------------------------------------------------
-- What is collected for a file
-----------------------------------------------------------------------------------------

/-- The picture whose handshake has come last, and the packets since the last file. -/
structure Collected (n : ℕ) where
  announced : Option (Fin n) := none
  packets : List (Fin n × UInt16) := []

/-- A file: the picture that it is announced as, and the packets in it. -/
structure Collection (n : ℕ) where
  announced : Fin n
  packets : List (Fin n × UInt16)

/-- `sizes` are the lengths of the pictures. -/
def Collected.accept (sizes : Fin n → ℕ) (c : Collected n)
    : SentMessage n → Collected n × List (Collection n)
  | .handshake j => ({ c with announced := some j }, [])
  | .packet j seqnr =>
      let packets := c.packets ++ [(j, seqnr)]
      match c.announced with
      | none => ({ c with packets := packets }, [])
      | some k =>
          if seqnr.toNat + 1 = sizes k ⌈/⌉ bytesPerPacket then
            ({ c with packets := [] }, [⟨k, packets⟩])
          else ({ c with packets := packets }, [])

def collector (sizes : Fin n → ℕ) : Mealy (Collected n) (SentMessage n) (Collection n) :=
  ⟨Collected.accept sizes⟩

/-- The bytes of some packets. -/
def payloads (pictures : Fin n → Picture) (packets : List (Fin n × UInt16)) : List UInt8 :=
  packets.flatMap fun packet => ((pictures packet.1).packet packet.2).data

/-- What the file holds. -/
def Collection.content (pictures : Fin n → Picture) (c : Collection n) : List UInt8 :=
  (payloads pictures c.packets).take (pictures c.announced).data.length

/-- The sizes of some pictures. -/
def sizesOf (pictures : Fin n → Picture) (j : Fin n) : ℕ := (pictures j).data.length

theorem payloads_concat (pictures : Fin n → Picture) (packets : List (Fin n × UInt16)) (j : Fin n)
    (seqnr : UInt16)
    : payloads pictures (packets ++ [(j, seqnr)])
      = payloads pictures packets ++ ((pictures j).packet seqnr).data := by
  simp [payloads]

/-- What the listener has when some packets are collected. -/
def Collected.values (pictures : Fin n → Picture) (c : Collected n) : PictureBuffer :=
  match c.announced with
  | none => ⟨0, 0, payloads pictures c.packets⟩
  | some j => ⟨(pictures j).packets, (pictures j).data.length, payloads pictures c.packets⟩

/-- The listener writes what the collected packets hold. -/
def collectorValues (pictures : Fin n → Picture)
    : Mealy.Projection (collector (sizesOf pictures)) pictureBuffer where
  state := Collected.values pictures
  input msg := some (msg.message pictures)
  output c := some (c.content pictures)
  of_some := by
    intro c msg msg' same
    obtain rfl := Option.some.inj same
    obtain ⟨announced, packets⟩ := c
    cases msg with
    | handshake j =>
        cases announced with
        | none => exact (pictures j).handshake_accepted _
        | some k => exact (pictures j).handshake_accepted _
    | packet j seqnr =>
        have number : ((pictures j).packet seqnr).seqnr.toNat = seqnr.toNat :=
          congrArg UInt16.toNat ((pictures j).packet_seqnr seqnr)
        cases announced with
        | none =>
            have early : ¬ (((pictures j).packet seqnr).seqnr.toNat : ℤ) = ((0 : ℕ) : ℤ) - 1 := by
              omega
            have step := PictureBuffer.accept_other (b := ⟨0, 0, payloads pictures packets⟩) early
            rw [← payloads_concat] at step
            exact step
        | some k =>
            have count : sizesOf pictures k ⌈/⌉ bytesPerPacket = (pictures k).packets := rfl
            by_cases last : seqnr.toNat + 1 = sizesOf pictures k ⌈/⌉ bytesPerPacket
            · have due : (((pictures j).packet seqnr).seqnr.toNat : ℤ)
                  = ((pictures k).packets : ℤ) - 1 := by
                omega
              have step := PictureBuffer.accept_last
                (b := ⟨_, (pictures k).data.length, payloads pictures packets⟩) due
              rw [← payloads_concat] at step
              simp only [collector, Collected.accept, if_pos last]
              exact step
            · have early : ¬ (((pictures j).packet seqnr).seqnr.toNat : ℤ)
                  = ((pictures k).packets : ℤ) - 1 := by
                omega
              have step := PictureBuffer.accept_other
                (b := ⟨_, (pictures k).data.length, payloads pictures packets⟩) early
              rw [← payloads_concat] at step
              simp only [collector, Collected.accept, if_neg last]
              exact step
  of_none := by
    intro c msg none
    cases none

/-- A listener writes the collected packets, whatever the pictures show. -/
theorem files_eq (pictures : Fin n → Picture) (delivered : List (SentMessage n))
    : pictureListener.outputs {} (delivered.map (SentMessage.message pictures))
      = ((collector (sizesOf pictures)).outputs {} delivered).map (Collection.content pictures) := by
  have run := ((collectorValues pictures).run {} delivered).2
  simp only [collectorValues, List.filterMap_eq_map'] at run
  rw [pictureListener_outputs]
  exact run

-----------------------------------------------------------------------------------------
-- The packets of a picture
-----------------------------------------------------------------------------------------

namespace Picture

variable (p : Picture)

/-- The packets carry the data, filled up with zeros. -/
theorem packets_data
    : ∃ zeros, (p.seqnrs.flatMap fun seqnr => (p.packet seqnr).data)
        = p.data ++ List.replicate zeros 0 := by
  by_cases empty : p.data = []
  · refine ⟨0, ?_⟩
    rw [seqnrs, p.packets_empty empty, empty]
    rfl
  · have fulls : ∀ count ≤ p.packets - 1,
        (((List.range count).map UInt16.ofNat).flatMap fun seqnr => (p.packet seqnr).data)
          = p.data.take (bytesPerPacket * count) := by
      intro count le
      induction count with
      | zero => rfl
      | succ count ih =>
          rw [List.range_succ, List.map_append, List.flatMap_append, ih (Nat.le_of_succ_le le),
            ← p.take_append_fullPacket, ← p.packet_full le]
          simp
    have last := p.packet_last empty
    rw [p.lastPacket_eq empty] at last
    refine ⟨bytesPerPacket * p.packets - p.data.length, ?_⟩
    rw [p.seqnrs_eq empty, List.flatMap_append, fulls _ le_rfl, List.flatMap_singleton,
      ← Option.some.inj last, ← List.append_assoc, List.take_append_drop]

/-- A packet begins with its part of the data, and has 253 bytes. -/
theorem packet_data {seqnr : UInt16} (inside : seqnr.toNat < p.packets)
    : (p.packet seqnr).data.length = bytesPerPacket
      ∧ (p.packet seqnr).data[0]? = p.data[bytesPerPacket * seqnr.toNat]? := by
  have nonempty : p.data ≠ [] := by
    intro empty
    rw [p.packets_empty empty] at inside
    exact absurd inside (Nat.not_lt_zero _)
  obtain ⟨positive, rest, covered⟩ := p.packets_spec nonempty
  by_cases last : seqnr.toNat + 1 = p.packets
  · have index : p.packets - 1 = seqnr.toNat := by omega
    rw [index] at rest
    rw [packet, if_pos last, p.lastPacket_eq nonempty, index]
    refine ⟨?_, ?_⟩
    · have whole : bytesPerPacket * p.packets
          = bytesPerPacket * seqnr.toNat + bytesPerPacket := by rw [← last, Nat.mul_succ]
      simp only [Option.getD_some, List.length_append, List.length_drop, List.length_replicate]
      omega
    · have first : 0 < (p.data.drop (bytesPerPacket * seqnr.toNat)).length := by
        rw [List.length_drop]
        omega
      simp only [Option.getD_some]
      rw [List.getElem?_append_left first, List.getElem?_drop, Nat.add_zero]
  · have next : bytesPerPacket * (seqnr.toNat + 1) ≤ bytesPerPacket * (p.packets - 1) :=
      Nat.mul_le_mul_left _ (by omega)
    have longer : bytesPerPacket * (seqnr.toNat + 1)
        = bytesPerPacket * seqnr.toNat + bytesPerPacket := Nat.mul_succ _ _
    have positive : 0 < bytesPerPacket := by decide
    rw [packet, if_neg last, fullPacket]
    refine ⟨?_, ?_⟩
    · rw [List.length_drop, List.length_take]
      omega
    · rw [List.getElem?_drop, List.getElem?_take_of_lt (by omega), Nat.add_zero]

end Picture

-----------------------------------------------------------------------------------------
-- Intact files
-----------------------------------------------------------------------------------------

/-- The packets of a file begin with all packets of a picture that has the announced size. -/
def Collection.Whole (pictures : Fin n → Picture) (c : Collection n) : Prop :=
  ∃ j, (pictures j).data.length = (pictures c.announced).data.length
    ∧ (pictures j).seqnrs.map (j, ·) <+: c.packets

/-- A file with all packets of a picture holds that picture. -/
theorem Collection.Whole.content {pictures : Fin n → Picture} {c : Collection n}
    (whole : c.Whole pictures)
    : ∃ j, c.content pictures = (pictures j).data := by
  obtain ⟨j, size, rest, packets⟩ := whole
  obtain ⟨zeros, data⟩ := (pictures j).packets_data
  refine ⟨j, ?_⟩
  have first : payloads pictures ((pictures j).seqnrs.map (j, ·))
      = (pictures j).data ++ List.replicate zeros 0 := by
    rw [payloads, List.flatMap_map]
    exact data
  rw [Collection.content, ← packets, payloads, List.flatMap_append, ← size]
  rw [payloads] at first
  rw [first, List.append_assoc, List.take_left]

/-- What is collected from messages that were sent: numbers that their pictures have, and the last
number that is announced at the end.
-/
structure Collection.Sent (pictures : Fin n → Picture) (c : Collection n) : Prop where
  inside : ∀ packet ∈ c.packets, packet.2.toNat < (pictures packet.1).packets
  last : ∃ packet ∈ c.packets.getLast?, packet.2.toNat + 1 = (pictures c.announced).packets

theorem mem_sentBy {pictures : Fin n → Picture} {j : Fin n} {seqnr : UInt16}
    (mem : .packet j seqnr ∈ sentBy pictures)
    : seqnr.toNat < (pictures j).packets := by
  simp only [sentBy, List.mem_flatMap, List.mem_cons, reduceCtorEq, List.mem_map, false_or,
    SentMessage.packet.injEq] at mem
  obtain ⟨_, -, number, listed, rfl, rfl⟩ := mem
  obtain ⟨i, below, rfl⟩ := List.mem_map.mp listed
  have small := List.mem_range.mp below
  rw [Picture.toNat_seqnr _ small]
  exact small

/-- Packets with numbers of their pictures. -/
def Numbered (pictures : Fin n → Picture) (packets : List (Fin n × UInt16)) : Prop :=
  ∀ packet ∈ packets, packet.2.toNat < (pictures packet.1).packets

theorem Collected.accept_sent {pictures : Fin n → Picture} {c : Collected n}
    (numbered : Numbered pictures c.packets) {msg : SentMessage n} (sent : msg ∈ sentBy pictures)
    : Numbered pictures (c.accept (sizesOf pictures) msg).1.packets
      ∧ ∀ file ∈ (c.accept (sizesOf pictures) msg).2, file.Sent pictures := by
  obtain ⟨announced, packets⟩ := c
  cases msg with
  | handshake j => exact ⟨numbered, List.forall_mem_nil _⟩
  | packet j seqnr =>
      have longer : Numbered pictures (packets ++ [(j, seqnr)]) := by
        intro packet mem
        rcases List.mem_append.mp mem with earlier | new
        · exact numbered packet earlier
        · rw [List.mem_singleton.mp new]
          exact mem_sentBy sent
      cases announced with
      | none => exact ⟨longer, List.forall_mem_nil _⟩
      | some k =>
          by_cases last : seqnr.toNat + 1 = sizesOf pictures k ⌈/⌉ bytesPerPacket
          · rw [accept]
            simp only [if_pos last]
            refine ⟨List.forall_mem_nil _, fun file mem => ?_⟩
            rw [List.mem_singleton.mp mem]
            exact ⟨longer, (j, seqnr), List.getLast?_concat, last⟩
          · rw [accept]
            simp only [if_neg last]
            exact ⟨longer, List.forall_mem_nil _⟩

/-- By induction on the messages delivered. -/
theorem collections_sent {pictures : Fin n → Picture} {delivered : List (SentMessage n)}
    (sent : ∀ msg ∈ delivered, msg ∈ sentBy pictures) {c : Collected n}
    (numbered : Numbered pictures c.packets)
    : ∀ file ∈ (collector (sizesOf pictures)).outputs c delivered, file.Sent pictures := by
  induction delivered generalizing c with
  | nil => exact List.forall_mem_nil _
  | cons msg rest ih =>
      obtain ⟨first, later⟩ := List.forall_mem_cons.mp sent
      obtain ⟨next, files⟩ := Collected.accept_sent numbered first
      intro file mem
      rcases List.mem_append.mp mem with now | after
      · exact files file now
      · exact ih later next file after

/-- Pictures of the same sizes. -/
def Alike (pictures others : Fin n → Picture) : Prop :=
  ∀ j, (others j).data.length = (pictures j).data.length

/-- Pictures of the same sizes in which all bytes of a packet are the same. -/
def stamped (pictures : Fin n → Picture) (f : Fin n → ℕ → UInt8) (j : Fin n) : Picture where
  data := (List.range (pictures j).data.length).map fun i => f j (i / bytesPerPacket)
  width := (pictures j).width
  height := (pictures j).height
  fits := by simpa using (pictures j).fits

theorem stamped_alike (pictures : Fin n → Picture) (f : Fin n → ℕ → UInt8)
    : Alike pictures (stamped pictures f) := fun j => by simp [stamped]

theorem stamped_data (pictures : Fin n → Picture) (f : Fin n → ℕ → UInt8) {j : Fin n} {k : ℕ}
    (inside : bytesPerPacket * k < (pictures j).data.length)
    : (stamped pictures f j).data[bytesPerPacket * k]? = some (f j k) := by
  have quotient : bytesPerPacket * k / bytesPerPacket = k := Nat.mul_div_cancel_left k (by decide)
  simp [stamped, inside, quotient]

theorem Alike.packets {pictures others : Fin n → Picture} (alike : Alike pictures others) (j : Fin n)
    : (others j).packets = (pictures j).packets := by
  rw [Picture.packets, alike j]
  rfl

/-- The first byte of a packet in a file. -/
theorem Collection.Sent.content_stamped {pictures : Fin n → Picture} {c : Collection n}
    (sent : c.Sent pictures) (f : Fin n → ℕ → UInt8) {k : ℕ} {packet : Fin n × UInt16}
    (found : c.packets[k]? = some packet)
    (inside : bytesPerPacket * k < (pictures c.announced).data.length)
    : (c.content (stamped pictures f))[bytesPerPacket * k]?
      = some (f packet.1 packet.2.toNat) := by
  have alike := stamped_alike pictures f
  have numbered : ∀ other ∈ c.packets,
      other.2.toNat < (stamped pictures f other.1).packets := by
    intro other mem
    rw [alike.packets]
    exact sent.inside other mem
  have width : ∀ other ∈ c.packets,
      ((stamped pictures f other.1).packet other.2).data.length = bytesPerPacket :=
    fun other mem => (Picture.packet_data _ (numbered other mem)).1
  have mem := List.mem_of_getElem? found
  have own : bytesPerPacket * packet.2.toNat < (pictures packet.1).data.length := by
    have below := sent.inside packet mem
    have nonempty : (pictures packet.1).data ≠ [] := by
      intro empty
      rw [Picture.packets_empty _ empty] at below
      exact absurd below (Nat.not_lt_zero _)
    have rest := ((pictures packet.1).packets_spec nonempty).2.1
    exact (Nat.mul_le_mul_left _ (Nat.le_sub_one_of_lt below)).trans_lt rest
  rw [content, alike, List.getElem?_take_of_lt inside, payloads,
    FixedWidth.getElem?_flatMap (by decide) width found,
    (Picture.packet_data _ (numbered packet mem)).2, stamped_data pictures f own]

/-- If a file is one of the pictures whatever they show, then pictures that show one byte in each
packet show it at the place of the packet.
-/
theorem Collection.Sent.agree {pictures : Fin n → Picture} {c : Collection n}
    (sent : c.Sent pictures)
    (intact : ∀ others, Alike pictures others → ∃ j, c.content others = (others j).data)
    (f : Fin n → ℕ → UInt8)
    : ∃ j, (pictures j).data.length
        = min (pictures c.announced).data.length (bytesPerPacket * c.packets.length)
      ∧ ∀ k packet, c.packets[k]? = some packet
          → bytesPerPacket * k < (pictures c.announced).data.length
          → f packet.1 packet.2.toNat = f j k := by
  have alike := stamped_alike pictures f
  obtain ⟨j, same⟩ := intact _ alike
  have width : ∀ other ∈ c.packets,
      ((stamped pictures f other.1).packet other.2).data.length = bytesPerPacket := by
    intro other mem
    have below := sent.inside other mem
    rw [← alike.packets] at below
    exact (Picture.packet_data _ below).1
  have length : (pictures j).data.length
      = min (pictures c.announced).data.length (bytesPerPacket * c.packets.length) := by
    rw [← alike j, ← same, content, List.length_take, payloads, FixedWidth.length_flatMap width,
      alike]
  refine ⟨j, length, fun k packet found inside => ?_⟩
  have own := sent.content_stamped f found inside
  have there : bytesPerPacket * k < (pictures j).data.length := by
    obtain ⟨below, -⟩ := List.getElem?_eq_some_iff.mp found
    rw [length]
    exact lt_min inside (Nat.mul_lt_mul_of_pos_left below (by decide))
  rw [same, stamped_data pictures f there] at own
  exact (Option.some.inj own).symm

/-- If a file is one of the pictures whatever they show, it begins with all packets of one. The
pictures that show the number of each packet fix the numbers, and those that show one picture only
fix the picture.
-/
theorem Collection.Sent.whole {pictures : Fin n → Picture} {c : Collection n}
    (sent : c.Sent pictures)
    (intact : ∀ others, Alike pictures others → ∃ j, c.content others = (others j).data)
    : c.Whole pictures := by
  have agree := sent.agree intact
  obtain ⟨last, final, number⟩ := sent.last
  have nonempty : (pictures c.announced).data ≠ [] := by
    intro empty
    rw [Picture.packets_empty _ empty] at number
    exact absurd number (Nat.succ_ne_zero _)
  obtain ⟨positive, rest, covered⟩ := (pictures c.announced).packets_spec nonempty
  have numbers : ∀ k packet, c.packets[k]? = some packet
      → bytesPerPacket * k < (pictures c.announced).data.length → packet.2.toNat = k := by
    intro k packet found inside
    obtain ⟨j, -, same⟩ := agree fun _ i => if i = k then 1 else 0
    have here := same k packet found inside
    by_contra other
    rw [if_neg other, if_pos rfl] at here
    exact absurd here (by decide)
  have inside : ∀ k < (pictures c.announced).packets,
      bytesPerPacket * k < (pictures c.announced).data.length := fun k below =>
    (Nat.mul_le_mul_left _ (Nat.le_sub_one_of_lt below)).trans_lt rest
  have enough : (pictures c.announced).packets ≤ c.packets.length := by
    rw [List.getLast?_eq_getElem?] at final
    obtain ⟨below, -⟩ := List.getElem?_eq_some_iff.mp final
    by_contra few
    have index := numbers _ last final (inside _ (by omega))
    omega
  obtain ⟨first, found⟩ : ∃ packet, c.packets[0]? = some packet :=
    ⟨_, List.getElem?_eq_getElem (positive.trans_le enough)⟩
  obtain ⟨j, size, shown⟩ := agree fun q _ => if q = first.1 then 1 else 0
  have own : j = first.1 := by
    have here := shown 0 first found (inside 0 positive)
    by_contra other
    rw [if_pos rfl, if_neg other] at here
    exact absurd here (by decide)
  have announced : (pictures j).data.length = (pictures c.announced).data.length := by
    rw [size, Nat.min_eq_left]
    exact covered.trans (Nat.mul_le_mul_left _ enough)
  have count : (pictures j).packets = (pictures c.announced).packets := by
    rw [Picture.packets, announced]
    rfl
  refine ⟨j, announced, List.prefix_iff_getElem?.mpr fun k below => ?_⟩
  have small : k < (pictures c.announced).packets := by
    rw [List.length_map, Picture.seqnrs, List.length_map, List.length_range, count] at below
    exact below
  obtain ⟨packet, there⟩ : ∃ packet, c.packets[k]? = some packet :=
    ⟨_, List.getElem?_eq_getElem (small.trans_le enough)⟩
  have index := numbers k packet there (inside k small)
  have picture : packet.1 = j := by
    have here := shown k packet there (inside k small)
    by_contra other
    rw [if_neg (own ▸ other), if_pos own] at here
    exact absurd here (by decide)
  have listed : ((pictures j).seqnrs.map (j, ·)).get ⟨k, below⟩ = (j, UInt16.ofNat k) := by
    simp [Picture.seqnrs]
  rw [there]
  refine congrArg some (Eq.trans ?_ listed.symm)
  rw [← picture, ← index, UInt16.ofNat_toNat]

theorem Alike.sizesOf {pictures others : Fin n → Picture} (alike : Alike pictures others)
    : sizesOf others = sizesOf pictures := funext alike

/-- A listener that gets some of the messages of some pictures, in order, writes one of the pictures
each time, whatever they show, exactly if the packets since the last file always begin with all
packets of one picture of the announced size.
-/
theorem files_intact_iff (pictures : Fin n → Picture) {delivered : List (SentMessage n)}
    (inOrder : delivered.Sublist (sentBy pictures))
    : (∀ others, Alike pictures others
        → ∀ file ∈ pictureListener.outputs {} (delivered.map (SentMessage.message others)),
          ∃ j, file = (others j).data)
      ↔ ∀ c ∈ (collector (sizesOf pictures)).outputs {} delivered, c.Whole pictures := by
  constructor
  · intro intact c mem
    have start : Numbered pictures ({} : Collected n).packets := List.forall_mem_nil _
    have sent := collections_sent (fun msg listed => inOrder.subset listed) start c mem
    refine sent.whole fun others alike => ?_
    have written : c.content others
        ∈ pictureListener.outputs {} (delivered.map (SentMessage.message others)) := by
      rw [files_eq, alike.sizesOf]
      exact List.mem_map_of_mem mem
    exact intact others alike _ written
  · intro whole others alike file mem
    rw [files_eq, alike.sizesOf] at mem
    obtain ⟨c, collected, rfl⟩ := List.mem_map.mp mem
    obtain ⟨j, size, packets⟩ := whole c collected
    apply Collection.Whole.content
    refine ⟨j, by rw [alike, alike, size], ?_⟩
    rw [Picture.seqnrs, alike.packets]
    exact packets

/-- A picture of two packets. -/
def twoPackets : Picture where
  data := List.replicate 254 7
  width := 1
  height := 1
  fits := by
    rw [List.length_replicate]
    decide

theorem packets_twoPackets : twoPackets.packets = 2 := by
  rw [Picture.packets, twoPackets, List.length_replicate]
  rfl

theorem sentBy_twoPackets
    : sentBy (fun _ : Fin 1 => twoPackets) = [.handshake 0, .packet 0 0, .packet 0 1] := by
  simp only [sentBy, Picture.seqnrs, packets_twoPackets]
  rfl

/-- Both packets arrive. -/
theorem files_intact_iff_complete
    : (∀ others, Alike (fun _ : Fin 1 => twoPackets) others
        → ∀ file ∈ pictureListener.outputs {}
            ([.handshake 0, .packet 0 0, .packet 0 1].map (SentMessage.message others)),
          ∃ j, file = (others j).data)
      ↔ ∀ c ∈ (collector (sizesOf fun _ : Fin 1 => twoPackets)).outputs {}
          [.handshake 0, .packet 0 0, .packet 0 1], c.Whole fun _ => twoPackets :=
  files_intact_iff _ (sentBy_twoPackets ▸ List.Sublist.refl _)

/-- The first packet is lost, and a file is written when the second one comes. -/
theorem lost_packet_written
    : ¬ ∀ (n : ℕ) (pictures : Fin n → Picture) (delivered : List (SentMessage n)),
        delivered.Sublist (sentBy pictures)
          → ∀ file ∈ pictureListener.outputs {} (delivered.map (SentMessage.message pictures)),
            ∃ j, file = (pictures j).data := by
  intro intact
  have lost : [.handshake 0, .packet 0 1].Sublist (sentBy fun _ : Fin 1 => twoPackets) := by
    rw [sentBy_twoPackets]
    decide
  have files := intact 1 (fun _ => twoPackets) [.handshake 0, .packet 0 1] lost
  have sizes : sizesOf (fun _ : Fin 1 => twoPackets) = fun _ => 254 := by
    funext j
    exact List.length_replicate
  have collected : (collector fun _ : Fin 1 => 254).outputs {} [.handshake 0, .packet 0 1]
      = [⟨0, [(0, 1)]⟩] := rfl
  rw [files_eq, sizes, collected] at files
  obtain ⟨j, same⟩ := files _ (List.mem_singleton_self _)
  have inside : (1 : UInt16).toNat < twoPackets.packets := by
    rw [packets_twoPackets]
    decide
  have width := (twoPackets.packet_data inside).1
  have lengths := congrArg List.length same
  have size : twoPackets.data.length = 254 := List.length_replicate
  rw [Collection.content, payloads, List.flatMap_singleton, List.length_take, width, size] at lengths
  exact absurd lengths (by decide)

end Granum.Payload
