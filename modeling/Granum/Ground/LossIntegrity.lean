import Granum.Ground.Recovery

/-! Reassembly under loss. Every message is known by the transmission it was sent in, and a
channel by the transmission whose header it accumulates for; what it delivers is intact as
long as it takes no packet of another transmission for the one it waits for.
-/

namespace Granum.Ground

/-- A message of a channel, with the index of the transmission that it was sent in. -/
structure Sent (α : Type) where
  transmission : ℕ
  message : ChannelMessage α
  deriving DecidableEq

/-- The messages of transmissions that are sent one after the other. -/
def sentMessages {α : Type} (transmissions : List (Transmission α)) : List (Sent α) :=
  transmissions.zipIdx.flatMap (fun entry => entry.1.messages.map (⟨entry.2, ·⟩))

theorem mem_sentMessages {α : Type} {transmissions : List (Transmission α)} {x : Sent α}
    : x ∈ sentMessages transmissions
      ↔ ∃ t, transmissions[x.transmission]? = some t ∧ x.message ∈ t.messages := by
  simp only [sentMessages, List.mem_flatMap, List.mem_map]
  constructor
  · intro member
    obtain ⟨⟨t, index⟩, listed, message, inside, rfl⟩ := member
    exact ⟨t, List.mk_mem_zipIdx_iff_getElem?.mp listed, inside⟩
  · intro member
    obtain ⟨t, found, inside⟩ := member
    exact ⟨(t, x.transmission), List.mk_mem_zipIdx_iff_getElem?.mpr found, x.message, inside, rfl⟩

/-- A channel with the transmission whose header it has accepted last. -/
structure Owned (α : Type) where
  channel : Channel α := {}
  owner : ℕ := 0

namespace Owned

variable {α : Type}

/-- A header that an idle channel accepts passes the ownership to its transmission. -/
def nextOwner (o : Owned α) (x : Sent α) : ℕ :=
  match o.channel.listener.state, x.message with
  | .idle, .header _ => x.transmission
  | _, _ => o.owner

/-- The channel runs as before, and each delivery is known by the owner of its data. -/
def accept (o : Owned α) (x : Sent α) : Owned α × List (ℕ × Delivery α) :=
  ({ channel := (o.channel.accept x.message).1, owner := o.nextOwner x },
    (o.channel.accept x.message).2.map (o.owner, ·))

/-- A packet of another transmission is taken for the awaited one. -/
def Foreign (o : Owned α) (x : Sent α) : Prop :=
  o.channel.listener.state = .accum ∧ x.transmission ≠ o.owner
    ∧ x.message.seqnr? = some o.channel.indexWeWaitFor

instance (o : Owned α) (x : Sent α) : Decidable (o.Foreign x) := instDecidableAnd

/-- An accumulating channel holds the first payloads of its owner, up to the awaited one. -/
def Holds (transmissions : List (Transmission α)) (o : Owned α) : Prop :=
  o.channel.listener.state = .accum
    → ∃ t, transmissions[o.owner]? = some t
      ∧ o.channel.listener.dataPacketsCount = t.payloads.length
      ∧ o.channel.listener.totalSize = t.size
      ∧ o.channel.listener.wholeData = (t.payloads.take o.channel.indexWeWaitFor).flatten

/-- A delivery is the data of the transmission that owns it. -/
def Intact (transmissions : List (Transmission α)) (entry : ℕ × Delivery α) : Prop :=
  ∃ t, transmissions[entry.1]? = some t ∧ entry.2.data = t.data

end Owned

/-- Channels with owners, run over sent messages. -/
def owned (α : Type) : Mealy (Owned α) (Sent α) (ℕ × Delivery α) := ⟨Owned.accept⟩

/-- Forgetting the owners gives the channel. -/
def forgetOwner (α : Type) : Mealy.Projection (owned α) (channel α) where
  state := Owned.channel
  input := fun x => some x.message
  output := fun entry => some entry.2
  of_some := by
    intro o x msg concerned
    obtain rfl := Option.some.inj concerned
    refine Prod.ext rfl ?_
    change (o.channel.accept x.message).2
      = ((o.channel.accept x.message).2.map (o.owner, ·)).filterMap (fun entry => some entry.2)
    rw [List.filterMap_map]
    simp
  of_none := by
    intro o x unconcerned
    cases unconcerned

theorem owned_outputs {α : Type} (delivered : List (Sent α))
    : ((owned α).outputs {} delivered).map Prod.snd
      = (channel α).outputs {} (delivered.map Sent.message) := by
  have forgotten := ((forgetOwner α).run {} delivered).2
  simp only [forgetOwner, List.filterMap_eq_map'] at forgotten
  exact forgotten.symm

/-- A channel has counted its deliveries, and numbered the last one by the count before. -/
theorem owned_numbers {α : Type} (delivered : List (Sent α))
    : ((owned α).finish {} delivered).channel.listener.numberOfWholePackages
        = ((owned α).outputs {} delivered).length
      ∧ ∀ entry ∈ ((owned α).outputs {} delivered).getLast?,
          entry.2.identifier + 1 = ((owned α).outputs {} delivered).length := by
  induction delivered using List.reverseRecOn with
  | nil => exact ⟨rfl, fun entry member => (by cases member)⟩
  | append_singleton before x ih =>
      obtain ⟨count, last⟩ := ih
      rw [Mealy.finish_concat, Mealy.outputs_concat]
      change (Owned.accept _ _).1.channel.listener.numberOfWholePackages = _ ∧ _
      rcases Channel.accept_numbers ((owned α).finish {} before).channel x.message with
        ⟨silent, kept⟩ | ⟨_, data, delivers, counted⟩
      · have none : ((owned α).step ((owned α).finish {} before) x).2 = [] :=
          congrArg (List.map _) silent
        rw [none, List.append_nil]
        exact ⟨kept.trans count, last⟩
      · have one : ((owned α).step ((owned α).finish {} before) x).2
            = [(((owned α).finish {} before).owner,
                ⟨data, ((owned α).outputs {} before).length⟩)] := by
          rw [← count]
          exact congrArg (List.map _) delivers
        rw [one, List.length_append]
        refine ⟨counted.trans (congrArg (· + 1) count), ?_⟩
        intro entry member
        rw [List.getLast?_concat, Option.mem_some_iff] at member
        rw [← member]
        rfl

/-- No packet of another transmission is taken for an awaited one in the whole run. -/
def OwnPackets {α : Type} (delivered : List (Sent α)) : Prop :=
  ∀ n, (bound : n < delivered.length)
    → ¬ ((owned α).finish {} (delivered.take n)).Foreign delivered[n]

instance {α : Type} (delivered : List (Sent α)) : Decidable (OwnPackets delivered) :=
  Nat.decidableBallLT delivered.length _

theorem OwnPackets.concat {α : Type} {before : List (Sent α)} {x : Sent α}
    (own : OwnPackets (before ++ [x]))
    : OwnPackets before ∧ ¬ ((owned α).finish {} before).Foreign x := by
  constructor
  · intro n bound
    have native := own n (by simp; omega)
    rwa [List.take_append_of_le_length bound.le, List.getElem_append_left bound] at native
  · have native := own before.length (by simp)
    simpa using native

namespace Owned

variable {α : Type} {transmissions : List (Transmission α)}

/-- The awaited packet of the owner carries the next payload. -/
theorem Holds.extend {o : Owned α} {x : Sent α} {packet : Packet α}
    (holds : o.Holds transmissions) (sent : x ∈ sentMessages transmissions)
    (native : ¬ o.Foreign x) (isData : x.message = .data packet)
    (accum : o.channel.listener.state = .accum)
    (awaited : packet.seqnr = o.channel.indexWeWaitFor)
    : ∃ t, transmissions[o.owner]? = some t
      ∧ o.channel.listener.dataPacketsCount = t.payloads.length
      ∧ o.channel.listener.totalSize = t.size
      ∧ o.channel.listener.wholeData ++ packet.data
        = (t.payloads.take (o.channel.indexWeWaitFor + 1)).flatten := by
  obtain ⟨t, found, count, size, whole⟩ := holds accum
  obtain ⟨t', found', member⟩ := mem_sentMessages.mp sent
  have same : x.transmission = o.owner := by
    by_contra different
    exact native ⟨accum, different, by rw [isData, ChannelMessage.seqnr?, awaited]⟩
  obtain rfl : t' = t := Option.some.inj (found'.symm.trans (same ▸ found))
  refine ⟨t', found, count, size, ?_⟩
  have payload : t'.payloads[o.channel.indexWeWaitFor]? = some packet.data := by
    rw [isData, Transmission.messages] at member
    have listed := (List.mem_cons.mp member).resolve_left (by simp)
    rw [← awaited]
    exact mem_packets.mp listed
  rw [whole, List.take_add_one, payload, Option.toList_some, List.flatten_append]
  simp

theorem nextOwner_data (o : Owned α) (transmission : ℕ) (packet : Packet α)
    : o.nextOwner ⟨transmission, .data packet⟩ = o.owner := by
  unfold nextOwner
  cases o.channel.listener.state <;> rfl

theorem nextOwner_accum {o : Owned α} (accum : o.channel.listener.state = .accum) (x : Sent α)
    : o.nextOwner x = o.owner := by
  simp only [nextOwner, accum]

theorem nextOwner_header {o : Owned α} (idle : o.channel.listener.state = .idle)
    (transmission : ℕ) (header : Header)
    : o.nextOwner ⟨transmission, .header header⟩ = transmission := by
  simp only [nextOwner, idle]

/-- One message keeps what the channel holds, and delivers intact data only; by cases on the
reaction of the channel.
-/
theorem Holds.step {o : Owned α} {x : Sent α} (holds : o.Holds transmissions)
    (sent : x ∈ sentMessages transmissions) (native : ¬ o.Foreign x)
    : (o.accept x).1.Holds transmissions
      ∧ ∀ entry ∈ (o.accept x).2, Intact transmissions entry := by
  obtain ⟨transmission, msg⟩ := x
  have reaction := Channel.accept_reaction o.channel msg
  unfold accept
  generalize o.channel.accept msg = answer at reaction
  cases reaction with
  | ignored _ kept =>
      refine ⟨fun kept => ?_, by simp⟩
      have accum : o.channel.listener.state = .accum := kept
      rw [nextOwner_accum accum]
      exact holds accum
  | opened header idle =>
      refine ⟨fun _ => ?_, by simp⟩
      rw [nextOwner_header idle]
      obtain ⟨t, found, member⟩ := mem_sentMessages.mp sent
      have announced : header = t.header := by
        rcases List.mem_cons.mp member with same | packet
        · exact ChannelMessage.header.inj same
        · exact absurd packet header_not_mem_packets
      refine ⟨t, found, ?_, ?_, ?_⟩ <;> rw [announced] <;> rfl
  | dropped packet accum =>
      refine ⟨fun again => ?_, by simp⟩
      cases again
  | extended packet accum awaited more =>
      refine ⟨fun _ => ?_, by simp⟩
      rw [nextOwner_data]
      exact holds.extend sent native rfl accum awaited
  | completed packet accum awaited last =>
      obtain ⟨t, found, count, size, whole⟩ := holds.extend sent native rfl accum awaited
      refine ⟨fun again => ?_, ?_⟩
      · cases again
      · intro entry member
        obtain rfl := List.mem_singleton.mp member
        refine ⟨t, found, ?_⟩
        have everything : o.channel.indexWeWaitFor + 1 = t.payloads.length := by omega
        change (o.channel.listener.wholeData ++ packet.data).take _ = _
        rw [whole, everything, List.take_length, size]
        rfl

end Owned

/-- A run without foreign packets delivers intact data only, by induction on the run. -/
theorem ownPackets_intact {α : Type} {transmissions : List (Transmission α)}
    {delivered : List (Sent α)}
    (sent : ∀ x ∈ delivered, x ∈ sentMessages transmissions) (own : OwnPackets delivered)
    : ((owned α).finish {} delivered).Holds transmissions
      ∧ ∀ entry ∈ (owned α).outputs {} delivered, Owned.Intact transmissions entry := by
  induction delivered using List.reverseRecOn with
  | nil => exact ⟨fun accum => (by cases accum), by simp⟩
  | append_singleton before x ih =>
      obtain ⟨holds, intact⟩ := ih (fun y member => sent y (List.mem_append_left _ member))
        own.concat.1
      obtain ⟨holdsNext, intactNext⟩ := holds.step (sent x (by simp)) own.concat.2
      rw [Mealy.finish_concat, Mealy.outputs_concat]
      refine ⟨holdsNext, ?_⟩
      intro entry member
      rcases List.mem_append.mp member with earlier | now
      · exact intact entry earlier
      · exact intactNext entry now

/-- Transmissions on one channel, with any loss: as long as no packet of another transmission
is taken for the one awaited, every call of an acceptor is one of that channel's acceptor
with the data of one of the transmissions.
-/
theorem deliveries_intact (kind : Kind) (transmissions : List (Transmission kind.Elem))
    (delivered : List (Sent kind.Elem))
    (loss : delivered.Sublist (sentMessages transmissions)) (own : OwnPackets delivered)
    : ∀ call ∈ aggregator.outputs {} ((delivered.map Sent.message).map (Message.of kind)),
        ∃ t ∈ transmissions, ∃ identifier, call.on kind = some ⟨t.data, identifier⟩ := by
  intro call member
  rcases call.on_cases kind with ⟨delivery, onKind⟩ | ⟨other, different, delivery, onOther⟩
  · have listed := List.mem_filterMap.mpr ⟨call, member, onKind⟩
    rw [outputs_on, filterMap_on_of, ← owned_outputs] at listed
    obtain ⟨entry, inside, rfl⟩ := List.mem_map.mp listed
    obtain ⟨t, found, data⟩ :=
      (ownPackets_intact (fun x member => loss.subset member) own).2 entry inside
    exact ⟨t, List.mem_of_getElem? found, entry.2.identifier, by rw [onKind, ← data]⟩
  · have listed := List.mem_filterMap.mpr ⟨call, member, onOther⟩
    rw [outputs_on, filterMap_on_of_ne different] at listed
    cases listed

theorem deliveries_intact_first_picture
    : ∃ t ∈ [firstPicture, secondPicture], ∃ identifier,
        (Call.picture ⟨firstPicture.data, 0⟩).on .picture = some ⟨t.data, identifier⟩ :=
  deliveries_intact .picture [firstPicture, secondPicture] _ (List.Sublist.refl _)
    (by decide +kernel) _ (by decide +kernel)

/-- The first picture loses its last packet, and is completed by that of the second. -/
theorem second_picture_mixed
    : ¬ ∀ (kind : Kind) (transmissions : List (Transmission kind.Elem))
        (delivered : List (Sent kind.Elem)),
        delivered.Sublist (sentMessages transmissions)
        → ∀ call ∈ aggregator.outputs {} ((delivered.map Sent.message).map (Message.of kind)),
          ∃ t ∈ transmissions, ∃ identifier, call.on kind = some ⟨t.data, identifier⟩ := by
  intro intact
  let delivered : List (Sent UInt8) :=
    [⟨0, .header firstPicture.header⟩, ⟨0, .data ⟨0, List.replicate 253 1⟩⟩,
      ⟨1, .header secondPicture.header⟩, ⟨1, .data ⟨0, List.replicate 253 3⟩⟩,
      ⟨1, .data ⟨1, List.replicate 253 4⟩⟩]
  have loss : delivered.Sublist (sentMessages [firstPicture, secondPicture]) := by
    decide +kernel
  have call : .picture ⟨List.replicate 253 1 ++ List.replicate 253 4, 0⟩
      ∈ aggregator.outputs {} ((delivered.map Sent.message).map (Message.of .picture)) := by
    decide +kernel
  obtain ⟨t, sent, identifier, same⟩ := intact .picture _ delivered loss _ call
  have data : List.replicate 253 1 ++ List.replicate 253 4 = t.data :=
    congrArg Delivery.data (Option.some.inj same)
  rcases List.mem_pair.mp sent with rfl | rfl
  · exact absurd data (by decide +kernel)
  · exact absurd data (by decide +kernel)

end Granum.Ground
