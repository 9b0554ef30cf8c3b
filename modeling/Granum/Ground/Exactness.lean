import Granum.Ground.SpectrumAggregator

/-! Exactness within one transmission. Whatever is lost, repeated or reordered, a channel that
accumulates holds the payloads before the awaited index, one after the other.
-/

namespace Granum.Ground

/-- The messages of a channel are those of one transmission. -/
def Transmission.Drawn {α : Type} (t : Transmission α) (messages : List (ChannelMessage α))
    : Prop :=
  ∀ msg ∈ messages, msg ∈ t.messages

namespace Channel

variable {α : Type} {t : Transmission α} {c : Channel α}

/-- A channel that accumulates has taken the payloads before the awaited index. -/
structure Collects (t : Transmission α) (c : Channel α) : Prop where
  dataPacketsCount : c.listener.state = .accum → c.listener.dataPacketsCount = t.payloads.length
  totalSize : c.listener.state = .accum → c.listener.totalSize = t.size
  wholeData : c.listener.state = .accum
    → c.listener.wholeData = (t.payloads.take c.indexWeWaitFor).flatten

theorem collects_start : Collects t {} := ⟨nofun, nofun, nofun⟩

/-- The payload of the awaited packet continues the payloads before it. -/
theorem Collects.wholeData_append (collects : Collects t c) (accum : c.listener.state = .accum)
    {packet : Packet α} (drawn : .data packet ∈ t.messages)
    (awaited : packet.seqnr = c.indexWeWaitFor)
    : c.listener.wholeData ++ packet.data
      = (t.payloads.take (c.indexWeWaitFor + 1)).flatten := by
  have member : .data packet ∈ packets t.payloads := by
    rcases List.mem_cons.mp drawn with header | member
    · cases header
    · exact member
  have found : t.payloads[c.indexWeWaitFor]? = some packet.data :=
    awaited ▸ mem_packets.mp member
  rw [List.take_add_one, found, collects.wholeData accum, List.flatten_append]
  simp

/-- Every message of the transmission keeps the payloads together, and a call carries exactly
its data, by cases on what the channel does.
-/
theorem Collects.accept (collects : Collects t c) {msg : ChannelMessage α}
    (drawn : msg ∈ t.messages)
    : Collects t (c.accept msg).1
      ∧ ∀ delivery ∈ (c.accept msg).2, delivery.data = t.data := by
  have reaction := c.accept_reaction msg
  generalize c.accept msg = answer at reaction
  cases reaction with
  | ignored _ _ => exact ⟨collects, by simp⟩
  | opened header idle =>
      obtain rfl : header = t.header := by
        rcases List.mem_cons.mp drawn with same | member
        · exact ChannelMessage.header.inj same
        · exact absurd member header_not_mem_packets
      exact ⟨⟨fun _ => rfl, fun _ => rfl, fun _ => rfl⟩, by simp⟩
  | dropped packet accum => exact ⟨⟨nofun, nofun, nofun⟩, by simp⟩
  | extended packet accum awaited more =>
      have taken := collects.wholeData_append accum drawn awaited
      refine ⟨⟨?_, ?_, fun _ => taken⟩, by simp⟩
      · exact collects.dataPacketsCount
      · exact collects.totalSize
  | completed packet accum awaited last =>
      have taken := collects.wholeData_append accum drawn awaited
      refine ⟨⟨nofun, nofun, nofun⟩, ?_⟩
      rw [← awaited, last, collects.dataPacketsCount accum, List.take_length] at taken
      simp [delivery, taken, collects.totalSize accum, Transmission.data]

/-- The deliveries of a run, by induction on the messages: each carries the data of the
transmission, and they are numbered from zero.
-/
theorem outputs_drawn {messages : List (ChannelMessage α)} (drawn : t.Drawn messages)
    : Collects t ((channel α).finish {} messages)
      ∧ (channel α).outputs {} messages
        = (List.range ((channel α).finish {} messages).listener.numberOfWholePackages).map
            (Delivery.mk t.data) := by
  induction messages using List.reverseRecOn with
  | nil => exact ⟨collects_start, rfl⟩
  | append_singleton messages last ih =>
      have drawn := List.forall_mem_append.mp drawn
      obtain ⟨collects, outputs⟩ := ih drawn.1
      obtain ⟨next, whole⟩ := collects.accept (drawn.2 last (List.mem_singleton_self last))
      rw [Mealy.finish_concat, Mealy.outputs_concat, outputs]
      refine ⟨next, ?_⟩
      change _ ++ (Channel.accept _ last).2 = _
      rcases accept_numbers ((channel α).finish {} messages) last
        with ⟨none, same⟩ | ⟨-, data, delivered, counted⟩
      · rw [none, List.append_nil]
        exact congrArg _ (congrArg List.range same.symm)
      · rw [delivered, List.forall_mem_singleton] at whole
        obtain rfl : data = t.data := whole
        change _ = List.map _ (List.range (Channel.accept _ last).1.listener.numberOfWholePackages)
        rw [delivered, counted, List.range_succ, List.map_append]
        rfl

end Channel

/-- From any messages of one transmission, however many are lost or repeated and in whatever
order, an acceptor is called with exactly its data and the identifiers `0, 1, 2, …`.
-/
theorem calls_exact (kind : Kind) (t : Transmission kind.Elem) (messages : List Message)
    (drawn : ∀ msg ∈ messages, ∃ own ∈ t.messages, msg = Message.of kind own)
    : (∃ n, (aggregator.outputs {} messages).filterMap (Call.on kind)
        = (List.range n).map (Delivery.mk t.data))
      ∧ ∀ other ≠ kind, (aggregator.outputs {} messages).filterMap (Call.on other) = [] := by
  constructor
  · have drawn : t.Drawn (messages.filterMap (Message.on kind)) := by
      intro own member
      obtain ⟨msg, member, concerned⟩ := List.mem_filterMap.mp member
      obtain ⟨own', member', rfl⟩ := drawn msg member
      obtain rfl : own' = own := by simpa using concerned
      exact member'
    exact ⟨_, (outputs_on kind messages).trans (Channel.outputs_drawn drawn).2⟩
  · intro other different
    have none : messages.filterMap (Message.on other) = [] := by
      refine List.filterMap_eq_nil_iff.mpr fun msg member => ?_
      obtain ⟨own, -, rfl⟩ := drawn msg member
      exact Message.on_of_ne different own
    rw [outputs_on, none]
    rfl

/-- A spectrum whose header and second packet come twice, and whose first packet comes after
the second.
-/
theorem calls_exact_repeated
    : let t : Transmission UInt16 := ⟨3, [[1, 2], [3, 4]]⟩
      let messages : List Message :=
        [.intensityHeader t.header, .intensityEncapsulatedData ⟨1, [3, 4]⟩,
          .intensityHeader t.header, .intensityEncapsulatedData ⟨0, [1, 2]⟩,
          .intensityEncapsulatedData ⟨1, [3, 4]⟩]
      (∃ n, (aggregator.outputs {} messages).filterMap (Call.on .spectrum)
          = (List.range n).map (Delivery.mk t.data))
        ∧ ∀ other ≠ Kind.spectrum,
            (aggregator.outputs {} messages).filterMap (Call.on other) = [] := by
  refine calls_exact .spectrum ⟨3, [[1, 2], [3, 4]]⟩ _ ?_
  simp [Transmission.messages, packets, Message.of]

end Granum.Ground
