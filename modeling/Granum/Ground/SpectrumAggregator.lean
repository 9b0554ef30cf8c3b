import Granum.Ground.Messages
import Granum.Library.Mealy

/-! The reassembler of the ground station, `SpectrumAggregator`, with its two listeners.
Both channels run the same code on variables of their own, so it is one definition here.
-/

namespace Granum.Ground

/-- The value of a listener's `state`. -/
inductive ListenerState
  | idle
  | accum
  deriving DecidableEq, Repr

/-- One call of an acceptor: `accept(data, identifier)`. -/
structure Delivery (α : Type) where
  data : List α
  identifier : ℕ
  deriving DecidableEq, Repr

/-- The attributes of a `PictureListener` or a `SpectrumListener`. -/
structure Listener (α : Type) where
  dataPacketsCount : ℕ := 0
  totalSize : ℕ := 0
  wholeData : List α := []
  numberOfWholePackages : ℕ := 0
  state : ListenerState := .idle
  deriving DecidableEq, Repr

/-- `accept_data`, with the calls of the acceptor that it makes. -/
def Listener.acceptData {α : Type} (l : Listener α) (data : List α) (seqnr : ℕ)
    : Listener α × List (Delivery α) :=
  let l := { l with wholeData := l.wholeData ++ data }
  if (seqnr : ℤ) = l.dataPacketsCount - 1 then
    let l := { l with
      wholeData := l.wholeData.take l.totalSize
      numberOfWholePackages := l.numberOfWholePackages + 1 }
    ({ l with state := .idle }, [⟨l.wholeData, l.numberOfWholePackages - 1⟩])
  else (l, [])

/-- One channel of the aggregator: a listener and the index that it waits for. -/
structure Channel (α : Type) where
  listener : Listener α := {}
  indexWeWaitFor : ℕ := 0
  deriving DecidableEq, Repr

/-- The part of `accept_message` for one channel, on a message of that channel. -/
def Channel.accept {α : Type} (c : Channel α) (msg : ChannelMessage α)
    : Channel α × List (Delivery α) :=
  match c.listener.state, msg with
  | .idle, .header header =>
      ({ listener := { c.listener with
          wholeData := []
          dataPacketsCount := header.packets
          totalSize := header.size
          state := .accum }
         indexWeWaitFor := 0 }, [])
  | .accum, .data packet =>
      if packet.seqnr < c.indexWeWaitFor then (c, [])
      else if c.indexWeWaitFor < packet.seqnr then
        ({ c with listener := { c.listener with state := .idle } }, [])
      else
        let (listener, deliveries) := c.listener.acceptData packet.data packet.seqnr
        ({ listener, indexWeWaitFor := c.indexWeWaitFor + 1 }, deliveries)
  | .idle, .data _ | .accum, .header _ => (c, [])

-----------------------------------------------------------------------------------------
-- What one message does to a channel
-----------------------------------------------------------------------------------------

namespace Channel

variable {α : Type} {c : Channel α}

/-- A header makes an idle channel accumulate from an empty list. -/
def opened (c : Channel α) (header : Header) : Channel α where
  listener := { c.listener with
    wholeData := []
    dataPacketsCount := header.packets
    totalSize := header.size
    state := .accum }
  indexWeWaitFor := 0

/-- The payload of the awaited packet is appended. -/
def extended (c : Channel α) (data : List α) : Channel α where
  listener := { c.listener with wholeData := c.listener.wholeData ++ data }
  indexWeWaitFor := c.indexWeWaitFor + 1

/-- The acceptor's call for the last awaited packet. -/
def delivery (c : Channel α) (data : List α) : Delivery α where
  data := (c.listener.wholeData ++ data).take c.listener.totalSize
  identifier := c.listener.numberOfWholePackages

/-- The channel after the last awaited packet. -/
def completed (c : Channel α) (data : List α) : Channel α where
  listener := { c.listener with
    wholeData := (c.delivery data).data
    numberOfWholePackages := c.listener.numberOfWholePackages + 1
    state := .idle }
  indexWeWaitFor := c.indexWeWaitFor + 1

theorem accept_header_idle (idle : c.listener.state = .idle) (header : Header)
    : c.accept (.header header) = (c.opened header, []) := by
  simp only [accept, idle]
  rfl

theorem accept_header_accum (accum : c.listener.state = .accum) (header : Header)
    : c.accept (.header header) = (c, []) := by
  simp [accept, accum]

theorem accept_data_idle (idle : c.listener.state = .idle) (packet : Packet α)
    : c.accept (.data packet) = (c, []) := by
  simp [accept, idle]

theorem accept_data_early (accum : c.listener.state = .accum) {packet : Packet α}
    (early : packet.seqnr < c.indexWeWaitFor)
    : c.accept (.data packet) = (c, []) := by
  simp [accept, accum, early]

theorem accept_data_extend (accum : c.listener.state = .accum) {packet : Packet α}
    (awaited : packet.seqnr = c.indexWeWaitFor)
    (more : packet.seqnr + 1 ≠ c.listener.dataPacketsCount)
    : c.accept (.data packet) = (c.extended packet.data, []) := by
  have notLast : ¬ (packet.seqnr : ℤ) = c.listener.dataPacketsCount - 1 := by omega
  rw [awaited] at notLast
  simp [accept, accum, awaited, Listener.acceptData, notLast, extended]

theorem accept_data_complete (accum : c.listener.state = .accum) {packet : Packet α}
    (awaited : packet.seqnr = c.indexWeWaitFor)
    (last : packet.seqnr + 1 = c.listener.dataPacketsCount)
    : c.accept (.data packet) = (c.completed packet.data, [c.delivery packet.data]) := by
  have isLast : (packet.seqnr : ℤ) = c.listener.dataPacketsCount - 1 := by omega
  rw [awaited] at isLast
  simp [accept, accum, awaited, Listener.acceptData, isLast, completed, delivery]

/-- Everything that a channel can do with a message. -/
inductive Reaction (c : Channel α) : ChannelMessage α → Channel α × List (Delivery α) → Prop
  | ignored (msg : ChannelMessage α)
      (kept : c.listener.state = .idle → ∃ packet, msg = .data packet)
      : Reaction c msg (c, [])
  | opened (header : Header) (idle : c.listener.state = .idle)
      : Reaction c (.header header) (c.opened header, [])
  | dropped (packet : Packet α) (accum : c.listener.state = .accum)
      : Reaction c (.data packet)
          ({ c with listener := { c.listener with state := .idle } }, [])
  | extended (packet : Packet α) (accum : c.listener.state = .accum)
      (awaited : packet.seqnr = c.indexWeWaitFor)
      (more : packet.seqnr + 1 ≠ c.listener.dataPacketsCount)
      : Reaction c (.data packet) (c.extended packet.data, [])
  | completed (packet : Packet α) (accum : c.listener.state = .accum)
      (awaited : packet.seqnr = c.indexWeWaitFor)
      (last : packet.seqnr + 1 = c.listener.dataPacketsCount)
      : Reaction c (.data packet) (c.completed packet.data, [c.delivery packet.data])

/-- The reactions are complete, by cases on the state, the message and the sequence number. -/
theorem accept_reaction (c : Channel α) (msg : ChannelMessage α)
    : Reaction c msg (c.accept msg) := by
  cases state : c.listener.state with
  | idle =>
      cases msg with
      | header header =>
          rw [accept_header_idle state]
          exact .opened header state
      | data packet =>
          rw [accept_data_idle state]
          exact .ignored _ (fun _ => ⟨packet, rfl⟩)
  | accum =>
      have busy : c.listener.state ≠ .idle := by simp [state]
      cases msg with
      | header header =>
          rw [accept_header_accum state]
          exact .ignored _ (fun idle => absurd idle busy)
      | data packet =>
          rcases lt_trichotomy packet.seqnr c.indexWeWaitFor with early | awaited | late
          · rw [accept_data_early state early]
            exact .ignored _ (fun idle => absurd idle busy)
          · by_cases last : packet.seqnr + 1 = c.listener.dataPacketsCount
            · rw [accept_data_complete state awaited last]
              exact .completed packet state awaited last
            · rw [accept_data_extend state awaited last]
              exact .extended packet state awaited last
          · simp only [accept, state, late.not_gt, late, if_true, if_false]
            exact .dropped packet state

/-- The packet of a message is the last one that an accumulating channel waits for. -/
def Completes (c : Channel α) (msg : ChannelMessage α) : Prop :=
  c.listener.state = .accum ∧ msg.seqnr? = some c.indexWeWaitFor
    ∧ c.indexWeWaitFor + 1 = c.listener.dataPacketsCount

instance (c : Channel α) (msg : ChannelMessage α) : Decidable (c.Completes msg) :=
  instDecidableAnd

/-- A message delivers at most once, under the number of packages so far, and then counts
one more.
-/
theorem accept_numbers (c : Channel α) (msg : ChannelMessage α)
    : ((c.accept msg).2 = []
        ∧ (c.accept msg).1.listener.numberOfWholePackages = c.listener.numberOfWholePackages)
      ∨ (c.Completes msg
        ∧ ∃ data, (c.accept msg).2 = [⟨data, c.listener.numberOfWholePackages⟩]
          ∧ (c.accept msg).1.listener.numberOfWholePackages
            = c.listener.numberOfWholePackages + 1) := by
  have reaction := c.accept_reaction msg
  generalize c.accept msg = answer at reaction
  cases reaction with
  | ignored _ _ | opened _ _ | dropped _ _ | extended _ _ _ _ => exact Or.inl ⟨rfl, rfl⟩
  | completed packet accum awaited last =>
      refine Or.inr ⟨⟨accum, by rw [ChannelMessage.seqnr?, awaited], awaited ▸ last⟩, ?_⟩
      exact ⟨(c.delivery packet.data).data, rfl, rfl⟩

end Channel

-----------------------------------------------------------------------------------------
-- The two channels together
-----------------------------------------------------------------------------------------

/-- The aggregator: `picture` holds the picture listener and index, `spectrum` the others. -/
structure Aggregator where
  picture : Channel UInt8 := {}
  spectrum : Channel UInt16 := {}
  deriving DecidableEq, Repr

/-- A call of one of the two acceptors. -/
inductive Call
  | picture (delivery : Delivery UInt8)
  | spectrum (delivery : Delivery UInt16)
  deriving DecidableEq, Repr

/-- The call of a channel's acceptor that a call is, if it is one. -/
def Call.on : (kind : Kind) → Call → Option (Delivery kind.Elem)
  | .picture, .picture delivery => some delivery
  | .spectrum, .spectrum delivery => some delivery
  | _, _ => none

theorem Call.on_cases (call : Call) (kind : Kind)
    : (∃ delivery, call.on kind = some delivery)
      ∨ ∃ other ≠ kind, ∃ delivery, call.on other = some delivery := by
  cases call with
  | picture delivery =>
      cases kind with
      | picture => exact Or.inl ⟨delivery, rfl⟩
      | spectrum => exact Or.inr ⟨.picture, by decide, delivery, rfl⟩
  | spectrum delivery =>
      cases kind with
      | picture => exact Or.inr ⟨.spectrum, by decide, delivery, rfl⟩
      | spectrum => exact Or.inl ⟨delivery, rfl⟩

/-- `accept_message`: the picture channel first, then the spectrum channel. A channel passes
over the messages of other types in either of its states.
-/
def Aggregator.acceptMessage (a : Aggregator) (msg : Message) : Aggregator × List Call :=
  let (picture, pictures) := (msg.on .picture).elim (a.picture, []) a.picture.accept
  let (spectrum, spectra) := (msg.on .spectrum).elim (a.spectrum, []) a.spectrum.accept
  ({ picture, spectrum }, pictures.map .picture ++ spectra.map .spectrum)

/-- A message reaches one channel, or none. -/
theorem Aggregator.acceptMessage_cases (a : Aggregator) (msg : Message)
    : (∃ own, msg.on .picture = some own ∧ msg.on .spectrum = none
        ∧ (a.acceptMessage msg).2 = (a.picture.accept own).2.map .picture)
      ∨ (∃ own, msg.on .spectrum = some own ∧ msg.on .picture = none
        ∧ (a.acceptMessage msg).2 = (a.spectrum.accept own).2.map .spectrum)
      ∨ (msg.on .picture = none ∧ msg.on .spectrum = none ∧ (a.acceptMessage msg).2 = []) := by
  cases msg with
  | pictureHeader header => exact Or.inl ⟨_, rfl, rfl, by simp [acceptMessage, Message.on]⟩
  | encapsulatedData packet => exact Or.inl ⟨_, rfl, rfl, by simp [acceptMessage, Message.on]⟩
  | intensityHeader header =>
      exact Or.inr (Or.inl ⟨_, rfl, rfl, by simp [acceptMessage, Message.on]⟩)
  | intensityEncapsulatedData packet =>
      exact Or.inr (Or.inl ⟨_, rfl, rfl, by simp [acceptMessage, Message.on]⟩)
  | other => exact Or.inr (Or.inr ⟨rfl, rfl, rfl⟩)

/-- The channel of a kind. -/
def Aggregator.channel : (kind : Kind) → Aggregator → Channel kind.Elem
  | .picture, a => a.picture
  | .spectrum, a => a.spectrum

/-- The aggregator, run over messages. -/
def aggregator : Mealy Aggregator Message Call := ⟨Aggregator.acceptMessage⟩

/-- One channel, run over its own messages. -/
def channel (α : Type) : Mealy (Channel α) (ChannelMessage α) (Delivery α) := ⟨Channel.accept⟩

/-- Each channel of the aggregator runs on its own messages alone. -/
def channelProjection (kind : Kind) : Mealy.Projection aggregator (channel kind.Elem) where
  state := Aggregator.channel kind
  input := Message.on kind
  output := Call.on kind
  of_some := by
    intro a msg msg' concerned
    cases kind <;> cases msg <;> simp_all [Message.on, aggregator, channel,
      Aggregator.acceptMessage, Aggregator.channel, Call.on, Function.comp_def]
  of_none := by
    intro a msg unconcerned
    cases kind <;> cases msg <;> simp_all [Message.on, aggregator, 
      Aggregator.acceptMessage, Aggregator.channel, Call.on, Function.comp_def]

theorem channel_init (kind : Kind) : ({} : Aggregator).channel kind = {} := by
  cases kind <;> rfl

/-- The calls of an acceptor are the deliveries of its channel on its own messages. -/
theorem outputs_on (kind : Kind) (messages : List Message)
    : (aggregator.outputs {} messages).filterMap (Call.on kind)
      = (channel kind.Elem).outputs {} (messages.filterMap (Message.on kind)) := by
  have projected := ((channelProjection kind).run {} messages).2
  rw [← channel_init kind]
  exact projected.symm

/-- The aggregator after a history of messages. -/
def stateAfter (history : List Message) : Aggregator := aggregator.finish {} history

/-- The calls of one acceptor that a message causes after a history. -/
def callsAt (kind : Kind) (history : List Message) (msg : Message)
    : List (Delivery kind.Elem) :=
  ((stateAfter history).acceptMessage msg).2.filterMap (Call.on kind)

/-- A channel after more messages has run on those of them that are its own. -/
theorem channel_stateAfter_append (kind : Kind) (history more : List Message)
    : (stateAfter (history ++ more)).channel kind
      = (channel kind.Elem).finish ((stateAfter history).channel kind)
          (more.filterMap (Message.on kind)) := by
  rw [stateAfter, Mealy.finish_append]
  exact ((channelProjection kind).run _ more).1.symm

theorem callsAt_eq {kind : Kind} {history : List Message} {msg : Message}
    {own : ChannelMessage kind.Elem} (concerned : msg.on kind = some own)
    : callsAt kind history msg = (((stateAfter history).channel kind).accept own).2 :=
  (congrArg Prod.snd ((channelProjection kind).of_some _ msg own concerned)).symm

end Granum.Ground
