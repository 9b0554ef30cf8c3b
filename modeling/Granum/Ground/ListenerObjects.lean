import Granum.Ground.SpectrumAggregator
import Granum.Library.ListHeap

/-! The reassembler as Python objects. `WHOLE_DATA` is a reference to a list, found in the
class until it is assigned in the instance, and `+=` extends that list in place; no list is
ever reached by both channels, so that each runs on values of its own.
-/

namespace Granum.Ground

/-- An item of the data of a channel, as an integer. -/
def Kind.toNat : (kind : Kind) → kind.Elem → ℕ
  | .picture => UInt8.toNat
  | .spectrum => UInt16.toNat

def ChannelMessage.map {α β : Type} (f : α → β) : ChannelMessage α → ChannelMessage β
  | .header announced => .header announced
  | .data packet => .data ⟨packet.seqnr, packet.data.map f⟩

/-- The message of a channel that a message is, with its data as integers. -/
def Message.ints (kind : Kind) (msg : Message) : Option (ChannelMessage ℕ) :=
  (msg.on kind).map (ChannelMessage.map kind.toNat)

/-- The attributes of a listener that its data are collected in; `wholeData` is the attribute
of the instance, if it has been assigned.
-/
structure Buffer where
  dataPacketsCount : ℕ := 0
  totalSize : ℕ := 0
  wholeData : Option ℕ := none
  state : ListenerState := .idle
  deriving DecidableEq, Repr

namespace Buffer

variable (classData : ℕ) (b : Buffer) (heap : ListHeap ℕ)

/-- The list that `self.WHOLE_DATA` finds, in the instance or else in the class. -/
def ref : ℕ := b.wholeData.getD classData

/-- The assignments on a header. -/
def opened (header : Header) : ListHeap ℕ × Buffer :=
  let (heap, fresh) := heap.alloc []
  (heap,
    { wholeData := some fresh
      dataPacketsCount := header.packets
      totalSize := header.size
      state := .accum })

/-- `self.WHOLE_DATA += data`. -/
def extended (data : List ℕ) : ListHeap ℕ × Buffer :=
  (heap.extend (b.ref classData) data, { b with wholeData := some (b.ref classData) })

/-- `self.WHOLE_DATA = self.WHOLE_DATA[:self.TOTAL_SIZE]`. -/
def cut : ListHeap ℕ × Buffer :=
  let (heap, slice) := heap.alloc ((heap.read (b.ref classData)).take b.totalSize)
  (heap, { b with wholeData := some slice })

end Buffer

/-- A `PictureListener` or a `SpectrumListener` of the live reassembler. -/
structure ListenerObject extends Buffer where
  numberOfWholePackages : ℕ := 0
  deriving DecidableEq, Repr

/-- `accept_data`, with the calls of the acceptor that it makes. -/
def ListenerObject.acceptData (classData : ℕ) (l : ListenerObject) (heap : ListHeap ℕ)
    (data : List ℕ) (seqnr : ℕ) : ListHeap ℕ × ListenerObject × List (Delivery ℕ) :=
  let (heap, b) := l.toBuffer.extended classData heap data
  if (seqnr : ℤ) = b.dataPacketsCount - 1 then
    let (heap, b) := b.cut classData heap
    let number := l.numberOfWholePackages + 1
    (heap, { b with state := .idle, numberOfWholePackages := number },
      [⟨heap.read (b.ref classData), number - 1⟩])
  else (heap, { b with numberOfWholePackages := l.numberOfWholePackages }, [])

/-- A listener and the index that the aggregator waits for. -/
structure ChannelObject where
  listener : ListenerObject := {}
  indexWeWaitFor : ℕ := 0
  deriving DecidableEq, Repr

/-- The part of `accept_message` for one channel, on a message of that channel. -/
def ChannelObject.accept (classData : ℕ) (c : ChannelObject) (heap : ListHeap ℕ)
    (msg : ChannelMessage ℕ) : ListHeap ℕ × ChannelObject × List (Delivery ℕ) :=
  match c.listener.state, msg with
  | .idle, .header header =>
      let (heap, b) := Buffer.opened heap header
      (heap, { listener := { c.listener with toBuffer := b }, indexWeWaitFor := 0 }, [])
  | .accum, .data packet =>
      if packet.seqnr < c.indexWeWaitFor then (heap, c, [])
      else if c.indexWeWaitFor < packet.seqnr then
        (heap, { c with listener := { c.listener with state := .idle } }, [])
      else
        let (heap, listener, deliveries) :=
          c.listener.acceptData classData heap packet.data packet.seqnr
        (heap, { listener, indexWeWaitFor := c.indexWeWaitFor + 1 }, deliveries)
  | .idle, .data _ | .accum, .header _ => (heap, c, [])

/-- The list that is the attribute of a class. -/
def Kind.classData : Kind → ℕ
  | .picture => 0
  | .spectrum => 1

/-- The aggregator with its listeners, and all lists; two of them belong to the classes. -/
structure AggregatorObject where
  heap : ListHeap ℕ := ⟨[[], []]⟩
  channel : Kind → ChannelObject := fun _ => {}

namespace AggregatorObject

/-- One half of `accept_message`, which passes over the messages of other types. -/
def acceptOn (kind : Kind) (a : AggregatorObject) (msg : Message)
    : AggregatorObject × List (Kind × Delivery ℕ) :=
  match msg.ints kind with
  | none => (a, [])
  | some own =>
      let (heap, c, deliveries) := (a.channel kind).accept kind.classData a.heap own
      ({ heap, channel := Function.update a.channel kind c }, deliveries.map (kind, ·))

/-- `accept_message`: the picture channel first, then the spectrum channel. -/
def acceptMessage (a : AggregatorObject) (msg : Message)
    : AggregatorObject × List (Kind × Delivery ℕ) :=
  let (a, pictures) := a.acceptOn .picture msg
  let (a, spectra) := a.acceptOn .spectrum msg
  (a, pictures ++ spectra)

end AggregatorObject

/-- The aggregator as objects, run over messages. -/
def aggregatorObject : Mealy AggregatorObject Message (Kind × Delivery ℕ) :=
  ⟨AggregatorObject.acceptMessage⟩

/-- The call of a channel's acceptor that a call is, if it is one. -/
def callOn (kind : Kind) (call : Kind × Delivery ℕ) : Option (Delivery ℕ) :=
  if call.1 = kind then some call.2 else none

-----------------------------------------------------------------------------------------
-- A listener holds a list of its own
-----------------------------------------------------------------------------------------

namespace Buffer

/-- The list that a listener finds exists, and holds some items. -/
structure Holds (classData : ℕ) (heap : ListHeap ℕ) (b : Buffer) (items : List ℕ) : Prop where
  old : b.ref classData < heap.size
  read : heap.read (b.ref classData) = items

/-- A listener has changed no list but the one it found, and finds this or a new one. -/
structure Moves (classData : ℕ) (heap : ListHeap ℕ) (b : Buffer) (heap' : ListHeap ℕ) (b' : Buffer)
    : Prop where
  changed : ListHeap.ChangedAt (b.ref classData) heap heap'
  ref : b'.ref classData = b.ref classData ∨ heap.size ≤ b'.ref classData

variable {classData : ℕ} {heap heap' heap'' : ListHeap ℕ} {b b' b'' : Buffer} {items : List ℕ}

theorem Moves.refl : Moves classData heap b heap b := ⟨.refl, .inl rfl⟩

theorem Moves.trans (first : Moves classData heap b heap' b')
    (second : Moves classData heap' b' heap'' b'') : Moves classData heap b heap'' b'' := by
  refine ⟨first.changed.trans second.changed first.ref, ?_⟩
  rcases second.ref with same | fresh
  · rw [same]
    exact first.ref
  · exact .inr (first.changed.grown.trans fresh)

/-- A listener that holds another list is not affected, and still holds another list. -/
theorem Moves.frame (moves : Moves classData heap b heap' b') {otherData : ℕ} {other : Buffer}
    (holds : Holds otherData heap other items) (apart : other.ref otherData ≠ b.ref classData)
    : Holds otherData heap' other items ∧ other.ref otherData ≠ b'.ref classData := by
  refine ⟨⟨holds.old.trans_le moves.changed.grown, ?_⟩, ?_⟩
  · rw [moves.changed.others _ holds.old apart, holds.read]
  · rcases moves.ref with same | fresh
    · rwa [same]
    · exact (holds.old.trans_le fresh).ne

theorem opened_spec (header : Header) (b : Buffer)
    : Holds classData (Buffer.opened heap header).1 (Buffer.opened heap header).2 []
      ∧ Moves classData heap b (Buffer.opened heap header).1 (Buffer.opened heap header).2 := by
  refine ⟨⟨?_, ?_⟩, ListHeap.changedAt_alloc [], .inr ?_⟩
  · simp [opened, ref]
  · exact heap.read_alloc_new []
  · simp [opened, ref]

theorem Holds.extended (holds : Holds classData heap b items) (data : List ℕ)
    : Holds classData (b.extended classData heap data).1 (b.extended classData heap data).2
        (items ++ data)
      ∧ Moves classData heap b (b.extended classData heap data).1
        (b.extended classData heap data).2 := by
  refine ⟨⟨?_, ?_⟩, ListHeap.changedAt_extend data, .inl rfl⟩
  · simpa [Buffer.extended, ref] using holds.old
  · exact (heap.read_extend_same holds.old data).trans (congrArg (· ++ data) holds.read)

theorem Holds.cut (holds : Holds classData heap b items)
    : Holds classData (b.cut classData heap).1 (b.cut classData heap).2 (items.take b.totalSize)
      ∧ Moves classData heap b (b.cut classData heap).1 (b.cut classData heap).2 := by
  refine ⟨⟨?_, ?_⟩, ListHeap.changedAt_alloc _, .inr ?_⟩
  · simp [Buffer.cut, ref]
  · rw [← holds.read]
    exact heap.read_alloc_new _
  · simp [Buffer.cut, ref]

end Buffer

-----------------------------------------------------------------------------------------
-- A channel of objects is a channel of values
-----------------------------------------------------------------------------------------

/-- A channel of objects stands for one of values: its attributes are equal, and its list
holds the data.
-/
structure ChannelObject.Represents (classData : ℕ) (heap : ListHeap ℕ) (c : ChannelObject)
    (v : Channel ℕ) : Prop where
  holds : Buffer.Holds classData heap c.listener.toBuffer v.listener.wholeData
  dataPacketsCount : c.listener.dataPacketsCount = v.listener.dataPacketsCount
  totalSize : c.listener.totalSize = v.listener.totalSize
  numberOfWholePackages : c.listener.numberOfWholePackages = v.listener.numberOfWholePackages
  state : c.listener.state = v.listener.state
  indexWeWaitFor : c.indexWeWaitFor = v.indexWeWaitFor

/-- What a step of a channel of objects amounts to, if it stands for a channel of values. -/
structure ChannelObject.Simulates (classData : ℕ) (heap : ListHeap ℕ) (c : ChannelObject)
    (next : ListHeap ℕ × ChannelObject × List (Delivery ℕ))
    (answer : Channel ℕ × List (Delivery ℕ)) : Prop where
  represents : next.2.1.Represents classData next.1 answer.1
  deliveries : next.2.2 = answer.2
  moves : Buffer.Moves classData heap c.listener.toBuffer next.1 next.2.1.listener.toBuffer

section

variable {classData : ℕ} {heap : ListHeap ℕ} {c : ChannelObject} {v : Channel ℕ}

theorem ChannelObject.Represents.ignored (represents : c.Represents classData heap v)
    : c.Simulates classData heap (heap, c, []) (v, []) := ⟨represents, rfl, .refl⟩

/-- The awaited packet extends the list of the listener, and the last one cuts it. -/
theorem ChannelObject.Represents.acceptData (represents : c.Represents classData heap v)
    {packet : Packet ℕ} (accum : v.listener.state = .accum)
    (awaited : packet.seqnr = v.indexWeWaitFor)
    : c.Simulates classData heap
        (let (heap, listener, deliveries) :=
          c.listener.acceptData classData heap packet.data packet.seqnr
        (heap, { listener, indexWeWaitFor := c.indexWeWaitFor + 1 }, deliveries))
        (v.accept (.data packet)) := by
  obtain ⟨holds, count, size, number, state, index⟩ := represents
  obtain ⟨longer, extended⟩ := holds.extended packet.data
  by_cases last : packet.seqnr + 1 = v.listener.dataPacketsCount
  · have isLast : (packet.seqnr : ℤ) = c.listener.dataPacketsCount - 1 := by omega
    have sizes : (c.listener.extended classData heap packet.data).2.totalSize
        = v.listener.totalSize := size
    obtain ⟨sliced, cut⟩ := longer.cut
    rw [sizes] at sliced
    obtain ⟨changed, found⟩ := extended.trans cut
    rw [Channel.accept_data_complete accum awaited last]
    simp only [ListenerObject.acceptData, Buffer.extended, isLast, if_true]
    refine ⟨⟨?_, count, size, congrArg (· + 1) number, rfl, congrArg (· + 1) index⟩, ?_,
      changed, found⟩
    · exact ⟨sliced.old, sliced.read⟩
    · rw [Channel.delivery, ← number]
      exact congrArg (fun data => [Delivery.mk data _]) sliced.read
  · have notLast : ¬(packet.seqnr : ℤ) = c.listener.dataPacketsCount - 1 := by omega
    rw [Channel.accept_data_extend accum awaited last]
    simp only [ListenerObject.acceptData, Buffer.extended, notLast, if_false]
    exact ⟨⟨longer, count, size, number, state, congrArg (· + 1) index⟩, rfl, extended⟩

/-- Every step of a channel of objects is one of the channel of values, by cases on the state,
the message and its number.
-/
theorem ChannelObject.Represents.accept (represents : c.Represents classData heap v)
    (msg : ChannelMessage ℕ)
    : c.Simulates classData heap (c.accept classData heap msg) (v.accept msg) := by
  have index := represents.indexWeWaitFor
  cases state : v.listener.state with
  | idle =>
      have idle : c.listener.state = .idle := represents.state.trans state
      cases msg with
      | header header =>
          obtain ⟨opened, moves⟩ := Buffer.opened_spec header c.listener.toBuffer
          rw [Channel.accept_header_idle state]
          simp only [ChannelObject.accept, idle]
          exact ⟨⟨opened, rfl, rfl, represents.numberOfWholePackages, rfl, rfl⟩, rfl, moves⟩
      | data packet =>
          rw [Channel.accept_data_idle state]
          simp only [ChannelObject.accept, idle]
          exact represents.ignored
  | accum =>
      have accum : c.listener.state = .accum := represents.state.trans state
      cases msg with
      | header header =>
          rw [Channel.accept_header_accum state]
          simp only [ChannelObject.accept, accum]
          exact represents.ignored
      | data packet =>
          simp only [ChannelObject.accept, accum, index]
          rcases lt_trichotomy packet.seqnr v.indexWeWaitFor with early | awaited | late
          · rw [Channel.accept_data_early state early, if_pos early]
            exact represents.ignored
          · rw [if_neg awaited.not_lt, if_neg awaited.not_gt, ← index]
            exact represents.acceptData state awaited
          · rw [if_neg late.not_gt, if_pos late]
            simp only [Channel.accept, state, late.not_gt, late, if_true, if_false]
            obtain ⟨holds, count, size, number, -, -⟩ := represents
            exact ⟨⟨⟨holds.old, holds.read⟩, count, size, number, rfl, rfl⟩, rfl, .refl, .inl rfl⟩

end

-----------------------------------------------------------------------------------------
-- The two channels share no list
-----------------------------------------------------------------------------------------

/-- The channels stand for channels of values, and find different lists. -/
structure AggregatorObject.Represents (a : AggregatorObject) (v : Kind → Channel ℕ) : Prop where
  channel : ∀ kind, (a.channel kind).Represents kind.classData a.heap (v kind)
  apart : ∀ kind other : Kind, kind ≠ other
    → (a.channel kind).listener.ref kind.classData ≠ (a.channel other).listener.ref other.classData

namespace AggregatorObject.Represents

variable {a : AggregatorObject} {v : Kind → Channel ℕ}

/-- The lists of the two classes are different, and empty. -/
theorem start : AggregatorObject.Represents {} fun _ => {} where
  channel kind := by
    refine ⟨⟨?_, ?_⟩, rfl, rfl, rfl, rfl, rfl⟩
    · cases kind <;> decide
    · cases kind <;> rfl
  apart kind other := by cases kind <;> cases other <;> decide

/-- A message of one channel leaves the list of the other channel as it was. -/
theorem acceptOn (represents : a.Represents v) {kind : Kind} {msg : Message}
    {own : ChannelMessage ℕ} (concerned : msg.ints kind = some own)
    : (a.acceptOn kind msg).1.Represents (Function.update v kind ((v kind).accept own).1)
      ∧ (a.acceptOn kind msg).2 = ((v kind).accept own).2.map (kind, ·) := by
  obtain ⟨next, deliveries, moves⟩ := (represents.channel kind).accept own
  have frame : ∀ other, other ≠ kind → _ := fun other different =>
    moves.frame (represents.channel other).holds (represents.apart other kind different)
  simp only [AggregatorObject.acceptOn, concerned]
  refine ⟨⟨fun other => ?_, fun first second different => ?_⟩, by rw [deliveries]⟩
  · by_cases same : other = kind
    · subst same
      simpa using next
    · obtain ⟨-, count, size, number, state, index⟩ := represents.channel other
      simp only [Function.update_of_ne same]
      exact ⟨(frame other same).1, count, size, number, state, index⟩
  · by_cases same : first = kind
    · subst same
      simp only [Function.update_self, Function.update_of_ne different.symm]
      exact (frame second different.symm).2.symm
    · by_cases same' : second = kind
      · subst same'
        simp only [Function.update_self, Function.update_of_ne same]
        exact (frame first same).2
      · simp only [Function.update_of_ne same, Function.update_of_ne same']
        exact represents.apart first second different

theorem acceptOn_none {kind : Kind} {msg : Message} (unconcerned : msg.ints kind = none)
    : a.acceptOn kind msg = (a, []) := by
  simp only [AggregatorObject.acceptOn, unconcerned]

end AggregatorObject.Represents

/-- A message is one of a single channel, or of none. -/
theorem Message.ints_cases (msg : Message)
    : (∃ kind own, msg.ints kind = some own ∧ ∀ other, other ≠ kind → msg.ints other = none)
      ∨ ∀ kind, msg.ints kind = none := by
  cases msg with
  | pictureHeader header =>
      exact .inl ⟨.picture, _, rfl, fun other different => by cases other <;> trivial⟩
  | encapsulatedData packet =>
      exact .inl ⟨.picture, _, rfl, fun other different => by cases other <;> trivial⟩
  | intensityHeader header =>
      exact .inl ⟨.spectrum, _, rfl, fun other different => by cases other <;> trivial⟩
  | intensityEncapsulatedData packet =>
      exact .inl ⟨.spectrum, _, rfl, fun other different => by cases other <;> trivial⟩
  | other => exact .inr fun kind => by cases kind <;> rfl

namespace AggregatorObject.Represents

variable {a : AggregatorObject} {v : Kind → Channel ℕ}

/-- The half of `accept_message` for the other channel does nothing. -/
theorem acceptMessage_eq {kind : Kind} {msg : Message}
    (others : ∀ other, other ≠ kind → msg.ints other = none)
    : a.acceptMessage msg = a.acceptOn kind msg := by
  cases kind with
  | picture =>
      have silent := others .spectrum (by decide)
      simp only [AggregatorObject.acceptMessage, acceptOn_none silent, List.append_nil]
  | spectrum =>
      have silent := others .picture (by decide)
      simp only [AggregatorObject.acceptMessage, acceptOn_none silent, List.nil_append]

/-- What the acceptors are called with is what the channels of values deliver on their own
messages, by induction on the messages.
-/
theorem outputs (represents : a.Represents v) (messages : List Message) (kind : Kind)
    : (aggregatorObject.outputs a messages).filterMap (callOn kind)
      = (Granum.Ground.channel ℕ).outputs (v kind) (messages.filterMap (Message.ints kind)) := by
  induction messages generalizing a v with
  | nil => rfl
  | cons msg rest ih =>
      rw [Mealy.outputs, List.filterMap_append]
      rcases msg.ints_cases with ⟨on, own, concerned, others⟩ | none
      · have step : aggregatorObject.step a msg = a.acceptOn on msg := acceptMessage_eq others
        obtain ⟨next, calls⟩ := represents.acceptOn concerned
        rw [step, calls, ih next]
        by_cases same : kind = on
        · subst same
          rw [List.filterMap_cons_some concerned, Mealy.outputs]
          simp [callOn, List.filterMap_map, Function.comp_def, Granum.Ground.channel]
        · rw [List.filterMap_cons_none (others kind same), Function.update_of_ne same]
          simp [callOn, List.filterMap_map, Function.comp_def, Ne.symm same]
      · have step : aggregatorObject.step a msg = (a, []) := by
          rw [← acceptOn_none (none .picture)]
          exact acceptMessage_eq fun other _ => none other
        rw [step, ih represents, List.filterMap_cons_none (none kind)]
        rfl

end AggregatorObject.Represents

/-- The calls of an acceptor, made by the objects. -/
def acceptorCalls (kind : Kind) (messages : List Message) : List (Delivery ℕ) :=
  (aggregatorObject.outputs {} messages).filterMap (callOn kind)

theorem acceptorCalls_eq (kind : Kind) (messages : List Message)
    : acceptorCalls kind messages
      = (channel ℕ).outputs {} (messages.filterMap (Message.ints kind)) :=
  AggregatorObject.Represents.start.outputs messages kind

/-- What the acceptor of a channel is called with does not depend on the messages of the other
channel, or on where they stand among its own.
-/
theorem channels_independent (messages : List Message) (kind : Kind)
    : acceptorCalls kind messages
      = acceptorCalls kind (messages.filter fun msg => (msg.on kind).isSome) := by
  have own : (messages.filter fun msg => (msg.on kind).isSome).filterMap (Message.ints kind)
      = messages.filterMap (Message.ints kind) := by
    rw [List.filterMap_filter]
    refine List.filterMap_congr fun msg _ => ?_
    cases concerned : msg.on kind <;> simp [Message.ints, concerned]
  rw [acceptorCalls_eq, acceptorCalls_eq, own]

-----------------------------------------------------------------------------------------
-- The reassembler of values
-----------------------------------------------------------------------------------------

def Delivery.map {α β : Type} (f : α → β) (d : Delivery α) : Delivery β :=
  ⟨d.data.map f, d.identifier⟩

def Channel.map {α β : Type} (f : α → β) (c : Channel α) : Channel β where
  listener := { c.listener with wholeData := c.listener.wholeData.map f }
  indexWeWaitFor := c.indexWeWaitFor

/-- A channel does not look at the items of its data. -/
theorem Channel.accept_map {α β : Type} (f : α → β) (c : Channel α) (msg : ChannelMessage α)
    : (c.map f).accept (msg.map f)
      = ((c.accept msg).1.map f, (c.accept msg).2.map (Delivery.map f)) := by
  cases state : c.listener.state with
  | idle => cases msg <;> simp [accept, map, ChannelMessage.map, state]
  | accum =>
      cases msg with
      | header header => simp [accept, map, ChannelMessage.map, state]
      | data packet =>
          simp only [accept, map, ChannelMessage.map, state, Listener.acceptData]
          split_ifs <;> simp [Delivery.map, state]

/-- The items of a channel of values, as integers. -/
def intsProjection (kind : Kind) : Mealy.Projection (channel kind.Elem) (channel ℕ) where
  state := Channel.map kind.toNat
  input := some ∘ ChannelMessage.map kind.toNat
  output := some ∘ Delivery.map kind.toNat
  of_some := by
    rintro c msg _ ⟨⟩
    refine (c.accept_map kind.toNat msg).trans ?_
    rw [List.filterMap_eq_map]
    rfl
  of_none := by
    intro c msg impossible
    cases impossible

/-- The objects make the calls of the reassembler of values. -/
theorem acceptorCalls_refine (kind : Kind) (messages : List Message)
    : acceptorCalls kind messages
      = ((aggregator.outputs {} messages).filterMap (Call.on kind)).map
          (Delivery.map kind.toNat) := by
  have ints := ((intsProjection kind).run {} (messages.filterMap (Message.on kind))).2
  rw [outputs_on, ← List.filterMap_eq_map, acceptorCalls_eq]
  refine Eq.trans ?_ ints
  rw [List.filterMap_filterMap]
  congr 2
  funext msg
  cases concerned : msg.on kind <;> simp [Message.ints, concerned, intsProjection]

end Granum.Ground
