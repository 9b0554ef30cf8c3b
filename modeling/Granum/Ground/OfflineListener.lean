import Granum.Ground.ListenerObjects

/-! The reassembler of the offline tools, a copy of the live one. It does not call a spectrum
acceptor: a flag tells that a spectrum is complete, and the aggregator refers to its list.
-/

namespace Granum.Ground

/-- The exceptions of Python that the offline tools can raise. -/
inductive PyException
  | attributeError (name : String)
  | unboundLocalError (name : String)
  | keyError (key : ℤ)
  | indexError
  | typeError
  | valueError
  deriving DecidableEq, Repr

/-- An element of a list. -/
def pyIndex (list : List ℕ) (i : ℕ) : Except PyException ℕ :=
  match list[i]? with
  | some item => .ok item
  | none => .error .indexError

/-- A `SpectrumListener` of the offline reassembler. -/
structure OfflineSpectrumListener extends Buffer where
  dataReady : Bool := false
  deriving DecidableEq, Repr

/-- A `PictureListener` of the offline reassembler. -/
structure OfflinePictureListener extends Buffer where
  numberOfWholePackages : ℕ := 0
  deriving DecidableEq, Repr

/-- `accept_data` of the spectrum listener. -/
def OfflineSpectrumListener.acceptData (classData : ℕ) (l : OfflineSpectrumListener)
    (heap : ListHeap ℕ) (data : List ℕ) (seqnr : ℕ) : ListHeap ℕ × OfflineSpectrumListener :=
  let (heap, b) := l.toBuffer.extended classData heap data
  if (seqnr : ℤ) = b.dataPacketsCount - 1 then
    let (heap, b) := b.cut classData heap
    (heap, { b with state := .idle, dataReady := true })
  else (heap, { b with dataReady := l.dataReady })

/-- `accept_data` of the picture listener. The name of the file is formatted with one number
at a time, for which the format has too many places.
-/
def OfflinePictureListener.acceptData (classData : ℕ) (l : OfflinePictureListener)
    (heap : ListHeap ℕ) (data : List ℕ) (seqnr : ℕ) (config : List ℕ)
    : Except PyException (ListHeap ℕ × OfflinePictureListener) := do
  let (heap, b) := l.toBuffer.extended classData heap data
  if (seqnr : ℤ) = b.dataPacketsCount - 1 then
    let _number ← pyIndex config 0
    let _time ← pyIndex config 1
    let _servo ← pyIndex config 2
    let _yUpleft ← pyIndex config 3
    throw .typeError
  else return (heap, { b with numberOfWholePackages := l.numberOfWholePackages })

/-- The offline aggregator, its listeners and all lists; `wholeData` is the attribute of the
instance, if it has been assigned. Three of the lists belong to the classes.
-/
structure OfflineAggregator where
  heap : ListHeap ℕ := ⟨[[], [], []]⟩
  wholeData : Option ℕ := none
  dataReady : Bool := false
  spectrumListener : OfflineSpectrumListener := {}
  spectrumIndexWeWaitFor : ℕ := 0
  pictureListener : OfflinePictureListener := {}
  pictureIndexWeWaitFor : ℕ := 0
  deriving DecidableEq, Repr

namespace OfflineAggregator

variable (a : OfflineAggregator)

/-- The list that `spectrumAggregator.WHOLE_DATA` finds. -/
def ref : ℕ := a.wholeData.getD 2

/-- The part of `accept_message` for pictures. -/
def acceptPicture (config : List ℕ) (msg : ChannelMessage ℕ)
    : Except PyException OfflineAggregator := do
  match a.pictureListener.state, msg with
  | .idle, .header header =>
      let (heap, b) := Buffer.opened a.heap header
      return { a with
        heap
        pictureListener := { a.pictureListener with toBuffer := b }
        pictureIndexWeWaitFor := 0 }
  | .accum, .data packet =>
      if packet.seqnr < a.pictureIndexWeWaitFor then return a
      else if a.pictureIndexWeWaitFor < packet.seqnr then
        return { a with pictureListener := { a.pictureListener with state := .idle } }
      else
        let (heap, pictureListener) ← a.pictureListener.acceptData Kind.picture.classData a.heap
          packet.data packet.seqnr config
        return { a with
          heap
          pictureListener
          pictureIndexWeWaitFor := a.pictureIndexWeWaitFor + 1 }
  | .idle, .data _ | .accum, .header _ => return a

/-- The part of `accept_message` for spectra. -/
def acceptSpectrum (msg : ChannelMessage ℕ) : OfflineAggregator :=
  match a.spectrumListener.state, msg with
  | .idle, .header header =>
      let (heap, b) := Buffer.opened a.heap header
      { a with
        heap
        spectrumListener := { a.spectrumListener with toBuffer := b }
        spectrumIndexWeWaitFor := 0 }
  | .accum, .data packet =>
      if packet.seqnr < a.spectrumIndexWeWaitFor then a
      else if a.spectrumIndexWeWaitFor < packet.seqnr then
        { a with spectrumListener := { a.spectrumListener with state := .idle } }
      else
        let (heap, spectrumListener) :=
          { a.spectrumListener with dataReady := false }.acceptData Kind.spectrum.classData a.heap
            packet.data packet.seqnr
        let a := { a with heap, spectrumListener }
        let a := if spectrumListener.dataReady then
          { a with dataReady := true, wholeData := some (spectrumListener.ref Kind.spectrum.classData) }
          else a
        { a with spectrumIndexWeWaitFor := a.spectrumIndexWeWaitFor + 1 }
  | .idle, .data _ | .accum, .header _ => a

def acceptMessage (msg : Message) (config : List ℕ) : Except PyException OfflineAggregator := do
  let a ← match msg.ints .picture with
    | none => pure a
    | some own => a.acceptPicture config own
  return match msg.ints .spectrum with
    | none => a
    | some own => a.acceptSpectrum own

/-- The spectrum part as a channel of the live reassembler that has counted `number`
spectra.
-/
def spectrumChannel (number : ℕ) : ChannelObject where
  listener := { a.spectrumListener.toBuffer with numberOfWholePackages := number }
  indexWeWaitFor := a.spectrumIndexWeWaitFor

/-- What a step of the offline copy amounts to, if the live one makes some calls. -/
structure Copies (a : OfflineAggregator) (number : ℕ)
    (next : ListHeap ℕ × ChannelObject × List (Delivery ℕ)) (a' : OfflineAggregator) : Prop where
  heap : a'.heap = next.1
  channel : a'.spectrumChannel next.2.1.listener.numberOfWholePackages = next.2.1
  calls : next.2.2 = [] ∧ next.2.1.listener.numberOfWholePackages = number
      ∧ a'.dataReady = a.dataReady
    ∨ next.2.2 = [⟨a'.heap.read a'.ref, number⟩]
      ∧ next.2.1.listener.numberOfWholePackages = number + 1 ∧ a'.dataReady = true

/-- The offline copy does to its spectrum listener what the live reassembler does, and sets
its flag where that one calls the acceptor.
-/
theorem acceptSpectrum_copies (number : ℕ) (msg : ChannelMessage ℕ)
    : a.Copies number ((a.spectrumChannel number).accept Kind.spectrum.classData a.heap msg)
        (a.acceptSpectrum msg) := by
  cases state : a.spectrumListener.state with
  | idle =>
      cases msg with
      | header header =>
          simp only [acceptSpectrum, ChannelObject.accept, spectrumChannel, state]
          exact ⟨rfl, rfl, .inl ⟨rfl, rfl, rfl⟩⟩
      | data packet =>
          simp only [acceptSpectrum, ChannelObject.accept, spectrumChannel, state]
          exact ⟨rfl, rfl, .inl ⟨rfl, rfl, rfl⟩⟩
  | accum =>
      cases msg with
      | header header =>
          simp only [acceptSpectrum, ChannelObject.accept, spectrumChannel, state]
          exact ⟨rfl, rfl, .inl ⟨rfl, rfl, rfl⟩⟩
      | data packet =>
          simp only [acceptSpectrum, ChannelObject.accept, spectrumChannel, state]
          by_cases early : packet.seqnr < a.spectrumIndexWeWaitFor
          · simp only [early, if_true]
            exact ⟨rfl, rfl, .inl ⟨rfl, rfl, rfl⟩⟩
          · by_cases late : a.spectrumIndexWeWaitFor < packet.seqnr
            · simp only [early, late, if_true, if_false]
              exact ⟨rfl, rfl, .inl ⟨rfl, rfl, rfl⟩⟩
            · simp only [early, late, if_false, OfflineSpectrumListener.acceptData,
                ListenerObject.acceptData]
              by_cases last : (packet.seqnr : ℤ) = (a.spectrumListener.extended
                Kind.spectrum.classData a.heap packet.data).2.dataPacketsCount - 1
              · rw [if_pos last, if_pos last]
                exact ⟨rfl, rfl, .inr ⟨rfl, rfl, rfl⟩⟩
              · rw [if_neg last, if_neg last]
                exact ⟨rfl, rfl, .inl ⟨rfl, rfl, rfl⟩⟩

/-- The spectrum part stands for a channel of values, which has counted the spectra. -/
def Represents (v : Channel ℕ) : Prop :=
  (a.spectrumChannel v.listener.numberOfWholePackages).Represents Kind.spectrum.classData a.heap v

theorem represents_start : Represents {} {} := by
  refine ⟨⟨?_, rfl⟩, rfl, rfl, rfl, rfl, rfl⟩
  decide

variable {a}

/-- Every message of the spectrum channel is taken as by the channel of values, and the flag is
set exactly if that one delivers, for the list that the aggregator then refers to.
-/
theorem Represents.acceptSpectrum {v : Channel ℕ} (represents : a.Represents v)
    (msg : ChannelMessage ℕ)
    : (a.acceptSpectrum msg).Represents (v.accept msg).1
      ∧ ((v.accept msg).2 = []
          ∧ (v.accept msg).1.listener.numberOfWholePackages = v.listener.numberOfWholePackages
          ∧ (a.acceptSpectrum msg).dataReady = a.dataReady
        ∨ (v.accept msg).2 = [⟨(a.acceptSpectrum msg).heap.read (a.acceptSpectrum msg).ref,
            v.listener.numberOfWholePackages⟩]
          ∧ (v.accept msg).1.listener.numberOfWholePackages
            = v.listener.numberOfWholePackages + 1
          ∧ (a.acceptSpectrum msg).dataReady = true) := by
  obtain ⟨heap, channel, calls⟩ :=
    a.acceptSpectrum_copies v.listener.numberOfWholePackages msg
  obtain ⟨next, deliveries, -⟩ := ChannelObject.Represents.accept represents msg
  rw [deliveries, next.numberOfWholePackages] at calls
  refine ⟨?_, calls⟩
  rw [OfflineAggregator.Represents, heap, ← next.numberOfWholePackages, channel]
  exact next

end OfflineAggregator

end Granum.Ground
