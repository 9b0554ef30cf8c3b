import Granum.Ground.LossIntegrity

/-! The identifiers of pictures and spectra. Each acceptor is called with the count of its own
channel, the newest picture replaces the one before, and the page asks for the picture under
the identifier of the latest spectrum.
-/

namespace Granum.Ground

/-- `PictureSaver.accept` over the files of its directory, by identifier; `none` when
`os.remove` raises because the previous file is missing.
-/
def PictureSaver.accept (files : ℕ → Option (List UInt8)) (delivery : Delivery UInt8)
    : Option (ℕ → Option (List UInt8)) :=
  if delivery.identifier ≠ 0 then
    match files (delivery.identifier - 1) with
    | none => none
    | some _ =>
        let files := Function.update files (delivery.identifier - 1) none
        some (Function.update files delivery.identifier (some delivery.data))
  else some (Function.update files delivery.identifier (some delivery.data))

/-- The aggregator with the picture files and the spectrum accepted last. -/
structure Station where
  aggregator : Aggregator := {}
  files : ℕ → Option (List UInt8) := fun _ => none
  latestSpectrum : Option (Delivery UInt16) := none

/-- The acceptors of the station, `PictureSaver` and `SpectrumRedisSaver`. -/
def Station.call (s : Station) : Call → Option Station
  | .picture delivery => (PictureSaver.accept s.files delivery).map ({ s with files := · })
  | .spectrum delivery => some { s with latestSpectrum := some delivery }

/-- One message of the spectrum link in the main loop of `mavlinkapp`. -/
def Station.acceptMessage (s : Station) (msg : Message) : Option Station :=
  let (aggregator, calls) := s.aggregator.acceptMessage msg
  calls.foldlM Station.call { s with aggregator }

/-- The station after a list of messages, unless an acceptor has raised. -/
def Station.run (messages : List Message) : Option Station :=
  messages.foldlM Station.acceptMessage {}

theorem Station.run_concat (messages : List Message) (msg : Message)
    : run (messages ++ [msg]) = (run messages).bind (·.acceptMessage msg) := by
  simp [run, List.foldlM_append]

-----------------------------------------------------------------------------------------
-- Measurements
-----------------------------------------------------------------------------------------

/-- One measurement, sent as a picture and a spectrum. -/
structure Measurement where
  picture : Transmission UInt8
  spectrum : Transmission UInt16

def Measurement.transmission : (kind : Kind) → Measurement → Transmission kind.Elem
  | .picture, m => m.picture
  | .spectrum, m => m.spectrum

/-- If the picture under the identifier of the latest spectrum exists, it is the picture of
the measurement of that spectrum.
-/
def Station.Paired (measurements : List Measurement) (s : Station) : Prop :=
  ∀ latest content, s.latestSpectrum = some latest → s.files latest.identifier = some content
    → ∃ m ∈ measurements, latest.data = m.spectrum.data ∧ content = m.picture.data

/-- A message with the index of the measurement that it was sent for. -/
structure Received where
  measurement : ℕ
  message : Message
  deriving DecidableEq

/-- The message as one of a channel. -/
def Received.on (kind : Kind) (x : Received) : Option (Sent kind.Elem) :=
  (x.message.on kind).map (⟨x.measurement, ·⟩)

/-- The messages of all measurements, each sent as its picture and then its spectrum. -/
def measuredMessages (measurements : List Measurement) : List Received :=
  measurements.zipIdx.flatMap (fun entry =>
    (entry.1.picture.messages.map (Message.of .picture)
      ++ entry.1.spectrum.messages.map (Message.of .spectrum)).map (⟨entry.2, ·⟩))

/-- A message of a measurement is one of the measurement's transmission on its channel. -/
theorem sent_of_measured {measurements : List Measurement} {x : Received}
    (measured : x ∈ measuredMessages measurements) {kind : Kind} {y : Sent kind.Elem}
    (own : y ∈ x.on kind)
    : y ∈ sentMessages (measurements.map (Measurement.transmission kind)) := by
  obtain ⟨⟨m, index⟩, listed, inside⟩ := List.mem_flatMap.mp measured
  obtain ⟨msg, member, rfl⟩ := List.mem_map.mp inside
  obtain ⟨message, concerned, rfl⟩ := Option.map_eq_some_iff.mp own
  have found : measurements[index]? = some m := List.mk_mem_zipIdx_iff_getElem?.mp listed
  refine mem_sentMessages.mpr ⟨m.transmission kind, by simp [found], ?_⟩
  rcases List.mem_append.mp member with picture | spectrum
  · obtain ⟨sent, among, rfl⟩ := List.mem_map.mp picture
    cases kind with
    | picture => exact Option.some.inj ((Message.on_of sent).symm.trans concerned) ▸ among
    | spectrum => cases (Message.on_of_ne (by decide) sent).symm.trans concerned
  · obtain ⟨sent, among, rfl⟩ := List.mem_map.mp spectrum
    cases kind with
    | picture => cases (Message.on_of_ne (by decide) sent).symm.trans concerned
    | spectrum => exact Option.some.inj ((Message.on_of sent).symm.trans concerned) ▸ among

-----------------------------------------------------------------------------------------
-- What the station holds
-----------------------------------------------------------------------------------------

/-- The channel of a kind after the messages, with the measurement it accumulates for. -/
def ownedAt (kind : Kind) (delivered : List Received) : Owned kind.Elem :=
  (owned kind.Elem).finish {} (delivered.filterMap (Received.on kind))

/-- The deliveries of a channel, each with the measurement it belongs to. -/
def deliveriesOf (kind : Kind) (delivered : List Received) : List (ℕ × Delivery kind.Elem) :=
  (owned kind.Elem).outputs {} (delivered.filterMap (Received.on kind))

theorem ownedAt_concat (kind : Kind) (before : List Received) (x : Received)
    : ownedAt kind (before ++ [x])
      = (x.on kind).elim (ownedAt kind before) (fun y => ((ownedAt kind before).accept y).1) := by
  rw [ownedAt, List.filterMap_append, Mealy.finish_append]
  cases own : x.on kind <;> simp [own, ownedAt, owned]

theorem deliveriesOf_concat (kind : Kind) (before : List Received) (x : Received)
    : deliveriesOf kind (before ++ [x])
      = deliveriesOf kind before
        ++ (x.on kind).elim [] (fun y => ((ownedAt kind before).accept y).2) := by
  rw [deliveriesOf, List.filterMap_append, Mealy.outputs_append]
  cases own : x.on kind <;> simp [own, deliveriesOf, ownedAt, owned, Mealy.outputs]

/-- The channels of the aggregator are those with owners, by forgetting the owners. -/
theorem ownedAt_channel (kind : Kind) (delivered : List Received)
    : (ownedAt kind delivered).channel
      = (stateAfter (delivered.map Received.message)).channel kind := by
  have forgotten := ((forgetOwner kind.Elem).run {} (delivered.filterMap (Received.on kind))).1
  have projected := ((channelProjection kind).run {} (delivered.map Received.message)).1
  have messages : (delivered.filterMap (Received.on kind)).filterMap (forgetOwner kind.Elem).input
      = (delivered.map Received.message).filterMap (Message.on kind) := by
    rw [List.filterMap_filterMap, List.filterMap_map]
    congr 1
    funext x
    cases own : x.message.on kind <;> simp [Received.on, own, forgetOwner]
  rw [messages] at forgotten
  have init : (channelProjection kind).state {} = (forgetOwner kind.Elem).state {} :=
    channel_init kind
  rw [init] at projected
  exact forgotten.symm.trans projected

/-- Only the picture delivered last has a file. -/
def onlyFile (last : Option (ℕ × Delivery UInt8)) (identifier : ℕ) : Option (List UInt8) :=
  last.bind (fun entry => if entry.2.identifier = identifier then some entry.2.data else none)

/-- The station holds the picture and the spectrum that were delivered last. -/
structure Tracks (delivered : List Received) (s : Station) : Prop where
  aggregator : s.aggregator = stateAfter (delivered.map Received.message)
  files : s.files = onlyFile (deliveriesOf .picture delivered).getLast?
  latest : s.latestSpectrum = (deliveriesOf .spectrum delivered).getLast?.map Prod.snd

/-- A new picture replaces the one before it, and the saver finds that one to remove. -/
theorem PictureSaver.accept_onlyFile {last : Option (ℕ × Delivery UInt8)} {count : ℕ}
    (numbered : ∀ entry ∈ last, entry.2.identifier + 1 = count)
    (present : count ≠ 0 → last.isSome) (owner : ℕ) (data : List UInt8)
    : PictureSaver.accept (onlyFile last) ⟨data, count⟩
      = some (onlyFile (some (owner, ⟨data, count⟩))) := by
  by_cases first : count = 0
  · subst first
    cases last with
    | none =>
        simp only [PictureSaver.accept, ne_eq, not_true, if_false, Option.some.injEq]
        funext identifier
        by_cases same : identifier = 0
        · simp [onlyFile, same]
        · simp [onlyFile, same, Ne.symm same]
    | some entry => exact absurd (numbered entry rfl) (by omega)
  · obtain ⟨entry, rfl⟩ := Option.isSome_iff_exists.mp (present first)
    have number := numbered entry rfl
    have stored : onlyFile (some entry) (count - 1) = some entry.2.data := by
      simp only [onlyFile, Option.bind_some, if_pos (show entry.2.identifier = count - 1 by omega)]
    simp only [PictureSaver.accept, ne_eq, first, not_false_eq_true, if_true, stored,
      Option.some.injEq]
    funext identifier
    by_cases same : identifier = count
    · simp [onlyFile, same]
    · by_cases previous : identifier = count - 1
      · have removed : count - 1 ≠ count := by omega
        simp [onlyFile, previous, removed, Ne.symm removed]
      · have other : entry.2.identifier ≠ identifier := by omega
        simp [onlyFile, same, previous, other, Ne.symm same]

/-- The last delivery of a channel carries the count before it. -/
theorem last_numbered (kind : Kind) (delivered : List Received)
    : (ownedAt kind delivered).channel.listener.numberOfWholePackages
        = (deliveriesOf kind delivered).length
      ∧ ∀ entry ∈ (deliveriesOf kind delivered).getLast?,
          entry.2.identifier + 1 = (deliveriesOf kind delivered).length :=
  owned_numbers (delivered.filterMap (Received.on kind))

/-- A message of a channel adds one delivery of the measurement that the channel accumulates
for when it completes that, and none otherwise.
-/
theorem deliveriesOf_step {kind : Kind} (before : List Received) {x : Received}
    {own : ChannelMessage kind.Elem} (concerned : x.message.on kind = some own)
    : (((ownedAt kind before).channel.accept own).2 = []
        ∧ deliveriesOf kind (before ++ [x]) = deliveriesOf kind before)
      ∨ ((ownedAt kind before).channel.Completes own
        ∧ ∃ data,
          ((ownedAt kind before).channel.accept own).2
              = [⟨data, (deliveriesOf kind before).length⟩]
            ∧ deliveriesOf kind (before ++ [x])
              = deliveriesOf kind before
                ++ [((ownedAt kind before).owner,
                  ⟨data, (deliveriesOf kind before).length⟩)]) := by
  have grown : deliveriesOf kind (before ++ [x])
      = deliveriesOf kind before
        ++ ((ownedAt kind before).channel.accept own).2.map ((ownedAt kind before).owner, ·) := by
    rw [deliveriesOf_concat, Received.on, concerned]
    rfl
  rw [grown, ← (last_numbered kind before).1]
  rcases Channel.accept_numbers (ownedAt kind before).channel own with
    ⟨silent, _⟩ | ⟨completes, data, delivers, _⟩
  · exact Or.inl ⟨silent, by simp [silent]⟩
  · exact Or.inr ⟨completes, data, delivers, by simp [delivers]⟩

theorem deliveriesOf_unconcerned {kind : Kind} (before : List Received) {x : Received}
    (unconcerned : x.message.on kind = none)
    : deliveriesOf kind (before ++ [x]) = deliveriesOf kind before := by
  rw [deliveriesOf_concat, Received.on, unconcerned]
  exact List.append_nil _

/-- A message keeps the station in step with the deliveries, and no acceptor raises; by cases
on the channel that the message reaches.
-/
theorem Tracks.step {before : List Received} {x : Received} {s : Station}
    (tracks : Tracks before s)
    : ∃ next, s.acceptMessage x.message = some next ∧ Tracks (before ++ [x]) next := by
  have state : (s.aggregator.acceptMessage x.message).1
      = stateAfter ((before ++ [x]).map Received.message) := by
    rw [tracks.aggregator, List.map_append, List.map_singleton, stateAfter, stateAfter,
      Mealy.finish_concat]
    rfl
  have unfolded : s.acceptMessage x.message
      = (s.aggregator.acceptMessage x.message).2.foldlM Station.call
          { s with aggregator := (s.aggregator.acceptMessage x.message).1 } := rfl
  have channel (kind : Kind) : s.aggregator.channel kind = (ownedAt kind before).channel := by
    rw [tracks.aggregator, ownedAt_channel]
  rw [unfolded, state]
  rcases s.aggregator.acceptMessage_cases x.message with
    ⟨own, concerned, noSpectrum, calls⟩ | ⟨own, concerned, noPicture, calls⟩
      | ⟨noPicture, noSpectrum, calls⟩
  · have latest := tracks.latest.trans
      (congrArg (·.getLast?.map Prod.snd) (deliveriesOf_unconcerned before noSpectrum).symm)
    rw [calls, show s.aggregator.picture = _ from channel .picture]
    rcases @deliveriesOf_step .picture before x own concerned with
      ⟨silent, kept⟩ | ⟨_, data, delivers, grown⟩
    · rw [silent]
      exact ⟨_, rfl, rfl, kept ▸ tracks.files, latest⟩
    · have saved := PictureSaver.accept_onlyFile (last_numbered .picture before).2
        (fun some_ => by simpa [List.getLast?_isSome] using some_)
        (ownedAt .picture before).owner data
      have file := congrArg onlyFile ((congrArg List.getLast? grown).trans List.getLast?_concat)
      rw [← file, ← tracks.files] at saved
      rw [delivers]
      refine ⟨{ s with
        aggregator := stateAfter ((before ++ [x]).map Received.message)
        files := onlyFile (deliveriesOf .picture (before ++ [x])).getLast? },
        ?_, rfl, rfl, latest⟩
      simp only [List.map_singleton, List.foldlM_cons, List.foldlM_nil, Station.call, saved,
        Option.map_some]
      rfl
  · have files := tracks.files.trans
      (congrArg (fun entries => onlyFile entries.getLast?)
        (deliveriesOf_unconcerned before noPicture).symm)
    rw [calls, show s.aggregator.spectrum = _ from channel .spectrum]
    rcases @deliveriesOf_step .spectrum before x own concerned with
      ⟨silent, kept⟩ | ⟨_, data, delivers, grown⟩
    · rw [silent]
      exact ⟨_, rfl, rfl, files, kept ▸ tracks.latest⟩
    · rw [delivers]
      refine ⟨_, rfl, rfl, files, ?_⟩
      rw [grown, List.getLast?_concat]
      rfl
  · rw [calls]
    refine ⟨_, rfl, rfl, ?_, ?_⟩
    · rw [deliveriesOf_unconcerned before noPicture]
      exact tracks.files
    · rw [deliveriesOf_unconcerned before noSpectrum]
      exact tracks.latest

/-- Every list of messages leads to a station in step with the deliveries. -/
theorem run_tracks (delivered : List Received)
    : ∃ s, Station.run (delivered.map Received.message) = some s ∧ Tracks delivered s := by
  induction delivered using List.reverseRecOn with
  | nil => exact ⟨{}, rfl, rfl, rfl, rfl⟩
  | append_singleton before x ih =>
      obtain ⟨s, ran, tracks⟩ := ih
      obtain ⟨next, accepted, tracksNext⟩ := tracks.step (x := x)
      refine ⟨next, ?_, tracksNext⟩
      rw [List.map_append, List.map_singleton, Station.run_concat, ran]
      exact accepted

-----------------------------------------------------------------------------------------
-- Runs that keep pictures and spectra paired
-----------------------------------------------------------------------------------------

/-- On one channel, a message is no packet of another measurement taken for the awaited one;
and if it completes the delivery that brings this channel level with the other, the delivery
is for the measurement that the other channel has delivered last.
-/
def PairedOn (kind : Kind) (before : List Received) (x : Received) : Prop :=
  ∀ y ∈ x.on kind,
    ¬ (ownedAt kind before).Foreign y
    ∧ ((ownedAt kind before).channel.Completes y.message
      → (ownedAt kind before).channel.listener.numberOfWholePackages + 1
        = (ownedAt kind.other before).channel.listener.numberOfWholePackages
      → (deliveriesOf kind.other before).getLast?.map Prod.fst
        = some (ownedAt kind before).owner)

instance (kind : Kind) (before : List Received) (x : Received)
    : Decidable (PairedOn kind before x) :=
  inferInstanceAs (Decidable (∀ y ∈ x.on kind, _))

/-- Every message of the run meets the condition on both channels. -/
def PairedRun (delivered : List Received) : Prop :=
  ∀ n, (bound : n < delivered.length)
    → ∀ kind ∈ [Kind.picture, Kind.spectrum], PairedOn kind (delivered.take n) delivered[n]

instance (delivered : List Received) : Decidable (PairedRun delivered) :=
  Nat.decidableBallLT delivered.length _

theorem PairedRun.concat {before : List Received} {x : Received}
    (paired : PairedRun (before ++ [x]))
    : PairedRun before ∧ ∀ kind, PairedOn kind before x := by
  constructor
  · intro n bound kind listed
    have step := paired n (by simp; omega) kind listed
    rwa [List.take_append_of_le_length bound.le, List.getElem_append_left bound] at step
  · intro kind
    have step := paired before.length (by simp) kind (by cases kind <;> decide)
    simpa using step

/-- Channels with as many deliveries have delivered the same measurement last. -/
def SameOwner (kind : Kind) (delivered : List Received) : Prop :=
  (deliveriesOf kind delivered).length = (deliveriesOf kind.other delivered).length
    → (deliveriesOf kind delivered).getLast?.map Prod.fst
      = (deliveriesOf kind.other delivered).getLast?.map Prod.fst

theorem SameOwner.swap {kind : Kind} {delivered : List Received}
    (same : SameOwner kind delivered)
    : SameOwner kind.other delivered := by
  cases kind <;> exact fun level => (same level.symm).symm

/-- A message of one channel keeps the last deliveries together. -/
theorem SameOwner.step {kind : Kind} {before : List Received} {x : Received}
    {own : ChannelMessage kind.Elem} (same : SameOwner kind before)
    (paired : PairedOn kind before x) (concerned : x.message.on kind = some own)
    (unconcerned : x.message.on kind.other = none)
    : SameOwner kind (before ++ [x]) := by
  unfold SameOwner
  rw [deliveriesOf_unconcerned before unconcerned]
  rcases deliveriesOf_step before concerned with ⟨_, kept⟩ | ⟨completes, data, _, grown⟩
  · rw [kept]
    exact same
  · have step := paired ⟨x.measurement, own⟩ (by simp [Received.on, concerned])
    rw [grown, List.length_append, List.getLast?_concat]
    intro level
    refine (step.2 completes ?_).symm
    rw [(last_numbered kind before).1, (last_numbered kind.other before).1]
    exact level

/-- What a run without foreign packets and with paired steps maintains. -/
structure Matches (measurements : List Measurement) (delivered : List Received) : Prop where
  holds : ∀ kind,
    (ownedAt kind delivered).Holds (measurements.map (Measurement.transmission kind))
  intact : ∀ kind, ∀ entry ∈ deliveriesOf kind delivered,
    Owned.Intact (measurements.map (Measurement.transmission kind)) entry
  same : SameOwner .picture delivered

/-- By induction on the run, with one step of both channels and of the comparison. -/
theorem matches_of_paired {measurements : List Measurement} {delivered : List Received}
    (measured : ∀ x ∈ delivered, x ∈ measuredMessages measurements)
    (paired : PairedRun delivered)
    : Matches measurements delivered := by
  induction delivered using List.reverseRecOn with
  | nil =>
      refine ⟨fun kind accum => (by cases accum), fun kind => ?_, fun _ => rfl⟩
      intro entry member
      cases member
  | append_singleton before x ih =>
      have previous := ih (fun y member => measured y (List.mem_append_left _ member))
        paired.concat.1
      have step := paired.concat.2
      have channels (kind : Kind)
          : (ownedAt kind (before ++ [x])).Holds
              (measurements.map (Measurement.transmission kind))
            ∧ ∀ entry ∈ deliveriesOf kind (before ++ [x]),
              Owned.Intact (measurements.map (Measurement.transmission kind)) entry := by
        rw [ownedAt_concat, deliveriesOf_concat]
        cases own : x.on kind with
        | none => exact ⟨previous.holds kind, by simpa using previous.intact kind⟩
        | some y =>
            obtain ⟨holds, intact⟩ := (previous.holds kind).step
              (sent_of_measured (measured x (by simp)) own) (step kind y own).1
            refine ⟨holds, ?_⟩
            intro entry member
            rcases List.mem_append.mp member with earlier | now
            · exact previous.intact kind entry earlier
            · exact intact entry now
      refine ⟨fun kind => (channels kind).1, fun kind => (channels kind).2, ?_⟩
      rcases ({} : Aggregator).acceptMessage_cases x.message with
        ⟨own, concerned, noSpectrum, _⟩ | ⟨own, concerned, noPicture, _⟩
          | ⟨noPicture, noSpectrum, _⟩
      · exact previous.same.step (step .picture) concerned noSpectrum
      · exact (previous.same.swap.step (step .spectrum) concerned noPicture).swap
      · unfold SameOwner
        have noOther : x.message.on Kind.picture.other = none := noSpectrum
        rw [deliveriesOf_unconcerned before noPicture, deliveriesOf_unconcerned before noOther]
        exact previous.same

/-- Whatever is lost, no acceptor raises, and as long as every message meets the condition
the picture under the identifier of the latest spectrum belongs to its measurement. Witness:
equal identifiers mean equally many deliveries, whose last ones share their measurement.
-/
theorem station_paired (measurements : List Measurement) (delivered : List Received)
    (measured : ∀ x ∈ delivered, x ∈ measuredMessages measurements)
    (paired : PairedRun delivered)
    : ∃ s, Station.run (delivered.map Received.message) = some s ∧ s.Paired measurements := by
  obtain ⟨s, ran, tracks⟩ := run_tracks delivered
  have matched := matches_of_paired measured paired
  refine ⟨s, ran, ?_⟩
  intro latest content isLatest isFile
  rw [tracks.latest] at isLatest
  rw [tracks.files] at isFile
  obtain ⟨spectrum, lastSpectrum, rfl⟩ := Option.map_eq_some_iff.mp isLatest
  obtain ⟨picture, lastPicture, found⟩ := Option.bind_eq_some_iff.mp isFile
  have same : picture.2.identifier = spectrum.2.identifier := by
    by_contra different
    simp [different] at found
  obtain rfl : picture.2.data = content := by simpa [same] using found
  have level : (deliveriesOf .picture delivered).length
      = (deliveriesOf .spectrum delivered).length := by
    rw [← (last_numbered .picture delivered).2 picture lastPicture,
      ← (last_numbered .spectrum delivered).2 spectrum lastSpectrum, same]
  have owners : picture.1 = spectrum.1 := by
    have together : (deliveriesOf .picture delivered).getLast?.map Prod.fst
        = (deliveriesOf .spectrum delivered).getLast?.map Prod.fst := matched.same level
    simpa [lastPicture, lastSpectrum] using together
  obtain ⟨t, foundPicture, pictureData⟩ := matched.intact .picture picture
    (List.mem_of_getLast? lastPicture)
  obtain ⟨u, foundSpectrum, spectrumData⟩ := matched.intact .spectrum spectrum
    (List.mem_of_getLast? lastSpectrum)
  rw [List.getElem?_map, Option.map_eq_some_iff] at foundPicture foundSpectrum
  obtain ⟨m, atPicture, rfl⟩ := foundPicture
  obtain ⟨m', atSpectrum, rfl⟩ := foundSpectrum
  obtain rfl : m = m' := Option.some.inj (atPicture.symm.trans (owners ▸ atSpectrum))
  exact ⟨m, List.mem_of_getElem? atPicture, spectrumData, pictureData⟩

/-- Two measurements of one packet on each channel. -/
def twoMeasurements : List Measurement :=
  [⟨⟨253, [List.replicate 253 1]⟩, ⟨126, [List.replicate 126 1]⟩⟩,
    ⟨⟨253, [List.replicate 253 2]⟩, ⟨126, [List.replicate 126 2]⟩⟩]

theorem two_measurements_paired
    : ∃ s, Station.run ((measuredMessages twoMeasurements).map Received.message) = some s
        ∧ s.Paired twoMeasurements :=
  station_paired twoMeasurements _ (fun _ member => member) (by decide +kernel)

/-- The first picture and the second spectrum are lost, so the second picture is saved under
the identifier of the first spectrum.
-/
theorem lost_picture_not_paired
    : ¬ ∀ (measurements : List Measurement) (delivered : List Received) (s : Station),
        delivered.Sublist (measuredMessages measurements)
        → Station.run (delivered.map Received.message) = some s → s.Paired measurements := by
  intro paired
  let delivered : List Received :=
    [⟨0, .intensityHeader ⟨126, 1⟩⟩, ⟨0, .intensityEncapsulatedData ⟨0, List.replicate 126 1⟩⟩,
      ⟨1, .pictureHeader ⟨253, 1⟩⟩, ⟨1, .encapsulatedData ⟨0, List.replicate 253 2⟩⟩]
  have loss : delivered.Sublist (measuredMessages twoMeasurements) := by decide +kernel
  have held : (Station.run (delivered.map Received.message)).map
      (fun s => (s.latestSpectrum, s.files 0))
      = some (some ⟨List.replicate 126 1, 0⟩, some (List.replicate 253 2)) := by
    decide +kernel
  obtain ⟨s, ran, holds⟩ := Option.map_eq_some_iff.mp held
  obtain ⟨isLatest, isFile⟩ := Prod.mk.inj holds
  obtain ⟨m, sent, spectrum, picture⟩ :=
    paired twoMeasurements delivered s loss ran _ _ isLatest isFile
  rcases List.mem_pair.mp sent with rfl | rfl
  · exact absurd picture (by decide +kernel)
  · exact absurd spectrum (by decide +kernel)

end Granum.Ground
