import Granum.Ground.LogDump

/-! Which logs are converted. A message has to be of a type that had its file when the first
message of a spectrum came, and that one needs a picture message before it.
-/

namespace Granum.Ground

theorem Dialect.msgId_ne (d : Dialect) (type : d.Other)
    : d.msgId type ≠ 152 ∧ d.msgId type ≠ 131 ∧ d.msgId type ≠ 153 ∧ d.msgId type ≠ 154
      ∧ d.msgId type ≠ 768 := by
  simpa using d.msgId_other type

theorem Dialect.typeName_ne (d : Dialect) (type : d.Other)
    : d.typeName type ≠ "PICTURE_HEADER" ∧ d.typeName type ≠ "ENCAPSULATED_DATA"
      ∧ d.typeName type ≠ "INTENSITY_HEADER"
      ∧ d.typeName type ≠ "INTENSITY_ENCAPSULATED_DATA" ∧ d.typeName type ≠ "mega" := by
  simpa using d.typeName_other type

namespace LogMessage

variable {d : Dialect} {msg other : LogMessage d}

theorem getMsgId_ne_mega : msg.getMsgId ≠ LogDump.megaMsgId := by
  cases msg with
  | other type value => exact (d.msgId_ne type).2.2.2.2
  | _ => simp [getMsgId, LogDump.megaMsgId]

theorem getType_ne_mega : msg.getType ≠ "mega" := by
  cases msg with
  | other type value => exact (d.typeName_ne type).2.2.2.2
  | _ => simp [getType]

/-- The name of a message's type and its id tell the same. -/
theorem getType_eq_iff : msg.getType = other.getType ↔ msg.getMsgId = other.getMsgId := by
  cases msg with
  | other type value =>
      cases other with
      | other type' value' =>
          exact d.typeName_injective.eq_iff.trans d.msgId_injective.eq_iff.symm
      | _ => simp [getType, getMsgId, d.msgId_ne, d.typeName_ne]
  | _ =>
      cases other with
      | other type value =>
          rw [eq_comm, @eq_comm _ (getMsgId _)]
          simp [getType, getMsgId, d.msgId_ne, d.typeName_ne]
      | _ => simp [getType, getMsgId]

theorem getFieldnames_eq (same : msg.getMsgId = other.getMsgId)
    : msg.getFieldnames = other.getFieldnames := by
  cases msg with
  | other type value =>
      cases other with
      | other type' value' => exact congrArg d.fieldnames (d.msgId_injective same)
      | _ => simp [getMsgId, d.msgId_ne] at same
  | _ =>
      cases other with
      | other type value => simp [getMsgId, d.msgId_ne, @eq_comm _ _ (d.msgId type)] at same
      | _ => simp [getMsgId] at same <;> rfl

/-- The writer of a type knows the keys of the rows of that type. -/
theorem row_fieldnames : ∀ field ∈ msg.row, field.1 ∈ msg.getFieldnames := by
  intro field member
  obtain ⟨member, notTag⟩ := List.mem_filter.mp member
  have member : field ∈ msg.fields := by
    rcases List.mem_cons.mp member with rfl | member
    · simp at notTag
    · exact member
  cases msg with
  | other type value =>
      obtain ⟨name, known, rfl⟩ := List.mem_map.mp member
      exact known
  | _ => exact List.mem_map_of_mem (f := Prod.fst) member

/-- The two types of the messages of a spectrum. -/
theorem isIntensity_iff : msg.IsIntensity
    ↔ (∃ h, msg = .intensityHeader h) ∨ ∃ packet, msg = .intensityEncapsulatedData packet := by
  cases msg with
  | other type value => simp [IsIntensity, getMsgId, d.msgId_ne]
  | _ => simp [IsIntensity, getMsgId]

end LogMessage

-----------------------------------------------------------------------------------------
-- What one message does
-----------------------------------------------------------------------------------------

namespace OfflineAggregator

variable {a : OfflineAggregator} {msg : Message} {config : List ℕ}

/-- A picture listener that waits for a header passes over all other messages. -/
theorem acceptMessage_idle (idle : a.pictureListener.state = .idle)
    (noHeader : ∀ header, msg ≠ .pictureHeader header) (noSpectrum : msg.ints .spectrum = none)
    : a.acceptMessage msg config = .ok a := by
  cases msg with
  | pictureHeader header => exact absurd rfl (noHeader header)
  | encapsulatedData packet =>
      simp only [acceptMessage, Message.ints, Message.on, Option.map_some, Option.map_none,
        acceptPicture, idle, ChannelMessage.map]
      rfl
  | intensityHeader header => simp [Message.ints, Message.on] at noSpectrum
  | intensityEncapsulatedData packet => simp [Message.ints, Message.on] at noSpectrum
  | other => rfl

theorem acceptMessage_spectrum {own : ChannelMessage ℕ} (concerned : msg.ints .spectrum = some own)
    : a.acceptMessage msg config = .ok (a.acceptSpectrum own) := by
  have noPicture : msg.ints .picture = none := by
    cases msg <;> first | rfl | simp [Message.ints, Message.on] at concerned
  simp only [acceptMessage, noPicture, concerned]
  rfl

theorem acceptSpectrum_pictureListener (own : ChannelMessage ℕ)
    : (a.acceptSpectrum own).pictureListener = a.pictureListener := by
  unfold acceptSpectrum
  repeat' split
  all_goals rfl

end OfflineAggregator

namespace LogDump

variable {d : Dialect} {msg other : LogMessage d}

theorem ownWriter_eq (same : msg.getMsgId = other.getMsgId) : ownWriter msg = ownWriter other := by
  rw [ownWriter, ownWriter, LogMessage.getType_eq_iff.mpr same, LogMessage.getFieldnames_eq same]

theorem ownWriter_path_eq_iff
    : (ownWriter msg).path = (ownWriter other).path ↔ msg.getMsgId = other.getMsgId :=
  (String.append_left_inj ".csv").trans LogMessage.getType_eq_iff

theorem ownWriter_path_ne_mega : (ownWriter msg).path ≠ megaWriter.path := by
  have mega : megaWriter.path = "mega" ++ ".csv" := by decide
  rw [mega]
  exact fun same => LogMessage.getType_ne_mega ((String.append_left_inj ".csv").mp same)

variable {s : LogDump}

theorem writeRow_known {key : ℤ} {writer : CsvWriter} {row : Row}
    (found : s.processors key = some writer) (known : ∀ field ∈ row, field.1 ∈ writer.fieldnames)
    : s.writeRow key row = .ok { s with
        files := Function.update s.files writer.path (s.files writer.path ++ [row]) } := by
  rw [writeRow, found]
  exact if_pos known

theorem writeRow_unknown {key : ℤ} {row : Row} (missing : s.processors key = none)
    : s.writeRow key row = .error (.keyError key) := by
  rw [writeRow, missing]

theorem megaRow_fieldnames : ∀ field ∈ s.megaRow, field.1 ∈ megaWriter.fieldnames := by
  simp [megaRow, megaWriter]

/-- The state after the flag has been polled. -/
def polled (s : LogDump) : LogDump :=
  if s.aggregator.dataReady then
    { s.acknowledge with
      files := Function.update s.files megaWriter.path (s.files megaWriter.path ++ [s.megaRow])
      i := s.i + 1 }
  else s

theorem pollReady_eq (open_ : s.processors megaMsgId = some megaWriter)
    : s.pollReady = .ok s.polled := by
  unfold pollReady polled
  split
  · have written : s.acknowledge.writeRow megaMsgId s.acknowledge.megaRow = _ :=
      writeRow_known open_ megaRow_fieldnames
    exact congrArg (fun result => result.bind fun s => .ok { s with i := s.i + 1 }) written
  · rfl

/-- The state after a message of a spectrum. -/
def collected (s : LogDump) (own : ChannelMessage ℕ) (msg : LogMessage d) : LogDump :=
  let s := { s with aggregator := s.aggregator.acceptSpectrum own }
  if msg.getMsgId = 153 then s.noteHeader msg else s.polled

theorem collectSpectrum_eq {config : List ℕ} (bound : s.config = some config)
    (open_ : s.processors megaMsgId = some megaWriter) {own : ChannelMessage ℕ}
    (concerned : msg.live.ints .spectrum = some own)
    : s.collectSpectrum msg = .ok (s.collected own msg) := by
  simp only [collectSpectrum, bound, OfflineAggregator.acceptMessage_spectrum concerned, collected]
  refine Eq.trans ?_ (apply_ite Except.ok _ _ _).symm
  rw [← pollReady_eq]
  · rfl
  · exact open_

/-- What a message of a spectrum leaves as it was. -/
structure Undisturbed (s t : LogDump) : Prop where
  config : t.config = s.config
  processors : t.processors = s.processors
  b : t.b = s.b
  pictureListener : t.aggregator.pictureListener = s.aggregator.pictureListener
  files : ∀ path, path ≠ megaWriter.path → t.files path = s.files path

theorem undisturbed_polled (s : LogDump) : s.Undisturbed s.polled := by
  unfold polled
  split_ifs
  · exact ⟨rfl, rfl, rfl, rfl, fun path other => Function.update_of_ne other _ _⟩
  · exact ⟨rfl, rfl, rfl, rfl, fun _ _ => rfl⟩

theorem undisturbed_collected (s : LogDump) (own : ChannelMessage ℕ) (msg : LogMessage d)
    : s.Undisturbed (s.collected own msg) := by
  have pictures := s.aggregator.acceptSpectrum_pictureListener own
  simp only [collected]
  split_ifs
  · cases msg <;> exact ⟨rfl, rfl, rfl, pictures, fun _ _ => rfl⟩
  · obtain ⟨config, processors, b, pictureListener, files⟩ :=
      undisturbed_polled { s with aggregator := s.aggregator.acceptSpectrum own }
    exact ⟨config, processors, b, pictureListener.trans pictures, files⟩

/-- A message of a spectrum passes through the part for pictures. -/
theorem collectPicture_intensity (intensity : msg.IsIntensity) : s.collectPicture msg = .ok s := by
  have other : ¬(msg.getMsgId = 152 ∨ msg.getMsgId = 131) := by
    rcases intensity with id | id <;> simp [id]
  rw [collectPicture, if_neg other]
  rfl

theorem step_intensity (intensity : msg.IsIntensity)
    : s.step msg = (s.openFor msg).collectSpectrum msg := by
  rw [step, collectPicture_intensity intensity]
  exact if_pos intensity

/-- `config` is bound to an empty list by a packet of a picture. -/
def configured (s : LogDump) (msg : LogMessage d) : LogDump :=
  { s with config := if msg.getMsgId = 131 then some [] else s.config }

theorem collectPicture_own (idle : s.aggregator.pictureListener.state = .idle)
    (own : ¬msg.IsIntensity) (noPicture : msg.getMsgId ≠ 152)
    : s.collectPicture msg = .ok (s.configured msg) := by
  cases msg with
  | pictureHeader h => exact absurd rfl noPicture
  | encapsulatedData packet =>
      have accepted : s.aggregator.acceptMessage (.encapsulatedData packet) [] = .ok s.aggregator :=
        OfflineAggregator.acceptMessage_idle idle (fun _ => nofun) rfl
      exact congrArg (fun result => result.bind fun aggregator =>
        .ok { s with config := some [], aggregator }) accepted
  | intensityHeader h => exact absurd (.inl rfl) own
  | intensityEncapsulatedData packet => exact absurd (.inr rfl) own
  | other type value =>
      simp only [collectPicture, configured, LogMessage.getMsgId, d.msgId_ne, if_false, or_self]
      rfl

theorem step_own (idle : s.aggregator.pictureListener.state = .idle) (own : ¬msg.IsIntensity)
    (noPicture : msg.getMsgId ≠ 152)
    : s.step msg = ((s.openFor msg).configured msg).writeOwn msg := by
  have idle : (s.openFor msg).aggregator.pictureListener.state = .idle := by
    unfold openFor openWriter
    split_ifs <;> exact idle
  rw [step, collectPicture_own idle own noPicture]
  exact if_neg own

/-- The row of a message is appended to the file of its type. -/
def written (s : LogDump) (msg : LogMessage d) : LogDump :=
  let path := (ownWriter msg).path
  { s with files := Function.update s.files path (s.files path ++ [msg.row]) }

theorem writeOwn_eq (found : s.processors msg.getMsgId = some (ownWriter msg))
    : s.writeOwn msg = .ok (s.written msg) :=
  writeRow_known found LogMessage.row_fieldnames

/-- A picture header has no `number`. -/
theorem step_pictureHeader (picture : msg.getMsgId = 152)
    : s.step msg = .error (.attributeError "number") := by
  cases msg with
  | pictureHeader h => rfl
  | other type value => exact absurd picture (d.msgId_ne type).1
  | _ => simp [LogMessage.getMsgId] at picture

end LogDump

-----------------------------------------------------------------------------------------
-- The writers that are open
-----------------------------------------------------------------------------------------

/-- An item at the end is among the first that satisfy a test if all others do, too. -/
theorem mem_takeWhile_concat {α : Type} {p : α → Bool} {items : List α} {item last : α}
    : item ∈ (items ++ [last]).takeWhile p
      ↔ item ∈ items.takeWhile p ∨ (item = last ∧ p last ∧ ∀ x ∈ items, p x) := by
  induction items with
  | nil => cases passes : p last <;> simp [List.takeWhile, passes]
  | cons first rest ih =>
      rw [List.cons_append, List.takeWhile_cons, List.takeWhile_cons]
      cases passes : p first with
      | false => simp [passes]
      | true => simp [ih, passes, or_assoc]

/-- The messages before the first one of a spectrum. -/
def early {d : Dialect} (seen : List (LogMessage d)) : List (LogMessage d) :=
  seen.takeWhile fun msg => ¬msg.IsIntensity

/-- A message of the same type came early enough. -/
def HasWriter {d : Dialect} (seen : List (LogMessage d)) (msg : LogMessage d) : Prop :=
  ∃ m ∈ early seen, m.getMsgId = msg.getMsgId

instance {d : Dialect} (seen : List (LogMessage d)) (msg : LogMessage d)
    : Decidable (HasWriter seen msg) :=
  inferInstanceAs (Decidable (∃ m ∈ early seen, m.getMsgId = msg.getMsgId))

section

variable {d : Dialect} {seen : List (LogMessage d)} {msg other : LogMessage d} {s : LogDump}

theorem mem_early_concat
    : other ∈ early (seen ++ [msg])
      ↔ other ∈ early seen
        ∨ (other = msg ∧ ¬msg.IsIntensity ∧ ∀ m ∈ seen, ¬m.IsIntensity) := by
  refine mem_takeWhile_concat.trans ?_
  simp only [early, decide_eq_true_eq]

theorem hasWriter_concat
    : HasWriter (seen ++ [msg]) other
      ↔ HasWriter seen other
        ∨ (msg.getMsgId = other.getMsgId ∧ ¬msg.IsIntensity ∧ ∀ m ∈ seen, ¬m.IsIntensity) := by
  simp only [HasWriter, mem_early_concat]
  grind

theorem early_of_silent (silent : ∀ m ∈ seen, ¬m.IsIntensity) : early seen = seen := by
  simpa [early] using silent

theorem HasWriter.not_isIntensity (has : HasWriter seen msg) : ¬msg.IsIntensity := by
  obtain ⟨m, member, same⟩ := has
  have own : ¬m.IsIntensity := by simpa using List.mem_takeWhile_imp member
  rwa [LogMessage.IsIntensity, ← same]

/-- The writers that have been opened for the messages that were seen. -/
structure Writers (seen : List (LogMessage d)) (s : LogDump) : Prop where
  flag : s.b = true ↔ ∀ m ∈ seen, ¬m.IsIntensity
  mega : s.b = false → s.processors LogDump.megaMsgId = some LogDump.megaWriter
  own : ∀ m : LogMessage d, s.processors m.getMsgId
    = if HasWriter seen m then some (LogDump.ownWriter m) else none

theorem Writers.start : Writers ([] : List (LogMessage d)) {} where
  flag := by simp
  mega := nofun
  own m := by simp [HasWriter, early]

/-- What is opened for a message: the file of the spectra, a file for its type, or nothing. -/
inductive Opens (seen : List (LogMessage d)) (msg : LogMessage d) (s : LogDump) : LogDump → Prop
  | mega (silent : ∀ m ∈ seen, ¬m.IsIntensity) (intensity : msg.IsIntensity)
      : Opens seen msg s
          { s.openWriter LogDump.megaMsgId LogDump.megaWriter with b := false }
  | own (silent : ∀ m ∈ seen, ¬m.IsIntensity) (other : ¬msg.IsIntensity)
      (missing : ¬HasWriter seen msg)
      : Opens seen msg s (s.openWriter msg.getMsgId (LogDump.ownWriter msg))
  | nothing (settled : (∃ m ∈ seen, m.IsIntensity) ∨ HasWriter seen msg)
      : Opens seen msg s s

theorem Writers.openFor_cases (writers : Writers seen s) (msg : LogMessage d)
    : Opens seen msg s (s.openFor msg) := by
  rw [LogDump.openFor]
  by_cases silent : ∀ m ∈ seen, ¬m.IsIntensity
  · by_cases has : HasWriter seen msg
    · rw [if_neg (by simp [writers.own, has])]
      exact .nothing (.inr has)
    · rw [if_pos ⟨by simp [writers.own, has], writers.flag.mpr silent⟩]
      split_ifs with intensity
      · exact .mega silent intensity
      · exact .own silent intensity has
  · rw [if_neg fun h => silent (writers.flag.mp h.2)]
    push Not at silent
    exact .nothing (.inl silent)

theorem silent_concat
    : (∀ m ∈ seen ++ [msg], ¬m.IsIntensity)
      ↔ (∀ m ∈ seen, ¬m.IsIntensity) ∧ ¬msg.IsIntensity := by
  simp only [List.forall_mem_append, List.forall_mem_singleton]

theorem Writers.openFor (writers : Writers seen s) (msg : LogMessage d)
    : Writers (seen ++ [msg]) (s.openFor msg) := by
  generalize next : s.openFor msg = t
  cases next ▸ writers.openFor_cases msg with
  | mega silent intensity =>
      refine ⟨by simp [intensity], fun _ => by simp [LogDump.openWriter], fun m => ?_⟩
      simp [LogDump.openWriter, LogMessage.getMsgId_ne_mega, writers.own, hasWriter_concat,
        intensity]
  | own silent other missing =>
      have open_ : s.b = true := writers.flag.mpr silent
      refine ⟨?_, fun closed => ?_, fun m => ?_⟩
      · rw [silent_concat]
        exact iff_of_true open_ ⟨silent, other⟩
      · simp [LogDump.openWriter, open_] at closed
      · by_cases same : msg.getMsgId = m.getMsgId
        · have has : HasWriter (seen ++ [msg]) m := hasWriter_concat.mpr (.inr ⟨same, other, silent⟩)
          simp [LogDump.openWriter, same, has, LogDump.ownWriter_eq same]
        · simp [LogDump.openWriter, Ne.symm same, same, hasWriter_concat, writers.own]
  | nothing settled =>
      have has : ∀ m, HasWriter (seen ++ [msg]) m ↔ HasWriter seen m := by
        intro m
        refine hasWriter_concat.trans (or_iff_left_of_imp fun ⟨same, _, silent⟩ => ?_)
        obtain ⟨x, member, intensity⟩ | ⟨x, member, same'⟩ := settled
        · exact absurd intensity (silent x member)
        · exact ⟨x, member, same'.trans same⟩
      refine ⟨?_, writers.mega, fun m => ?_⟩
      · rw [silent_concat, writers.flag]
        refine (and_iff_left_of_imp fun silent => ?_).symm
        obtain ⟨x, member, intensity⟩ | has := settled
        · exact absurd intensity (silent x member)
        · exact has.not_isIntensity
      · simp only [writers.own, has]

-----------------------------------------------------------------------------------------
-- The contents of the files
-----------------------------------------------------------------------------------------

/-- The rows of the messages of a type. -/
def rowsOf (seen : List (LogMessage d)) (msg : LogMessage d) : List Row :=
  (seen.filter fun m => m.getType = msg.getType).map LogMessage.row

theorem rowsOf_concat
    : rowsOf (seen ++ [msg]) other
      = rowsOf seen other ++ if msg.getMsgId = other.getMsgId then [msg.row] else [] := by
  by_cases same : msg.getMsgId = other.getMsgId
  · simp [rowsOf, LogMessage.getType_eq_iff, same]
  · simp [rowsOf, LogMessage.getType_eq_iff, same]

/-- What the loop has made of the messages that were seen. -/
structure Contents (seen : List (LogMessage d)) (s : LogDump) : Prop where
  noPicture : ∀ m ∈ seen, m.getMsgId ≠ 152
  config : s.config.isSome ↔ ∃ m ∈ seen, m.getMsgId = 131
  idle : s.aggregator.pictureListener.state = .idle
  files : ∀ m : LogMessage d, ¬m.IsIntensity
    → s.files (LogDump.ownWriter m).path = rowsOf seen m

theorem noPicture_concat (before : ∀ m ∈ seen, m.getMsgId ≠ 152) (last : msg.getMsgId ≠ 152)
    : ∀ m ∈ seen ++ [msg], m.getMsgId ≠ 152 := by
  rw [List.forall_mem_append, List.forall_mem_singleton]
  exact ⟨before, last⟩

theorem Contents.start : Contents ([] : List (LogMessage d)) {} where
  noPicture := by simp
  config := by simp
  idle := rfl
  files _ _ := rfl

/-- No file that holds rows is emptied. -/
theorem Contents.openFor (contents : Contents seen s) (writers : Writers seen s)
    (msg : LogMessage d) : Contents seen (s.openFor msg) := by
  generalize next : s.openFor msg = t
  cases next ▸ writers.openFor_cases msg with
  | mega silent intensity =>
      refine ⟨contents.noPicture, contents.config, contents.idle, fun m own => ?_⟩
      rw [← contents.files m own]
      exact Function.update_of_ne LogDump.ownWriter_path_ne_mega _ _
  | own silent other missing =>
      refine ⟨contents.noPicture, contents.config, contents.idle, fun m own => ?_⟩
      by_cases same : m.getMsgId = msg.getMsgId
      · have none : rowsOf seen m = [] := by
          rw [rowsOf, List.map_eq_nil_iff, List.filter_eq_nil_iff]
          intro x member sameType
          refine missing ⟨x, by rwa [early_of_silent silent], ?_⟩
          rw [← same, ← LogMessage.getType_eq_iff]
          exact of_decide_eq_true sameType
        rw [none, LogDump.ownWriter_eq same]
        exact Function.update_self _ _ _
      · rw [← contents.files m own]
        exact Function.update_of_ne (mt LogDump.ownWriter_path_eq_iff.mp same) _ _
  | nothing settled => exact contents

/-- A message of a spectrum changes only the file of the spectra. -/
theorem Contents.collected (contents : Contents seen s) (intensity : msg.IsIntensity)
    (own : ChannelMessage ℕ) : Contents (seen ++ [msg]) (s.collected own msg) := by
  obtain ⟨config, -, -, pictureListener, files⟩ := LogDump.undisturbed_collected s own msg
  refine ⟨?_, ?_, ?_, fun m other => ?_⟩
  · refine noPicture_concat contents.noPicture ?_
    rcases intensity with id | id <;> simp [id]
  · rw [config, contents.config]
    rcases intensity with id | id <;> simp [id]
  · rw [pictureListener, contents.idle]
  · have different : msg.getMsgId ≠ m.getMsgId := by
      rintro same
      rw [LogMessage.IsIntensity, same] at intensity
      exact other intensity
    rw [files _ LogDump.ownWriter_path_ne_mega, contents.files m other, rowsOf_concat,
      if_neg different, List.append_nil]

/-- A row is appended to the file of the message's type. -/
theorem Contents.written (contents : Contents seen s) (noPicture : msg.getMsgId ≠ 152)
    : Contents (seen ++ [msg]) ((s.configured msg).written msg) := by
  refine ⟨?_, ?_, contents.idle, fun m other => ?_⟩
  · exact noPicture_concat contents.noPicture noPicture
  · simp only [LogDump.written, LogDump.configured, List.mem_append, List.mem_singleton, or_and_right,
      exists_or, exists_eq_left]
    split_ifs with packet
    · simp [packet]
    · simpa [packet] using contents.config
  · rw [rowsOf_concat, ← contents.files m other]
    by_cases same : msg.getMsgId = m.getMsgId
    · rw [if_pos same, ← LogDump.ownWriter_eq same]
      exact Function.update_self _ _ _
    · rw [if_neg same, List.append_nil]
      exact Function.update_of_ne (mt LogDump.ownWriter_path_eq_iff.mp (Ne.symm same)) _ _

-----------------------------------------------------------------------------------------
-- The whole log
-----------------------------------------------------------------------------------------

/-- When the loop gets through a message after the ones that were seen. -/
structure Processes (seen : List (LogMessage d)) (msg : LogMessage d) : Prop where
  noPicture : msg.getMsgId ≠ 152
  configBound : msg.IsIntensity → ∃ m ∈ seen, m.getMsgId = 131
  writerOpen : ¬msg.IsIntensity → (∀ m ∈ seen, ¬m.IsIntensity) ∨ HasWriter seen msg

/-- The loop up to some message. -/
structure Dumped (seen : List (LogMessage d)) (s : LogDump) : Prop where
  writers : Writers seen s
  contents : Contents seen s

/-- The state after a message that the loop gets through. -/
def LogDump.next (s : LogDump) (msg : LogMessage d) : LogDump :=
  match msg.live.ints .spectrum with
  | some own => (s.openFor msg).collected own msg
  | none => ((s.openFor msg).configured msg).written msg

theorem LogMessage.ints_spectrum (intensity : msg.IsIntensity)
    : ∃ own, msg.live.ints .spectrum = some own := by
  obtain ⟨h, rfl⟩ | ⟨packet, rfl⟩ := isIntensity_iff.mp intensity
  · exact ⟨_, rfl⟩
  · exact ⟨_, rfl⟩

theorem LogMessage.ints_none (other : ¬msg.IsIntensity) : msg.live.ints .spectrum = none := by
  cases msg with
  | intensityHeader h => exact absurd (.inl rfl) other
  | intensityEncapsulatedData packet => exact absurd (.inr rfl) other
  | _ => rfl

namespace Dumped

theorem start : Dumped ([] : List (LogMessage d)) {} := ⟨.start, .start⟩

/-- The message of a spectrum, with a bound `config`. -/
theorem step_intensity (dumped : Dumped seen s) (intensity : msg.IsIntensity)
    (bound : ∃ m ∈ seen, m.getMsgId = 131)
    : s.step msg = .ok (s.next msg) ∧ Dumped (seen ++ [msg]) (s.next msg) := by
  have writers := dumped.writers.openFor msg
  have contents := dumped.contents.openFor dumped.writers msg
  obtain ⟨config, bound⟩ := Option.isSome_iff_exists.mp (contents.config.mpr bound)
  obtain ⟨own, concerned⟩ := LogMessage.ints_spectrum intensity
  have closed : (s.openFor msg).b = false := by
    rw [← Bool.not_eq_true, writers.flag, silent_concat]
    exact fun silent => silent.2 intensity
  have next : s.next msg = (s.openFor msg).collected own msg := by
    rw [LogDump.next, concerned]
  rw [next, LogDump.step_intensity intensity]
  refine ⟨LogDump.collectSpectrum_eq bound (writers.mega closed) concerned, ?_,
    contents.collected intensity own⟩
  obtain ⟨-, processors, b, -, -⟩ := LogDump.undisturbed_collected (s.openFor msg) own msg
  exact ⟨b ▸ writers.flag, b ▸ processors ▸ writers.mega, processors ▸ writers.own⟩

/-- Any other message, whose type has a writer in the end. -/
theorem step_own (dumped : Dumped seen s) (other : ¬msg.IsIntensity)
    (noPicture : msg.getMsgId ≠ 152) (has : HasWriter (seen ++ [msg]) msg)
    : s.step msg = .ok (s.next msg) ∧ Dumped (seen ++ [msg]) (s.next msg) := by
  have writers := dumped.writers.openFor msg
  have contents := dumped.contents.openFor dumped.writers msg
  have next : s.next msg = ((s.openFor msg).configured msg).written msg := by
    rw [LogDump.next, LogMessage.ints_none other]
  rw [next, LogDump.step_own dumped.contents.idle other noPicture]
  refine ⟨LogDump.writeOwn_eq ?_, ⟨writers.flag, writers.mega, writers.own⟩,
    contents.written noPicture⟩
  exact (writers.own msg).trans (if_pos has)

theorem succeeds (dumped : Dumped seen s) (processes : Processes seen msg)
    : s.step msg = .ok (s.next msg) ∧ Dumped (seen ++ [msg]) (s.next msg) := by
  obtain ⟨noPicture, configBound, writerOpen⟩ := processes
  by_cases intensity : msg.IsIntensity
  · exact dumped.step_intensity intensity (configBound intensity)
  · refine dumped.step_own intensity noPicture (hasWriter_concat.mpr ?_)
    exact (writerOpen intensity).symm.imp_right fun silent => ⟨rfl, intensity, silent⟩

/-- The exceptions: a missing attribute, an unbound variable, a missing key. -/
theorem fails (dumped : Dumped seen s) (stuck : ¬Processes seen msg)
    : ∃ e, s.step msg = .error e := by
  have writers := dumped.writers.openFor msg
  have contents := dumped.contents.openFor dumped.writers msg
  by_cases noPicture : msg.getMsgId ≠ 152
  · by_cases intensity : msg.IsIntensity
    · have unbound : (s.openFor msg).config = none := by
        rw [← Option.not_isSome_iff_eq_none, contents.config]
        exact fun bound => stuck ⟨noPicture, fun _ => bound, absurd intensity⟩
      refine ⟨.unboundLocalError "config", ?_⟩
      rw [LogDump.step_intensity intensity, LogDump.collectSpectrum, unbound]
      rfl
    · have missing : ¬HasWriter (seen ++ [msg]) msg := by
        rw [hasWriter_concat]
        rintro (has | ⟨-, -, silent⟩)
        · exact stuck ⟨noPicture, fun h => absurd h intensity, fun _ => .inr has⟩
        · exact stuck ⟨noPicture, fun h => absurd h intensity, fun _ => .inl silent⟩
      refine ⟨.keyError msg.getMsgId, ?_⟩
      rw [LogDump.step_own dumped.contents.idle intensity noPicture, LogDump.writeOwn]
      exact LogDump.writeRow_unknown ((writers.own msg).trans (if_neg missing))
  · exact ⟨_, LogDump.step_pictureHeader (not_not.mp noPicture)⟩

theorem step_ok_iff (dumped : Dumped seen s)
    : (∃ t, s.step msg = .ok t) ↔ Processes seen msg := by
  refine ⟨fun ⟨t, stepped⟩ => ?_, fun processes => ⟨s.next msg, (dumped.succeeds processes).1⟩⟩
  by_contra stuck
  obtain ⟨e, failed⟩ := dumped.fails stuck
  simp [failed] at stepped

theorem step_eq {t : LogDump} (dumped : Dumped seen s) (stepped : s.step msg = .ok t)
    : t = s.next msg := by
  have processes := dumped.step_ok_iff.mp ⟨t, stepped⟩
  exact Except.ok.inj (stepped.symm.trans (dumped.succeeds processes).1)

theorem step {t : LogDump} (dumped : Dumped seen s) (stepped : s.step msg = .ok t)
    : Dumped (seen ++ [msg]) t := by
  rw [dumped.step_eq stepped]
  exact (dumped.succeeds (dumped.step_ok_iff.mp ⟨t, stepped⟩)).2

end Dumped

/-- The loop gets through a log exactly if it gets through every message of it. -/
theorem mavlogdump_ok_iff (log : List (LogMessage d))
    : (∃ s, mavlogdump log = .ok s)
      ↔ ∀ seen msg rest, log = seen ++ msg :: rest → Processes seen msg :=
  FallibleRun.run_ok_iff Dumped.start (fun _ _ _ _ => Dumped.step)
    fun _ _ _ => Dumped.step_ok_iff

theorem mavlogdump_dumped {log : List (LogMessage d)} (ran : mavlogdump log = .ok s)
    : Dumped log s :=
  FallibleRun.run_invariant Dumped.start (fun _ _ _ _ => Dumped.step) ran

end

/-- Every message that is not one of a spectrum is one row of the file of its type, in the order
of the log.
-/
def Complete {d : Dialect} (log : List (LogMessage d)) (s : LogDump) : Prop :=
  ∀ msg : LogMessage d, ¬msg.IsIntensity
    → s.files (msg.getType ++ ".csv")
      = (log.filter fun m => m.getType = msg.getType).map LogMessage.row

/-- A log is converted, without an exception and completely, exactly if it has no picture
header, if a picture packet precedes the messages of spectra, and if those precede no message
of a type that is new.
-/
theorem converted_iff {d : Dialect} (log : List (LogMessage d))
    : (∃ s, mavlogdump log = .ok s ∧ Complete log s)
      ↔ ∀ seen msg rest, log = seen ++ msg :: rest → Processes seen msg := by
  rw [← mavlogdump_ok_iff]
  exact exists_congr fun s => and_iff_left_of_imp fun ran => (mavlogdump_dumped ran).contents.files

/-- A dialect with one more message, `HEARTBEAT`. -/
def heartbeatDialect : Dialect where
  Other := Unit
  msgId _ := 0
  typeName _ := "HEARTBEAT"
  fieldnames _ :=
    ["type", "autopilot", "base_mode", "custom_mode", "system_status", "mavlink_version"]
  msgId_injective := Function.injective_of_subsingleton _
  typeName_injective := Function.injective_of_subsingleton _
  msgId_other := by decide
  typeName_other := by decide

/-- The first heartbeat comes after the header of a spectrum. -/
def lateHeartbeat : List (LogMessage heartbeatDialect) :=
  [.encapsulatedData ⟨0, List.replicate 253 0⟩, .intensityHeader ⟨0, 0, 0, 2, 1, 242⟩,
    .other () fun _ => .int 0]

theorem lateHeartbeat_not_converted
    : ¬∃ s, mavlogdump lateHeartbeat = .ok s ∧ Complete lateHeartbeat s := by
  have raised : mavlogdump lateHeartbeat = .error (.keyError 0) := rfl
  rintro ⟨s, ran, -⟩
  simp [raised] at ran

example : mavlogdump (d := heartbeatDialect) [.intensityHeader ⟨0, 0, 0, 2, 1, 242⟩]
    = .error (.unboundLocalError "config") := rfl

end Granum.Ground
