import Granum.Ground.LogConversion

/-! The spectra in the converted file are those that the live reassembler hands out. The loop
polls the flag of the offline copy after every packet of a spectrum, so that it is set again
only after it has been cleared.
-/

namespace Granum.Ground

variable {d : Dialect} {seen : List (LogMessage d)} {msg : LogMessage d} {s : LogDump}

/-- The index and the data of a row of the file of the spectra. -/
def spectrumColumns (row : Row) : Option PyValue × Option PyValue :=
  (row.lookup "number", row.lookup "data")

/-- The identifier and the data of a call of the acceptor, as such a row has them. -/
def deliveryColumns (call : Delivery ℕ) : Option PyValue × Option PyValue :=
  (some (.int call.identifier), some (.ints call.data))

/-- What has been written to the file of the spectra. -/
def LogDump.spectra (s : LogDump) : List (Option PyValue × Option PyValue) :=
  (s.files LogDump.megaWriter.path).map spectrumColumns

/-- What is polled is the list that the aggregator refers to. -/
theorem LogDump.spectra_polled (ready : s.aggregator.dataReady = true)
    : s.polled.spectra
      = s.spectra ++ [deliveryColumns ⟨s.aggregator.heap.read s.aggregator.ref, s.i⟩] := by
  have file : s.polled.files megaWriter.path = s.files megaWriter.path ++ [s.megaRow] := by
    rw [polled, if_pos ready]
    exact Function.update_self megaWriter.path _ s.files
  rw [spectra, file, List.map_append]
  rfl

/-- The messages of spectra, as the reassemblers take them. -/
def spectrumMessages (log : List (LogMessage d)) : List (ChannelMessage ℕ) :=
  log.filterMap fun msg => msg.live.ints .spectrum

/-- The channel of values after these messages. -/
def liveChannel (log : List (LogMessage d)) : Channel ℕ :=
  (channel ℕ).finish {} (spectrumMessages log)

/-- What the channel of values delivers for these messages. -/
def liveSpectra (log : List (LogMessage d)) : List (Delivery ℕ) :=
  (channel ℕ).outputs {} (spectrumMessages log)

theorem spectrumMessages_concat {own : ChannelMessage ℕ}
    (concerned : msg.live.ints .spectrum = some own)
    : spectrumMessages (seen ++ [msg]) = spectrumMessages seen ++ [own] := by
  simp [spectrumMessages, concerned]

theorem liveChannel_concat {own : ChannelMessage ℕ}
    (concerned : msg.live.ints .spectrum = some own)
    : liveChannel (seen ++ [msg]) = ((liveChannel seen).accept own).1 := by
  rw [liveChannel, spectrumMessages_concat concerned, Mealy.finish_concat]
  rfl

theorem liveSpectra_concat {own : ChannelMessage ℕ}
    (concerned : msg.live.ints .spectrum = some own)
    : liveSpectra (seen ++ [msg]) = liveSpectra seen ++ ((liveChannel seen).accept own).2 := by
  rw [liveSpectra, spectrumMessages_concat concerned, Mealy.outputs_concat]
  rfl

/-- The offline copy stands for the channel of values, and its flag has been cleared. -/
structure Extracted (seen : List (LogMessage d)) (s : LogDump) : Prop where
  channel : s.aggregator.Represents (liveChannel seen)
  number : (liveChannel seen).listener.numberOfWholePackages = s.i
  cleared : s.aggregator.dataReady = false
  spectra : s.spectra = (liveSpectra seen).map deliveryColumns

namespace Extracted

theorem start : Extracted ([] : List (LogMessage d)) {} where
  channel := OfflineAggregator.represents_start
  number := rfl
  cleared := rfl
  spectra := rfl

/-- The file of the spectra holds nothing yet when it is opened. -/
theorem openFor_mega (extracted : Extracted seen s) (writers : Writers seen s)
    (msg : LogMessage d)
    : (s.openFor msg).files LogDump.megaWriter.path = s.files LogDump.megaWriter.path := by
  generalize next : s.openFor msg = t
  cases next ▸ writers.openFor_cases msg with
  | mega silent intensity =>
      have none : spectrumMessages seen = [] :=
        List.filterMap_eq_nil_iff.mpr fun m member => LogMessage.ints_none (silent m member)
      have empty : s.spectra = [] := by
        rw [extracted.spectra, liveSpectra, none]
        rfl
      rw [List.map_eq_nil_iff.mp empty]
      exact Function.update_self LogDump.megaWriter.path [] s.files
  | own silent other missing =>
      exact Function.update_of_ne LogDump.ownWriter_path_ne_mega.symm _ _
  | nothing settled => rfl

theorem openFor (extracted : Extracted seen s) (writers : Writers seen s) (msg : LogMessage d)
    : Extracted seen (s.openFor msg) := by
  have file := extracted.openFor_mega writers msg
  obtain ⟨channel, number, cleared, spectra⟩ := extracted
  have kept : (s.openFor msg).aggregator = s.aggregator ∧ (s.openFor msg).i = s.i := by
    unfold LogDump.openFor
    split_ifs <;> exact ⟨rfl, rfl⟩
  refine ⟨kept.1 ▸ channel, number.trans kept.2.symm, kept.1 ▸ cleared, ?_⟩
  rw [LogDump.spectra, file]
  exact spectra

/-- Other messages do not reach the file of the spectra. -/
theorem written (extracted : Extracted seen s) (none : msg.live.ints .spectrum = none)
    : Extracted (seen ++ [msg]) ((s.configured msg).written msg) := by
  have same : spectrumMessages (seen ++ [msg]) = spectrumMessages seen := by
    simp [spectrumMessages, none]
  obtain ⟨channel, number, cleared, spectra⟩ := extracted
  refine ⟨?_, ?_, cleared, ?_⟩
  · rwa [liveChannel, same]
  · rwa [liveChannel, same]
  · rw [liveSpectra, same, ← liveSpectra, ← spectra]
    exact congrArg (List.map spectrumColumns)
      (Function.update_of_ne LogDump.ownWriter_path_ne_mega.symm _ _)

/-- A header completes no spectrum. -/
theorem accept_intensityHeader {v : Channel ℕ} {own : ChannelMessage ℕ}
    (concerned : msg.live.ints .spectrum = some own) (header : msg.getMsgId = 153)
    : (v.accept own).2 = [] := by
  cases msg with
  | intensityHeader h =>
      obtain rfl : .header ⟨h.size, h.packets⟩ = own := Option.some.inj concerned
      cases state : v.listener.state with
      | idle => rw [Channel.accept_header_idle state]
      | accum => rw [Channel.accept_header_accum state]
  | other type value => exact absurd header (d.msgId_ne type).2.2.1
  | _ => simp [LogMessage.getMsgId] at header

/-- The flag is set exactly if the live reassembler makes a call. -/
theorem dataReady_iff (extracted : Extracted seen s) (own : ChannelMessage ℕ)
    : ((liveChannel seen).accept own).2 = []
        ∧ (s.aggregator.acceptSpectrum own).dataReady = false
      ∨ (∃ delivery, ((liveChannel seen).accept own).2 = [delivery])
        ∧ (s.aggregator.acceptSpectrum own).dataReady = true := by
  rcases (extracted.channel.acceptSpectrum own).2 with ⟨none, -, same⟩ | ⟨call, -, ready⟩
  · exact .inl ⟨none, same.trans extracted.cleared⟩
  · exact .inr ⟨⟨_, call⟩, ready⟩

/-- A message of a spectrum is taken by both, and what it completes is written at once. -/
theorem collected (extracted : Extracted seen s) {own : ChannelMessage ℕ}
    (concerned : msg.live.ints .spectrum = some own)
    : Extracted (seen ++ [msg]) (s.collected own msg) := by
  have live : liveChannel (seen ++ [msg]) = _ := liveChannel_concat concerned
  have delivered : liveSpectra (seen ++ [msg]) = _ := liveSpectra_concat concerned
  obtain ⟨channel, number, cleared, spectra⟩ := extracted
  obtain ⟨represents, calls⟩ := channel.acceptSpectrum own
  rw [← live, number, cleared] at calls
  rw [← live] at represents
  rcases calls with ⟨none, same, still⟩ | ⟨call, counted, ready⟩
  · -- the flag stays cleared, so that polling it does nothing
    have kept : (liveSpectra (seen ++ [msg])).map deliveryColumns = s.spectra := by
      rw [delivered, none, List.append_nil, spectra]
    rw [LogDump.collected]
    split_ifs with header
    · cases msg <;> exact ⟨represents, same, still, kept.symm⟩
    · rw [LogDump.polled, if_neg (Bool.not_eq_true _ ▸ still)]
      exact ⟨represents, same, still, kept.symm⟩
  · -- only a packet can set the flag, and it is polled then
    have packet : msg.getMsgId ≠ 153 := by
      intro header
      simp [accept_intensityHeader concerned header] at call
    have written : (s.collected own msg).spectra
        = s.spectra ++ ((liveChannel seen).accept own).2.map deliveryColumns := by
      rw [LogDump.collected, if_neg packet, LogDump.spectra_polled ready, call]
      rfl
    rw [spectra, ← List.map_append, ← delivered] at written
    rw [LogDump.collected, if_neg packet] at written ⊢
    rw [LogDump.polled, if_pos ready] at written ⊢
    exact ⟨represents, counted, rfl, written⟩

end Extracted

/-- What both reassemblers have made of the messages that were seen. -/
structure Agrees (seen : List (LogMessage d)) (s : LogDump) : Prop where
  dumped : Dumped seen s
  extracted : Extracted seen s

theorem Agrees.step {t : LogDump} (agrees : Agrees seen s) (stepped : s.step msg = .ok t)
    : Agrees (seen ++ [msg]) t := by
  obtain ⟨dumped, extracted⟩ := agrees
  have opened := extracted.openFor dumped.writers msg
  refine ⟨dumped.step stepped, ?_⟩
  rw [dumped.step_eq stepped, LogDump.next]
  split
  case h_1 own concerned => exact opened.collected concerned
  case h_2 none => exact opened.written none

/-- In every log that is converted, the rows of the spectra are the calls that the live
reassembler makes.
-/
theorem spectra_eq_acceptorCalls {log : List (LogMessage d)} (ran : mavlogdump log = .ok s)
    : s.spectra = (acceptorCalls .spectrum (log.map LogMessage.live)).map deliveryColumns := by
  have start : Agrees ([] : List (LogMessage d)) {} := ⟨.start, .start⟩
  have agrees := FallibleRun.run_invariant start (fun _ _ _ _ => Agrees.step) ran
  rw [acceptorCalls_eq, List.filterMap_map]
  exact agrees.extracted.spectra

/-- With a bound `config`, no message of a spectrum raises an exception. -/
theorem mavlogdump_append_intensity {before msgs : List (LogMessage d)}
    (ran : mavlogdump before = .ok s) (bound : s.config.isSome)
    (intensity : ∀ m ∈ msgs, m.IsIntensity) : ∃ t, mavlogdump (before ++ msgs) = .ok t := by
  have packet := (mavlogdump_dumped ran).contents.config.mp bound
  induction msgs using List.reverseRecOn with
  | nil => exact ⟨s, by rwa [List.append_nil]⟩
  | append_singleton msgs last ih =>
      rw [List.forall_mem_append, List.forall_mem_singleton] at intensity
      obtain ⟨t, ran⟩ := ih intensity.1
      have bound : ∃ m ∈ before ++ msgs, m.getMsgId = 131 :=
        packet.imp fun m found => ⟨List.mem_append_left _ found.1, found.2⟩
      have stepped := ((mavlogdump_dumped ran).step_intensity intensity.2 bound).1
      refine ⟨t.next last, ?_⟩
      rw [← List.append_assoc, mavlogdump, FallibleRun.run_concat, ← mavlogdump, ran]
      exact stepped

/-- From the messages of spectra, the live reassembler and the offline tool get the same
identifiers and data, if `config` has been bound before.
-/
theorem live_offline_agree {before msgs : List (LogMessage d)}
    (ran : mavlogdump before = .ok s) (bound : s.config.isSome)
    (silent : ∀ m ∈ before, ¬m.IsIntensity) (intensity : ∀ m ∈ msgs, m.IsIntensity)
    : ∃ t, mavlogdump (before ++ msgs) = .ok t
      ∧ t.spectra = (acceptorCalls .spectrum (msgs.map LogMessage.live)).map deliveryColumns := by
  obtain ⟨t, ran⟩ := mavlogdump_append_intensity ran bound intensity
  have none : (before.map LogMessage.live).filterMap (Message.ints .spectrum) = [] := by
    rw [List.filterMap_map]
    exact List.filterMap_eq_nil_iff.mpr fun m member => LogMessage.ints_none (silent m member)
  refine ⟨t, ran, ?_⟩
  rw [spectra_eq_acceptorCalls ran, acceptorCalls_eq, acceptorCalls_eq, List.map_append,
    List.filterMap_append, none, List.nil_append]

/-- A spectrum of one packet after a packet of a picture. -/
theorem live_offline_agree_one
    : ∃ t, mavlogdump (d := heartbeatDialect)
        ([.encapsulatedData ⟨0, List.replicate 253 0⟩]
          ++ [.intensityHeader ⟨0, 0, 0, 2, 1, 242⟩,
            .intensityEncapsulatedData ⟨0, [7, 8] ++ List.replicate 124 0⟩])
        = .ok t
      ∧ t.spectra = [(some (.int 0), some (.ints [7, 8]))] :=
  live_offline_agree rfl rfl (by decide) (by decide)

end Granum.Ground
