import Granum.Ground.LiveOffline

/-! Whose header a row of the file of the spectra carries. The loop notes every header, the
listener opens a spectrum only for one that finds it idle.
-/

namespace Granum.Ground

/-- A spectrum that has been completed: the header that put the listener into `ACCUM` for it,
and the last one that came before its last packet.
-/
structure Completion where
  opening : HeaderFields
  latest : HeaderFields
  deriving DecidableEq, Repr

/-- A channel of spectra with its headers; zeros stand for those that have not come yet. -/
structure HeaderHistory where
  channel : Channel ℕ := {}
  opening : HeaderFields := ⟨0, 0, 0, 0, 0, 0⟩
  latest : HeaderFields := ⟨0, 0, 0, 0, 0, 0⟩
  deriving DecidableEq, Repr

/-- A message of a log, with the spectrum that it completes. -/
def HeaderHistory.accept {d : Dialect} (h : HeaderHistory) (msg : LogMessage d)
    : HeaderHistory × List Completion :=
  match msg, msg.live.ints .spectrum with
  | .intensityHeader fields, some own =>
      ({ channel := (h.channel.accept own).1
         opening := if h.channel.listener.state = .idle then fields else h.opening
         latest := fields }, [])
  | _, some own =>
      ({ h with channel := (h.channel.accept own).1 },
        (h.channel.accept own).2.map fun _ => ⟨h.opening, h.latest⟩)
  | _, none => (h, [])

def headerHistory (d : Dialect) : Mealy HeaderHistory (LogMessage d) Completion :=
  ⟨HeaderHistory.accept⟩

/-- The spectra that are completed in a log. -/
def completions {d : Dialect} (log : List (LogMessage d)) : List Completion :=
  (headerHistory d).outputs {} log

/-- The three values of a header that a row has. -/
def HeaderFields.values (h : HeaderFields) : ℕ × ℕ × ℕ := (h.timeBootMs, h.servo, h.yUpleftCrop)

/-- Values of a header in the columns of a row. -/
def headerColumns (values : ℕ × ℕ × ℕ) : List (Option PyValue) :=
  [some (.int values.1), some (.int values.2.1), some (.int values.2.2)]

theorem headerColumns_injective : Function.Injective headerColumns := by
  rintro ⟨a, b, c⟩ ⟨a', b', c'⟩ same
  simpa [headerColumns] using same

/-- The columns of the row that is written when a spectrum is completed. -/
def Completion.columns (c : Completion) : List (Option PyValue) := headerColumns c.latest.values

/-- The columns of the header in the rows of the file of the spectra. -/
def LogDump.headers (s : LogDump) : List (List (Option PyValue)) :=
  (s.files megaWriter.path).map fun row =>
    [row.lookup "time_boot_ms", row.lookup "servo", row.lookup "y_upleft_crop"]

variable {d : Dialect} {seen : List (LogMessage d)} {msg : LogMessage d} {s : LogDump}

/-- The variables hold the values of the last header, and so do the rows. -/
structure Carries (seen : List (LogMessage d)) (s : LogDump) : Prop where
  channel : ((headerHistory d).finish {} seen).channel = liveChannel seen
  values : ((headerHistory d).finish {} seen).latest.values
    = (s.timeBootMs, s.servo, s.yUpleftCrop)
  headers : s.headers = (completions seen).map Completion.columns

namespace Carries

theorem start : Carries ([] : List (LogMessage d)) {} := ⟨rfl, rfl, rfl⟩

/-- Opening files changes neither the variables nor the rows. -/
theorem openFor (carries : Carries seen s) (extracted : Extracted seen s)
    (writers : Writers seen s) (msg : LogMessage d) : Carries seen (s.openFor msg) := by
  obtain ⟨channel, values, headers⟩ := carries
  have file := extracted.openFor_mega writers msg
  refine ⟨channel, ?_, ?_⟩
  · rw [values]
    unfold LogDump.openFor
    split_ifs <;> rfl
  · rw [LogDump.headers, file]
    exact headers

/-- Other messages are no headers, and complete nothing. -/
theorem written (carries : Carries seen s) (none : msg.live.ints .spectrum = none)
    : Carries (seen ++ [msg]) ((s.configured msg).written msg) := by
  have passed : ∀ h : HeaderHistory, h.accept msg = (h, []) := by
    intro h
    cases msg <;> first | rfl | cases none
  have live : liveChannel (seen ++ [msg]) = liveChannel seen := by
    simp [liveChannel, spectrumMessages, none]
  obtain ⟨channel, values, headers⟩ := carries
  have file : ((s.configured msg).written msg).files LogDump.megaWriter.path
      = s.files LogDump.megaWriter.path :=
    Function.update_of_ne LogDump.ownWriter_path_ne_mega.symm _ _
  refine ⟨?_, ?_, ?_⟩
  · rw [Mealy.finish_concat, live, ← channel]
    exact congrArg (·.1.channel) (passed _)
  · rw [Mealy.finish_concat]
    exact (congrArg (·.1.latest.values) (passed _)).trans values
  · rw [LogDump.headers, file, completions, Mealy.outputs_concat]
    have silent : ((headerHistory d).step ((headerHistory d).finish {} seen) msg).2 = [] :=
      congrArg Prod.snd (passed _)
    rw [silent, List.append_nil]
    exact headers

/-- A row that is written has the values of the variables. -/
theorem headers_polled (ready : s.aggregator.dataReady = true)
    : s.polled.headers = s.headers ++ [headerColumns (s.timeBootMs, s.servo, s.yUpleftCrop)] := by
  have file : s.polled.files LogDump.megaWriter.path
      = s.files LogDump.megaWriter.path ++ [s.megaRow] := by
    rw [LogDump.polled, if_pos ready]
    exact Function.update_self LogDump.megaWriter.path _ s.files
  rw [LogDump.headers, file, List.map_append]
  rfl

/-- A header is noted in any case, and a packet adds a row if it completes a spectrum. -/
theorem collected (carries : Carries seen s) (extracted : Extracted seen s)
    {own : ChannelMessage ℕ} (concerned : msg.live.ints .spectrum = some own)
    : Carries (seen ++ [msg]) (s.collected own msg) := by
  obtain ⟨channel, values, headers⟩ := carries
  have live : liveChannel (seen ++ [msg]) = _ := liveChannel_concat concerned
  cases msg with
  | intensityHeader h =>
      obtain rfl : .header ⟨h.size, h.packets⟩ = own := Option.some.inj concerned
      refine ⟨?_, ?_, ?_⟩
      · rw [live, ← channel, Mealy.finish_concat]
        rfl
      · rw [Mealy.finish_concat]
        rfl
      · rw [completions, Mealy.outputs_concat]
        exact headers.trans (congrArg (List.map _) (List.append_nil _).symm)
  | intensityEncapsulatedData packet =>
      obtain rfl : .data ⟨packet.seqnr, packet.data.map UInt16.toNat⟩ = own :=
        Option.some.inj concerned
      set own : ChannelMessage ℕ := .data ⟨packet.seqnr, packet.data.map UInt16.toNat⟩
      set before := (headerHistory d).finish {} seen
      have completed : completions (seen ++ [.intensityEncapsulatedData packet])
          = completions seen
            ++ ((liveChannel seen).accept own).2.map fun _ => ⟨before.opening, before.latest⟩ := by
        rw [completions, Mealy.outputs_concat, ← channel]
        rfl
      set taken : LogDump := { s with aggregator := s.aggregator.acceptSpectrum own }
      have result : s.collected own (.intensityEncapsulatedData packet : LogMessage d)
          = taken.polled := rfl
      rw [result]
      refine ⟨?_, ?_, ?_⟩
      · rw [live, ← channel, Mealy.finish_concat]
        rfl
      · rw [Mealy.finish_concat]
        refine values.trans ?_
        unfold LogDump.polled
        split_ifs <;> rfl
      · rw [completed, List.map_append, ← headers]
        rcases extracted.dataReady_iff own with ⟨none, still⟩ | ⟨⟨delivery, call⟩, ready⟩
        · rw [none, LogDump.polled, if_neg (Bool.not_eq_true _ ▸ still)]
          exact (List.append_nil _).symm
        · rw [call, headers_polled ready, List.map_singleton, List.map_singleton]
          exact congrArg (fun values => s.headers ++ [headerColumns values]) values.symm
  | _ => cases concerned

end Carries

/-- What the loop has made of the messages that were seen, with the headers of the rows. -/
structure Titled (seen : List (LogMessage d)) (s : LogDump) : Prop where
  agrees : Agrees seen s
  carries : Carries seen s

theorem Titled.step {t : LogDump} (titled : Titled seen s) (stepped : s.step msg = .ok t)
    : Titled (seen ++ [msg]) t := by
  obtain ⟨agrees, carries⟩ := titled
  refine ⟨agrees.step stepped, ?_⟩
  have opened := agrees.extracted.openFor agrees.dumped.writers msg
  have carries := carries.openFor agrees.extracted agrees.dumped.writers msg
  rw [agrees.dumped.step_eq stepped, LogDump.next]
  split
  case h_1 own concerned => exact carries.collected opened concerned
  case h_2 none => exact carries.written none

/-- A row has the values of the last header that came before its spectrum was completed. -/
theorem headers_eq {log : List (LogMessage d)} (ran : mavlogdump log = .ok s)
    : s.headers = (completions log).map Completion.columns := by
  have start : Titled ([] : List (LogMessage d)) {} := ⟨⟨.start, .start⟩, .start⟩
  have titled := FallibleRun.run_invariant start (fun _ _ _ _ => Titled.step) ran
  exact titled.carries.headers

/-- In a converted log, every row of a spectrum carries the header that put the listener into
`ACCUM` for it, exactly if each time a spectrum is completed the last header that came has the
values of that one.
-/
theorem own_headers_iff {log : List (LogMessage d)} (ran : mavlogdump log = .ok s)
    : s.headers = (completions log).map (fun c => headerColumns c.opening.values)
      ↔ ∀ c ∈ completions log, c.latest.values = c.opening.values := by
  rw [headers_eq ran, List.map_inj_left]
  exact forall₂_congr fun c _ => headerColumns_injective.eq_iff

/-- A log with one spectrum. -/
def oneSpectrum : List (LogMessage heartbeatDialect) :=
  [.encapsulatedData ⟨0, List.replicate 253 0⟩, .intensityHeader ⟨1000, 10, 5, 2, 1, 242⟩,
    .intensityEncapsulatedData ⟨0, [1, 2] ++ List.replicate 124 0⟩]

theorem own_headers_iff_one
    : ∃ s, mavlogdump oneSpectrum = .ok s
        ∧ (s.headers = [headerColumns (1000, 10, 5)]
          ↔ ∀ c ∈ [Completion.mk ⟨1000, 10, 5, 2, 1, 242⟩ ⟨1000, 10, 5, 2, 1, 242⟩],
              c.latest.values = c.opening.values) := by
  obtain ⟨s, ran⟩ : ∃ s, mavlogdump oneSpectrum = .ok s := ⟨_, rfl⟩
  exact ⟨s, ran, own_headers_iff ran⟩

/-- The last packet of the first spectrum and the first one of the second are lost. -/
def mixedSpectra : List (LogMessage heartbeatDialect) :=
  [.encapsulatedData ⟨0, List.replicate 253 0⟩, .intensityHeader ⟨1000, 10, 5, 252, 2, 242⟩,
    .intensityEncapsulatedData ⟨0, List.replicate 126 1⟩,
    .intensityHeader ⟨2000, 20, 5, 252, 2, 242⟩,
    .intensityEncapsulatedData ⟨1, List.replicate 126 4⟩]

/-- The row of the first spectrum has the values of the second header. -/
theorem mixedSpectra_other_header
    : ∃ s, mavlogdump mixedSpectra = .ok s
        ∧ s.headers ≠ (completions mixedSpectra).map fun c => headerColumns c.opening.values := by
  obtain ⟨s, ran⟩ : ∃ s, mavlogdump mixedSpectra = .ok s := ⟨_, rfl⟩
  have completed : completions mixedSpectra
      = [⟨⟨1000, 10, 5, 252, 2, 242⟩, ⟨2000, 20, 5, 252, 2, 242⟩⟩] := rfl
  refine ⟨s, ran, ?_⟩
  rw [headers_eq ran, completed]
  simp [Completion.columns, headerColumns, HeaderFields.values]

end Granum.Ground
