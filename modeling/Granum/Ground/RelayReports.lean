import Mathlib

/-! The reports of the relays. The time since the last report is looked at after each receive, and
the last report stays where it is.
-/

namespace Granum.Ground

variable {Msg K : Type}

/-- In which the main loops of the relays differ: whether there is a connection to send on to, and
the period of the reports.
-/
structure Relay (K : Type) where
  forwards : Bool
  reportPeriod : K

def defragMain (reportPeriod : K) : Relay K := { forwards := true, reportPeriod }

def relayMain (reportPeriod : K) : Relay K := { forwards := false, reportPeriod }

/-- The relay of the board, which has no configuration. -/
def boardDefragMain [Field K] : Relay K := { forwards := true, reportPeriod := 5 }

/-- What one pass of the loop gets: a message or a timeout, and then the time. -/
structure RelayPass (Msg K : Type) where
  msg : Option Msg
  now : K

structure RelayReport (K : Type) where
  time : K
  msgCounter : ℕ

structure RelayState (Msg K : Type) where
  lastReportTime : K
  msgCounter : ℕ := 0
  sent : List Msg := []
  reports : List (RelayReport K) := []

variable [Field K] [LinearOrder K] [IsStrictOrderedRing K]

namespace Relay

variable (relay : Relay K)

def receive (s : RelayState Msg K) : Option Msg → RelayState Msg K
  | none => s
  | some msg =>
      { s with
        sent := if relay.forwards then s.sent ++ [msg] else s.sent
        msgCounter := s.msgCounter + 1 }

def report (s : RelayState Msg K) (now : K) : RelayState Msg K :=
  if now - s.lastReportTime > relay.reportPeriod then
    { s with reports := s.reports ++ [{ time := now, msgCounter := s.msgCounter }] }
  else s

/-- The body of the loop. -/
def step (s : RelayState Msg K) (pass : RelayPass Msg K) : RelayState Msg K :=
  relay.report (relay.receive s pass.msg) pass.now

/-- The loop that was entered at the time `start`. -/
def run (start : K) (passes : List (RelayPass Msg K)) : RelayState Msg K :=
  passes.foldl relay.step { lastReportTime := start }

/-- The reports keep their distance, and no message is lost. -/
structure Reliable (start : K) (passes : List (RelayPass Msg K)) : Prop where
  spaced : (relay.run start passes).reports.IsChain fun report next =>
    relay.reportPeriod < next.time - report.time
  counted : (relay.run start passes).msgCounter = (passes.filterMap (·.msg)).length
  sentOn : relay.forwards → (relay.run start passes).sent = passes.filterMap (·.msg)

-----------------------------------------------------------------------------------------
-- What a run holds

section Run

variable {relay} {start : K} {passes : List (RelayPass Msg K)} {pass : RelayPass Msg K}
  {s : RelayState Msg K}

omit [IsStrictOrderedRing K]

theorem run_concat
    : relay.run start (passes ++ [pass]) = relay.step (relay.run start passes) pass := by
  simp [run]

@[simp] theorem report_lastReportTime (now : K)
    : (relay.report s now).lastReportTime = s.lastReportTime := by
  unfold report
  split <;> rfl

@[simp] theorem report_msgCounter (now : K) : (relay.report s now).msgCounter = s.msgCounter := by
  unfold report
  split <;> rfl

@[simp] theorem report_sent (now : K) : (relay.report s now).sent = s.sent := by
  unfold report
  split <;> rfl

omit [Field K] [LinearOrder K] in
@[simp] theorem receive_lastReportTime (msg : Option Msg)
    : (relay.receive s msg).lastReportTime = s.lastReportTime := by
  cases msg <;> rfl

omit [Field K] [LinearOrder K] in
@[simp] theorem receive_reports (msg : Option Msg)
    : (relay.receive s msg).reports = s.reports := by
  cases msg <;> rfl

/-- The last report stays at the start, by induction on the passes. -/
theorem run_lastReportTime : (relay.run start passes).lastReportTime = start := by
  induction passes using List.reverseRecOn with
  | nil => rfl
  | append_singleton passes pass ih =>
      rw [run_concat, step, report_lastReportTime, receive_lastReportTime, ih]

theorem run_msgCounter
    : (relay.run start passes).msgCounter = (passes.filterMap (·.msg)).length := by
  induction passes using List.reverseRecOn with
  | nil => rfl
  | append_singleton passes pass ih =>
      rw [run_concat, step, report_msgCounter]
      cases received : pass.msg with
      | none => simp [receive, ih, received]
      | some msg => simp [receive, ih, received]

theorem run_sent (forwards : relay.forwards)
    : (relay.run start passes).sent = passes.filterMap (·.msg) := by
  induction passes using List.reverseRecOn with
  | nil => rfl
  | append_singleton passes pass ih =>
      rw [run_concat, step, report_sent]
      cases received : pass.msg with
      | none => simp [receive, ih, received]
      | some msg => simp [receive, ih, received, forwards]

/-- There is a report in every pass that is later than a period after the start. -/
theorem run_reports
    : (relay.run start passes).reports.map (·.time)
      = (passes.map (·.now)).filter fun now => relay.reportPeriod < now - start := by
  induction passes using List.reverseRecOn with
  | nil => rfl
  | append_singleton passes pass ih =>
      rw [run_concat, step, report, receive_lastReportTime, run_lastReportTime, List.map_append,
        List.filter_append, ← ih]
      by_cases late : relay.reportPeriod < pass.now - start
      · simp [late]
      · simp [late]

end Run

/-- Where a property is kept from one element to the next, those that have it are neighbours in the
list; by induction on it.
-/
theorem isChain_filter {α : Type} {p : α → Prop} [DecidablePred p] {R : α → α → Prop} {l : List α}
    (kept : l.IsChain fun a b => p a → p b)
    : (l.filter p).IsChain R ↔ l.IsChain fun a b => p a → R a b := by
  induction l with
  | nil => simp
  | cons a l ih =>
      cases l with
      | nil => by_cases holds : p a <;> simp [holds]
      | cons b l =>
          obtain ⟨next, kept⟩ := List.isChain_cons_cons.mp kept
          rw [List.isChain_cons_cons, ← ih kept]
          by_cases holds : p a
          · simp [holds, next holds]
          · simp [holds]

/-- All is right as long as two passes that are later than a period after the start are themselves
more than a period apart.
-/
theorem reliable_iff {start : K} {passes : List (RelayPass Msg K)}
    (nondecreasing : (start :: passes.map (·.now)).IsChain (· ≤ ·))
    : relay.Reliable start passes
      ↔ (passes.map (·.now)).IsChain fun now next =>
        relay.reportPeriod < now - start → relay.reportPeriod < next - now := by
  have kept : (passes.map (·.now)).IsChain fun now next =>
      relay.reportPeriod < now - start → relay.reportPeriod < next - start :=
    nondecreasing.tail.imp fun now next le late => late.trans_le (sub_le_sub_right le start)
  rw [← isChain_filter kept, ← run_reports, List.isChain_map]
  exact ⟨fun reliable => reliable.spaced, fun spaced => ⟨spaced, run_msgCounter, run_sent⟩⟩

end Relay

/-- Messages after five and after twelve seconds, and the time out after twenty-three. -/
def sparsePasses : List (RelayPass Unit ℚ) := [⟨some (), 5⟩, ⟨some (), 12⟩, ⟨none, 23⟩]

theorem reliable_iff_sparsePasses
    : ((0 : ℚ) :: sparsePasses.map (·.now)).IsChain (· ≤ ·)
      ∧ ((defragMain 10).Reliable 0 sparsePasses
        ↔ (sparsePasses.map (·.now)).IsChain fun now next => 10 < now - 0 → 10 < next - now) :=
  have nondecreasing : ((0 : ℚ) :: sparsePasses.map (·.now)).IsChain (· ≤ ·) := by
    simp [sparsePasses]
    norm_num
  ⟨nondecreasing, Relay.reliable_iff (defragMain 10) nondecreasing⟩

/-- After eleven seconds there is a report, and another one after twelve. -/
theorem reports_after_a_second
    : ¬ ∀ (start : ℚ) (passes : List (RelayPass Unit ℚ)),
        (start :: passes.map (·.now)).IsChain (· ≤ ·) → (defragMain 10).Reliable start passes := by
  intro reliable
  have spaced := (reliable 0 [⟨none, 11⟩, ⟨none, 12⟩] (by simp; norm_num)).spaced
  have reports : ((defragMain 10).run 0 [⟨none, 11⟩, ⟨(none : Option Unit), 12⟩]).reports
      = [⟨(11 : ℚ), 0⟩, ⟨12, 0⟩] := by
    simp [Relay.run, Relay.step, Relay.receive, Relay.report, defragMain]
    norm_num
  rw [reports] at spaced
  norm_num [defragMain] at spaced

end Granum.Ground
