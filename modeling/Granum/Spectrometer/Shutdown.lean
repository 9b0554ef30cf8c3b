import Granum.Spectrometer.IteratorValidity

/-! What is left of the sessions after `stop`. A handler that runs later clears the list if
its write was aborted, and a message that is still queued walks the closed sockets and
erases each of them.
-/

namespace Granum.Spectrometer

variable {μ : Type} {s t : Server μ}

/-- The answer of the check that the destructor repeats until it is `okay`. -/
inductive TheState
  | okay
  | again
  deriving DecidableEq, Repr

/-- The check of the destructor. -/
def Server.check (s : Server μ) : TheState :=
  if s.sessions.length = 0 then .okay else .again

/-- Every handler has run. What may be left is the handler of an accept on the closed
acceptor, which arms itself again for ever.
-/
def Server.Drained (s : Server μ) : Prop :=
  s.writes = [] ∧ s.queue = [] ∧ (s.accepting = none ∨ s.accepting = some (some .other))

/-- `stop` runs while no finished operation waits for its handler, and while there is a write
to abort, no session to close or a message queued.
-/
def Server.Stoppable (s : Server μ) : Prop :=
  s.NoneFinished ∧ s.accepting ≠ some (some .success)
    ∧ (s.writes ≠ [] ∨ s.sessions = [] ∨ s.queue ≠ [])

instance [DecidableEq μ] (s : Server μ) : Decidable s.Stoppable :=
  inferInstanceAs (Decidable (s.NoneFinished ∧ _))

/-- How the list of a stopped server becomes empty. -/
inductive Draining (s : Server μ) : Prop
  | empty (none : s.sessions = [])
  | walking (node : ℕ) (rest : List ℕ) (message : Option μ)
      (closed : ∀ x ∈ s.sessions, x.isOpen = false) (nodes : s.nodes = node :: rest)
      (one : s.writes = [⟨node, message, some .other⟩])
  | queued (closed : ∀ x ∈ s.sessions, x.isOpen = false) (idle : s.writes = [])
      (silent : s.currentMessage = none) (waiting : s.queue ≠ [])

/-- The invariant of a stopped server. -/
structure Stopped (s : Server μ) : Prop where
  tracked : Tracked s
  acceptorClosed : s.acceptorOpen = false
  notWaiting : s.accepting ≠ some none
  notAccepted : s.accepting ≠ some (some .success)
  draining : Draining s

/-- The list has been emptied when no handler is left. -/
theorem Stopped.sessions_eq (stopped : Stopped s) (drained : s.Drained) : s.sessions = [] := by
  obtain ⟨noWrite, noMessage, _⟩ := drained
  cases stopped.draining with
  | empty none => exact none
  | walking _ _ _ _ _ one => simp [noWrite] at one
  | queued _ _ _ waiting => exact absurd noMessage waiting

/-- A walk over closed sockets goes on at the front of the list. -/
theorem Draining.chain (closed : ∀ x ∈ s.sessions, x.isOpen = false) (idle : s.writes = [])
    : Draining (s.doChainWs s.first).1 := by
  cases nodes : s.nodes with
  | nil =>
      have none : s.sessions = [] := List.map_eq_nil_iff.mp nodes
      simp only [Server.first, nodes, List.head?_nil]
      exact .empty none
  | cons node rest =>
      have first : s.first = some node := by simp [Server.first, nodes]
      rw [first, Server.doChainWs_closed (Server.isOpenAt_of_closed closed node)]
      exact .walking node rest s.currentMessageBuffers closed nodes (by simp [idle])

/-- The accept of a closed acceptor only fails again. -/
theorem Stopped.accept {err : ErrorCode} (stopped : Stopped s)
    (finished : s.accepting = some (some err))
    : Draining ({ s with accepting := none }.acceptHandler err).1
      ∧ ({ s with accepting := none }.acceptHandler err).1.accepting
        ∈ [none, some (some .other)] := by
  have closed := stopped.acceptorClosed
  have same {t : Server μ} (sessions : t.sessions = s.sessions) (writes : t.writes = s.writes)
      (message : t.currentMessage = s.currentMessage) (queue : t.queue = s.queue)
      : Draining t := by
    have nodes : t.nodes = s.nodes := congrArg (List.map Session.node) sessions
    cases stopped.draining with
    | empty none => exact .empty (sessions ▸ none)
    | walking node rest msg shut listed one =>
        exact .walking node rest msg (sessions ▸ shut) (nodes ▸ listed) (writes ▸ one)
    | queued shut idle silent waiting =>
        exact .queued (sessions ▸ shut) (writes ▸ idle) (message ▸ silent) (queue ▸ waiting)
  cases err with
  | success => exact absurd finished stopped.notAccepted
  | operationAborted => exact ⟨same rfl rfl rfl rfl, by simp [Server.acceptHandler]⟩
  | other =>
      exact ⟨same rfl rfl rfl rfl, by simp [Server.acceptHandler, Server.doAcceptWs, closed]⟩

/-- A queued message walks the closed sockets, or is dropped. -/
theorem Stopped.sent {msg : μ} {rest : List μ} (stopped : Stopped s)
    : Draining ((s.dequeue rest).sendHandler msg).1 := by
  by_cases busy : s.currentMessage.isSome
  · rw [Server.sendHandler_busy (s := s.dequeue rest) busy]
    cases stopped.draining with
    | empty none => exact .empty none
    | walking node rest message closed nodes one =>
        exact .walking node rest message closed nodes one
    | queued _ _ silent _ => simp [silent] at busy
  · have idle : s.writes = [] := not_not.mp (mt stopped.tracked.busy busy)
    have silent : (s.dequeue rest).currentMessage = none := by simpa [Server.dequeue] using busy
    have closed : ∀ x ∈ s.sessions, x.isOpen = false := by
      cases stopped.draining with
      | empty none => simp [none]
      | walking _ _ _ closed _ _ => exact closed
      | queued closed _ _ _ => exact closed
    rw [Server.sendHandler_idle silent]
    exact Draining.chain (s := (s.dequeue rest).setMessage msg) closed idle

/-- No write of a stopped server is unfinished. -/
theorem Stopped.finished {index current : ℕ} {message : Option μ} (stopped : Stopped s)
    : s.writes[index]? ≠ some ⟨current, message, none⟩ := by
  intro found
  obtain ⟨rfl, one⟩ := stopped.tracked.only found
  have listed := (stopped.tracked.listed ⟨current, message, none⟩ (by simp [one])).resolve_left
    nofun
  cases stopped.draining with
  | empty none => simp [Server.nodes, none] at listed
  | walking _ _ _ _ _ other => simp [one] at other
  | queued _ idle _ _ => simp [one] at idle

/-- A write of a stopped server that is not aborted belongs to a walk over closed sockets. -/
theorem Stopped.walking {current : ℕ} {message : Option μ} {err : ErrorCode}
    (stopped : Stopped s) (one : s.writes = [⟨current, message, some err⟩])
    (notAborted : err ≠ .operationAborted)
    : ∃ node rest, (∀ x ∈ s.sessions, x.isOpen = false) ∧ s.nodes = node :: rest
      ∧ current = node ∧ err = .other := by
  have listed := (stopped.tracked.listed ⟨current, message, some err⟩
    (by simp [one])).resolve_left (by simpa using notAborted)
  cases stopped.draining with
  | empty none => simp [Server.nodes, none] at listed
  | queued _ idle _ _ => simp [one] at idle
  | walking node rest msg closed nodes only =>
      rw [one] at only
      obtain ⟨same, _, failed⟩ : current = node ∧ message = msg ∧ err = .other := by
        simpa using only
      exact ⟨node, rest, closed, nodes, same, failed⟩

/-- The handler of an aborted write clears the list; a failed walk goes on. -/
theorem Stopped.handled {index current : ℕ} {message : Option μ} {err : ErrorCode}
    (stopped : Stopped s) (found : s.writes[index]? = some ⟨current, message, some err⟩)
    : Draining ((s.retire index).writeHandler current err).1 := by
  obtain ⟨rfl, one⟩ := stopped.tracked.only found
  by_cases aborted : err = .operationAborted
  · subst aborted
    exact .empty rfl
  · obtain ⟨node, rest, closed, nodes, rfl, rfl⟩ := stopped.walking one aborted
    have split : (s.retire 0).nodes = [] ++ current :: rest := nodes
    have listed : current ∈ (s.retire 0).nodes := by simp [split]
    have next := Server.next_of_split (s := s.retire 0) stopped.tracked.nodup split
    have left := Server.erase_nodes_of_split (s := s.retire 0) stopped.tracked.nodup split
    have front : rest.head? = ((s.retire 0).erase current).first := by
      rw [Server.first, left, List.nil_append]
    rw [Server.writeHandler_other listed, next, front]
    exact Draining.chain (fun x member => closed x (List.mem_of_mem_filter member))
      (by simp [Server.retire, Server.erase, one])

/-- What `stop` leaves: an aborted write or an empty list clears it, a queued message walks
it.
-/
theorem stop_draining (busy : s.writes ≠ [] → s.currentMessage.isSome)
    (left : s.writes ≠ [] ∨ s.sessions = [] ∨ s.queue ≠ [])
    : Draining s.stopHandler := by
  unfold Server.stopHandler
  split
  · exact .empty rfl
  · next idle =>
      have noWrite : s.writes = [] := not_not.mp (mt busy idle)
      rcases left.resolve_left (not_not.mpr noWrite) with none | waiting
      · exact .empty (by simp [Server.closeAll, none])
      · exact .queued Server.closeAll_closed (by simp [Server.closeAll, noWrite])
          (by simpa [Server.closeAll] using idle) waiting

theorem stop_accepting (notAccepted : s.accepting ≠ some (some .success))
    : s.stopHandler.accepting ≠ some none ∧ s.stopHandler.accepting ≠ some (some .success) := by
  have same : s.stopHandler.accepting = s.closeAll.accepting := by
    unfold Server.stopHandler
    split <;> rfl
  rw [same, Server.closeAll]
  rcases accepting : s.accepting with _ | _ | err
  · exact ⟨by simp, by simp⟩
  · exact ⟨by simp, by simp⟩
  · simpa [accepting] using notAccepted

theorem stop_acceptorOpen : s.stopHandler.acceptorOpen = false := by
  unfold Server.stopHandler
  split <;> rfl

/-- The steps of a run in which `stop` only runs while the server is stoppable. -/
def StopsStoppable (s : Server μ) (event : Event μ) : Prop := event = .stop → s.Stoppable

instance [DecidableEq μ] (s : Server μ) (event : Event μ) : Decidable (StopsStoppable s event) :=
  inferInstanceAs (Decidable (_ → _))

/-- A `stop` that is allowed, the first one or another. -/
theorem Tracked.stopped (tracked : Tracked s) (stoppable : s.Stoppable)
    : Stopped s.stopHandler := by
  obtain ⟨finished, notAccepted, left⟩ := stoppable
  obtain ⟨notWaiting, notAccepted⟩ := stop_accepting notAccepted
  exact ⟨tracked.stop finished, stop_acceptorOpen, notWaiting,
    notAccepted, stop_draining tracked.busy left⟩

/-- Every step keeps the invariant of a stopped server. -/
theorem Stopped.reaction {event : Event μ} {answer : Server μ × List (Observed μ)}
    (stopped : Stopped s) (allowed : StopsStoppable s event)
    (reaction : Server.Reaction s event answer)
    : Stopped answer.1 := by
  have tracked := stopped.tracked.reaction (fun stops => (allowed stops).1) reaction
  cases reaction with
  | connected waiting | acceptFailed waiting => exact absurd waiting stopped.notWaiting
  | accepted err finished =>
      obtain ⟨draining, accepting⟩ := stopped.accept finished
      refine ⟨tracked, ?_, ?_, ?_, draining⟩
      · cases err <;> exact stopped.acceptorClosed
      · intro waiting
        simp [waiting] at accepting
      · intro accepted
        simp [accepted] at accepting
  | queued msg =>
      refine ⟨tracked, stopped.acceptorClosed, stopped.notWaiting, stopped.notAccepted, ?_⟩
      cases stopped.draining with
      | empty none => exact .empty none
      | walking node rest message closed nodes one =>
          exact .walking node rest message closed nodes one
      | queued closed idle silent _ => exact .queued closed idle silent (by simp)
  | sent msg rest _ =>
      obtain ⟨acceptor, accepting⟩ := (s.dequeue rest).sendHandler_acceptor msg
      exact ⟨tracked, acceptor.trans stopped.acceptorClosed, accepting ▸ stopped.notWaiting,
        accepting ▸ stopped.notAccepted, stopped.sent⟩
  | completed _ _ _ found | failed _ _ _ found => exact absurd found stopped.finished
  | handled index current message err found =>
      obtain ⟨acceptor, accepting⟩ := (s.retire index).writeHandler_acceptor current err
      exact ⟨tracked, acceptor.trans stopped.acceptorClosed, accepting ▸ stopped.notWaiting,
        accepting ▸ stopped.notAccepted, stopped.handled found⟩
  | stopped => exact stopped.tracked.stopped (allowed rfl)

/-- Only `stop` closes the acceptor. -/
theorem acceptorOpen_of_reaction {event : Event μ} {answer : Server μ × List (Observed μ)}
    (serves : event ≠ .stop) (reaction : Server.Reaction s event answer)
    : answer.1.acceptorOpen = s.acceptorOpen := by
  cases reaction with
  | connected _ | acceptFailed _ | queued _ | completed _ _ _ _ | failed _ _ _ _ => rfl
  | accepted err _ => cases err <;> rfl
  | sent msg rest _ => exact ((s.dequeue rest).sendHandler_acceptor msg).1
  | handled index current _ err _ => exact ((s.retire index).writeHandler_acceptor current err).1
  | stopped => exact absurd rfl serves

theorem stopped_run {events : List (Event μ)} {seen : List (Observed μ)}
    (run : (serverSystem μ).RunWhere StopsStoppable events seen s)
    (closed : s.acceptorOpen = false)
    : Stopped s := by
  induction run with
  | start => cases closed
  | @concat events _ _ s t event before holds taken ih =>
      obtain ⟨_, reaction⟩ := Server.step_reaction taken
      by_cases stops : event = .stop
      · subst stops
        have tracked := tracked_run (before.mono fun s _ holds stops => (holds stops).1)
        cases reaction with
        | stopped => exact tracked.stopped (holds rfl)
      · have earlier := (acceptorOpen_of_reaction stops reaction).symm.trans closed
        exact (ih earlier).reaction holds reaction

/-- The handlers of a stopped server that make progress: all but the accept that arms itself
again.
-/
def Server.Pending (s : Server μ) : Event μ → Prop
  | .runSend | .runWrite _ => True
  | .runAccept => s.accepting = some (some .operationAborted)
  | _ => False

/-- A bound for the number of these handlers that can still run. -/
def Server.remaining (s : Server μ) : ℕ :=
  2 * s.queue.length + s.writes.length + s.sessions.length
    + if s.accepting = some (some .operationAborted) then 1 else 0

theorem remaining_lt_of (accepting : t.accepting = s.accepting)
    (fewer : 2 * t.queue.length + t.writes.length + t.sessions.length
      < 2 * s.queue.length + s.writes.length + s.sessions.length)
    : t.remaining < s.remaining := by
  unfold Server.remaining
  rw [accepting]
  exact Nat.add_lt_add_right fewer _

/-- Each of these handlers lowers the bound: a message starts one write, and each write of a
stopped server clears the list or erases a session.
-/
theorem Stopped.remaining_lt {event : Event μ} {answer : Server μ × List (Observed μ)}
    (stopped : Stopped s) (pending : s.Pending event) (reaction : Server.Reaction s event answer)
    : answer.1.remaining < s.remaining := by
  cases reaction with
  | connected _ | acceptFailed _ | queued _ | completed _ _ _ _ | failed _ _ _ _ | stopped =>
      cases pending
  | accepted err finished =>
      obtain rfl : err = .operationAborted := by
        simpa [finished] using (show s.accepting = some (some .operationAborted) from pending)
      simp [Server.remaining, Server.acceptHandler, finished]
  | sent msg rest oldest =>
      have accepting : ((s.dequeue rest).sendHandler msg).1.accepting = s.accepting :=
        ((s.dequeue rest).sendHandler_acceptor msg).2
      apply remaining_lt_of accepting
      by_cases busy : s.currentMessage.isSome
      · rw [Server.sendHandler_busy (s := s.dequeue rest) busy, oldest]
        simp only [Server.dequeue, List.length_cons]
        omega
      · have idle : (s.dequeue rest).currentMessage = none := by
          simpa [Server.dequeue] using busy
        have empty : s.writes = [] := not_not.mp (mt stopped.tracked.busy busy)
        obtain ⟨queue, sessions, writes⟩ :=
          ((s.dequeue rest).setMessage msg).doChainWs_sizes (s.dequeue rest).first
        rw [Server.sendHandler_idle idle, queue, sessions, oldest, empty]
        simp only [Server.dequeue, Server.setMessage, empty, List.length_nil,
          List.length_cons] at writes ⊢
        omega
  | handled index current message err found =>
      have accepting : ((s.retire index).writeHandler current err).1.accepting = s.accepting :=
        ((s.retire index).writeHandler_acceptor current err).2
      apply remaining_lt_of accepting
      obtain ⟨rfl, one⟩ := stopped.tracked.only found
      have empty : (s.retire 0).writes = [] := by simp [Server.retire, one]
      rw [one, List.length_singleton]
      by_cases aborted : err = .operationAborted
      · subst aborted
        simp only [Server.writeHandler, empty, List.length_nil]
        simp [Server.retire]
        omega
      · obtain ⟨node, rest, closed, nodes, rfl, rfl⟩ := stopped.walking one aborted
        have member : current ∈ (s.retire 0).nodes := by
          change current ∈ s.nodes
          simp [nodes]
        have left := Server.erase_nodes_of_split (s := s.retire 0) stopped.tracked.nodup
          (show (s.retire 0).nodes = [] ++ current :: rest from nodes)
        obtain ⟨queue, sessions, writes⟩ :=
          ((s.retire 0).erase current).doChainWs_sizes ((s.retire 0).next current)
        have before : s.sessions.length = rest.length + 1 := by
          rw [← List.length_map Session.node]
          exact congrArg List.length nodes
        have after : ((s.retire 0).erase current).sessions.length = rest.length := by
          rw [← List.length_map Session.node]
          exact congrArg List.length left
        have silent : ((s.retire 0).erase current).writes.length = 0 :=
          congrArg List.length empty
        have waiting : ((s.retire 0).erase current).queue.length = s.queue.length := rfl
        rw [Server.writeHandler_other member, queue, sessions, before, after, waiting]
        rw [silent] at writes
        omega

/-- While a handler is left, one of them can run. -/
theorem Stopped.progress (stopped : Stopped s)
    : s.Drained ∨ ∃ event, s.Pending event ∧ (s.step event).isSome := by
  by_contra stuck
  obtain ⟨left, none⟩ := not_or.mp stuck
  have idle (event : Event μ) (pending : s.Pending event) : s.react event = Option.none := by
    by_contra runs
    apply none ⟨event, pending, ?_⟩
    simpa [Server.step, stopped.tracked.defined] using Option.isSome_iff_ne_none.mpr runs
  apply left
  refine ⟨?_, ?_, ?_⟩
  · cases writes : s.writes with
    | nil => rfl
    | cons w rest =>
        have first : s.writes[0]? = some w := by simp [writes]
        obtain ⟨current, message, _ | err⟩ := w
        · exact absurd first stopped.finished
        · have blocked := idle (.runWrite 0) trivial
          simp [Server.react, first] at blocked
  · cases queue : s.queue with
    | nil => rfl
    | cons msg rest =>
        have blocked := idle .runSend trivial
        simp [Server.react, queue] at blocked
  · rcases accepting : s.accepting with _ | _ | err
    · exact Or.inl rfl
    · exact absurd accepting stopped.notWaiting
    · cases err with
      | success => exact absurd accepting stopped.notAccepted
      | other => exact Or.inr rfl
      | operationAborted =>
          have blocked := idle .runAccept accepting
          simp [Server.react, accepting] at blocked

/-- In every run in which `stop` only runs while the server is stoppable, the list is empty
once `stop` has run and every handler after it, so the check of the destructor ends its
loop; and each handler that is left lowers a bound for their number. Witness: an aborted
write clears the list, and a walk over closed sockets erases them one by one.
-/
theorem shutdown_completes {events : List (Event μ)} {seen : List (Observed μ)}
    (run : (serverSystem μ).RunWhere StopsStoppable events seen s)
    (closed : s.acceptorOpen = false)
    : (s.Drained → s.sessions = [] ∧ s.check = .okay)
      ∧ (s.Drained ∨ ∃ event, s.Pending event ∧ (s.step event).isSome)
      ∧ ∀ event t out, s.Pending event → s.step event = some (t, out)
        → t.remaining < s.remaining := by
  have stopped := stopped_run run closed
  refine ⟨?_, stopped.progress, ?_⟩
  · intro drained
    have none := stopped.sessions_eq drained
    exact ⟨none, by simp [Server.check, none]⟩
  · intro event t out pending taken
    exact stopped.remaining_lt pending (Server.step_reaction taken).2

/-- `stop` aborts the only write, and then its handler and that of the accept run. -/
theorem shutdown_completes_aborted
    : let s : Server String :=
        { acceptorOpen := false
          accepting := none
          currentMessage := some "frame"
          currentMessageBuffers := some "frame"
          nextNode := 1 }
      (serverSystem String).RunWhere StopsStoppable
          [.connect, .runAccept, .sendMessage "frame", .runSend, .stop, .runWrite 0, .runAccept]
          [.accepted 0, .sent "frame"] s
        ∧ s.Drained ∧ s.sessions = [] ∧ s.check = .okay := by
  intro s
  have run : (serverSystem String).RunWhere StopsStoppable
      [.connect, .runAccept, .sendMessage "frame", .runSend, .stop, .runWrite 0, .runAccept]
      [.accepted 0, .sent "frame"] s := EventSystem.runWhere_of_exec (by decide)
  have drained : s.Drained := ⟨rfl, rfl, Or.inl rfl⟩
  exact ⟨run, drained, (shutdown_completes run rfl).1 drained⟩

/-- A client is connected and no message is current: `stop` leaves its session in the list. -/
theorem idle_session_left
    : ¬ ∀ (events : List (Event String)) (seen : List (Observed String)) (s : Server String),
        (serverSystem String).Run events seen s → s.acceptorOpen = false → s.Drained
        → s.sessions = [] ∧ s.check = .okay := by
  intro completes
  have run := EventSystem.runWhere_of_exec (m := serverSystem String)
    (show EventSystem.exec (EventSystem.restrict _ (fun _ _ => True)) _
      [.connect, .runAccept, .stop, .runAccept] = _ from rfl)
  have left := (completes _ _ _ run rfl ⟨rfl, rfl, Or.inl rfl⟩).2
  exact absurd left (by decide)

end Granum.Spectrometer
