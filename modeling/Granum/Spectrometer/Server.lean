import Granum.Library.EventSystem

/-! The broadcast server of the spectrometer. Its handlers run one after the other on a
strand; an asynchronous operation first finishes with a result, and its handler runs later.
-/

namespace Granum.Spectrometer

/-- The result of an asynchronous operation, as the handlers tell it apart. -/
inductive ErrorCode
  | success
  | operationAborted
  | other
  deriving DecidableEq, Repr

/-- A session, named by its node of the list `_sessions`. -/
structure Session where
  node : ℕ
  isOpen : Bool
  deriving DecidableEq, Repr

/-- An outstanding `async_write`: the iterator captured by its handler, the message whose
buffers it writes, and its result once it has finished.
-/
structure Write (μ : Type) where
  current : ℕ
  message : Option μ
  result : Option ErrorCode
  deriving DecidableEq, Repr

/-- The server with the operations and handlers that wait for its strand. `accepting` is the
outstanding `async_accept` with its result, `queue` the messages of the `send_message`
handlers. Once a handler has used the iterator of an erased node, nothing is defined.
-/
structure Server (μ : Type) where
  acceptorOpen : Bool := true
  accepting : Option (Option ErrorCode) := some none
  sessions : List Session := []
  currentMessage : Option μ := none
  currentMessageBuffers : Option μ := none
  writes : List (Write μ) := []
  queue : List μ := []
  nextNode : ℕ := 0
  undefined : Bool := false
  deriving DecidableEq, Repr

/-- What can be seen of a run from outside. -/
inductive Observed (μ : Type)
  | accepted (node : ℕ)
  | sent (msg : μ)
  | dropped (msg : μ)
  | written (node : ℕ) (msg : μ)
  | failed (node : ℕ) (msg : μ)
  deriving DecidableEq, Repr

namespace Server

variable {μ : Type} (s : Server μ)

/-- The nodes of `_sessions`. -/
def nodes : List ℕ := s.sessions.map Session.node

/-- `_sessions.begin()`; `none` stands for `end()`. -/
def first : Option ℕ := s.nodes.head?

/-- `std::next(current, 1)`, for a node of the list. -/
def next (current : ℕ) : Option ℕ := (s.nodes.dropWhile (· ≠ current)).tail.head?

/-- `_sessions.erase(current)`. -/
def erase (current : ℕ) : Server μ :=
  { s with sessions := s.sessions.filter (·.node ≠ current) }

/-- The socket of a session in the list is open. -/
def isOpenAt (current : ℕ) : Bool := s.sessions.any (fun x => x.node = current ∧ x.isOpen)

/-- `_do_accept_ws`; a closed acceptor answers at once, with an error of its own. -/
def doAcceptWs : Server μ :=
  { s with accepting := some (if s.acceptorOpen then none else some .other) }

/-- The handler of `async_accept`. -/
def acceptHandler : ErrorCode → Server μ × List (Observed μ)
  | .operationAborted => (s, [])
  | .other => (s.doAcceptWs, [])
  | .success =>
      let accepted := { s with
        sessions := ⟨s.nextNode, true⟩ :: s.sessions
        nextNode := s.nextNode + 1 }
      (accepted.doAcceptWs, [.accepted s.nextNode])

/-- `_do_chain_ws`; a write to a closed socket fails at once. -/
def doChainWs : Option ℕ → Server μ × List (Observed μ)
  | none => ({ s with currentMessage := none }, [])
  | some current =>
      if s.isOpenAt current then
        ({ s with writes := s.writes ++ [⟨current, s.currentMessageBuffers, none⟩] }, [])
      else
        ({ s with writes := s.writes ++ [⟨current, s.currentMessageBuffers, some .other⟩] },
          s.currentMessageBuffers.toList.map (.failed current))

/-- The handler of `async_write`. -/
def writeHandler (current : ℕ) : ErrorCode → Server μ × List (Observed μ)
  | .operationAborted => ({ s with sessions := [] }, [])
  | .other =>
      if current ∈ s.nodes then (s.erase current).doChainWs (s.next current)
      else ({ s with undefined := true }, [])
  | .success =>
      if current ∈ s.nodes then s.doChainWs (s.next current)
      else ({ s with undefined := true }, [])

/-- The message becomes current, and the buffers are filled from it. -/
def setMessage (msg : μ) : Server μ :=
  { s with currentMessage := some msg, currentMessageBuffers := some msg }

/-- The handler that `send_message` dispatches. -/
def sendHandler (msg : μ) : Server μ × List (Observed μ) :=
  if s.currentMessage.isSome then (s, [.dropped msg])
  else
    let (chained, out) := (s.setMessage msg).doChainWs (s.setMessage msg).first
    (chained, .sent msg :: out)

/-- An operation that is not finished when its socket is closed finishes as aborted. -/
def abortWrite (w : Write μ) : Write μ :=
  if w.result = none ∧ w.current ∈ s.nodes then { w with result := some .operationAborted }
  else w

/-- The acceptor and the sockets of all sessions are closed. -/
def closeAll : Server μ :=
  { s with
    acceptorOpen := false
    accepting := s.accepting.map (fun result => some (result.getD .operationAborted))
    sessions := s.sessions.map (fun x => { x with isOpen := false })
    writes := s.writes.map s.abortWrite }

/-- The handler that `stop` dispatches; it clears the list if a message is current. -/
def stopHandler : Server μ :=
  if s.currentMessage.isSome then { s.closeAll with sessions := [] } else s.closeAll

/-- A `send_message` handler leaves the queue. -/
def dequeue (rest : List μ) : Server μ := { s with queue := rest }

/-- A write is not outstanding any more. -/
def retire (index : ℕ) : Server μ := { s with writes := s.writes.eraseIdx index }

end Server

/-- What can happen next: an operation finishes, a thread calls `send_message`, or the strand
runs a handler. A write is named by its place among the outstanding ones.
-/
inductive Event (μ : Type)
  | connect
  | acceptFails
  | runAccept
  | sendMessage (msg : μ)
  | runSend
  | writeDone (index : ℕ) (complete : Bool)
  | runWrite (index : ℕ)
  | stop
  deriving DecidableEq, Repr

/-- One event, if it can happen. -/
def Server.react {μ : Type} (s : Server μ) : Event μ → Option (Server μ × List (Observed μ))
  | .connect =>
      if s.accepting = some none then some ({ s with accepting := some (some .success) }, [])
      else none
  | .acceptFails =>
      if s.accepting = some none then some ({ s with accepting := some (some .other) }, [])
      else none
  | .runAccept =>
      match s.accepting with
      | some (some err) => some ({ s with accepting := none }.acceptHandler err)
      | _ => none
  | .sendMessage msg => some ({ s with queue := s.queue ++ [msg] }, [])
  | .runSend =>
      match s.queue with
      | msg :: rest => some ((s.dequeue rest).sendHandler msg)
      | [] => none
  | .writeDone index complete =>
      match s.writes[index]? with
      | some ⟨current, message, none⟩ =>
          let result := if complete then ErrorCode.success else .other
          let seen := if complete then Observed.written current else .failed current
          some ({ s with writes := s.writes.set index ⟨current, message, some result⟩ },
            message.toList.map seen)
      | _ => none
  | .runWrite index =>
      match s.writes[index]? with
      | some ⟨current, _, some err⟩ =>
          some ((s.retire index).writeHandler current err)
      | _ => none
  | .stop => some (s.stopHandler, [])

/-- The events of a server that is still defined. -/
def Server.step {μ : Type} (s : Server μ) (event : Event μ)
    : Option (Server μ × List (Observed μ)) :=
  if s.undefined then none else s.react event

/-- The server from the end of `start` on. -/
def serverSystem (μ : Type) : EventSystem (Server μ) (Event μ) (Observed μ) where
  start := {}
  step := Server.step

-----------------------------------------------------------------------------------------
-- What one step does
-----------------------------------------------------------------------------------------

namespace Server

variable {μ : Type} {s t : Server μ} {event : Event μ} {out : List (Observed μ)}

/-- Everything that a step can do. -/
inductive Reaction (s : Server μ) : Event μ → Server μ × List (Observed μ) → Prop
  | connected (waiting : s.accepting = some none)
      : Reaction s .connect ({ s with accepting := some (some .success) }, [])
  | acceptFailed (waiting : s.accepting = some none)
      : Reaction s .acceptFails ({ s with accepting := some (some .other) }, [])
  | accepted (err : ErrorCode) (finished : s.accepting = some (some err))
      : Reaction s .runAccept ({ s with accepting := none }.acceptHandler err)
  | queued (msg : μ)
      : Reaction s (.sendMessage msg) ({ s with queue := s.queue ++ [msg] }, [])
  | sent (msg : μ) (rest : List μ) (oldest : s.queue = msg :: rest)
      : Reaction s .runSend ((s.dequeue rest).sendHandler msg)
  | completed (index current : ℕ) (message : Option μ)
      (found : s.writes[index]? = some ⟨current, message, none⟩)
      : Reaction s (.writeDone index true)
          ({ s with writes := s.writes.set index ⟨current, message, some .success⟩ },
            message.toList.map (.written current))
  | failed (index current : ℕ) (message : Option μ)
      (found : s.writes[index]? = some ⟨current, message, none⟩)
      : Reaction s (.writeDone index false)
          ({ s with writes := s.writes.set index ⟨current, message, some .other⟩ },
            message.toList.map (.failed current))
  | handled (index current : ℕ) (message : Option μ) (err : ErrorCode)
      (found : s.writes[index]? = some ⟨current, message, some err⟩)
      : Reaction s (.runWrite index) ((s.retire index).writeHandler current err)
  | stopped : Reaction s .stop (s.stopHandler, [])

/-- The reactions are complete, by cases on the event. -/
theorem react_reaction (taken : s.react event = some (t, out)) : Reaction s event (t, out) := by
  cases event with
  | connect =>
      simp only [react] at taken
      split at taken
      · next waiting => exact Option.some.inj taken ▸ .connected waiting
      · cases taken
  | acceptFails =>
      simp only [react] at taken
      split at taken
      · next waiting => exact Option.some.inj taken ▸ .acceptFailed waiting
      · cases taken
  | runAccept =>
      simp only [react] at taken
      split at taken
      · next err finished => exact Option.some.inj taken ▸ .accepted err finished
      · cases taken
  | sendMessage msg => exact Option.some.inj taken ▸ .queued msg
  | runSend =>
      simp only [react] at taken
      split at taken
      · next msg rest oldest => exact Option.some.inj taken ▸ .sent msg rest oldest
      · cases taken
  | writeDone index complete =>
      simp only [react] at taken
      split at taken
      · next current message found =>
          cases complete with
          | true => exact Option.some.inj taken ▸ .completed index current message found
          | false => exact Option.some.inj taken ▸ .failed index current message found
      · cases taken
  | runWrite index =>
      simp only [react] at taken
      split at taken
      · next current message err found =>
          exact Option.some.inj taken ▸ .handled index current message err found
      · cases taken
  | stop => exact Option.some.inj taken ▸ .stopped

theorem step_reaction (taken : s.step event = some (t, out))
    : s.undefined = false ∧ Reaction s event (t, out) := by
  unfold step at taken
  split at taken
  · cases taken
  · next defined => exact ⟨Bool.not_eq_true _ ▸ defined, react_reaction taken⟩

theorem doChainWs_open {current : ℕ} (opened : s.isOpenAt current = true)
    : s.doChainWs (some current)
      = ({ s with writes := s.writes ++ [⟨current, s.currentMessageBuffers, none⟩] }, []) :=
  if_pos opened

theorem doChainWs_closed {current : ℕ} (closed : s.isOpenAt current = false)
    : s.doChainWs (some current)
      = ({ s with writes := s.writes ++ [⟨current, s.currentMessageBuffers, some .other⟩] },
        s.currentMessageBuffers.toList.map (.failed current)) :=
  if_neg (by simp [closed])

/-- The handlers of writes and messages leave the acceptor alone. -/
theorem doChainWs_acceptor (target : Option ℕ)
    : (s.doChainWs target).1.acceptorOpen = s.acceptorOpen
      ∧ (s.doChainWs target).1.accepting = s.accepting := by
  unfold doChainWs
  split
  · exact ⟨rfl, rfl⟩
  · split <;> exact ⟨rfl, rfl⟩

/-- The walk starts at most one write. -/
theorem doChainWs_sizes (target : Option ℕ)
    : (s.doChainWs target).1.queue = s.queue ∧ (s.doChainWs target).1.sessions = s.sessions
      ∧ (s.doChainWs target).1.writes.length ≤ s.writes.length + 1 := by
  unfold doChainWs
  split
  · exact ⟨rfl, rfl, Nat.le_succ _⟩
  · split <;> exact ⟨rfl, rfl, by simp⟩

theorem sendHandler_acceptor (msg : μ)
    : (s.sendHandler msg).1.acceptorOpen = s.acceptorOpen
      ∧ (s.sendHandler msg).1.accepting = s.accepting := by
  unfold sendHandler
  split
  · exact ⟨rfl, rfl⟩
  · exact doChainWs_acceptor _

theorem writeHandler_acceptor (current : ℕ) (err : ErrorCode)
    : (s.writeHandler current err).1.acceptorOpen = s.acceptorOpen
      ∧ (s.writeHandler current err).1.accepting = s.accepting := by
  unfold writeHandler
  split
  · exact ⟨rfl, rfl⟩
  · split
    · exact doChainWs_acceptor _
    · exact ⟨rfl, rfl⟩
  · split
    · exact doChainWs_acceptor _
    · exact ⟨rfl, rfl⟩

theorem writeHandler_success {current : ℕ} (member : current ∈ s.nodes)
    : s.writeHandler current .success = s.doChainWs (s.next current) :=
  if_pos member

theorem writeHandler_other {current : ℕ} (member : current ∈ s.nodes)
    : s.writeHandler current .other = (s.erase current).doChainWs (s.next current) :=
  if_pos member

theorem sendHandler_busy (busy : s.currentMessage.isSome) (msg : μ)
    : s.sendHandler msg = (s, [.dropped msg]) :=
  if_pos busy

theorem sendHandler_idle (idle : s.currentMessage = none) (msg : μ)
    : s.sendHandler msg
      = (((s.setMessage msg).doChainWs s.first).1,
        .sent msg :: ((s.setMessage msg).doChainWs s.first).2) :=
  if_neg (by simp [idle])

-----------------------------------------------------------------------------------------
-- The list of sessions
-----------------------------------------------------------------------------------------

theorem next_of_split (nodup : s.nodes.Nodup) {before after : List ℕ} {current : ℕ}
    (split : s.nodes = before ++ current :: after)
    : s.next current = after.head? := by
  rw [split] at nodup
  have earlier : ∀ node ∈ before, decide (node ≠ current) = true := by
    intro node member
    have distinct := (List.nodup_append.mp nodup).2.2 node member current List.mem_cons_self
    exact decide_eq_true distinct
  rw [next, split, List.dropWhile_append_of_pos earlier, List.dropWhile_cons_of_neg (by simp)]
  rfl

theorem erase_nodes (current : ℕ) : (s.erase current).nodes = s.nodes.filter (· ≠ current) := by
  simp only [nodes, erase, List.filter_map]
  rfl

theorem erase_nodes_of_split (nodup : s.nodes.Nodup) {before after : List ℕ} {current : ℕ}
    (split : s.nodes = before ++ current :: after)
    : (s.erase current).nodes = before ++ after := by
  rw [split] at nodup
  have absent : current ∉ before ++ after := by
    have moved := (List.perm_middle.nodup_iff.mp nodup)
    exact (List.nodup_cons.mp moved).1
  have kept : (before ++ after).filter (· ≠ current) = before ++ after := by
    apply List.filter_eq_self.mpr
    intro node member
    exact decide_eq_true (fun same => absent (same ▸ member))
  rw [erase_nodes, split, List.filter_append, List.filter_cons_of_neg (by simp),
    ← List.filter_append]
  exact kept

@[simp] theorem closeAll_nodes : s.closeAll.nodes = s.nodes := by
  simp [nodes, closeAll, Function.comp_def]

theorem closeAll_closed : ∀ x ∈ s.closeAll.sessions, x.isOpen = false := by
  simp [closeAll]

theorem first_mem : ∀ node ∈ s.first, node ∈ s.nodes :=
  fun _ found => List.mem_of_mem_head? found

theorem next_mem (current : ℕ) : ∀ node ∈ s.next current, node ∈ s.nodes :=
  fun _ found =>
    List.dropWhile_subset _ (List.mem_of_mem_tail (List.mem_of_mem_head? found))

/-- The session after an erased one is still in the list. -/
theorem next_mem_erase (nodup : s.nodes.Nodup) {current : ℕ} (member : current ∈ s.nodes)
    : ∀ node ∈ s.next current, node ∈ (s.erase current).nodes := by
  obtain ⟨before, after, split⟩ := List.append_of_mem member
  intro node found
  rw [next_of_split nodup split] at found
  rw [erase_nodes_of_split nodup split]
  exact List.mem_append_right before (List.mem_of_mem_head? found)

theorem isOpenAt_of_open (opened : ∀ x ∈ s.sessions, x.isOpen = true) {node : ℕ}
    (member : node ∈ s.nodes)
    : s.isOpenAt node = true := by
  obtain ⟨x, listed, rfl⟩ := List.mem_map.mp member
  exact List.any_eq_true.mpr ⟨x, listed, by simp [opened x listed]⟩

theorem isOpenAt_of_closed (closed : ∀ x ∈ s.sessions, x.isOpen = false) (node : ℕ)
    : s.isOpenAt node = false := by
  apply List.any_eq_false.mpr
  intro x listed
  simp [closed x listed]

end Server

end Granum.Spectrometer
