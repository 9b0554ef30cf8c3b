import Granum.Library.HistoryWindow
import Granum.Spectrometer.Server

/-! What the sessions receive while the server is not stopped. A broadcast walks the list of
sessions; new sessions come before the walk and failed ones leave it.
-/

namespace Granum.Spectrometer

open HistoryWindow

namespace Observed

variable {μ : Type}

def isAccepted (node : ℕ) : Observed μ → Bool
  | .accepted other => other = node
  | _ => false

def isFailed (node : ℕ) : Observed μ → Bool
  | .failed other _ => other = node
  | _ => false

/-- The message passed to `send_message` and not dropped. -/
def sent? : Observed μ → Option μ
  | .sent msg => some msg
  | _ => none

/-- The message completely written to a session. -/
def written? (node : ℕ) : Observed μ → Option μ
  | .written other msg => if other = node then some msg else none
  | _ => none

end Observed

/-- The messages completely written to a session, in order. -/
def writtenTo {μ : Type} (node : ℕ) (seen : List (Observed μ)) : List μ :=
  seen.filterMap (Observed.written? node)

/-- The messages that `send_message` did not drop after the session was accepted and before
its first write error.
-/
def sentDuring {μ : Type} (node : ℕ) (seen : List (Observed μ)) : List μ :=
  (window (Observed.isAccepted node) (Observed.isFailed node) seen).filterMap Observed.sent?

section History

variable {μ : Type} {node : ℕ} {seen : List (Observed μ)}

theorem writtenTo_concat (o : Observed μ)
    : writtenTo node (seen ++ [o]) = writtenTo node seen ++ (o.written? node).toList := by
  rw [writtenTo, List.filterMap_append, ← writtenTo]
  cases kept : o.written? node <;> simp [kept]

/-- While the session has not failed, the messages sent to it grow with the history. -/
theorem sentDuring_concat (accepted : ∃ o ∈ seen, o.isAccepted node)
    (healthy : ∀ o ∈ seen, o.isFailed node = false) (o : Observed μ)
    : sentDuring node (seen ++ [o]) = sentDuring node seen ++ o.sent?.toList := by
  rw [sentDuring, window_append_of_open accepted healthy, List.filterMap_append, ← sentDuring]
  cases o <;> simp [Observed.isFailed, Observed.sent?, List.takeWhile_cons]

end History

-----------------------------------------------------------------------------------------
-- The walk of a broadcast
-----------------------------------------------------------------------------------------

section Walk

variable {μ : Type}

/-- How far the current broadcast is: the sessions that it has still to reach, and the
session whose failed write is not handled yet.
-/
inductive Phase (s : Server μ) : List ℕ → Option ℕ → Prop
  | idle (silent : s.currentMessage = none) (empty : s.writes = []) : Phase s [] none
  | writing (msg : μ) (before : List ℕ) (current : ℕ) (after : List ℕ)
      (message : s.currentMessage = some msg) (buffers : s.currentMessageBuffers = some msg)
      (split : s.nodes = before ++ current :: after)
      (one : s.writes = [⟨current, some msg, none⟩])
      : Phase s (current :: after) none
  | completed (msg : μ) (before : List ℕ) (current : ℕ) (after : List ℕ)
      (message : s.currentMessage = some msg) (buffers : s.currentMessageBuffers = some msg)
      (split : s.nodes = before ++ current :: after)
      (one : s.writes = [⟨current, some msg, some .success⟩])
      : Phase s after none
  | failed (msg : μ) (before : List ℕ) (current : ℕ) (after : List ℕ)
      (message : s.currentMessage = some msg) (buffers : s.currentMessageBuffers = some msg)
      (split : s.nodes = before ++ current :: after)
      (one : s.writes = [⟨current, some msg, some .other⟩])
      : Phase s after (some current)

/-- What a node of the list has received: nothing before it is accepted; everything sent
since then but the message that has not reached it yet; everything but the message at which
its write failed.
-/
inductive Served (seen : List (Observed μ)) (nextNode : ℕ) (nodes pending : List ℕ)
    (message : Option μ) (failing : Option ℕ) (node : ℕ) : Prop
  | unknown (new : nextNode ≤ node)
      (unseen : ∀ o ∈ seen,
        o.isAccepted node = false ∧ o.isFailed node = false ∧ o.written? node = none)
  | alive (listed : node ∈ nodes) (steady : failing ≠ some node)
      (accepted : ∃ o ∈ seen, o.isAccepted node)
      (healthy : ∀ o ∈ seen, o.isFailed node = false)
      (received : sentDuring node seen
        = writtenTo node seen ++ (if node ∈ pending then message.toList else []))
  | dead (msg : μ) (old : node < nextNode) (gone : node ∈ nodes → failing = some node)
      (reached : node ∉ pending)
      (closed : Closed (Observed.isAccepted node) (Observed.isFailed node) seen)
      (last : ∀ other, .failed node other ∈ seen → other = msg)
      (received : sentDuring node seen = writtenTo node seen ++ [msg])

/-- The invariant of a server that is not stopped. -/
structure Serving (seen : List (Observed μ)) (s : Server μ) (pending : List ℕ)
    (failing : Option ℕ) : Prop where
  defined : s.undefined = false
  acceptorOpen : s.acceptorOpen = true
  opened : ∀ x ∈ s.sessions, x.isOpen = true
  notAborted : s.accepting ≠ some (some .operationAborted)
  nodup : s.nodes.Nodup
  fresh : ∀ node ∈ s.nodes, node < s.nextNode
  phase : Phase s pending failing
  served : ∀ node,
    Served seen s.nextNode s.nodes pending s.currentMessage failing node

variable {seen : List (Observed μ)} {nextNode : ℕ} {nodes pending : List ℕ}
  {message : Option μ} {failing : Option ℕ} {node : ℕ}

/-- An observation that is neither of this session nor a message sent changes nothing. -/
theorem Served.concat_other (served : Served seen nextNode nodes pending message failing node)
    {o : Observed μ} (notAccepted : o.isAccepted node = false)
    (notFailed : o.isFailed node = false) (notWritten : o.written? node = none)
    (notSent : o.sent? = none)
    : Served (seen ++ [o]) nextNode nodes pending message failing node := by
  have written : writtenTo node (seen ++ [o]) = writtenTo node seen := by
    rw [writtenTo_concat, notWritten, Option.toList_none, List.append_nil]
  cases served with
  | unknown new unseen =>
      refine .unknown new (fun x member => ?_)
      rcases List.mem_append.mp member with member | member
      · exact unseen x member
      · rw [List.mem_singleton.mp member]
        exact ⟨notAccepted, notFailed, notWritten⟩
  | alive listed steady accepted healthy received =>
      refine .alive listed steady ?_ ?_ ?_
      · obtain ⟨x, member, accepting⟩ := accepted
        exact ⟨x, List.mem_append_left _ member, accepting⟩
      · intro x member
        rcases List.mem_append.mp member with member | member
        · exact healthy x member
        · rw [List.mem_singleton.mp member]
          exact notFailed
      · rw [sentDuring_concat accepted healthy, notSent, written, received]
        simp
  | dead msg old gone reached closed last received =>
      refine .dead msg old gone reached (closed.append _) ?_ ?_
      · intro other member
        rcases List.mem_append.mp member with member | member
        · exact last other member
        · rw [← List.mem_singleton.mp member] at notFailed
          simp [Observed.isFailed] at notFailed
      · rw [sentDuring, closed.window_append, ← sentDuring, written, received]

theorem Phase.pending_subset {s : Server μ} (phase : Phase s pending failing)
    : ∀ node ∈ pending, node ∈ s.nodes := by
  intro node member
  cases phase with
  | idle _ _ => cases member
  | writing _ before current after _ _ split _ =>
      rw [split]
      exact List.mem_append_right before member
  | completed _ before current after _ _ split _ | failed _ before current after _ _ split _ =>
      rw [split]
      exact List.mem_append_right before (List.mem_cons_of_mem current member)

/-- After the last session of the walk the message is reset. -/
theorem Served.reset (served : Served seen nextNode nodes [] message failing node)
    : Served seen nextNode nodes [] none failing node := by
  cases served with
  | unknown new unseen => exact .unknown new unseen
  | alive listed steady accepted healthy received =>
      exact .alive listed steady accepted healthy (by simpa using received)
  | dead msg old gone reached closed last received =>
      exact .dead msg old gone reached closed last received

/-- The walk has passed another session. -/
theorem Served.passed {current : ℕ} {after : List ℕ} (different : node ≠ current)
    (served : Served seen nextNode nodes (current :: after) message failing node)
    : Served seen nextNode nodes after message failing node := by
  have same : node ∈ current :: after ↔ node ∈ after := by simp [different]
  cases served with
  | unknown new unseen => exact .unknown new unseen
  | alive listed steady accepted healthy received =>
      simp only [same] at received
      exact .alive listed steady accepted healthy received
  | dead msg old gone reached closed last received =>
      exact .dead msg old gone (mt same.mpr reached) closed last received

/-- The walk has written its message to a session. -/
theorem Served.written {msg : μ} {after : List ℕ} (old : node < nextNode)
    (fresh : node ∉ after)
    (served : Served seen nextNode nodes (node :: after) (some msg) failing node)
    : Served (seen ++ [.written node msg]) nextNode nodes after (some msg) failing node := by
  cases served with
  | unknown new unseen => omega
  | dead _ _ _ reached _ _ _ => exact absurd List.mem_cons_self reached
  | alive listed steady accepted healthy received =>
      refine .alive listed steady ?_ ?_ ?_
      · obtain ⟨x, member, accepting⟩ := accepted
        exact ⟨x, List.mem_append_left _ member, accepting⟩
      · intro x member
        rcases List.mem_append.mp member with member | member
        · exact healthy x member
        · rw [List.mem_singleton.mp member]
          rfl
      · rw [sentDuring_concat accepted healthy, writtenTo_concat, received]
        simp [Observed.sent?, Observed.written?, fresh]

/-- The walk has failed at a session. -/
theorem Served.failed {msg : μ} {after : List ℕ} (old : node < nextNode)
    (fresh : node ∉ after)
    (served : Served seen nextNode nodes (node :: after) (some msg) failing node)
    : Served (seen ++ [.failed node msg]) nextNode nodes after (some msg) (some node) node := by
  cases served with
  | unknown new unseen => omega
  | dead _ _ _ reached _ _ _ => exact absurd List.mem_cons_self reached
  | alive listed steady accepted healthy received =>
      refine .dead msg old (fun _ => rfl) fresh (closed_concat accepted ?_) ?_ ?_
      · simp [Observed.isFailed]
      · intro other member
        rcases List.mem_append.mp member with member | member
        · have healthy := healthy _ member
          simp [Observed.isFailed] at healthy
        · simpa using member
      · rw [sentDuring_concat accepted healthy, writtenTo_concat, received]
        simp [Observed.sent?, Observed.written?]

/-- The failed write of another session is the one to be handled. -/
theorem Served.steady {current : ℕ} (different : node ≠ current)
    (served : Served seen nextNode nodes pending message none node)
    : Served seen nextNode nodes pending message (some current) node := by
  cases served with
  | unknown new unseen => exact .unknown new unseen
  | alive listed _ accepted healthy received =>
      exact .alive listed (fun same => different (Option.some.inj same).symm) accepted healthy
        received
  | dead msg old gone reached closed last received =>
      exact .dead msg old (fun listed => absurd (gone listed) nofun) reached closed last received

/-- The session of a failed write leaves the list. -/
theorem Served.erased {before after : List ℕ} {current : ℕ}
    (nodup : (before ++ current :: after).Nodup)
    (served : Served seen nextNode (before ++ current :: after) pending message (some current)
      node)
    : Served seen nextNode (before ++ after) pending message none node := by
  have absent : current ∉ before ++ after :=
    (List.nodup_cons.mp (List.perm_middle.nodup_iff.mp nodup)).1
  have kept : node ∈ before ++ after → node ∈ before ++ current :: after := by
    simp only [List.mem_append, List.mem_cons]
    tauto
  cases served with
  | unknown new unseen => exact .unknown new unseen
  | alive listed steady accepted healthy received =>
      refine .alive ?_ nofun accepted healthy received
      have different : node ≠ current := fun same => steady (same ▸ rfl)
      simpa [different] using listed
  | dead msg old gone reached closed last received =>
      refine .dead msg old (fun listed => ?_) reached closed last received
      have same : current = node := Option.some.inj (gone (kept listed))
      exact absurd (same ▸ listed) absent

/-- A message that is sent while none is current is owed to every session of the list. -/
theorem Served.sent {msg : μ} (served : Served seen nextNode nodes [] none none node)
    : Served (seen ++ [.sent msg]) nextNode nodes nodes (some msg) none node := by
  cases served with
  | unknown new unseen =>
      refine .unknown new (fun x member => ?_)
      rcases List.mem_append.mp member with member | member
      · exact unseen x member
      · rw [List.mem_singleton.mp member]
        exact ⟨rfl, rfl, rfl⟩
  | alive listed steady accepted healthy received =>
      refine .alive listed steady ?_ ?_ ?_
      · obtain ⟨x, member, accepting⟩ := accepted
        exact ⟨x, List.mem_append_left _ member, accepting⟩
      · intro x member
        rcases List.mem_append.mp member with member | member
        · exact healthy x member
        · rw [List.mem_singleton.mp member]
          rfl
      · rw [sentDuring_concat accepted healthy, writtenTo_concat, received]
        simp [Observed.sent?, Observed.written?, listed]
  | dead other old gone reached closed last received =>
      have absent : node ∉ nodes := fun listed => nomatch gone listed
      refine .dead other old gone absent (closed.append _) ?_ ?_
      · intro message member
        exact last message (by simpa using member)
      · rw [sentDuring, closed.window_append, ← sentDuring, writtenTo_concat, received]
        simp [Observed.written?]

/-- A new session is owed nothing yet. -/
theorem Served.accepted (absent : nextNode ∉ nodes) (fresh : nextNode ∉ pending)
    (steady : failing ≠ some nextNode)
    (served : Served seen nextNode nodes pending message failing nextNode)
    : Served (seen ++ [.accepted nextNode]) (nextNode + 1) (nextNode :: nodes) pending message
        failing nextNode := by
  cases served with
  | alive listed _ _ _ _ => exact absurd listed absent
  | dead _ old _ _ _ _ _ => omega
  | unknown _ unseen =>
      refine .alive List.mem_cons_self steady ⟨_, List.mem_concat_self, ?_⟩ ?_ ?_
      · simp [Observed.isAccepted]
      · intro x member
        rcases List.mem_append.mp member with member | member
        · exact (unseen x member).2.1
        · rw [List.mem_singleton.mp member]
          rfl
      · have silent : writtenTo nextNode seen = [] :=
          List.filterMap_eq_nil_iff.mpr (fun x member => (unseen x member).2.2)
        rw [sentDuring, window_append_of_silent (fun x member => (unseen x member).1),
          writtenTo_concat, silent, if_neg fresh]
        simp [window, sinceOpened, Observed.isAccepted, Observed.isFailed, Observed.sent?,
          Observed.written?]

-----------------------------------------------------------------------------------------
-- The steps of a server that is not stopped
-----------------------------------------------------------------------------------------

variable {s : Server μ}

/-- Another session than the new one is served as before. -/
theorem Served.acceptedOther (different : node ≠ nextNode)
    (served : Served seen nextNode nodes pending message failing node)
    : Served (seen ++ [.accepted nextNode]) (nextNode + 1) (nextNode :: nodes) pending message
        failing node := by
  have other : (Observed.accepted nextNode : Observed μ).isAccepted node = false := by
    simp [Observed.isAccepted, Ne.symm different]
  cases served.concat_other other rfl rfl rfl with
  | unknown new unseen => exact .unknown (by omega) unseen
  | alive listed steady accepted healthy received =>
      exact .alive (List.mem_cons_of_mem _ listed) steady accepted healthy received
  | dead msg old gone reached closed last received =>
      refine .dead msg (by omega) (fun listed => ?_) reached closed last received
      exact gone ((List.mem_cons.mp listed).resolve_left different)

/-- The walk goes on with the sessions that are left, or ends. -/
theorem Serving.chain {msg : μ} {before rest : List ℕ}
    (defined : s.undefined = false) (acceptorOpen : s.acceptorOpen = true)
    (opened : ∀ x ∈ s.sessions, x.isOpen = true)
    (notAborted : s.accepting ≠ some (some .operationAborted))
    (nodup : s.nodes.Nodup) (fresh : ∀ node ∈ s.nodes, node < s.nextNode)
    (current : s.currentMessage = some msg) (buffers : s.currentMessageBuffers = some msg)
    (none : s.writes = []) (split : s.nodes = before ++ rest)
    (served : ∀ node, Served seen s.nextNode s.nodes rest (some msg) Option.none node)
    : (s.doChainWs rest.head?).2 = []
      ∧ ∃ pending failing, Serving seen (s.doChainWs rest.head?).1 pending failing := by
  cases rest with
  | nil =>
      refine ⟨rfl, [], Option.none, defined, acceptorOpen, opened, notAborted, nodup, fresh,
        .idle rfl none, ?_⟩
      intro node
      exact (served node).reset
  | cons node after =>
      have listed : node ∈ s.nodes := by simp [split]
      have chained : s.doChainWs (some node)
          = ({ s with writes := [⟨node, some msg, Option.none⟩] }, []) := by
        simp [Server.doChainWs, Server.isOpenAt_of_open opened listed, none, buffers]
      rw [List.head?_cons, chained]
      refine ⟨rfl, node :: after, Option.none, defined, acceptorOpen, opened, notAborted, nodup,
        fresh, .writing msg before node after current buffers split rfl, ?_⟩
      rw [current]
      exact served

/-- A step that changes none of the things the walk depends on. -/
theorem Serving.quiet {t : Server μ} (serving : Serving seen s pending failing)
    (defined : t.undefined = s.undefined) (acceptorOpen : t.acceptorOpen = s.acceptorOpen)
    (sessions : t.sessions = s.sessions) (nextNode : t.nextNode = s.nextNode)
    (current : t.currentMessage = s.currentMessage)
    (buffers : t.currentMessageBuffers = s.currentMessageBuffers) (writes : t.writes = s.writes)
    (notAborted : t.accepting ≠ some (some .operationAborted))
    : Serving seen t pending failing := by
  have nodes : t.nodes = s.nodes := congrArg (List.map Session.node) sessions
  refine ⟨defined ▸ serving.defined, acceptorOpen ▸ serving.acceptorOpen,
    sessions ▸ serving.opened, notAborted, nodes ▸ serving.nodup, ?_, ?_, ?_⟩
  · rw [nodes, nextNode]
    exact serving.fresh
  · cases serving.phase with
    | idle silent empty => exact .idle (current ▸ silent) (writes ▸ empty)
    | writing msg before node after message filled split one =>
        exact .writing msg before node after (current ▸ message) (buffers ▸ filled)
          (nodes ▸ split) (writes ▸ one)
    | completed msg before node _ message filled split one =>
        exact .completed msg before node _ (current ▸ message) (buffers ▸ filled)
          (nodes ▸ split) (writes ▸ one)
    | failed msg before node _ message filled split one =>
        exact .failed msg before node _ (current ▸ message) (buffers ▸ filled)
          (nodes ▸ split) (writes ▸ one)
  · rw [nodes, nextNode, current]
    exact serving.served

/-- A new session is put before the walk. -/
theorem Serving.accepted (serving : Serving seen s pending failing)
    : Serving (seen ++ [.accepted s.nextNode])
        ({ s with accepting := none }.acceptHandler .success).1 pending failing := by
  have absent : s.nextNode ∉ s.nodes := fun listed => (serving.fresh _ listed).ne rfl
  have fresh : s.nextNode ∉ pending := fun listed =>
    absent (serving.phase.pending_subset _ listed)
  have steady : failing ≠ some s.nextNode := by
    intro same
    subst same
    cases serving.phase with
    | failed _ before _ after _ _ split _ => exact absent (by simp [split])
  refine ⟨serving.defined, serving.acceptorOpen, ?_, ?_, List.nodup_cons.mpr ⟨absent,
    serving.nodup⟩, ?_, ?_, ?_⟩
  · intro x listed
    rcases List.mem_cons.mp listed with rfl | listed
    · rfl
    · exact serving.opened x listed
  · simp [Server.acceptHandler, Server.doAcceptWs, serving.acceptorOpen]
  · intro node listed
    change node < s.nextNode + 1
    rcases List.mem_cons.mp listed with rfl | listed
    · exact Nat.lt_succ_self _
    · exact (serving.fresh node listed).trans (Nat.lt_succ_self _)
  · have longer {before rest : List ℕ} (split : s.nodes = before ++ rest)
        : s.nextNode :: s.nodes = (s.nextNode :: before) ++ rest := by
      rw [split, List.cons_append]
    cases serving.phase with
    | idle silent empty => exact .idle silent empty
    | writing msg before node after message filled split one =>
        exact .writing msg _ node after message filled (longer split) one
    | completed msg before node _ message filled split one =>
        exact .completed msg _ node _ message filled (longer split) one
    | failed msg before node _ message filled split one =>
        exact .failed msg _ node _ message filled (longer split) one
  · intro node
    by_cases same : node = s.nextNode
    · subst same
      exact (serving.served _).accepted absent fresh steady
    · exact (serving.served node).acceptedOther same

/-- A message that is sent starts a walk, or is dropped. -/
theorem Serving.sent (serving : Serving seen s pending failing) (msg : μ)
    : ∃ pending failing, Serving (seen ++ (s.sendHandler msg).2) (s.sendHandler msg).1
        pending failing := by
  by_cases busy : s.currentMessage.isSome
  · rw [Server.sendHandler_busy busy]
    refine ⟨pending, failing, serving.defined, serving.acceptorOpen, serving.opened,
      serving.notAborted, serving.nodup, serving.fresh, serving.phase, ?_⟩
    intro node
    exact (serving.served node).concat_other rfl rfl rfl rfl
  · have silent : s.currentMessage = none := by simpa using busy
    cases serving.phase with
    | writing _ _ _ _ message _ _ _ | completed _ _ _ _ message _ _ _
        | failed _ _ _ _ message _ _ _ => simp [silent] at message
    | idle _ empty =>
        have served (node : ℕ)
            : Served (seen ++ [.sent msg]) s.nextNode s.nodes s.nodes (some msg) none node := by
          have before := serving.served node
          rw [silent] at before
          exact before.sent
        have split : (s.setMessage msg).nodes = [] ++ s.nodes := rfl
        obtain ⟨quiet, walk⟩ := Serving.chain (s := s.setMessage msg)
          serving.defined serving.acceptorOpen serving.opened serving.notAborted serving.nodup
          serving.fresh rfl rfl empty split served
        rw [Server.sendHandler_idle silent, Server.first, quiet]
        exact walk

/-- A write of the walk finishes. -/
theorem Serving.finished {index current : ℕ} {message : Option μ}
    (serving : Serving seen s pending failing)
    (found : s.writes[index]? = some ⟨current, message, none⟩)
    : (∃ pending failing, Serving (seen ++ message.toList.map (.written current))
        { s with writes := s.writes.set index ⟨current, message, some .success⟩ }
        pending failing)
      ∧ ∃ pending failing, Serving (seen ++ message.toList.map (.failed current))
        { s with writes := s.writes.set index ⟨current, message, some .other⟩ }
        pending failing := by
  cases serving.phase with
  | idle _ empty => simp [empty] at found
  | completed _ _ _ _ _ _ _ one | failed _ _ _ _ _ _ _ one =>
      rw [one] at found
      cases index with
      | zero => simp at found
      | succ index => simp at found
  | writing msg before node after currentMessage filled split one =>
      rw [one] at found ⊢
      obtain ⟨rfl, rfl, rfl⟩ : index = 0 ∧ node = current ∧ some msg = message := by
        cases index with
        | zero => simpa using found
        | succ index => simp at found
      have nodup := serving.nodup
      rw [split] at nodup
      have fresh : node ∉ after := (List.nodup_cons.mp (List.nodup_append.mp nodup).2.1).1
      have old : node < s.nextNode := serving.fresh node (by simp [split])
      have served := serving.served
      rw [currentMessage] at served
      constructor
      · refine ⟨after, none, serving.defined, serving.acceptorOpen, serving.opened,
          serving.notAborted, serving.nodup, serving.fresh,
          .completed msg before node after currentMessage filled split rfl, fun other => ?_⟩
        change Served _ _ _ _ s.currentMessage _ _
        rw [currentMessage]
        by_cases same : other = node
        · subst same
          exact (served other).written old fresh
        · have unseen : (Observed.written node msg).written? other = none := by
            simp [Observed.written?, Ne.symm same]
          exact ((served other).concat_other rfl rfl unseen rfl).passed same
      · refine ⟨after, some node, serving.defined, serving.acceptorOpen, serving.opened,
          serving.notAborted, serving.nodup, serving.fresh,
          .failed msg before node after currentMessage filled split rfl, fun other => ?_⟩
        change Served _ _ _ _ s.currentMessage _ _
        rw [currentMessage]
        by_cases same : other = node
        · subst same
          exact (served other).failed old fresh
        · have unseen : (Observed.failed node msg).isFailed other = false := by
            simp [Observed.isFailed, Ne.symm same]
          exact (((served other).concat_other rfl unseen rfl rfl).passed same).steady same

/-- The handler of a finished write goes on with the walk. -/
theorem Serving.handled {index current : ℕ} {message : Option μ} {err : ErrorCode}
    (serving : Serving seen s pending failing)
    (found : s.writes[index]? = some ⟨current, message, some err⟩)
    : ∃ pending failing, Serving
        (seen ++ ((s.retire index).writeHandler current err).2)
        ((s.retire index).writeHandler current err).1
        pending failing := by
  have only {node : ℕ} {msg : μ} {result : Option ErrorCode}
      (one : s.writes = [⟨node, some msg, result⟩])
      : index = 0 ∧ node = current ∧ result = some err := by
    rw [one] at found
    cases index with
    | zero =>
        obtain ⟨same, _, finished⟩ : node = current ∧ some msg = message ∧ result = some err := by
          simpa using found
        exact ⟨rfl, same, finished⟩
    | succ index => simp at found
  cases serving.phase with
  | idle _ empty => simp [empty] at found
  | writing _ _ _ _ _ _ _ one => nomatch (only one).2.2
  | completed msg before node after currentMessage filled split one =>
      obtain ⟨rfl, rfl, finished⟩ := only one
      obtain rfl := Option.some.inj finished
      have member : node ∈ s.nodes := by simp [split]
      have served := serving.served
      rw [currentMessage] at served
      have rest : s.nodes = (before ++ [node]) ++ pending := by simp [split]
      obtain ⟨quiet, walk⟩ := Serving.chain (s := s.retire 0)
        serving.defined serving.acceptorOpen serving.opened serving.notAborted serving.nodup
        serving.fresh currentMessage filled (by simp [Server.retire, one]) rest served
      have walked
          : (s.retire 0).writeHandler node .success = (s.retire 0).doChainWs pending.head? := by
        have next := Server.next_of_split serving.nodup split
        rw [← next]
        exact if_pos member
      rw [walked, quiet, List.append_nil]
      exact walk
  | failed msg before node after currentMessage filled split one =>
      obtain ⟨rfl, rfl, finished⟩ := only one
      obtain rfl := Option.some.inj finished
      have member : node ∈ s.nodes := by simp [split]
      have nodup := serving.nodup
      have served := serving.served
      have left := Server.erase_nodes_of_split serving.nodup split
      rw [currentMessage, split] at served
      rw [split] at nodup
      have kept : ∀ other ∈ before ++ pending, other ∈ s.nodes := by
        intro other listed
        rw [← left, Server.erase_nodes] at listed
        exact List.mem_of_mem_filter listed
      obtain ⟨quiet, walk⟩ := Serving.chain
        (s := (s.retire 0).erase node)
        serving.defined serving.acceptorOpen
        (fun x listed => serving.opened x (List.mem_of_mem_filter listed)) serving.notAborted
        (left ▸ (List.perm_middle.nodup_iff.mp nodup).tail)
        (fun other listed => serving.fresh other (kept other (left ▸ listed)))
        currentMessage filled (by simp [Server.retire, Server.erase, one]) left
        (fun other => left ▸ (served other).erased nodup)
      have walked
          : (s.retire 0).writeHandler node .other
            = ((s.retire 0).erase node).doChainWs pending.head? := by
        have next := Server.next_of_split serving.nodup split
        rw [← next]
        exact if_pos member
      rw [walked, quiet, List.append_nil]
      exact walk

/-- Every step but `stop` keeps the invariant. -/
theorem Serving.reaction {event : Event μ} {answer : Server μ × List (Observed μ)}
    (serving : Serving seen s pending failing) (serves : event ≠ .stop)
    (reaction : Server.Reaction s event answer)
    : ∃ pending failing, Serving (seen ++ answer.2) answer.1 pending failing := by
  cases reaction with
  | connected _ | acceptFailed _ =>
      rw [List.append_nil]
      exact ⟨pending, failing, serving.quiet rfl rfl rfl rfl rfl rfl rfl nofun⟩
  | queued msg =>
      rw [List.append_nil]
      exact ⟨pending, failing, serving.quiet rfl rfl rfl rfl rfl rfl rfl serving.notAborted⟩
  | accepted err accepted =>
      cases err with
      | success => exact ⟨pending, failing, serving.accepted⟩
      | operationAborted => exact absurd accepted serving.notAborted
      | other =>
          change ∃ pending failing, Serving (seen ++ []) _ pending failing
          rw [List.append_nil]
          refine ⟨pending, failing, serving.quiet rfl rfl rfl rfl rfl rfl rfl ?_⟩
          simp [Server.acceptHandler, Server.doAcceptWs, serving.acceptorOpen]
  | sent msg rest _ =>
      have taken := serving.quiet (t := s.dequeue rest) rfl rfl rfl rfl rfl rfl rfl
        serving.notAborted
      exact taken.sent msg
  | completed index current message found => exact (serving.finished found).1
  | failed index current message found => exact (serving.finished found).2
  | handled index current message err found => exact serving.handled found
  | stopped => exact absurd rfl serves

/-- Before the first event no session has been accepted. -/
theorem serving_start : Serving [] ({} : Server μ) [] none where
  defined := rfl
  acceptorOpen := rfl
  opened := nofun
  notAborted := nofun
  nodup := List.nodup_nil
  fresh := nofun
  phase := .idle rfl rfl
  served _ := .unknown (Nat.zero_le _) nofun

theorem serving_run {events : List (Event μ)}
    (run : (serverSystem μ).RunWhere (fun _ event => event ≠ .stop) events seen s)
    : ∃ pending failing, Serving seen s pending failing := by
  induction run with
  | start => exact ⟨[], none, serving_start⟩
  | concat _ serves taken ih =>
      obtain ⟨pending, failing, serving⟩ := ih
      exact serving.reaction serves (Server.step_reaction taken).2

theorem Phase.writes_iff (phase : Phase s pending failing)
    : s.writes.length ≤ 1 ∧ (s.currentMessage.isSome ↔ s.writes ≠ []) := by
  cases phase with
  | idle silent empty => simp [silent, empty]
  | writing _ _ _ _ message _ _ one | completed _ _ _ _ message _ _ one
      | failed _ _ _ _ message _ _ one => simp [message, one]

theorem Phase.listed (phase : Phase s pending failing)
    : ∀ w ∈ s.writes, w.current ∈ s.nodes := by
  intro w outstanding
  cases phase with
  | idle _ empty => simp [empty] at outstanding
  | writing _ _ _ _ _ _ split one | completed _ _ _ _ _ _ split one
      | failed _ _ _ _ _ _ split one =>
      rw [one] at outstanding
      simp [List.mem_singleton.mp outstanding, split]

/-- Nothing is lost at a session whose write has failed but the message of that write. -/
theorem Served.received_failed {msg : μ}
    (served : Served seen nextNode nodes pending message failing node)
    (seenFailed : .failed node msg ∈ seen)
    : sentDuring node seen = writtenTo node seen ++ [msg] := by
  have isFailed : (Observed.failed node msg).isFailed node = true := by
    simp [Observed.isFailed]
  cases served with
  | unknown _ unseen => simp [(unseen _ seenFailed).2.1] at isFailed
  | alive _ _ _ healthy _ => simp [healthy _ seenFailed] at isFailed
  | dead _ _ _ _ _ last received => rw [received, last msg seenFailed]

/-- At every other session at most the message of the current walk is missing. -/
theorem Served.received_healthy
    (served : Served seen nextNode nodes pending message failing node)
    (healthy : ∀ msg, .failed node msg ∉ seen)
    : sentDuring node seen = writtenTo node seen
      ∨ ∃ msg, message = some msg ∧ sentDuring node seen = writtenTo node seen ++ [msg] := by
  cases served with
  | unknown _ unseen =>
      left
      have silent : writtenTo node seen = [] :=
        List.filterMap_eq_nil_iff.mpr (fun x member => (unseen x member).2.2)
      rw [silent, sentDuring, window_of_silent (fun x member => (unseen x member).1)]
      rfl
  | alive _ _ _ _ received =>
      cases message with
      | none => exact Or.inl (by simpa using received)
      | some msg =>
          split at received
          · exact Or.inr ⟨msg, rfl, received⟩
          · exact Or.inl (by simpa using received)
  | dead msg _ _ _ closed _ _ =>
      obtain ⟨x, member, failing⟩ := closed
      have member : x ∈ seen := List.dropWhile_subset _ member
      cases x with
      | failed other lost =>
          have same : other = node := by simpa [Observed.isFailed] using failing
          exact absurd member (same ▸ healthy lost)
      | accepted _ | sent _ | dropped _ | written _ _ => cases failing

end Walk

-----------------------------------------------------------------------------------------
-- The delivery law
-----------------------------------------------------------------------------------------

/-- In every run without `stop`: at most one write is outstanding, and a message is current
exactly while one is; its iterator denotes a session of the list; and a session has received,
in order and once each, the messages that were not dropped while it was served, except the
message whose write failed and the one that may not have reached it yet. Witness: the list
of sessions splits at the iterator into those the walk has passed and those it has not.
-/
theorem broadcast_delivers {μ : Type} {events : List (Event μ)} {seen : List (Observed μ)}
    {s : Server μ}
    (run : (serverSystem μ).RunWhere (fun _ event => event ≠ .stop) events seen s)
    : s.writes.length ≤ 1
      ∧ (s.currentMessage.isSome ↔ s.writes ≠ [])
      ∧ (∀ w ∈ s.writes, w.current ∈ s.nodes)
      ∧ ∀ node,
          (∀ msg, .failed node msg ∈ seen
            → sentDuring node seen = writtenTo node seen ++ [msg])
          ∧ ((∀ msg, .failed node msg ∉ seen)
            → sentDuring node seen = writtenTo node seen
              ∨ ∃ msg, s.currentMessage = some msg
                ∧ sentDuring node seen = writtenTo node seen ++ [msg]) := by
  obtain ⟨pending, failing, serving⟩ := serving_run run
  obtain ⟨atMostOne, exactly⟩ := serving.phase.writes_iff
  refine ⟨atMostOne, exactly, serving.phase.listed, fun node => ⟨?_, ?_⟩⟩
  · intro msg failed
    exact (serving.served node).received_failed failed
  · intro healthy
    exact (serving.served node).received_healthy healthy

/-- Two clients receive the first message. The write of the second one to the older client fails. -/
def twoClients : List (Event String) :=
  [.connect, .runAccept, .connect, .runAccept,
    .sendMessage "first", .runSend, .writeDone 0 true, .runWrite 0, .writeDone 0 true, .runWrite 0,
    .sendMessage "second", .runSend, .writeDone 0 true, .runWrite 0, .writeDone 0 false,
    .runWrite 0]

def seenByTwoClients : List (Observed String) :=
  [.accepted 0, .accepted 1, .sent "first", .written 1 "first", .written 0 "first",
    .sent "second", .written 1 "second", .failed 0 "second"]

theorem broadcast_delivers_two
    : ∃ s, (serverSystem String).RunWhere (fun _ event => event ≠ .stop) twoClients
          seenByTwoClients s
        ∧ s.writes.length ≤ 1
        ∧ sentDuring 0 seenByTwoClients = writtenTo 0 seenByTwoClients ++ ["second"]
        ∧ sentDuring 1 seenByTwoClients = writtenTo 1 seenByTwoClients := by
  have run := EventSystem.runWhere_of_exec (m := serverSystem String)
    (show EventSystem.exec (EventSystem.restrict _ (fun _ event => event ≠ .stop)) _ twoClients = _
      from rfl)
  obtain ⟨single, -, -, delivered⟩ := broadcast_delivers run
  have kept : ∀ msg, Observed.failed 1 msg ∉ seenByTwoClients := by
    intro msg
    simp [seenByTwoClients]
  refine ⟨_, run, single, (delivered 0).1 "second" (by decide), ?_⟩
  rcases (delivered 1).2 kept with all | ⟨msg, current, -⟩
  · exact all
  · cases current

/-- A client that fails at its first message never receives it, and nothing more is sent to
it when the walk is over.
-/
theorem failing_client_misses
    : ¬ ∀ (events : List (Event String)) (seen : List (Observed String)) (s : Server String),
        (serverSystem String).RunWhere (fun _ event => event ≠ .stop) events seen s
        → s.writes.length ≤ 1
          ∧ (s.currentMessage.isSome ↔ s.writes ≠ [])
          ∧ (∀ w ∈ s.writes, w.current ∈ s.nodes)
          ∧ ∀ node, sentDuring node seen = writtenTo node seen
            ∨ ∃ msg, s.currentMessage = some msg
              ∧ sentDuring node seen = writtenTo node seen ++ [msg] := by
  intro complete
  have run := EventSystem.runWhere_of_exec (m := serverSystem String)
    (show EventSystem.exec (EventSystem.restrict _ (fun _ event => event ≠ .stop)) _
      [.connect, .runAccept, .sendMessage "frame", .runSend, .writeDone 0 false, .runWrite 0]
      = _ from rfl)
  rcases (complete _ _ _ run).2.2.2 0 with none | ⟨msg, current, _⟩
  · exact absurd none (by decide)
  · cases current

end Granum.Spectrometer
