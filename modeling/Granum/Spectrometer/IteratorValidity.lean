import Granum.Spectrometer.Server

/-! The iterators that the handlers of outstanding writes have captured. `stop` clears the
list while a message is current, and a write that has finished before that still runs its
handler with the result of its own.
-/

namespace Granum.Spectrometer

variable {μ : Type} {s : Server μ}

/-- No write has finished with a result of its own whose handler has still to run. -/
def Server.NoneFinished (s : Server μ) : Prop :=
  ∀ w ∈ s.writes, w.result = none ∨ w.result = some .operationAborted

instance (s : Server μ) : Decidable s.NoneFinished :=
  inferInstanceAs (Decidable (∀ w ∈ s.writes, _))

/-- A handler that uses its iterator finds the session in the list. -/
def Server.IteratorsValid (s : Server μ) : Prop :=
  ∀ w ∈ s.writes, ∀ err, w.result = some err → err ≠ .operationAborted → w.current ∈ s.nodes

/-- The invariant of the outstanding write: it is the only one, and unless it is aborted its
session is in the list.
-/
structure Tracked (s : Server μ) : Prop where
  defined : s.undefined = false
  one : s.writes.length ≤ 1
  busy : s.writes ≠ [] → s.currentMessage.isSome
  nodup : s.nodes.Nodup
  fresh : ∀ node ∈ s.nodes, node < s.nextNode
  listed : ∀ w ∈ s.writes, w.result = some .operationAborted ∨ w.current ∈ s.nodes

theorem Tracked.iteratorsValid (tracked : Tracked s) : s.IteratorsValid := by
  intro w outstanding err finished own
  rcases tracked.listed w outstanding with aborted | listed
  · exact absurd (Option.some.inj (finished.symm.trans aborted)) own
  · exact listed

/-- The only write is the one that is found. -/
theorem Tracked.only (tracked : Tracked s) {index : ℕ} {w : Write μ}
    (found : s.writes[index]? = some w)
    : index = 0 ∧ s.writes = [w] := by
  obtain ⟨bound, same⟩ := List.getElem?_eq_some_iff.mp found
  have one := tracked.one
  obtain ⟨only, shape⟩ := List.length_eq_one_iff.mp (show s.writes.length = 1 by omega)
  obtain rfl : index = 0 := by omega
  simp only [shape, List.getElem_cons_zero] at same
  exact ⟨rfl, same ▸ shape⟩

/-- The walk goes on at a session of the list, or ends. -/
theorem Tracked.chain (defined : s.undefined = false) (empty : s.writes = [])
    (busy : s.currentMessage.isSome) (nodup : s.nodes.Nodup)
    (fresh : ∀ node ∈ s.nodes, node < s.nextNode) {target : Option ℕ}
    (member : ∀ node ∈ target, node ∈ s.nodes)
    : Tracked (s.doChainWs target).1 := by
  cases target with
  | none =>
      refine ⟨defined, ?_, ?_, nodup, fresh, ?_⟩ <;> simp [Server.doChainWs, empty]
  | some node =>
      have listed : node ∈ s.nodes := member node rfl
      cases opened : s.isOpenAt node with
      | true =>
          rw [Server.doChainWs_open opened]
          refine ⟨defined, by simp [empty], fun _ => busy, nodup, fresh, fun w outstanding => ?_⟩
          have same : w = ⟨node, s.currentMessageBuffers, none⟩ := by
            simpa [empty] using outstanding
          rw [same]
          exact Or.inr listed
      | false =>
          rw [Server.doChainWs_closed opened]
          refine ⟨defined, by simp [empty], fun _ => busy, nodup, fresh, fun w outstanding => ?_⟩
          have same : w = ⟨node, s.currentMessageBuffers, some .other⟩ := by
            simpa [empty] using outstanding
          rw [same]
          exact Or.inr listed

/-- The handler of the only write goes on with the walk, from which a failed session is gone. -/
theorem Tracked.handled {current : ℕ} {message : Option μ} {err : ErrorCode}
    (tracked : Tracked s) (one : s.writes = [⟨current, message, some err⟩])
    : Tracked ((s.retire 0).writeHandler current err).1 := by
  have busy : s.currentMessage.isSome := tracked.busy (by simp [one])
  have listed := tracked.listed ⟨current, message, some err⟩ (by simp [one])
  have empty : (s.retire 0).writes = [] := by simp [Server.retire, one]
  cases err with
  | operationAborted =>
      refine ⟨tracked.defined, ?_, ?_, List.nodup_nil, List.forall_mem_nil _, ?_⟩ <;>
        simp [Server.writeHandler, empty]
  | success =>
      have member : current ∈ (s.retire 0).nodes := listed.resolve_left (by simp)
      rw [Server.writeHandler_success member]
      exact Tracked.chain (s := s.retire 0) tracked.defined empty busy tracked.nodup
        tracked.fresh (Server.next_mem current)
  | other =>
      have member : current ∈ (s.retire 0).nodes := listed.resolve_left (by simp)
      have kept : ∀ node ∈ ((s.retire 0).erase current).nodes, node ∈ s.nodes := by
        intro node left
        rw [Server.erase_nodes] at left
        exact List.mem_of_mem_filter left
      have nodup : ((s.retire 0).erase current).nodes.Nodup := by
        rw [Server.erase_nodes]
        exact tracked.nodup.filter _
      rw [Server.writeHandler_other member]
      exact Tracked.chain (s := (s.retire 0).erase current) tracked.defined empty busy nodup
        (fun node left => tracked.fresh node (kept node left))
        (Server.next_mem_erase tracked.nodup member)

/-- A stop aborts every write, as none has finished. -/
theorem Tracked.closeAll_aborted (tracked : Tracked s) (none : s.NoneFinished)
    : ∀ w ∈ s.closeAll.writes, w.result = some .operationAborted := by
  intro w outstanding
  obtain ⟨v, member, rfl⟩ := List.mem_map.mp outstanding
  rcases none v member with unfinished | finished
  · have listed := (tracked.listed v member).resolve_left (by simp [unfinished])
    simp [Server.abortWrite, unfinished, listed]
  · simp [Server.abortWrite, finished]

theorem Tracked.stop (tracked : Tracked s) (none : s.NoneFinished)
    : Tracked s.stopHandler := by
  have aborted := tracked.closeAll_aborted none
  have one : s.closeAll.writes.length ≤ 1 := by simpa [Server.closeAll] using tracked.one
  have busy : s.closeAll.writes ≠ [] → s.currentMessage.isSome := by
    intro outstanding
    exact tracked.busy (by simpa [Server.closeAll] using outstanding)
  unfold Server.stopHandler
  split
  · exact ⟨tracked.defined, one, busy, List.nodup_nil, List.forall_mem_nil _,
      fun w outstanding => Or.inl (aborted w outstanding)⟩
  · refine ⟨tracked.defined, one, busy, ?_, ?_,
      fun w outstanding => Or.inl (aborted w outstanding)⟩
    · rw [Server.closeAll_nodes]
      exact tracked.nodup
    · rw [Server.closeAll_nodes]
      exact tracked.fresh

/-- The steps keep the invariant if `stop` only runs while no write has finished. -/
theorem Tracked.reaction {event : Event μ} {answer : Server μ × List (Observed μ)}
    (tracked : Tracked s) (allowed : event = .stop → s.NoneFinished)
    (reaction : Server.Reaction s event answer)
    : Tracked answer.1 := by
  cases reaction with
  | connected _ | acceptFailed _ | queued _ =>
      exact ⟨tracked.defined, tracked.one, tracked.busy, tracked.nodup, tracked.fresh,
        tracked.listed⟩
  | accepted err _ =>
      cases err with
      | operationAborted | other =>
          exact ⟨tracked.defined, tracked.one, tracked.busy, tracked.nodup, tracked.fresh,
            tracked.listed⟩
      | success =>
          have absent : s.nextNode ∉ s.nodes := fun listed => (tracked.fresh _ listed).ne rfl
          refine ⟨tracked.defined, tracked.one, tracked.busy,
            List.nodup_cons.mpr ⟨absent, tracked.nodup⟩, ?_, ?_⟩
          · intro node listed
            change node < s.nextNode + 1
            rcases List.mem_cons.mp listed with rfl | listed
            · exact Nat.lt_succ_self _
            · exact (tracked.fresh node listed).trans (Nat.lt_succ_self _)
          · intro w outstanding
            exact (tracked.listed w outstanding).imp_right (List.mem_cons_of_mem _)
  | sent msg rest _ =>
      by_cases busy : s.currentMessage.isSome
      · rw [Server.sendHandler_busy (s := s.dequeue rest) busy]
        exact ⟨tracked.defined, tracked.one, tracked.busy, tracked.nodup, tracked.fresh,
          tracked.listed⟩
      · have empty : s.writes = [] := not_not.mp (mt tracked.busy busy)
        have idle : (s.dequeue rest).currentMessage = none := by simpa [Server.dequeue] using busy
        rw [Server.sendHandler_idle idle]
        exact Tracked.chain (s := (s.dequeue rest).setMessage msg) tracked.defined empty rfl
          tracked.nodup tracked.fresh Server.first_mem
  | completed index current message found | failed index current message found =>
      obtain ⟨rfl, one⟩ := tracked.only found
      have listed := tracked.listed ⟨current, message, none⟩ (by simp [one])
      refine ⟨tracked.defined, by simp [one], fun _ => tracked.busy (by simp [one]),
        tracked.nodup, tracked.fresh, fun w outstanding => ?_⟩
      obtain rfl : w = _ := by simpa [one] using outstanding
      exact Or.inr (listed.resolve_left (by simp))
  | handled index current message err found =>
      obtain ⟨rfl, one⟩ := tracked.only found
      exact tracked.handled one
  | stopped => exact tracked.stop (allowed rfl)

/-- At the start no write is outstanding. -/
theorem tracked_start : Tracked ({} : Server μ) :=
  ⟨rfl, Nat.zero_le _, nofun, List.nodup_nil, nofun, nofun⟩

/-- The steps of a run in which `stop` only runs while no write has finished. -/
def StopsUnfinished (s : Server μ) (event : Event μ) : Prop := event = .stop → s.NoneFinished

instance [DecidableEq μ] (s : Server μ) (event : Event μ) : Decidable (StopsUnfinished s event) :=
  inferInstanceAs (Decidable (_ → _))

theorem tracked_run {events : List (Event μ)} {seen : List (Observed μ)}
    (run : (serverSystem μ).RunWhere StopsUnfinished events seen s) : Tracked s :=
  run.invariant tracked_start fun _ _ _ _ allowed tracked taken =>
    tracked.reaction allowed (Server.step_reaction taken).2

/-- A write that has finished with a result of its own outlives its session. -/
theorem Tracked.stop_iff (tracked : Tracked s)
    : s.stopHandler.IteratorsValid ↔ s.NoneFinished := by
  constructor
  · intro valid w outstanding
    by_contra finished
    obtain ⟨unfinished, aborted⟩ := not_or.mp finished
    obtain ⟨err, own⟩ := Option.ne_none_iff_exists'.mp unfinished
    have busy := tracked.busy (List.ne_nil_of_mem outstanding)
    have kept : s.abortWrite w = w := if_neg (fun both => unfinished both.1)
    have member : w ∈ s.closeAll.writes := List.mem_map.mpr ⟨w, outstanding, kept⟩
    rw [Server.stopHandler, if_pos busy] at valid
    have listed := valid w member err own (fun same => aborted (same ▸ own))
    cases listed
  · intro finished
    exact (tracked.reaction (fun _ => finished) .stopped).iteratorsValid

/-- In every run in which `stop` only runs while no write has finished without its handler,
every handler that uses its iterator finds the session in the list, so no erased node is
ever used; and this cannot be weakened at a `stop`. Witness: `stop` aborts the only
outstanding write before it clears the list.
-/
theorem iterators_valid {events : List (Event μ)} {seen : List (Observed μ)}
    (run : (serverSystem μ).RunWhere StopsUnfinished events seen s)
    : s.IteratorsValid ∧ s.undefined = false
      ∧ (s.stopHandler.IteratorsValid ↔ s.NoneFinished) := by
  have tracked := tracked_run run
  exact ⟨tracked.iteratorsValid, tracked.defined, tracked.stop_iff⟩

/-- `stop` runs while the only write is unfinished, and its handler does no harm. -/
theorem iterators_valid_aborted
    : ∃ s, (serverSystem String).RunWhere StopsUnfinished
          [.connect, .runAccept, .sendMessage "frame", .runSend, .stop, .runWrite 0]
          [.accepted 0, .sent "frame"] s
        ∧ s.IteratorsValid ∧ s.undefined = false
        ∧ (s.stopHandler.IteratorsValid ↔ s.NoneFinished) := by
  have run := EventSystem.runWhere_of_exec (m := serverSystem String)
    (show EventSystem.exec (EventSystem.restrict _ StopsUnfinished) _
      [.connect, .runAccept, .sendMessage "frame", .runSend, .stop, .runWrite 0] = _ from rfl)
  exact ⟨_, run, iterators_valid run⟩

/-- `stop` runs between the end of a write and its handler, which then uses the iterator of
a node that `stop` has erased.
-/
theorem finished_write_erased
    : ¬ ∀ (events : List (Event String)) (seen : List (Observed String)) (s : Server String),
        (serverSystem String).Run events seen s → s.IteratorsValid ∧ s.undefined = false := by
  intro valid
  have run := EventSystem.runWhere_of_exec (m := serverSystem String)
    (show EventSystem.exec (EventSystem.restrict _ (fun _ _ => True)) _
      [.connect, .runAccept, .sendMessage "frame", .runSend, .writeDone 0 true, .stop,
        .runWrite 0] = _ from rfl)
  exact absurd (valid _ _ _ run).2 (by decide)

end Granum.Spectrometer
