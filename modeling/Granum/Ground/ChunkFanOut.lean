import Granum.Ground.SoundHub
import Granum.Library.LiveIteration

/-! One pass of the forwarder over its subscribers. The loop goes over the list that it removes the
failing ones from.
-/

namespace Granum.Ground

/-- What a pass has done: the subscribers whose `send` it has called, what has been sent, and the
connections that it has closed.
-/
structure ChunkPass where
  calls : List ℕ := []
  sent : List SentData := []
  closed : List ℕ := []
  deriving DecidableEq, Repr

/-- The body of the loop, and whether it removes the subscriber. -/
def ChunkPass.visit (fails : ℕ → Bool) (data : SoundData) (pass : ChunkPass) (subscriber : ℕ)
    : ChunkPass × Bool :=
  let called := { pass with calls := pass.calls ++ [subscriber] }
  if fails subscriber then ({ called with closed := pass.closed ++ [subscriber] }, true)
  else ({ called with sent := pass.sent ++ [⟨subscriber, data⟩] }, false)

/-- A pass over `subscribers`, and the list after it. `fails` tells whose `send` raises a
`ConnectionError`.
-/
def forwardChunk (fails : ℕ → Bool) (data : SoundData) (subscribers : List ℕ)
    : ChunkPass × List ℕ :=
  LiveIteration.run (ChunkPass.visit fails data) {} subscribers 0

/-- Every subscriber is called once; those that do not fail are sent the data and stay, and those
that fail are closed and removed.
-/
structure ForwardedToAll (fails : ℕ → Bool) (data : SoundData) (subscribers : List ℕ) : Prop where
  called : ∀ subscriber ∈ subscribers,
    (forwardChunk fails data subscribers).1.calls.count subscriber = 1
  sent : (forwardChunk fails data subscribers).1.sent
    = (subscribers.filter (!fails ·)).map (⟨·, data⟩)
  stay : (forwardChunk fails data subscribers).2 = subscribers.filter (!fails ·)
  closed : (forwardChunk fails data subscribers).1.closed = subscribers.filter fails

variable {fails : ℕ → Bool} {data : SoundData} {subscribers : List ℕ}

open LiveIteration (skipping)

theorem forwardChunk_eq (nodup : subscribers.Nodup)
    : forwardChunk fails data subscribers
      = skipping (ChunkPass.visit fails data) {} subscribers := by
  rw [forwardChunk]
  exact LiveIteration.run_eq_skipping ({} : ChunkPass) [] subscribers nodup

/-- A subscriber that does not fail. -/
theorem ChunkPass.visit_sent {subscriber : ℕ} (fine : fails subscriber = false) (pass : ChunkPass)
    : pass.visit fails data subscriber
      = ({ pass with
            calls := pass.calls ++ [subscriber]
            sent := pass.sent ++ [⟨subscriber, data⟩] }, false) := by
  simp [visit, fine]

/-- A subscriber that fails. -/
theorem ChunkPass.visit_failed {subscriber : ℕ} (failed : fails subscriber = true)
    (pass : ChunkPass)
    : pass.visit fails data subscriber
      = ({ pass with
            calls := pass.calls ++ [subscriber]
            closed := pass.closed ++ [subscriber] }, true) := by
  simp [visit, failed]

/-- If nobody fails but the last one, nobody is passed over; by induction on the subscribers. -/
theorem skipping_visit (pass : ChunkPass) (fine : ∀ x ∈ subscribers.dropLast, fails x = false)
    : skipping (ChunkPass.visit fails data) pass subscribers
      = (⟨pass.calls ++ subscribers,
          pass.sent ++ (subscribers.filter (!fails ·)).map (⟨·, data⟩),
          pass.closed ++ subscribers.filter fails⟩,
        subscribers.filter (!fails ·)) := by
  induction subscribers generalizing pass with
  | nil => simp [skipping]
  | cons x rest ih =>
      cases rest with
      | nil =>
          cases failing : fails x with
          | false => simp [skipping, ChunkPass.visit_sent failing, failing]
          | true => simp [skipping, ChunkPass.visit_failed failing, failing]
      | cons next rest =>
          rw [List.dropLast_cons_cons, List.forall_mem_cons] at fine
          obtain ⟨here, later⟩ := fine
          rw [skipping, ChunkPass.visit_sent here]
          simp [ih _ later, here]

theorem ChunkPass.visit_calls (pass : ChunkPass) (subscriber : ℕ)
    : (pass.visit fails data subscriber).1.calls = pass.calls ++ [subscriber]
      ∧ (pass.visit fails data subscriber).2 = fails subscriber := by
  cases failing : fails subscriber with
  | false => simp [visit_sent failing]
  | true => simp [visit_failed failing]

/-- Only subscribers of the list are called, by induction on what the loop visits. -/
theorem calls_subset (pass : ChunkPass) (subscribers : List ℕ)
    : (skipping (ChunkPass.visit fails data) pass subscribers).1.calls
      ⊆ pass.calls ++ subscribers := by
  induction pass, subscribers using LiveIteration.skipping_induction (ChunkPass.visit fails data) with
  | nil pass => simp [skipping]
  | last pass x =>
      rw [skipping, (pass.visit_calls x).1]
      exact List.Subset.refl _
  | removed pass x next rest removed ih =>
      rw [skipping, if_pos removed]
      refine List.Subset.trans ih ?_
      rw [(pass.visit_calls x).1, List.append_assoc]
      have shorter : (x :: rest).Sublist (x :: next :: rest) :=
        (List.sublist_cons_self next rest).cons_cons x
      exact (List.Sublist.append_left shorter _).subset
  | kept pass x next rest kept ih =>
      rw [skipping, if_neg kept]
      refine List.Subset.trans ih ?_
      rw [(pass.visit_calls x).1, List.append_assoc]
      exact List.Subset.refl _

/-- The subscriber behind one that fails is not called, by induction on what the loop visits. -/
theorem skipping_misses (pass : ChunkPass) (subscribers : List ℕ)
    (nodup : (pass.calls ++ subscribers).Nodup)
    (failing : ∃ x ∈ subscribers.dropLast, fails x = true)
    : ∃ x ∈ subscribers,
        x ∉ (skipping (ChunkPass.visit fails data) pass subscribers).1.calls := by
  induction pass, subscribers using LiveIteration.skipping_induction (ChunkPass.visit fails data) with
  | nil pass => simp at failing
  | last pass x => simp at failing
  | removed pass x next rest removed ih =>
      have split : pass.calls ++ x :: next :: rest = (pass.calls ++ [x]) ++ next :: rest := by simp
      rw [split, List.nodup_middle] at nodup
      refine ⟨next, by simp, fun called => ?_⟩
      rw [skipping, if_pos removed] at called
      have reached := calls_subset _ rest called
      rw [(pass.visit_calls x).1] at reached
      exact (List.nodup_cons.mp nodup).1 reached
  | kept pass x next rest kept ih =>
      rw [(pass.visit_calls x).2] at kept
      rw [List.dropLast_cons_cons, List.exists_mem_cons_iff] at failing
      have split : pass.calls ++ x :: next :: rest
          = (pass.visit fails data x).1.calls ++ next :: rest := by
        rw [(pass.visit_calls x).1]
        simp
      obtain ⟨missed, mem, absent⟩ := ih (split ▸ nodup) (failing.resolve_left kept)
      refine ⟨missed, List.mem_cons_of_mem x mem, ?_⟩
      rw [skipping, (pass.visit_calls x).2, if_neg kept]
      exact absent

/-- A pass reaches all subscribers exactly if none but the last one fails. -/
theorem forwardedToAll_iff (nodup : subscribers.Nodup)
    : ForwardedToAll fails data subscribers
      ↔ ∀ subscriber ∈ subscribers.dropLast, fails subscriber = false := by
  constructor
  · intro forwarded subscriber mem
    by_contra failing
    obtain ⟨missed, listed, absent⟩ := @skipping_misses fails data {} subscribers
      nodup ⟨subscriber, mem, Bool.eq_true_of_not_eq_false failing⟩
    have once := forwarded.called missed listed
    rw [forwardChunk_eq nodup, List.count_eq_zero_of_not_mem absent] at once
    exact absurd once (by decide)
  · intro fine
    have pass := (@forwardChunk_eq fails data subscribers nodup).trans (skipping_visit {} fine)
    refine ⟨fun subscriber mem => ?_, ?_, ?_, ?_⟩
    · rw [pass]
      exact List.count_eq_one_of_mem nodup mem
    · rw [pass]
      rfl
    · rw [pass]
    · rw [pass]
      rfl

/-- The last of two subscribers fails. -/
theorem forwardedToAll_iff_last
    : ForwardedToAll (· == 1) .keepAlive [0, 1]
      ↔ ∀ subscriber ∈ [0, 1].dropLast, (subscriber == 1) = false :=
  forwardedToAll_iff (by decide)

/-- The first of two subscribers fails, and the second one is not called. -/
theorem first_failing_skips
    : ¬ ∀ (fails : ℕ → Bool) (data : SoundData) (subscribers : List ℕ),
        subscribers.Nodup → ForwardedToAll fails data subscribers := by
  intro all
  have once := (all (· == 0) .keepAlive [0, 1] (by decide)).called 1 (by decide)
  rw [forwardChunk_eq (by decide)] at once
  exact absurd once (by decide)

-----------------------------------------------------------------------------------------
-- The pass in the sound hub
-----------------------------------------------------------------------------------------

/-- The event of a subscriber that the loop visits. -/
def sendEvent (fails : ℕ → Bool) (subscriber : ℕ) : HubEvent :=
  if fails subscriber then .connectionError else .send

/-- What the subscriber is sent. -/
def sentTo (fails : ℕ → Bool) (data : SoundData) (subscriber : ℕ) : List SentData :=
  if fails subscriber then [] else [⟨subscriber, data⟩]

theorem ChunkPass.visit_sentTo (pass : ChunkPass) (subscriber : ℕ)
    : (pass.visit fails data subscriber).1.sent = pass.sent ++ sentTo fails data subscriber := by
  cases failing : fails subscriber with
  | false => simp [visit_sent failing, sentTo, failing]
  | true => simp [visit_failed failing, sentTo, failing]

/-- The step of the hub for a subscriber that the loop visits. -/
theorem step_sendEvent (s : SoundHub) {index subscriber : ℕ}
    (running : s.loop = some (data, index)) (next : s.subscribers[index]? = some subscriber)
    : soundHub.step s (sendEvent fails subscriber)
      = some ({ s with
          subscribers := if fails subscriber then s.subscribers.erase subscriber else s.subscribers
          loop := some (data, index + 1) }, sentTo fails data subscriber) := by
  cases failing : fails subscriber with
  | false => simp [soundHub, SoundHub.step, sendEvent, sentTo, failing, running, next]
  | true => simp [soundHub, SoundHub.step, sendEvent, sentTo, failing, running, next]

/-- The loop is a run of the hub, by induction on what is left of it. -/
theorem run_visit_exec (s : SoundHub) (pass : ChunkPass) (subscribers : List ℕ) (index : ℕ)
    : ∃ visited out,
        soundHub.exec { s with subscribers := subscribers, loop := some (data, index) }
            (visited.map (sendEvent fails) ++ [.endLoop])
          = some ({ s with
                subscribers :=
                  (LiveIteration.run (ChunkPass.visit fails data) pass subscribers index).2
                loop := none }, out)
        ∧ (LiveIteration.run (ChunkPass.visit fails data) pass subscribers index).1.sent
          = pass.sent ++ out
        ∧ (LiveIteration.run (ChunkPass.visit fails data) pass subscribers index).1.calls
          = pass.calls ++ visited := by
  induction pass, subscribers, index using LiveIteration.run.induct (ChunkPass.visit fails data) with
  | case1 pass subscribers index inside ih =>
      have found : subscribers[index]? = some subscribers[index] := List.getElem?_eq_getElem inside
      have step := @step_sendEvent fails data { s with
        subscribers := subscribers
        loop := some (data, index) } _ _ rfl found
      simp only [dite_eq_ite, (pass.visit_calls _).2] at ih
      obtain ⟨visited, out, ran, sent, calls⟩ := ih
      rw [LiveIteration.run, dif_pos inside, (pass.visit_calls _).2]
      refine ⟨subscribers[index] :: visited, sentTo fails data subscribers[index] ++ out, ?_, ?_, ?_⟩
      · rw [List.map_cons, List.cons_append, EventSystem.exec, step, Option.bind_some, ran]
        rfl
      · rw [sent, pass.visit_sentTo, List.append_assoc]
      · rw [calls, (pass.visit_calls _).1, List.append_assoc]
        rfl
  | case2 pass subscribers index stop =>
      have ended : subscribers.length ≤ index := Nat.not_lt.mp stop
      rw [LiveIteration.run_stop ended]
      refine ⟨[], [], ?_, (List.append_nil _).symm, (List.append_nil _).symm⟩
      simp [EventSystem.exec, soundHub, SoundHub.step, ended]

/-- A pass of the forwarder is a run of the hub from the beginning of a loop to its end. -/
theorem forwardChunk_exec {s : SoundHub} (running : s.loop = some (data, 0))
    : soundHub.exec s
        ((forwardChunk fails data s.subscribers).1.calls.map (sendEvent fails) ++ [.endLoop])
      = some ({ s with
          subscribers := (forwardChunk fails data s.subscribers).2
          loop := none }, (forwardChunk fails data s.subscribers).1.sent) := by
  obtain ⟨visited, out, ran, sent, calls⟩ := @run_visit_exec fails data s {} s.subscribers 0
  rw [← running] at ran
  rw [forwardChunk, calls, sent]
  exact ran

end Granum.Ground
