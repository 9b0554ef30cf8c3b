import Granum.Spectrometer.Camera

/-! Which buffers go back to the driver. The weak pointer of a frame is made while the frame still
holds its buffer, so it does not keep a buffer of an earlier pool out of the new stream.
-/

namespace Granum.Spectrometer

/-- The call is for a buffer of the current pool that is not in the queue. -/
def Qbuf.Sound (call : Qbuf) : Prop :=
  call.buffer.pool = call.pool ∧ call.buffer.index ∉ call.queued

instance (call : Qbuf) : Decidable call.Sound := inferInstanceAs (Decidable (_ ∧ _))

/-- The closure of a buffer is harmless: the buffer is of the current pool, or the camera is stopped,
or nothing holds the buffer any more.
-/
def Camera.Harmless (s : Camera) (buffer : MmapBuffer) : Prop :=
  buffer.pool = s.pool ∨ s.started = false ∨ ¬ s.Holds buffer

instance (s : Camera) (buffer : MmapBuffer) : Decidable (s.Harmless buffer) :=
  inferInstanceAs (Decidable (_ ∨ _))

/-- The closures that run in a step are harmless. The one that runs in a destructor finds the buffer
held.
-/
def InTime (s : Camera) : CameraEvent → Prop
  | .releaseInline buffer => buffer.pool = s.pool ∨ s.started = false
  | .runClosure => ∀ buffer ∈ s.closures.head?, s.Harmless buffer
  | .start _ | .stop | .dequeue _ | .releasePosted _ | .destroyed _ => True

/-- A buffer of an earlier pool, or of the current one. -/
def Camera.Made (s : Camera) (buffer : MmapBuffer) : Prop :=
  buffer.pool < s.pool ∨ buffer.pool = s.pool ∧ buffer.index < s.poolSize

/-- A buffer of the current pool has one place at most: the queue, a frame, or a closure; and the
program goes on.
-/
structure Owned (s : Camera) : Prop where
  running : s.terminated = false
  once : ∀ index, s.queued.count index + s.frames.count ⟨s.pool, index⟩
    + s.closures.count ⟨s.pool, index⟩ ≤ 1
  queued : ∀ index ∈ s.queued, index < s.poolSize
  frames : ∀ buffer ∈ s.frames, s.Made buffer
  closures : ∀ buffer ∈ s.closures, s.Made buffer

namespace Camera

variable {s : Camera} {buffer : MmapBuffer}

theorem qbuf_accepted (inside : buffer.index < s.poolSize) (absent : buffer.index ∉ s.queued)
    : s.qbuf buffer
      = ({ s with queued := s.queued ++ [buffer.index] }, [⟨buffer, s.pool, s.queued⟩]) := by
  rw [qbuf, if_pos ⟨inside, absent⟩]

/-- What a closure does: nothing, or a call while the camera is started and the buffer held. -/
theorem giveBack_cases (s : Camera) (buffer : MmapBuffer)
    : (s.giveBack buffer = (s, []) ∧ (s.started = false ∨ ¬ s.Holds buffer))
      ∨ (s.giveBack buffer = s.qbuf buffer ∧ s.started = true ∧ s.Holds buffer) := by
  by_cases held : s.Holds buffer
  · cases running : s.started with
    | false =>
        left
        simp [giveBack, held, enqueueBufferWs, running]
    | true =>
        right
        simp [giveBack, held, enqueueBufferWs, running]
  · left
    exact ⟨if_neg held, Or.inr held⟩

/-- The buffers of a new pool are taken one after the other, by induction on their number. -/
theorem enqueuing_buffersPool (s : Camera) (empty : s.queued = []) {count : ℕ}
    (le : count ≤ s.poolSize)
    : enqueuing.finish s (buffersPool s.pool count) = { s with queued := List.range count }
      ∧ ∀ call ∈ enqueuing.outputs s (buffersPool s.pool count), call.Sound := by
  induction count with
  | zero =>
      refine ⟨?_, List.forall_mem_nil _⟩
      rw [List.range_zero, ← empty]
      rfl
  | succ count ih =>
      obtain ⟨finish, sound⟩ := ih (Nat.le_of_succ_le le)
      have split : buffersPool s.pool (count + 1) = buffersPool s.pool count ++ [⟨s.pool, count⟩] := by
        simp [buffersPool, List.range_succ]
      have absent : count ∉ List.range count := by simp
      have accepted : enqueuing.step { s with queued := List.range count } ⟨s.pool, count⟩
          = ({ s with queued := List.range count ++ [count] },
            [⟨⟨s.pool, count⟩, s.pool, List.range count⟩]) :=
        qbuf_accepted (s := { s with queued := List.range count }) le absent
      rw [split, Mealy.finish_concat, Mealy.outputs_concat, finish, accepted, List.range_succ]
      refine ⟨rfl, fun call mem => ?_⟩
      rcases List.mem_append.mp mem with earlier | now
      · exact sound call earlier
      · rw [List.mem_singleton.mp now]
        exact ⟨rfl, absent⟩

end Camera

-----------------------------------------------------------------------------------------
-- The steps keep the ownership
-----------------------------------------------------------------------------------------

namespace Owned

variable {s : Camera} {buffer : MmapBuffer}

/-- Stopping leaves the queue empty. -/
theorem stop (h : Owned s) : Owned s.stop := by
  rw [Camera.stop]
  split_ifs with started
  · refine ⟨h.running, fun index => ?_, List.forall_mem_nil _, h.frames, h.closures⟩
    have once := h.once index
    simp only [List.count_nil]
    omega
  · exact h

/-- A new pool is in the queue, and nowhere else. -/
theorem start (h : Owned s) (count : ℕ)
    : Owned (s.start count).1 ∧ ∀ call ∈ (s.start count).2, call.Sound := by
  have stopped := h.stop
  set t := s.stop.renewBuffers count
  have older : ∀ {made}, s.stop.Made made → made.pool < t.pool := by
    intro made place
    have next : t.pool = s.stop.pool + 1 := rfl
    rcases place with before | ⟨last, -⟩ <;> omega
  obtain ⟨finish, sound⟩ := Camera.enqueuing_buffersPool t rfl (le_refl count)
  refine ⟨?_, sound⟩
  rw [Camera.start, finish]
  refine ⟨stopped.running, fun index => ?_, fun index => List.mem_range.mp,
    fun made mem => Or.inl (older (stopped.frames made mem)),
    fun made mem => Or.inl (older (stopped.closures made mem))⟩
  have frames : (⟨t.pool, index⟩ : MmapBuffer) ∉ s.stop.frames := fun mem =>
    absurd (older (stopped.frames _ mem)) (lt_irrefl _)
  have closures : (⟨t.pool, index⟩ : MmapBuffer) ∉ s.stop.closures := fun mem =>
    absurd (older (stopped.closures _ mem)) (lt_irrefl _)
  change (List.range count).count index + s.stop.frames.count ⟨t.pool, index⟩
    + s.stop.closures.count ⟨t.pool, index⟩ ≤ 1
  rw [List.count_eq_zero.mpr frames, List.count_eq_zero.mpr closures]
  exact List.nodup_iff_count_le_one.mp List.nodup_range index

/-- A buffer that the driver returns goes from the queue to a frame. -/
theorem dequeue (h : Owned s) {index : ℕ} (queued : index ∈ s.queued)
    : Owned (s.dequeue index) := by
  refine ⟨h.running, fun other => ?_, fun other mem => h.queued other (List.mem_of_mem_erase mem),
    fun made mem => ?_, h.closures⟩
  · have once := h.once other
    have taken : 0 < s.queued.count index := List.count_pos_iff.mpr queued
    simp only [Camera.dequeue, List.count_erase, List.count_append, List.count_singleton,
      beq_iff_eq, MmapBuffer.mk.injEq, true_and]
    rcases eq_or_ne index other with rfl | distinct
    · rw [if_pos rfl]
      omega
    · rw [if_neg distinct]
      omega
  · rcases List.mem_append.mp mem with live | new
    · exact h.frames made live
    · rw [List.mem_singleton.mp new]
      exact Or.inr ⟨rfl, h.queued index queued⟩

/-- A frame that is destroyed leaves its buffer to a closure. -/
theorem release (h : Owned s) (live : buffer ∈ s.frames) (destroying : List MmapBuffer)
    {closures : List MmapBuffer} (perm : closures.Perm (buffer :: s.closures))
    : Owned { s with
        frames := s.frames.erase buffer
        destroying := destroying
        closures := closures } := by
  refine ⟨h.running, fun index => ?_, h.queued,
    fun made mem => h.frames made (List.mem_of_mem_erase mem), fun made mem => ?_⟩
  · have once := h.once index
    have left : 0 < s.frames.count buffer := List.count_pos_iff.mpr live
    simp only [List.count_erase, perm.count_eq, List.count_cons, beq_iff_eq]
    rcases eq_or_ne buffer ⟨s.pool, index⟩ with rfl | distinct
    · rw [if_pos rfl]
      omega
    · rw [if_neg distinct]
      omega
  · rcases List.mem_cons.mp (perm.mem_iff.mp mem) with rfl | waiting
    · exact h.frames made live
    · exact h.closures made waiting

/-- A harmless closure puts its buffer into the queue, or nowhere. -/
theorem giveBack (h : Owned { s with closures := buffer :: s.closures })
    (harmless : s.Harmless buffer)
    : Owned (s.giveBack buffer).1 ∧ ∀ call ∈ (s.giveBack buffer).2, call.Sound := by
  have once : ∀ index, s.queued.count index + s.frames.count ⟨s.pool, index⟩
      + (s.closures.count ⟨s.pool, index⟩ + if buffer = ⟨s.pool, index⟩ then 1 else 0) ≤ 1 := by
    intro index
    have once := h.once index
    simpa only [List.count_cons, beq_iff_eq] using once
  have closures : ∀ made ∈ s.closures, s.Made made := fun made mem =>
    h.closures made (List.mem_cons_of_mem buffer mem)
  rcases s.giveBack_cases buffer with ⟨silent, -⟩ | ⟨called, started, held⟩
  · rw [silent]
    refine ⟨⟨h.running, fun index => ?_, h.queued, h.frames, closures⟩, List.forall_mem_nil _⟩
    exact (Nat.add_le_add_left (Nat.le_add_right _ _) _).trans (once index)
  · have current : buffer.pool = s.pool := by
      rcases harmless with current | stopped | released
      · exact current
      · exact absurd (stopped.symm.trans started) (by decide)
      · exact absurd held released
    have inside : buffer.index < s.poolSize := by
      rcases h.closures buffer List.mem_cons_self with before | ⟨-, inside⟩
      · exact absurd current before.ne
      · exact inside
    have own : buffer = ⟨s.pool, buffer.index⟩ := by rw [← current]
    have absent : buffer.index ∉ s.queued := by
      have bound := once buffer.index
      rw [if_pos own] at bound
      exact List.count_eq_zero.mp (by omega)
    rw [called, Camera.qbuf_accepted inside absent]
    refine ⟨⟨h.running, fun index => ?_, fun index mem => ?_, h.frames, closures⟩, ?_⟩
    · have bound := once index
      simp only [List.count_append, List.count_singleton, beq_iff_eq]
      rcases eq_or_ne buffer.index index with rfl | distinct
      · rw [if_pos own] at bound
        rw [if_pos rfl]
        omega
      · rw [if_neg distinct]
        exact (Nat.add_le_add_left (Nat.le_add_right _ _) _).trans bound
    · rcases List.mem_append.mp mem with queued | new
      · exact h.queued index queued
      · exact List.mem_singleton.mp new ▸ inside
    · intro call mem
      rw [List.mem_singleton.mp mem]
      exact ⟨current, absent⟩

end Owned

/-- A step keeps the ownership, and its calls are sound, if the closures in it are harmless. -/
theorem Owned.step {s : Camera} {event : CameraEvent} {answer : Camera × List Qbuf} (h : Owned s)
    (inTime : InTime s event) (reaction : Camera.Reaction s event answer)
    : Owned answer.1 ∧ ∀ call ∈ answer.2, call.Sound := by
  cases reaction with
  | started count => exact h.start count
  | stopped => exact ⟨h.stop, List.forall_mem_nil _⟩
  | dequeued queued => exact ⟨h.dequeue queued, List.forall_mem_nil _⟩
  | @releasedInline buffer t live destroying =>
      have released : Owned { t with closures := buffer :: t.closures } := by
        rw [destroying]
        exact h.release live _ (List.Perm.refl _)
      have harmless : t.Harmless buffer := by
        rw [destroying]
        exact inTime.imp_right Or.inl
      obtain ⟨owned, sound⟩ := released.giveBack harmless
      exact ⟨⟨owned.running, owned.once, owned.queued, owned.frames, owned.closures⟩, sound⟩
  | releasedPosted live =>
      exact ⟨h.release live _ (List.perm_append_singleton _ _), List.forall_mem_nil _⟩
  | destroyed buffer =>
      exact ⟨⟨h.running, h.once, h.queued, h.frames, h.closures⟩, List.forall_mem_nil _⟩
  | @ran buffer rest waiting =>
      have first : Owned { s with closures := buffer :: rest } := waiting ▸ h
      have harmless : s.Harmless buffer := inTime buffer (by simp [waiting])
      exact first.giveBack (s := { s with closures := rest }) harmless

/-- A closure that is not harmless makes a call for a buffer of an earlier pool. -/
theorem Camera.giveBack_unsound {s : Camera} {buffer : MmapBuffer} (other : buffer.pool ≠ s.pool)
    (started : s.started = true) (held : s.Holds buffer)
    : ∃ call ∈ (s.giveBack buffer).2, ¬ call.Sound := by
  rcases s.giveBack_cases buffer with ⟨-, stopped | released⟩ | ⟨called, -⟩
  · exact absurd (stopped.symm.trans started) (by decide)
  · exact absurd held released
  · rw [called]
    exact ⟨_, List.mem_singleton_self _, fun sound => other sound.1⟩

/-- Every step with a closure that is not harmless makes such a call. -/
theorem Camera.Reaction.unsound {s : Camera} {event : CameraEvent} {answer : Camera × List Qbuf}
    (reaction : Reaction s event answer) (late : ¬ InTime s event)
    : ∃ call ∈ answer.2, ¬ call.Sound := by
  cases reaction with
  | started _ | stopped | dequeued _ | releasedPosted _ | destroyed _ => exact absurd trivial late
  | @releasedInline buffer t live destroying =>
      obtain ⟨other, started⟩ := not_or.mp late
      have held : buffer ∈ s.destroying ++ [buffer] := List.mem_concat_self
      rw [destroying]
      exact giveBack_unsound other (Bool.eq_true_of_not_eq_false started) (Or.inr (Or.inr held))
  | @ran buffer rest waiting =>
      have harmful : ¬ s.Harmless buffer := by
        intro harmless
        refine late fun first mem => ?_
        rw [waiting, List.head?_cons] at mem
        exact Option.some.inj mem ▸ harmless
      obtain ⟨other, running⟩ := not_or.mp harmful
      obtain ⟨started, held⟩ := not_or.mp running
      exact giveBack_unsound (s := { s with closures := rest }) other
        (Bool.eq_true_of_not_eq_false started) (not_not.mp held)

theorem owned_start : Owned {} := by
  refine ⟨rfl, fun index => ?_, ?_, ?_, ?_⟩ <;> simp

/-- Runs in which all closures are harmless keep the ownership, and their calls are sound; by
induction on the run.
-/
theorem owned_run {events : List CameraEvent} {calls : List Qbuf} {s : Camera}
    (run : camera.RunWhere InTime events calls s)
    : Owned s ∧ ∀ call ∈ calls, call.Sound := by
  induction run with
  | start => exact ⟨owned_start, List.forall_mem_nil _⟩
  | concat _ inTime stepped ih =>
      obtain ⟨owned, sound⟩ := ih
      obtain ⟨next, now⟩ := owned.step inTime (Camera.step_reaction stepped)
      refine ⟨next, fun call mem => ?_⟩
      rcases List.mem_append.mp mem with earlier | new
      · exact sound call earlier
      · exact now call new

/-- In a run every call of `VIDIOC_QBUF` is for a buffer of the current pool that is not in the queue,
exactly if all closures are harmless when they run.
-/
theorem buffers_owned_iff {events : List CameraEvent} {calls : List Qbuf} {s : Camera}
    (run : camera.Run events calls s)
    : (∀ call ∈ calls, call.Sound) ↔ camera.RunWhere InTime events calls s := by
  constructor
  · intro sound
    induction run with
    | start => exact .start
    | concat before _ stepped ih =>
        refine .concat (ih fun call mem => sound call (List.mem_append_left _ mem)) ?_ stepped
        by_contra late
        obtain ⟨call, mem, unsound⟩ := (Camera.step_reaction stepped).unsound late
        exact unsound (sound call (List.mem_append_right _ mem))
  · exact fun inTime => (owned_run inTime).2

instance (s : Camera) (event : CameraEvent) : Decidable (InTime s event) :=
  match event with
  | .releaseInline _ => inferInstanceAs (Decidable (_ ∨ _))
  | .runClosure => inferInstanceAs (Decidable (∀ buffer ∈ s.closures.head?, _))
  | .start _ | .stop | .dequeue _ | .releasePosted _ | .destroyed _ => .isTrue trivial

/-- A frame of the first stream is released while the camera is stopped. -/
def releasedInTime : List CameraEvent :=
  [.start 1, .dequeue 0, .stop, .releaseInline ⟨1, 0⟩, .start 1]

theorem buffers_owned_iff_inTime
    : ∃ calls s, camera.Run releasedInTime calls s
        ∧ ((∀ call ∈ calls, call.Sound) ↔ camera.RunWhere InTime releasedInTime calls s) := by
  have run := EventSystem.runWhere_of_exec (m := camera)
    (show EventSystem.exec (EventSystem.restrict _ (fun _ _ => True)) _ releasedInTime = _ from rfl)
  exact ⟨_, _, run, buffers_owned_iff run⟩

/-- A frame of the first stream is released in the second one, which has its index in the queue. -/
theorem released_after_restart
    : ¬ ∀ (events : List CameraEvent) (calls : List Qbuf) (s : Camera),
        camera.Run events calls s → ∀ call ∈ calls, call.Sound := by
  intro sound
  have run := EventSystem.runWhere_of_exec (m := camera)
    (show EventSystem.exec (EventSystem.restrict _ (fun _ _ => True)) _
      [.start 1, .dequeue 0, .start 1, .releaseInline ⟨1, 0⟩] = _ from rfl)
  exact absurd (sound _ _ _ run ⟨⟨1, 0⟩, 2, [0]⟩ (by decide)) (by decide)

end Granum.Spectrometer
