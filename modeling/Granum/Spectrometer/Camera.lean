import Granum.Library.EventSystem
import Granum.Library.Mealy

/-! The buffers of the camera: the pool of the current stream, the queue of the driver, and the frames
that hold a buffer each and give it back in their destructor.
-/

namespace Granum.Spectrometer

/-- A buffer of one of the pools that have been made, by its index in the driver. -/
structure MmapBuffer where
  pool : ℕ
  index : ℕ
  deriving DecidableEq, Repr

/-- A call of `VIDIOC_QBUF`, with the current pool and the queue of the driver at that time. -/
structure Qbuf where
  buffer : MmapBuffer
  pool : ℕ
  queued : List ℕ
  deriving DecidableEq, Repr

/-- The camera with the driver, the live frames and the closures that wait for the strand. `pool` is
the number of the current pool. A frame in `destroying` has dispatched its closure and still has its
`_target`.
-/
structure Camera where
  started : Bool := false
  pool : ℕ := 0
  poolSize : ℕ := 0
  queued : List ℕ := []
  frames : List MmapBuffer := []
  destroying : List MmapBuffer := []
  closures : List MmapBuffer := []
  terminated : Bool := false
  deriving DecidableEq, Repr

namespace Camera

variable (s : Camera)

/-- `VIDIOC_QBUF`. The driver refuses an index that it does not have or has in its queue, and the
exception ends the program.
-/
def qbuf (buffer : MmapBuffer) : Camera × List Qbuf :=
  (if buffer.index < s.poolSize ∧ buffer.index ∉ s.queued then
      { s with queued := s.queued ++ [buffer.index] }
    else { s with terminated := true },
    [⟨buffer, s.pool, s.queued⟩])

/-- `_enqueue_buffer_ws`. -/
def enqueueBufferWs (buffer : MmapBuffer) (force : Bool) : Camera × List Qbuf :=
  if !force && !s.started then (s, []) else s.qbuf buffer

/-- Some shared pointer holds the buffer: the pool, a frame, or a frame in its destructor. -/
def Holds (buffer : MmapBuffer) : Prop :=
  (buffer.pool = s.pool ∧ buffer.index < s.poolSize)
    ∨ buffer ∈ s.frames ∨ buffer ∈ s.destroying

instance (buffer : MmapBuffer) : Decidable (s.Holds buffer) := inferInstanceAs (Decidable (_ ∨ _))

/-- The closure that a frame dispatches: `localtarget.lock()` succeeds as long as some shared pointer
holds the buffer.
-/
def giveBack (buffer : MmapBuffer) : Camera × List Qbuf :=
  if s.Holds buffer then s.enqueueBufferWs buffer false else (s, [])

/-- `stop`. `VIDIOC_STREAMOFF` empties the queue. -/
def stop : Camera := if s.started then { s with started := false, queued := [] } else s

/-- `_reset_buffers_ws` and `_init_buffers_ws`: `VIDIOC_REQBUFS` empties the queue, and the buffers
are those of a new pool.
-/
def renewBuffers (count : ℕ) : Camera :=
  { s with
    queued := []
    pool := s.pool + 1
    poolSize := count }

/-- `_enqueue_buffer_ws(*buffer, true)` for several buffers. -/
def enqueuing : Mealy Camera MmapBuffer Qbuf := ⟨fun s buffer => s.enqueueBufferWs buffer true⟩

/-- The buffers of a pool. -/
def buffersPool (pool count : ℕ) : List MmapBuffer := (List.range count).map (⟨pool, ·⟩)

/-- `start`, which gets `count` buffers. -/
def start (count : ℕ) : Camera × List Qbuf :=
  let s := s.stop.renewBuffers count
  ({ enqueuing.finish s (buffersPool s.pool count) with started := true },
    enqueuing.outputs s (buffersPool s.pool count))

/-- `VIDIOC_DQBUF` and the frame that is made. -/
def dequeue (index : ℕ) : Camera :=
  { s with
    queued := s.queued.erase index
    frames := s.frames ++ [⟨s.pool, index⟩] }

end Camera

inductive CameraEvent
  | start (count : ℕ)
  | stop
  | dequeue (index : ℕ)
  /-- The destructor of a frame, in which `dispatch` runs the closure. -/
  | releaseInline (buffer : MmapBuffer)
  /-- The destructor of a frame begins, and `dispatch` posts the closure. -/
  | releasePosted (buffer : MmapBuffer)
  /-- The destructor of that frame ends. -/
  | destroyed (buffer : MmapBuffer)
  /-- The strand runs the next closure. -/
  | runClosure
  deriving DecidableEq, Repr

/-- The steps of the camera. -/
def Camera.step (s : Camera) (event : CameraEvent) : Option (Camera × List Qbuf) :=
  if s.terminated then none
  else match event with
    | .start count => some (s.start count)
    | .stop => some (s.stop, [])
    | .dequeue index =>
        if s.started ∧ index ∈ s.queued then some (s.dequeue index, []) else none
    | .releaseInline buffer =>
        if buffer ∈ s.frames then
          -- the weak pointer is made from `_target`, which keeps the buffer until the destructor ends
          let s := { s with
            frames := s.frames.erase buffer
            destroying := s.destroying ++ [buffer] }
          let (s, calls) := s.giveBack buffer
          some ({ s with destroying := s.destroying.erase buffer }, calls)
        else none
    | .releasePosted buffer =>
        if buffer ∈ s.frames then
          some ({ s with
            frames := s.frames.erase buffer
            destroying := s.destroying ++ [buffer]
            closures := s.closures ++ [buffer] }, [])
        else none
    | .destroyed buffer =>
        if buffer ∈ s.destroying then
          some ({ s with destroying := s.destroying.erase buffer }, [])
        else none
    | .runClosure =>
        match s.closures with
        | [] => none
        | buffer :: rest => some ({ s with closures := rest }.giveBack buffer)

def camera : EventSystem Camera CameraEvent Qbuf where
  start := {}
  step := Camera.step

namespace Camera

/-- What the camera answers to an event that can happen. -/
inductive Reaction (s : Camera) : CameraEvent → Camera × List Qbuf → Prop
  | started (count : ℕ) : Reaction s (.start count) (s.start count)
  | stopped : Reaction s .stop (s.stop, [])
  | dequeued {index : ℕ} (queued : index ∈ s.queued)
      : Reaction s (.dequeue index) (s.dequeue index, [])
  | releasedInline {buffer : MmapBuffer} {t : Camera} (live : buffer ∈ s.frames)
      (destroying : t = { s with
        frames := s.frames.erase buffer
        destroying := s.destroying ++ [buffer] })
      : Reaction s (.releaseInline buffer)
          ({ (t.giveBack buffer).1 with
            destroying := (t.giveBack buffer).1.destroying.erase buffer }, (t.giveBack buffer).2)
  | releasedPosted {buffer : MmapBuffer} (live : buffer ∈ s.frames)
      : Reaction s (.releasePosted buffer)
          ({ s with
            frames := s.frames.erase buffer
            destroying := s.destroying ++ [buffer]
            closures := s.closures ++ [buffer] }, [])
  | destroyed (buffer : MmapBuffer)
      : Reaction s (.destroyed buffer)
          ({ s with destroying := s.destroying.erase buffer }, [])
  | ran {buffer : MmapBuffer} {rest : List MmapBuffer} (waiting : s.closures = buffer :: rest)
      : Reaction s .runClosure ({ s with closures := rest }.giveBack buffer)

/-- Every step is one of these. -/
theorem step_reaction {s : Camera} {event : CameraEvent} {answer : Camera × List Qbuf}
    (stepped : s.step event = some answer)
    : Reaction s event answer := by
  unfold step at stepped
  split_ifs at stepped with terminated
  cases event with
  | start count =>
      obtain rfl := Option.some.inj stepped
      exact .started count
  | stop =>
      obtain rfl := Option.some.inj stepped
      exact .stopped
  | dequeue index =>
      obtain ⟨⟨-, queued⟩, taken⟩ := Option.ite_none_right_eq_some.mp stepped
      obtain rfl := Option.some.inj taken
      exact .dequeued queued
  | releaseInline buffer =>
      obtain ⟨live, taken⟩ := Option.ite_none_right_eq_some.mp stepped
      obtain rfl := Option.some.inj taken
      exact .releasedInline live rfl
  | releasePosted buffer =>
      obtain ⟨live, taken⟩ := Option.ite_none_right_eq_some.mp stepped
      obtain rfl := Option.some.inj taken
      exact .releasedPosted live
  | destroyed buffer =>
      obtain ⟨-, taken⟩ := Option.ite_none_right_eq_some.mp stepped
      obtain rfl := Option.some.inj taken
      exact .destroyed buffer
  | runClosure =>
      cases waiting : s.closures with
      | nil => simp [waiting] at stepped
      | cons buffer rest =>
          simp only [waiting] at stepped
          obtain rfl := Option.some.inj stepped
          exact .ran waiting

end Camera

end Granum.Spectrometer
