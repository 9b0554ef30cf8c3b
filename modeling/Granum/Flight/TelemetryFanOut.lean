import Granum.Library.Interleaving

/-! The writes of `send_telem`, which `granum_main` and `madgwick_thread` call. Nothing holds them
together: a thread can run between two writes of a call of the other.
-/

namespace Granum.Flight

/-- What `send_telem` writes to: `file_fd`, `nrf_fd` and `raspberry_fd`. -/
inductive Sink
  | file
  | nrf
  | raspberry
  deriving DecidableEq, Repr

inductive Thread
  | granumMain
  | madgwickThread
  deriving DecidableEq, Repr

/-- A message of a thread. Its number tells it from others with the same bytes. -/
structure TelemMessage where
  thread : Thread
  number : ℕ
  bytes : List UInt8
  deriving DecidableEq, Repr

/-- A call of `write`. -/
structure SinkWrite where
  sink : Sink
  message : TelemMessage
  deriving DecidableEq, Repr

/-- The writes of a call, in order. -/
def sendTelem (message : TelemMessage) : List SinkWrite :=
  [⟨.file, message⟩, ⟨.nrf, message⟩, ⟨.raspberry, message⟩]

/-- The messages that a thread sends. -/
def sentBy (thread : Thread) (messages : List (List UInt8)) : List TelemMessage :=
  messages.mapIdx fun number bytes => ⟨thread, number, bytes⟩

def threadWrites (thread : Thread) (messages : List (List UInt8)) : List SinkWrite :=
  (sentBy thread messages).flatMap sendTelem

/-- The messages that a sink gets in a run. -/
def receivedBy (sink : Sink) (run : List SinkWrite) : List TelemMessage :=
  run.filterMap fun write => if write.sink = sink then some write.message else none

/-- A run of the writes of both threads. -/
def TelemRun (messages : Thread → List (List UInt8)) : List SinkWrite → Prop :=
  Interleaving (threadWrites .granumMain (messages .granumMain))
    (threadWrites .madgwickThread (messages .madgwickThread))

/-- The writes of two calls in a run. -/
def writesOf (first second : TelemMessage) (run : List SinkWrite) : List SinkWrite :=
  run.filter fun write => write.message = first ∨ write.message = second

theorem thread_of_mem_sentBy {thread : Thread} {messages : List (List UInt8)}
    {message : TelemMessage} (sent : message ∈ sentBy thread messages)
    : message.thread = thread := by
  obtain ⟨number, inside, rfl⟩ := List.mem_mapIdx.mp sent
  rfl

theorem nodup_sentBy (thread : Thread) (messages : List (List UInt8))
    : (sentBy thread messages).Nodup := by
  have numbers : (sentBy thread messages).map TelemMessage.number
      = List.range messages.length := by
    apply List.ext_getElem <;> simp [sentBy]
  exact List.Nodup.of_map TelemMessage.number (numbers ▸ List.nodup_range)

/-- A call writes its message to each sink once. -/
theorem receivedBy_sendTelem (sink : Sink) (message : TelemMessage)
    : receivedBy sink (sendTelem message) = [message] := by
  cases sink <;> rfl

/-- The calls of a thread write its messages to each sink in order. -/
theorem receivedBy_threadWrites (sink : Sink) (thread : Thread) (messages : List (List UInt8))
    : receivedBy sink (threadWrites thread messages) = sentBy thread messages := by
  rw [receivedBy, threadWrites, List.filterMap_flatMap]
  exact (List.flatMap_congr fun message _ => receivedBy_sendTelem sink message).trans
    (List.flatMap_singleton' _)

section Run

variable {messages : Thread → List (List UInt8)} {run : List SinkWrite}

namespace TelemRun

/-- What a sink gets is a run of the messages of both threads. -/
theorem received (h : TelemRun messages run) (sink : Sink)
    : Interleaving (sentBy .granumMain (messages .granumMain))
        (sentBy .madgwickThread (messages .madgwickThread)) (receivedBy sink run) := by
  have observed := Interleaving.filterMap
    (fun write : SinkWrite => if write.sink = sink then some write.message else none) h
  have main := receivedBy_threadWrites sink .granumMain (messages .granumMain)
  have madgwick := receivedBy_threadWrites sink .madgwickThread (messages .madgwickThread)
  rw [receivedBy] at main madgwick
  rw [main, madgwick] at observed
  exact observed

/-- Every sink gets the messages of each thread, in its order. -/
theorem received_of_thread (h : TelemRun messages run) (sink : Sink) (thread : Thread)
    : (receivedBy sink run).filter (·.thread = thread) = sentBy thread (messages thread) := by
  have main : ∀ message ∈ sentBy .granumMain (messages .granumMain),
      message.thread = .granumMain := fun _ => thread_of_mem_sentBy
  have madgwick : ∀ message ∈ sentBy .madgwickThread (messages .madgwickThread),
      message.thread = .madgwickThread := fun _ => thread_of_mem_sentBy
  cases thread with
  | granumMain =>
      apply (h.received sink).filter_eq_left
      · intro message sent
        simp [main message sent]
      · intro message sent
        simp [madgwick message sent]
  | madgwickThread =>
      apply (h.received sink).swap.filter_eq_left
      · intro message sent
        simp [madgwick message sent]
      · intro message sent
        simp [main message sent]

/-- No message comes twice. -/
theorem received_nodup (h : TelemRun messages run) (sink : Sink)
    : (receivedBy sink run).Nodup := by
  rw [(h.received sink).perm.nodup_iff]
  refine (nodup_sentBy _ _).append (nodup_sentBy _ _) ?_
  intro message main madgwick
  have same := (thread_of_mem_sentBy main).symm.trans (thread_of_mem_sentBy madgwick)
  exact absurd same (by decide)

end TelemRun

/-- Calls whose writes come one call after the other leave their messages in this order in every
sink.
-/
theorem sublist_of_undivided {first second : TelemMessage}
    (undivided : writesOf first second run = sendTelem first ++ sendTelem second) (sink : Sink)
    : [first, second].Sublist (receivedBy sink run) := by
  have both : receivedBy sink (writesOf first second run) = [first, second] := by
    rw [undivided, receivedBy, List.filterMap_append]
    exact congrArg₂ (· ++ ·) (receivedBy_sendTelem sink first) (receivedBy_sendTelem sink second)
  rw [← both]
  exact List.filter_sublist.filterMap _

/-- In every run each sink gets every message exactly once and keeps the order of each thread. Two
messages come in the same order in all sinks if they are of one thread, or if no write of one
call comes between two writes of the other.
-/
theorem telemetry_order (h : TelemRun messages run)
    : (∀ sink, (receivedBy sink run).Nodup
        ∧ (receivedBy sink run).Perm (sentBy .granumMain (messages .granumMain)
            ++ sentBy .madgwickThread (messages .madgwickThread))
        ∧ ∀ thread,
            (receivedBy sink run).filter (·.thread = thread) = sentBy thread (messages thread))
      ∧ (∀ thread first second, [first, second].Sublist (sentBy thread (messages thread))
        → ∀ sink, [first, second].Sublist (receivedBy sink run))
      ∧ ∀ first second, writesOf first second run = sendTelem first ++ sendTelem second
        → ∀ sink, [first, second].Sublist (receivedBy sink run) := by
  refine ⟨fun sink => ?_, ?_, fun _ _ => sublist_of_undivided⟩
  · exact ⟨h.received_nodup sink, (h.received sink).perm, h.received_of_thread sink⟩
  · intro thread first second sent sink
    rw [← h.received_of_thread sink thread] at sent
    exact sent.trans List.filter_sublist

end Run

/-- One message of each thread. -/
def oneEach : Thread → List (List UInt8)
  | .granumMain => [[1]]
  | .madgwickThread => [[2]]

def mainMessage : TelemMessage := ⟨.granumMain, 0, [1]⟩
def madgwickMessage : TelemMessage := ⟨.madgwickThread, 0, [2]⟩

theorem telemetry_order_oneEach
    : [mainMessage, madgwickMessage].Sublist
        (receivedBy .raspberry (sendTelem mainMessage ++ sendTelem madgwickMessage)) := by
  have run : TelemRun oneEach (sendTelem mainMessage ++ sendTelem madgwickMessage) :=
    .left _ (.left _ (.left _ (.right _ (.right _ (.right _ .nil)))))
  exact (telemetry_order run).2.2 mainMessage madgwickMessage (by decide) .raspberry

/-- `madgwick_thread` runs after the first write of `granum_main`. -/
theorem preempted_order
    : ∃ run, TelemRun oneEach run
        ∧ [mainMessage, madgwickMessage].Sublist (receivedBy .file run)
        ∧ [madgwickMessage, mainMessage].Sublist (receivedBy .nrf run)
        ∧ ¬ [mainMessage, madgwickMessage].Sublist (receivedBy .nrf run) := by
  refine ⟨⟨.file, mainMessage⟩ :: sendTelem madgwickMessage
    ++ [⟨.nrf, mainMessage⟩, ⟨.raspberry, mainMessage⟩], ?_, ?_⟩
  · exact .left _ (.right _ (.right _ (.right _ (.left _ (.left _ .nil)))))
  · decide

end Granum.Flight
