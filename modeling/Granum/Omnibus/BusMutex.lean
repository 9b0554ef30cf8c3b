import Granum.Library.Mealy

/-! Tasks that use one interface. Each entry point takes its mutex without waiting and goes on
whether or not it got it.
-/

namespace Granum.Omnibus

variable {Task : Type} [DecidableEq Task]

/-- A mutex of the kernel. -/
inductive Mutex (Task : Type)
  | free
  | held (holder : Task)
  deriving DecidableEq, Repr

/-- `xSemaphoreTake(mutex, 0)` -/
def Mutex.take (mutex : Mutex Task) (task : Task) : Bool × Mutex Task :=
  match mutex with
  | .free => (true, .held task)
  | .held holder => (false, .held holder)

/-- `xSemaphoreGive(mutex)`, where the kernel asserts that a held mutex is given by its holder. -/
def Mutex.give (mutex : Mutex Task) (task : Task) : Option (Mutex Task) :=
  match mutex with
  | .free => some .free
  | .held holder => if holder = task then some .free else none

inductive EntryPoint
  | setParams
  | readreg
  | writereg
  deriving DecidableEq, Repr

/-- Where a task is: outside of the calls, between the take and the transfer, in the transfer, or at
the common end.
-/
inductive CallPoint
  | outside
  | taken (call : EntryPoint)
  | transferring (call : EntryPoint)
  | atEnd (call : EntryPoint)
  deriving DecidableEq, Repr

/-- The tasks and their mutex. The program stops at a failed assertion. -/
structure BusState (Task : Type) where
  mutex : Mutex Task := .free
  point : Task → CallPoint := fun _ => .outside
  stopped : Bool := false

/-- A task makes a step: the entry point that it calls where it is outside, and whether an entered
one goes to its end without a transfer.
-/
structure TaskStep (Task : Type) where
  task : Task
  call : EntryPoint
  noTransfer : Bool
  deriving DecidableEq, Repr

inductive Assertion
  | holderGives
  deriving DecidableEq, Repr

def BusState.move (s : BusState Task) (task : Task) (point : CallPoint) : BusState Task :=
  { s with point := Function.update s.point task point }

def busStep (s : BusState Task) (turn : TaskStep Task) : BusState Task × List Assertion :=
  if s.stopped then (s, [])
  else
    match s.point turn.task with
    | .outside =>
        -- The result of the take is not looked at.
        let (_, mutex) := s.mutex.take turn.task
        ({ s with mutex := mutex }.move turn.task (.taken turn.call), [])
    | .taken call =>
        (s.move turn.task (if turn.noTransfer then .atEnd call else .transferring call), [])
    | .transferring call => (s.move turn.task (.atEnd call), [])
    | .atEnd _ =>
        match s.mutex.give turn.task with
        | some mutex => ({ s with mutex := mutex }.move turn.task .outside, [])
        | none => ({ s with stopped := true }, [.holderGives])

def tasks : Mealy (BusState Task) (TaskStep Task) Assertion := ⟨busStep⟩

-----------------------------------------------------------------------------------------
-- One task at a time

/-- The task is between its take and its give. -/
def BusState.Inside (s : BusState Task) (task : Task) : Prop := s.point task ≠ .outside

instance (s : BusState Task) (task : Task) : Decidable (s.Inside task) :=
  inferInstanceAs (Decidable (s.point task ≠ .outside))

/-- At most one task is inside, and one that is at its give holds the mutex. -/
structure Exclusive (s : BusState Task) : Prop where
  one : ∀ task other, s.Inside task → s.Inside other → task = other
  gives : ∀ task call, s.point task = .atEnd call → s.mutex = .held task

/-- The step is not a take of a mutex that is held. -/
def TakesFree (s : BusState Task) (turn : TaskStep Task) : Prop :=
  s.point turn.task = .outside → s.mutex = .free

/-- The tasks that are inside are those that hold the mutex. -/
structure HolderInside (s : BusState Task) : Prop where
  inside_iff : ∀ task, s.Inside task ↔ s.mutex = .held task
  running : s.stopped = false

variable {s : BusState Task} {turn : TaskStep Task}

omit [DecidableEq Task] in
theorem HolderInside.exclusive (inv : HolderInside s) : Exclusive s where
  one task other inside otherInside := by
    have holds := (inv.inside_iff task).mp inside
    have otherHolds := (inv.inside_iff other).mp otherInside
    exact Mutex.held.inj (holds.symm.trans otherHolds)
  gives task call atEnd := (inv.inside_iff task).mp (by simp [BusState.Inside, atEnd])

omit [DecidableEq Task] in
theorem holderInside_start : HolderInside ({} : BusState Task) where
  inside_iff task := by simp [BusState.Inside]
  running := rfl

/-- A task that moves within a call stays inside, and the mutex stays as it is. -/
theorem HolderInside.move (inv : HolderInside s) {task : Task} {point : CallPoint}
    (inside : s.Inside task) (stays : point ≠ .outside)
    : HolderInside (s.move task point) where
  inside_iff other := by
    by_cases same : other = task
    · subst same
      simpa [BusState.Inside, BusState.move, stays] using (inv.inside_iff other).mp inside
    · simpa [BusState.Inside, BusState.move, same] using inv.inside_iff other
  running := inv.running

theorem busStep_keeps (inv : HolderInside s) (takesFree : TakesFree s turn)
    : HolderInside (busStep s turn).1 ∧ (busStep s turn).2 = [] := by
  rw [busStep, if_neg (by simp [inv.running])]
  cases here : s.point turn.task with
  | outside =>
      have free := takesFree here
      refine ⟨⟨fun other => ?_, inv.running⟩, rfl⟩
      have notInside := inv.inside_iff other
      rw [free] at notInside
      by_cases same : other = turn.task
      · simp [BusState.Inside, BusState.move, Mutex.take, free, same]
      · simp [BusState.Inside, BusState.move, Mutex.take, free, same, Ne.symm same] at notInside ⊢
        exact notInside
  | taken call =>
      refine ⟨inv.move (by simp [BusState.Inside, here]) ?_, rfl⟩
      split <;> simp
  | transferring call => exact ⟨inv.move (by simp [BusState.Inside, here]) (by simp), rfl⟩
  | atEnd call =>
      have holds := inv.exclusive.gives turn.task call here
      have given : s.mutex.give turn.task = some .free := by rw [holds, Mutex.give, if_pos rfl]
      simp only [given]
      refine ⟨⟨fun other => ?_, inv.running⟩, trivial⟩
      by_cases same : other = turn.task
      · simp [BusState.Inside, BusState.move, same]
      · have outside := inv.inside_iff other
        rw [holds] at outside
        simpa [BusState.Inside, BusState.move, same, Ne.symm same] using outside

/-- A take of a mutex that is held lets a second task in. -/
theorem busStep_breaks (inv : HolderInside s) (takesHeld : ¬ TakesFree s turn)
    : ¬ Exclusive (busStep s turn).1 := by
  obtain ⟨here, notFree⟩ := Classical.not_imp.mp takesHeld
  cases mutex : s.mutex with
  | free => exact absurd mutex notFree
  | held holder =>
      have inside := (inv.inside_iff holder).mpr mutex
      have other : holder ≠ turn.task := by
        rintro rfl
        exact inside here
      intro exclusive
      refine other (exclusive.one holder turn.task ?_ ?_)
      · simpa [busStep, inv.running, here, BusState.Inside, BusState.move, other] using inside
      · simp [busStep, inv.running, here, BusState.Inside, BusState.move]

/-- In every order of the steps of any tasks there is one task inside at a time, and only the holder
gives, exactly if no take comes while the mutex is held.
-/
theorem exclusive_iff (schedule : List (TaskStep Task))
    : (∀ seen, seen <+: schedule
        → Exclusive (tasks.finish {} seen) ∧ tasks.outputs {} seen = [])
      ↔ tasks.Meets TakesFree {} schedule :=
  tasks.always_iff (fun _ inv => inv.exclusive) (fun _ _ => busStep_keeps)
    (fun _ _ => busStep_breaks) holderInside_start schedule

/-- One task is in its transfer, and another one goes on without the mutex. -/
theorem take_while_held
    : ¬ ∀ schedule : List (TaskStep (Fin 2)), ∀ seen, seen <+: schedule
        → Exclusive (tasks.finish {} seen) ∧ tasks.outputs {} seen = [] := by
  intro exclusive
  let schedule : List (TaskStep (Fin 2)) :=
    [⟨0, .readreg, false⟩, ⟨0, .readreg, false⟩, ⟨1, .writereg, false⟩]
  have one := (exclusive schedule schedule List.prefix_rfl).1.one 0 1
  exact absurd (one (by decide) (by decide)) (by decide)

end Granum.Omnibus
