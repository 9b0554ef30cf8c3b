import Mathlib

/-! Event systems: a state, and a partial step that answers an event with outputs.
A run is the list of its events, with the outputs so far and the state it has reached.
-/

/-- A start state, and a step that is `none` for an event that cannot happen. -/
structure EventSystem (σ ε ο : Type*) where
  start : σ
  step : σ → ε → Option (σ × List ο)

namespace EventSystem

variable {σ ε ο : Type*} (m : EventSystem σ ε ο)

/-- The runs all of whose steps are allowed in the state before them. -/
inductive RunWhere (allowed : σ → ε → Prop) : List ε → List ο → σ → Prop
  | start : RunWhere allowed [] [] m.start
  | concat {events : List ε} {outputs out : List ο} {s t : σ} {event : ε}
      (before : RunWhere allowed events outputs s) (holds : allowed s event)
      (step : m.step s event = some (t, out))
      : RunWhere allowed (events ++ [event]) (outputs ++ out) t

/-- All runs. -/
def Run : List ε → List ο → σ → Prop := m.RunWhere (fun _ _ => True)

variable {m} {allowed other : σ → ε → Prop} {events : List ε} {outputs : List ο} {s : σ}

/-- Steps that are allowed by a weaker condition make runs under it, by induction. -/
theorem RunWhere.mono (run : m.RunWhere allowed events outputs s)
    (weaker : ∀ s event, allowed s event → other s event)
    : m.RunWhere other events outputs s := by
  induction run with
  | start => exact .start
  | concat _ holds step ih => exact .concat ih (weaker _ _ holds) step

/-- A property of the state that every allowed step preserves holds along all runs. -/
theorem RunWhere.invariant {Inv : σ → Prop} (run : m.RunWhere allowed events outputs s)
    (start : Inv m.start)
    (step : ∀ s event t out, allowed s event → Inv s → m.step s event = some (t, out) → Inv t)
    : Inv s := by
  induction run with
  | start => exact start
  | concat _ holds taken ih => exact step _ _ _ _ holds ih taken

variable (m)

/-- The outcome of a list of events from a state, computed. -/
def exec : σ → List ε → Option (σ × List ο)
  | s, [] => some (s, [])
  | s, event :: rest =>
      (m.step s event).bind (fun next =>
        (exec next.1 rest).map (fun last => (last.1, next.2 ++ last.2)))

variable {m}

/-- One more event, by induction on the events before it. -/
theorem exec_concat {t u : σ} {out more : List ο} {event : ε}
    (done : m.exec s events = some (t, out)) (step : m.step t event = some (u, more))
    : m.exec s (events ++ [event]) = some (u, out ++ more) := by
  induction events generalizing s out with
  | nil =>
      obtain ⟨rfl, rfl⟩ : s = t ∧ [] = out := by simpa [exec] using done
      simp [exec, step]
  | cons first rest ih =>
      simp only [exec, Option.bind_eq_some_iff, Option.map_eq_some_iff, Prod.mk.injEq] at done
      obtain ⟨⟨next, now⟩, taken, ⟨last, later⟩, continued, rfl, rfl⟩ := done
      simp [exec, taken, ih continued]

/-- A run is what its events lead to, by induction on it. -/
theorem RunWhere.exec_eq (run : m.RunWhere allowed events outputs s)
    : m.exec m.start events = some (s, outputs) := by
  induction run with
  | start => rfl
  | concat _ _ step ih => exact exec_concat ih step

variable (m)

/-- The system without the steps that are not allowed. -/
def restrict (allowed : σ → ε → Prop) [∀ s event, Decidable (allowed s event)]
    : EventSystem σ ε ο where
  start := m.start
  step s event := if allowed s event then m.step s event else none

variable {m}

/-- What can be computed within the allowed steps continues a run, by induction on the
events.
-/
theorem RunWhere.append_exec [∀ s event, Decidable (allowed s event)] {more : List ε} {t : σ}
    {out : List ο} (run : m.RunWhere allowed events outputs s)
    (done : (m.restrict allowed).exec s more = some (t, out))
    : m.RunWhere allowed (events ++ more) (outputs ++ out) t := by
  induction more generalizing events outputs s out with
  | nil =>
      obtain ⟨rfl, rfl⟩ : s = t ∧ [] = out := by simpa [exec] using done
      simpa using run
  | cons event rest ih =>
      simp only [exec, Option.bind_eq_some_iff, Option.map_eq_some_iff, Prod.mk.injEq] at done
      obtain ⟨⟨next, first⟩, step, ⟨last, later⟩, continued, rfl, rfl⟩ := done
      have holds : allowed s event := by
        by_contra refused
        simp [restrict, refused] at step
      have taken : m.step s event = some (next, first) := by simpa [restrict, holds] using step
      have longer := ih (run.concat holds taken) continued
      simpa using longer

theorem runWhere_of_exec [∀ s event, Decidable (allowed s event)] {t : σ} {out : List ο}
    (done : (m.restrict allowed).exec m.start events = some (t, out))
    : m.RunWhere allowed events out t := by
  simpa using RunWhere.start.append_exec done

end EventSystem
