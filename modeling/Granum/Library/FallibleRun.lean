import Mathlib

/-! Steps that can fail, run over a finite list of inputs until one of them fails. -/

namespace FallibleRun

variable {σ ι ε : Type*} {step : σ → ι → Except ε σ} {start : σ} {inputs : List ι}

/-- The state after all inputs, or the first failure. -/
def run (step : σ → ι → Except ε σ) (start : σ) (inputs : List ι) : Except ε σ :=
  inputs.foldlM step start

theorem run_cons (input : ι)
    : run step start (input :: inputs) = (step start input).bind (run step · inputs) := rfl

theorem run_append (later : List ι)
    : run step start (inputs ++ later) = (run step start inputs).bind (run step · later) := by
  rw [run, List.foldlM_append]
  rfl

theorem run_concat (input : ι)
    : run step start (inputs ++ [input]) = (run step start inputs).bind (step · input) := by
  rw [run_append]
  congr 1
  funext s
  exact bind_pure (step s input)

/-- Two computations in sequence that succeed. -/
theorem bind_ok {α β : Type*} {x : Except ε α} {f : α → Except ε β} {b : β}
    (bound : x.bind f = .ok b) : ∃ a, x = .ok a ∧ f a = .ok b := by
  cases x with
  | error e => cases bound
  | ok a => exact ⟨a, rfl, bound⟩

/-- Two computations in sequence, of which one fails. -/
theorem bind_error {α β : Type*} {x : Except ε α} {f : α → Except ε β} {e : ε}
    (bound : x.bind f = .error e) : x = .error e ∨ ∃ a, x = .ok a ∧ f a = .error e := by
  cases x with
  | error _ => exact Or.inl (congrArg Except.error (Except.error.inj bound))
  | ok a => exact Or.inr ⟨a, rfl, bound⟩

/-- A run that succeeds has succeeded on all but its last input. -/
theorem run_concat_ok {input : ι} {t : σ} (ran : run step start (inputs ++ [input]) = .ok t)
    : ∃ s, run step start inputs = .ok s ∧ step s input = .ok t :=
  bind_ok (run_concat input ▸ ran)

/-- What holds at the start and is kept by every step that succeeds holds after a run; by
induction on the run.
-/
theorem run_invariant {Inv : List ι → σ → Prop} (init : Inv [] start)
    (keeps : ∀ seen s input t, Inv seen s → step s input = .ok t → Inv (seen ++ [input]) t)
    {t : σ} (ran : run step start inputs = .ok t) : Inv inputs t := by
  induction inputs using List.reverseRecOn generalizing t with
  | nil =>
      cases ran
      exact init
  | append_singleton inputs last ih =>
      obtain ⟨s, before, stepped⟩ := run_concat_ok ran
      exact keeps inputs s last t (ih before) stepped

/-- When every step succeeds exactly on the inputs that fit what was seen before, a run
succeeds exactly if all inputs fit; by induction on the run.
-/
theorem run_ok_iff {Inv : List ι → σ → Prop} {Fits : List ι → ι → Prop}
    (init : Inv [] start)
    (keeps : ∀ seen s input t, Inv seen s → step s input = .ok t → Inv (seen ++ [input]) t)
    (fits : ∀ seen s input, Inv seen s → ((∃ t, step s input = .ok t) ↔ Fits seen input))
    : (∃ t, run step start inputs = .ok t)
      ↔ ∀ seen input rest, inputs = seen ++ input :: rest → Fits seen input := by
  induction inputs using List.reverseRecOn with
  | nil => exact ⟨fun _ seen input rest cut => by simp at cut, fun _ => ⟨start, rfl⟩⟩
  | append_singleton inputs last ih =>
      constructor
      · rintro ⟨t, ran⟩ seen input rest cut
        obtain ⟨s, before, stepped⟩ := run_concat_ok ran
        cases rest using List.reverseRecOn with
        | nil =>
            obtain ⟨rfl, same⟩ := List.append_inj' cut rfl
            obtain rfl := List.head_eq_of_cons_eq same
            exact (fits _ s _ (run_invariant init keeps before)).mp ⟨t, stepped⟩
        | append_singleton rest final =>
            have cut : inputs ++ [last] = (seen ++ input :: rest) ++ [final] := by simpa using cut
            exact ih.mp ⟨s, before⟩ seen input rest (List.append_inj' cut rfl).1
      · intro fit
        obtain ⟨s, before⟩ := ih.mpr fun seen input rest cut =>
          fit seen input (rest ++ [last]) (by simp [cut])
        obtain ⟨t, stepped⟩ := (fits inputs s last (run_invariant init keeps before)).mpr
          (fit inputs last [] rfl)
        exact ⟨t, by rw [run_concat, before]; exact stepped⟩

/-- The last state before the first failure. -/
def reached (step : σ → ι → Except ε σ) : σ → List ι → σ
  | s, [] => s
  | s, input :: rest =>
      match step s input with
      | .ok t => reached step t rest
      | .error _ => s

/-- It is the state of a run over the first inputs, and the next input fails; by induction on the
inputs.
-/
theorem reached_run (step : σ → ι → Except ε σ) (start : σ) (inputs : List ι)
    : ∃ seen rest, inputs = seen ++ rest ∧ run step start seen = .ok (reached step start inputs)
      ∧ ∀ input later, rest = input :: later →
        ∃ e, step (reached step start inputs) input = .error e := by
  induction inputs generalizing start with
  | nil => exact ⟨[], [], rfl, rfl, fun _ _ none => by cases none⟩
  | cons input inputs ih =>
      cases stepped : step start input with
      | ok t =>
          obtain ⟨seen, rest, rfl, ran, failed⟩ := ih t
          have here
              : reached step start (input :: (seen ++ rest)) = reached step t (seen ++ rest) := by
            rw [reached, stepped]
          refine ⟨input :: seen, rest, rfl, ?_, here ▸ failed⟩
          rw [run, List.foldlM_cons, stepped, here]
          exact ran
      | error e =>
          have here : reached step start (input :: inputs) = start := by rw [reached, stepped]
          refine ⟨[], input :: inputs, rfl, by rw [here]; rfl, ?_⟩
          rintro _ _ ⟨rfl, rfl⟩
          exact ⟨e, here.symm ▸ stepped⟩

end FallibleRun
