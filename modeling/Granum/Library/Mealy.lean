import Mathlib

/-! Step functions with outputs, run over finite lists of inputs.
A projection relates two of them: one input of the first is one input of the second, or none.
-/

/-- A step function with outputs. -/
structure Mealy (σ ι ο : Type*) where
  step : σ → ι → σ × List ο

namespace Mealy

variable {σ ι ο : Type*} (m : Mealy σ ι ο)

/-- The state after a list of inputs. -/
def finish : σ → List ι → σ
  | s, [] => s
  | s, input :: rest => finish (m.step s input).1 rest

/-- The outputs for a list of inputs, in order. -/
def outputs : σ → List ι → List ο
  | _, [] => []
  | s, input :: rest => (m.step s input).2 ++ outputs (m.step s input).1 rest

@[simp] theorem finish_nil (s : σ) : m.finish s [] = s := rfl

@[simp] theorem outputs_nil (s : σ) : m.outputs s [] = [] := rfl

@[simp] theorem finish_cons (s : σ) (input : ι) (rest : List ι)
    : m.finish s (input :: rest) = m.finish (m.step s input).1 rest := rfl

theorem finish_append (s : σ) (first second : List ι)
    : m.finish s (first ++ second) = m.finish (m.finish s first) second := by
  induction first generalizing s with
  | nil => rfl
  | cons input rest ih => exact ih (m.step s input).1

theorem outputs_append (s : σ) (first second : List ι)
    : m.outputs s (first ++ second)
      = m.outputs s first ++ m.outputs (m.finish s first) second := by
  induction first generalizing s with
  | nil => rfl
  | cons input rest ih =>
      simp only [List.cons_append, outputs, ih, finish_cons, List.append_assoc]

theorem finish_concat (s : σ) (inputs : List ι) (input : ι)
    : m.finish s (inputs ++ [input]) = (m.step (m.finish s inputs) input).1 :=
  m.finish_append s inputs [input]

theorem outputs_concat (s : σ) (inputs : List ι) (input : ι)
    : m.outputs s (inputs ++ [input])
      = m.outputs s inputs ++ (m.step (m.finish s inputs) input).2 := by
  rw [outputs_append]
  simp [outputs]

/-- Outputs come from the steps, each from the state after the inputs before it; by induction on the
inputs.
-/
theorem forall_mem_outputs_iff {P : ο → Prop} {s : σ} {inputs : List ι}
    : (∀ o ∈ m.outputs s inputs, P o)
      ↔ ∀ seen input rest, inputs = seen ++ input :: rest
        → ∀ o ∈ (m.step (m.finish s seen) input).2, P o := by
  induction inputs generalizing s with
  | nil => simp
  | cons first inputs ih =>
      simp only [outputs, List.forall_mem_append, ih]
      constructor
      · rintro ⟨now, later⟩ seen input rest split
        rcases List.cons_eq_append_iff.mp split with ⟨rfl, same⟩ | ⟨seen, rfl, rfl⟩
        · obtain ⟨rfl, -⟩ := List.cons.inj same
          exact now
        · exact later seen input rest rfl
      · intro all
        refine ⟨all [] first inputs rfl, ?_⟩
        rintro seen input rest rfl
        exact all (first :: seen) input rest rfl

/-- What every step preserves holds after a run, by induction on the inputs. -/
theorem finish_invariant {P : σ → Prop} (step : ∀ s input, P s → P (m.step s input).1) {s : σ}
    (start : P s) (inputs : List ι)
    : P (m.finish s inputs) := by
  induction inputs generalizing s with
  | nil => exact start
  | cons input rest ih => exact ih (step s input start)

/-- Every step of a run meets a condition on the state before it and on its input. -/
def Meets (P : σ → ι → Prop) : σ → List ι → Prop
  | _, [] => True
  | s, input :: rest => P s input ∧ Meets P (m.step s input).1 rest

/-- Every state of a run is good, and nothing is output, exactly if every step meets a condition: an
invariant makes states good, steps that meet the condition keep it silently, and other steps
lead to states that are not good.
-/
theorem always_iff {Inv Good : σ → Prop} {P : σ → ι → Prop} (good : ∀ s, Inv s → Good s)
    (keeps : ∀ s input, Inv s → P s input → Inv (m.step s input).1 ∧ (m.step s input).2 = [])
    (breaks : ∀ s input, Inv s → ¬ P s input → ¬ Good (m.step s input).1) {s : σ} (start : Inv s)
    (inputs : List ι)
    : (∀ seen, seen <+: inputs → Good (m.finish s seen) ∧ m.outputs s seen = [])
      ↔ m.Meets P s inputs := by
  induction inputs generalizing s with
  | nil =>
      refine iff_of_true (fun seen before => ?_) trivial
      rw [List.prefix_nil.mp before]
      exact ⟨good s start, rfl⟩
  | cons input rest ih =>
      by_cases meets : P s input
      · obtain ⟨next, silent⟩ := keeps s input start meets
        rw [Meets, and_iff_right meets, ← ih next]
        constructor
        · intro all seen before
          obtain ⟨holds, none⟩ := all (input :: seen) ((List.prefix_cons_inj input).mpr before)
          rw [outputs, silent] at none
          exact ⟨holds, none⟩
        · intro all seen before
          rcases List.prefix_cons_iff.mp before with rfl | ⟨tail, rfl, inside⟩
          · exact ⟨good s start, rfl⟩
          · obtain ⟨holds, none⟩ := all tail inside
            refine ⟨holds, ?_⟩
            rw [outputs, silent, none]
            rfl
      · refine iff_of_false (fun all => ?_) (fun meet => meets meet.1)
        exact breaks s input start meets (all [input] ⟨rest, rfl⟩).1

/-- Inputs that another machine takes for those of `m` lead it through the same run, by induction on
the inputs.
-/
theorem run_map {ι' : Type*} {m' : Mealy σ ι' ο} {f : ι → ι'}
    (step : ∀ s input, m'.step s (f input) = m.step s input) (s : σ) (inputs : List ι)
    : m'.finish s (inputs.map f) = m.finish s inputs
      ∧ m'.outputs s (inputs.map f) = m.outputs s inputs := by
  induction inputs generalizing s with
  | nil => exact ⟨rfl, rfl⟩
  | cons input rest ih =>
      obtain ⟨state, output⟩ := ih (m.step s input).1
      rw [List.map_cons, finish_cons, finish_cons, outputs, outputs, step]
      exact ⟨state, congrArg (_ ++ ·) output⟩

/-- A state map under which `m'` answers each input of `m` with the outputs that belong to
it, and skips the inputs that do not concern it.
-/
structure Projection {σ' ι' ο' : Type*} (m : Mealy σ ι ο) (m' : Mealy σ' ι' ο') where
  state : σ → σ'
  input : ι → Option ι'
  output : ο → Option ο'
  of_some : ∀ s i i', input i = some i'
    → m'.step (state s) i' = (state (m.step s i).1, (m.step s i).2.filterMap output)
  of_none : ∀ s i, input i = none
    → state (m.step s i).1 = state s ∧ (m.step s i).2.filterMap output = []

variable {σ' ι' ο' : Type*} {m' : Mealy σ' ι' ο'}

/-- A projection commutes with runs: the projected inputs lead to the projected state with
the projected outputs; by induction on the inputs.
-/
theorem Projection.run {m : Mealy σ ι ο} (p : Projection m m') (s : σ) (inputs : List ι)
    : m'.finish (p.state s) (inputs.filterMap p.input) = p.state (m.finish s inputs)
      ∧ m'.outputs (p.state s) (inputs.filterMap p.input)
        = (m.outputs s inputs).filterMap p.output := by
  induction inputs generalizing s with
  | nil => exact ⟨rfl, rfl⟩
  | cons input rest ih =>
      cases concerned : p.input input with
      | none =>
          obtain ⟨same, silent⟩ := p.of_none s input concerned
          obtain ⟨state, outputs⟩ := ih (m.step s input).1
          rw [same] at state outputs
          rw [List.filterMap_cons_none concerned]
          refine ⟨state, outputs.trans ?_⟩
          rw [Mealy.outputs, List.filterMap_append, silent, List.nil_append]
      | some input' =>
          have step := p.of_some s input input' concerned
          obtain ⟨state, outputs⟩ := ih (m.step s input).1
          rw [List.filterMap_cons_some concerned, finish_cons, Mealy.outputs, step, Mealy.outputs,
            List.filterMap_append]
          exact ⟨state, congrArg (_ ++ ·) outputs⟩

end Mealy
