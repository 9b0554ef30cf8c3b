import Mathlib

/-! Runs of a step function over an endless stream of inputs.
State `n` is the state before input `n`; each step may emit events, and the history of a
run pairs every emitted event with the index of the input that caused it.
-/

namespace StreamRun

variable {σ ι α : Type*}

/-- The state before input `n` of the run that starts in `init`. -/
def stateAt (step : σ → ι → σ) (init : σ) (env : ℕ → ι) : ℕ → σ
  | 0 => init
  | n + 1 => step (stateAt step init env n) (env n)

section Rules

variable {step : σ → ι → σ} {init : σ} {env : ℕ → ι}

theorem stateAt_succ (n : ℕ)
    : stateAt step init env (n + 1) = step (stateAt step init env n) (env n) := rfl

/-- A component that no step changes keeps its initial value. -/
theorem frozen {β : Type*} {f : σ → β} (same : ∀ s i, f (step s i) = f s) (n : ℕ)
    : f (stateAt step init env n) = f init := by
  induction n with
  | zero => rfl
  | succ n ih => rw [stateAt_succ, same, ih]

/-- A register that each step either loads from its input or leaves alone holds the initial
value until the first load, and a loaded value from then on; by induction on the run.
-/
theorem latched {β : Type*} {f : σ → β} {load : ι → Option β}
    (latch : ∀ s i, f (step s i) = (load i).getD (f s)) (n : ℕ)
    : ((∀ m < n, load (env m) = none) ∧ f (stateAt step init env n) = f init)
      ∨ ∃ m < n, load (env m) = some (f (stateAt step init env n)) := by
  induction n with
  | zero => exact Or.inl ⟨by simp, rfl⟩
  | succ n ih =>
      rw [stateAt_succ, latch]
      cases loaded : load (env n) with
      | some value => exact Or.inr ⟨n, by omega, by simp [loaded]⟩
      | none =>
          rcases ih with ⟨silent, held⟩ | ⟨m, before, held⟩
          · refine Or.inl ⟨?_, held⟩
            intro m bound
            rcases Nat.lt_succ_iff_lt_or_eq.mp bound with earlier | rfl
            · exact silent m earlier
            · exact loaded
          · exact Or.inr ⟨m, by omega, held⟩

end Rules

/-- Every event emitted before index `n`, each with the index that emitted it. -/
def history (emit : ℕ → List α) (n : ℕ) : List (ℕ × α) :=
  (List.range n).flatMap (fun m => (emit m).map (m, ·))

theorem history_succ (emit : ℕ → List α) (n : ℕ)
    : history emit (n + 1) = history emit n ++ (emit n).map (n, ·) := by
  simp [history, List.range_succ]

/-- An event is in the history exactly when its index emitted it. -/
@[simp] theorem mem_history {emit : ℕ → List α} {n m : ℕ} {a : α}
    : (m, a) ∈ history emit n ↔ m < n ∧ a ∈ emit m := by
  simp only [history, List.mem_flatMap, List.mem_range, List.mem_map, Prod.mk.injEq]
  constructor
  · intro member
    obtain ⟨k, bound, b, emitted, rfl, rfl⟩ := member
    exact ⟨bound, emitted⟩
  · intro member
    exact ⟨m, member.1, a, member.2, rfl, rfl⟩

/-- A history lists its events in the order of their indices, by induction on its length. -/
theorem history_sorted (emit : ℕ → List α) (n : ℕ)
    : (history emit n).Pairwise (fun left right => left.1 ≤ right.1) := by
  induction n with
  | zero => exact List.Pairwise.nil
  | succ n ih =>
      rw [history_succ]
      refine List.pairwise_append.mpr ⟨ih, ?_, ?_⟩
      · exact List.pairwise_map.mpr (List.pairwise_of_forall (fun _ _ => le_refl n))
      · intro early earlier late later
        obtain ⟨_, _, rfl⟩ := List.mem_map.mp later
        exact (mem_history.mp earlier).1.le

end StreamRun
