import Mathlib

/-! Two sequences that run concurrently: every order of their elements that keeps each of them in
its own order.
-/

/-- The third list takes its elements from the first and the second, one at a time. -/
inductive Interleaving {α : Type*} : List α → List α → List α → Prop
  | nil : Interleaving [] [] []
  | left {first second run : List α} (a : α) (rest : Interleaving first second run)
      : Interleaving (a :: first) second (a :: run)
  | right {first second run : List α} (a : α) (rest : Interleaving first second run)
      : Interleaving first (a :: second) (a :: run)

namespace Interleaving

variable {α β : Type*} {first second run : List α}

theorem swap (h : Interleaving first second run) : Interleaving second first run := by
  induction h with
  | nil => exact .nil
  | left a _ ih => exact ih.right a
  | right a _ ih => exact ih.left a

/-- Nothing is lost and nothing is added, by induction on the run. -/
theorem perm (h : Interleaving first second run) : run.Perm (first ++ second) := by
  induction h with
  | nil => exact .nil
  | left a _ ih => exact ih.cons a
  | right a _ ih => exact (ih.cons a).trans List.perm_middle.symm

/-- What is observed of a run is a run of what is observed, by induction on it. -/
theorem filterMap (f : α → Option β) (h : Interleaving first second run)
    : Interleaving (first.filterMap f) (second.filterMap f) (run.filterMap f) := by
  induction h with
  | nil => exact .nil
  | left a _ ih =>
      cases observed : f a with
      | none =>
          rw [List.filterMap_cons_none observed, List.filterMap_cons_none observed]
          exact ih
      | some b =>
          rw [List.filterMap_cons_some observed, List.filterMap_cons_some observed]
          exact ih.left b
  | right a _ ih =>
      cases observed : f a with
      | none =>
          rw [List.filterMap_cons_none observed, List.filterMap_cons_none observed]
          exact ih
      | some b =>
          rw [List.filterMap_cons_some observed, List.filterMap_cons_some observed]
          exact ih.right b

/-- Each side keeps its order, by induction on the run. -/
theorem filter_eq_left {p : α → Bool} (h : Interleaving first second run)
    (own : ∀ a ∈ first, p a = true) (other : ∀ a ∈ second, p a = false)
    : run.filter p = first := by
  induction h with
  | nil => rfl
  | left a _ ih =>
      rw [List.filter_cons_of_pos (own a List.mem_cons_self),
        ih (fun b mem => own b (List.mem_cons_of_mem a mem)) other]
  | right a _ ih =>
      have foreign : ¬ p a = true := Bool.eq_false_iff.mp (other a List.mem_cons_self)
      rw [List.filter_cons_of_neg foreign,
        ih own (fun b mem => other b (List.mem_cons_of_mem a mem))]

end Interleaving
