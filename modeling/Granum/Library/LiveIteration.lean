import Mathlib

/-! A loop by index over a list from which its body removes elements. The elements behind a removed
one move up, so the one that follows it is passed over.
-/

namespace LiveIteration

variable {α σ : Type*} [DecidableEq α]

/-- The loop. Its body answers with the next state, and whether the element is removed. -/
def run (body : σ → α → σ × Bool) (s : σ) (items : List α) (index : ℕ) : σ × List α :=
  if h : index < items.length then
    run body (body s items[index]).1
      (if (body s items[index]).2 then items.erase items[index] else items) (index + 1)
  else (s, items)
  termination_by items.length - index
  decreasing_by
    have shorter := List.length_erase_le (a := items[index]) (l := items)
    split_ifs <;> omega

/-- The loop over the elements that its index has not reached yet. -/
def skipping (body : σ → α → σ × Bool) (s : σ) : List α → σ × List α
  | [] => (s, [])
  | [x] => ((body s x).1, if (body s x).2 then [] else [x])
  | x :: next :: rest =>
      if (body s x).2 then
        let last := skipping body (body s x).1 rest
        (last.1, next :: last.2)
      else
        let last := skipping body (body s x).1 (next :: rest)
        (last.1, x :: last.2)

omit [DecidableEq α] in
/-- What holds of the loop, by the elements that it visits. -/
theorem skipping_induction (body : σ → α → σ × Bool) {motive : σ → List α → Prop}
    (nil : ∀ s, motive s []) (last : ∀ s x, motive s [x])
    (removed : ∀ s x next rest, (body s x).2 = true → motive (body s x).1 rest
      → motive s (x :: next :: rest))
    (kept : ∀ s x next rest, ¬ (body s x).2 = true → motive (body s x).1 (next :: rest)
      → motive s (x :: next :: rest)) (s : σ)
    : ∀ items, motive s items
  | [] => nil s
  | [x] => last s x
  | x :: next :: rest => by
      by_cases skips : (body s x).2 = true
      · exact removed s x next rest skips (skipping_induction body nil last removed kept _ rest)
      · exact kept s x next rest skips
          (skipping_induction body nil last removed kept _ (next :: rest))

variable {body : σ → α → σ × Bool}

theorem run_stop {s : σ} {items : List α} {index : ℕ} (stop : items.length ≤ index)
    : run body s items index = (s, items) := by
  rw [run, dif_neg (Nat.not_lt.mpr stop)]

theorem run_next {s : σ} {front rest : List α} {x : α}
    : run body s (front ++ x :: rest) front.length
      = run body (body s x).1
        (if (body s x).2 then (front ++ x :: rest).erase x else front ++ x :: rest)
        (front.length + 1) := by
  have inside : front.length < (front ++ x :: rest).length := by simp
  have here : (front ++ x :: rest)[front.length] = x := by simp
  rw [run, dif_pos inside, here]

theorem erase_middle {front rest : List α} {x : α} (nodup : (front ++ x :: rest).Nodup)
    : (front ++ x :: rest).erase x = front ++ rest := by
  have absent : x ∉ front := fun mem =>
    (List.nodup_append.mp nodup).2.2 x mem x List.mem_cons_self rfl
  rw [List.erase_append_right _ absent, List.erase_cons_head]

/-- Where no element occurs twice the loop passes over what follows a removed one, by induction on
the elements that have not been reached.
-/
theorem run_eq_skipping (s : σ) (front rest : List α) (nodup : (front ++ rest).Nodup)
    : run body s (front ++ rest) front.length
      = ((skipping body s rest).1, front ++ (skipping body s rest).2) := by
  induction s, rest using skipping_induction body generalizing front with
  | nil s => exact run_stop (by simp)
  | last s x =>
      rw [run_next, erase_middle nodup, run_stop]
      · simp only [skipping]
        split_ifs <;> rfl
      · split_ifs <;> simp
  | removed s x next rest removed ih =>
      have shorter : (front ++ next :: rest).Nodup :=
        nodup.sublist (List.Sublist.append_left (List.sublist_cons_self x _) front)
      have moved : front ++ next :: rest = front ++ [next] ++ rest := by simp
      have later := ih (front ++ [next]) (moved ▸ shorter)
      rw [List.length_append, List.length_singleton, ← moved] at later
      rw [run_next, erase_middle nodup, if_pos removed, later, skipping, if_pos removed]
      simp
  | kept s x next rest kept ih =>
      have moved : front ++ x :: next :: rest = front ++ [x] ++ next :: rest := by simp
      have later := ih (front ++ [x]) (moved ▸ nodup)
      rw [List.length_append, List.length_singleton, ← moved] at later
      rw [run_next, if_neg kept, later, skipping, if_neg kept]
      simp

end LiveIteration
