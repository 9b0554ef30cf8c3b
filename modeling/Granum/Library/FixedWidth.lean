import Mathlib

/-! Lists that are put together from pieces of one width. -/

namespace FixedWidth

variable {α β : Type*} {f : α → List β} {width : ℕ} {items : List α}

theorem length_flatMap (all : ∀ x ∈ items, (f x).length = width)
    : (items.flatMap f).length = width * items.length := by
  induction items with
  | nil => simp
  | cons x rest ih =>
      obtain ⟨here, later⟩ := List.forall_mem_cons.mp all
      rw [List.flatMap_cons, List.length_append, here, ih later, List.length_cons]
      ring

/-- Dropping whole pieces, by induction on their number. -/
theorem drop_flatMap (all : ∀ x ∈ items, (f x).length = width) (count : ℕ)
    : (items.flatMap f).drop (width * count) = (items.drop count).flatMap f := by
  induction count generalizing items with
  | zero => simp
  | succ count ih =>
      cases items with
      | nil => simp
      | cons x rest =>
          obtain ⟨here, later⟩ := List.forall_mem_cons.mp all
          rw [List.flatMap_cons, Nat.mul_succ, Nat.add_comm, ← here, ← List.drop_drop,
            List.drop_left, here, ih later, List.drop_succ_cons]

/-- The first element of a piece stands at a multiple of the width. -/
theorem getElem?_flatMap (positive : 0 < width) (all : ∀ x ∈ items, (f x).length = width)
    {x : α} {count : ℕ} (found : items[count]? = some x)
    : (items.flatMap f)[width * count]? = (f x)[0]? := by
  have rest : items.drop count = x :: items.drop (count + 1) := by
    obtain ⟨inside, rfl⟩ := List.getElem?_eq_some_iff.mp found
    exact List.drop_eq_getElem_cons inside
  have here : (f x).length = width := all x (List.mem_of_getElem? found)
  have dropped := drop_flatMap all count
  rw [rest, List.flatMap_cons] at dropped
  have first := congrArg (·[0]?) dropped
  simpa [List.getElem?_append_left (here ▸ positive)] using first

end FixedWidth
