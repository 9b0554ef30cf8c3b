import Mathlib

/-! Lists that are objects: they are made, extended in place and read through references, and
a list changes only if it is extended itself.
-/

/-- The lists made so far; a reference is the index of one of them. -/
structure ListHeap (α : Type*) where
  cells : List (List α)
  deriving DecidableEq, Repr

namespace ListHeap

variable {α : Type*} (h : ListHeap α)

def size : ℕ := h.cells.length

/-- What a list holds now. -/
def read (a : ℕ) : List α := h.cells.getD a []

/-- A new list. -/
def alloc (items : List α) : ListHeap α × ℕ := (⟨h.cells ++ [items]⟩, h.cells.length)

/-- The list at a reference, extended in place. -/
def extend (a : ℕ) (items : List α) : ListHeap α := ⟨h.cells.modify a (· ++ items)⟩

@[simp] theorem alloc_ref (items : List α) : (h.alloc items).2 = h.size := rfl

@[simp] theorem size_alloc (items : List α) : (h.alloc items).1.size = h.size + 1 := by
  simp [alloc, size]

@[simp] theorem size_extend (a : ℕ) (items : List α) : (h.extend a items).size = h.size := by
  simp [extend, size]

@[simp] theorem read_alloc_new (items : List α) : (h.alloc items).1.read h.size = items := by
  simp [alloc, read, size]

theorem read_alloc_old {a : ℕ} (old : a < h.size) (items : List α)
    : (h.alloc items).1.read a = h.read a := by
  have bound : a < h.cells.length := old
  simp [alloc, read, List.getElem?_append_left bound]

theorem read_extend_same {a : ℕ} (old : a < h.size) (items : List α)
    : (h.extend a items).read a = h.read a ++ items := by
  have bound : a < h.cells.length := old
  simp [extend, read, bound]

theorem read_extend_other {a b : ℕ} (other : b ≠ a) (items : List α)
    : (h.extend a items).read b = h.read b := by
  simp [extend, read, other.symm]

/-- Between two heaps nothing has changed but the list at one reference. -/
structure ChangedAt (a : ℕ) (h h' : ListHeap α) : Prop where
  grown : h.size ≤ h'.size
  others : ∀ b < h.size, b ≠ a → h'.read b = h.read b

variable {h} {a : ℕ}

theorem ChangedAt.refl : ChangedAt a h h := ⟨le_rfl, fun _ _ _ => rfl⟩

theorem changedAt_alloc (items : List α) : ChangedAt a h (h.alloc items).1 :=
  ⟨by simp, fun _ old _ => h.read_alloc_old old items⟩

theorem changedAt_extend (items : List α) : ChangedAt a h (h.extend a items) :=
  ⟨by simp, fun _ _ other => h.read_extend_other other items⟩

/-- A later change to the same list, or to one that was made since. -/
theorem ChangedAt.trans {b : ℕ} {h' h'' : ListHeap α} (first : ChangedAt a h h')
    (second : ChangedAt b h' h'') (same : b = a ∨ h.size ≤ b) : ChangedAt a h h'' := by
  refine ⟨first.grown.trans second.grown, fun c old other => ?_⟩
  have apart : c ≠ b := by
    rcases same with rfl | fresh
    · exact other
    · omega
  rw [second.others c (old.trans_le first.grown) apart, first.others c old other]

end ListHeap
