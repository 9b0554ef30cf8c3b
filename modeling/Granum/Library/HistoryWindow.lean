import Mathlib

/-! The window of a history: from its first opening entry up to the first closing entry
after that.
-/

namespace HistoryWindow

variable {α : Type*} {opens closes : α → Bool} {history : List α}

/-- The entries from the first opening one on. -/
def sinceOpened (opens : α → Bool) (history : List α) : List α :=
  history.dropWhile (!opens ·)

/-- The entries of these before the first closing one. -/
def window (opens closes : α → Bool) (history : List α) : List α :=
  (sinceOpened opens history).takeWhile (!closes ·)

theorem sinceOpened_append (opened : ∃ x ∈ history, opens x) (more : List α)
    : sinceOpened opens (history ++ more) = sinceOpened opens history ++ more := by
  have nonempty : history.dropWhile (!opens ·) ≠ [] := by
    intro silent
    obtain ⟨x, member, opening⟩ := opened
    have closed := List.dropWhile_eq_nil_iff.mp silent x member
    simp [opening] at closed
  unfold sinceOpened
  rw [List.dropWhile_append, if_neg (by simpa using nonempty)]

theorem window_append_of_silent (silent : ∀ x ∈ history, opens x = false) (more : List α)
    : window opens closes (history ++ more) = window opens closes more := by
  have skipped : ∀ x ∈ history, (!opens x) = true := by simpa using silent
  unfold window sinceOpened
  rw [List.dropWhile_append_of_pos skipped]

theorem window_of_silent (silent : ∀ x ∈ history, opens x = false)
    : window opens closes history = [] := by
  have empty : window opens closes (history ++ []) = window opens closes [] :=
    window_append_of_silent silent []
  rwa [List.append_nil] at empty

/-- While nothing has closed the window, it grows with the history. -/
theorem window_append_of_open (opened : ∃ x ∈ history, opens x)
    (unclosed : ∀ x ∈ history, closes x = false) (more : List α)
    : window opens closes (history ++ more)
      = window opens closes history ++ more.takeWhile (!closes ·) := by
  have inside : ∀ x ∈ sinceOpened opens history, (!closes x) = true := by
    intro x member
    simp [unclosed x (List.dropWhile_subset _ member)]
  unfold window
  rw [sinceOpened_append opened, List.takeWhile_append_of_pos inside,
    List.takeWhile_eq_self_iff.mpr inside]

/-- The window is closed: a closing entry follows the first opening one. -/
def Closed (opens closes : α → Bool) (history : List α) : Prop :=
  ∃ x ∈ sinceOpened opens history, closes x

theorem closed_concat (opened : ∃ x ∈ history, opens x) {x : α} (closing : closes x)
    : Closed opens closes (history ++ [x]) := by
  refine ⟨x, ?_, closing⟩
  rw [sinceOpened_append opened]
  simp

theorem Closed.opened (closed : Closed opens closes history) : ∃ x ∈ history, opens x := by
  obtain ⟨x, member, _⟩ := closed
  by_contra silent
  have skipped : ∀ y ∈ history, (!opens y) = true := by simpa using silent
  rw [sinceOpened, List.dropWhile_eq_nil_iff.mpr skipped] at member
  cases member

theorem Closed.append (closed : Closed opens closes history) (more : List α)
    : Closed opens closes (history ++ more) := by
  have opened := closed.opened
  obtain ⟨x, member, closing⟩ := closed
  refine ⟨x, ?_, closing⟩
  rw [sinceOpened_append opened]
  exact List.mem_append_left more member

/-- A closed window stays as it is. -/
theorem Closed.window_append (closed : Closed opens closes history) (more : List α)
    : window opens closes (history ++ more) = window opens closes history := by
  have opened := closed.opened
  obtain ⟨x, member, closing⟩ := closed
  unfold window
  rw [sinceOpened_append opened, List.takeWhile_append, if_neg]
  intro whole
  have all := List.takeWhile_eq_self_iff.mp ((List.takeWhile_prefix _).eq_of_length whole)
  have inside := all x member
  simp [closing] at inside

end HistoryWindow
