import Mathlib

/-! The run of accepted entries at the end of a list, as counted by a variable that every
accepted entry raises by one and every other entry resets.
-/

namespace TrailingRun

variable {α : Type*} (accept : α → Bool)

/-- The number of accepted entries at the end of a list. -/
def streak (entries : List α) : ℕ := (entries.rtakeWhile accept).length

@[simp] theorem streak_nil : streak accept ([] : List α) = 0 := rfl

/-- One more entry raises or resets the streak. -/
theorem streak_concat (entries : List α) (entry : α)
    : streak accept (entries ++ [entry])
      = if accept entry then streak accept entries + 1 else 0 := by
  by_cases accepted : accept entry
  · simp [streak, List.rtakeWhile_concat_pos _ _ _ accepted, accepted]
  · simp [streak, List.rtakeWhile_concat_neg _ _ _ accepted, accepted]

/-- The streak reaches `n` exactly when there are `n` entries and the last `n` are accepted,
by induction from the end of the list.
-/
theorem le_streak_iff {n : ℕ} {entries : List α}
    : n ≤ streak accept entries
      ↔ n ≤ entries.length ∧ ∀ entry ∈ entries.rtake n, accept entry := by
  induction entries using List.reverseRecOn generalizing n with
  | nil => simp
  | append_singleton entries entry ih =>
      cases n with
      | zero => simp
      | succ n =>
          rw [streak_concat, List.rtake_concat_succ, List.length_append]
          by_cases accepted : accept entry
          · have shorter := ih (n := n)
            simp only [accepted, if_true, Nat.succ_le_succ_iff, List.length_singleton, shorter,
              List.mem_append, List.mem_singleton]
            refine and_congr_right (fun _ => ?_)
            constructor
            · intro last other member
              rcases member with member | rfl
              · exact last other member
              · exact accepted
            · intro last other member
              exact last other (Or.inl member)
          · simp [accepted]

end TrailingRun
