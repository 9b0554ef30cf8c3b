import Mathlib

/-! Sets of members with scores, in the order of their scores and, where these are equal, of
the members. Adding a member again only moves it to its new score.
-/

variable {M S : Type*} [LinearOrder M] [LinearOrder S]

/-- The order of the entries: by score first. -/
abbrev SortedSet.Before (a b : M × S) : Prop := toLex (a.2, a.1) ≤ toLex (b.2, b.1)

instance : Std.Total (SortedSet.Before (M := M) (S := S)) := ⟨fun _ _ => le_total _ _⟩

instance : IsTrans (M × S) SortedSet.Before := ⟨fun _ _ _ => le_trans⟩

/-- A member occurs at most once, and the entries are in order. -/
structure SortedSet (M S : Type*) [LinearOrder M] [LinearOrder S] where
  entries : List (M × S)
  sorted : entries.Pairwise SortedSet.Before
  unique : (entries.map Prod.fst).Nodup

namespace SortedSet

def empty : SortedSet M S where
  entries := []
  sorted := .nil
  unique := List.nodup_nil

variable (set : SortedSet M S)

/-- The set with only some of its entries. -/
def retain (keep : M × S → Bool) : SortedSet M S where
  entries := set.entries.filter keep
  sorted := set.sorted.filter keep
  unique := set.unique.sublist (List.filter_sublist.map Prod.fst)

/-- Adds a member, or updates its score. -/
def zadd (score : S) (member : M) : SortedSet M S where
  entries := (set.retain (·.1 ≠ member)).entries.orderedInsert Before (member, score)
  sorted := List.Pairwise.orderedInsert _ _ (set.retain (·.1 ≠ member)).sorted
  unique := by
    have others : member ∉ (set.retain (·.1 ≠ member)).entries.map Prod.fst := by simp [retain]
    have inserted := (List.perm_orderedInsert Before (member, score)
      (set.retain (·.1 ≠ member)).entries).map Prod.fst
    exact inserted.nodup_iff.mpr (List.nodup_cons.mpr ⟨others, (set.retain _).unique⟩)

/-- Removes the members with a score between `lo` and `hi`. -/
def zremrangebyscore (lo hi : S) : SortedSet M S := set.retain fun e => ¬(lo ≤ e.2 ∧ e.2 ≤ hi)

/-- The members with a score between `lo` and `hi`, with their scores. -/
def zrangebyscore (lo hi : S) : List (M × S) := set.entries.filter fun e => lo ≤ e.2 ∧ e.2 ≤ hi

def zcard : ℕ := set.entries.length

def members : List M := set.entries.map Prod.fst

@[simp] theorem mem_zadd (score : S) (member : M) (e : M × S)
    : e ∈ (set.zadd score member).entries
      ↔ e = (member, score) ∨ e ∈ set.entries ∧ e.1 ≠ member := by
  simp [zadd, retain, List.mem_orderedInsert]

@[simp] theorem mem_zremrangebyscore (lo hi : S) (e : M × S)
    : e ∈ (set.zremrangebyscore lo hi).entries ↔ e ∈ set.entries ∧ ¬(lo ≤ e.2 ∧ e.2 ≤ hi) := by
  simp only [zremrangebyscore, retain, List.mem_filter, decide_eq_true_eq]

@[simp] theorem mem_zrangebyscore (lo hi : S) (e : M × S)
    : e ∈ set.zrangebyscore lo hi ↔ e ∈ set.entries ∧ lo ≤ e.2 ∧ e.2 ≤ hi := by
  simp [zrangebyscore]

/-- A range is in the order of the scores. -/
theorem zrangebyscore_sorted (lo hi : S)
    : (set.zrangebyscore lo hi).Pairwise fun a b => a.2 ≤ b.2 := by
  have sorted := set.sorted.filter fun e => decide (lo ≤ e.2 ∧ e.2 ≤ hi)
  exact sorted.imp fun before => by
    rcases (Prod.Lex.le_iff.mp before) with less | ⟨same, -⟩
    · exact less.le
    · exact same.le

theorem zrangebyscore_unique (lo hi : S) : ((set.zrangebyscore lo hi).map Prod.fst).Nodup :=
  set.unique.sublist (List.filter_sublist.map Prod.fst)

/-- A set has as many members as a list without repetitions has elements, if they are the
same; and fewer if elements are repeated.
-/
theorem zcard_eq_length_iff (l : List M) (same : ∀ m, m ∈ set.members ↔ m ∈ l)
    : set.zcard = l.length ↔ l.Nodup := by
  have distinct : set.members.length = l.dedup.length := by
    refine List.Perm.length_eq ((List.perm_ext_iff_of_nodup set.unique l.nodup_dedup).mpr ?_)
    intro m
    rw [List.mem_dedup]
    exact same m
  rw [← List.dedup_eq_self]
  have card : set.zcard = l.dedup.length := by rw [← distinct, members, List.length_map, zcard]
  rw [card]
  constructor
  · exact l.dedup_sublist.eq_of_length
  · exact congrArg List.length

end SortedSet
