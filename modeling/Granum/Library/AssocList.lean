import Mathlib

/-! Tables as lists of key and value: an entry dropped, and values collected in lists under
their keys, in the order in which the keys first appear.
-/

namespace AssocList

variable {κ ν α : Type*} {table other : List (κ × ν)} {key wanted : κ} {value : ν}

/-- No key stands twice. -/
def Distinct (table : List (κ × ν)) : Prop := (table.map Prod.fst).Nodup

instance [DecidableEq κ] : Decidable (Distinct table) :=
  inferInstanceAs (Decidable (table.map Prod.fst).Nodup)

theorem Distinct.tail {entry : κ × ν} (distinct : Distinct (entry :: table))
    : Distinct table :=
  (List.nodup_cons.mp distinct).2

section Lookup

variable [BEq κ] [LawfulBEq κ]

theorem lookup_cons_ne (differs : wanted ≠ key)
    : ((key, value) :: table).lookup wanted = table.lookup wanted := by
  rw [List.lookup_cons, beq_eq_false_iff_ne.mpr differs]

/-- With distinct keys what is looked up is what stands in the table; by induction on the table. -/
theorem lookup_eq_some_iff (distinct : Distinct table)
    : table.lookup key = some value ↔ (key, value) ∈ table := by
  induction table with
  | nil => simp
  | cons entry rest ih =>
      obtain ⟨first, held⟩ := entry
      have apart : first ∉ rest.map Prod.fst := (List.nodup_cons.mp distinct).1
      by_cases same : key = first
      · subst same
        have absent : (key, value) ∉ rest := fun member =>
          apart (List.mem_map.mpr ⟨_, member, rfl⟩)
        simp [absent, eq_comm]
      · rw [lookup_cons_ne same, ih distinct.tail]
        simp [same]

theorem lookup_of_perm (distinct : Distinct table) (perm : other.Perm table)
    : other.lookup key = table.lookup key := by
  have reordered : Distinct other := (perm.map Prod.fst).nodup_iff.mpr distinct
  ext value
  rw [lookup_eq_some_iff reordered, lookup_eq_some_iff distinct, perm.mem_iff]

/-- A value looked up by a key that stands in the table. -/
theorem exists_lookup (member : key ∈ table.map Prod.fst)
    : ∃ value, table.lookup key = some value := by
  obtain ⟨entry, held, rfl⟩ := List.mem_map.mp member
  refine Option.isSome_iff_exists.mp (List.lookup_isSome_iff.mpr ⟨entry, held, ?_⟩)
  exact beq_self_eq_true entry.1

theorem lookup_eq_none (absent : key ∉ table.map Prod.fst) : table.lookup key = none := by
  refine List.lookup_eq_none_iff.mpr fun entry held => bne_iff_ne.mpr ?_
  rintro rfl
  exact absent (List.mem_map.mpr ⟨entry, held, rfl⟩)

/-- Values changed under their keys, by induction on the table. -/
theorem lookup_map {μ : Type*} (change : ν → μ)
    : (table.map fun entry => (entry.1, change entry.2)).lookup key
      = (table.lookup key).map change := by
  induction table with
  | nil => rfl
  | cons entry rest ih =>
      obtain ⟨first, held⟩ := entry
      rw [List.map_cons]
      by_cases same : key = first
      · simp [same]
      · rw [lookup_cons_ne same, lookup_cons_ne same, ih]

end Lookup

----------------------------------------------------------------------------------------------------

variable [DecidableEq κ]

/-- The table without a key. -/
def erase (table : List (κ × ν)) (key : κ) : List (κ × ν) :=
  table.filter fun entry => entry.1 ≠ key

/-- Dropping a key changes what is found under that key alone; by induction on the table. -/
theorem lookup_erase [BEq κ] [LawfulBEq κ]
    : (erase table key).lookup wanted = if wanted = key then none else table.lookup wanted := by
  induction table with
  | nil => simp [erase]
  | cons entry rest ih =>
      obtain ⟨first, held⟩ := entry
      by_cases dropped : first = key
      · subst dropped
        have here : erase ((first, held) :: rest) first = erase rest first := by simp [erase]
        rw [here, ih]
        by_cases same : wanted = first
        · rw [if_pos same, if_pos same]
        · rw [if_neg same, if_neg same, lookup_cons_ne same]
      · have here : erase ((first, held) :: rest) key = (first, held) :: erase rest key := by
          simp [erase, dropped]
        rw [here]
        by_cases same : wanted = first
        · simp [same, dropped]
        · rw [lookup_cons_ne same, lookup_cons_ne same, ih]

----------------------------------------------------------------------------------------------------

section Collecting

variable {groups : List (κ × List α)} {group : List α} {item : α}

/-- A value added to the list under its key, which stands last when it is new. -/
def collect : List (κ × List α) → κ → α → List (κ × List α)
  | [], key, item => [(key, [item])]
  | (first, group) :: rest, key, item =>
      if first = key then (first, group ++ [item]) :: rest
      else (first, group) :: collect rest key item

theorem keys_collect
    : (collect groups key item).map Prod.fst
      = if key ∈ groups.map Prod.fst then groups.map Prod.fst
        else groups.map Prod.fst ++ [key] := by
  induction groups with
  | nil => simp [collect]
  | cons entry rest ih =>
      obtain ⟨first, held⟩ := entry
      by_cases found : first = key
      · simp [collect, found]
      · rw [collect, if_neg found, List.map_cons, ih]
        by_cases later : key ∈ rest.map Prod.fst
        · simp [later]
        · rw [if_neg later, if_neg (by simp [Ne.symm found, later])]
          simp

theorem collect_distinct (distinct : Distinct groups) : Distinct (collect groups key item) := by
  rw [Distinct, keys_collect]
  split
  · exact distinct
  · next absent =>
      exact List.Nodup.append distinct (List.nodup_singleton key)
        (List.disjoint_singleton.mpr absent)

/-- The values that have a key, collected in their order. -/
def collectAll (keyOf : α → Option κ) (items : List α) : List (κ × List α) :=
  items.foldl
    (fun groups item =>
      match keyOf item with
      | some key => collect groups key item
      | none => groups)
    []

variable {keyOf : α → Option κ} {items : List α}

theorem collectAll_concat
    : collectAll keyOf (items ++ [item])
      = match keyOf item with
        | some key => collect (collectAll keyOf items) key item
        | none => collectAll keyOf items := by
  simp [collectAll]

theorem collectAll_distinct : Distinct (collectAll keyOf items) := by
  induction items using List.reverseRecOn with
  | nil => exact List.nodup_nil
  | append_singleton items item ih =>
      rw [collectAll_concat]
      cases keyOf item with
      | none => exact ih
      | some key => exact collect_distinct ih

variable [BEq κ] [LawfulBEq κ]

/-- Only the list under the key grows, by induction on the table. -/
theorem lookup_collect
    : (collect groups key item).lookup wanted
      = if wanted = key then some ((groups.lookup key).getD [] ++ [item])
        else groups.lookup wanted := by
  induction groups with
  | nil =>
      by_cases same : wanted = key <;> simp [collect, same]
  | cons entry rest ih =>
      obtain ⟨first, held⟩ := entry
      by_cases found : first = key
      · subst found
        by_cases same : wanted = first
        · simp [collect, same]
        · simp [collect, same, lookup_cons_ne same]
      · rw [collect, if_neg found, lookup_cons_ne (Ne.symm found)]
        by_cases same : wanted = first
        · simp [same, found]
        · rw [lookup_cons_ne same, lookup_cons_ne same, ih]

/-- Under a key stand the values that have it, if there is one; by induction on the values, the
last of which joins the list under its key.
-/
theorem lookup_collectAll
    : (collectAll keyOf items).lookup key
      = if items.filter (fun item => keyOf item = some key) = [] then none
        else some (items.filter fun item => keyOf item = some key) := by
  induction items using List.reverseRecOn generalizing key with
  | nil => simp [collectAll]
  | append_singleton items item ih =>
      rw [collectAll_concat]
      cases held : keyOf item with
      | none => simp [ih, held]
      | some found =>
          rw [lookup_collect, ih, ih]
          by_cases same : key = found
          · subst same
            by_cases none : items.filter (fun item => keyOf item = some key) = []
            · simp [held, none]
            · simp [held, none]
          · have other : ¬ found = key := fun equal => same equal.symm
            simp [held, same, other]

theorem mem_collectAll_iff
    : (key, group) ∈ collectAll keyOf items
      ↔ group = items.filter (fun item => keyOf item = some key) ∧ group ≠ [] := by
  rw [← lookup_eq_some_iff collectAll_distinct, lookup_collectAll]
  split
  · next none => simp [none]
  · next some => exact ⟨fun same => by cases same; exact ⟨rfl, some⟩, fun same => by rw [same.1]⟩

end Collecting

end AssocList
