import Granum.Structure.CleanOldVersions

/-! What the clean-up of one basename does to a directory, and with it the loop over all of them.
A basename is fixed unless it is a directory: it gets the last variant and the others go.
-/

namespace Granum.Structure

variable {Content : Type} {u : Unicode} {entries : Entries Content} {name : Name}

@[simp]
theorem isfile_iff
    : isfile entries name = true ↔ ∃ content, entries.lookup name = some (.file content) := by
  cases held : entries.lookup name with
  | none => simp [isfile, held]
  | some node => cases node <;> simp [isfile, held, Node.isDir]

theorem isdir_iff
    : isdir entries name = true ↔ ∃ inner, entries.lookup name = some (.dir inner) := by
  cases held : entries.lookup name with
  | none => simp [isdir, held]
  | some node => cases node <;> simp [isdir, held, Node.isDir]

theorem isdir_congr {other : Entries Content} {wanted : Name}
    (same : entries.lookup name = other.lookup wanted)
    : isdir entries name = isdir other wanted := by
  rw [isdir, isdir, same]

theorem isdir_of_file {content : Content} (held : entries.lookup name = some (.file content))
    : isdir entries name = false := by
  rw [isdir, held]
  rfl

/-- Files that are removed one after the other, by induction on their names. -/
theorem run_remove {names : List Name} (distinct : names.Nodup)
    (files : ∀ f ∈ names, isfile entries f = true)
    : ∃ left, FallibleRun.run perform entries (names.map .remove) = .ok left
      ∧ ∀ name, left.lookup name = if name ∈ names then none else entries.lookup name := by
  induction names generalizing entries with
  | nil => exact ⟨entries, rfl, fun name => by simp⟩
  | cons f rest ih =>
      obtain ⟨absent, distinct⟩ := List.nodup_cons.mp distinct
      obtain ⟨content, held⟩ := isfile_iff.mp (files f List.mem_cons_self)
      have removed : perform entries (.remove f) = .ok (AssocList.erase entries f) := by
        rw [perform, held]
      have remain : ∀ g ∈ rest, isfile (AssocList.erase entries f) g = true := by
        intro g member
        have other : g ≠ f := fun same => absent (same ▸ member)
        rw [isfile_iff, AssocList.lookup_erase, if_neg other]
        exact isfile_iff.mp (files g (List.mem_cons_of_mem _ member))
      obtain ⟨left, ran, found⟩ := ih distinct remain
      refine ⟨left, ?_, fun name => ?_⟩
      · rw [List.map_cons, FallibleRun.run_cons, removed]
        exact ran
      · rw [found, AssocList.lookup_erase]
        by_cases here : name = f <;> by_cases later : name ∈ rest <;> simp [here, later]

----------------------------------------------------------------------------------------------------

/-- The variants of a basename are files of the directory. -/
structure Fixable (entries : Entries Content) (group : Name × List Name) : Prop where
  nonempty : group.2 ≠ []
  distinct : group.2.Nodup
  apart : group.1 ∉ group.2
  files : ∀ f ∈ group.2, isfile entries f = true

/-- The last of the sorted variants has the highest number. -/
theorem sorted_concat {variants : List Name} (nonempty : variants ≠ [])
    : ∃ init source, sorted u variants = init ++ [source] ∧ (init ++ [source]).Perm variants
      ∧ ∀ f ∈ variants, number u f ≤ number u source := by
  have perm : (sorted u variants).Perm variants := List.perm_insertionSort ..
  have total : Std.Total fun f g => number u f ≤ number u g := ⟨fun f g => le_total _ _⟩
  have trans : IsTrans Name fun f g => number u f ≤ number u g := ⟨fun f g h => le_trans⟩
  have ordered : (sorted u variants).Pairwise fun f g => number u f ≤ number u g :=
    List.pairwise_insertionSort _ variants
  obtain none | ⟨init, source, cut⟩ := List.eq_nil_or_concat (sorted u variants)
  · exact absurd (List.perm_nil.mp (none ▸ perm).symm) nonempty
  · rw [List.concat_eq_append] at cut
    refine ⟨init, source, cut, cut ▸ perm, fun f member => ?_⟩
    rw [cut] at perm ordered
    rcases List.mem_append.mp (perm.mem_iff.mpr member) with before | last
    · exact (List.pairwise_append.mp ordered).2.2 f before source (List.mem_singleton_self _)
    · rw [List.mem_singleton.mp last]

/-- What a directory holds after the changes for a basename. -/
structure Fixed (u : Unicode) (entries left : Entries Content) (group : Name × List Name)
    : Prop where
  newest : ∃ source ∈ group.2, (∀ f ∈ group.2, number u f ≤ number u source)
    ∧ left.lookup group.1 = entries.lookup source
  rest : ∀ name ≠ group.1,
    left.lookup name = if name ∈ group.2 then none else entries.lookup name

/-- A directory cannot be replaced by a file. -/
theorem fixGroup_isdir {group : Name × List Name} (fixable : Fixable entries group)
    (directory : isdir entries group.1 = true)
    : ∃ failure, fixGroup u entries group = .error failure := by
  obtain ⟨init, source, cut, perm, -⟩ := sorted_concat (u := u) fixable.nonempty
  obtain ⟨content, held⟩ := isfile_iff.mp (fixable.files source (perm.mem_iff.mp (by simp)))
  obtain ⟨inner, target⟩ := isdir_iff.mp directory
  have kept : isfile entries group.1 = false := by rw [isfile, target]; rfl
  have refused : perform entries (.rename source group.1) = .error (.isADirectory, entries) := by
    rw [perform, held, target]
  refine ⟨(.isADirectory, entries), ?_⟩
  rw [fixGroup, changes, cut, List.getLast?_concat, kept]
  simp only [Bool.false_eq_true, if_false, List.nil_append, FallibleRun.run_cons, refused]
  rfl

/-- The removal of the old file goes through when the basename is no directory. -/
theorem run_clear {basename : Name} (free : isdir entries basename = false)
    : ∃ freed,
        FallibleRun.run perform entries
          (if isfile entries basename then [.remove basename] else []) = .ok freed
        ∧ ∀ name, freed.lookup name = if name = basename then none else entries.lookup name := by
  by_cases present : isfile entries basename = true
  · obtain ⟨freed, ran, found⟩ := run_remove (List.nodup_singleton basename)
      (fun f single => by rw [List.mem_singleton.mp single]; exact present)
    exact ⟨freed, by rw [if_pos present]; exact ran, fun name => by simp [found]⟩
  · refine ⟨entries, by rw [if_neg present]; rfl, fun name => ?_⟩
    split
    · next same =>
        subst same
        cases node : entries.lookup name with
        | none => rfl
        | some node' =>
            cases node' with
            | file content => exact absurd (isfile_iff.mpr ⟨content, node⟩) present
            | dir inner => simp [isdir_iff.mpr ⟨inner, node⟩] at free
    · rfl

/-- A file is moved to a free name. -/
theorem perform_rename {source target : Name} {content : Content}
    (there : entries.lookup source = some (.file content))
    (free : entries.lookup target = none)
    : ∃ left, perform entries (.rename source target) = .ok left
      ∧ left.lookup target = some (.file content)
      ∧ ∀ name ≠ target,
        left.lookup name = if name = source then none else entries.lookup name := by
  refine ⟨(target, .file content)
    :: AssocList.erase (AssocList.erase entries source) target, ?_, List.lookup_cons_self, ?_⟩
  · rw [perform, there, free]
  · intro name apart
    rw [AssocList.lookup_cons_ne apart, AssocList.lookup_erase, if_neg apart,
      AssocList.lookup_erase]

/-- The changes go through when the basename is no directory: it is removed if it is there, then
it is there as the last variant, and then the other variants are removed.
-/
theorem fixGroup_fixed {group : Name × List Name} (fixable : Fixable entries group)
    (free : isdir entries group.1 = false)
    : ∃ left, fixGroup u entries group = .ok left ∧ Fixed u entries left group := by
  obtain ⟨basename, variants⟩ := group
  obtain ⟨init, source, cut, perm, highest⟩ := sorted_concat (u := u) fixable.nonempty
  have member : ∀ f, f ∈ variants ↔ f ∈ init ∨ f = source := fun f => by
    rw [← perm.mem_iff, List.mem_append, List.mem_singleton]
  have distinct : (init ++ [source]).Nodup := perm.nodup_iff.mpr fixable.distinct
  have last : source ∉ init := fun early =>
    (List.nodup_append.mp distinct).2.2 _ early _ (List.mem_singleton_self _) rfl
  have other : ∀ f ∈ variants, f ≠ basename := fun f held same => fixable.apart (same ▸ held)
  have target : source ∈ variants := (member source).mpr (Or.inr rfl)
  obtain ⟨content, held⟩ := isfile_iff.mp (fixable.files source target)
  obtain ⟨freed, cleared, found⟩ := run_clear free
  have there : freed.lookup source = some (.file content) := by
    rw [found, if_neg (other source target), held]
  have gone : freed.lookup basename = none := by rw [found, if_pos rfl]
  obtain ⟨renamed, moved, here, around⟩ := perform_rename there gone
  have older : ∀ f ∈ init, isfile renamed f = true := by
    intro f early
    have variant : f ∈ variants := (member f).mpr (Or.inl early)
    have differs : f ≠ source := fun same => last (same ▸ early)
    rw [isfile_iff, around f (other f variant), if_neg differs, found, if_neg (other f variant)]
    exact isfile_iff.mp (fixable.files f variant)
  obtain ⟨left, removed, remain⟩ := run_remove (List.nodup_append.mp distinct).1 older
  have absent : basename ∉ init := fun early => other _ ((member _).mpr (Or.inl early)) rfl
  refine ⟨left, ?_, ⟨source, target, highest, ?_⟩, fun name apart => ?_⟩
  · rw [fixGroup, changes, cut, List.getLast?_concat]
    simp only [List.dropLast_concat]
    rw [FallibleRun.run_append, cleared]
    refine (FallibleRun.run_cons _).trans ?_
    rw [moved]
    exact removed
  · rw [remain, if_neg absent, here, held]
  · rw [remain, around name apart, found, if_neg apart]
    by_cases early : name ∈ init <;> by_cases newest : name = source <;>
      simp [member, early, newest]

----------------------------------------------------------------------------------------------------

section Groups

variable {left : Entries Content} {group other : Name × List Name} {groups : Duplicates}

/-- A fixed basename leaves the files of the other groups. -/
theorem Fixed.fixable (fixed : Fixed u entries left group) (here : Fixable entries group)
    (there : Fixable entries other) (disjoint : group.2.Disjoint other.2)
    : Fixable left other := by
  refine { there with files := fun f member => ?_ }
  rw [isfile_iff]
  by_cases same : f = group.1
  · obtain ⟨source, variant, -, found⟩ := fixed.newest
    rw [same, found]
    exact isfile_iff.mp (here.files source variant)
  · rw [fixed.rest f same, if_neg fun variant => disjoint variant member]
    exact isfile_iff.mp (there.files f member)

/-- It neither makes nor removes a directory. -/
theorem Fixed.isdir_eq (fixed : Fixed u entries left group) (here : Fixable entries group)
    (free : isdir entries group.1 = false) (name : Name)
    : isdir left name = isdir entries name := by
  by_cases same : name = group.1
  · obtain ⟨source, variant, -, found⟩ := fixed.newest
    obtain ⟨content, held⟩ := isfile_iff.mp (here.files source variant)
    rw [same, free]
    exact isdir_of_file (found.trans held)
  · by_cases variant : name ∈ group.2
    · obtain ⟨content, held⟩ := isfile_iff.mp (here.files name variant)
      rw [isdir_of_file held, isdir, fixed.rest name same, if_pos variant]
    · refine isdir_congr ?_
      rw [fixed.rest name same, if_neg variant]

/-- The basenames are all fixed exactly if none of them is a directory; by induction on them. -/
theorem fixAll_ok_iff (fixable : ∀ group ∈ groups, Fixable entries group)
    (disjoint : groups.Pairwise fun group other => group.2.Disjoint other.2)
    : (∃ left, fixAll u entries groups = .ok left)
      ↔ ∀ group ∈ groups, isdir entries group.1 = false := by
  induction groups generalizing entries with
  | nil => exact ⟨fun _ group member => absurd member List.not_mem_nil, fun _ => ⟨entries, rfl⟩⟩
  | cons group rest ih =>
      have here := fixable group List.mem_cons_self
      obtain ⟨apart, disjoint⟩ := List.pairwise_cons.mp disjoint
      cases free : isdir entries group.1 with
      | true =>
          obtain ⟨failure, refused⟩ := fixGroup_isdir (u := u) here free
          have failed : fixAll u entries (group :: rest) = .error failure := by
            rw [fixAll, FallibleRun.run_cons, refused]
            rfl
          simp [failed, free]
      | false =>
          obtain ⟨left, done, fixed⟩ := fixGroup_fixed (u := u) here free
          have step : fixAll u entries (group :: rest) = fixAll u left rest := by
            rw [fixAll, FallibleRun.run_cons, done]
            rfl
          have remain : ∀ other ∈ rest, Fixable left other := fun other member =>
            fixed.fixable here (fixable other (List.mem_cons_of_mem _ member)) (apart other member)
          rw [step, ih remain disjoint]
          simp [free, fixed.isdir_eq here free]

/-- When no basename is a variant, each ends with one of its highest versions, no variant stays,
and all other names are as before; by induction on the basenames.
-/
theorem fixAll_left (fixable : ∀ group ∈ groups, Fixable entries group)
    (disjoint : groups.Pairwise fun group other => group.2.Disjoint other.2)
    (distinct : AssocList.Distinct groups)
    (plain : ∀ group ∈ groups, ∀ other ∈ groups, group.1 ∉ other.2)
    (done : fixAll u entries groups = .ok left)
    : (∀ group ∈ groups, ∃ source ∈ group.2, (∀ f ∈ group.2, number u f ≤ number u source)
        ∧ left.lookup group.1 = entries.lookup source)
      ∧ ∀ name ∉ groups.map Prod.fst,
        left.lookup name
          = if ∃ group ∈ groups, name ∈ group.2 then none else entries.lookup name := by
  induction groups generalizing entries with
  | nil =>
      cases done
      exact ⟨fun group member => absurd member List.not_mem_nil, fun name _ => by simp⟩
  | cons group rest ih =>
      have here := fixable group List.mem_cons_self
      have free := (fixAll_ok_iff fixable disjoint).mp ⟨left, done⟩ group List.mem_cons_self
      obtain ⟨apart, disjoint⟩ := List.pairwise_cons.mp disjoint
      obtain ⟨absent, distinct⟩ := List.nodup_cons.mp distinct
      obtain ⟨next, first, fixed⟩ := fixGroup_fixed (u := u) here free
      have rest_done : fixAll u next rest = .ok left := by
        rw [← done, fixAll, fixAll, FallibleRun.run_cons, first]
        rfl
      obtain ⟨newest, others⟩ := ih
        (fun other member =>
          fixed.fixable here (fixable other (List.mem_cons_of_mem _ member)) (apart other member))
        disjoint distinct
        (fun other member third member' =>
          plain other (List.mem_cons_of_mem _ member) third (List.mem_cons_of_mem _ member'))
        rest_done
      refine ⟨fun wanted member => ?_, fun name foreign => ?_⟩
      · rcases List.mem_cons.mp member with rfl | later
        · obtain ⟨source, variant, highest, found⟩ := fixed.newest
          refine ⟨source, variant, highest, ?_⟩
          have untouched : ¬ ∃ other ∈ rest, wanted.1 ∈ other.2 := by
            rintro ⟨other, member', variant'⟩
            exact plain wanted member other (List.mem_cons_of_mem _ member') variant'
          rw [others wanted.1 absent, if_neg untouched, found]
        · obtain ⟨source, variant, highest, found⟩ := newest wanted later
          have differs : source ≠ group.1 := fun same =>
            plain group List.mem_cons_self wanted member (same ▸ variant)
          refine ⟨source, variant, highest, ?_⟩
          rw [found, fixed.rest source differs, if_neg fun held => apart wanted later held variant]
      · obtain ⟨differs, foreign⟩ := not_or.mp (List.mem_cons.not.mp foreign)
        rw [others name foreign, fixed.rest name differs]
        by_cases variant : name ∈ group.2
        · rw [if_pos variant, ite_self, if_pos ⟨group, List.mem_cons_self, variant⟩]
        · have same
              : (∃ other ∈ group :: rest, name ∈ other.2) ↔ ∃ other ∈ rest, name ∈ other.2 := by
            simp [variant]
          rw [if_neg variant, if_congr same rfl rfl]

/-- The groups are the names collected under their basenames. -/
theorem foldl_addVersion (names : List Name)
    : names.foldl (addVersion u) [] = AssocList.collectAll (base u) names := by
  refine congrArg (fun step => names.foldl step []) ?_
  funext duplicates f
  rw [addVersion, base]
  cases version u f <;> rfl

/-- The groups of distinct names that are files of the directory. -/
theorem collectAll_fixable {names : List Name} (distinct : names.Nodup)
    (files : ∀ f ∈ names, isfile entries f = true)
    : ∀ group ∈ AssocList.collectAll (base u) names, Fixable entries group := by
  rintro ⟨basename, variants⟩ member
  obtain ⟨rfl, nonempty⟩ := AssocList.mem_collectAll_iff.mp member
  have read : ∀ f ∈ names.filter (fun f => base u f = some basename), base u f = some basename :=
    fun f variant => by simpa using (List.mem_filter.mp variant).2
  exact {
    nonempty := nonempty
    distinct := distinct.filter _
    apart := fun variant => ne_of_base (read basename variant) rfl
    files := fun f variant => files f (List.mem_filter.mp variant).1
  }

/-- A name is a variant of one basename. -/
theorem collectAll_disjoint (names : List Name)
    : (AssocList.collectAll (base u) names).Pairwise
        fun group other => group.2.Disjoint other.2 := by
  have keys : (AssocList.collectAll (base u) names).Pairwise fun group other =>
      group.1 ≠ other.1 := List.pairwise_map.mp AssocList.collectAll_distinct
  refine keys.imp_of_mem ?_
  rintro ⟨first, variants⟩ ⟨second, variants'⟩ member member' differs f here there
  obtain ⟨rfl, -⟩ := AssocList.mem_collectAll_iff.mp member
  obtain ⟨rfl, -⟩ := AssocList.mem_collectAll_iff.mp member'
  have read : base u f = some first := by simpa using (List.mem_filter.mp here).2
  have read' : base u f = some second := by simpa using (List.mem_filter.mp there).2
  exact differs (Option.some.inj (read.symm.trans read'))

end Groups

end Granum.Structure
