import Granum.Structure.DirectoryTour
import Granum.Structure.VersionGroups

/-! The clean-up of a whole tree. Every directory is visited once, and nothing else, exactly if
all directories bear names of directories of the working directory and nothing on the tour of the
tree breaks the walk off before its last directory.
-/

namespace Granum.Structure

variable {Content : Type} (u : Unicode) (cwd : Entries Content)

/-- A directory to clean up, whose entries have distinct names all the way down. -/
structure Tree (Content : Type) where
  entries : Entries Content
  distinct : DistinctNames (.dir entries)

/-- main: the walk from the directory given. -/
def Tree.walk (tree : Tree Content) : Walk Content :=
  walkDir u cwd [] (.dir tree.entries)

/-- Every directory is listed once, and nothing but directories. -/
structure CoversTree (tree : Tree Content) : Prop where
  once : ∀ p ∈ directories [] (.dir tree.entries),
    ((tree.walk u cwd).listed.map Prod.fst).count p = 1
  directory : ∀ visit ∈ (tree.walk u cwd).listed, visit.2 = true

/-- All names on the paths are directories of the working directory. -/
def Known (paths : List Path) : Prop :=
  ∀ p ∈ paths, ∀ f ∈ p, isdir cwd f = true

/-- The condition under which it is so: the directories have names of the working directory's, and
if anything but a directory comes on the tour, the first such thing is a directory that cannot be
cleaned up, with no directory after it.
-/
structure Unbroken (tree : Tree Content) : Prop where
  known : Known cwd (directories [] (.dir tree.entries))
  last : ∃ (paths : List Path) (rest : List Event),
    tour u cwd [] (.dir tree.entries) = paths.map .enter ++ rest
    ∧ (rest = [] ∨ ∃ path later, rest = .stop path :: later ∧ ∀ p, .enter p ∉ later)

----------------------------------------------------------------------------------------------------

variable {u cwd} {path : Path} {entries other : Entries Content} {name : Name}

theorem walkDir_listed
    : (walkDir u cwd path (.dir entries)).listed
      = (path, true) :: (listing u cwd path [] entries).listed := by
  rw [walkDir]
  split
  · rfl
  · split <;> rfl

theorem walkDir_raised_iff
    : (walkDir u cwd path (.dir entries)).raised = none
      ↔ (listing u cwd path [] entries).raised = none
        ∧ ∃ left, fixAll u (listing u cwd path [] entries).left
          (listing u cwd path [] entries).duplicates = .ok left := by
  rw [walkDir]
  split
  · next raised => simp [raised]
  · next quiet =>
      split
      · next left done => simp [quiet, done]
      · next failure left failed => simp [quiet, failed]

theorem walkDir_isDir (node : Node Content)
    : (walkDir u cwd path node).left.isDir = node.isDir := by
  cases node with
  | file content => rfl
  | dir entries =>
      rw [walkDir]
      split
      · rfl
      · split <;> rfl

mutual

/-- A walk lists what has a path of names of the working directory's directories. -/
theorem walkDir_known : ∀ {path : Path} {node : Node Content},
      (∀ f ∈ path, isdir cwd f = true) →
      ∀ visit ∈ (walkDir u cwd path node).listed, ∀ f ∈ visit.1, isdir cwd f = true
  | path, .file content, known, visit, member => by
      obtain rfl := List.mem_singleton.mp member
      exact known
  | path, .dir entries, known, visit, member => by
      rw [walkDir_listed] at member
      rcases List.mem_cons.mp member with rfl | below
      · exact known
      · exact listing_known known visit below

theorem listing_known : ∀ {path : Path} {duplicates : Duplicates} {entries : Entries Content},
      (∀ f ∈ path, isdir cwd f = true) →
      ∀ visit ∈ (listing u cwd path duplicates entries).listed, ∀ f ∈ visit.1, isdir cwd f = true
  | path, _, [], known, visit, member => absurd member List.not_mem_nil
  | path, duplicates, (f, node) :: rest, known, visit, member => by
      rw [listing] at member
      dsimp only at member
      split at member
      · next here =>
          have inner : ∀ g ∈ path ++ [f], isdir cwd g = true := fun g at_path => by
            rcases List.mem_append.mp at_path with above | last
            · exact known g above
            · rwa [List.mem_singleton.mp last]
          split at member
          · exact walkDir_known inner visit member
          · rcases List.mem_append.mp member with below | later
            · exact walkDir_known inner visit below
            · exact listing_known known visit later
      · exact listing_known known visit member

end

----------------------------------------------------------------------------------------------------

/-- The names of a directory, each with whether it is a directory. -/
def kinds (entries : Entries Content) : List (Name × Bool) :=
  entries.map fun entry => (entry.1, entry.2.isDir)

theorem isdir_of_kinds (same : kinds entries = kinds other)
    : isdir entries name = isdir other name := by
  have look : ∀ entries : Entries Content,
      isdir entries name = ((kinds entries).lookup name).getD false := fun entries => by
    rw [kinds, AssocList.lookup_map Node.isDir, isdir]
    cases entries.lookup name <;> rfl
  rw [look, look, same]

theorem isfile_of_kinds (same : kinds entries = kinds other)
    : isfile entries name = isfile other name := by
  have look : ∀ entries : Entries Content,
      isfile entries name = !((kinds entries).lookup name).getD true := fun entries => by
    rw [kinds, AssocList.lookup_map Node.isDir, isfile]
    cases entries.lookup name <;> rfl
  rw [look, look, same]

/-- The loop leaves every entry what it is. -/
theorem listing_kinds (duplicates : Duplicates)
    : kinds (listing u cwd path duplicates entries).left = kinds entries := by
  induction entries generalizing duplicates with
  | nil => rfl
  | cons entry rest ih =>
      obtain ⟨f, node⟩ := entry
      have kept : (walkDir u cwd (path ++ [f]) node).left.isDir = node.isDir :=
        walkDir_isDir node
      rw [listing]
      dsimp only
      split
      · split
        · simp [kinds, kept]
        · have later := ih duplicates
          simp only [kinds, List.map_cons, kept] at later ⊢
          rw [later]
      · have later := ih (addVersion u duplicates f)
        simp only [kinds, List.map_cons] at later ⊢
        rw [later]

/-- When the loop goes through, it has collected all names that are no directories of the working
directory; by induction on the entries.
-/
theorem listing_duplicates {duplicates : Duplicates}
    (quiet : (listing u cwd path duplicates entries).raised = none)
    : (listing u cwd path duplicates entries).duplicates
      = ((entries.map Prod.fst).filter fun f => !isdir cwd f).foldl (addVersion u) duplicates := by
  induction entries generalizing duplicates with
  | nil => rfl
  | cons entry rest ih =>
      obtain ⟨f, node⟩ := entry
      rw [listing] at quiet ⊢
      cases here : isdir cwd f with
      | true =>
          cases inner : (walkDir u cwd (path ++ [f]) node).raised with
          | some error => simp [here, inner] at quiet
          | none =>
              simp only [here, if_true, inner] at quiet ⊢
              simpa [here] using ih quiet
      | false =>
          simp only [here, Bool.false_eq_true, if_false] at quiet ⊢
          simpa [here] using ih quiet

theorem obstructed_eq_false_iff
    : obstructed u cwd entries = false
      ↔ ∀ f ∈ entries.map Prod.fst, isdir cwd f = false →
        ∀ b, base u f = some b → isdir entries b = false := by
  simp only [obstructed, List.any_eq_false, Bool.and_eq_true, Bool.not_eq_true', not_and,
    List.forall_mem_map]
  refine forall₂_congr fun entry _ => imp_congr_right fun _ => ?_
  cases base u entry.1 <;> simp

/-- After a loop that goes through, the clean-up does so too unless a directory is in its way. -/
theorem fixAll_listing_iff (distinct : AssocList.Distinct entries)
    (files : ∀ f ∈ entries.map Prod.fst, isdir cwd f = false → isfile entries f = true)
    (quiet : (listing u cwd path [] entries).raised = none)
    : (∃ left, fixAll u (listing u cwd path [] entries).left
        (listing u cwd path [] entries).duplicates = .ok left)
      ↔ obstructed u cwd entries = false := by
  have kinds_eq : kinds (listing u cwd path [] entries).left = kinds entries :=
    listing_kinds []
  have named : ∀ f ∈ (entries.map Prod.fst).filter (fun f => !isdir cwd f),
      isfile (listing u cwd path [] entries).left f = true := fun f member => by
    obtain ⟨there, foreign⟩ := List.mem_filter.mp member
    rw [isfile_of_kinds kinds_eq]
    exact files f there (by simpa using foreign)
  rw [listing_duplicates quiet, foldl_addVersion,
    fixAll_ok_iff (collectAll_fixable (List.Nodup.filter _ distinct) named)
      (collectAll_disjoint _),
    obstructed_eq_false_iff]
  simp only [isdir_of_kinds kinds_eq]
  constructor
  · intro free f there foreign b read
    have variant : f ∈ ((entries.map Prod.fst).filter fun f => !isdir cwd f).filter
        (fun f => base u f = some b) := by simp [List.mem_filter, foreign, read, there]
    exact free (b, _) (AssocList.mem_collectAll_iff.mpr ⟨rfl, List.ne_nil_of_mem variant⟩)
  · rintro free ⟨b, variants⟩ member
    obtain ⟨rfl, nonempty⟩ := AssocList.mem_collectAll_iff.mp member
    obtain ⟨f, variant⟩ := List.exists_mem_of_ne_nil _ nonempty
    obtain ⟨listed, read⟩ := List.mem_filter.mp variant
    obtain ⟨there, foreign⟩ := List.mem_filter.mp listed
    exact free f there (by simpa using foreign) b (by simpa using read)

----------------------------------------------------------------------------------------------------

/-- Where all directories are known an entry that is not taken for a directory is a file. -/
theorem isDir_of_known {f : Name} {node : Node Content} (foreign : isdir cwd f = false)
    (member : (f, node) ∈ entries) (known : Known cwd (directoriesIn path entries))
    : node.isDir = false := by
  cases node with
  | file content => rfl
  | dir inner =>
      have listed : path ++ [f] ∈ directoriesIn path entries := mem_directoriesIn member
      have taken := known _ listed f (by simp)
      rw [foreign] at taken
      cases taken

/-- What the walk of a directory adds to the tour of its entries: itself before them, and its
clean-up after them.
-/
theorem walkDir_dir_tour (distinct : AssocList.Distinct entries)
    (known : Known cwd (directories path (.dir entries)))
    (below : (listing u cwd path [] entries).listed = Event.visits (tourIn u cwd path entries)
      ∧ ((listing u cwd path [] entries).raised = none
        ↔ ∀ event ∈ tourIn u cwd path entries, event.isEnter = true))
    : (walkDir u cwd path (.dir entries)).listed = Event.visits (tour u cwd path (.dir entries))
      ∧ ((walkDir u cwd path (.dir entries)).raised = none
        ↔ ∀ event ∈ tour u cwd path (.dir entries), event.isEnter = true) := by
  obtain ⟨listed, quiet⟩ := below
  have inside : Known cwd (directoriesIn path entries) := fun p member =>
    known p (List.mem_cons_of_mem _ member)
  have files : ∀ f ∈ entries.map Prod.fst, isdir cwd f = false → isfile entries f = true := by
    intro f member foreign
    obtain ⟨node, held⟩ := AssocList.exists_lookup member
    have file := isDir_of_known foreign ((AssocList.lookup_eq_some_iff distinct).mp held) inside
    rw [isfile, held]
    simp [file]
  rw [walkDir_listed, walkDir_raised_iff, tour, listed]
  by_cases enters : ∀ event ∈ tourIn u cwd path entries, event.isEnter = true
  · have cleaned := fixAll_listing_iff distinct files (quiet.mpr enters)
    rw [Event.visits, Event.visits_append_of_enters enters, cleaned]
    cases obstructed u cwd entries with
    | true => exact ⟨by simp [Event.visits], by simp [Event.isEnter]⟩
    | false => exact ⟨by simp [Event.visits], by simp [quiet, Event.isEnter]⟩
  · rw [Event.visits, Event.visits_append_of_not_enters enters]
    refine ⟨rfl, iff_of_false (fun both => enters (quiet.mp both.1)) fun all => ?_⟩
    exact enters fun event member =>
      all event (List.mem_cons_of_mem _ (List.mem_append_left _ member))

mutual

/-- A walk follows the tour of its tree, by induction on the tree: it lists what the tour comes
to before it breaks off, and finishes if the tour only enters directories.
-/
theorem walkDir_tour : ∀ {path : Path} {node : Node Content},
      DistinctNames node → Known cwd (directories path node) →
      (walkDir u cwd path node).listed = Event.visits (tour u cwd path node)
      ∧ ((walkDir u cwd path node).raised = none
        ↔ ∀ event ∈ tour u cwd path node, event.isEnter = true)
  | _, .file _, _, _ => ⟨rfl, by simp [walkDir, tour, Event.isEnter]⟩
  | path, .dir entries, distinct, known => by
      have below : Known cwd (directoriesIn path entries) := fun p member =>
        known p (List.mem_cons_of_mem _ member)
      exact walkDir_dir_tour distinct.1 known (listing_tour distinct.2 below)

theorem listing_tour : ∀ {path : Path} {duplicates : Duplicates} {entries : Entries Content},
      DistinctNamesIn entries → Known cwd (directoriesIn path entries) →
      (listing u cwd path duplicates entries).listed = Event.visits (tourIn u cwd path entries)
      ∧ ((listing u cwd path duplicates entries).raised = none
        ↔ ∀ event ∈ tourIn u cwd path entries, event.isEnter = true)
  | _, _, [], _, _ => ⟨rfl, by simp [listing, tourIn]⟩
  | path, duplicates, (f, node) :: rest, distinct, known => by
      have first : Known cwd (directories (path ++ [f]) node) := fun p member =>
        known p (List.mem_append_left _ member)
      have others : Known cwd (directoriesIn path rest) := fun p member =>
        known p (List.mem_append_right _ member)
      rw [listing, tourIn]
      cases here : isdir cwd f with
      | true =>
          obtain ⟨inner_listed, inner_quiet⟩ := walkDir_tour distinct.1 first
          obtain ⟨later_listed, later_quiet⟩
              : (listing u cwd path duplicates rest).listed
                  = Event.visits (tourIn u cwd path rest)
                ∧ ((listing u cwd path duplicates rest).raised = none
                  ↔ ∀ event ∈ tourIn u cwd path rest, event.isEnter = true) :=
            listing_tour distinct.2 others
          simp only [if_true, Bool.or_true, List.forall_mem_append]
          cases raised : (walkDir u cwd (path ++ [f]) node).raised with
          | some error =>
              have broken : ¬ ∀ event ∈ tour u cwd (path ++ [f]) node, event.isEnter = true := by
                rw [← inner_quiet, raised]
                simp
              refine ⟨?_, by simp [broken]⟩
              rw [Event.visits_append_of_not_enters broken]
              exact inner_listed
          | none =>
              have enters := inner_quiet.mp raised
              refine ⟨?_, later_quiet.trans (and_iff_right enters).symm⟩
              rw [Event.visits_append_of_enters enters, ← inner_listed, ← later_listed]
      | false =>
          have file : node.isDir = false := isDir_of_known here List.mem_cons_self known
          simp only [file, Bool.false_eq_true, if_false, Bool.or_false, List.nil_append]
          exact listing_tour distinct.2 others

end

----------------------------------------------------------------------------------------------------

variable {tree : Tree Content}

/-- What is visited has only names of the working directory's directories. -/
theorem CoversTree.known (covers : CoversTree u cwd tree)
    : Known cwd (directories [] (.dir tree.entries)) := by
  intro p member
  have visited : p ∈ (tree.walk u cwd).listed.map Prod.fst :=
    List.count_pos_iff.mp (by rw [covers.once p member]; exact Nat.one_pos)
  obtain ⟨visit, listed, rfl⟩ := List.mem_map.mp visited
  exact walkDir_known (fun f none => absurd none List.not_mem_nil) visit listed

/-- A walk of the whole tree meets no file, and comes to no directory after a clean-up that
fails.
-/
theorem CoversTree.unbroken (covers : CoversTree u cwd tree) : Unbroken u cwd tree := by
  have entered := entered_tour u cwd [] (.dir tree.entries)
  have nodup : (directories [] (.dir tree.entries)).Nodup := directories_nodup tree.distinct
  have listed : (tree.walk u cwd).listed = Event.visits (tour u cwd [] (.dir tree.entries)) :=
    (walkDir_tour tree.distinct covers.known).1
  obtain ⟨paths, rest, cut, ended | ⟨path, later, rfl⟩ | ⟨path, later, rfl⟩⟩ :=
    Event.enters_cases (tour u cwd [] (.dir tree.entries))
  · exact ⟨covers.known, paths, rest, cut, Or.inl ended⟩
  · have taken : (path, false) ∈ (tree.walk u cwd).listed := by
      rw [listed, cut, Event.visits_enter]
      exact List.mem_append_right _ (List.mem_singleton_self _)
    cases covers.directory _ taken
  · refine ⟨covers.known, paths, _, cut, Or.inr ⟨path, later, rfl, fun p member => ?_⟩⟩
    rw [cut, Event.entered_append, Event.entered_map] at entered
    have missed : p ∈ Event.entered later := Event.mem_entered_iff.mpr member
    have apart : p ∉ paths := fun early => by
      rw [← entered] at nodup
      exact List.disjoint_of_nodup_append nodup early missed
    have once := covers.once p (by rw [← entered]; exact List.mem_append_right _ missed)
    have visited : (tree.walk u cwd).listed.map Prod.fst = paths := by
      rw [listed, cut, Event.visits_enter]
      simp [Event.visits, Function.comp_def]
    rw [visited, List.count_eq_zero.mpr apart] at once
    cases once

/-- Where nothing breaks the walk off before the last directory the visits are the directories. -/
theorem Unbroken.covers (unbroken : Unbroken u cwd tree) : CoversTree u cwd tree := by
  obtain ⟨known, paths, rest, cut, ended⟩ := unbroken
  have quiet : Event.visits rest = [] ∧ Event.entered rest = [] := by
    rcases ended with rfl | ⟨path, later, rfl, none⟩
    · exact ⟨rfl, rfl⟩
    · refine ⟨rfl, List.eq_nil_iff_forall_not_mem.mpr fun p member => ?_⟩
      exact none p (Event.mem_entered_iff.mp member)
  have listed : (tree.walk u cwd).listed = paths.map (·, true) := by
    have followed := (walkDir_tour (u := u) tree.distinct known).1
    rw [cut, Event.visits_enter, quiet.1, List.append_nil] at followed
    exact followed
  have entered : paths = directories [] (.dir tree.entries) := by
    rw [← entered_tour u cwd, cut, Event.entered_append, Event.entered_map, quiet.2,
      List.append_nil]
  have visited : (tree.walk u cwd).listed.map Prod.fst = paths := by
    simp [listed, Function.comp_def]
  refine ⟨fun p member => ?_, fun visit member => ?_⟩
  · rw [visited, entered]
    exact List.count_eq_one_of_mem (directories_nodup tree.distinct) member
  · rw [listed] at member
    obtain ⟨p, -, rfl⟩ := List.mem_map.mp member
    rfl

/-- The walk visits every directory once and nothing else exactly if the directories have names
of the working directory's directories and the tour is not broken off before the last of them.
-/
theorem coversTree_iff (tree : Tree Content)
    : CoversTree u cwd tree ↔ Unbroken u cwd tree :=
  ⟨CoversTree.unbroken, Unbroken.covers⟩

/-- A directory in a directory, walked from the outer one. -/
def twoDeep : Tree Unit where
  entries := [(['a'], .dir [(['b'], .dir [])])]
  distinct := by simp [DistinctNames, DistinctNamesIn, AssocList.Distinct]

/-- Only a is a directory of the working directory, so a/b is not visited. -/
theorem twoDeep_not_visited : ¬ CoversTree ascii twoDeep.entries twoDeep := by
  intro covers
  have once := covers.once [['a'], ['b']] (by simp [twoDeep, directories, directoriesIn])
  have listed : (twoDeep.walk ascii twoDeep.entries).listed = [([], true), ([['a']], true)] := by
    rfl
  rw [listed] at once
  cases once

end Granum.Structure
