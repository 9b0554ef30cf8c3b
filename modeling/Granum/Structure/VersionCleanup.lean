import Granum.Structure.VersionGroups

/-! The clean-up of a directory of files, in every order of its listing. It keeps the newest file
of every basename exactly if no name is a directory of the working directory, no basename is
itself a version of a basename, and the highest versions of a basename have one content.
-/

namespace Granum.Structure

variable {Content : Type} (u : Unicode) (cwd : Entries Content)

/-- The files of a directory without directories, in some order. -/
structure FlatDirectory (Content : Type) where
  files : List (Name × Content)
  distinct : AssocList.Distinct files

def flat (files : List (Name × Content)) : Entries Content :=
  files.map fun entry => (entry.1, .file entry.2)

/-- There is a file b.<integer>. -/
def IsBasename (files : List (Name × Content)) (b : Name) : Prop :=
  ∃ f ∈ files.map Prod.fst, ∃ n, IsVersion u f b n

/-- The file f has the highest number after b. -/
def IsNewest (files : List (Name × Content)) (b f : Name) : Prop :=
  ∃ n, IsVersion u f b n ∧ ∀ g ∈ files.map Prod.fst, ∀ m, IsVersion u g b m → m ≤ n

/-- What a name is after a walk. -/
def Walk.lookup (walk : Walk Content) (name : Name) : Option (Node Content) :=
  match walk.left with
  | .file _ => none
  | .dir entries => entries.lookup name

/-- What a clean-up of these files promises. -/
structure CleanedUp (files : List (Name × Content)) (walk : Walk Content) : Prop where
  finished : walk.raised = none
  newest : ∀ b f content, (f, content) ∈ files → IsNewest u files b f →
    walk.lookup b = some (.file content)
  gone : ∀ b, IsBasename u files b → ∀ f n, IsVersion u f b n → walk.lookup f = none
  kept : ∀ f content, (f, content) ∈ files → (¬ ∃ b n, IsVersion u f b n) →
    ¬ IsBasename u files f → walk.lookup f = some (.file content)

def cleanUp (listing : List (Name × Content)) : Walk Content :=
  walkDir u cwd [] (.dir (flat listing))

/-- Every order of the listing cleans up, with one result. -/
structure LosesNoNewest (directory : FlatDirectory Content) : Prop where
  cleaned : ∀ listing, listing.Perm directory.files →
    CleanedUp u directory.files (cleanUp u cwd listing)
  same : ∀ listing other, listing.Perm directory.files → other.Perm directory.files →
    ∀ name, (cleanUp u cwd listing).lookup name = (cleanUp u cwd other).lookup name

/-- The condition under which it does. -/
structure Unambiguous (files : List (Name × Content)) : Prop where
  foreign : ∀ f ∈ files.map Prod.fst, isdir cwd f = false
  plain : ∀ b, IsBasename u files b → ∀ c m, IsVersion u b c m → ¬ IsBasename u files c
  agree : ∀ b f g content other, (f, content) ∈ files → (g, other) ∈ files →
    IsNewest u files b f → IsNewest u files b g → content = other

----------------------------------------------------------------------------------------------------

variable {u cwd} {files listing : List (Name × Content)} {b f name : Name}

/-- A listing of files that are no directories of the working directory leaves them as they are;
by induction on the listing.
-/
theorem listing_flat (foreign : ∀ f ∈ files.map Prod.fst, isdir cwd f = false) (path : Path)
    (duplicates : Duplicates)
    : Structure.listing u cwd path duplicates (flat files)
      = ⟨[], flat files, (files.map Prod.fst).foldl (addVersion u) duplicates, none⟩ := by
  induction files generalizing duplicates with
  | nil => rfl
  | cons entry rest ih =>
      obtain ⟨f, content⟩ := entry
      have here : isdir cwd f = false := foreign f (by simp)
      have later := ih (fun g member => foreign g (List.mem_cons_of_mem _ member))
        (addVersion u duplicates f)
      change Structure.listing u cwd path duplicates ((f, .file content) :: flat rest) = _
      simp only [Structure.listing, here, Bool.false_eq_true, if_false, later, List.map_cons,
        List.foldl_cons]
      rfl

/-- A file that is taken for a directory stops the walk; by induction on the listing. -/
theorem listing_raised (taken : ∃ f ∈ files.map Prod.fst, isdir cwd f = true) (path : Path)
    (duplicates : Duplicates)
    : (Structure.listing u cwd path duplicates (flat files)).raised = some .notADirectory := by
  induction files generalizing duplicates with
  | nil => simp at taken
  | cons entry rest ih =>
      obtain ⟨f, content⟩ := entry
      change (Structure.listing u cwd path duplicates ((f, .file content) :: flat rest)).raised = _
      cases here : isdir cwd f with
      | true => simp [Structure.listing, here, walkDir]
      | false =>
          obtain ⟨g, member, directory⟩ := taken
          rcases List.mem_cons.mp member with rfl | later
          · rw [here] at directory
            cases directory
          · simp only [Structure.listing, here, Bool.false_eq_true, if_false]
            exact ih ⟨g, later, directory⟩ _

theorem foreign_of_finished (finished : (cleanUp u cwd files).raised = none)
    : ∀ f ∈ files.map Prod.fst, isdir cwd f = false := by
  intro f member
  by_contra taken
  have raised := listing_raised (u := u) ⟨f, member, by simpa using taken⟩ [] []
  simp [cleanUp, walkDir, raised] at finished

theorem lookup_flat : (flat files).lookup name = (files.lookup name).map .file :=
  AssocList.lookup_map Node.file

theorem isfile_flat (member : f ∈ files.map Prod.fst) : isfile (flat files) f = true := by
  obtain ⟨content, held⟩ := AssocList.exists_lookup member
  exact isfile_iff.mpr ⟨content, by rw [lookup_flat, held]; rfl⟩

theorem isdir_flat : isdir (flat files) name = false := by
  rw [isdir, lookup_flat]
  cases files.lookup name <;> rfl

theorem mem_variants_iff
    : f ∈ (files.map Prod.fst).filter (fun f => base u f = some b)
      ↔ f ∈ files.map Prod.fst ∧ ∃ n, IsVersion u f b n := by
  rw [List.mem_filter, decide_eq_true_iff, base_eq_some_iff]

/-- The highest number among the variants is the newest version. -/
theorem isNewest_of_highest {variants : List Name}
    (all : variants = (files.map Prod.fst).filter fun f => base u f = some b)
    (member : f ∈ variants) (highest : ∀ g ∈ variants, number u g ≤ number u f)
    : IsNewest u files b f := by
  subst all
  obtain ⟨-, n, read⟩ := mem_variants_iff.mp member
  refine ⟨n, read, fun g there m read' => ?_⟩
  rw [← number_of_version read, ← number_of_version read']
  exact highest g (mem_variants_iff.mpr ⟨there, m, read'⟩)

theorem isBasename_iff
    : IsBasename u files b
      ↔ ∃ variants, (b, variants) ∈ AssocList.collectAll (base u) (files.map Prod.fst) := by
  constructor
  · rintro ⟨f, member, read⟩
    have variant := mem_variants_iff.mpr ⟨member, read⟩
    exact ⟨_, AssocList.mem_collectAll_iff.mpr ⟨rfl, List.ne_nil_of_mem variant⟩⟩
  · rintro ⟨variants, member⟩
    obtain ⟨rfl, nonempty⟩ := AssocList.mem_collectAll_iff.mp member
    obtain ⟨f, variant⟩ := List.exists_mem_of_ne_nil _ nonempty
    exact ⟨f, mem_variants_iff.mp variant⟩

theorem exists_newest (basename : IsBasename u files b)
    : ∃ f content, (f, content) ∈ files ∧ IsNewest u files b f := by
  obtain ⟨variants, member⟩ := isBasename_iff.mp basename
  obtain ⟨all, nonempty⟩ := AssocList.mem_collectAll_iff.mp member
  obtain ⟨init, source, -, perm, highest⟩ := sorted_concat (u := u) nonempty
  have variant : source ∈ variants := perm.mem_iff.mp (by simp)
  obtain ⟨⟨f, content⟩, held, rfl⟩ := List.mem_map.mp (mem_variants_iff.mp (all ▸ variant)).1
  exact ⟨f, content, held, isNewest_of_highest all variant highest⟩

/-- What the clean-up makes of a name: the content of a newest version for a basename, nothing for
a version, and what it was for every other name.
-/
structure Result (u : Unicode) (files : List (Name × Content)) (name : Name)
    (found : Option (Node Content)) : Prop where
  newest : IsBasename u files name →
    ∃ f content, (f, content) ∈ files ∧ IsNewest u files name f ∧ found = some (.file content)
  gone : ¬ IsBasename u files name → (∃ b n, IsVersion u name b n) → found = none
  kept : ¬ IsBasename u files name → (¬ ∃ b n, IsVersion u name b n) →
    found = (flat files).lookup name

/-- No basename is a variant of a basename. -/
theorem groups_plain (unambiguous : Unambiguous u cwd files)
    : ∀ group ∈ AssocList.collectAll (base u) (files.map Prod.fst),
      ∀ other ∈ AssocList.collectAll (base u) (files.map Prod.fst), group.1 ∉ other.2 := by
  rintro ⟨b, variants⟩ member ⟨c, others⟩ member' variant
  obtain ⟨rfl, -⟩ := AssocList.mem_collectAll_iff.mp member'
  obtain ⟨-, m, read⟩ := mem_variants_iff.mp variant
  exact unambiguous.plain b (isBasename_iff.mpr ⟨variants, member⟩) c m read
    (isBasename_iff.mpr ⟨_, member'⟩)

/-- The walk finishes, and leaves what the loop over the basenames leaves. -/
theorem exists_cleanUp (distinct : AssocList.Distinct files)
    (foreign : ∀ f ∈ files.map Prod.fst, isdir cwd f = false)
    : ∃ left, fixAll u (flat files) (AssocList.collectAll (base u) (files.map Prod.fst)) = .ok left
      ∧ cleanUp u cwd files = ⟨[([], true)], .dir left, none⟩ := by
  have fixable := collectAll_fixable (u := u) distinct fun f member => isfile_flat member
  obtain ⟨left, done⟩ := (fixAll_ok_iff (u := u) fixable (collectAll_disjoint _)).mpr
    fun group _ => isdir_flat
  refine ⟨left, done, ?_⟩
  simp only [cleanUp, walkDir, listing_flat foreign, foldl_addVersion]
  rw [done]

theorem cleanUp_result (distinct : AssocList.Distinct files)
    (unambiguous : Unambiguous u cwd files)
    : (cleanUp u cwd files).raised = none
      ∧ ∀ name, Result u files name ((cleanUp u cwd files).lookup name) := by
  obtain ⟨left, done, walk⟩ := exists_cleanUp (u := u) distinct unambiguous.foreign
  have fixable := collectAll_fixable (u := u) distinct fun f member => isfile_flat member
  obtain ⟨newest, others⟩ := fixAll_left fixable (collectAll_disjoint _)
    AssocList.collectAll_distinct (groups_plain unambiguous) done
  have found : ∀ name, (cleanUp u cwd files).lookup name = left.lookup name := fun name => by
    rw [walk]
    rfl
  have keys : ∀ name, ¬ IsBasename u files name →
      name ∉ (AssocList.collectAll (base u) (files.map Prod.fst)).map Prod.fst := by
    intro name foreign key
    obtain ⟨⟨b, variants⟩, member, rfl⟩ := List.mem_map.mp key
    exact foreign (isBasename_iff.mpr ⟨variants, member⟩)
  refine ⟨by rw [walk], fun name => ⟨fun basename => ?_, fun foreign read => ?_,
    fun foreign unread => ?_⟩⟩
  · obtain ⟨variants, member⟩ := isBasename_iff.mp basename
    obtain ⟨source, variant, highest, same⟩ := newest _ member
    obtain ⟨all, -⟩ := AssocList.mem_collectAll_iff.mp member
    obtain ⟨content, held⟩ :=
      AssocList.exists_lookup (mem_variants_iff.mp (all ▸ variant)).1
    refine ⟨source, content, (AssocList.lookup_eq_some_iff distinct).mp held,
      isNewest_of_highest all variant highest, ?_⟩
    rw [found, same, lookup_flat, held]
    rfl
  · obtain ⟨b, read⟩ := read
    rw [found, others name (keys name foreign)]
    split
    · rfl
    · next unheld =>
        have absent : name ∉ files.map Prod.fst := fun member => by
          have variant := mem_variants_iff.mpr ⟨member, read⟩
          exact unheld ⟨_, AssocList.mem_collectAll_iff.mpr
            ⟨rfl, List.ne_nil_of_mem variant⟩, variant⟩
        rw [lookup_flat, AssocList.lookup_eq_none absent]
        rfl
  · rw [found, others name (keys name foreign), if_neg]
    rintro ⟨⟨b, variants⟩, member, variant⟩
    obtain ⟨rfl, -⟩ := AssocList.mem_collectAll_iff.mp member
    exact unread ⟨b, (mem_variants_iff.mp variant).2⟩

----------------------------------------------------------------------------------------------------

section Order

variable (perm : listing.Perm files)
include perm

theorem isBasename_of_perm : IsBasename u listing b ↔ IsBasename u files b := by
  simp only [IsBasename, (perm.map Prod.fst).mem_iff]

theorem isNewest_of_perm : IsNewest u listing b f ↔ IsNewest u files b f := by
  simp only [IsNewest, (perm.map Prod.fst).mem_iff]

theorem Unambiguous.of_perm (unambiguous : Unambiguous u cwd files)
    : Unambiguous u cwd listing where
  foreign f member := unambiguous.foreign f ((perm.map Prod.fst).mem_iff.mp member)
  plain b basename c m read basename' :=
    unambiguous.plain b ((isBasename_of_perm perm).mp basename) c m read
      ((isBasename_of_perm perm).mp basename')
  agree b f g content other member member' newest newest' :=
    unambiguous.agree b f g content other (perm.mem_iff.mp member) (perm.mem_iff.mp member')
      ((isNewest_of_perm perm).mp newest) ((isNewest_of_perm perm).mp newest')

/-- The result of one order is a result of every other order. -/
theorem Result.of_perm (distinct : AssocList.Distinct files) {found : Option (Node Content)}
    (result : Result u listing name found) : Result u files name found := by
  have same : (flat listing).lookup name = (flat files).lookup name := by
    rw [lookup_flat, lookup_flat, AssocList.lookup_of_perm distinct perm]
  have basename := isBasename_of_perm (u := u) (b := name) perm
  refine ⟨fun here => ?_, fun foreign => result.gone (basename.not.mpr foreign),
    fun foreign unread => (result.kept (basename.not.mpr foreign) unread).trans same⟩
  obtain ⟨f, content, member, newest, held⟩ := result.newest (basename.mpr here)
  exact ⟨f, content, perm.mem_iff.mp member, (isNewest_of_perm perm).mp newest, held⟩

end Order

/-- When the highest versions agree a name has one result. -/
theorem Result.unique (unambiguous : Unambiguous u cwd files)
    {found other : Option (Node Content)} (first : Result u files name found)
    (second : Result u files name other) : found = other := by
  by_cases basename : IsBasename u files name
  · obtain ⟨f, content, member, newest, rfl⟩ := first.newest basename
    obtain ⟨g, content', member', newest', rfl⟩ := second.newest basename
    rw [unambiguous.agree name f g content content' member member' newest newest']
  · by_cases read : ∃ b n, IsVersion u name b n
    · rw [first.gone basename read, second.gone basename read]
    · rw [first.kept basename read, second.kept basename read]

theorem cleanedUp_of_result {walk : Walk Content} (distinct : AssocList.Distinct files)
    (unambiguous : Unambiguous u cwd files) (finished : walk.raised = none)
    (result : ∀ name, Result u files name (walk.lookup name)) : CleanedUp u files walk where
  finished := finished
  newest b f content member newest := by
    obtain ⟨n, read, highest⟩ := newest
    have basename : IsBasename u files b := ⟨f, List.mem_map.mpr ⟨_, member, rfl⟩, n, read⟩
    obtain ⟨g, other, member', newest', held⟩ := (result b).newest basename
    rw [held, unambiguous.agree b g f other content member' member newest' ⟨n, read, highest⟩]
  gone b basename f n read :=
    (result f).gone (fun nested => unambiguous.plain f nested b n read basename) ⟨b, n, read⟩
  kept f content member unread foreign := by
    rw [(result f).kept foreign unread, lookup_flat,
      (AssocList.lookup_eq_some_iff distinct).mpr member]
    rfl

/-- The clean-up loses no newest file, in any order of the listing, exactly if the directory is
unambiguous.
-/
theorem losesNoNewest_iff (directory : FlatDirectory Content)
    : LosesNoNewest u cwd directory ↔ Unambiguous u cwd directory.files := by
  constructor
  · intro kept
    have cleaned := kept.cleaned directory.files (List.Perm.refl _)
    refine ⟨foreign_of_finished cleaned.finished, fun b basename c m read basename' => ?_,
      fun b f g content other member member' newest newest' => ?_⟩
    · obtain ⟨f, content, member, newest⟩ := exists_newest basename
      have held := cleaned.newest b f content member newest
      rw [cleaned.gone c basename' b m read] at held
      cases held
    · have held := cleaned.newest b f content member newest
      rw [cleaned.newest b g other member' newest'] at held
      cases held
      rfl
  · intro unambiguous
    have run : ∀ listing, listing.Perm directory.files →
        (cleanUp u cwd listing).raised = none
        ∧ ∀ name, Result u directory.files name ((cleanUp u cwd listing).lookup name) := by
      intro listing perm
      have distinct : AssocList.Distinct listing :=
        (perm.map Prod.fst).nodup_iff.mpr directory.distinct
      obtain ⟨finished, result⟩ := cleanUp_result distinct (unambiguous.of_perm perm)
      exact ⟨finished, fun name => (result name).of_perm perm directory.distinct⟩
    refine ⟨fun listing perm => ?_, fun listing other perm perm' name => ?_⟩
    · exact cleanedUp_of_result directory.distinct unambiguous (run listing perm).1
        (run listing perm).2
    · exact ((run listing perm).2 name).unique unambiguous ((run other perm').2 name)

/-- Two files, one of which is named after the other. -/
def nested : FlatDirectory ℕ where
  files := [(['a', '.', '1'], 1), (['a', '.', '1', '.', '2'], 2)]
  distinct := by decide

/-- With a.1.2 listed first, a.1 is removed for a.1.2, which then becomes a. -/
theorem nested_newest_lost : ¬ LosesNoNewest ascii [] nested := by
  intro kept
  have cleaned := kept.cleaned [(['a', '.', '1', '.', '2'], 2), (['a', '.', '1'], 1)]
    (List.Perm.swap _ _ _)
  have newest : IsNewest ascii nested.files ['a'] ['a', '.', '1'] := by
    refine ⟨1, version_eq_some_iff.mp (by decide), fun g member m read => ?_⟩
    have read := version_eq_some_iff.mpr read
    rcases List.mem_cons.mp member with rfl | member
    · have same : version ascii ['a', '.', '1'] = some (['a'], 1) := by decide
      rw [same] at read
      cases read
      exact le_refl _
    · obtain rfl := List.mem_singleton.mp member
      have other : version ascii ['a', '.', '1', '.', '2'] = some (['a', '.', '1'], 2) := by decide
      rw [other] at read
      cases read
  have promised := cleaned.newest ['a'] ['a', '.', '1'] 1 List.mem_cons_self newest
  have held : (cleanUp ascii [] [(['a', '.', '1', '.', '2'], 2), (['a', '.', '1'], 1)]).lookup ['a']
      = some (.file 2) := by rfl
  rw [held] at promised
  cases promised

end Granum.Structure
