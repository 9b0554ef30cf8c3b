import Granum.Structure.CleanOldVersions

/-! The depth-first tour of a directory tree: the directories it enters, each under its own path,
and the places where a walk that follows it breaks off.
-/

namespace Granum.Structure

variable {Content : Type}

mutual

/-- The directories of a tree, in depth-first order. -/
def directories (path : Path) : Node Content → List Path
  | .file _ => []
  | .dir entries => path :: directoriesIn path entries

def directoriesIn (path : Path) : Entries Content → List Path
  | [] => []
  | (f, node) :: rest => directories (path ++ [f]) node ++ directoriesIn path rest

end

mutual

/-- No directory has two entries of one name. -/
def DistinctNames : Node Content → Prop
  | .file _ => True
  | .dir entries => AssocList.Distinct entries ∧ DistinctNamesIn entries

def DistinctNamesIn : Entries Content → Prop
  | [] => True
  | (_, node) :: rest => DistinctNames node ∧ DistinctNamesIn rest

end

section Paths

variable {path p : Path} {node : Node Content} {entries : Entries Content}

mutual

/-- Every directory lies at or below the path of its tree. -/
theorem prefix_of_mem_directories
    : ∀ {path : Path} {node : Node Content}, p ∈ directories path node → path <+: p
  | _, .file _, member => nomatch member
  | path, .dir entries, member => by
      rcases List.mem_cons.mp member with rfl | below
      · exact List.prefix_refl p
      · obtain ⟨f, -, under⟩ := prefix_of_mem_directoriesIn below
        exact (List.prefix_append path [f]).trans under

theorem prefix_of_mem_directoriesIn
    : ∀ {path : Path} {entries : Entries Content}, p ∈ directoriesIn path entries →
      ∃ f ∈ entries.map Prod.fst, path ++ [f] <+: p
  | _, [], member => nomatch member
  | path, (f, node) :: rest, member => by
      rcases List.mem_append.mp member with here | later
      · exact ⟨f, List.mem_cons_self, prefix_of_mem_directories here⟩
      · obtain ⟨g, named, under⟩ := prefix_of_mem_directoriesIn later
        exact ⟨g, List.mem_cons_of_mem _ named, under⟩

end

/-- Two entries of a directory lie apart. -/
theorem child_eq_of_prefix {f g : Name} (first : path ++ [f] <+: p) (second : path ++ [g] <+: p)
    : f = g := by
  have same : path ++ [f] = path ++ [g] :=
    (List.prefix_of_prefix_length_le first second (by simp)).eq_of_length (by simp)
  simpa using same

/-- A directory among the entries is listed, by induction on the entries. -/
theorem mem_directoriesIn {f : Name} {inner : Entries Content} (member : (f, .dir inner) ∈ entries)
    : path ++ [f] ∈ directoriesIn path entries := by
  induction entries with
  | nil => cases member
  | cons entry rest ih =>
      rcases List.mem_cons.mp member with rfl | later
      · exact List.mem_append_left _ List.mem_cons_self
      · exact List.mem_append_right _ (ih later)

theorem not_mem_directoriesIn : path ∉ directoriesIn path entries := by
  intro member
  obtain ⟨f, -, under⟩ := prefix_of_mem_directoriesIn member
  simpa using under.length_le

mutual

/-- A tree with distinct names lists each directory once, by induction on the tree. -/
theorem directories_nodup : ∀ {path : Path} {node : Node Content}, DistinctNames node →
      (directories path node).Nodup
  | _, .file _, _ => List.nodup_nil
  | _, .dir _, distinct =>
      List.nodup_cons.mpr
        ⟨not_mem_directoriesIn, directoriesIn_nodup distinct.1 distinct.2⟩

theorem directoriesIn_nodup : ∀ {path : Path} {entries : Entries Content},
      AssocList.Distinct entries → DistinctNamesIn entries → (directoriesIn path entries).Nodup
  | _, [], _, _ => List.nodup_nil
  | path, (f, node) :: rest, named, distinct => by
      refine List.Nodup.append (directories_nodup distinct.1)
        (directoriesIn_nodup named.tail distinct.2) fun p here later => ?_
      obtain ⟨g, member, under⟩ := prefix_of_mem_directoriesIn later
      obtain rfl := child_eq_of_prefix (prefix_of_mem_directories here) under
      exact (List.nodup_cons.mp named).1 member

end

end Paths

----------------------------------------------------------------------------------------------------

/-- What a walk comes to: a directory, a file that it takes for a directory, and a directory that
cannot be cleaned up.
-/
inductive Event where
  | enter (path : Path)
  | file (path : Path)
  | stop (path : Path)

namespace Event

def isEnter : Event → Bool
  | .enter _ => true
  | _ => false

/-- The calls of os.listdir on the way, up to the first that fails or the first failing
clean-up.
-/
def visits : List Event → List (Path × Bool)
  | [] => []
  | .enter path :: rest => (path, true) :: visits rest
  | .file path :: _ => [(path, false)]
  | .stop _ :: _ => []

variable {events later : List Event}

theorem visits_enter (paths : List Path) (events : List Event)
    : visits (paths.map .enter ++ events) = paths.map (·, true) ++ visits events := by
  induction paths with
  | nil => rfl
  | cons path rest ih => rw [List.map_cons, List.cons_append, visits, ih]; rfl

/-- A tour that enters directories only is walked to its end. -/
theorem visits_append_of_enters (enters : ∀ event ∈ events, event.isEnter = true)
    : visits (events ++ later) = visits events ++ visits later := by
  induction events with
  | nil => rfl
  | cons event rest ih =>
      have here := enters event List.mem_cons_self
      cases event with
      | enter path =>
          have rest_enters := fun event member => enters event (List.mem_cons_of_mem _ member)
          rw [List.cons_append, visits, visits, ih rest_enters]
          rfl
      | file path => cases here
      | stop path => cases here

/-- Nothing is visited after the first place where the walk breaks off. -/
theorem visits_append_of_not_enters (broken : ¬ ∀ event ∈ events, event.isEnter = true)
    : visits (events ++ later) = visits events := by
  induction events with
  | nil => exact absurd (fun _ member => absurd member List.not_mem_nil) broken
  | cons event rest ih =>
      cases event with
      | enter path =>
          have rest_broken : ¬ ∀ event ∈ rest, event.isEnter = true := fun enters =>
            broken (List.forall_mem_cons.mpr ⟨rfl, enters⟩)
          rw [List.cons_append, visits, visits, ih rest_broken]
      | file path => rfl
      | stop path => rfl

/-- Every tour enters some directories and then ends or comes to something else. -/
theorem enters_cases (events : List Event)
    : ∃ (paths : List Path) (rest : List Event), events = paths.map .enter ++ rest
      ∧ (rest = [] ∨ (∃ path later, rest = .file path :: later)
        ∨ ∃ path later, rest = .stop path :: later) := by
  induction events with
  | nil => exact ⟨[], [], rfl, Or.inl rfl⟩
  | cons event rest ih =>
      cases event with
      | enter path =>
          obtain ⟨paths, later, rfl, cut⟩ := ih
          exact ⟨path :: paths, later, rfl, cut⟩
      | file path => exact ⟨[], _, rfl, Or.inr (Or.inl ⟨path, rest, rfl⟩)⟩
      | stop path => exact ⟨[], _, rfl, Or.inr (Or.inr ⟨path, rest, rfl⟩)⟩

/-- The directories of a tour. -/
def entered : List Event → List Path
  | [] => []
  | .enter path :: rest => path :: entered rest
  | .file _ :: rest => entered rest
  | .stop _ :: rest => entered rest

theorem mem_entered_iff {path : Path} : path ∈ entered events ↔ .enter path ∈ events := by
  induction events with
  | nil => simp [entered]
  | cons event rest ih => cases event <;> simp [entered, ih]

theorem entered_append : entered (events ++ later) = entered events ++ entered later := by
  induction events with
  | nil => rfl
  | cons event rest ih => cases event <;> simp [entered, ih]

theorem entered_map (paths : List Path) : entered (paths.map .enter) = paths := by
  induction paths with
  | nil => rfl
  | cons path rest ih => rw [List.map_cons, entered, ih]

end Event

----------------------------------------------------------------------------------------------------

variable (u : Unicode) (cwd : Entries Content)

/-- A name b.<integer>, which is not a directory of the working directory, stands beside a
directory b.
-/
def obstructed (entries : Entries Content) : Bool :=
  entries.any fun entry =>
    !isdir cwd entry.1 &&
      match base u entry.1 with
      | some b => isdir entries b
      | none => false

mutual

/-- The tour of a tree: all its directories, and the files that have the name of a directory of
the working directory.
-/
def tour (path : Path) : Node Content → List Event
  | .file _ => [.file path]
  | .dir entries =>
      .enter path
        :: (tourIn path entries ++ if obstructed u cwd entries then [.stop path] else [])

def tourIn (path : Path) : Entries Content → List Event
  | [] => []
  | (f, node) :: rest =>
      (if node.isDir || isdir cwd f then tour (path ++ [f]) node else []) ++ tourIn path rest

end

mutual

/-- The tour enters all directories, by induction on the tree. -/
theorem entered_tour : ∀ (path : Path) (node : Node Content),
      Event.entered (tour u cwd path node) = directories path node
  | _, .file _ => rfl
  | path, .dir entries => by
      have stopped
          : Event.entered (if obstructed u cwd entries then [.stop path] else []) = [] := by
        split <;> rfl
      rw [tour, Event.entered, Event.entered_append, entered_tourIn path entries, stopped,
        List.append_nil]
      rfl

theorem entered_tourIn : ∀ (path : Path) (entries : Entries Content),
      Event.entered (tourIn u cwd path entries) = directoriesIn path entries
  | _, [] => rfl
  | path, (f, node) :: rest => by
      have here
          : Event.entered
              (if node.isDir || isdir cwd f then tour u cwd (path ++ [f]) node else [])
            = directories (path ++ [f]) node := by
        split
        · exact entered_tour (path ++ [f]) node
        · next skipped =>
            cases node with
            | file content => rfl
            | dir entries => simp [Node.isDir] at skipped
      rw [tourIn, Event.entered_append, here, entered_tourIn path rest]
      rfl

end

end Granum.Structure
