import Granum.Library.AssocList
import Granum.Library.FallibleRun

/-! The version clean-up of src/structure/clean_old_versions.py: in every directory it walks, the
file with the highest number after its basename becomes the basename and the others go.
-/

namespace Granum.Structure

/-- A name in a directory. -/
abbrev Name := List Char

/-- The names joined after the directory the walk starts from. -/
abbrev Path := List Name

/-- What int() makes of a character: the space around a number and the decimal digits, of all
scripts.
-/
structure Unicode where
  isSpace : Char → Bool
  decimal : Char → Option ℕ

namespace Unicode

variable (u : Unicode)

/-- The digits after the first one, with single underscores between digits. -/
def digits (value : ℕ) : List Char → Option ℕ
  | [] => some value
  | '_' :: c :: rest => (u.decimal c).bind fun digit => digits (10 * value + digit) rest
  | c :: rest => (u.decimal c).bind fun digit => digits (10 * value + digit) rest

def unsigned : List Char → Option ℕ
  | [] => none
  | c :: rest => (u.decimal c).bind fun digit => u.digits digit rest

/-- int() of a string; none is a ValueError. A name is shorter than the longest number int()
converts.
-/
def int (s : List Char) : Option ℤ :=
  match (s.dropWhile u.isSpace).rdropWhile u.isSpace with
  | '-' :: rest => (u.unsigned rest).map fun value => -(value : ℤ)
  | '+' :: rest => (u.unsigned rest).map fun value => (value : ℤ)
  | rest => (u.unsigned rest).map fun value => (value : ℤ)

end Unicode

/-- The characters of ASCII. -/
def ascii : Unicode where
  isSpace c := c ∈ [' ', '\t', '\n', '\x0b', '\x0c', '\r']
  decimal c := if '0' ≤ c ∧ c ≤ '9' then some (c.toNat - '0'.toNat) else none

/-- os.path.splitext of a name: cut before the last dot, unless only dots stand before it. -/
def splitext (p : Name) : Name × Name :=
  let dotIndex := (p.rdropWhile (· ≠ '.')).length - 1
  let root := p.take dotIndex
  if root.any (· ≠ '.') then (root, p.drop dotIndex) else (p, [])

/-- strip("."). -/
def strip (s : List Char) : List Char :=
  (s.dropWhile (· = '.')).rdropWhile (· = '.')

/-- The basename and the number of a file name, when the extension is a number. -/
def version (u : Unicode) (f : Name) : Option (Name × ℤ) :=
  let (name, number) := splitext f
  (u.int (strip number)).map fun number => (name, number)

/-- The key of the sort; the names sorted have a number. -/
def number (u : Unicode) (item : Name) : ℤ :=
  (u.int (strip (splitext item).2)).getD 0

----------------------------------------------------------------------------------------------------

variable {u : Unicode} {f b : Name} {n : ℤ}

/-- The name f is b.<integer>: an integer stands after the last dot, and something besides dots
before it.
-/
def IsVersion (u : Unicode) (f b : Name) (n : ℤ) : Prop :=
  ∃ s, f = b ++ '.' :: s ∧ '.' ∉ s ∧ (∃ c ∈ b, c ≠ '.') ∧ u.int s = some n

theorem strip_extension {s : List Char} (plain : '.' ∉ s) : strip ('.' :: s) = s := by
  have front : ('.' :: s).dropWhile (· = '.') = s := by
    cases s with
    | nil => rfl
    | cons c rest =>
        have other : c ≠ '.' := fun same => plain (by simp [same])
        simp [other]
  rw [strip, front, List.rdropWhile_eq_self_iff]
  intro nonempty dotted
  exact plain (of_decide_eq_true dotted ▸ List.getLast_mem nonempty)

/-- Dropping from the back what is no dot stops at the last dot; by induction from the back. -/
theorem rdropWhile_extension {s : List Char} (plain : '.' ∉ s)
    : (b ++ '.' :: s).rdropWhile (· ≠ '.') = b ++ ['.'] := by
  induction s using List.reverseRecOn with
  | nil => rw [List.rdropWhile_concat, if_neg (by decide)]
  | append_singleton s c ih =>
      obtain ⟨before, other⟩ := not_or.mp (List.mem_append.not.mp plain)
      have passed : c ≠ '.' := fun same => other (List.mem_singleton.mpr same.symm)
      have cut : b ++ '.' :: (s ++ [c]) = (b ++ '.' :: s) ++ [c] := by simp
      rw [cut, List.rdropWhile_concat, if_pos (decide_eq_true passed), ih before]

theorem splitext_extension {s : List Char} (plain : '.' ∉ s)
    : splitext (b ++ '.' :: s)
      = if ∃ c ∈ b, c ≠ '.' then (b, '.' :: s) else (b ++ '.' :: s, []) := by
  have dotted : ((b ++ '.' :: s).rdropWhile (· ≠ '.')).length - 1 = b.length := by
    rw [rdropWhile_extension plain]
    simp
  have other : b.any (· ≠ '.') = true ↔ ∃ c ∈ b, c ≠ '.' := by simp
  simp only [splitext, dotted, List.take_left, List.drop_left, other]

theorem splitext_no_dot (plain : '.' ∉ f) : splitext f = (f, []) := by
  have none : f.rdropWhile (· ≠ '.') = [] := by
    refine (List.rdropWhile_eq_nil_iff).mpr fun c held => ?_
    exact decide_eq_true fun same => plain (same ▸ held)
  simp only [splitext, none, List.length_nil, Nat.zero_sub, List.take_zero, List.any_nil,
    Bool.false_eq_true, if_false]

/-- Every name has no dot or a last dot. -/
theorem dot_cases (f : Name) : '.' ∉ f ∨ ∃ b s, f = b ++ '.' :: s ∧ '.' ∉ s := by
  by_cases dotted : '.' ∈ f
  · obtain ⟨after, before, cut, plain⟩ := List.eq_append_cons_of_mem (List.mem_reverse.mpr dotted)
    refine Or.inr ⟨before.reverse, after.reverse, ?_, by simpa using plain⟩
    simpa using congrArg List.reverse cut
  · exact Or.inl dotted

/-- A name is cut at its last dot in one way. -/
theorem extension_inj {c : Name} {s t : List Char} (plain : '.' ∉ s) (plain' : '.' ∉ t)
    (same : b ++ '.' :: s = c ++ '.' :: t) : b = c ∧ s = t := by
  have front : b ++ ['.'] = c ++ ['.'] := by
    rw [← rdropWhile_extension plain, same, rdropWhile_extension plain']
  obtain rfl := (List.append_inj' front rfl).1
  exact ⟨rfl, (List.cons.inj (List.append_cancel_left same)).2⟩

/-- The walk reads off a name what it is a version of; by the last dot of the name. -/
theorem version_eq_some_iff : version u f = some (b, n) ↔ IsVersion u f b n := by
  obtain plain | ⟨root, s, rfl, plain⟩ := dot_cases f
  · have none : u.int (strip []) = none := rfl
    simp only [version, splitext_no_dot plain, none, Option.map_none, reduceCtorEq, false_iff]
    rintro ⟨s, rfl, -⟩
    exact plain (by simp)
  · constructor
    · intro read
      by_cases named : ∃ c ∈ root, c ≠ '.'
      · rw [version, splitext_extension plain, if_pos named] at read
        simp only [strip_extension plain] at read
        obtain ⟨value, parsed, same⟩ := Option.map_eq_some_iff.mp read
        cases same
        exact ⟨s, rfl, plain, named, parsed⟩
      · rw [version, splitext_extension plain, if_neg named] at read
        cases read
    · rintro ⟨t, same, plain', named, parsed⟩
      obtain ⟨rfl, rfl⟩ := extension_inj plain plain' same
      rw [version, splitext_extension plain, if_pos named]
      simp only [strip_extension plain, parsed, Option.map_some]

/-- The basename of a file name with a number. -/
def base (u : Unicode) (f : Name) : Option Name := (version u f).map Prod.fst

theorem base_eq_some_iff : base u f = some b ↔ ∃ n, IsVersion u f b n := by
  simp only [base, Option.map_eq_some_iff, Prod.exists, exists_and_right, exists_eq_right,
    version_eq_some_iff]

theorem number_of_version (read : IsVersion u f b n) : number u f = n := by
  obtain ⟨s, rfl, plain, named, parsed⟩ := read
  rw [number, splitext_extension plain, if_pos named, strip_extension plain, parsed,
    Option.getD_some]

/-- A basename is shorter than its versions. -/
theorem ne_of_base (read : base u f = some b) : f ≠ b := by
  obtain ⟨n, s, rfl, -⟩ := base_eq_some_iff.mp read
  exact fun same => by simpa using congrArg List.length same

----------------------------------------------------------------------------------------------------

/-- A file with its content, or a directory with its entries in the order of os.listdir. -/
inductive Node (Content : Type) where
  | file (content : Content)
  | dir (entries : List (Name × Node Content))

abbrev Entries (Content : Type) := List (Name × Node Content)

inductive OSError where
  | notADirectory | isADirectory | fileNotFound | notEmpty

variable {Content : Type}

namespace Node

def isDir : Node Content → Bool
  | .file _ => false
  | .dir _ => true

end Node

def isdir (entries : Entries Content) (name : Name) : Bool :=
  match entries.lookup name with
  | some node => node.isDir
  | none => false

def isfile (entries : Entries Content) (name : Name) : Bool :=
  match entries.lookup name with
  | some node => !node.isDir
  | none => false

/-- The changes a clean-up makes in a directory. -/
inductive Change where
  | remove (name : Name)
  | rename (source target : Name)

/-- os.remove and os.rename in one directory; an error leaves the directory as it was. -/
def perform (entries : Entries Content)
    : Change → Except (OSError × Entries Content) (Entries Content)
  | .remove name =>
      match entries.lookup name with
      | some (.file _) => .ok (AssocList.erase entries name)
      | some (.dir _) => .error (.isADirectory, entries)
      | none => .error (.fileNotFound, entries)
  | .rename source target =>
      match entries.lookup source, entries.lookup target with
      | none, _ => .error (.fileNotFound, entries)
      | some (.file _), some (.dir _) => .error (.isADirectory, entries)
      | some (.dir _), some (.file _) => .error (.notADirectory, entries)
      | some (.dir _), some (.dir (_ :: _)) => .error (.notEmpty, entries)
      | some node, _ =>
          .ok ((target, node) :: AssocList.erase (AssocList.erase entries source) target)

----------------------------------------------------------------------------------------------------

/-- The file names of a directory under their basenames, both in the order of the listing. -/
abbrev Duplicates := List (Name × List Name)

/-- The body of the listing loop for a name that is not a directory. -/
def addVersion (u : Unicode) (duplicates : Duplicates) (f : Name) : Duplicates :=
  match version u f with
  | some (name, _) => AssocList.collect duplicates name f
  | none => duplicates

/-- variants.sort by number, which is stable. -/
def sorted (u : Unicode) (variants : List Name) : List Name :=
  variants.insertionSort fun item other => number u item ≤ number u other

/-- What is done for a basename: its file goes when there is one, the last variant is renamed to
it, and the other variants go. Every basename has a variant.
-/
def changes (u : Unicode) (entries : Entries Content) (basename : Name) (variants : List Name)
    : List Change :=
  match (sorted u variants).getLast? with
  | none => []
  | some source =>
      (if isfile entries basename then [.remove basename] else [])
        ++ .rename source basename :: (sorted u variants).dropLast.map .remove

def fixGroup (u : Unicode) (entries : Entries Content) (group : Name × List Name)
    : Except (OSError × Entries Content) (Entries Content) :=
  FallibleRun.run perform entries (changes u entries group.1 group.2)

/-- The loop over the basenames. -/
def fixAll (u : Unicode) (entries : Entries Content) (duplicates : Duplicates)
    : Except (OSError × Entries Content) (Entries Content) :=
  FallibleRun.run (fixGroup u) entries duplicates

/-- A call of walk_dir: the calls of os.listdir in their order, each with whether the path was a
directory, what the path is afterwards, and the exception that left the call.
-/
structure Walk (Content : Type) where
  listed : List (Path × Bool)
  left : Node Content
  raised : Option OSError

/-- The listing loop of one call. -/
structure Pass (Content : Type) where
  listed : List (Path × Bool)
  left : Entries Content
  duplicates : Duplicates
  raised : Option OSError

variable (u) (cwd : Entries Content)

/- os.path.isdir(f) asks the working directory. The walk leaves its directories alone: a clean-up
touches one directory, and where that is the working directory itself the names it renames or
removes are not directories there.
-/
mutual

def walkDir (path : Path) : Node Content → Walk Content
  | .file content => ⟨[(path, false)], .file content, some .notADirectory⟩
  | .dir entries =>
      let pass := listing path [] entries
      match pass.raised with
      | some error => ⟨(path, true) :: pass.listed, .dir pass.left, some error⟩
      | none =>
          match fixAll u pass.left pass.duplicates with
          | .ok left => ⟨(path, true) :: pass.listed, .dir left, none⟩
          | .error (error, left) => ⟨(path, true) :: pass.listed, .dir left, some error⟩

def listing (path : Path) (duplicates : Duplicates) : Entries Content → Pass Content
  | [] => ⟨[], [], duplicates, none⟩
  | (f, node) :: rest =>
      if isdir cwd f then
        let inner := walkDir (path ++ [f]) node
        match inner.raised with
        | some error => ⟨inner.listed, (f, inner.left) :: rest, duplicates, some error⟩
        | none =>
            let later := listing path duplicates rest
            { later with
              listed := inner.listed ++ later.listed,
              left := (f, inner.left) :: later.left }
      else
        let later := listing path (addVersion u duplicates f) rest
        { later with left := (f, node) :: later.left }

end

end Granum.Structure
