import Mathlib

/-! Paths through a line of numbered stages. A label leaves one fixed stage for the next, so
a path is a list of labels whose stages count upwards without a gap.
-/

namespace StagedPath

variable {α : Type*} (stage : α → ℕ)

/-- Following `labels` one after the other leads from stage `start` to stage `finish`. -/
def Path : ℕ → List α → ℕ → Prop
  | start, [], finish => start = finish
  | start, label :: rest, finish => stage label = start ∧ Path (start + 1) rest finish

variable {stage}

theorem Path.nil (start : ℕ) : Path stage start [] start := rfl

theorem Path.single (label : α) : Path stage (stage label) [label] (stage label + 1) :=
  ⟨rfl, rfl⟩

/-- Paths compose, by induction on the first. -/
theorem Path.append {start middle finish : ℕ} {first second : List α}
    (left : Path stage start first middle) (right : Path stage middle second finish)
    : Path stage start (first ++ second) finish := by
  induction first generalizing start with
  | nil => exact (show start = middle from left) ▸ right
  | cons label rest ih => exact ⟨left.1, ih left.2⟩

/-- A path over a concatenation splits at some middle stage, by induction on the first part. -/
theorem Path.split {start finish : ℕ} {first second : List α}
    (path : Path stage start (first ++ second) finish)
    : ∃ middle, Path stage start first middle ∧ Path stage middle second finish := by
  induction first generalizing start with
  | nil => exact ⟨start, rfl, path⟩
  | cons label rest ih =>
      obtain ⟨middle, left, right⟩ := ih path.2
      exact ⟨middle, ⟨path.1, left⟩, right⟩

/-- The stages left along a path are exactly the numbers from its start to its finish. -/
theorem Path.stages {start finish : ℕ} {labels : List α}
    (path : Path stage start labels finish)
    : labels.map stage = List.range' start labels.length
      ∧ finish = start + labels.length := by
  induction labels generalizing start with
  | nil => exact ⟨rfl, (show start = finish from path).symm⟩
  | cons label rest ih =>
      obtain ⟨counted, reached⟩ := ih path.2
      refine ⟨?_, by simp only [List.length_cons]; omega⟩
      rw [List.map_cons, path.1, counted, List.length_cons, List.range'_succ]

theorem Path.le {start finish : ℕ} {labels : List α}
    (path : Path stage start labels finish)
    : start ≤ finish := by
  have reached := path.stages.2
  omega

/-- A label on a path leaves a stage between the path's ends. -/
theorem Path.stage_bounds {start finish : ℕ} {labels : List α}
    (path : Path stage start labels finish) {label : α} (member : label ∈ labels)
    : start ≤ stage label ∧ stage label < finish := by
  have counted : stage label ∈ labels.map stage := List.mem_map_of_mem member
  rw [path.stages.1, List.mem_range'_1] at counted
  have reached := path.stages.2
  omega

/-- Two entries of one timed path that leave the same stage are the same entry. -/
theorem Path.entry_unique {start finish : ℕ} {timed : List (ℕ × α)}
    (path : Path stage start (timed.map Prod.snd) finish) {first second : ℕ × α}
    (left : first ∈ timed) (right : second ∈ timed) (same : stage first.2 = stage second.2)
    : first = second := by
  have distinct : (timed.map (fun entry => stage entry.2)).Nodup := by
    have counted := path.stages.1
    rw [List.map_map] at counted
    exact counted ▸ List.nodup_range'
  exact List.inj_on_of_nodup_map distinct left right same

/-- Every stage between the ends of a path is left by some label of it. -/
theorem Path.stage_left {start finish : ℕ} {labels : List α}
    (path : Path stage start labels finish) {target : ℕ}
    (lower : start ≤ target) (upper : target < finish)
    : ∃ label ∈ labels, stage label = target := by
  have counted : target ∈ labels.map stage := by
    rw [path.stages.1, List.mem_range'_1]
    have reached := path.stages.2
    omega
  obtain ⟨label, member, same⟩ := List.mem_map.mp counted
  exact ⟨label, member, same⟩

/-- In a path whose labels carry nondecreasing times, a stage below that of a label was left
no later than the label. Witness: the path up to the label ends at the label's stage.
-/
theorem Path.left_earlier {start finish : ℕ} {timed : List (ℕ × α)}
    (path : Path stage start (timed.map Prod.snd) finish)
    (sorted : timed.Pairwise (fun left right => left.1 ≤ right.1))
    {time : ℕ} {label : α} (member : (time, label) ∈ timed) {target : ℕ}
    (lower : start ≤ target) (upper : target < stage label)
    : ∃ earlier ≤ time, ∃ first, (earlier, first) ∈ timed ∧ stage first = target := by
  obtain ⟨before, after, rfl⟩ := List.append_of_mem member
  rw [List.map_append] at path
  obtain ⟨middle, prefixPath, suffixPath⟩ := path.split
  have reached : stage label = middle := suffixPath.1
  obtain ⟨first, inPrefix, left⟩ := prefixPath.stage_left lower (reached ▸ upper)
  obtain ⟨⟨earlier, _⟩, inBefore, rfl⟩ := List.mem_map.mp inPrefix
  have order := (List.pairwise_append.mp sorted).2.2 _ inBefore (time, label) (by simp)
  exact ⟨earlier, order, _, List.mem_append_left _ inBefore, left⟩

attribute [irreducible] Path

end StagedPath
