import Mathlib

/-! Computations that may throw and that record what they read, one read after the other. -/

/-- A computation that may throw, with the reads so far. -/
abbrev LoggedRun (ε ω : Type) := ExceptT ε (StateM (List ω))

namespace LoggedRun

variable {ε ω α β ι : Type}

/-- The computation returns `a` and records `reads` if all is fine, and throws otherwise. -/
structure Returns (x : LoggedRun ε ω α) (fine : Prop) (a : α) (reads : List ω) : Prop where
  returned : fine → ∀ log, x log = (.ok a, log ++ reads)
  thrown : ¬ fine → ∀ log, ∃ e t, x log = (.error e, t)

namespace Returns

variable {x : LoggedRun ε ω α} {f : α → LoggedRun ε ω β} {fine later : Prop} {a : α} {b : β}
  {reads more : List ω}

theorem of_pure (a : α) : Returns (pure a : LoggedRun ε ω α) True a [] where
  returned _ log := by
    rw [List.append_nil]
    rfl
  thrown absurd := (absurd trivial).elim

theorem bind (first : Returns x fine a reads) (next : fine → Returns (f a) later b more)
    : Returns (x >>= f) (fine ∧ later) b (reads ++ more) where
  returned := by
    rintro ⟨isFine, isLater⟩ log
    have second := (next isFine).returned isLater (log ++ reads)
    rw [List.append_assoc] at second
    simpa [Bind.bind, ExceptT.bind, ExceptT.mk, StateT.bind, ExceptT.bindCont,
      first.returned isFine log] using second
  thrown := by
    intro fails log
    by_cases isFine : fine
    · obtain ⟨e, t, second⟩ := (next isFine).thrown (fun isLater => fails ⟨isFine, isLater⟩)
        (log ++ reads)
      refine ⟨e, t, ?_⟩
      simpa [Bind.bind, ExceptT.bind, ExceptT.mk, StateT.bind, ExceptT.bindCont,
        first.returned isFine log] using second
    · obtain ⟨e, t, threw⟩ := first.thrown isFine log
      refine ⟨e, t, ?_⟩
      simp [Bind.bind, ExceptT.bind, ExceptT.mk, StateT.bind, ExceptT.bindCont, threw]
      rfl

/-- A value that is computed from the one that is returned. -/
theorem map (returns : Returns x fine a reads) (g : α → β)
    : Returns (do return g (← x)) fine (g a) reads where
  returned isFine log := by
    simp [Bind.bind, ExceptT.bind, ExceptT.mk, StateT.bind, ExceptT.bindCont,
      returns.returned isFine log]
    rfl
  thrown fails log := by
    obtain ⟨e, t, threw⟩ := returns.thrown fails log
    refine ⟨e, t, ?_⟩
    simp [Bind.bind, ExceptT.bind, ExceptT.mk, StateT.bind, ExceptT.bindCont, threw]
    rfl

theorem congr {fine' : Prop} {a' : α} {reads' : List ω} (returns : Returns x fine a reads)
    (same : fine' ↔ fine) (value : fine → a' = a) (log : reads' = reads)
    : Returns x fine' a' reads' where
  returned isFine := by
    rw [value (same.mp isFine), log]
    exact returns.returned (same.mp isFine)
  thrown fails := returns.thrown (mt same.mpr fails)

/-- A loop whose body records its reads, by induction on what it runs over. -/
theorem foldlM {step : β → ι → LoggedRun ε ω β} {fineAt : ι → Prop} {next : β → ι → β}
    {readsAt : ι → List ω}
    (body : ∀ b i, Returns (step b i) (fineAt i) (next b i) (readsAt i)) (b : β) (items : List ι)
    : Returns (items.foldlM step b) (∀ i ∈ items, fineAt i) (items.foldl next b)
      (items.flatMap readsAt) := by
  induction items generalizing b with
  | nil =>
      exact (of_pure b).congr (iff_of_true (List.forall_mem_nil _) trivial) (fun _ => rfl) rfl
  | cons i rest ih =>
      rw [List.foldlM_cons]
      exact ((body b i).bind fun _ => ih (next b i)).congr List.forall_mem_cons
        (fun _ => rfl) (List.flatMap_cons)

end Returns

end LoggedRun
