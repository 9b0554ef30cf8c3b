import Mathlib

/-! Descents on the unit sphere of an inner product space. A step moves a point along a tangent,
corrects it by a bounded amount, and rescales it by an approximation of the reciprocal root.
The rules for gradients give the corrections that descend along a sum of squares.
-/

open scoped RealInnerProductSpace

variable {E : Type*} [NormedAddCommGroup E] [InnerProductSpace ℝ E]

/-- `root` is the reciprocal root up to the relative error `tolerance`. -/
structure ReciprocalRoot (root : ℝ → ℝ) (tolerance : ℝ) : Prop where
  lower : ∀ x, 0 < x → 1 - tolerance ≤ root x * √x
  upper : ∀ x, 0 < x → root x * √x ≤ 1 + tolerance

/-- The reciprocal root itself. -/
theorem ReciprocalRoot.exact : ReciprocalRoot (fun x => (√x)⁻¹) 0 where
  lower x positive := by
    rw [sub_zero, inv_mul_cancel₀ (Real.sqrt_pos.mpr positive).ne']
  upper x positive := by
    rw [add_zero, inv_mul_cancel₀ (Real.sqrt_pos.mpr positive).ne']

namespace SphereDescent

/-- `x` divided by its norm, as far as `root` goes. -/
def rescale (root : ℝ → ℝ) (x : E) : E := root (‖x‖ ^ 2) • x

/-- The shell of the points whose norm is one up to `tolerance`. -/
structure Near (tolerance : ℝ) (x : E) : Prop where
  lower : 1 - tolerance ≤ ‖x‖
  upper : ‖x‖ ≤ 1 + tolerance

/-- A step with corrections of the norm `rate` at most. A point at zero does not move. -/
structure Step (root : ℝ → ℝ) (rate : ℝ) (x y : E) : Prop where
  moves : ∃ tangent correction : E,
    ⟪x, tangent⟫ = 0
    ∧ ‖correction‖ ≤ rate
    ∧ (x = 0 → tangent = 0 ∧ correction = 0)
    ∧ y = rescale root (x + tangent - correction)

section Rescale

variable {root : ℝ → ℝ} {tolerance : ℝ} {x : E}

@[simp] theorem rescale_zero : rescale root (0 : E) = 0 := smul_zero _

omit [InnerProductSpace ℝ E] in
theorem root_pos (reciprocal : ReciprocalRoot root tolerance) (below : tolerance < 1)
    (nonzero : x ≠ 0)
    : 0 < root (‖x‖ ^ 2) := by
  have positive : 0 < ‖x‖ := norm_pos_iff.mpr nonzero
  have lower := reciprocal.lower _ (pow_pos positive 2)
  rw [Real.sqrt_sq positive.le] at lower
  exact pos_of_mul_pos_left ((sub_pos.mpr below).trans_le lower) positive.le

/-- A point that is rescaled keeps its direction. -/
theorem rescale_eq_smul (reciprocal : ReciprocalRoot root tolerance) (below : tolerance < 1) (x : E)
    : ∃ factor : ℝ, 0 < factor ∧ rescale root x = factor • x := by
  by_cases zero : x = 0
  · exact ⟨1, one_pos, by rw [zero, rescale_zero, smul_zero]⟩
  · exact ⟨root (‖x‖ ^ 2), root_pos reciprocal below zero, rfl⟩

theorem near_rescale (reciprocal : ReciprocalRoot root tolerance) (below : tolerance ≤ 1)
    (nonzero : x ≠ 0)
    : Near tolerance (rescale root x) := by
  have positive : 0 < ‖x‖ := norm_pos_iff.mpr nonzero
  have square : 0 < ‖x‖ ^ 2 := pow_pos positive 2
  have lower := reciprocal.lower _ square
  have upper := reciprocal.upper _ square
  rw [Real.sqrt_sq positive.le] at lower upper
  have nonneg : 0 ≤ root (‖x‖ ^ 2) := by
    by_contra negative
    have product := mul_neg_of_neg_of_pos (not_le.mp negative) positive
    linarith
  have norm : ‖rescale root x‖ = root (‖x‖ ^ 2) * ‖x‖ := by
    rw [rescale, norm_smul, Real.norm_of_nonneg nonneg]
  exact ⟨norm ▸ lower, norm ▸ upper⟩

theorem norm_rescale_le (reciprocal : ReciprocalRoot root tolerance) (nonneg : 0 ≤ tolerance)
    (below : tolerance ≤ 1)
    : ‖rescale root x‖ ≤ 1 + tolerance := by
  by_cases zero : x = 0
  · rw [zero, rescale_zero, norm_zero]
    exact add_nonneg zero_le_one nonneg
  · exact (near_rescale reciprocal below zero).upper

end Rescale

section Step

variable {root : ℝ → ℝ} {tolerance rate : ℝ} {x y : E}

/-- A tangent leads away from the center. -/
theorem norm_le_norm_add {tangent : E} (orthogonal : ⟪x, tangent⟫ = 0) : ‖x‖ ≤ ‖x + tangent‖ := by
  have square := norm_add_sq_eq_norm_sq_add_norm_sq_of_inner_eq_zero x tangent orthogonal
  nlinarith [norm_nonneg x, norm_nonneg (x + tangent), mul_self_nonneg ‖tangent‖]

/-- Before it is rescaled, a point is as far from the center as the rate leaves it. -/
theorem sub_rate_le_norm {tangent correction : E} (orthogonal : ⟪x, tangent⟫ = 0)
    (bounded : ‖correction‖ ≤ rate)
    : ‖x‖ - rate ≤ ‖x + tangent - correction‖ := by
  have away := norm_le_norm_add orthogonal
  have triangle := norm_sub_norm_le (x + tangent) correction
  linarith

namespace Step

theorem of_zero (step : Step root rate (0 : E) y) : y = 0 := by
  obtain ⟨tangent, correction, -, -, still, rfl⟩ := step.moves
  obtain ⟨rfl, rfl⟩ := still rfl
  rw [add_zero, sub_zero, rescale_zero]

theorem near_or_zero (step : Step root rate x y) (reciprocal : ReciprocalRoot root tolerance)
    (below : tolerance ≤ 1)
    : Near tolerance y ∨ y = 0 := by
  obtain ⟨tangent, correction, -, -, -, rfl⟩ := step.moves
  by_cases vanishes : x + tangent - correction = 0
  · exact Or.inr (by rw [vanishes, rescale_zero])
  · exact Or.inl (near_rescale reciprocal below vanishes)

/-- A small rate cannot reach the center. -/
theorem near (step : Step root rate x y) (reciprocal : ReciprocalRoot root tolerance)
    (below : tolerance ≤ 1) (small : rate < 1 - tolerance) (start : Near tolerance x)
    : Near tolerance y := by
  obtain ⟨tangent, correction, orthogonal, bounded, -, rfl⟩ := step.moves
  have remains := sub_rate_le_norm orthogonal bounded
  have lower := start.lower
  exact near_rescale reciprocal below (norm_pos_iff.mp (by linarith))

end Step

end Step

-----------------------------------------------------------------------------------------
-- Gradients

section Gradient

variable [CompleteSpace E] {f g : E → ℝ} {f' g' x : E}

theorem hasGradientAt_inner (c : E) : HasGradientAt (fun y => ⟪c, y⟫) c x :=
  hasGradientAt_iff_hasFDerivAt.mpr (innerSL ℝ c).hasFDerivAt

theorem hasGradientAt_add (left : HasGradientAt f f' x) (right : HasGradientAt g g' x)
    : HasGradientAt (fun y => f y + g y) (f' + g') x := by
  rw [hasGradientAt_iff_hasFDerivAt, map_add]
  exact left.hasFDerivAt.add right.hasFDerivAt

theorem hasGradientAt_sub (left : HasGradientAt f f' x) (right : HasGradientAt g g' x)
    : HasGradientAt (fun y => f y - g y) (f' - g') x := by
  rw [hasGradientAt_iff_hasFDerivAt, map_sub]
  exact left.hasFDerivAt.sub right.hasFDerivAt

theorem hasGradientAt_mul (left : HasGradientAt f f' x) (right : HasGradientAt g g' x)
    : HasGradientAt (fun y => f y * g y) (f x • g' + g x • f') x := by
  rw [hasGradientAt_iff_hasFDerivAt, map_add, map_smul, map_smul]
  exact left.hasFDerivAt.mul right.hasFDerivAt

theorem hasGradientAt_const_mul (c : ℝ) (right : HasGradientAt g g' x)
    : HasGradientAt (fun y => c * g y) (c • g') x := by
  simpa using hasGradientAt_mul (hasGradientAt_const x c) right

/-- Half the square of `f` descends along the gradient of `f`, as far as `f` goes. -/
theorem hasGradientAt_half_sq (value : HasGradientAt f f' x)
    : HasGradientAt (fun y => f y ^ 2 / 2) (f x • f') x := by
  have product := hasGradientAt_const_mul (1 / 2) (hasGradientAt_mul value value)
  have twice : (1 / 2 : ℝ) • (f x • f' + f x • f') = f x • f' := by
    rw [← two_smul ℝ, smul_smul]
    norm_num
  rw [twice] at product
  exact product.congr_of_eventuallyEq (Filter.Eventually.of_forall fun y => by ring)

end Gradient

end SphereDescent
