import Granum.Library.QuaternionTurn

/-! Turns that move a unit quaternion by a bounded part. The image of the axis moves along the arc
to the direction, or past it by at most the angle of the move.
-/

open Quaternion InnerProductGeometry
open scoped RealInnerProductSpace Real

namespace QuaternionTurn

section Deviation

variable {E : Type*} [NormedAddCommGroup E] [InnerProductSpace ℝ E] {x y : E} {s : ℝ}

/-- A vector that misses another one by a part of its length. -/
theorem angle_add_le (nonzero : x ≠ 0) (nonneg : 0 ≤ s) (small : s < 1) (missed : ‖y‖ ≤ s * ‖x‖)
    : angle (x + y) x ≤ Real.arcsin s := by
  have length : 0 < ‖x‖ := norm_pos_iff.mpr nonzero
  have inner : ⟪x + y, x⟫ = ‖x‖ ^ 2 + ⟪y, x⟫ := by
    rw [inner_add_left, real_inner_self_eq_norm_sq]
  have square : ‖x + y‖ ^ 2 = ‖x‖ ^ 2 + 2 * ⟪y, x⟫ + ‖y‖ ^ 2 := by
    rw [norm_add_sq_real, real_inner_comm]
  have part : ‖y‖ ^ 2 ≤ s ^ 2 * ‖x‖ ^ 2 := by
    rw [← mul_pow]
    exact pow_le_pow_left₀ (norm_nonneg y) missed 2
  have product : |⟪y, x⟫| ≤ s * ‖x‖ ^ 2 := by
    calc |⟪y, x⟫| ≤ ‖y‖ * ‖x‖ := abs_real_inner_le_norm y x
      _ ≤ s * ‖x‖ * ‖x‖ := mul_le_mul_of_nonneg_right missed length.le
      _ = s * ‖x‖ ^ 2 := by ring
  have ahead : 0 ≤ ⟪x + y, x⟫ := by
    rw [inner]
    nlinarith [(abs_le.mp product).1, pow_pos length 2]
  have sum : 0 < ‖x + y‖ := by
    apply norm_pos_iff.mpr
    intro zero
    have opposite : ‖y‖ = ‖x‖ := by rw [eq_neg_of_add_eq_zero_right zero, norm_neg]
    rw [opposite] at missed
    nlinarith
  have root := Real.sq_sqrt (show 0 ≤ 1 - s ^ 2 by nlinarith)
  have cosine : √(1 - s ^ 2) * (‖x + y‖ * ‖x‖) ≤ ⟪x + y, x⟫ := by
    apply le_of_sq_le_sq _ ahead
    rw [mul_pow, mul_pow, root, square, inner]
    have rest := mul_nonneg (square ▸ sq_nonneg ‖x + y‖) (sub_nonneg.mpr part)
    nlinarith [sq_nonneg (⟪y, x⟫ + ‖y‖ ^ 2)]
  rw [Real.arcsin_eq_arccos nonneg, angle]
  exact Real.arccos_le_arccos ((le_div_iff₀ (mul_pos sum length)).mpr cosine)

/-- A unit vector and one that is near to it. -/
theorem inner_of_near (unit : ‖x‖ = 1) (small : s < 1) (near : ‖x - y‖ ≤ s)
    : 0 < ⟪x, y⟫ ∧ (1 - s ^ 2) * ‖y‖ ^ 2 ≤ ⟪x, y⟫ ^ 2 := by
  have nonneg : 0 ≤ s := (norm_nonneg _).trans near
  have square := pow_le_pow_left₀ (norm_nonneg _) near 2
  rw [norm_sub_sq_real, unit] at square
  have rest : 0 < 1 - s ^ 2 := by nlinarith
  have lower : (1 - s ^ 2 + ‖y‖ ^ 2) / 2 ≤ ⟪x, y⟫ := by linarith
  have half : 0 < (1 - s ^ 2 + ‖y‖ ^ 2) / 2 := by
    have length := sq_nonneg ‖y‖
    linarith
  refine ⟨half.trans_le lower, ?_⟩
  calc (1 - s ^ 2) * ‖y‖ ^ 2 ≤ ((1 - s ^ 2 + ‖y‖ ^ 2) / 2) ^ 2 := by
        nlinarith [sq_nonneg (1 - s ^ 2 - ‖y‖ ^ 2)]
    _ ≤ ⟪x, y⟫ ^ 2 := pow_le_pow_left₀ half.le lower 2

end Deviation

section Arc

variable {q k a b : ℍ[ℝ]} {u v rate m : ℝ}

theorem Direction.angle_eq (left : Direction a) (right : Direction b)
    : angle a b = Real.arccos ⟪a, b⟫ := by
  rw [angle, left.norm_eq_one, right.norm_eq_one, mul_one, div_one]

theorem norm_carried (axis : Direction k) : ‖carried q k‖ = ‖q‖ ^ 2 := by
  rw [carried, norm_mul, norm_mul, norm_star, axis.norm_eq_one, mul_one, sq]

theorem inner_turned (direction : Direction b) (unit : ‖q‖ = 1)
    : ⟪q, turned q k b u v⟫ = u + v * ⟪carried q k, b⟫ := by
  rw [turned, inner_sub_right, inner_smul_right, inner_smul_right, inner_turn direction,
    real_inner_self_eq_norm_sq, unit]
  ring

theorem inner_carried_turned_right (axis : Direction k) (direction : Direction b)
    (unit : ‖q‖ = 1) (a : ℍ[ℝ])
    : ⟪carried (turned q k b u v) k, a⟫
      = (u ^ 2 - v ^ 2) * ⟪carried q k, a⟫
        + 2 * v * (u + v * ⟪carried q k, b⟫) * ⟪b, a⟫ := by
  rw [carried_turned axis direction (mul_star_of_norm unit), inner_add_left, inner_smul_left,
    inner_smul_left]
  simp only [conj_trivial]
  ring

/-- What the image is made of is not shorter than the image. -/
theorem norm_turned_sq_le (axis : Direction k) (direction : Direction b) (unit : ‖q‖ = 1)
    (ahead : v ^ 2 ≤ u ^ 2) (nonneg : 0 ≤ v) (toward : 0 < u + v * ⟪carried q k, b⟫)
    : ‖turned q k b u v‖ ^ 2 ≤ u ^ 2 - v ^ 2 + 2 * v * (u + v * ⟪carried q k, b⟫) := by
  have cosine := le_of_abs_le
    ((axis.carried (mul_star_of_norm unit)).abs_inner_le direction)
  have positive : v ≤ u := by
    rcases le_abs.mp (abs_of_nonneg nonneg ▸ sq_le_sq.mp ahead) with less | opposite
    · exact less
    · have product := mul_le_mul_of_nonneg_left cosine nonneg
      linarith
  rw [norm_turned_sq axis direction unit]
  nlinarith [mul_nonneg (mul_nonneg nonneg (sub_nonneg.mpr positive)) (sub_nonneg.mpr cosine)]

/-- On the arc, the image is as near to `a` as one of the ends. -/
theorem inner_along_arc (axis : Direction k) (direction : Direction b) (unit : ‖q‖ = 1)
    (ahead : v ^ 2 ≤ u ^ 2) (nonneg : 0 ≤ v) (toward : 0 < u + v * ⟪carried q k, b⟫)
    (positive : 0 ≤ m) (left : m ≤ ⟪carried q k, a⟫) (right : m ≤ ⟪b, a⟫)
    : m * ‖turned q k b u v‖ ^ 2 ≤ ⟪carried (turned q k b u v) k, a⟫ := by
  have length := norm_turned_sq_le axis direction unit ahead nonneg toward
  rw [inner_carried_turned_right axis direction unit]
  calc m * ‖turned q k b u v‖ ^ 2
      ≤ m * (u ^ 2 - v ^ 2 + 2 * v * (u + v * ⟪carried q k, b⟫)) :=
        mul_le_mul_of_nonneg_left length positive
    _ = (u ^ 2 - v ^ 2) * m + 2 * v * (u + v * ⟪carried q k, b⟫) * m := by ring
    _ ≤ (u ^ 2 - v ^ 2) * ⟪carried q k, a⟫
          + 2 * v * (u + v * ⟪carried q k, b⟫) * ⟪b, a⟫ :=
        add_le_add (mul_le_mul_of_nonneg_left left (sub_nonneg.mpr ahead))
          (mul_le_mul_of_nonneg_left right (mul_nonneg (by linarith) toward.le))

/-- It is nearer than the end that is farther away. -/
theorem inner_along_arc_lt (axis : Direction k) (direction : Direction b) (unit : ‖q‖ = 1)
    (ahead : v ^ 2 ≤ u ^ 2) (moves : 0 < v) (toward : 0 < u + v * ⟪carried q k, b⟫)
    (positive : 0 ≤ ⟪carried q k, a⟫) (nearer : ⟪carried q k, a⟫ < ⟪b, a⟫)
    : ⟪carried q k, a⟫ * ‖turned q k b u v‖ ^ 2 < ⟪carried (turned q k b u v) k, a⟫ := by
  have length := norm_turned_sq_le axis direction unit ahead moves.le toward
  rw [inner_carried_turned_right axis direction unit]
  calc ⟪carried q k, a⟫ * ‖turned q k b u v‖ ^ 2
      ≤ ⟪carried q k, a⟫ * (u ^ 2 - v ^ 2 + 2 * v * (u + v * ⟪carried q k, b⟫)) :=
        mul_le_mul_of_nonneg_left length positive
    _ = (u ^ 2 - v ^ 2) * ⟪carried q k, a⟫
          + 2 * v * (u + v * ⟪carried q k, b⟫) * ⟪carried q k, a⟫ := by ring
    _ < (u ^ 2 - v ^ 2) * ⟪carried q k, a⟫
          + 2 * v * (u + v * ⟪carried q k, b⟫) * ⟪b, a⟫ :=
        add_lt_add_right (mul_lt_mul_of_pos_left nearer
          (mul_pos (mul_pos two_pos moves) toward)) _

/-- Past the direction, the image is nearer to it than to where it came from. -/
theorem inner_past (axis : Direction k) (direction : Direction b) (unit : ‖q‖ = 1)
    (past : u ^ 2 < v ^ 2) (nonneg : 0 ≤ v) (small : rate < 1)
    (near : ‖q - turned q k b u v‖ ≤ rate)
    : (1 - 2 * rate ^ 2) * ‖turned q k b u v‖ ^ 2 ≤ ⟪carried (turned q k b u v) k, b⟫ := by
  obtain ⟨toward, square⟩ := inner_of_near unit small near
  rw [inner_turned direction unit] at toward square
  have length := norm_turned_sq (u := u) (v := v) axis direction unit
  have cosine := le_of_abs_le
    ((axis.carried (mul_star_of_norm unit)).abs_inner_le direction)
  rw [inner_carried_turned_right axis direction unit, direction.inner_self]
  have nearer := mul_nonneg
    (add_nonneg (mul_nonneg (mul_nonneg zero_le_two nonneg) toward.le) (sub_pos.mpr past).le)
    (sub_nonneg.mpr cosine)
  nlinarith

theorem arccos_eq_two_mul_arcsin (nonneg : 0 ≤ rate) (small : rate < 1)
    : Real.arccos (1 - 2 * rate ^ 2) = 2 * Real.arcsin rate := by
  have lower := Real.arcsin_nonneg.mpr nonneg
  have upper := Real.arcsin_le_pi_div_two rate
  have cosine : Real.cos (2 * Real.arcsin rate) = 1 - 2 * rate ^ 2 := by
    rw [Real.cos_two_mul, Real.cos_sq', Real.sin_arcsin (by linarith) small.le]
    ring
  rw [← cosine, Real.arccos_cos (by linarith) (by linarith)]

theorem angle_carried (axis : Direction k) (target : Direction a) (p : ℍ[ℝ])
    : angle (carried p k) a = Real.arccos (⟪carried p k, a⟫ / ‖p‖ ^ 2) := by
  rw [angle, norm_carried axis, target.norm_eq_one, mul_one]

/-- A turn by a bounded part takes the image nearer to `a`, unless it is already as near as the
direction and the turn together.
-/
theorem angle_turned (axis : Direction k) (direction : Direction b) (target : Direction a)
    (unit : ‖q‖ = 1) (nonneg : 0 ≤ v) (small : rate < 1) (near : ‖q - turned q k b u v‖ ≤ rate)
    (facing : angle (carried q k) a ≤ π / 2) (close : angle b a ≤ π / 2)
    : angle (carried (turned q k b u v) k) a
        ≤ max (angle (carried q k) a) (2 * Real.arcsin rate + angle b a)
      ∧ (0 < v → 2 * Real.arcsin rate + angle b a < angle (carried q k) a
        → angle (carried (turned q k b u v) k) a < angle (carried q k) a) := by
  have gain : 0 ≤ rate := (norm_nonneg _).trans near
  have sine := Real.arcsin_nonneg.mpr gain
  have image := axis.carried (mul_star_of_norm unit)
  obtain ⟨toward, -⟩ := inner_of_near unit small near
  have length : 0 < ‖turned q k b u v‖ ^ 2 := by
    refine pow_pos (norm_pos_iff.mpr fun zero => ?_) 2
    rw [zero, inner_zero_right] at toward
    exact lt_irrefl _ toward
  rw [inner_turned direction unit] at toward
  rw [image.angle_eq target, Real.arccos_le_pi_div_two] at facing
  have closeCosine := close
  rw [direction.angle_eq target, Real.arccos_le_pi_div_two] at closeCosine
  rcases le_or_gt (v ^ 2) (u ^ 2) with ahead | past
  · constructor
    · have along := inner_along_arc (a := a) axis direction unit ahead nonneg toward
        (le_min facing closeCosine) (min_le_left _ _) (min_le_right _ _)
      have nearer := Real.arccos_le_arccos ((le_div_iff₀ length).mpr along)
      rw [Real.antitone_arccos.map_min, ← image.angle_eq target, ← direction.angle_eq target,
        ← angle_carried axis target] at nearer
      exact nearer.trans (max_le_max le_rfl (by linarith))
    · intro moves far
      have between : ⟪carried q k, a⟫ < ⟪b, a⟫ := by
        by_contra farther
        have angles := Real.arccos_le_arccos (not_lt.mp farther)
        rw [← image.angle_eq target, ← direction.angle_eq target] at angles
        linarith
      have along := inner_along_arc_lt axis direction unit ahead moves toward facing between
      have bounded := le_of_abs_le (abs_real_inner_div_norm_mul_norm_le_one
        (carried (turned q k b u v) k) a)
      rw [norm_carried axis, target.norm_eq_one, mul_one] at bounded
      have nearer := Real.strictAntiOn_arccos ⟨(neg_one_lt_zero.trans_le facing).le,
          le_of_abs_le (image.abs_inner_le target)⟩
        ⟨(neg_one_lt_zero.trans_le (facing.trans ((lt_div_iff₀ length).mpr along).le)).le,
          bounded⟩ ((lt_div_iff₀ length).mpr along)
      rwa [← image.angle_eq target, ← angle_carried axis target] at nearer
  · have missed := inner_past axis direction unit past nonneg small near
    have beyond := Real.arccos_le_arccos ((le_div_iff₀ length).mpr missed)
    rw [arccos_eq_two_mul_arcsin gain small, ← angle_carried axis direction] at beyond
    have triangle := angle_le_angle_add_angle (carried (turned q k b u v) k) b a
    have bound := triangle.trans (add_le_add_left beyond _)
    exact ⟨bound.trans (le_max_right _ _), fun _ far => bound.trans_lt far⟩

end Arc

end QuaternionTurn
