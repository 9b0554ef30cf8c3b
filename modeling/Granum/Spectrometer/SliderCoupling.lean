import Granum.Spectrometer.SliderPanel

/-! The pairs of sliders stay in order, unless one is moved to the end of the range at which the
other one stands.
-/

namespace Granum.Spectrometer.Client

/-- Values of the sliders with which an update is accepted. -/
structure Updatable (slider : SliderName → JSlider) : Prop where
  nonnegative : ∀ name, 0 ≤ (slider name).value.toInt
  width : (slider .xWidth).value.toInt ≤ 2 * (slider .xCenter).value.toInt

theorem nonnegative_update {slider : SliderName → JSlider} {name : SliderName} {next : JSlider}
    (nonnegative : ∀ name, 0 ≤ (slider name).value.toInt) (value : 0 ≤ next.value.toInt)
    : ∀ other, 0 ≤ (Function.update slider name next other).value.toInt := by
  intro other
  rcases eq_or_ne other name with rfl | different
  · rwa [Function.update_self]
  · rw [Function.update_of_ne different]
    exact nonnegative other

/-- No contrast that was passed on has an upper bound of zero. -/
def SliderPanel.Divisible (s : SliderPanel) : Prop := ∀ params ∈ s.passed, params.2 ≠ 0

/-- Code of the panel returns with some setting of the sliders. What it passes on is divisible by if
the upper bound of the contrast ends up so.
-/
def Ends (x : Handling Unit) (s : SliderPanel) (slider : SliderName → JSlider) : Prop :=
  ∃ t, x s = (.ok (), t) ∧ t.slider = slider ∧ t.resX = s.resX ∧ t.resY = s.resY
    ∧ ((slider .maxResizeVal).value ≠ 0 → s.Divisible → t.Divisible)

namespace Ends

variable {x y : Handling Unit} {s : SliderPanel} {slider last : SliderName → JSlider}

theorem of_pure : Ends (pure ()) s s.slider := ⟨s, rfl, rfl, rfl, rfl, fun _ divisible => divisible⟩

theorem andThen (first : Ends x s slider)
    (second : ∀ t, t.slider = slider → t.resX = s.resX → t.resY = s.resY → Ends y t last)
    (kept : (last .maxResizeVal).value ≠ 0 → (slider .maxResizeVal).value ≠ 0)
    : Ends (x >>= fun _ => y) s last := by
  obtain ⟨t, ran, sliders, resX, resY, divisible⟩ := first
  obtain ⟨u, ranOn, lasts, lastX, lastY, divisibleOn⟩ := second t sliders resX resY
  refine ⟨u, ?_, lasts, lastX.trans resX, lastY.trans resY,
    fun nonzero before => divisibleOn nonzero (divisible (kept nonzero) before)⟩
  simpa [Bind.bind, ExceptT.bind, ExceptT.mk, StateT.bind, ExceptT.bindCont, ran] using ranOn

/-- Code one after the other, when the first part leaves a contrast that is divisible by. -/
theorem exists_andThen {Q : (SliderName → JSlider) → Prop} (first : Ends x s slider)
    (nonzero : (slider .maxResizeVal).value ≠ 0)
    (second : ∀ t, t.slider = slider → t.resX = s.resX → t.resY = s.resY
      → ∃ last, Ends y t last ∧ Q last)
    : ∃ last, Ends (x >>= fun _ => y) s last ∧ Q last := by
  obtain ⟨t, ran, sliders, resX, resY, divisible⟩ := first
  obtain ⟨last, ⟨u, ranOn, lasts, lastX, lastY, divisibleOn⟩, holds⟩ := second t sliders resX resY
  refine ⟨last, ⟨u, ?_, lasts, lastX.trans resX, lastY.trans resY,
    fun safe before => divisibleOn safe (divisible nonzero before)⟩, holds⟩
  simpa [Bind.bind, ExceptT.bind, ExceptT.mk, StateT.bind, ExceptT.bindCont, ran] using ranOn

/-- Code that first looks at the panel. -/
theorem of_get {f : SliderPanel → Handling Unit} (ends : Ends (f s) s slider)
    : Ends (get >>= f) s slider := ends

/-- Code that depends on a condition. -/
theorem of_if {p : Prop} [Decidable p] (ends : p → Ends x s slider)
    (skips : ¬ p → s.slider = slider)
    : Ends (if p then x else pure ()) s slider := by
  split
  · exact ends ‹_›
  · exact skips ‹_› ▸ of_pure

/-- A change of a slider, and what its listener does then. -/
theorem exists_change {fire : SliderName → Handling Unit} {name : SliderName} {next : JSlider}
    {Q : (SliderName → JSlider) → Prop} (run : x s = change fire name next s)
    (same : next = s.slider name → Q s.slider)
    (fires : next ≠ s.slider name → ∀ t, t.slider = Function.update s.slider name next
      → t.resX = s.resX → ∃ last, Ends (fire name) t last ∧ Q last)
    : ∃ last, Ends x s last ∧ Q last := by
  by_cases unchanged : next = s.slider name
  · refine ⟨s.slider, ⟨s, ?_, rfl, rfl, rfl, fun _ divisible => divisible⟩, same unchanged⟩
    rw [run, change, if_pos unchanged]
  · obtain ⟨last, ⟨t, ran, rest⟩, holds⟩ := fires unchanged
      { s with slider := Function.update s.slider name next } rfl rfl
    refine ⟨last, ⟨t, ?_, rest⟩, holds⟩
    rw [run, change, if_neg unchanged]
    exact ran

theorem of_change {fire : SliderName → Handling Unit} {name : SliderName} {next : JSlider}
    (run : x s = change fire name next s) (same : next = s.slider name → s.slider = slider)
    (fires : next ≠ s.slider name → ∀ t, t.slider = Function.update s.slider name next
      → Ends (fire name) t slider)
    : Ends x s slider := by
  obtain ⟨last, ends, rfl⟩ := exists_change (Q := (· = slider)) run same
    fun changed t sliders _ => ⟨slider, fires changed t sliders, rfl⟩
  exact ends

end Ends

theorem setValue_run {fire : SliderName → Handling Unit} {name : SliderName} {n : Int32}
    {s : SliderPanel} {next : JSlider} (set : (s.slider name).setValue n = next)
    : setValue fire name n s = change fire name next s := by
  rw [setValue, set]

theorem setMaximum_run {fire : SliderName → Handling Unit} {name : SliderName} {n : Int32}
    {s : SliderPanel} {next : JSlider} (set : (s.slider name).setMaximum n = next)
    : setMaximum fire name n s = change fire name next s := by
  rw [setMaximum, set]

/-- An update passes the values on. -/
theorem updateSliders_ends {s : SliderPanel} {slider : SliderName → JSlider}
    (stands : s.slider = slider) (updatable : Updatable slider)
    : Ends updateSliders s slider := by
  subst stands
  have width := updatable.width
  have nonnegative := updatable.nonnegative
  have center := nonnegative .xCenter
  have some := nonnegative .xWidth
  obtain ⟨q, accepted⟩ := setScanlineParams_accepts s.msgprocessor
    (Accepted.mk some center (by omega) (nonnegative .yStart) (nonnegative .yEnd))
  have ran : updateSliders s = (.ok (), { s with
      msgprocessor := q.setResampleParams (s.getValue .minResizeVal) (s.getValue .maxResizeVal)
      passed := s.passed ++ [(s.getValue .minResizeVal, s.getValue .maxResizeVal)] }) := by
    rw [updateSliders]
    simp only [SliderPanel.getValue, accepted]
  refine ⟨_, ran, rfl, rfl, rfl, ?_⟩
  intro nonzero before params mem
  rcases List.mem_append.mp mem with earlier | now
  · exact before params earlier
  · exact List.mem_singleton.mp now ▸ nonzero

-----------------------------------------------------------------------------------------
-- The listeners of a pair

/-- The pairs of sliders that bound each other. -/
inductive Pair : SliderName → SliderName → Prop
  | rows : Pair .yStart .yEnd
  | contrast : Pair .minResizeVal .maxResizeVal

theorem Pair.ne {low high : SliderName} (pair : Pair low high) : low ≠ high := by
  cases pair <;> decide

theorem Pair.listener_low {low high : SliderName} (pair : Pair low high)
    (fire : SliderName → Handling Unit) : listener fire low = raiseUpper fire low high := by
  cases pair <;> rfl

theorem Pair.listener_high {low high : SliderName} (pair : Pair low high)
    (fire : SliderName → Handling Unit) : listener fire high = reduceLower fire low high := by
  cases pair <;> rfl

section Settled

variable {low high : SliderName} {s : SliderPanel} (pair : Pair low high) (stack : ℕ)
  (ordered : (s.getValue low).toInt < (s.getValue high).toInt) (updatable : Updatable s.slider)

include pair ordered updatable

/-- A listener that finds its pair in order leaves it. -/
theorem low_settled : Ends (stateChanged (stack + 1) low) s s.slider := by
  rw [stateChanged, pair.listener_low, raiseUpper]
  refine Ends.of_get (Ends.andThen (Ends.of_if (fun le => ?_) (fun _ => rfl))
    (fun t sliders _ _ => updateSliders_ends sliders updatable) id)
  rw [Int32.le_iff_toInt_le] at le
  omega

theorem high_settled : Ends (stateChanged (stack + 1) high) s s.slider := by
  rw [stateChanged, pair.listener_high, reduceLower]
  refine Ends.of_get (Ends.andThen (Ends.of_if (fun le => ?_) (fun _ => rfl))
    (fun t sliders _ _ => updateSliders_ends sliders updatable) id)
  rw [Int32.le_iff_toInt_le] at le
  omega

end Settled

/-- The sliders of a pair, with the same range, at some values of it. -/
def placed (slider : SliderName → JSlider) (low high : SliderName) (top lower upper : Int32)
    : SliderName → JSlider :=
  Function.update (Function.update slider low ⟨0, top, lower⟩) high ⟨0, top, upper⟩

section Placed

variable {slider : SliderName → JSlider} {low high : SliderName} {top lower upper : Int32}

@[simp] theorem placed_high : placed slider low high top lower upper high = ⟨0, top, upper⟩ :=
  Function.update_self ..

theorem Pair.placed_low (pair : Pair low high)
    : placed slider low high top lower upper low = ⟨0, top, lower⟩ := by
  rw [placed, Function.update_of_ne pair.ne, Function.update_self]

theorem placed_update_high (value : Int32)
    : Function.update (placed slider low high top lower upper) high ⟨0, top, value⟩
      = placed slider low high top lower value := Function.update_idem ..

theorem Pair.placed_update_low (pair : Pair low high) (value : Int32)
    : Function.update (placed slider low high top lower upper) low ⟨0, top, value⟩
      = placed slider low high top value upper := by
  rw [placed, Function.update_comm pair.ne.symm, Function.update_idem]
  rfl

theorem Pair.updatable (pair : Pair low high) (updatable : Updatable slider)
    (atLower : 0 ≤ lower.toInt) (atUpper : 0 ≤ upper.toInt)
    : Updatable (placed slider low high top lower upper) where
  nonnegative name := by
    rw [placed]
    rcases eq_or_ne name high with rfl | notHigh
    · simpa using atUpper
    rcases eq_or_ne name low with rfl | notLow
    · simpa [notHigh] using atLower
    · simpa [notHigh, notLow] using updatable.nonnegative name
  width := by cases pair <;> exact updatable.width

/-- A slider is set to the value of its range that is nearest. -/
theorem setValue_eq {value n next : Int32}
    (nearest : next.toInt = min (max n.toInt 0) top.toInt)
    : JSlider.setValue ⟨0, top, value⟩ n = ⟨0, top, next⟩ := by
  have clamped : min (max n 0) top = next := by
    apply Int32.toInt.inj
    rw [toInt_min, toInt_max, nearest]
    rfl
  rw [JSlider.setValue, clamped]

/-- A slider gets another range, and the nearest value of it. -/
theorem setMaximum_eq {value n : Int32} (atLeast : 0 ≤ n.toInt)
    : JSlider.setMaximum ⟨0, top, value⟩ n = ⟨0, n, min n value⟩ := by
  have least : min n 0 = 0 := by
    apply Int32.toInt.inj
    rw [toInt_min, Int32.toInt_zero]
    omega
  rw [JSlider.setMaximum, least]

/-- One above the top of the range, the nearest value is the top. -/
theorem nearest_top (wide : 1 ≤ top.toInt) (bounded : top.toInt < 2 ^ 31 - 1)
    : top.toInt = min (max (top + 1).toInt 0) top.toInt := by
  have after : (top + 1).toInt = top.toInt + 1 :=
    Int32.toInt_add_exact (by simp; omega) (by simp; omega)
  omega

/-- One below the bottom of the range, the nearest value is the bottom. -/
theorem nearest_bottom (wide : 1 ≤ top.toInt)
    : (0 : Int32).toInt = min (max (0 - 1 : Int32).toInt 0) top.toInt := by
  have before : (0 - 1 : Int32).toInt = -1 := by decide
  rw [before, Int32.toInt_zero]
  omega

variable {fire : SliderName → Handling Unit} {s : SliderPanel} {last : SliderName → JSlider}

theorem setHigh_ends {n value : Int32} (stands : s.slider = placed slider low high top lower upper)
    (nearest : value.toInt = min (max n.toInt 0) top.toInt)
    (same : value = upper → placed slider low high top lower upper = last)
    (fires : value ≠ upper → ∀ t, t.slider = placed slider low high top lower value
      → Ends (fire high) t last)
    : Ends (setValue fire high n) s last := by
  have next : (s.slider high).setValue n = ⟨0, top, value⟩ := by
    rw [stands, placed_high, setValue_eq nearest]
  have at_high : s.slider high = ⟨0, top, upper⟩ := by rw [stands, placed_high]
  refine Ends.of_change (setValue_run next) (fun unchanged => ?_) (fun changed t sliders => ?_)
  · rw [at_high, JSlider.mk.injEq] at unchanged
    rw [stands, same unchanged.2.2]
  · refine fires (fun unchanged => changed ?_) t ?_
    · rw [at_high, unchanged]
    · rw [sliders, stands]
      exact placed_update_high value

theorem setLow_ends (pair : Pair low high) {n value : Int32}
    (stands : s.slider = placed slider low high top lower upper)
    (nearest : value.toInt = min (max n.toInt 0) top.toInt)
    (same : value = lower → placed slider low high top lower upper = last)
    (fires : value ≠ lower → ∀ t, t.slider = placed slider low high top value upper
      → Ends (fire low) t last)
    : Ends (setValue fire low n) s last := by
  have at_low : s.slider low = ⟨0, top, lower⟩ := by rw [stands, pair.placed_low]
  have next : (s.slider low).setValue n = ⟨0, top, value⟩ := by
    rw [at_low, setValue_eq nearest]
  refine Ends.of_change (setValue_run next) (fun unchanged => ?_) (fun changed t sliders => ?_)
  · rw [at_low, JSlider.mk.injEq] at unchanged
    rw [stands, same unchanged.2.2]
  · refine fires (fun unchanged => changed ?_) t ?_
    · rw [at_low, unchanged]
    · rw [sliders, stands]
      exact pair.placed_update_low value

/-- The listener of the lower slider, when the pair is not in order. -/
theorem raiseUpper_ends (pair : Pair low high)
    (stands : s.slider = placed slider low high top lower upper)
    (crossed : upper.toInt ≤ lower.toInt)
    (repairs : Ends (setValue fire high (lower + 1)) s last) (updatable : Updatable last)
    : Ends (raiseUpper fire low high) s last := by
  have at_low : s.getValue low = lower := by rw [SliderPanel.getValue, stands, pair.placed_low]
  have at_high : s.getValue high = upper := by rw [SliderPanel.getValue, stands, placed_high]
  rw [raiseUpper]
  refine Ends.of_get (Ends.andThen (Ends.of_if (fun _ => at_low ▸ repairs) (fun less => ?_))
    (fun t sliders _ _ => updateSliders_ends sliders updatable) id)
  rw [at_low, at_high, Int32.le_iff_toInt_le] at less
  omega

/-- The listener of the upper slider, when the pair is not in order. -/
theorem reduceLower_ends (pair : Pair low high)
    (stands : s.slider = placed slider low high top lower upper)
    (crossed : upper.toInt ≤ lower.toInt)
    (repairs : Ends (setValue fire low (upper - 1)) s last) (updatable : Updatable last)
    : Ends (reduceLower fire low high) s last := by
  have at_low : s.getValue low = lower := by rw [SliderPanel.getValue, stands, pair.placed_low]
  have at_high : s.getValue high = upper := by rw [SliderPanel.getValue, stands, placed_high]
  rw [reduceLower]
  refine Ends.of_get (Ends.andThen (Ends.of_if (fun _ => at_high ▸ repairs) (fun less => ?_))
    (fun t sliders _ _ => updateSliders_ends sliders updatable) id)
  rw [at_low, at_high, Int32.le_iff_toInt_le] at less
  omega

end Placed

section Repairs

variable {slider : SliderName → JSlider} {low high : SliderName} {top lower upper : Int32}
  {s : SliderPanel} (pair : Pair low high) (updatable : Updatable slider) (stack : ℕ)
  (stands : s.slider = placed slider low high top lower upper)

include pair updatable stands

theorem low_ordered (atLower : 0 ≤ lower.toInt) (ordered : lower.toInt < upper.toInt)
    : Ends (stateChanged (stack + 1) low) s (placed slider low high top lower upper) := by
  refine stands ▸ low_settled pair stack ?_ (stands ▸ pair.updatable updatable atLower (by omega))
  rw [SliderPanel.getValue, SliderPanel.getValue, stands, pair.placed_low, placed_high]
  exact ordered

theorem high_ordered (atLower : 0 ≤ lower.toInt) (ordered : lower.toInt < upper.toInt)
    : Ends (stateChanged (stack + 1) high) s (placed slider low high top lower upper) := by
  refine stands ▸ high_settled pair stack ?_ (stands ▸ pair.updatable updatable atLower (by omega))
  rw [SliderPanel.getValue, SliderPanel.getValue, stands, pair.placed_low, placed_high]
  exact ordered

/-- Below the top of the range, the upper slider is moved above the lower one. -/
theorem low_inside (atLower : 0 ≤ lower.toInt) (crossed : upper.toInt ≤ lower.toInt)
    (below : lower.toInt < top.toInt)
    : Ends (stateChanged (stack + 2) low) s
      (placed slider low high top lower (lower + 1)) := by
  have bound := top.toInt_lt
  have next : (lower + 1).toInt = lower.toInt + 1 :=
    Int32.toInt_add_exact (by simp; omega) (by simp; omega)
  have nearest : (lower + 1).toInt = min (max (lower + 1).toInt 0) top.toInt := by omega
  rw [stateChanged, pair.listener_low]
  refine raiseUpper_ends pair stands crossed
    (setHigh_ends stands nearest (fun same => by rw [same]) fun _ t sliders => ?_)
    (pair.updatable updatable atLower (by omega))
  exact high_ordered pair updatable stack sliders atLower (by omega)

/-- Above the bottom of the range, the lower slider is moved below the upper one. -/
theorem high_inside (above : 0 < upper.toInt) (crossed : upper.toInt ≤ lower.toInt)
    (inside : upper.toInt ≤ top.toInt)
    : Ends (stateChanged (stack + 2) high) s
      (placed slider low high top (upper - 1) upper) := by
  have bound := top.toInt_lt
  have next : (upper - 1).toInt = upper.toInt - 1 :=
    Int32.toInt_sub_exact (by simp; omega) (by simp; omega)
  have nearest : (upper - 1).toInt = min (max (upper - 1).toInt 0) top.toInt := by omega
  rw [stateChanged, pair.listener_high]
  refine reduceLower_ends pair stands crossed
    (setLow_ends pair stands nearest (fun same => by rw [same]) fun _ t sliders => ?_)
    (pair.updatable updatable (by omega) (by omega))
  exact low_ordered pair updatable stack sliders (by omega) (by omega)

/-- At the bottom of the range, the upper slider makes way again. -/
theorem high_bottom (atUpper : upper = 0) (above : 0 < lower.toInt) (wide : 1 ≤ top.toInt)
    : Ends (stateChanged (stack + 3) high) s (placed slider low high top 0 1) := by
  subst atUpper
  rw [stateChanged, pair.listener_high]
  refine reduceLower_ends pair stands (by rw [Int32.toInt_zero]; omega)
    (setLow_ends pair stands (nearest_bottom wide) (fun same => ?_) fun _ t sliders => ?_)
    (pair.updatable updatable (by decide) (by decide))
  · rw [← same, Int32.toInt_zero] at above
    omega
  · exact low_inside pair updatable stack sliders (by decide) le_rfl
      (by rw [Int32.toInt_zero]; omega)

/-- The upper slider stays where the lower one stands, at the bottom of the range. -/
theorem high_stuck (atUpper : upper = 0) (atLower : lower = 0) (wide : 1 ≤ top.toInt)
    : Ends (stateChanged (stack + 1) high) s (placed slider low high top 0 0) := by
  subst atUpper atLower
  rw [stateChanged, pair.listener_high]
  exact reduceLower_ends pair stands le_rfl
    (setLow_ends pair stands (nearest_bottom wide) (fun _ => rfl) fun changed => absurd rfl changed)
    (pair.updatable updatable (by decide) (by decide))

/-- At the top of the range, the lower slider makes way again. -/
theorem low_top (atLower : lower = top) (below : upper.toInt < top.toInt) (wide : 1 ≤ top.toInt)
    (bounded : top.toInt < 2 ^ 31 - 1)
    : Ends (stateChanged (stack + 3) low) s (placed slider low high top (top - 1) top) := by
  subst atLower
  have before : (lower - 1).toInt = lower.toInt - 1 :=
    Int32.toInt_sub_exact (by simp; omega) (by simp; omega)
  rw [stateChanged, pair.listener_low]
  refine raiseUpper_ends pair stands below.le
    (setHigh_ends stands (nearest_top wide bounded) (fun same => ?_) fun _ t sliders => ?_)
    (pair.updatable updatable (by omega) (by omega))
  · rw [← same] at below
    omega
  · exact high_inside pair updatable stack sliders (by omega) le_rfl le_rfl

/-- The lower slider stays where the upper one stands, at the top of the range. -/
theorem low_stuck (atLower : lower = top) (atUpper : upper = top) (wide : 1 ≤ top.toInt)
    (bounded : top.toInt < 2 ^ 31 - 1)
    : Ends (stateChanged (stack + 1) low) s (placed slider low high top top top) := by
  subst atLower atUpper
  rw [stateChanged, pair.listener_low]
  exact raiseUpper_ends pair stands le_rfl
    (setHigh_ends stands (nearest_top wide bounded) (fun _ => rfl) fun changed => absurd rfl changed)
    (pair.updatable updatable (by omega) (by omega))

/-- Above the largest integer the repair wraps, and both sliders go to the bottom. -/
theorem low_wrapped (atLower : lower = top) (above : 0 < upper.toInt)
    (inside : upper.toInt ≤ top.toInt) (largest : top.toInt = 2 ^ 31 - 1)
    : Ends (stateChanged (stack + 4) low) s (placed slider low high top 0 1) := by
  subst atLower
  have wrapped : (lower + 1).toInt = -2 ^ 31 := by
    have large : (2 : ℤ) ^ 31 ≤ lower.toInt + (1 : Int32).toInt := by
      rw [largest]
      decide
    rw [Int32.toInt_add_large large, largest]
    decide
  have nearest : (0 : Int32).toInt = min (max (lower + 1).toInt 0) lower.toInt := by
    rw [Int32.toInt_zero]
    omega
  rw [stateChanged, pair.listener_low]
  refine raiseUpper_ends pair stands inside
    (setHigh_ends stands nearest (fun same => ?_) fun _ t sliders => ?_)
    (pair.updatable updatable (by decide) (by decide))
  · rw [← same, Int32.toInt_zero] at above
    omega
  · exact high_bottom pair updatable stack sliders rfl (by omega) (by omega)

end Repairs

-----------------------------------------------------------------------------------------
-- Moves of a pair

/-- A pair in order, with the same range. -/
def Ordered (slider : SliderName → JSlider) (low high : SliderName) (top : Int32) : Prop :=
  ∃ lower upper, slider low = ⟨0, top, lower⟩ ∧ slider high = ⟨0, top, upper⟩
    ∧ 0 ≤ lower.toInt ∧ lower.toInt < upper.toInt ∧ upper.toInt ≤ top.toInt

/-- The lower slider is moved to the top of the range, where the upper one is. -/
def MeetsAtTop (s : SliderPanel) (high : SliderName) (n : Int32) : Prop :=
  (s.slider high).maximum ≤ n ∧ s.getValue high = (s.slider high).maximum
    ∧ (s.slider high).maximum ≠ 2 ^ 31 - 1

/-- The upper slider is moved to the bottom of the range, where the lower one is. -/
def MeetsAtBottom (s : SliderPanel) (low : SliderName) (n : Int32) : Prop :=
  n ≤ 0 ∧ s.getValue low = 0

section Moves

variable {low high : SliderName} {top : Int32} {s : SliderPanel} (pair : Pair low high)
  (updatable : Updatable s.slider) (stack : ℕ) (ordered : Ordered s.slider low high top)

theorem placed_self {slider : SliderName → JSlider} {lower upper : Int32}
    (at_low : slider low = ⟨0, top, lower⟩) (at_high : slider high = ⟨0, top, upper⟩)
    : slider = placed slider low high top lower upper := by
  rw [placed, ← at_low, Function.update_eq_self, ← at_high, Function.update_eq_self]

/-- The value of a range that is nearest to some number. -/
theorem exists_nearest (top n : Int32)
    : ∃ value : Int32, value.toInt = min (max n.toInt 0) top.toInt := by
  refine ⟨min (max n 0) top, ?_⟩
  rw [toInt_min, toInt_max, Int32.toInt_zero]

include pair updatable ordered

/-- A move of the lower slider leaves the pair in order, unless both meet at the top. -/
theorem moveLow_ends (n : Int32)
    : (¬ MeetsAtTop s high n → ∃ lower upper, 0 ≤ lower.toInt ∧ lower.toInt < upper.toInt
        ∧ upper.toInt ≤ top.toInt
        ∧ Ends (setValue (stateChanged (stack + 4)) low n) s
          (placed s.slider low high top lower upper))
      ∧ (MeetsAtTop s high n → Ends (setValue (stateChanged (stack + 4)) low n) s
        (placed s.slider low high top top top)) := by
  obtain ⟨lower, upper, at_low, at_high, atLower, less, atUpper⟩ := ordered
  have stands := placed_self at_low at_high
  obtain ⟨value, nearest⟩ := exists_nearest top n
  have largest := top.toInt_lt
  have meets : MeetsAtTop s high n
      ↔ top.toInt ≤ n.toInt ∧ upper.toInt = top.toInt ∧ top.toInt ≠ 2 ^ 31 - 1 := by
    rw [MeetsAtTop, SliderPanel.getValue, at_high, Int32.le_iff_toInt_le, ← Int32.toInt_inj, ne_eq,
      ← Int32.toInt_inj]
    rfl
  rw [meets]
  constructor
  · intro apart
    rcases lt_or_ge value.toInt upper.toInt with before | crossed
    · refine ⟨value, upper, by omega, before, atUpper, ?_⟩
      refine setLow_ends pair stands nearest (fun same => by rw [same]) fun _ t sliders => ?_
      exact low_ordered pair updatable _ sliders (by omega) before
    have moved : value ≠ lower := fun same => by
      rw [same] at crossed
      omega
    rcases lt_or_ge value.toInt top.toInt with below | atTop
    · have next : (value + 1).toInt = value.toInt + 1 :=
        Int32.toInt_add_exact (by simp; omega) (by simp; omega)
      refine ⟨value, value + 1, by omega, by omega, by omega, ?_⟩
      refine setLow_ends pair stands nearest (fun same => absurd same moved)
        fun _ t sliders => ?_
      exact low_inside pair updatable _ sliders (by omega) crossed below
    obtain rfl : value = top := Int32.toInt.inj (by omega)
    by_cases bounded : value.toInt = 2 ^ 31 - 1
    · refine ⟨0, 1, by decide, by decide, by simp; omega, ?_⟩
      refine setLow_ends pair stands nearest (fun same => absurd same moved)
        fun _ t sliders => ?_
      exact low_wrapped pair updatable _ sliders rfl (by omega) atUpper bounded
    · have before : (value - 1).toInt = value.toInt - 1 :=
        Int32.toInt_sub_exact (by simp; omega) (by simp; omega)
      refine ⟨value - 1, value, by omega, by omega, le_rfl, ?_⟩
      refine setLow_ends pair stands nearest (fun same => absurd same moved)
        fun _ t sliders => ?_
      exact low_top pair updatable _ sliders rfl (by omega) (by omega) (by omega)
  · rintro ⟨above, same, bounded⟩
    obtain rfl : value = top := Int32.toInt.inj (by omega)
    obtain rfl : upper = value := Int32.toInt.inj same
    refine setLow_ends pair stands nearest (fun same => ?_) fun _ t sliders => ?_
    · rw [same] at less
      omega
    · exact low_stuck pair updatable _ sliders rfl rfl (by omega) (by omega)

/-- A move of the upper slider leaves the pair in order, unless both meet at the bottom. -/
theorem moveHigh_ends (n : Int32)
    : (¬ MeetsAtBottom s low n → ∃ lower upper, 0 ≤ lower.toInt ∧ lower.toInt < upper.toInt
        ∧ upper.toInt ≤ top.toInt
        ∧ Ends (setValue (stateChanged (stack + 4)) high n) s
          (placed s.slider low high top lower upper))
      ∧ (MeetsAtBottom s low n → Ends (setValue (stateChanged (stack + 4)) high n) s
        (placed s.slider low high top 0 0)) := by
  obtain ⟨lower, upper, at_low, at_high, atLower, less, atUpper⟩ := ordered
  have stands := placed_self at_low at_high
  obtain ⟨value, nearest⟩ := exists_nearest top n
  have largest := top.toInt_lt
  have meets : MeetsAtBottom s low n ↔ n.toInt ≤ 0 ∧ lower.toInt = 0 := by
    rw [MeetsAtBottom, SliderPanel.getValue, at_low, Int32.le_iff_toInt_le, ← Int32.toInt_inj]
    rfl
  rw [meets]
  constructor
  · intro apart
    rcases lt_or_ge lower.toInt value.toInt with after | crossed
    · refine ⟨lower, value, atLower, after, by omega, ?_⟩
      refine setHigh_ends stands nearest (fun same => by rw [same]) fun _ t sliders => ?_
      exact high_ordered pair updatable _ sliders atLower after
    have moved : value ≠ upper := fun same => by
      rw [same] at crossed
      omega
    rcases lt_or_ge 0 value.toInt with above | atBottom
    · have before : (value - 1).toInt = value.toInt - 1 :=
        Int32.toInt_sub_exact (by simp; omega) (by simp; omega)
      refine ⟨value - 1, value, by omega, by omega, by omega, ?_⟩
      refine setHigh_ends stands nearest (fun same => absurd same moved) fun _ t sliders => ?_
      exact high_inside pair updatable _ sliders above crossed (by omega)
    · obtain rfl : value = 0 := Int32.toInt.inj (by rw [Int32.toInt_zero]; omega)
      refine ⟨0, 1, by decide, by decide, by simp; omega, ?_⟩
      refine setHigh_ends stands nearest (fun same => absurd same moved) fun _ t sliders => ?_
      exact high_bottom pair updatable _ sliders rfl (by omega) (by omega)
  · rintro ⟨below, same⟩
    obtain rfl : value = 0 := Int32.toInt.inj (by rw [Int32.toInt_zero]; omega)
    obtain rfl : lower = 0 := Int32.toInt.inj same
    refine setHigh_ends stands nearest (fun same => ?_) fun _ t sliders => ?_
    · rw [← same] at less
      omega
    · exact high_stuck pair updatable _ sliders rfl rfl (by omega)

end Moves

-----------------------------------------------------------------------------------------
-- The region

/-- The width slider ends where the region would leave the picture. -/
def Region (slider : SliderName → JSlider) (resX : Int32) : Prop :=
  ∃ center widest width, slider .xCenter = ⟨0, resX, center⟩ ∧ slider .xWidth = ⟨0, widest, width⟩
    ∧ 0 ≤ center.toInt ∧ center.toInt ≤ resX.toInt ∧ 0 ≤ width.toInt
    ∧ width.toInt ≤ widest.toInt ∧ widest.toInt ≤ 2 * center.toInt

/-- What is kept when the region changes. -/
def SameOutside (slider last : SliderName → JSlider) : Prop :=
  ∀ name, name ≠ .xCenter → name ≠ .xWidth → last name = slider name

section Region

variable {s : SliderPanel} {center widest width : Int32} (stack : ℕ)
  (nonnegative : ∀ name, 0 ≤ (s.slider name).value.toInt)
  (at_center : s.slider .xCenter = ⟨0, s.resX, center⟩) (inside : center.toInt ≤ s.resX.toInt)
  (at_width : s.slider .xWidth = ⟨0, widest, width⟩)

include nonnegative at_center inside in
theorem toInt_widest
    : s.widest.toInt = min center.toInt (s.resX.toInt - center.toInt) * 2 := by
  have left := nonnegative .xCenter
  have bound := s.resX.toInt_lt
  rw [at_center] at left
  have at_value : s.getValue .xCenter = center := by rw [SliderPanel.getValue, at_center]
  have right : (s.resX - center).toInt = s.resX.toInt - center.toInt :=
    Int32.toInt_sub_exact (by simp at left; omega) (by simp at left; omega)
  have two : (2 : Int32).toInt = 2 := rfl
  rw [SliderPanel.widest, at_value, Int32.toInt_mul, toInt_min, right, two]
  simp only at left
  exact Int.bmod_eq_of_le (by omega) (by omega)

include nonnegative at_center inside at_width

/-- The width is fitted to the center. -/
theorem fitWidth_ends
    : ∃ last, Ends (fitWidth (stateChanged (stack + 1))) s last ∧ Updatable last
      ∧ Region last s.resX ∧ SameOutside s.slider last ∧ last .xCenter = s.slider .xCenter := by
  have widest_eq := toInt_widest nonnegative at_center inside
  have left := nonnegative .xCenter
  have some := nonnegative .xWidth
  rw [at_center] at left
  rw [at_width] at some
  simp only at left some
  have next : (s.slider .xWidth).setMaximum s.widest = ⟨0, s.widest, min s.widest width⟩ := by
    rw [at_width, setMaximum_eq (by omega)]
  have fitted := toInt_min s.widest width
  have updatable : Updatable (Function.update s.slider .xWidth ⟨0, s.widest, min s.widest width⟩) := by
    refine ⟨nonnegative_update nonnegative (by simp only; omega), ?_⟩
    rw [Function.update_self, Function.update_of_ne (by decide), at_center]
    simp only
    omega
  refine ⟨Function.update s.slider .xWidth ⟨0, s.widest, min s.widest width⟩, ?_, updatable, ?_, ?_,
    ?_⟩
  · rw [fitWidth]
    refine Ends.of_get (Ends.of_change (setMaximum_run next) (fun unchanged => ?_)
      (fun _ t sliders => ?_))
    · rw [unchanged, Function.update_eq_self]
    · rw [stateChanged]
      exact updateSliders_ends sliders updatable
  · refine ⟨center, s.widest, min s.widest width, ?_, Function.update_self .., left, inside, ?_, ?_,
      ?_⟩
    · rw [Function.update_of_ne (by decide), at_center]
    · omega
    · omega
    · omega
  · intro name notCenter notWidth
    exact Function.update_of_ne notWidth ..
  · exact Function.update_of_ne (by decide) ..

theorem center_ends
    : ∃ last, Ends (stateChanged (stack + 2) .xCenter) s last ∧ Updatable last
      ∧ Region last s.resX ∧ SameOutside s.slider last ∧ last .xCenter = s.slider .xCenter := by
  obtain ⟨last, ends, updatable, region, outside, kept⟩ :=
    fitWidth_ends stack nonnegative at_center inside at_width
  refine ⟨last, ?_, updatable, region, outside, kept⟩
  rw [stateChanged]
  exact Ends.andThen ends (fun t sliders _ _ => updateSliders_ends sliders updatable) id

end Region

section Resolution

variable {s : SliderPanel} {top lower upper rows : Int32} (stack : ℕ)

/-- The range of the upper slider of the rows follows that of the lower one. -/
theorem rowsTop_ends (updatable : Updatable s.slider) (at_low : s.slider .yStart = ⟨0, rows, lower⟩)
    (at_high : s.slider .yEnd = ⟨0, top, upper⟩) (atLower : 0 ≤ lower.toInt)
    (inside : lower.toInt ≤ rows.toInt) (ordered : lower.toInt < upper.toInt)
    (several : 2 ≤ rows.toInt)
    : ∃ lower' upper', 0 ≤ lower'.toInt ∧ lower'.toInt < upper'.toInt
      ∧ upper'.toInt ≤ rows.toInt
      ∧ Ends (setMaximum (stateChanged (stack + 2)) .yEnd rows) s
        (placed s.slider .yStart .yEnd rows lower' upper') := by
  have next : (s.slider .yEnd).setMaximum rows = ⟨0, rows, min rows upper⟩ := by
    rw [at_high, setMaximum_eq (by omega)]
  have value := toInt_min rows upper
  have largest := rows.toInt_lt
  have stands (t : SliderPanel)
      (sliders : t.slider = Function.update s.slider .yEnd ⟨0, rows, min rows upper⟩)
      : t.slider = placed s.slider .yStart .yEnd rows lower (min rows upper) := by
    rw [sliders, placed, ← at_low, Function.update_eq_self]
  rcases lt_or_ge lower.toInt (min rows upper).toInt with less | crossed
  · refine ⟨lower, min rows upper, atLower, less, by omega, ?_⟩
    refine Ends.of_change (setMaximum_run next) (fun unchanged => ?_) fun _ t sliders => ?_
    · exact placed_self at_low unchanged.symm
    · exact high_ordered .rows updatable _ (stands t sliders) atLower less
  · have before : (min rows upper - 1).toInt = (min rows upper).toInt - 1 :=
      Int32.toInt_sub_exact (by simp; omega) (by simp; omega)
    refine ⟨min rows upper - 1, min rows upper, by omega, by omega, by omega, ?_⟩
    refine Ends.of_change (setMaximum_run next) (fun unchanged => ?_) fun _ t sliders => ?_
    · rw [at_high, JSlider.mk.injEq] at unchanged
      rw [unchanged.2.2] at crossed
      omega
    · exact high_inside .rows updatable _ (stands t sliders) (by omega) crossed (by omega)

/-- The range of the lower slider of the rows changes first. -/
theorem rowsStart_ends (updatable : Updatable s.slider)
    (ordered : Ordered s.slider .yStart .yEnd top) (several : 2 ≤ rows.toInt)
    : ∃ lower upper, 0 ≤ lower.toInt ∧ lower.toInt ≤ rows.toInt ∧ lower.toInt < upper.toInt
      ∧ s.slider .yEnd = ⟨0, top, upper⟩
      ∧ Updatable (Function.update s.slider .yStart ⟨0, rows, lower⟩)
      ∧ Ends (setMaximum (stateChanged (stack + 1)) .yStart rows) s
        (Function.update s.slider .yStart ⟨0, rows, lower⟩) := by
  obtain ⟨lower, upper, at_low, at_high, atLower, less, -⟩ := ordered
  have next : (s.slider .yStart).setMaximum rows = ⟨0, rows, min rows lower⟩ := by
    rw [at_low, setMaximum_eq (by omega)]
  have value := toInt_min rows lower
  have updated : Updatable (Function.update s.slider .yStart ⟨0, rows, min rows lower⟩) := by
    exact ⟨nonnegative_update updatable.nonnegative (by simp only; omega), updatable.width⟩
  refine ⟨min rows lower, upper, by omega, by omega, by omega, at_high, updated, ?_⟩
  refine Ends.of_change (setMaximum_run next) (fun unchanged => ?_) fun _ t sliders => ?_
  · rw [unchanged, Function.update_eq_self]
  · refine sliders ▸ low_settled .rows stack ?_ (sliders ▸ updated)
    rw [SliderPanel.getValue, SliderPanel.getValue, sliders, Function.update_self,
      Function.update_of_ne (by decide), at_high]
    simp only
    omega

/-- The range of the center changes after that of the rows. -/
theorem centerTop_ends {resX center widest width : Int32}
    (nonnegative : ∀ name, 0 ≤ (s.slider name).value.toInt)
    (at_center : s.slider .xCenter = ⟨0, resX, center⟩)
    (at_width : s.slider .xWidth = ⟨0, widest, width⟩) (several : 0 ≤ s.resX.toInt)
    : ∃ last, Ends (setMaximum (stateChanged (stack + 2)) .xCenter s.resX) s last
      ∧ (∀ name, 0 ≤ (last name).value.toInt)
      ∧ (∃ center, last .xCenter = ⟨0, s.resX, center⟩ ∧ center.toInt ≤ s.resX.toInt)
      ∧ (∃ widest width, last .xWidth = ⟨0, widest, width⟩)
      ∧ SameOutside s.slider last := by
  have next : (s.slider .xCenter).setMaximum s.resX = ⟨0, s.resX, min s.resX center⟩ := by
    rw [at_center, setMaximum_eq several]
  have value := toInt_min s.resX center
  have left := nonnegative .xCenter
  rw [at_center] at left
  simp only at left
  refine Ends.exists_change (setMaximum_run next) (fun unchanged => ?_) fun _ t sliders resX => ?_
  · exact ⟨nonnegative, ⟨_, unchanged.symm, by omega⟩, ⟨_, _, at_width⟩, fun _ _ _ => rfl⟩
  · have moved : ∀ name, 0 ≤ (t.slider name).value.toInt :=
      sliders ▸ nonnegative_update nonnegative (by simp only; omega)
    obtain ⟨last, ends, updatable, region, outside, kept⟩ := center_ends stack moved
      (by rw [sliders, resX, Function.update_self]) (by rw [resX]; omega)
      (by rw [sliders, Function.update_of_ne (by decide), at_width])
    rw [sliders, Function.update_self] at kept
    obtain ⟨_, widest, width, -, fitted, -⟩ := region
    refine ⟨last, ends, updatable.nonnegative, ⟨_, kept, by omega⟩, ⟨_, _, fitted⟩, ?_⟩
    intro name notCenter notWidth
    rw [outside name notCenter notWidth, sliders, Function.update_of_ne notCenter]

end Resolution

end Granum.Spectrometer.Client
