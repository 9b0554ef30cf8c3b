import Granum.Spectrometer.Contrast
import Granum.Spectrometer.SliderCoupling

/-! Runs of the slider panel, under moves of its sliders and frames of any resolution. -/

namespace Granum.Spectrometer.Client

/-- Both pairs are in order, and every contrast that was passed on can be used on any frame. -/
structure SliderPanel.Coupled (s : SliderPanel) : Prop where
  rows : s.getValue .yStart < s.getValue .yEnd
  contrast : s.getValue .minResizeVal < s.getValue .maxResizeVal
  resamples : ∀ params ∈ s.passed, ∀ (p : FrameMessageProcessor) (input : List UInt8),
    ∃ output, (p.setResampleParams params.1 params.2).resampleYUYV input = .ok output

/-- No move lets the sliders of a pair meet at an end of their range. -/
def KeepsApart (s : SliderPanel) : PanelEvent → Prop
  | .move .yStart n => ¬ MeetsAtTop s .yEnd n
  | .move .yEnd n => ¬ MeetsAtBottom s .yStart n
  | .move .minResizeVal n => ¬ MeetsAtTop s .maxResizeVal n
  | .move .maxResizeVal n => ¬ MeetsAtBottom s .minResizeVal n
  | .move .xCenter _ | .move .xWidth _ | .setResolution _ => True

/-- The ranges of the sliders, and their values in them. -/
structure InOrder (s : SliderPanel) : Prop where
  rows : Ordered s.slider .yStart .yEnd s.resY
  contrast : Ordered s.slider .minResizeVal .maxResizeVal 255
  region : Region s.slider s.resX
  divisible : s.Divisible

section InOrder

variable {s t : SliderPanel} {slider : SliderName → JSlider} {low high : SliderName} {top : Int32}

theorem Ordered.less (ordered : Ordered slider low high top)
    : (slider low).value.toInt < (slider high).value.toInt := by
  obtain ⟨lower, upper, at_low, at_high, -, less, -⟩ := ordered
  rw [at_low, at_high]
  exact less

theorem Ordered.congr {last : SliderName → JSlider} (ordered : Ordered slider low high top)
    (at_low : last low = slider low) (at_high : last high = slider high)
    : Ordered last low high top := by
  obtain ⟨lower, upper, low_eq, high_eq, rest⟩ := ordered
  exact ⟨lower, upper, at_low.trans low_eq, at_high.trans high_eq, rest⟩

theorem Pair.ordered_placed (pair : Pair low high) {lower upper : Int32} (atLower : 0 ≤ lower.toInt)
    (less : lower.toInt < upper.toInt) (atUpper : upper.toInt ≤ top.toInt)
    : Ordered (placed slider low high top lower upper) low high top :=
  ⟨lower, upper, pair.placed_low, placed_high, atLower, less, atUpper⟩

theorem InOrder.updatable (inOrder : InOrder s) : Updatable s.slider := by
  obtain ⟨⟨_, _, yStart, yEnd, atStart, rows, -⟩, ⟨_, _, least, most, atLeast, contrast, -⟩,
    ⟨_, _, _, center, width, atCenter, -, atWidth, fits, widest⟩, -⟩ := inOrder
  refine ⟨fun name => ?_, ?_⟩
  · cases name with
    | yStart => exact yStart ▸ atStart
    | yEnd => exact yEnd ▸ (atStart.trans rows.le)
    | xCenter => exact center ▸ atCenter
    | xWidth => exact width ▸ atWidth
    | minResizeVal => exact least ▸ atLeast
    | maxResizeVal => exact most ▸ (atLeast.trans contrast.le)
  · rw [center, width]
    exact fits.trans widest

theorem InOrder.coupled (inOrder : InOrder s) : s.Coupled where
  rows := Int32.lt_iff_toInt_lt.mpr inOrder.rows.less
  contrast := Int32.lt_iff_toInt_lt.mpr inOrder.contrast.less
  resamples params mem p input := by
    obtain ⟨output, ran, -⟩ := resampleYUYV_filled (p := p.setResampleParams params.1 params.2)
      (inOrder.divisible params mem) input
    exact ⟨output, ran⟩

/-- An ordered contrast has a positive upper bound. -/
theorem Ordered.upper_ne_zero (ordered : Ordered slider low high top) : (slider high).value ≠ 0 := by
  obtain ⟨lower, upper, -, at_high, atLower, less, -⟩ := ordered
  rw [at_high]
  rintro rfl
  rw [Int32.toInt_zero] at less
  omega

/-- Code that leaves the sliders in order leaves the panel in order. -/
theorem inOrder_of_ends {x : Handling Unit} (before : s.Divisible) (ends : Ends x s slider)
    (rows : Ordered slider .yStart .yEnd s.resY)
    (contrast : Ordered slider .minResizeVal .maxResizeVal 255) (region : Region slider s.resX)
    : ∃ t, x s = (.ok (), t) ∧ InOrder t := by
  obtain ⟨t, ran, rfl, resX, resY, divisible⟩ := ends
  exact ⟨t, ran, resY ▸ rows, contrast, resX ▸ region,
    divisible contrast.upper_ne_zero before⟩

/-- Code that leaves a pair at one value leaves the panel uncoupled. -/
theorem Pair.uncoupled (pair : Pair low high) {x : Handling Unit} {value : Int32}
    (ends : Ends x s (placed slider low high top value value))
    : ∃ t, x s = (.ok (), t) ∧ ¬ t.Coupled := by
  obtain ⟨t, ran, sliders, -⟩ := ends
  refine ⟨t, ran, fun coupled => ?_⟩
  have at_low : t.getValue low = value := by rw [SliderPanel.getValue, sliders, pair.placed_low]
  have at_high : t.getValue high = value := by rw [SliderPanel.getValue, sliders, placed_high]
  cases pair with
  | rows =>
      have less := Int32.lt_iff_toInt_lt.mp coupled.rows
      rw [at_low, at_high] at less
      exact lt_irrefl _ less
  | contrast =>
      have less := Int32.lt_iff_toInt_lt.mp coupled.contrast
      rw [at_low, at_high] at less
      exact lt_irrefl _ less

end InOrder

-----------------------------------------------------------------------------------------
-- Events

section Events

variable {s : SliderPanel} (inOrder : InOrder s) (stack : ℕ)

include inOrder

theorem placedRows_inOrder {x : Handling Unit} {lower upper : Int32} (atLower : 0 ≤ lower.toInt)
    (less : lower.toInt < upper.toInt) (atUpper : upper.toInt ≤ s.resY.toInt)
    (ends : Ends x s (placed s.slider .yStart .yEnd s.resY lower upper))
    : ∃ t, x s = (.ok (), t) ∧ InOrder t :=
  inOrder_of_ends inOrder.divisible ends (Pair.rows.ordered_placed atLower less atUpper)
    (inOrder.contrast.congr rfl rfl) inOrder.region

theorem placedContrast_inOrder {x : Handling Unit} {lower upper : Int32}
    (atLower : 0 ≤ lower.toInt) (less : lower.toInt < upper.toInt)
    (atUpper : upper.toInt ≤ (255 : Int32).toInt)
    (ends : Ends x s (placed s.slider .minResizeVal .maxResizeVal 255 lower upper))
    : ∃ t, x s = (.ok (), t) ∧ InOrder t :=
  inOrder_of_ends inOrder.divisible ends (inOrder.rows.congr rfl rfl)
    (Pair.contrast.ordered_placed atLower less atUpper) inOrder.region

/-- A move of the center fits the width. -/
theorem moveCenter_inOrder (n : Int32)
    : ∃ t, setValue (stateChanged (stack + 4)) .xCenter n s = (.ok (), t) ∧ InOrder t := by
  obtain ⟨center, widest, width, at_center, at_width, atLeft, inside, narrow, fits, within⟩ :=
    inOrder.region
  obtain ⟨value, nearest⟩ := exists_nearest s.resX n
  have next : (s.slider .xCenter).setValue n = ⟨0, s.resX, value⟩ := by
    rw [at_center, setValue_eq nearest]
  obtain ⟨last, ends, outside, region⟩ : ∃ last,
      Ends (setValue (stateChanged (stack + 4)) .xCenter n) s last
        ∧ SameOutside s.slider last ∧ Region last s.resX := by
    refine Ends.exists_change (setValue_run next) (fun _ => ⟨fun _ _ _ => rfl, inOrder.region⟩)
      fun _ t sliders resX => ?_
    have moved : ∀ name, 0 ≤ (t.slider name).value.toInt :=
      sliders ▸ nonnegative_update inOrder.updatable.nonnegative (by simp only; omega)
    obtain ⟨last, ends, -, region, outside, -⟩ := center_ends (stack + 2) moved
      (by rw [sliders, resX, Function.update_self]) (by rw [resX]; omega)
      (by rw [sliders, Function.update_of_ne (by decide), at_width])
    refine ⟨last, ends, fun name notCenter notWidth => ?_, resX ▸ region⟩
    rw [outside name notCenter notWidth, sliders, Function.update_of_ne notCenter]
  exact inOrder_of_ends inOrder.divisible ends
    (inOrder.rows.congr (outside _ (by decide) (by decide)) (outside _ (by decide) (by decide)))
    (inOrder.contrast.congr (outside _ (by decide) (by decide)) (outside _ (by decide) (by decide)))
    region

theorem moveWidth_inOrder (n : Int32)
    : ∃ t, setValue (stateChanged (stack + 4)) .xWidth n s = (.ok (), t) ∧ InOrder t := by
  obtain ⟨center, widest, width, at_center, at_width, atLeft, inside, narrow, fits, within⟩ :=
    inOrder.region
  obtain ⟨value, nearest⟩ := exists_nearest widest n
  have next : (s.slider .xWidth).setValue n = ⟨0, widest, value⟩ := by
    rw [at_width, setValue_eq nearest]
  have region : Region (Function.update s.slider .xWidth ⟨0, widest, value⟩) s.resX :=
    ⟨center, widest, value, at_center, Function.update_self .., atLeft, inside, by omega, by omega,
      within⟩
  have updatable : Updatable (Function.update s.slider .xWidth ⟨0, widest, value⟩) := by
    refine ⟨nonnegative_update inOrder.updatable.nonnegative (by simp only; omega), ?_⟩
    rw [Function.update_self, Function.update_of_ne (by decide), at_center]
    simp only
    omega
  have ends : Ends (setValue (stateChanged (stack + 4)) .xWidth n) s
      (Function.update s.slider .xWidth ⟨0, widest, value⟩) := by
    refine Ends.of_change (setValue_run next) (fun unchanged => ?_) fun _ t sliders => ?_
    · rw [unchanged, Function.update_eq_self]
    · rw [stateChanged]
      exact updateSliders_ends sliders updatable
  exact inOrder_of_ends inOrder.divisible ends (inOrder.rows.congr rfl rfl)
    (inOrder.contrast.congr rfl rfl) region

omit inOrder in
/-- The center, then the width, when the number of columns has changed. -/
theorem columns_ends {u : SliderPanel} {resX center widest width : Int32}
    (nonnegative : ∀ name, 0 ≤ (u.slider name).value.toInt)
    (at_center : u.slider .xCenter = ⟨0, resX, center⟩)
    (at_width : u.slider .xWidth = ⟨0, widest, width⟩) (columns : 0 ≤ u.resX.toInt)
    (nonzero : (u.slider .maxResizeVal).value ≠ 0)
    : ∃ last, Ends (do
        setMaximum (stateChanged (stack + 4)) .xCenter u.resX
        fitWidth (stateChanged (stack + 4))) u last
      ∧ Region last u.resX ∧ SameOutside u.slider last := by
  obtain ⟨mid, first, positive, ⟨moved, at_moved, atRight⟩, ⟨_, _, fitted⟩, outside⟩ :=
    centerTop_ends (stack + 2) nonnegative at_center at_width columns
  have kept : mid .maxResizeVal = u.slider .maxResizeVal := outside _ (by decide) (by decide)
  refine Ends.exists_andThen first (kept ▸ nonzero) fun v final vX _ => ?_
  obtain ⟨last, second, -, region, outsideRegion, -⟩ := fitWidth_ends (s := v) (stack + 3)
    (final ▸ positive) (by rw [final, at_moved, vX]) (by rw [vX]; exact atRight)
    (by rw [final, fitted])
  refine ⟨last, second, vX ▸ region, fun name notCenter notWidth => ?_⟩
  rw [outsideRegion name notCenter notWidth, final, outside name notCenter notWidth]

theorem setResolution_inOrder (resolution : Resolution)
    : ∃ t, setResolution (stack + 4) resolution.resX resolution.resY s = (.ok (), t)
      ∧ InOrder t := by
  obtain ⟨resX, resY, columns, rows⟩ := resolution
  obtain ⟨center, widest, width, at_center, at_width, -⟩ := inOrder.region
  have nonzero := inOrder.contrast.upper_ne_zero
  set start : SliderPanel := { s with resX, resY }
  have updatable : Updatable start.slider := inOrder.updatable
  obtain ⟨lower, upper, atLower, inside, less, at_high, updated, first⟩ :=
    rowsStart_ends (s := start) (stack + 3) updatable inOrder.rows rows
  obtain ⟨last, ends, ordered, region, contrast⟩ : ∃ last, Ends (do
        setMaximum (stateChanged (stack + 4)) .yStart resY
        setMaximum (stateChanged (stack + 4)) .yEnd resY
        setMaximum (stateChanged (stack + 4)) .xCenter resX
        fitWidth (stateChanged (stack + 4))) start last
      ∧ Ordered last .yStart .yEnd resY ∧ Region last resX
      ∧ Ordered last .minResizeVal .maxResizeVal 255 := by
    refine Ends.exists_andThen first nonzero fun t sliders tX _ => ?_
    obtain ⟨lower', upper', above, apart, below, second⟩ := rowsTop_ends (s := t) (stack + 2)
      (sliders ▸ updated) (by rw [sliders, Function.update_self])
      (by rw [sliders, Function.update_of_ne (by decide), at_high]) atLower inside less rows
    refine Ends.exists_andThen second (sliders ▸ nonzero) fun u placements uX _ => ?_
    have others : ∀ name, name ≠ .yStart → name ≠ .yEnd → u.slider name = s.slider name := by
      intro name notStart notEnd
      rw [placements, placed, Function.update_of_ne notEnd, Function.update_of_ne notStart, sliders,
        Function.update_of_ne notStart]
    have placed_updatable : Updatable u.slider :=
      placements ▸ Pair.rows.updatable (sliders ▸ updated) above (by omega)
    have stands : u.resX = resX := uX.trans tX
    obtain ⟨last, third, region, outside⟩ := columns_ends stack placed_updatable.nonnegative
      ((others .xCenter (by decide) (by decide)).trans at_center)
      ((others .xWidth (by decide) (by decide)).trans at_width) (by rw [stands]; omega)
      ((others .maxResizeVal (by decide) (by decide)).symm ▸ nonzero)
    rw [stands] at third region
    have rowsOrdered : Ordered u.slider .yStart .yEnd resY :=
      placements ▸ Pair.rows.ordered_placed above apart below
    refine ⟨last, third, rowsOrdered.congr (outside _ (by decide) (by decide))
      (outside _ (by decide) (by decide)), region, inOrder.contrast.congr ?_ ?_⟩
    · rw [outside _ (by decide) (by decide), others _ (by decide) (by decide)]
    · rw [outside _ (by decide) (by decide), others _ (by decide) (by decide)]
  exact inOrder_of_ends (s := start) inOrder.divisible ends ordered contrast region

/-- An event that keeps the sliders apart leaves the panel in order. -/
theorem handle_inOrder (event : PanelEvent) (apart : KeepsApart s event)
    : ∃ t, handle (stack + 4) event s = (.ok (), t) ∧ InOrder t := by
  have updatable := inOrder.updatable
  match event with
  | .move .yStart n =>
      obtain ⟨lower, upper, atLower, less, atUpper, ends⟩ :=
        (moveLow_ends .rows updatable stack inOrder.rows n).1 apart
      exact placedRows_inOrder inOrder atLower less atUpper ends
  | .move .yEnd n =>
      obtain ⟨lower, upper, atLower, less, atUpper, ends⟩ :=
        (moveHigh_ends .rows updatable stack inOrder.rows n).1 apart
      exact placedRows_inOrder inOrder atLower less atUpper ends
  | .move .xCenter n => exact moveCenter_inOrder inOrder stack n
  | .move .xWidth n => exact moveWidth_inOrder inOrder stack n
  | .move .minResizeVal n =>
      obtain ⟨lower, upper, atLower, less, atUpper, ends⟩ :=
        (moveLow_ends .contrast updatable stack inOrder.contrast n).1 apart
      exact placedContrast_inOrder inOrder atLower less atUpper ends
  | .move .maxResizeVal n =>
      obtain ⟨lower, upper, atLower, less, atUpper, ends⟩ :=
        (moveHigh_ends .contrast updatable stack inOrder.contrast n).1 apart
      exact placedContrast_inOrder inOrder atLower less atUpper ends
  | .setResolution resolution => exact setResolution_inOrder inOrder stack resolution

/-- Any other event leaves a pair at one value. -/
theorem handle_uncoupled (event : PanelEvent) (meets : ¬ KeepsApart s event)
    : ∃ t, handle (stack + 4) event s = (.ok (), t) ∧ ¬ t.Coupled := by
  have updatable := inOrder.updatable
  match event with
  | .move .yStart n =>
      exact Pair.rows.uncoupled
        ((moveLow_ends .rows updatable stack inOrder.rows n).2 (not_not.mp meets))
  | .move .yEnd n =>
      exact Pair.rows.uncoupled
        ((moveHigh_ends .rows updatable stack inOrder.rows n).2 (not_not.mp meets))
  | .move .minResizeVal n =>
      exact Pair.contrast.uncoupled
        ((moveLow_ends .contrast updatable stack inOrder.contrast n).2 (not_not.mp meets))
  | .move .maxResizeVal n =>
      exact Pair.contrast.uncoupled
        ((moveHigh_ends .contrast updatable stack inOrder.contrast n).2 (not_not.mp meets))
  | .move .xCenter _ | .move .xWidth _ | .setResolution _ => exact absurd trivial meets

end Events

theorem initial_updatable : Updatable initialSlider where
  nonnegative name := by cases name <;> decide
  width := by decide

theorem initial_rows : Ordered initialSlider .yStart .yEnd 640 := ⟨0, 640, by decide⟩

theorem initial_contrast : Ordered initialSlider .minResizeVal .maxResizeVal 255 :=
  ⟨0, 255, by decide⟩

theorem initial_region : Region initialSlider 480 := ⟨240, 240, 240, by decide⟩

theorem new_inOrder (p : FrameMessageProcessor) : InOrder (.new p) := by
  have ends : Ends updateSliders (.fresh p) initialSlider :=
    updateSliders_ends rfl initial_updatable
  have nothing : (SliderPanel.fresh p).Divisible := List.forall_mem_nil _
  obtain ⟨t, ran, inOrder⟩ := inOrder_of_ends nothing ends initial_rows initial_contrast
    initial_region
  rw [SliderPanel.new, ran]
  exact inOrder

/-- In every state of a run the pairs are in order, and what was passed on can be used, exactly if no
move lets the sliders of a pair meet at an end of their range; a stack of four listeners is deep
enough.
-/
theorem coupled_iff (p : FrameMessageProcessor) (stack : ℕ) (events : List PanelEvent)
    : (∀ seen, seen <+: events → ((panel (stack + 4)).finish (.new p) seen).Coupled
        ∧ (panel (stack + 4)).outputs (.new p) seen = [])
      ↔ (panel (stack + 4)).Meets KeepsApart (.new p) events := by
  have good : ∀ s, InOrder s → s.Coupled := fun _ inOrder => inOrder.coupled
  refine (panel (stack + 4)).always_iff good ?_ ?_ (new_inOrder p) events
  · intro s event inOrder apart
    obtain ⟨t, ran, next⟩ := handle_inOrder inOrder stack event apart
    simp only [panel, ran]
    exact ⟨next, trivial⟩
  · intro s event inOrder meets
    obtain ⟨t, ran, next⟩ := handle_uncoupled inOrder stack event meets
    simp only [panel, ran]
    exact next

/-- The upper bound of the contrast is moved to the bottom. -/
theorem bounds_meet
    : ¬ ∀ (p : FrameMessageProcessor) (stack : ℕ) (events : List PanelEvent),
      ∀ seen, seen <+: events → ((panel (stack + 4)).finish (.new p) seen).Coupled
        ∧ (panel (stack + 4)).outputs (.new p) seen = [] := by
  intro coupled
  obtain ⟨t, ran, next⟩ := handle_uncoupled (new_inOrder {}) 0 (.move .maxResizeVal 0)
    (not_not.mpr ⟨by decide, by decide⟩)
  have state := (coupled {} 0 [.move .maxResizeVal 0] _ (List.prefix_refl _)).1
  have finish : (panel 4).finish (.new {}) [.move .maxResizeVal 0] = t := by
    rw [Mealy.finish_cons, Mealy.finish_nil]
    simp only [panel, ran]
  exact next (finish ▸ state)

end Granum.Spectrometer.Client
