import Granum.Spectrometer.FrameMessageProcessor

/-! The scan region against the frame. The parameters are checked without the size of the frame, and
the columns are computed from them a second time, with a special case for one column.
-/

namespace Granum.Spectrometer.Client

open LoggedRun FrameMessageProcessor

/-- A frame with two bytes for each of its pixels, in a Java array. -/
structure WholeFrame extends FrameMessage where
  whole : (pixData.length : ℤ) = 2 * (width.toInt * height.toInt)
  array : pixData.length < 2 ^ 31

/-- The luma of a pixel in the row it is read for. -/
def FrameMessage.OwnLuma (message : FrameMessage) (read : PixelRead) : Prop :=
  0 ≤ read.row.toInt ∧ read.row.toInt < message.height.toInt
    ∧ ∃ column : ℤ, 0 ≤ column ∧ column < message.width.toInt
      ∧ read.index.toInt = 2 * (message.width.toInt * read.row.toInt + column)

/-- The plot is made without reading outside the array, and only of each row's own pixels. -/
def FrameMessageProcessor.ReadsOwnRows (p : FrameMessageProcessor) (message : FrameMessage) : Prop :=
  ∃ items reads, p.calculatePlotData message [] = (.ok items, reads)
    ∧ ∀ read ∈ reads, message.OwnLuma read

/-- The right end of the columns that are read, before it is an `int`. -/
def rightEnd (xCenter xWidth : Int32) : ℤ :=
  if xWidth = 1 then xCenter.toInt + 1 else xCenter.toInt + xWidth.toInt / 2

/-- What `setScanlineParams` accepts. -/
structure Accepted (xCenter xWidth yStart yStop : Int32) : Prop where
  width : 0 ≤ xWidth.toInt
  center : 0 ≤ xCenter.toInt
  left : 0 ≤ xCenter.toInt - xWidth.toInt / 2
  start : 0 ≤ yStart.toInt
  stop : 0 ≤ yStop.toInt

section Accepted

variable {p q : FrameMessageProcessor} {xCenter xWidth yStart yStop : Int32}

/-- The rectangle that is passed to the window. -/
def scanRegion (xCenter xWidth yStart yStop : Int32) : Rect where
  left := xCenter - xWidth / 2
  top := min yStart yStop
  width := xWidth
  height := max yStart yStop - min yStart yStop

theorem negative_iff (a : Int32) : a < 0 ↔ a.toInt < 0 := Int32.lt_iff_toInt_lt

theorem toInt_left (width : 0 ≤ xWidth.toInt) (center : 0 ≤ xCenter.toInt)
    : (xCenter - xWidth / 2).toInt = xCenter.toInt - xWidth.toInt / 2 := by
  have half := Int32.toInt_half width
  have bound := xWidth.toInt_lt
  have top := xCenter.toInt_lt
  rw [Int32.toInt_sub_exact (by omega) (by omega), half]

/-- Accepted parameters, and what is stored then. -/
theorem setScanlineParams_ok (accepted : p.setScanlineParams xCenter xWidth yStart yStop = .ok q)
    : Accepted xCenter xWidth yStart yStop
      ∧ q = { p with
        xCenter := xCenter
        xWidth := xWidth
        yStart := min yStart yStop
        yStop := max yStart yStop
        mw := p.mw.map fun mw =>
          { mw with scanRect := some (scanRegion xCenter xWidth yStart yStop) } } := by
  rw [setScanlineParams] at accepted
  split_ifs at accepted with width center left rows
  rw [negative_iff] at width center
  rw [negative_iff, toInt_left (by omega) (by omega)] at left
  rw [negative_iff, negative_iff] at rows
  exact ⟨⟨by omega, by omega, by omega, by omega, by omega⟩, (Except.ok.inj accepted).symm⟩

theorem setScanlineParams_accepts (p : FrameMessageProcessor)
    (params : Accepted xCenter xWidth yStart yStop)
    : ∃ q, p.setScanlineParams xCenter xWidth yStart yStop = .ok q := by
  obtain ⟨width, center, left, start, stop⟩ := params
  rw [← toInt_left width center] at left
  rw [setScanlineParams, if_neg (mt (negative_iff _).mp width.not_gt),
    if_neg (mt (negative_iff _).mp center.not_gt), if_neg (mt (negative_iff _).mp left.not_gt),
    if_neg (by rw [negative_iff, negative_iff]; omega)]
  exact ⟨_, rfl⟩

theorem toInt_min (a b : Int32) : (min a b).toInt = min a.toInt b.toInt := by
  have ordered : min a b = if a ≤ b then a else b := rfl
  rw [ordered, min_def, apply_ite Int32.toInt]
  simp only [Int32.le_iff_toInt_le]

theorem toInt_max (a b : Int32) : (max a b).toInt = max a.toInt b.toInt := by
  have ordered : max a b = if a ≤ b then b else a := rfl
  rw [ordered, max_def, apply_ite Int32.toInt]
  simp only [Int32.le_iff_toInt_le]

/-- The columns, as they are computed from the stored parameters. -/
theorem toInt_xLeftBound (accepted : Accepted q.xCenter q.xWidth yStart yStop)
    : q.xLeftBound.toInt = q.xCenter.toInt - q.xWidth.toInt / 2 := by
  rw [xLeftBound]
  split_ifs with one
  · rw [one]
    simp
  · exact toInt_left accepted.width accepted.center

theorem toInt_xRightBound (accepted : Accepted q.xCenter q.xWidth yStart yStop)
    (small : rightEnd q.xCenter q.xWidth < 2 ^ 31)
    : q.xRightBound.toInt = rightEnd q.xCenter q.xWidth := by
  have width := accepted.width
  have center := accepted.center
  have half := Int32.toInt_half width
  rw [rightEnd] at small ⊢
  rw [xRightBound]
  split_ifs at small ⊢ with one
  · exact Int32.toInt_add_exact (by simp; omega) (by simpa using small)
  · rw [Int32.toInt_add_exact (by omega) (by omega), half]

/-- When the right end is too large, no column is read. -/
theorem xRightBound_nonpos (accepted : Accepted q.xCenter q.xWidth yStart yStop)
    (large : 2 ^ 31 ≤ rightEnd q.xCenter q.xWidth)
    : q.xRightBound.toInt < 0 := by
  have half := Int32.toInt_half accepted.width
  have bound := q.xWidth.toInt_lt
  have top := q.xCenter.toInt_lt
  rw [rightEnd] at large
  rw [xRightBound]
  split_ifs at large ⊢ with one
  · rw [Int32.toInt_add_large (by simpa using large)]
    simp
    omega
  · rw [Int32.toInt_add_large (by omega), half]
    omega

end Accepted

-----------------------------------------------------------------------------------------
-- The reads

section Reads

variable {message : FrameMessage} {x y : Int32}

theorem toInt_lumaIndex
    : (lumaIndex message y x).toInt
      = ((message.width.toInt * y.toInt + x.toInt) * 2).bmod (2 ^ 32) := by
  rw [lumaIndex, targetPixelNumber, Int32.toInt_mul, Int32.toInt_add, Int32.toInt_mul,
    Int.bmod_add_bmod, Int.bmod_mul_bmod]
  rfl

/-- A rectangle of pixels within the frame, for rectangles that may be empty. -/
theorem rectangle_inside_iff {top bottom left right width height : ℤ}
    : (∀ y, top ≤ y → y < bottom → ∀ x, left ≤ x → x < right → x < width ∧ y < height)
      ↔ bottom ≤ top ∨ right ≤ left ∨ (right ≤ width ∧ bottom ≤ height) := by
  constructor
  · intro inside
    by_cases rows : bottom ≤ top
    · exact Or.inl rows
    by_cases columns : right ≤ left
    · exact Or.inr (Or.inl columns)
    · have corner := inside (bottom - 1) (by omega) (by omega) (right - 1) (by omega) (by omega)
      omega
  · rintro empty y above below x after before
    omega

theorem toInt_lumaIndex_inside (frame : WholeFrame) (row : 0 ≤ y.toInt) (column : 0 ≤ x.toInt)
    (inside : x.toInt < frame.width.toInt) (below : y.toInt < frame.height.toInt)
    : (lumaIndex frame.toFrameMessage y x).toInt
      = 2 * (frame.width.toInt * y.toInt + x.toInt) := by
  have array := frame.array
  have whole := frame.whole
  have rows : frame.width.toInt * (y.toInt + 1) ≤ frame.width.toInt * frame.height.toInt :=
    mul_le_mul_of_nonneg_left (by omega) (by omega)
  have before : 0 ≤ frame.width.toInt * y.toInt := mul_nonneg (by omega) row
  rw [mul_add] at rows
  rw [toInt_lumaIndex, Int.bmod_eq_of_le (by push_cast; omega) (by push_cast; omega)]
  ring

/-- Indices that leave the row it is read for cannot come back to it by wrapping. -/
theorem ownLuma_lumaIndex (frame : WholeFrame) (row : 0 ≤ y.toInt) (column : 0 ≤ x.toInt)
    : frame.OwnLuma { row := y, index := lumaIndex frame.toFrameMessage y x }
      ↔ x.toInt < frame.width.toInt ∧ y.toInt < frame.height.toInt := by
  have bound := x.toInt_lt
  have widest := frame.width.toInt_lt
  rw [FrameMessage.OwnLuma]
  constructor
  · rintro ⟨-, below, own, nonnegative, inside, same⟩
    have wraps := Int.dvd_bmod_sub_self
      (x := (frame.width.toInt * y.toInt + x.toInt) * 2) (m := 2 ^ 32)
    rw [← toInt_lumaIndex, same] at wraps
    obtain ⟨turns, wraps⟩ := wraps
    push_cast at wraps
    have columns : 2 * (own - x.toInt) = 2 ^ 32 * turns := by linarith
    exact ⟨by omega, below⟩
  · rintro ⟨inside, below⟩
    exact ⟨row, below, x.toInt, column, inside,
      toInt_lumaIndex_inside frame row column inside below⟩

theorem FrameMessage.OwnLuma.inside {frame : WholeFrame} {read : PixelRead}
    (own : frame.OwnLuma read) : frame.Inside read.index := by
  obtain ⟨row, below, column, nonnegative, inside, index⟩ := own
  have whole := frame.whole
  have rows : frame.width.toInt * (read.row.toInt + 1) ≤ frame.width.toInt * frame.height.toInt :=
    mul_le_mul_of_nonneg_left (by omega) (by omega)
  have before : 0 ≤ frame.width.toInt * read.row.toInt := mul_nonneg (by omega) row
  rw [mul_add] at rows
  exact ⟨by omega, by omega⟩

/-- All pixels that are read must lie in the frame. -/
theorem readsOwnRows_iff_pixels (p : FrameMessageProcessor) (frame : WholeFrame)
    (rows : 0 ≤ p.yStart.toInt) (columns : 0 ≤ p.xLeftBound.toInt)
    : p.ReadsOwnRows frame.toFrameMessage
      ↔ p.yStop.toInt ≤ p.yStart.toInt ∨ p.xRightBound.toInt ≤ p.xLeftBound.toInt
        ∨ (p.xRightBound.toInt ≤ frame.width.toInt ∧ p.yStop.toInt ≤ frame.height.toInt) := by
  rw [← rectangle_inside_iff, ← Int32.forall_mem_upTo]
  simp only [← Int32.forall_mem_upTo]
  have plotted := calculatePlotData_returns p frame.toFrameMessage
  have own (y : Int32) (inRows : y ∈ Int32.upTo p.yStart p.yStop) (x : Int32)
      (inColumns : x ∈ Int32.upTo p.xLeftBound p.xRightBound) :=
    ownLuma_lumaIndex frame (rows.trans (Int32.mem_upTo.mp inRows).1)
      (columns.trans (Int32.mem_upTo.mp inColumns).1)
  constructor
  · rintro ⟨items, reads, ran, all⟩ y inRows x inColumns
    by_cases fine : ∀ y ∈ Int32.upTo p.yStart p.yStop,
        ∀ x ∈ Int32.upTo p.xLeftBound p.xRightBound,
          frame.Inside (lumaIndex frame.toFrameMessage y x)
    · rw [plotted.returned fine] at ran
      cases ran
      refine (own y inRows x inColumns).mp (all _ ?_)
      exact List.mem_flatMap.mpr ⟨y, inRows, List.mem_map.mpr ⟨x, inColumns, rfl⟩⟩
    · obtain ⟨e, t, threw⟩ := plotted.thrown fine []
      rw [threw] at ran
      cases ran
  · intro pixels
    refine ⟨_, _, plotted.returned (fun y inRows x inColumns => ?_) [], ?_⟩
    · exact ((own y inRows x inColumns).mpr (pixels y inRows x inColumns)).inside
    · intro read mem
      obtain ⟨y, inRows, mem⟩ := List.mem_flatMap.mp mem
      obtain ⟨x, inColumns, rfl⟩ := List.mem_map.mp mem
      exact (own y inRows x inColumns).mpr (pixels y inRows x inColumns)

/-- Every index is a luma byte of its own row if nothing is read, or if the columns end within the
frame; the frame may end before that, as its size is not compared with the parameters.
-/
theorem readsOwnRows_iff {p q : FrameMessageProcessor} {xCenter xWidth yStart yStop : Int32}
    (accepted : p.setScanlineParams xCenter xWidth yStart yStop = .ok q) (frame : WholeFrame)
    : q.ReadsOwnRows frame.toFrameMessage
      ↔ yStart = yStop ∨ xWidth = 0 ∨ 2 ^ 31 ≤ rightEnd xCenter xWidth
        ∨ (rightEnd xCenter xWidth ≤ frame.width.toInt
          ∧ max yStart.toInt yStop.toInt ≤ frame.height.toInt) := by
  obtain ⟨params, stored⟩ := setScanlineParams_ok accepted
  have center : q.xCenter = xCenter := by rw [stored]
  have width : q.xWidth = xWidth := by rw [stored]
  have start : q.yStart.toInt = min yStart.toInt yStop.toInt := by rw [stored, toInt_min]
  have stop : q.yStop.toInt = max yStart.toInt yStop.toInt := by rw [stored, toInt_max]
  rw [← center, ← width] at params ⊢
  have left := toInt_xLeftBound params
  have nonnegative := params.width
  have rows := params.start
  have stops := params.stop
  have inside := params.left
  have none : q.xWidth = 0 ↔ q.xWidth.toInt = 0 := by
    rw [← Int32.toInt_inj]
    rfl
  have same : yStart = yStop ↔ yStart.toInt = yStop.toInt := Int32.toInt_inj.symm
  rw [readsOwnRows_iff_pixels q frame (by omega) (by omega), start, stop, left, none, same]
  rcases lt_or_ge (rightEnd q.xCenter q.xWidth) (2 ^ 31) with small | large
  · rw [toInt_xRightBound params small]
    have one : q.xWidth = 1 ↔ q.xWidth.toInt = 1 := by
      rw [← Int32.toInt_inj]
      rfl
    rw [rightEnd] at small ⊢
    split_ifs at small ⊢ with single
    · rw [one] at single
      omega
    · rw [one] at single
      omega
  · have negative := xRightBound_nonpos params large
    omega

end Reads

/-- A frame of two rows with two pixels. -/
def twoByTwo : WholeFrame where
  size := 32
  messageType := .rawFrame
  width := 2
  height := 2
  pixFmt := .yuyv422
  pixData := [16, 128, 17, 128, 18, 128, 19, 128]
  whole := by decide
  array := by decide

/-- A processor without a window, after its parameters were set. -/
def scanning (xCenter xWidth yStart yStop : Int32) : FrameMessageProcessor where
  xCenter := xCenter
  xWidth := xWidth
  yStart := yStart
  yStop := yStop

theorem readsOwnRows_iff_inside
    : (scanning 1 2 0 2).ReadsOwnRows twoByTwo.toFrameMessage
      ↔ (0 : Int32) = 2 ∨ (2 : Int32) = 0 ∨ 2 ^ 31 ≤ rightEnd 1 2
        ∨ (rightEnd 1 2 ≤ twoByTwo.width.toInt
          ∧ max (0 : Int32).toInt (2 : Int32).toInt ≤ twoByTwo.height.toInt) := by
  have accepted : ({} : FrameMessageProcessor).setScanlineParams 1 2 0 2
      = .ok (scanning 1 2 0 2) := rfl
  exact readsOwnRows_iff accepted twoByTwo

/-- A column beyond the right edge is read from the next row. -/
theorem column_of_next_row
    : ¬ ∀ (p q : FrameMessageProcessor) (xCenter xWidth yStart yStop : Int32) (frame : WholeFrame),
      p.setScanlineParams xCenter xWidth yStart yStop = .ok q
        → q.ReadsOwnRows frame.toFrameMessage := by
  intro own
  have reads := own {} (scanning 2 1 0 1) 2 1 0 1 twoByTwo rfl
  rw [readsOwnRows_iff_pixels _ _ (by decide) (by decide)] at reads
  exact absurd reads (by decide)

-----------------------------------------------------------------------------------------
-- The plot

/-- The luma of a pixel, as a byte without a sign. -/
def FrameMessage.luma (message : FrameMessage) (row column : ℤ) : ℤ :=
  (message.pixData.getD (2 * (message.width.toInt * row + column)).toNat 0).toNat

namespace Rect

variable (rect : Rect)

def rows : List ℤ := Int32.consecutive rect.top.toInt rect.height.toInt.toNat

def columns : List ℤ := Int32.consecutive rect.left.toInt rect.width.toInt.toNat

end Rect

/-- The frame has all the pixels of a rectangle. -/
def FrameMessage.Contains (message : FrameMessage) (rect : Rect) : Prop :=
  ∀ row ∈ rect.rows, ∀ column ∈ rect.columns,
    column < message.width.toInt ∧ row < message.height.toInt

def FrameMessage.rowSum (message : FrameMessage) (rect : Rect) (row : ℤ) : ℤ :=
  (rect.columns.map (message.luma row)).sum

/-- The window shows a rectangle, and the plot has an item for each of its rows, with the sum of the
luma in its columns.
-/
def FrameMessageProcessor.PlotsRegion (p : FrameMessageProcessor) (message : FrameMessage)
    (rect : Rect) : Prop :=
  (∀ mw ∈ p.mw, mw.scanRect = some rect)
    ∧ (p.calculatePlotData message []).1
      = .ok (rect.rows.map fun row => { x := row, y := message.rowSum rect row })

section Plot

theorem bmod_eq_iff {total sum : ℤ} (nonnegative : 0 ≤ total) (le : total ≤ sum)
    : total.bmod (2 ^ 32) = sum ↔ sum < 2 ^ 31 ∧ total = sum := by
  constructor
  · intro same
    have bound : total.bmod (2 ^ 32) < 2 ^ 31 := Int.bmod_lt (by decide)
    have exact : total.bmod (2 ^ 32) = total := Int.bmod_eq_of_le (by push_cast; omega) (by omega)
    omega
  · rintro ⟨small, rfl⟩
    exact Int.bmod_eq_of_le (by push_cast; omega) (by omega)

variable {message : FrameMessage}

theorem luma_nonneg (row column : ℤ) : 0 ≤ message.luma row column := Int.natCast_nonneg _

/-- The luma that is added for a pixel of the frame is its own. -/
theorem toInt_luma (frame : WholeFrame) {y x : Int32} (row : 0 ≤ y.toInt) (column : 0 ≤ x.toInt)
    (inside : x.toInt < frame.width.toInt) (below : y.toInt < frame.height.toInt)
    : (unsigned (frame.byteAt (lumaIndex frame.toFrameMessage y x))).toInt
      = frame.luma y.toInt x.toInt := by
  rw [toInt_unsigned, FrameMessage.byteAt, toInt_lumaIndex_inside frame row column inside below]
  rfl

/-- The total of a row, over the columns that are read. -/
theorem toInt_rowTotal (q : FrameMessageProcessor) (frame : WholeFrame) {y : Int32}
    (row : 0 ≤ y.toInt) (below : y.toInt < frame.height.toInt) (left : 0 ≤ q.xLeftBound.toInt)
    (inside : q.xRightBound.toInt ≤ frame.width.toInt)
    : (rowTotal q frame.toFrameMessage y).toInt
      = ((Int32.consecutive q.xLeftBound.toInt
          (q.xRightBound.toInt - q.xLeftBound.toInt).toNat).map
            (frame.luma y.toInt)).sum.bmod (2 ^ 32) := by
  have each : (Int32.upTo q.xLeftBound q.xRightBound).map
        (fun x => (unsigned (frame.byteAt (lumaIndex frame.toFrameMessage y x))).toInt)
      = ((Int32.upTo q.xLeftBound q.xRightBound).map Int32.toInt).map (frame.luma y.toInt) := by
    rw [List.map_map]
    refine List.map_congr_left fun x mem => ?_
    obtain ⟨above, before⟩ := Int32.mem_upTo.mp mem
    exact toInt_luma frame row (by omega) (by omega) below
  rw [rowTotal, Int32.toInt_foldl_add, each, Int32.map_toInt_upTo, Int32.toInt_zero, zero_add]

/-- The last of an odd number of columns is left out. -/
def leavesOut (xWidth : Int32) : Prop := xWidth.toInt % 2 = 1 ∧ xWidth ≠ 1

instance (xWidth : Int32) : Decidable (leavesOut xWidth) := inferInstanceAs (Decidable (_ ∧ _))

/-- The columns that are read against the columns of the region. -/
theorem width_cases {xCenter xWidth yStart yStop : Int32}
    (params : Accepted xCenter xWidth yStart yStop)
    : (¬ leavesOut xWidth
        ∧ rightEnd xCenter xWidth = xCenter.toInt - xWidth.toInt / 2 + xWidth.toInt)
      ∨ (leavesOut xWidth
        ∧ rightEnd xCenter xWidth + 1 = xCenter.toInt - xWidth.toInt / 2 + xWidth.toInt) := by
  have nonnegative := params.width
  have one : xWidth = 1 ↔ xWidth.toInt = 1 := by
    rw [← Int32.toInt_inj]
    rfl
  simp only [leavesOut, rightEnd, ne_eq, one]
  split_ifs with single
  · omega
  · omega

theorem rightEnd_none {xCenter xWidth : Int32} (none : xWidth.toInt = 0)
    : rightEnd xCenter xWidth = xCenter.toInt := by
  have several : xWidth ≠ 1 := by
    rintro rfl
    exact absurd none (by decide)
  rw [rightEnd, if_neg several, none]
  simp

/-- The columns of the region start where the columns that are read do. -/
theorem scanRegion_columns {q : FrameMessageProcessor} {yStart yStop : Int32}
    (params : Accepted q.xCenter q.xWidth yStart yStop)
    : (scanRegion q.xCenter q.xWidth yStart yStop).columns
      = Int32.consecutive q.xLeftBound.toInt q.xWidth.toInt.toNat := by
  rw [toInt_xLeftBound params, ← toInt_left params.width params.center]
  rfl

/-- What a row adds up to is the sum of the region if that is not too large, and if the column that
is left out is dark.
-/
theorem rowTotal_eq_iff {q : FrameMessageProcessor} {yStart yStop : Int32}
    (params : Accepted q.xCenter q.xWidth yStart yStop) (frame : WholeFrame) {y : Int32}
    (row : 0 ≤ y.toInt)
    (contained : ∀ column ∈ (scanRegion q.xCenter q.xWidth yStart yStop).columns,
      column < frame.width.toInt ∧ y.toInt < frame.height.toInt)
    : (rowTotal q frame.toFrameMessage y).toInt
        = frame.rowSum (scanRegion q.xCenter q.xWidth yStart yStop) y.toInt
      ↔ frame.rowSum (scanRegion q.xCenter q.xWidth yStart yStop) y.toInt < 2 ^ 31
        ∧ (leavesOut q.xWidth
          → frame.luma y.toInt (q.xCenter.toInt + q.xWidth.toInt / 2) = 0) := by
  have nonnegative := params.width
  have onLeft := params.left
  have leftBound := toInt_xLeftBound params
  rw [FrameMessage.rowSum, scanRegion_columns params]
  rw [scanRegion_columns params] at contained
  by_cases none : q.xWidth.toInt = 0
  · have whole : ¬ leavesOut q.xWidth := fun lacks => by
      have odd := lacks.1
      omega
    have ends : rightEnd q.xCenter q.xWidth = q.xCenter.toInt := rightEnd_none none
    have right := toInt_xRightBound params (ends ▸ q.xCenter.toInt_lt)
    rw [rowTotal, Int32.upTo_eq_nil (by omega), none]
    simp [whole, Int32.consecutive]
  have last := contained (q.xLeftBound.toInt + q.xWidth.toInt - 1)
    (Int32.mem_consecutive.mpr (by omega))
  have widest := frame.width.toInt_lt
  rcases width_cases params with ⟨whole, ends⟩ | ⟨lacks, ends⟩
  · have right := toInt_xRightBound params (by omega)
    have read : (q.xRightBound.toInt - q.xLeftBound.toInt).toNat = q.xWidth.toInt.toNat := by omega
    rw [toInt_rowTotal q frame row last.2 (by omega) (by omega), read,
      bmod_eq_iff (List.sum_nonneg ?_) le_rfl]
    · simp [whole]
    · simp [luma_nonneg]
  · have right := toInt_xRightBound params (by omega)
    have odd := lacks.1
    obtain ⟨count, read, all⟩ : ∃ count, (q.xRightBound.toInt - q.xLeftBound.toInt).toNat = count
        ∧ q.xWidth.toInt.toNat = count + 1 := ⟨_, rfl, by omega⟩
    have center : q.xLeftBound.toInt + count = q.xCenter.toInt + q.xWidth.toInt / 2 := by omega
    have dark : 0 ≤ frame.luma y.toInt (q.xCenter.toInt + q.xWidth.toInt / 2) := luma_nonneg _ _
    rw [toInt_rowTotal q frame row last.2 (by omega) (by omega), read, all,
      Int32.consecutive_succ, List.map_append, List.sum_append, List.map_singleton,
      List.sum_singleton, center, bmod_eq_iff (List.sum_nonneg ?_) (le_add_of_nonneg_right dark)]
    · simp [lacks]
    · simp [luma_nonneg]

/-- The rows of the region are those of the outer loop. -/
theorem scanRegion_rows (xCenter xWidth : Int32) {yStart yStop : Int32} (start : 0 ≤ yStart.toInt)
    (stop : 0 ≤ yStop.toInt)
    : (scanRegion xCenter xWidth yStart yStop).rows
      = (Int32.upTo (min yStart yStop) (max yStart yStop)).map Int32.toInt := by
  have low := toInt_min yStart yStop
  have high := toInt_max yStart yStop
  have bound := (max yStart yStop).toInt_lt
  have height : (max yStart yStop - min yStart yStop).toInt
      = (max yStart yStop).toInt - (min yStart yStop).toInt :=
    Int32.toInt_sub_exact (by omega) (by omega)
  rw [Int32.map_toInt_upTo, ← height]
  rfl

/-- The columns that are read are columns of the region. -/
theorem upTo_columns {q : FrameMessageProcessor} {yStart yStop x : Int32}
    (params : Accepted q.xCenter q.xWidth yStart yStop)
    (mem : x ∈ Int32.upTo q.xLeftBound q.xRightBound)
    : 0 ≤ x.toInt
      ∧ x.toInt ∈ (scanRegion q.xCenter q.xWidth yStart yStop).columns := by
  obtain ⟨above, below⟩ := Int32.mem_upTo.mp mem
  have nonnegative := params.width
  have onLeft := params.left
  have left := toInt_xLeftBound params
  have small : rightEnd q.xCenter q.xWidth < 2 ^ 31 := by
    by_contra large
    have negative := xRightBound_nonpos params (by omega)
    omega
  have right := toInt_xRightBound params small
  rw [scanRegion_columns params, Int32.mem_consecutive]
  rcases width_cases params with ⟨-, ends⟩ | ⟨-, ends⟩
  · omega
  · omega

/-- The plot is that of the displayed region exactly if no row's sum is too large for an `int` and,
for an odd number of columns from three on, the column that is left out is dark in every row.
-/
theorem plotsRegion_iff {p q : FrameMessageProcessor} {xCenter xWidth yStart yStop : Int32}
    (accepted : p.setScanlineParams xCenter xWidth yStart yStop = .ok q) (frame : WholeFrame)
    (contained : frame.Contains (scanRegion xCenter xWidth yStart yStop))
    : q.PlotsRegion frame.toFrameMessage (scanRegion xCenter xWidth yStart yStop)
      ↔ ∀ row ∈ (scanRegion xCenter xWidth yStart yStop).rows,
        frame.rowSum (scanRegion xCenter xWidth yStart yStop) row < 2 ^ 31
          ∧ (leavesOut xWidth → frame.luma row (xCenter.toInt + xWidth.toInt / 2) = 0) := by
  obtain ⟨params, stored⟩ := setScanlineParams_ok accepted
  have center : q.xCenter = xCenter := by rw [stored]
  have width : q.xWidth = xWidth := by rw [stored]
  have start : q.yStart = min yStart yStop := by rw [stored]
  have stop : q.yStop = max yStart yStop := by rw [stored]
  have shown : ∀ mw ∈ q.mw, mw.scanRect = some (scanRegion xCenter xWidth yStart yStop) := by
    rw [stored]
    rintro mw mem
    obtain ⟨old, -, rfl⟩ := Option.map_eq_some_iff.mp mem
    rfl
  have rows := scanRegion_rows xCenter xWidth params.start params.stop
  rw [← start, ← stop] at rows
  rw [← center, ← width] at params shown rows contained ⊢
  set rect := scanRegion q.xCenter q.xWidth yStart yStop
  have top : 0 ≤ q.yStart.toInt := by
    rw [start, toInt_min]
    exact le_min params.start params.stop
  have inside : ∀ y ∈ Int32.upTo q.yStart q.yStop, ∀ column ∈ rect.columns,
      column < frame.width.toInt ∧ y.toInt < frame.height.toInt := by
    intro y mem
    exact contained y.toInt (rows ▸ List.mem_map_of_mem mem)
  have plotted := calculatePlotData_returns q frame.toFrameMessage
  have fine : ∀ y ∈ Int32.upTo q.yStart q.yStop, ∀ x ∈ Int32.upTo q.xLeftBound q.xRightBound,
      frame.Inside (lumaIndex frame.toFrameMessage y x) := by
    intro y inRows x inColumns
    obtain ⟨nonnegative, inRegion⟩ := upTo_columns params inColumns
    exact ((ownLuma_lumaIndex frame (top.trans (Int32.mem_upTo.mp inRows).1) nonnegative).mpr
      (inside y inRows x.toInt inRegion)).inside
  rw [PlotsRegion, plotted.returned fine, rows, and_iff_right shown, List.map_map]
  simp only [Except.ok.injEq, List.map_inj_left, List.forall_mem_map]
  refine forall₂_congr fun y mem => ?_
  have total := rowTotal_eq_iff params frame (top.trans (Int32.mem_upTo.mp mem).1) (inside y mem)
  simpa using total

end Plot

/-- A row of three pixels. -/
def threeByOne : WholeFrame where
  size := 30
  messageType := .rawFrame
  width := 3
  height := 1
  pixFmt := .yuyv422
  pixData := [16, 128, 17, 128, 18, 128]
  whole := by decide
  array := by decide

theorem plotsRegion_iff_inside
    : (scanning 1 2 0 2).PlotsRegion twoByTwo.toFrameMessage (scanRegion 1 2 0 2)
      ↔ ∀ row ∈ (scanRegion 1 2 0 2).rows,
        twoByTwo.rowSum (scanRegion 1 2 0 2) row < 2 ^ 31
          ∧ (leavesOut 2 → twoByTwo.luma row ((1 : Int32).toInt + (2 : Int32).toInt / 2) = 0) := by
  have accepted : ({} : FrameMessageProcessor).setScanlineParams 1 2 0 2
      = .ok (scanning 1 2 0 2) := rfl
  have contained : twoByTwo.Contains (scanRegion 1 2 0 2) := by
    rw [FrameMessage.Contains]
    decide
  exact plotsRegion_iff accepted twoByTwo contained

/-- Of three columns, two are added up. -/
theorem third_column_missing
    : ¬ ∀ (p q : FrameMessageProcessor) (xCenter xWidth yStart yStop : Int32) (frame : WholeFrame),
      p.setScanlineParams xCenter xWidth yStart yStop = .ok q
        → frame.Contains (scanRegion xCenter xWidth yStart yStop)
        → q.PlotsRegion frame.toFrameMessage (scanRegion xCenter xWidth yStart yStop) := by
  intro plots
  have contained : threeByOne.Contains (scanRegion 1 3 0 1) := by
    rw [FrameMessage.Contains]
    decide
  obtain ⟨-, items⟩ := plots {} (scanning 1 3 0 1) 1 3 0 1 threeByOne rfl contained
  exact absurd items (by decide)

end Granum.Spectrometer.Client
