import Granum.Library.IntCounter
import Granum.Library.LoggedRun
import Granum.Spectrometer.FrameMessages

/-! What the client computes from a frame: the plot data of the scan region, whose bounds were set
by someone else, and the stretched luma.
-/

namespace Granum.Spectrometer.Client

inductive Throwable
  | invalidParameter (message : String)
  | arrayIndexOutOfBounds (index : Int32)
  | arithmetic
  | stackOverflow
  deriving DecidableEq, Repr

structure Rect where
  left : Int32
  top : Int32
  width : Int32
  height : Int32
  deriving DecidableEq, Repr

/-- The window, with the rectangle that is drawn over the picture. -/
structure MainWindow where
  scanRect : Option Rect := none
  deriving DecidableEq, Repr

def MainWindow.setScanRegion (mw : MainWindow) (xleft ytop width height : Int32) : MainWindow :=
  { mw with scanRect := some { left := xleft, top := ytop, width, height } }

structure FrameMessageProcessor where
  mw : Option MainWindow := none
  xCenter : Int32 := 0
  xWidth : Int32 := 0
  yStart : Int32 := 0
  yStop : Int32 := 0
  resampleMin : Int32 := 0
  resampleMax : Int32 := 255
  deriving DecidableEq, Repr

/-- An item of a plot; both doubles were integers. -/
structure XYDataItem where
  x : ℤ
  y : ℤ
  deriving DecidableEq, Repr

/-- An index that was read from the pixel data, and the row it was read for. -/
structure PixelRead where
  row : Int32
  index : Int32
  deriving DecidableEq, Repr

abbrev Plotting := LoggedRun Throwable PixelRead

namespace FrameMessage

variable (message : FrameMessage)

/-- An index into the pixel data. -/
def Inside (index : Int32) : Prop :=
  0 ≤ index.toInt ∧ index.toInt < message.pixData.length

instance (index : Int32) : Decidable (message.Inside index) :=
  inferInstanceAs (Decidable (_ ∧ _))

def byteAt (index : Int32) : UInt8 := message.pixData.getD index.toInt.toNat 0

/-- `message.getPixData()[index]` -/
def load (row index : Int32) : Plotting UInt8 := fun reads =>
  if message.Inside index then (.ok (message.byteAt index), reads ++ [⟨row, index⟩])
  else (.error (.arrayIndexOutOfBounds index), reads)

end FrameMessage

/-- A byte is signed, so it is masked. -/
def unsigned (byte : UInt8) : Int32 := byte.toInt8.toInt32 &&& 0xFF

namespace FrameMessageProcessor

variable (p : FrameMessageProcessor) (message : FrameMessage)

def setScanlineParams (xCenter xWidth yStart yStop : Int32)
    : Except Throwable FrameMessageProcessor :=
  if xWidth < 0 then
    .error (.invalidParameter "Не верное значение xWidth : < 0")
  else if xCenter < 0 then
    .error (.invalidParameter "Не верное значение xCenter : < 0")
  else if xCenter - xWidth / 2 < 0 then
    .error (.invalidParameter "Не верное значение xCenter - xWidth/2 : < 0")
  else if yStart < 0 ∨ yStop < 0 then
    .error (.invalidParameter "Не верное значение yStart или yStop : < 0")
  else
    let top := min yStart yStop
    let bottom := max yStart yStop
    .ok { p with
      yStart := top
      yStop := bottom
      xCenter := xCenter
      xWidth := xWidth
      mw := p.mw.map (·.setScanRegion (xCenter - xWidth / 2) top xWidth (bottom - top)) }

def setResampleParams (min max : Int32) : FrameMessageProcessor :=
  { p with
    resampleMin := min
    resampleMax := max }

def xLeftBound : Int32 := if p.xWidth = 1 then p.xCenter else p.xCenter - p.xWidth / 2

def xRightBound : Int32 := if p.xWidth = 1 then p.xCenter + 1 else p.xCenter + p.xWidth / 2

def targetPixelNumber (y x : Int32) : Int32 := message.width * y + x

/-- The inner loop of `calculatePlotData`. -/
def accumulateRow (y : Int32) : Plotting Int32 :=
  (Int32.upTo p.xLeftBound p.xRightBound).foldlM (fun accamulatedData x => do
    let targetPixel ← message.load y (targetPixelNumber message y x * 2)
    return accamulatedData + unsigned targetPixel) 0

def calculatePlotData : Plotting (List XYDataItem) :=
  (Int32.upTo p.yStart p.yStop).foldlM (fun dataString y => do
    let accamulatedData ← p.accumulateRow message y
    return dataString ++ [{ x := y.toInt, y := accamulatedData.toInt }]) []

end FrameMessageProcessor

section Plotting

open LoggedRun FrameMessageProcessor

variable (p : FrameMessageProcessor) (message : FrameMessage)

theorem toInt_unsigned (byte : UInt8) : (unsigned byte).toInt = byte.toNat := by
  have masked : ∀ x : BitVec 8, (x.signExtend 32 &&& 255#32).toInt = x.toNat := by decide +kernel
  exact masked byte.toBitVec

theorem load_returns (row index : Int32)
    : Returns (message.load row index) (message.Inside index) (message.byteAt index)
      [⟨row, index⟩] where
  returned inside _ := if_pos inside
  thrown outside _ := ⟨_, _, if_neg outside⟩

/-- The index of a pixel's luma, as it is computed. -/
def lumaIndex (y x : Int32) : Int32 := targetPixelNumber message y x * 2

/-- What a row adds up to, as it is computed. -/
def rowTotal (y : Int32) : Int32 :=
  (Int32.upTo p.xLeftBound p.xRightBound).foldl
    (fun total x => total + unsigned (message.byteAt (lumaIndex message y x))) 0

theorem accumulateRow_returns (y : Int32)
    : Returns (p.accumulateRow message y)
      (∀ x ∈ Int32.upTo p.xLeftBound p.xRightBound, message.Inside (lumaIndex message y x))
      (rowTotal p message y)
      ((Int32.upTo p.xLeftBound p.xRightBound).map fun x =>
        { row := y, index := lumaIndex message y x }) := by
  have body (total x : Int32)
      : Returns (do
          let targetPixel ← message.load y (lumaIndex message y x)
          return total + unsigned targetPixel)
        (message.Inside (lumaIndex message y x))
        (total + unsigned (message.byteAt (lumaIndex message y x)))
        [{ row := y, index := lumaIndex message y x }] :=
    (load_returns message y _).map fun targetPixel => total + unsigned targetPixel
  exact (Returns.foldlM body 0 _).congr Iff.rfl (fun _ => rfl) List.map_eq_flatMap

/-- The plot is made if all indices are inside, and has an item for each row. -/
theorem calculatePlotData_returns
    : Returns (p.calculatePlotData message)
      (∀ y ∈ Int32.upTo p.yStart p.yStop, ∀ x ∈ Int32.upTo p.xLeftBound p.xRightBound,
        message.Inside (lumaIndex message y x))
      ((Int32.upTo p.yStart p.yStop).map fun y =>
        { x := y.toInt, y := (rowTotal p message y).toInt })
      ((Int32.upTo p.yStart p.yStop).flatMap fun y =>
        (Int32.upTo p.xLeftBound p.xRightBound).map fun x =>
          { row := y, index := lumaIndex message y x }) := by
  have body (dataString : List XYDataItem) (y : Int32)
      : Returns (do
          let accamulatedData ← p.accumulateRow message y
          return dataString ++ [{ x := y.toInt, y := accamulatedData.toInt }])
        (∀ x ∈ Int32.upTo p.xLeftBound p.xRightBound, message.Inside (lumaIndex message y x))
        (dataString ++ [{ x := y.toInt, y := (rowTotal p message y).toInt }])
        ((Int32.upTo p.xLeftBound p.xRightBound).map fun x =>
          { row := y, index := lumaIndex message y x }) :=
    (accumulateRow_returns p message y).map fun accamulatedData =>
      dataString ++ [{ x := y.toInt, y := accamulatedData.toInt }]
  refine (Returns.foldlM body [] _).congr Iff.rfl (fun _ => ?_) rfl
  rw [List.foldl_append_eq_append, List.nil_append, ← List.flatMap_def, ← List.map_eq_flatMap]

end Plotting

end Granum.Spectrometer.Client
