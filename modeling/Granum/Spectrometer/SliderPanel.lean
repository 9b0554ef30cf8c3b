import Granum.Library.Mealy
import Granum.Spectrometer.ScanRegion

/-! The sliders for the scan region and the contrast. The two sliders of a pair bound each other: the
listener of each moves the other one out of its way, and the range of the slider may stop that.
-/

namespace Granum.Spectrometer.Client

/-- A slider without an extent. -/
structure JSlider where
  minimum : Int32
  maximum : Int32
  value : Int32
  deriving DecidableEq, Repr

namespace JSlider

variable (slider : JSlider)

def setValue (n : Int32) : JSlider :=
  { slider with value := min (max n slider.minimum) slider.maximum }

def setMaximum (n : Int32) : JSlider where
  minimum := min n slider.minimum
  maximum := n
  value := min n slider.value

end JSlider

inductive SliderName
  | yStart
  | yEnd
  | xCenter
  | xWidth
  | minResizeVal
  | maxResizeVal
  deriving DecidableEq, Repr

/-- The panel, with the processor it sets and all pairs it has passed to `setResampleParams`. -/
structure SliderPanel where
  resX : Int32
  resY : Int32
  slider : SliderName → JSlider
  msgprocessor : FrameMessageProcessor
  passed : List (Int32 × Int32)

def SliderPanel.getValue (s : SliderPanel) (name : SliderName) : Int32 := (s.slider name).value

/-- Code of the panel, in the event dispatch thread. -/
abbrev Handling := ExceptT Throwable (StateM SliderPanel)

def updateSliders : Handling Unit := fun s =>
  match s.msgprocessor.setScanlineParams (s.getValue .xCenter) (s.getValue .xWidth)
      (s.getValue .yStart) (s.getValue .yEnd) with
  | .error e => (.error e, s)
  | .ok p =>
      let params := (s.getValue .minResizeVal, s.getValue .maxResizeVal)
      (.ok (), { s with
        msgprocessor := p.setResampleParams params.1 params.2
        passed := s.passed ++ [params] })

section Listeners

variable (stateChanged : SliderName → Handling Unit)

/-- A change event is fired only if a property of the slider changes. -/
def change (name : SliderName) (next : JSlider) : Handling Unit := fun s =>
  if next = s.slider name then (.ok (), s)
  else stateChanged name { s with slider := Function.update s.slider name next }

def setValue (name : SliderName) (n : Int32) : Handling Unit := fun s =>
  change stateChanged name ((s.slider name).setValue n) s

def setMaximum (name : SliderName) (n : Int32) : Handling Unit := fun s =>
  change stateChanged name ((s.slider name).setMaximum n) s

/-- The listener of the lower slider of a pair. -/
def raiseUpper (low high : SliderName) : Handling Unit := do
  let s ← get
  (if s.getValue high ≤ s.getValue low then setValue stateChanged high (s.getValue low + 1)
    else pure ())
  updateSliders

/-- The listener of the upper slider of a pair. -/
def reduceLower (low high : SliderName) : Handling Unit := do
  let s ← get
  (if s.getValue high ≤ s.getValue low then setValue stateChanged low (s.getValue high - 1)
    else pure ())
  updateSliders

/-- The widest region around the center. -/
def SliderPanel.widest (s : SliderPanel) : Int32 :=
  min (s.getValue .xCenter) (s.resX - s.getValue .xCenter) * 2

def fitWidth : Handling Unit := do
  let s ← get
  setMaximum stateChanged .xWidth s.widest

/-- The change listeners that the constructor adds. -/
def listener : SliderName → Handling Unit
  | .yStart => raiseUpper stateChanged .yStart .yEnd
  | .yEnd => reduceLower stateChanged .yStart .yEnd
  | .xCenter => do
      fitWidth stateChanged
      updateSliders
  | .xWidth => updateSliders
  | .minResizeVal => raiseUpper stateChanged .minResizeVal .maxResizeVal
  | .maxResizeVal => reduceLower stateChanged .minResizeVal .maxResizeVal

end Listeners

/-- The listeners call each other through the sliders, as deep as the stack allows. -/
def stateChanged : ℕ → SliderName → Handling Unit
  | 0, _ => throw .stackOverflow
  | stack + 1, name => listener (stateChanged stack) name

def setResolution (stack : ℕ) (resX resY : Int32) : Handling Unit := do
  modify ({ · with resX, resY })
  setMaximum (stateChanged stack) .yStart resY
  setMaximum (stateChanged stack) .yEnd resY
  setMaximum (stateChanged stack) .xCenter resX
  fitWidth (stateChanged stack)

/-- The sliders as they are constructed. -/
def initialSlider : SliderName → JSlider
  | .yStart => ⟨0, 640, 0⟩
  | .yEnd => ⟨0, 640, 640⟩
  | .xCenter => ⟨0, 480, 480 / 2⟩
  | .xWidth => ⟨0, 480 / 2, 480 / 2⟩
  | .minResizeVal => ⟨0, 255, 0⟩
  | .maxResizeVal => ⟨0, 255, 255⟩

/-- The panel while it is constructed. -/
def SliderPanel.fresh (p : FrameMessageProcessor) : SliderPanel where
  resX := 480
  resY := 640
  slider := initialSlider
  msgprocessor := p
  passed := []

/-- The constructor ends with an update. -/
def SliderPanel.new (p : FrameMessageProcessor) : SliderPanel := (updateSliders (.fresh p)).2

/-- The resolution of a frame, of at least two rows and columns. -/
structure Resolution where
  resX : Int32
  resY : Int32
  columns : 2 ≤ resX.toInt
  rows : 2 ≤ resY.toInt

/-- What happens to the panel from outside. -/
inductive PanelEvent
  | move (name : SliderName) (n : Int32)
  | setResolution (resolution : Resolution)

def handle (stack : ℕ) : PanelEvent → Handling Unit
  | .move name n => setValue (stateChanged stack) name n
  | .setResolution resolution => setResolution stack resolution.resX resolution.resY

/-- The panel under events. What an event throws is its output; the dispatch thread goes on. -/
def panel (stack : ℕ) : Mealy SliderPanel PanelEvent Throwable where
  step s event :=
    match handle stack event s with
    | (.ok (), t) => (t, [])
    | (.error e, t) => (t, [e])

end Granum.Spectrometer.Client
