import Mathlib
import Granum.Library.FallibleRun

/-! The reflection spectra of a flight. The rows of the CSV file are gone through once, and some of
the spectra are divided by the one before them.
-/

namespace Granum.Ground.Reflection

def ROW_MIN : ℤ := 145
def ROW_MAX : ℤ := 385
def WAVELENGTH_MIN : ℤ := 405
def WAVELENGTH_MAX : ℤ := 650
def up : ℤ := 105
def down : ℤ := 135

inductive PyError
  | keyError
  | valueError
  | typeError
  | indexError
  | syntaxError
  | zeroDivisionError
  | overflowError
  deriving DecidableEq, Repr

/-- What the script takes from Python to read a cell and to plot a quotient, where `logRatio x y` is
`math.log(x / y) * 100`.
-/
structure Python (Cell Number Value : Type) where
  int : Cell → Except PyError ℤ
  literalEval : Cell → Except PyError (List Number)
  logRatio : Number → Number → Except PyError Value

structure MegaRow (Cell : Type) where
  number : Cell
  timeBootMs : Cell
  servo : Cell
  yUpleftCrop : Cell
  data : Cell
  deriving DecidableEq, Repr

/-- The two values of `state`. -/
inductive Position
  | UP
  | DOWN
  deriving DecidableEq, Repr

/-- A list of intensities, with the row of the file that it was read from. -/
structure Spectrum (Number : Type) where
  row : ℕ
  values : List Number
  deriving DecidableEq, Repr

/-- An element of `zs`, with the rows that it is computed from. -/
structure Entry (Value : Type) where
  numerator : ℕ
  denominator : Option ℕ
  reflection : List Value
  deriving DecidableEq, Repr

/-- The variables that live through the loop, and a count of the rows. -/
structure Loop (Number Value : Type) where
  row : ℕ := 0
  servo : Option ℤ := none
  state : Option Position := none
  prevState : Option Position := none
  prevIntensity : Option (Spectrum Number) := none
  xs : List (List ℤ) := []
  ys : List (List ℤ) := []
  zs : List (Entry Value) := []
  deriving DecidableEq, Repr

def getTrueNm (rowFromCroppedPicture yUpleft : ℤ) : ℤ :=
  let x := yUpleft + rowFromCroppedPicture
  let a1 : Float := 4244879 / 62257189230
  let a2 : Float := -17684921 / 364077130
  let a3 : Float := 298720569791 / 31128594615
  let a4 : Float := 1445407214 / 19394763
  let y := (a1 * .ofInt (x ^ 3) + a2 * .ofInt (x ^ 2) + a3 * .ofInt x + a4).toInt64.toInt
  if y > WAVELENGTH_MAX then WAVELENGTH_MAX
  else if y < WAVELENGTH_MIN then WAVELENGTH_MIN
  else y

/-- The wavelengths of `get_nm_and_colors`, for a list of `n` intensities. -/
def getNm (yUpleft : ℤ) (n : ℕ) : List ℤ :=
  (List.range' 1 n).map fun i =>
    let rowFromBigPicture := i + yUpleft
    if rowFromBigPicture ≥ ROW_MIN ∧ rowFromBigPicture ≤ ROW_MAX then getTrueNm i yUpleft
    else if rowFromBigPicture < ROW_MIN then WAVELENGTH_MAX
    else WAVELENGTH_MIN

/-- An item of a list, or of `None`. -/
def item {Number : Type} (list : Option (List Number)) (i : ℕ) : Except PyError Number :=
  match list with
  | none => .error .typeError
  | some list =>
      match list[i]? with
      | some x => .ok x
      | none => .error .indexError

/-- The first `if` of the body. The servo is the one of the row before. -/
def mark (servo : Option ℤ) (state : Option Position) : Option Position :=
  if servo = some up then some .UP
  else if servo = some down then some .DOWN
  else state

/-- The cells of a row that are used. -/
structure Columns (Number : Type) where
  time : ℤ
  servo : ℤ
  yUpleft : ℤ
  intensity : List Number
  deriving DecidableEq, Repr

/-- An exception that ends the script, with the variables as they are then. -/
structure Raised (Number Value : Type) where
  error : PyError
  loop : Loop Number Value
  deriving DecidableEq, Repr

/-- A computation that may raise, while the variables are these. -/
def raising {Number Value α : Type} (loop : Loop Number Value) (x : Except PyError α)
    : Except (Raised Number Value) α :=
  x.mapError fun error => { error, loop }

namespace Python

variable {Cell Number Value : Type} (python : Python Cell Number Value)

def reflection (intensity : List Number) (prevIntensity : Option (List Number))
    : Except PyError (List Value) :=
  (List.range intensity.length).mapM fun i => do
    let x ← item (some intensity) i
    let y ← item prevIntensity i
    python.logRatio x y

/-- The last `if` of the body. The wavelengths and times are appended before the quotient is
computed.
-/
def append (loop : Loop Number Value) (nm time : List ℤ) (intensity : Spectrum Number)
    : Except (Raised Number Value) (Loop Number Value) := do
  let loop := { loop with xs := loop.xs ++ [nm], ys := loop.ys ++ [time] }
  let reflection ← raising loop
    (python.reflection intensity.values (loop.prevIntensity.map (·.values)))
  return {
    loop with
    zs := loop.zs ++ [{
      numerator := intensity.row
      denominator := loop.prevIntensity.map (·.row)
      reflection := reflection }] }

/-- The body of the loop. -/
def body (loop : Loop Number Value) (row : MegaRow Cell)
    : Except (Raised Number Value) (Loop Number Value) := do
  let loop := { loop with state := mark loop.servo loop.state }
  let _number ← raising loop (python.int row.number)
  let time ← raising loop (python.int row.timeBootMs)
  let servo ← raising loop (python.int row.servo)
  let loop := { loop with servo := some servo }
  let yUpleft ← raising loop (python.int row.yUpleftCrop)
  let values ← raising loop (python.literalEval row.data)
  let intensity := { row := loop.row, values := values }
  let nm := getNm yUpleft values.length
  let time := List.replicate nm.length time
  let loop ←
    (if loop.state = some .UP ∧ loop.prevState = some .DOWN then
      python.append loop nm time intensity
    else pure loop)
  return { loop with prevState := loop.state, prevIntensity := some intensity, row := loop.row + 1 }

/-- The variables when the rows are at their end, or when an exception has ended the script. -/
def script (rows : List (MegaRow Cell)) : Loop Number Value :=
  match FallibleRun.run python.body {} rows with
  | .ok loop => loop
  | .error raised => raised.loop

def zs (rows : List (MegaRow Cell)) : List (Entry Value) := (python.script rows).zs

/-- The cells of a row, if all of them can be read. -/
def columns (row : MegaRow Cell) : Except PyError (Columns Number) := do
  let _number ← python.int row.number
  let time ← python.int row.timeBootMs
  let servo ← python.int row.servo
  let yUpleft ← python.int row.yUpleftCrop
  let intensity ← python.literalEval row.data
  return { time, servo, yUpleft, intensity }

-----------------------------------------------------------------------------------------
-- Which rows should meet, and which do

/-- The row of a number exists, and its servo is at an angle. -/
def ServoIs (rows : List (MegaRow Cell)) (n : ℕ) (angle : ℤ) : Prop :=
  ∃ row, rows[n]? = some row ∧ python.int row.servo = .ok angle

/-- The entries are those of the adjacent rows that are down and up. -/
structure PairsRight (rows : List (MegaRow Cell)) : Prop where
  entries : ∀ entry ∈ python.zs rows, ∃ n,
    entry.denominator = some n ∧ entry.numerator = n + 1
      ∧ python.ServoIs rows n down ∧ python.ServoIs rows (n + 1) up
  pairs : ∀ n, python.ServoIs rows n down → python.ServoIs rows (n + 1) up
    → ∃ entry ∈ python.zs rows, entry.denominator = some n ∧ entry.numerator = n + 1

/-- Where the servo was last, of its two positions. -/
def position (rows : List (MegaRow Cell)) : Option Position :=
  rows.foldl (fun state row => mark (python.int row.servo).toOption state) none

/-- A row comes right after one that is up, and the position before that one was down. -/
def Due (rows : List (MegaRow Cell)) (n : ℕ) : Prop :=
  n < rows.length ∧ ∃ m, n = m + 1 ∧ python.ServoIs rows m up
    ∧ python.position (rows.take m) = some .DOWN

/-- The cells of a row can be read and, where it is due, its quotient by the row before be taken. -/
def Proceeds (rows : List (MegaRow Cell)) (n : ℕ) : Prop :=
  ∃ row columns, rows[n]? = some row ∧ python.columns row = .ok columns
    ∧ (python.Due rows n → ∀ m previous before, n = m + 1 → rows[m]? = some previous
      → python.columns previous = .ok before
      → ∃ values, python.reflection columns.intensity (some before.intensity) = .ok values)

variable {python} {seen rest rows : List (MegaRow Cell)} {row : MegaRow Cell}
  {columns : Columns Number} {loop after : Loop Number Value} {n : ℕ} {angle : ℤ}

theorem columns_servo (read : python.columns row = .ok columns)
    : python.int row.servo = .ok columns.servo := by
  obtain ⟨_, -, read⟩ := FallibleRun.bind_ok read
  obtain ⟨_, -, read⟩ := FallibleRun.bind_ok read
  obtain ⟨servo, found, read⟩ := FallibleRun.bind_ok read
  obtain ⟨_, -, read⟩ := FallibleRun.bind_ok read
  obtain ⟨_, -, read⟩ := FallibleRun.bind_ok read
  cases read
  exact found

theorem raising_ok {α : Type} {x : Except PyError α} {result : α}
    (done : raising loop x = .ok result) : x = .ok result := by
  cases x with
  | error e => cases done
  | ok value => exact congrArg Except.ok (Except.ok.inj done)

theorem raising_error {α : Type} {x : Except PyError α} {raised : Raised Number Value}
    (failed : raising loop x = .error raised) : raised.loop = loop := by
  cases x with
  | error e => exact congrArg Raised.loop (Except.error.inj failed).symm
  | ok value => cases failed

/-- A body that is left without an exception has read the row, and has appended the entry if it is
between the positions.
-/
theorem body_cases (done : python.body loop row = .ok after)
    : ∃ columns, python.columns row = .ok columns
      ∧ after.row = loop.row + 1
      ∧ after.servo = some columns.servo
      ∧ after.state = mark loop.servo loop.state
      ∧ after.prevState = mark loop.servo loop.state
      ∧ after.prevIntensity = some ⟨loop.row, columns.intensity⟩
      ∧ ((¬ (mark loop.servo loop.state = some .UP ∧ loop.prevState = some .DOWN)
          ∧ after.zs = loop.zs)
        ∨ (mark loop.servo loop.state = some .UP ∧ loop.prevState = some .DOWN
          ∧ ∃ values,
            after.zs = loop.zs ++ [⟨loop.row, loop.prevIntensity.map (·.row), values⟩])) := by
  obtain ⟨number, numberRead, done⟩ := FallibleRun.bind_ok done
  obtain ⟨time, timeRead, done⟩ := FallibleRun.bind_ok done
  obtain ⟨servo, servoRead, done⟩ := FallibleRun.bind_ok done
  obtain ⟨yUpleft, yUpleftRead, done⟩ := FallibleRun.bind_ok done
  obtain ⟨intensity, intensityRead, done⟩ := FallibleRun.bind_ok done
  obtain ⟨appended, append, done⟩ := FallibleRun.bind_ok done
  cases done
  have read : python.columns row = .ok ⟨time, servo, yUpleft, intensity⟩ := by
    simp [columns, raising_ok numberRead, raising_ok timeRead, raising_ok servoRead,
      raising_ok yUpleftRead, raising_ok intensityRead, bind, Except.bind, pure, Except.pure]
  refine ⟨_, read, ?_⟩
  by_cases between : mark loop.servo loop.state = some .UP ∧ loop.prevState = some .DOWN
  case neg =>
    rw [if_neg between] at append
    cases append
    exact ⟨rfl, rfl, rfl, rfl, rfl, Or.inl ⟨between, rfl⟩⟩
  rw [if_pos between] at append
  obtain ⟨values, -, append⟩ := FallibleRun.bind_ok append
  cases append
  exact ⟨rfl, rfl, rfl, rfl, rfl, Or.inr ⟨between.1, between.2, values, rfl⟩⟩

theorem body_ok_iff
    : (∃ after, python.body loop row = .ok after)
      ↔ ∃ columns, python.columns row = .ok columns
        ∧ (mark loop.servo loop.state = some .UP → loop.prevState = some .DOWN
          → ∃ values, python.reflection columns.intensity (loop.prevIntensity.map (·.values))
            = .ok values) := by
  cases numberRead : python.int row.number with
  | error => simp [body, columns, raising, numberRead, Except.mapError, bind, Except.bind]
  | ok number =>
  cases timeRead : python.int row.timeBootMs with
  | error => simp [body, columns, raising, numberRead, timeRead, Except.mapError, bind, Except.bind]
  | ok time =>
  cases servoRead : python.int row.servo with
  | error =>
      simp [body, columns, raising, numberRead, timeRead, servoRead, Except.mapError, bind,
        Except.bind]
  | ok servo =>
  cases yUpleftRead : python.int row.yUpleftCrop with
  | error =>
      simp [body, columns, raising, numberRead, timeRead, servoRead, yUpleftRead, Except.mapError,
        bind, Except.bind]
  | ok yUpleft =>
  cases cellRead : python.literalEval row.data with
  | error =>
      simp [body, columns, raising, numberRead, timeRead, servoRead, yUpleftRead, cellRead,
        Except.mapError, bind, Except.bind]
  | ok intensity =>
  have read : python.columns row = .ok ⟨time, servo, yUpleft, intensity⟩ := by
    simp [columns, numberRead, timeRead, servoRead, yUpleftRead, cellRead, bind, Except.bind, pure,
      Except.pure]
  by_cases between : mark loop.servo loop.state = some .UP ∧ loop.prevState = some .DOWN
  case neg =>
    have done : ∃ after, python.body loop row = .ok after := by
      simp [body, raising, numberRead, timeRead, servoRead, yUpleftRead, cellRead, between,
        Except.mapError, bind, Except.bind, pure, Except.pure]
    exact iff_of_true done ⟨_, read, fun isUp wasDown => absurd ⟨isUp, wasDown⟩ between⟩
  cases quotient : python.reflection intensity (loop.prevIntensity.map (·.values)) with
  | error =>
      simp [body, append, raising, read, numberRead, timeRead, servoRead, yUpleftRead, cellRead,
        between, quotient, Except.mapError, bind, Except.bind]
  | ok values =>
      simp [body, append, raising, read, numberRead, timeRead, servoRead, yUpleftRead, cellRead,
        between, quotient, Except.mapError, bind, Except.bind, pure, Except.pure]

/-- An exception leaves the entries as they are. -/
theorem body_error {raised : Raised Number Value} (failed : python.body loop row = .error raised)
    : raised.loop.zs = loop.zs := by
  rcases FallibleRun.bind_error failed with error | ⟨number, -, failed⟩
  · rw [raising_error error]
  rcases FallibleRun.bind_error failed with error | ⟨time, -, failed⟩
  · rw [raising_error error]
  rcases FallibleRun.bind_error failed with error | ⟨servo, -, failed⟩
  · rw [raising_error error]
  rcases FallibleRun.bind_error failed with error | ⟨yUpleft, -, failed⟩
  · rw [raising_error error]
  rcases FallibleRun.bind_error failed with error | ⟨intensity, -, failed⟩
  · rw [raising_error error]
  rcases FallibleRun.bind_error failed with error | ⟨_, -, failed⟩
  · split_ifs at error
    · rcases FallibleRun.bind_error error with error | ⟨values, -, error⟩
      · rw [raising_error error]
      · cases error
    · cases error
  · cases failed

theorem zs_eq (rows : List (MegaRow Cell))
    : python.zs rows = (FallibleRun.reached python.body {} rows).zs := by
  obtain ⟨seen, rest, cut, ran, failed⟩ := FallibleRun.reached_run python.body {} rows
  rw [zs, script]
  cases rest with
  | nil =>
      rw [List.append_nil] at cut
      rw [← cut] at ran
      rw [ran]
  | cons row later =>
      obtain ⟨raised, stopped⟩ := failed row later rfl
      have ended : FallibleRun.run python.body {} rows = .error raised := by
        rw [congrArg (FallibleRun.run python.body {}) cut, FallibleRun.run_append, ran]
        exact congrArg (Except.bind · (FallibleRun.run python.body · later)) stopped
      rw [ended]
      exact body_error stopped

theorem servoIs_append (here : n < seen.length)
    : python.ServoIs (seen ++ rest) n angle ↔ python.ServoIs seen n angle := by
  rw [ServoIs, ServoIs, List.getElem?_append_left here]

theorem servoIs_last
    : python.ServoIs (seen ++ [row]) seen.length angle ↔ python.int row.servo = .ok angle := by
  simp [ServoIs]

theorem ServoIs.unique {other : ℤ} (is : python.ServoIs rows n angle)
    (isOther : python.ServoIs rows n other) : angle = other := by
  obtain ⟨row, here, servo⟩ := is
  obtain ⟨_, again, servoOther⟩ := isOther
  cases here.symm.trans again
  exact Except.ok.inj (servo.symm.trans servoOther)

theorem position_concat
    : python.position (seen ++ [row])
      = mark (python.int row.servo).toOption (python.position seen) := by
  simp [position]

theorem due_append (here : n < seen.length)
    : python.Due (seen ++ rest) n ↔ python.Due seen n := by
  have take (m : ℕ) (before : n = m + 1) : (seen ++ rest).take m = seen.take m :=
    List.take_append_of_le_length (by omega)
  constructor
  · rintro ⟨-, m, before, isUp, wasDown⟩
    exact ⟨here, m, before, (servoIs_append (by omega)).mp isUp, take m before ▸ wasDown⟩
  · rintro ⟨-, m, before, isUp, wasDown⟩
    refine ⟨by simp; omega, m, before, (servoIs_append (by omega)).mpr isUp, ?_⟩
    rw [take m before, wasDown]

theorem mark_up_iff {servo : Option ℤ}
    : mark servo (some .DOWN) = some .UP ↔ servo = some up := by
  unfold mark
  split <;> simp_all

/-- The next row is due exactly if the position has just changed from down to up. -/
theorem due_last
    : python.Due (seen ++ [row]) seen.length
      ↔ python.position seen = some .UP ∧ python.position seen.dropLast = some .DOWN := by
  cases seen using List.reverseRecOn with
  | nil => simp [Due, position]
  | append_singleton early last =>
      have servo
          : (python.int last.servo).toOption = some up ↔ python.int last.servo = .ok up := by
        cases python.int last.servo <;> simp [Except.toOption]
      rw [List.dropLast_concat, position_concat]
      constructor
      · rintro ⟨-, m, before, isUp, wasDown⟩
        obtain rfl : early.length = m := by simpa using before
        rw [List.append_assoc, List.take_left] at wasDown
        rw [servoIs_append (by simp), servoIs_last, ← servo] at isUp
        rw [wasDown, mark_up_iff]
        exact ⟨isUp, rfl⟩
      · rintro ⟨isUp, wasDown⟩
        rw [wasDown, mark_up_iff, servo] at isUp
        refine ⟨by simp, early.length, by simp, ?_, ?_⟩
        · rwa [servoIs_append (by simp), servoIs_last]
        · rwa [List.append_assoc, List.take_left]

/-- The entries after one more row are those before it, and one for the row if it is due. -/
theorem due_concat
    : python.Due (seen ++ [row]) n
      ↔ python.Due seen n ∨ (n = seen.length ∧ python.Due (seen ++ [row]) seen.length) := by
  rcases Nat.lt_trichotomy n seen.length with before | rfl | after
  · rw [due_append before]
    have : n ≠ seen.length := before.ne
    tauto
  · have notSeen : ¬ python.Due seen seen.length := fun due => due.1.false
    tauto
  · have notSeen : ¬ python.Due seen n := fun due => by have := due.1; omega
    have notThere : ¬ python.Due (seen ++ [row]) n := fun due => by
      have := due.1
      simp at this
      omega
    have : n ≠ seen.length := by omega
    tauto

theorem proceeds_append (here : n < seen.length)
    : python.Proceeds (seen ++ rest) n ↔ python.Proceeds seen n := by
  have there (m : ℕ) (before : n = m + 1) : (seen ++ rest)[m]? = seen[m]? :=
    List.getElem?_append_left (by omega)
  unfold Proceeds
  rw [List.getElem?_append_left here, due_append here]
  grind

/-- What the variables hold after the rows that were seen. -/
structure Inv (python : Python Cell Number Value) (seen : List (MegaRow Cell))
    (loop : Loop Number Value) : Prop where
  row : loop.row = seen.length
  position : mark loop.servo loop.state = python.position seen
  prevState : loop.prevState = python.position seen.dropLast
  prevIntensity : ∀ m, seen.length = m + 1
    → ∃ previous before, seen[m]? = some previous ∧ python.columns previous = .ok before
      ∧ loop.prevIntensity = some ⟨m, before.intensity⟩
  numerators : ∀ n, (∃ entry ∈ loop.zs, entry.numerator = n) ↔ python.Due seen n
  denominators : ∀ entry ∈ loop.zs, ∃ n,
    entry.denominator = some n ∧ entry.numerator = n + 1
  proceeds : ∀ n < seen.length, python.Proceeds seen n

theorem inv_init : Inv python [] {} where
  row := rfl
  position := rfl
  prevState := rfl
  prevIntensity _ none := by cases none
  numerators n := by simp [Due]
  denominators entry none := by cases none
  proceeds n none := by cases none

/-- The run gets beyond a row exactly if the row proceeds. -/
theorem Inv.proceeds_iff (inv : Inv python seen loop)
    : (∃ after, python.body loop row = .ok after)
      ↔ python.Proceeds (seen ++ row :: rest) seen.length := by
  have due : python.Due (seen ++ row :: rest) seen.length
      ↔ python.position seen = some .UP ∧ python.position seen.dropLast = some .DOWN := by
    rw [List.append_cons, due_append (by simp), due_last]
  rw [body_ok_iff, inv.position, inv.prevState]
  constructor
  · rintro ⟨columns, read, quotient⟩
    refine ⟨row, columns, by simp, read, ?_⟩
    intro isDue m previous before last there readBefore
    obtain ⟨isUp, wasDown⟩ := due.mp isDue
    obtain ⟨values, taken⟩ := quotient isUp wasDown
    obtain ⟨_, _, here, again, prevIntensity⟩ := inv.prevIntensity m last
    rw [List.getElem?_append_left (by omega), here] at there
    cases there
    cases readBefore.symm.trans again
    exact ⟨values, by simpa [prevIntensity] using taken⟩
  · rintro ⟨_, columns, here, read, quotient⟩
    obtain rfl : row = _ := by simpa using here
    refine ⟨columns, read, fun isUp wasDown => ?_⟩
    have isDue := due.mpr ⟨isUp, wasDown⟩
    obtain ⟨m, last, -⟩ := isDue.2
    obtain ⟨previous, before, there, readBefore, prevIntensity⟩ := inv.prevIntensity m last
    obtain ⟨values, taken⟩ := quotient isDue m previous before last
      (by rwa [List.getElem?_append_left (by omega)]) readBefore
    exact ⟨values, by simpa [prevIntensity] using taken⟩

theorem Inv.body (inv : Inv python seen loop) (done : python.body loop row = .ok after)
    : Inv python (seen ++ [row]) after := by
  obtain ⟨columns, read, counted, servo, state, prevState, prevIntensity, zs⟩ := body_cases done
  rw [inv.position] at state prevState zs
  rw [inv.prevState] at zs
  have due : python.Due (seen ++ [row]) seen.length ↔ _ := due_last
  refine ⟨by simp [counted, inv.row], ?_, by simp [prevState], ?_, ?_, ?_, ?_⟩
  · rw [servo, state, position_concat, columns_servo read]
    rfl
  · intro m last
    obtain rfl : seen.length = m := by simpa using last
    exact ⟨row, columns, by simp, read, by rw [prevIntensity, inv.row]⟩
  · intro n
    rw [due_concat, due, ← inv.numerators n]
    rcases zs with ⟨notDue, zs⟩ | ⟨isUp, wasDown, values, zs⟩
    · simp [zs, notDue]
    · simp [zs, isUp, wasDown, inv.row, or_and_right, exists_or, eq_comm]
  · intro entry appended
    rcases zs with ⟨-, zs⟩ | ⟨isUp, wasDown, values, zs⟩
    · exact inv.denominators entry (zs ▸ appended)
    rcases List.mem_append.mp (zs ▸ appended) with earlier | new
    · exact inv.denominators entry earlier
    obtain ⟨-, m, before, -⟩ := due.mpr ⟨isUp, wasDown⟩
    obtain ⟨_, _, -, -, prevIntensity⟩ := inv.prevIntensity m before
    obtain rfl := List.mem_singleton.mp new
    exact ⟨m, by simp [prevIntensity], by simp [inv.row, before]⟩
  · intro n here
    rcases Nat.lt_or_ge n seen.length with early | late
    · exact (proceeds_append early).mpr (inv.proceeds n early)
    · obtain rfl : seen.length = n := by simp at here; omega
      exact inv.proceeds_iff.mp ⟨after, done⟩

theorem run_inv (ran : FallibleRun.run python.body {} seen = .ok loop) : Inv python seen loop :=
  FallibleRun.run_invariant inv_init (fun _ _ _ _ inv done => inv.body done) ran

/-- The rows that an entry is appended at are those that are due, up to the first exception. -/
theorem zs_numerator_iff
    : (∃ entry ∈ python.zs rows, entry.numerator = n)
      ↔ python.Due rows n ∧ ∀ j ≤ n, python.Proceeds rows j := by
  obtain ⟨seen, rest, rfl, ran, failed⟩ := FallibleRun.reached_run python.body {} rows
  have inv := run_inv ran
  rw [zs_eq, inv.numerators n]
  constructor
  · intro due
    refine ⟨(due_append due.1).mpr due, fun j early => ?_⟩
    have here : j < seen.length := early.trans_lt due.1
    exact (proceeds_append here).mpr (inv.proceeds j here)
  · rintro ⟨due, all⟩
    rcases Nat.lt_or_ge n seen.length with early | late
    · exact (due_append early).mp due
    cases rest with
    | nil => exact absurd due.1 (by simpa using late)
    | cons row later =>
        obtain ⟨e, raised⟩ := failed row later rfl
        obtain ⟨after, done⟩ := inv.proceeds_iff.mpr (all seen.length late)
        cases raised.symm.trans done

/-- An entry is the quotient of the row after the change of the position by the row of the change. -/
theorem zs_rows {entry : Entry Value} (appended : entry ∈ python.zs rows)
    : ∃ n, entry.denominator = some n ∧ entry.numerator = n + 1
      ∧ python.ServoIs rows n up ∧ python.position (rows.take n) = some .DOWN := by
  obtain ⟨seen, rest, -, ran, -⟩ := FallibleRun.reached_run python.body {} rows
  obtain ⟨n, denominator, numerator⟩ :=
    (run_inv ran).denominators entry (zs_eq rows ▸ appended)
  obtain ⟨⟨-, m, before, wasUp, wasDown⟩, -⟩ := zs_numerator_iff.mp ⟨entry, appended, numerator⟩
  obtain rfl : n = m := by omega
  exact ⟨n, denominator, numerator, wasUp, wasDown⟩

variable (python rows)

/-- No entry is of the right rows, so all is right only where there is nothing to do. -/
theorem pairsRight_iff
    : python.PairsRight rows
      ↔ (∀ n, python.ServoIs rows n down → ¬ python.ServoIs rows (n + 1) up)
        ∧ ∀ n, python.Due rows n → ∃ j ≤ n, ¬ python.Proceeds rows j := by
  have never (n : ℕ) (isDown : python.ServoIs rows n down) : ¬ python.ServoIs rows n up :=
    fun isUp => absurd (isDown.unique isUp) (by decide)
  constructor
  · intro right
    constructor
    · intro n isDown isUp
      obtain ⟨entry, appended, -, numerator⟩ := right.pairs n isDown isUp
      obtain ⟨m, -, next, wasUp, -⟩ := zs_rows appended
      obtain rfl : n = m := by omega
      exact never n isDown wasUp
    · intro n due
      by_contra all
      push Not at all
      obtain ⟨entry, appended, numerator⟩ := zs_numerator_iff.mpr ⟨due, all⟩
      obtain ⟨m, -, next, isDown, -⟩ := right.entries entry appended
      obtain ⟨before, -, last, wasUp, -⟩ := zs_rows appended
      obtain rfl : m = before := by omega
      exact never m isDown wasUp
  · rintro ⟨notAdjacent, stopped⟩
    refine ⟨fun entry appended => ?_, fun n isDown isUp => absurd isUp (notAdjacent n isDown)⟩
    obtain ⟨due, all⟩ := zs_numerator_iff.mp ⟨entry, appended, rfl⟩
    obtain ⟨j, early, not⟩ := stopped _ due
    exact absurd (all j early) not

end Python

/-- Cells as numbers and lists of numbers. The quotient of two integers has the sign of their
product, and only for a positive one is there a logarithm.
-/
def ofIntegers : Python (ℤ ⊕ List ℤ) ℤ Float where
  int cell :=
    match cell with
    | .inl n => .ok n
    | .inr _ => .error .valueError
  literalEval cell :=
    match cell with
    | .inl _ => .error .typeError
    | .inr list => .ok list
  logRatio x y :=
    if y = 0 then .error .zeroDivisionError
    else if x * y ≤ 0 then .error .valueError
    else .ok ((Float.ofInt x / Float.ofInt y).log * 100)

/-- The servo goes down and up, and no row follows. -/
def downAndUp : List (MegaRow (ℤ ⊕ List ℤ)) :=
  [{ number := .inl 0, timeBootMs := .inl 1000, servo := .inl down, yUpleftCrop := .inl 123,
     data := .inr [200, 210] },
   { number := .inl 1, timeBootMs := .inl 4400, servo := .inl up, yUpleftCrop := .inl 123,
     data := .inr [100, 105] }]

/-- The pair is not divided. -/
theorem downAndUp_not_divided
    : ¬ ∀ rows : List (MegaRow (ℤ ⊕ List ℤ)), ofIntegers.PairsRight rows := by
  intro right
  obtain ⟨entry, appended, -⟩ := (right downAndUp).pairs 0 ⟨_, rfl, rfl⟩ ⟨_, rfl, rfl⟩
  have none : ofIntegers.zs downAndUp = [] := rfl
  simp [none] at appended

end Granum.Ground.Reflection
