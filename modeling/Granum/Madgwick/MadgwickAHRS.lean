import Mathlib

/-! The orientation filter. Its numbers are those of a field, for floats; a quaternion is that of
the sensor frame relative to the earth frame.
-/

namespace Granum.Madgwick

open Quaternion

variable {K : Type} [Field K]

/-- What a sensor measures along its three axes. -/
@[ext] structure Axes (K : Type) where
  x : K
  y : K
  z : K
  deriving DecidableEq, Repr

/-- What the filter computes with: its reciprocal root, the root of the library, and the sample
frequency.
-/
structure Arithmetic (K : Type) where
  invSqrt : K → K
  sqrt : K → K
  sampleFreq : K

namespace Arithmetic

variable (c : Arithmetic K)

def normaliseAxes (a : Axes K) : Axes K :=
  let recipNorm := c.invSqrt (a.x * a.x + a.y * a.y + a.z * a.z)
  ⟨a.x * recipNorm, a.y * recipNorm, a.z * recipNorm⟩

def normalise (q : ℍ[K]) : ℍ[K] :=
  let recipNorm := c.invSqrt (q.re * q.re + q.imI * q.imI + q.imJ * q.imJ + q.imK * q.imK)
  ⟨q.re * recipNorm, q.imI * recipNorm, q.imJ * recipNorm, q.imK * recipNorm⟩

/-- `q += qDot * (1.0f / sampleFreq)` -/
def integrate (q qDot : ℍ[K]) : ℍ[K] :=
  ⟨q.re + qDot.re * (1 / c.sampleFreq), q.imI + qDot.imI * (1 / c.sampleFreq),
    q.imJ + qDot.imJ * (1 / c.sampleFreq), q.imK + qDot.imK * (1 / c.sampleFreq)⟩

end Arithmetic

/-- The initial values of `q0` to `q3`. -/
def upright : ℍ[K] := ⟨1, 0, 0, 0⟩

theorem upright_eq_one : (upright : ℍ[K]) = 1 := rfl

/-- `qDot1` to `qDot4`, the rate of change from the gyroscope. -/
def gyroRate (q : ℍ[K]) (g : Axes K) : ℍ[K] :=
  let q0 := q.re
  let q1 := q.imI
  let q2 := q.imJ
  let q3 := q.imK
  ⟨1 / 2 * (-q1 * g.x - q2 * g.y - q3 * g.z),
    1 / 2 * (q0 * g.x + q2 * g.z - q3 * g.y),
    1 / 2 * (q0 * g.y - q1 * g.z + q3 * g.x),
    1 / 2 * (q0 * g.z + q1 * g.y - q2 * g.x)⟩

/-- `qDot -= beta * s` -/
def feedback (beta : K) (qDot s : ℍ[K]) : ℍ[K] :=
  ⟨qDot.re - beta * s.re, qDot.imI - beta * s.imI, qDot.imJ - beta * s.imJ,
    qDot.imK - beta * s.imK⟩

/-- `s0` to `s3` of `MadgwickAHRSupdateIMU`, before they are normalised. -/
def stepIMU (q : ℍ[K]) (a : Axes K) : ℍ[K] :=
  let q0 := q.re
  let q1 := q.imI
  let q2 := q.imJ
  let q3 := q.imK
  let _2q0 := 2 * q0
  let _2q1 := 2 * q1
  let _2q2 := 2 * q2
  let _2q3 := 2 * q3
  let _4q0 := 4 * q0
  let _4q1 := 4 * q1
  let _4q2 := 4 * q2
  let _8q1 := 8 * q1
  let _8q2 := 8 * q2
  let q0q0 := q0 * q0
  let q1q1 := q1 * q1
  let q2q2 := q2 * q2
  let q3q3 := q3 * q3
  ⟨_4q0 * q2q2 + _2q2 * a.x + _4q0 * q1q1 - _2q1 * a.y,
    _4q1 * q3q3 - _2q3 * a.x + 4 * q0q0 * q1 - _2q0 * a.y - _4q1 + _8q1 * q1q1 + _8q1 * q2q2
      + _4q1 * a.z,
    4 * q0q0 * q2 + _2q0 * a.x + _4q2 * q3q3 - _2q3 * a.y - _4q2 + _8q2 * q1q1 + _8q2 * q2q2
      + _4q2 * a.z,
    4 * q1q1 * q3 - _2q1 * a.x + 4 * q2q2 * q3 - _2q2 * a.y⟩

/-- `_2bx` and `_2bz`, the direction of the magnetic field of the earth. -/
structure Reference (K : Type) where
  bx : K
  bz : K

/-- `hx`, `hy` and `_2bz`, the measured field in the frame of the earth. -/
def earthField (q : ℍ[K]) (m : Axes K) : Axes K :=
  let q0 := q.re
  let q1 := q.imI
  let q2 := q.imJ
  let q3 := q.imK
  let _2q0mx := 2 * q0 * m.x
  let _2q0my := 2 * q0 * m.y
  let _2q0mz := 2 * q0 * m.z
  let _2q1mx := 2 * q1 * m.x
  let _2q1 := 2 * q1
  let _2q2 := 2 * q2
  let q0q0 := q0 * q0
  let q1q1 := q1 * q1
  let q2q2 := q2 * q2
  let q3q3 := q3 * q3
  ⟨m.x * q0q0 - _2q0my * q3 + _2q0mz * q2 + m.x * q1q1 + _2q1 * m.y * q2 + _2q1 * m.z * q3
      - m.x * q2q2 - m.x * q3q3,
    _2q0mx * q3 + m.y * q0q0 - _2q0mz * q1 + _2q1mx * q2 - m.y * q1q1 + m.y * q2q2
      + _2q2 * m.z * q3 - m.y * q3q3,
    -_2q0mx * q2 + _2q0my * q1 + m.z * q0q0 + _2q1mx * q3 - m.z * q1q1 + _2q2 * m.y * q3
      - m.z * q2q2 + m.z * q3q3⟩

def Arithmetic.reference (c : Arithmetic K) (q : ℍ[K]) (m : Axes K) : Reference K :=
  let h := earthField q m
  ⟨c.sqrt (h.x * h.x + h.y * h.y), h.z⟩

/-- `s0` to `s3` of `MadgwickAHRSupdate`, before they are normalised. -/
def stepMARG (b : Reference K) (q : ℍ[K]) (a m : Axes K) : ℍ[K] :=
  let q0 := q.re
  let q1 := q.imI
  let q2 := q.imJ
  let q3 := q.imK
  let _2q0 := 2 * q0
  let _2q1 := 2 * q1
  let _2q2 := 2 * q2
  let _2q3 := 2 * q3
  let _2q0q2 := 2 * q0 * q2
  let _2q2q3 := 2 * q2 * q3
  let q0q1 := q0 * q1
  let q0q2 := q0 * q2
  let q0q3 := q0 * q3
  let q1q1 := q1 * q1
  let q1q2 := q1 * q2
  let q1q3 := q1 * q3
  let q2q2 := q2 * q2
  let q2q3 := q2 * q3
  let q3q3 := q3 * q3
  let _2bx := b.bx
  let _2bz := b.bz
  let _4bx := 2 * _2bx
  let _4bz := 2 * _2bz
  ⟨-_2q2 * (2 * q1q3 - _2q0q2 - a.x) + _2q1 * (2 * q0q1 + _2q2q3 - a.y)
      - _2bz * q2 * (_2bx * (1 / 2 - q2q2 - q3q3) + _2bz * (q1q3 - q0q2) - m.x)
      + (-_2bx * q3 + _2bz * q1) * (_2bx * (q1q2 - q0q3) + _2bz * (q0q1 + q2q3) - m.y)
      + _2bx * q2 * (_2bx * (q0q2 + q1q3) + _2bz * (1 / 2 - q1q1 - q2q2) - m.z),
    _2q3 * (2 * q1q3 - _2q0q2 - a.x) + _2q0 * (2 * q0q1 + _2q2q3 - a.y)
      - 4 * q1 * (1 - 2 * q1q1 - 2 * q2q2 - a.z)
      + _2bz * q3 * (_2bx * (1 / 2 - q2q2 - q3q3) + _2bz * (q1q3 - q0q2) - m.x)
      + (_2bx * q2 + _2bz * q0) * (_2bx * (q1q2 - q0q3) + _2bz * (q0q1 + q2q3) - m.y)
      + (_2bx * q3 - _4bz * q1) * (_2bx * (q0q2 + q1q3) + _2bz * (1 / 2 - q1q1 - q2q2) - m.z),
    -_2q0 * (2 * q1q3 - _2q0q2 - a.x) + _2q3 * (2 * q0q1 + _2q2q3 - a.y)
      - 4 * q2 * (1 - 2 * q1q1 - 2 * q2q2 - a.z)
      + (-_4bx * q2 - _2bz * q0) * (_2bx * (1 / 2 - q2q2 - q3q3) + _2bz * (q1q3 - q0q2) - m.x)
      + (_2bx * q1 + _2bz * q3) * (_2bx * (q1q2 - q0q3) + _2bz * (q0q1 + q2q3) - m.y)
      + (_2bx * q0 - _4bz * q2) * (_2bx * (q0q2 + q1q3) + _2bz * (1 / 2 - q1q1 - q2q2) - m.z),
    _2q1 * (2 * q1q3 - _2q0q2 - a.x) + _2q2 * (2 * q0q1 + _2q2q3 - a.y)
      + (-_4bx * q3 + _2bz * q1) * (_2bx * (1 / 2 - q2q2 - q3q3) + _2bz * (q1q3 - q0q2) - m.x)
      + (-_2bx * q0 + _2bz * q2) * (_2bx * (q1q2 - q0q3) + _2bz * (q0q1 + q2q3) - m.y)
      + _2bx * q1 * (_2bx * (q0q2 + q1q3) + _2bz * (1 / 2 - q1q1 - q2q2) - m.z)⟩

-----------------------------------------------------------------------------------------
-- What the steps correct

/-- The measured acceleration, missed by the vertical. -/
def gravityResidual (q : ℍ[K]) (a : Axes K) : Axes K :=
  ⟨2 * (q.imI * q.imK - q.re * q.imJ) - a.x,
    2 * (q.re * q.imI + q.imJ * q.imK) - a.y,
    1 - 2 * (q.imI * q.imI + q.imJ * q.imJ) - a.z⟩

/-- The measured field, missed by half the reference. -/
def fieldResidual (b : Reference K) (q : ℍ[K]) (m : Axes K) : Axes K :=
  ⟨b.bx * (1 / 2 - (q.imJ * q.imJ + q.imK * q.imK))
      + b.bz * (q.imI * q.imK - q.re * q.imJ) - m.x,
    b.bx * (q.imI * q.imJ - q.re * q.imK) + b.bz * (q.re * q.imI + q.imJ * q.imK) - m.y,
    b.bx * (q.re * q.imJ + q.imI * q.imK)
      + b.bz * (1 / 2 - (q.imI * q.imI + q.imJ * q.imJ)) - m.z⟩

/-- Half the squared length. -/
def Axes.energy (r : Axes K) : K := r.x ^ 2 / 2 + r.y ^ 2 / 2 + r.z ^ 2 / 2

def half (x : K) : K := x / 2

-----------------------------------------------------------------------------------------
-- The operations on quaternions

theorem Arithmetic.normalise_eq (c : Arithmetic K) (q : ℍ[K])
    : c.normalise q = c.invSqrt (normSq q) • q := by
  ext <;> simp [normalise, normSq_def', sq, mul_comm]

theorem Arithmetic.integrate_feedback (c : Arithmetic K) (beta : K) (q qDot s : ℍ[K])
    : c.integrate q (feedback beta qDot s)
      = q + (1 / c.sampleFreq) • qDot - (beta / c.sampleFreq) • s := by
  ext <;> simp only [integrate, feedback, re_add, re_sub, re_smul, imI_add, imI_sub, imI_smul,
    imJ_add, imJ_sub, imJ_smul, imK_add, imK_sub, imK_smul, smul_eq_mul] <;> ring

theorem gyroRate_zero (g : Axes K) : gyroRate (0 : ℍ[K]) g = 0 := by
  ext <;> simp [gyroRate]

-----------------------------------------------------------------------------------------
-- The updates

variable [DecidableEq K]

namespace Arithmetic

variable (c : Arithmetic K)

def madgwickAHRSupdateIMU (beta : K) (q : ℍ[K]) (g a : Axes K) : ℍ[K] :=
  let qDot := gyroRate q g
  let qDot :=
    if ¬(a.x = 0 ∧ a.y = 0 ∧ a.z = 0) then
      feedback beta qDot (c.normalise (stepIMU q (c.normaliseAxes a)))
    else
      qDot
  c.normalise (c.integrate q qDot)

def madgwickAHRSupdate (beta : K) (q : ℍ[K]) (g a m : Axes K) : ℍ[K] :=
  if m.x = 0 ∧ m.y = 0 ∧ m.z = 0 then
    c.madgwickAHRSupdateIMU beta q g a
  else
    let qDot := gyroRate q g
    let qDot :=
      if ¬(a.x = 0 ∧ a.y = 0 ∧ a.z = 0) then
        let a := c.normaliseAxes a
        let m := c.normaliseAxes m
        feedback beta qDot (c.normalise (stepMARG (c.reference q m) q a m))
      else
        qDot
    c.normalise (c.integrate q qDot)

end Arithmetic

/-- A corrective step, before it is normalised: none at a measurement of zero. -/
def Arithmetic.correction (c : Arithmetic K) (q : ℍ[K]) (a m : Axes K) : ℍ[K] :=
  if a.x = 0 ∧ a.y = 0 ∧ a.z = 0 then
    0
  else if m.x = 0 ∧ m.y = 0 ∧ m.z = 0 then
    stepIMU q (c.normaliseAxes a)
  else
    stepMARG (c.reference q (c.normaliseAxes m)) q (c.normaliseAxes a) (c.normaliseAxes m)

/-- One formula for both updates, with and without a measurement. -/
theorem Arithmetic.madgwickAHRSupdate_eq (c : Arithmetic K) (beta : K) (q : ℍ[K]) (g a m : Axes K)
    : c.madgwickAHRSupdate beta q g a m
      = c.normalise (q + (1 / c.sampleFreq) • gyroRate q g
          - (beta / c.sampleFreq) • c.normalise (c.correction q a m)) := by
  have silent : feedback beta (gyroRate q g) (c.normalise 0) = gyroRate q g := by
    ext <;> simp [feedback, normalise]
  rw [← integrate_feedback]
  unfold madgwickAHRSupdate madgwickAHRSupdateIMU correction
  by_cases still : a.x = 0 ∧ a.y = 0 ∧ a.z = 0
  · simp only [still, and_self, not_true_eq_false, ↓reduceIte, ite_self, silent]
  · by_cases unmagnetic : m.x = 0 ∧ m.y = 0 ∧ m.z = 0
    · simp only [still, unmagnetic, and_self, not_false_eq_true, ↓reduceIte]
    · simp only [still, unmagnetic, not_false_eq_true, ↓reduceIte]

/-- A quaternion of zero attracts no correction. -/
theorem Arithmetic.correction_zero (c : Arithmetic K) (a m : Axes K) : c.correction 0 a m = 0 := by
  unfold correction
  split_ifs <;> ext <;> simp [stepIMU, stepMARG]

-----------------------------------------------------------------------------------------
-- Runs

/-- What one update gets: the gain of the time, and the measurements. -/
structure Update (K : Type) where
  beta : K
  g : Axes K
  a : Axes K
  m : Axes K

namespace Arithmetic

variable (c : Arithmetic K)

/-- The quaternion after a list of updates. -/
def run (q : ℍ[K]) (updates : List (Update K)) : ℍ[K] :=
  updates.foldl (fun q u => c.madgwickAHRSupdate u.beta q u.g u.a u.m) q

theorem run_append (q : ℍ[K]) (seen later : List (Update K))
    : c.run q (seen ++ later) = c.run (c.run q seen) later :=
  List.foldl_append

theorem run_cons (q : ℍ[K]) (u : Update K) (later : List (Update K))
    : c.run q (u :: later) = c.run (c.madgwickAHRSupdate u.beta q u.g u.a u.m) later :=
  rfl

theorem run_concat (q : ℍ[K]) (seen : List (Update K)) (u : Update K)
    : c.run q (seen ++ [u]) = c.madgwickAHRSupdate u.beta (c.run q seen) u.g u.a u.m :=
  c.run_append q seen [u]

end Arithmetic

end Granum.Madgwick
