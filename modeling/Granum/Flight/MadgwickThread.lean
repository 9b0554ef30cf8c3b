import Granum.Flight.State
import Granum.Library.Mealy
import Granum.Madgwick.UnitNorm

/-! The thread of the orientation filter: what it reads, when it updates, and what it sends.
Its floats are those of an ordered field.
-/

namespace Granum.Flight

open Granum.Madgwick Quaternion

variable {K : Type} [Field K]

/-- What a read of `/dev/mpu0` delivers. -/
structure Mpu6000Record (K : Type) where
  time : Timespec
  acc : Axes K
  gyro : Axes K

/-- What a read of `/dev/mag0` delivers. -/
structure Lsm303cRecord (K : Type) where
  field : Axes K

/-- `SCALED_IMU` -/
structure ScaledImu where
  timeBootMs : UInt32
  acc : Axes Int16
  gyro : Axes Int16
  mag : Axes Int16

/-- `ATTITUDE_QUATERNION`. The thread sets the speeds to zero, and the time with them. -/
structure AttitudeQuaternion (K : Type) where
  timeBootMs : UInt32
  q1 : K
  q2 : K
  q3 : K
  q4 : K
  rollspeed : K
  pitchspeed : K
  yawspeed : K

/-- What the thread sends with `send_telem`. -/
inductive MadgwickMessage (K : Type)
  | scaledImu (message : ScaledImu)
  | attitudeQuaternion (message : AttitudeQuaternion K)

/-- The globals of the filter and the statics of the loop. -/
structure MadgwickState (K : Type) [Field K] where
  q : ℍ[K]
  beta : K
  repetitions : ℕ
  ticker : ℕ

/-- What the devices deliver in one pass of the loop. A failed read has a negative result. -/
structure MadgwickReading (K : Type) where
  mpu : Option (Mpu6000Record K)
  lsm : Option (Lsm303cRecord K)

def dtorad (deg : K) : K := deg * 3.14159265358979323846 / 180

def gtomss (g : K) : K := g * 9.80665

def gausstot (gauss : K) : K := gauss / 10000

/-- The initial values: `betaDef`, and the upright quaternion. -/
def MadgwickState.start : MadgwickState K where
  q := upright
  beta := 10
  repetitions := 0
  ticker := 0

/-- The arithmetic of the flight copy, whose `sampleFreq` is `10.0f`. -/
def flightArithmetic (invSqrt sqrt : K → K) : Arithmetic K where
  invSqrt := invSqrt
  sqrt := sqrt
  sampleFreq := 10

/-- The arguments of `MadgwickAHRSupdate`, remapped to the attitude of the sensors. -/
def remapped (gyroErr : Axes K) (beta : K) (mpu : Mpu6000Record K) (lsm : Lsm303cRecord K)
    : Update K where
  beta := beta
  g := ⟨dtorad (mpu.gyro.x - gyroErr.x), dtorad (mpu.gyro.z - gyroErr.z),
    dtorad (mpu.gyro.y - gyroErr.y)⟩
  a := ⟨gtomss mpu.acc.x, gtomss mpu.acc.z, gtomss mpu.acc.y⟩
  m := ⟨gausstot (-lsm.field.y), gausstot (-lsm.field.z), gausstot (-lsm.field.x)⟩

def attitudeQuaternion (q : ℍ[K]) : AttitudeQuaternion K where
  timeBootMs := 0
  q1 := q.re
  q2 := q.imI
  q3 := q.imJ
  q4 := q.imK
  rollspeed := 0
  pitchspeed := 0
  yawspeed := 0

/-- The block of `repetitions`, which lowers the gain once. -/
def countRepetition (s : MadgwickState K) : MadgwickState K :=
  if s.repetitions < 100 then
    let s := { s with repetitions := s.repetitions + 1 }
    if s.repetitions = 100 then { s with beta := 0.041 } else s
  else
    s

/-- The block of `ticker`, which sends at every fifth update. -/
def sendAtFifth (messages : ℍ[K] → List (MadgwickMessage K)) (s : MadgwickState K)
    : MadgwickState K × List (MadgwickMessage K) :=
  let s := { s with ticker := s.ticker + 1 }
  if s.ticker = 5 then ({ s with ticker := 0 }, messages s.q) else (s, [])

/-- The ten reads that settle the sensor and the ten that are averaged, and what `record_mpu` holds
before them.
-/
structure MadgwickPrologue (K : Type) where
  record : Mpu6000Record K
  settling : Fin 10 → Option (Mpu6000Record K)
  averaged : Fin 10 → Option (Mpu6000Record K)

namespace MadgwickPrologue

/-- `record_mpu` after a read. -/
def read (record : Mpu6000Record K) (result : Option (Mpu6000Record K)) : Mpu6000Record K :=
  result.getD record

/-- A read, and the additions to the sums. -/
def accumulate (state : Mpu6000Record K × Axes K) (result : Option (Mpu6000Record K))
    : Mpu6000Record K × Axes K :=
  let record := read state.1 result
  (record, ⟨state.2.x + record.gyro.x, state.2.y + record.gyro.y, state.2.z + record.gyro.z⟩)

/-- `gyro_err_x`, `gyro_err_y` and `gyro_err_z` before they are divided. -/
def gyroSums (p : MadgwickPrologue K) : Axes K :=
  let record := (List.ofFn p.settling).foldl read p.record
  ((List.ofFn p.averaged).foldl accumulate (record, ⟨0, 0, 0⟩)).2

def gyroErr (p : MadgwickPrologue K) : Axes K :=
  ⟨p.gyroSums.x / 10, p.gyroSums.y / 10, p.gyroSums.z / 10⟩

end MadgwickPrologue

-----------------------------------------------------------------------------------------
-- The gain and the ticker, by the number of updates

/-- The passes in which both reads succeed. -/
def used {K : Type} (readings : List (MadgwickReading K))
    : List (Mpu6000Record K × Lsm303cRecord K) :=
  readings.filterMap fun reading =>
    match reading.mpu, reading.lsm with
    | some mpu, some lsm => some (mpu, lsm)
    | _, _ => none

/-- The gain of the update with this index. -/
def betaAt (n : ℕ) : K := if n < 100 then 10 else 0.041

/-- The updates of the passes that count. -/
def updatesOf (gyroErr : Axes K) (samples : List (Mpu6000Record K × Lsm303cRecord K))
    : List (Update K) :=
  samples.mapIdx fun n sample => remapped gyroErr (betaAt n) sample.1 sample.2

theorem used_concat {K : Type} (readings : List (MadgwickReading K)) (reading : MadgwickReading K)
    : used (readings ++ [reading]) = used readings ++ used [reading] :=
  List.filterMap_append

theorem used_singleton {K : Type} {reading : MadgwickReading K} {mpu : Mpu6000Record K}
    {lsm : Lsm303cRecord K} {rest : List (Mpu6000Record K × Lsm303cRecord K)}
    (counted : used [reading] = (mpu, lsm) :: rest)
    : reading = ⟨some mpu, some lsm⟩ ∧ rest = [] := by
  obtain ⟨_ | mpu, _ | lsm⟩ := reading
  · cases counted
  · cases counted
  · cases counted
  · cases counted
    exact ⟨rfl, rfl⟩

theorem updatesOf_concat {gyroErr : Axes K} (samples : List (Mpu6000Record K × Lsm303cRecord K))
    (mpu : Mpu6000Record K) (lsm : Lsm303cRecord K)
    : updatesOf gyroErr (samples ++ [(mpu, lsm)])
      = updatesOf gyroErr samples ++ [remapped gyroErr (betaAt samples.length) mpu lsm] :=
  List.mapIdx_concat

/-- The gain of the schedule, by what the count has reached. -/
theorem countRepetition_schedule (q : ℍ[K]) (n ticker : ℕ)
    : countRepetition ⟨q, betaAt n, min n 100, ticker⟩
      = ⟨q, betaAt (n + 1), min (n + 1) 100, ticker⟩ := by
  rw [countRepetition]
  rcases Nat.lt_trichotomy (n + 1) 100 with early | last | late
  · have counted : min n 100 = n := by omega
    simp [counted, betaAt, early, early.ne, show n < 100 by omega]
  · obtain rfl : n = 99 := by omega
    rfl
  · have counted : min n 100 = 100 := by omega
    have next : min (n + 1) 100 = 100 := by omega
    simp [counted, next, betaAt, show ¬ n < 100 by omega, show ¬ n + 1 < 100 by omega]

theorem sendAtFifth_schedule (messages : ℍ[K] → List (MadgwickMessage K)) (q : ℍ[K]) (beta : K)
    (repetitions n : ℕ)
    : sendAtFifth messages ⟨q, beta, repetitions, n % 5⟩
      = (⟨q, beta, repetitions, (n + 1) % 5⟩, if (n + 1) % 5 = 0 then messages q else []) := by
  rw [sendAtFifth]
  by_cases fifth : n % 5 + 1 = 5
  · have zero : (n + 1) % 5 = 0 := by omega
    simp [fifth, zero]
  · have next : (n + 1) % 5 = n % 5 + 1 := by omega
    simp [fifth, next]

-----------------------------------------------------------------------------------------
-- The loop

variable [LinearOrder K] [FloorRing K]

/-- The casts of a float to `int` and then to the field of a message. -/
def toInt16 (x : K) : Int16 := Int16.ofInt (if 0 ≤ x then ⌊x⌋ else ⌈x⌉)

def scaledImu (gyroErr : Axes K) (mpu : Mpu6000Record K) (lsm : Lsm303cRecord K) : ScaledImu where
  timeBootMs := mpu.time.tvSec * 1000 + (mpu.time.tvNsec / 1000000).toUInt32
  acc := ⟨toInt16 (mpu.acc.x * 1000), toInt16 (mpu.acc.y * 1000), toInt16 (mpu.acc.z * 1000)⟩
  gyro := ⟨toInt16 (dtorad (mpu.gyro.x - gyroErr.x) * 1000),
    toInt16 (dtorad (mpu.gyro.y - gyroErr.y) * 1000),
    toInt16 (dtorad (mpu.gyro.z - gyroErr.z) * 1000)⟩
  mag := ⟨toInt16 (lsm.field.x / 10), toInt16 (lsm.field.y / 10), toInt16 (lsm.field.z / 10)⟩

/-- The two messages. -/
def telemetry (gyroErr : Axes K) (mpu : Mpu6000Record K) (lsm : Lsm303cRecord K) (q : ℍ[K])
    : List (MadgwickMessage K) :=
  [.scaledImu (scaledImu gyroErr mpu lsm), .attitudeQuaternion (attitudeQuaternion q)]

/-- The body of the loop: a pass with a failed read does nothing. -/
def madgwickPass (c : Arithmetic K) (gyroErr : Axes K) (s : MadgwickState K)
    (reading : MadgwickReading K)
    : MadgwickState K × List (MadgwickMessage K) :=
  match reading.mpu, reading.lsm with
  | some mpu, some lsm =>
      let u := remapped gyroErr s.beta mpu lsm
      let s := { s with q := c.madgwickAHRSupdate u.beta s.q u.g u.a u.m }
      sendAtFifth (telemetry gyroErr mpu lsm) (countRepetition s)
  | _, _ => (s, [])

/-- The loop of the thread, after its prologue. -/
def madgwickThread (c : Arithmetic K) (p : MadgwickPrologue K)
    : Mealy (MadgwickState K) (MadgwickReading K) (MadgwickMessage K) where
  step := madgwickPass c p.gyroErr

/-- The state after the passes that count. -/
def stateAfter (c : Arithmetic K) (gyroErr : Axes K)
    (samples : List (Mpu6000Record K × Lsm303cRecord K))
    : MadgwickState K where
  q := c.run upright (updatesOf gyroErr samples)
  beta := betaAt samples.length
  repetitions := min samples.length 100
  ticker := samples.length % 5

/-- The messages of the pass that counts last. -/
def messagesAfter (c : Arithmetic K) (gyroErr : Axes K)
    (samples : List (Mpu6000Record K × Lsm303cRecord K)) (mpu : Mpu6000Record K)
    (lsm : Lsm303cRecord K)
    : List (MadgwickMessage K) :=
  if (samples.length + 1) % 5 = 0 then
    telemetry gyroErr mpu lsm (stateAfter c gyroErr (samples ++ [(mpu, lsm)])).q
  else
    []

section Schedule

variable (c : Arithmetic K) (gyroErr : Axes K)

/-- A pass that counts leads from one state of the schedule to the next. -/
theorem madgwickPass_some (samples : List (Mpu6000Record K × Lsm303cRecord K))
    (mpu : Mpu6000Record K) (lsm : Lsm303cRecord K)
    : madgwickPass c gyroErr (stateAfter c gyroErr samples) ⟨some mpu, some lsm⟩
      = (stateAfter c gyroErr (samples ++ [(mpu, lsm)]),
          messagesAfter c gyroErr samples mpu lsm) := by
  have advanced : c.madgwickAHRSupdate (betaAt samples.length)
        (c.run upright (updatesOf gyroErr samples))
        (remapped gyroErr (betaAt samples.length) mpu lsm).g
        (remapped gyroErr (betaAt samples.length) mpu lsm).a
        (remapped gyroErr (betaAt samples.length) mpu lsm).m
      = c.run upright (updatesOf gyroErr (samples ++ [(mpu, lsm)])) := by
    rw [updatesOf_concat, Arithmetic.run_concat]
    rfl
  have length : (samples ++ [(mpu, lsm)]).length = samples.length + 1 := by simp
  change sendAtFifth (telemetry gyroErr mpu lsm) (countRepetition
    ⟨c.madgwickAHRSupdate (betaAt samples.length)
        (c.run upright (updatesOf gyroErr samples))
        (remapped gyroErr (betaAt samples.length) mpu lsm).g
        (remapped gyroErr (betaAt samples.length) mpu lsm).a
        (remapped gyroErr (betaAt samples.length) mpu lsm).m,
      betaAt samples.length, min samples.length 100, samples.length % 5⟩) = _
  rw [advanced, countRepetition_schedule, sendAtFifth_schedule, messagesAfter, stateAfter, length]

theorem madgwickPass_failed {reading : MadgwickReading K} (failed : used [reading] = [])
    (s : MadgwickState K)
    : madgwickPass c gyroErr s reading = (s, []) := by
  obtain ⟨mpu, lsm⟩ := reading
  cases mpu with
  | none => rfl
  | some mpu =>
      cases lsm with
      | none => rfl
      | some lsm => exact absurd failed (List.cons_ne_nil _ _)

/-- What the thread sends: the messages of every fifth pass that counts, with the quaternion after
that pass.
-/
def telemetrySent (c : Arithmetic K) (gyroErr : Axes K)
    (samples : List (Mpu6000Record K × Lsm303cRecord K))
    : List (MadgwickMessage K) :=
  (samples.mapIdx fun n sample =>
    messagesAfter c gyroErr (samples.take n) sample.1 sample.2).flatten

theorem telemetrySent_concat (samples : List (Mpu6000Record K × Lsm303cRecord K))
    (mpu : Mpu6000Record K) (lsm : Lsm303cRecord K)
    : telemetrySent c gyroErr (samples ++ [(mpu, lsm)])
      = telemetrySent c gyroErr samples ++ messagesAfter c gyroErr samples mpu lsm := by
  have earlier : (samples.mapIdx fun n sample =>
        messagesAfter c gyroErr ((samples ++ [(mpu, lsm)]).take n) sample.1 sample.2)
      = samples.mapIdx fun n sample =>
        messagesAfter c gyroErr (samples.take n) sample.1 sample.2 := by
    apply List.ext_getElem (by simp)
    intro n inside _
    have short : n ≤ samples.length := by
      rw [List.length_mapIdx] at inside
      exact inside.le
    simp only [List.getElem_mapIdx, List.take_append_of_le_length short]
  rw [telemetrySent, List.mapIdx_concat, List.flatten_append, earlier, telemetrySent]
  simp

/-- A run is that of the passes that count: the gain is lowered after the hundredth, and every
fifth is sent; by induction on the passes, the last of which decides.
-/
theorem madgwickThread_run (p : MadgwickPrologue K) (readings : List (MadgwickReading K))
    : (madgwickThread c p).finish .start readings = stateAfter c p.gyroErr (used readings)
      ∧ (madgwickThread c p).outputs .start readings
        = telemetrySent c p.gyroErr (used readings) := by
  induction readings using List.reverseRecOn with
  | nil => exact ⟨rfl, rfl⟩
  | append_singleton readings reading ih =>
      rw [Mealy.finish_concat, Mealy.outputs_concat, ih.1, ih.2, used_concat]
      rcases counted : used [reading] with _ | ⟨⟨mpu, lsm⟩, rest⟩
      · have pass := madgwickPass_failed c p.gyroErr counted
          (stateAfter c p.gyroErr (used readings))
        rw [List.append_nil]
        exact ⟨congrArg Prod.fst pass, (congrArg (_ ++ Prod.snd ·) pass).trans (List.append_nil _)⟩
      · obtain ⟨rfl, rfl⟩ := used_singleton counted
        have pass := madgwickPass_some c p.gyroErr (used readings) mpu lsm
        rw [telemetrySent_concat]
        exact ⟨congrArg Prod.fst pass, congrArg (_ ++ Prod.snd ·) pass⟩

end Schedule

-----------------------------------------------------------------------------------------
-- The norm

section Norm

open SphereDescent

variable {root sqrt : ℝ → ℝ} {tolerance : ℝ}

theorem near_upright (nonneg : 0 ≤ tolerance) : Near tolerance (upright : ℍ[ℝ]) := by
  rw [upright_eq_one]
  constructor <;> rw [norm_one] <;> linarith

/-- The updates after the hundredth have the lower gain. -/
theorem beta_of_mem_later (gyroErr : Axes ℝ)
    {seen : List (Mpu6000Record ℝ × Lsm303cRecord ℝ)} (settled : 100 ≤ seen.length)
    (later : List (Mpu6000Record ℝ × Lsm303cRecord ℝ))
    : ∃ rest : List (Update ℝ),
        updatesOf gyroErr (seen ++ later) = updatesOf gyroErr seen ++ rest
        ∧ ∀ u ∈ rest, u.beta = 0.041 := by
  refine ⟨_, List.mapIdx_append, ?_⟩
  intro u member
  obtain ⟨n, inside, rfl⟩ := List.mem_mapIdx.mp member
  exact if_neg (by omega)

/-- The telemetry never carries a quaternion that is off the unit sphere by more than the tolerance,
unless the attitude is lost; and it cannot be lost after the hundredth update.
-/
theorem madgwickThread_norm (reciprocal : ReciprocalRoot root tolerance) (nonneg : 0 ≤ tolerance)
    (below : tolerance ≤ 9 / 10) (p : MadgwickPrologue ℝ) (seen later : List (MadgwickReading ℝ))
    : (Near tolerance
          ((madgwickThread (flightArithmetic root sqrt) p).finish .start seen).q
        ∨ ((madgwickThread (flightArithmetic root sqrt) p).finish .start seen).q = 0
          ∧ ((madgwickThread (flightArithmetic root sqrt) p).finish .start (seen ++ later)).q = 0)
      ∧ (100 ≤ (used seen).length
        → ((madgwickThread (flightArithmetic root sqrt) p).finish .start seen).q ≠ 0
        → Near tolerance
          ((madgwickThread (flightArithmetic root sqrt) p).finish .start (seen ++ later)).q) := by
  have start := near_upright nonneg
  have arithmetic : ReciprocalRoot (flightArithmetic root sqrt).invSqrt tolerance := reciprocal
  rw [(madgwickThread_run _ p seen).1, (madgwickThread_run _ p (seen ++ later)).1]
  have counted : used (seen ++ later) = used seen ++ used later := List.filterMap_append
  rw [counted]
  constructor
  · have before : updatesOf p.gyroErr (used seen)
        <+: updatesOf p.gyroErr (used seen ++ used later) :=
      ⟨_, List.mapIdx_append.symm⟩
    exact (Arithmetic.run_norm arithmetic nonneg (by linarith) start _ _ before).1
  · intro settled found
    obtain ⟨rest, split, gains⟩ := beta_of_mem_later p.gyroErr settled (used later)
    have here := (Arithmetic.run_near_or_zero arithmetic nonneg (by linarith) start
      (updatesOf p.gyroErr (used seen))).resolve_right found
    change Near tolerance ((flightArithmetic root sqrt).run upright
      (updatesOf p.gyroErr (used seen ++ used later)))
    rw [split, Arithmetic.run_append]
    refine Arithmetic.run_near arithmetic nonneg (by linarith) rest ?_ here
    intro u member
    rw [gains u member]
    change |(0.041 : ℝ) / 10| * (1 + tolerance) < 1 - tolerance
    rw [abs_of_nonneg (by norm_num)]
    norm_num
    linarith

/-- An upright sensor at rest, in a field to the north. -/
def restingRecord : Mpu6000Record ℝ := ⟨⟨0, 0⟩, ⟨0, 1, 0⟩, ⟨0, 0, 0⟩⟩

def restingPrologue : MadgwickPrologue ℝ :=
  ⟨restingRecord, fun _ => some restingRecord, fun _ => some restingRecord⟩

def restingReading : MadgwickReading ℝ := ⟨some restingRecord, some ⟨⟨0, -1, 0⟩⟩⟩

noncomputable def restingArithmetic : Arithmetic ℝ := flightArithmetic (fun x => (√x)⁻¹) Real.sqrt

/-- Upright, there is nothing to correct. -/
theorem update_resting (beta a m : ℝ)
    : restingArithmetic.madgwickAHRSupdate beta 1 ⟨0, 0, 0⟩ ⟨0, 0, a⟩ ⟨m, 0, 0⟩ = 1 := by
  have silent : gyroRate (1 : ℍ[ℝ]) ⟨0, 0, 0⟩ = 0 := by
    ext <;> simp [gyroRate]
  have still : restingArithmetic.correction 1 ⟨0, 0, a⟩ ⟨m, 0, 0⟩ = 0 := by
    unfold Arithmetic.correction
    split_ifs <;> ext <;> simp [stepIMU, stepMARG, Arithmetic.normaliseAxes,
      Arithmetic.reference, earthField]
  have root : restingArithmetic.normalise 1 = 1 := by
    simp [Arithmetic.normalise_eq, restingArithmetic, flightArithmetic]
  rw [Arithmetic.madgwickAHRSupdate_eq, silent, still, Arithmetic.normalise_eq _ 0, smul_zero,
    smul_zero, smul_zero, add_zero, sub_zero, root]

/-- The counters of a pass leave the quaternion as it is. -/
theorem madgwickPass_q (c : Arithmetic ℝ) (gyroErr : Axes ℝ) (s : MadgwickState ℝ)
    (mpu : Mpu6000Record ℝ) (lsm : Lsm303cRecord ℝ)
    : (madgwickPass c gyroErr s ⟨some mpu, some lsm⟩).1.q
      = c.madgwickAHRSupdate s.beta s.q (remapped gyroErr s.beta mpu lsm).g
          (remapped gyroErr s.beta mpu lsm).a (remapped gyroErr s.beta mpu lsm).m := by
  simp only [madgwickPass, sendAtFifth, countRepetition]
  split_ifs <;> rfl

/-- By induction on the number of passes, the last of which decides. -/
theorem finish_resting (n : ℕ)
    : ((madgwickThread restingArithmetic restingPrologue).finish .start
        (List.replicate n restingReading)).q = 1 := by
  have offset : restingPrologue.gyroErr = ⟨0, 0, 0⟩ := by
    simp [MadgwickPrologue.gyroErr, MadgwickPrologue.gyroSums, MadgwickPrologue.accumulate,
      MadgwickPrologue.read, restingPrologue, restingRecord]
  induction n with
  | zero => rfl
  | succ n ih =>
      rw [List.replicate_succ', Mealy.finish_concat]
      refine (madgwickPass_q _ _ _ _ _).trans ?_
      rw [ih, offset]
      simpa [remapped, restingRecord, dtorad, gtomss, gausstot] using update_resting _ _ _

/-- After a hundred passes the gain is low. -/
theorem madgwickThread_norm_resting
    : Near 0 ((madgwickThread restingArithmetic restingPrologue).finish .start
        (List.replicate 100 restingReading ++ List.replicate 50 restingReading)).q := by
  have counted : (used (List.replicate 100 restingReading)).length = 100 := rfl
  refine (madgwickThread_norm ReciprocalRoot.exact le_rfl (by norm_num) restingPrologue
    (List.replicate 100 restingReading) (List.replicate 50 restingReading)).2 counted.ge ?_
  exact ne_of_eq_of_ne (finish_resting 100) one_ne_zero

end Norm

end Granum.Flight
