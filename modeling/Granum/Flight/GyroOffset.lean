import Granum.Flight.MadgwickThread

/-! A constant offset of the gyroscope. The average of the prologue takes it up, and the loop
subtracts it again. In a field nothing is rounded; floats keep what the sums and differences lose.
-/

namespace Granum.Flight

open Granum.Madgwick

variable {K : Type} [Field K] {p : MadgwickPrologue K} {b : Axes K}

/-- A gyroscope with an offset. -/
def Mpu6000Record.biased (b : Axes K) (record : Mpu6000Record K) : Mpu6000Record K :=
  { record with
    gyro := ⟨record.gyro.x + b.x, record.gyro.y + b.y, record.gyro.z + b.z⟩ }

def MadgwickReading.biased (b : Axes K) (reading : MadgwickReading K) : MadgwickReading K :=
  { reading with mpu := reading.mpu.map (Mpu6000Record.biased b) }

/-- What `record_mpu` holds before the first read has no offset. -/
def MadgwickPrologue.biased (b : Axes K) (p : MadgwickPrologue K) : MadgwickPrologue K where
  record := p.record
  settling n := (p.settling n).map (Mpu6000Record.biased b)
  averaged n := (p.averaged n).map (Mpu6000Record.biased b)

namespace MadgwickPrologue

/-- The sums of `n` reads that all have the offset. -/
def shifted (b : Axes K) (n : ℕ) (sums : Axes K) : Axes K :=
  ⟨sums.x + n * b.x, sums.y + n * b.y, sums.z + n * b.z⟩

theorem read_biased (record : Mpu6000Record K) (result : Option (Mpu6000Record K))
    : read (record.biased b) (result.map (Mpu6000Record.biased b))
      = (read record result).biased b := by
  cases result <;> rfl

/-- By induction on the reads. -/
theorem foldl_read_biased (record : Mpu6000Record K) (results : List (Option (Mpu6000Record K)))
    : (results.map (Option.map (Mpu6000Record.biased b))).foldl read (record.biased b)
      = (results.foldl read record).biased b := by
  induction results generalizing record with
  | nil => rfl
  | cons result rest ih =>
      rw [List.map_cons, List.foldl_cons, List.foldl_cons, read_biased]
      exact ih _

omit [Field K] in
/-- A read that succeeds makes up for what was held before, by induction on the reads. -/
theorem foldl_read_congr {results : List (Option (Mpu6000Record K))}
    (success : ∃ result ∈ results, result.isSome) (record other : Mpu6000Record K)
    : results.foldl read record = results.foldl read other := by
  induction results generalizing record other with
  | nil =>
      obtain ⟨_, member, _⟩ := success
      exact absurd member List.not_mem_nil
  | cons result rest ih =>
      cases result with
      | some _ => rfl
      | none =>
          apply ih
          simpa using success

/-- The sums with the offset, by induction on the reads. -/
theorem foldl_accumulate_biased (record : Mpu6000Record K) (sums : Axes K) (n : ℕ)
    (results : List (Option (Mpu6000Record K)))
    : ((results.map (Option.map (Mpu6000Record.biased b))).foldl accumulate
          (record.biased b, shifted b n sums)).2
      = shifted b (n + results.length) (results.foldl accumulate (record, sums)).2 := by
  induction results generalizing record sums n with
  | nil => rfl
  | cons result rest ih =>
      have step : accumulate (record.biased b, shifted b n sums)
            (result.map (Mpu6000Record.biased b))
          = ((accumulate (record, sums) result).1.biased b,
              shifted b (n + 1) (accumulate (record, sums) result).2) := by
        rw [accumulate, read_biased]
        refine Prod.ext rfl ?_
        ext <;> simp [accumulate, shifted, Mpu6000Record.biased] <;> ring
      rw [List.map_cons, List.foldl_cons, step, ih, List.foldl_cons, List.length_cons]
      rw [Nat.add_right_comm, Nat.add_assoc]

/-- The sums take up the offset, if a read succeeds before the first that is averaged or is that
one.
-/
theorem gyroSums_biased (success : (∃ n, (p.settling n).isSome) ∨ (p.averaged 0).isSome)
    : (p.biased b).gyroSums = shifted b 10 p.gyroSums := by
  have settling : List.ofFn (p.biased b).settling
      = (List.ofFn p.settling).map (Option.map (Mpu6000Record.biased b)) :=
    (List.map_ofFn ..).symm
  have averaged : List.ofFn (p.biased b).averaged
      = (List.ofFn p.averaged).map (Option.map (Mpu6000Record.biased b)) :=
    (List.map_ofFn ..).symm
  have zero : shifted b 0 ⟨0, 0, 0⟩ = (⟨0, 0, 0⟩ : Axes K) := by simp [shifted]
  have tracked := foldl_accumulate_biased (b := b) ((List.ofFn p.settling).foldl read p.record)
    ⟨0, 0, 0⟩ 0 (List.ofFn p.averaged)
  rw [zero, List.length_ofFn, Nat.zero_add] at tracked
  rw [gyroSums, gyroSums, ← tracked, settling, averaged]
  rcases success with ⟨n, settled⟩ | first
  · have member : ((p.settling n).map (Mpu6000Record.biased b))
        ∈ (List.ofFn p.settling).map (Option.map (Mpu6000Record.biased b)) :=
      List.mem_map_of_mem (List.mem_ofFn.mpr ⟨n, rfl⟩)
    have congruent := foldl_read_congr ⟨_, member, by simpa using settled⟩ p.record
      (p.record.biased b)
    rw [foldl_read_biased] at congruent
    exact congrArg (fun record => (List.foldl accumulate (record, ⟨0, 0, 0⟩) _).2) congruent
  · obtain ⟨record, here⟩ := Option.isSome_iff_exists.mp first
    have split : List.ofFn p.averaged = some record :: List.ofFn fun n => p.averaged n.succ := by
      rw [List.ofFn_succ, here]
    rw [split]
    rfl

theorem gyroErr_biased (ten : (10 : K) ≠ 0)
    (success : (∃ n, (p.settling n).isSome) ∨ (p.averaged 0).isSome)
    : (p.biased b).gyroErr
      = ⟨p.gyroErr.x + b.x, p.gyroErr.y + b.y, p.gyroErr.z + b.z⟩ := by
  rw [gyroErr, gyroSums_biased success]
  ext <;> simp only [shifted, gyroErr, Nat.cast_ofNat] <;> field_simp

end MadgwickPrologue

variable [LinearOrder K] [FloorRing K] {c : Arithmetic K}

section Loop

variable {gyroErr : Axes K}

omit [LinearOrder K] [FloorRing K] in
theorem remapped_biased (beta : K) (mpu : Mpu6000Record K) (lsm : Lsm303cRecord K)
    : remapped ⟨gyroErr.x + b.x, gyroErr.y + b.y, gyroErr.z + b.z⟩ beta (mpu.biased b) lsm
      = remapped gyroErr beta mpu lsm := by
  simp only [remapped, Mpu6000Record.biased, add_sub_add_right_eq_sub]

theorem telemetry_biased (mpu : Mpu6000Record K) (lsm : Lsm303cRecord K)
    : telemetry ⟨gyroErr.x + b.x, gyroErr.y + b.y, gyroErr.z + b.z⟩ (mpu.biased b) lsm
      = telemetry gyroErr mpu lsm := by
  funext q
  simp only [telemetry, scaledImu, Mpu6000Record.biased, add_sub_add_right_eq_sub]

/-- A pass subtracts the offset. -/
theorem madgwickPass_biased (s : MadgwickState K) (reading : MadgwickReading K)
    : madgwickPass c ⟨gyroErr.x + b.x, gyroErr.y + b.y, gyroErr.z + b.z⟩ s (reading.biased b)
      = madgwickPass c gyroErr s reading := by
  obtain ⟨_ | mpu, _ | lsm⟩ := reading
  · rfl
  · rfl
  · rfl
  · simp only [madgwickPass, MadgwickReading.biased, Option.map_some, remapped_biased,
      telemetry_biased]

end Loop

/-- In exact arithmetic, a gyroscope with a constant offset changes neither the attitude nor the
telemetry of any run, if a read succeeds before the first that is averaged or is that one.
-/
theorem offset_invisible [IsStrictOrderedRing K]
    (success : (∃ n, (p.settling n).isSome) ∨ (p.averaged 0).isSome) (c : Arithmetic K)
    (b : Axes K) (readings : List (MadgwickReading K))
    : (madgwickThread c (p.biased b)).finish .start (readings.map (MadgwickReading.biased b))
        = (madgwickThread c p).finish .start readings
      ∧ (madgwickThread c (p.biased b)).outputs .start (readings.map (MadgwickReading.biased b))
        = (madgwickThread c p).outputs .start readings := by
  have average := p.gyroErr_biased (b := b) (OfNat.ofNat_ne_zero 10) success
  have step : ∀ s reading, (madgwickThread c (p.biased b)).step s (reading.biased b)
      = (madgwickThread c p).step s reading := fun s reading => by
    rw [madgwickThread, average]
    exact madgwickPass_biased s reading
  exact (madgwickThread c p).run_map step .start readings

/-- A sensor whose every read succeeds. -/
def steadyRecord : Mpu6000Record ℚ := ⟨⟨0, 0⟩, ⟨0, 0, 1⟩, ⟨1, 2, 3⟩⟩

def steadyPrologue : MadgwickPrologue ℚ :=
  ⟨steadyRecord, fun _ => some steadyRecord, fun _ => some steadyRecord⟩

def steadyReading : MadgwickReading ℚ := ⟨some steadyRecord, some ⟨⟨1, 0, 0⟩⟩⟩

theorem offset_invisible_steady
    : (madgwickThread (flightArithmetic id id) (steadyPrologue.biased ⟨1, 1, 1⟩)).finish .start
          ([steadyReading].map (MadgwickReading.biased ⟨1, 1, 1⟩))
        = (madgwickThread (flightArithmetic id id) steadyPrologue).finish .start [steadyReading]
      ∧ (madgwickThread (flightArithmetic id id) (steadyPrologue.biased ⟨1, 1, 1⟩)).outputs .start
          ([steadyReading].map (MadgwickReading.biased ⟨1, 1, 1⟩))
        = (madgwickThread (flightArithmetic id id) steadyPrologue).outputs .start [steadyReading] :=
  offset_invisible (Or.inl ⟨0, rfl⟩) (flightArithmetic id id) ⟨1, 1, 1⟩ [steadyReading]

end Granum.Flight
