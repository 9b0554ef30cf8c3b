import Granum.Library.SortedSet

/-! The telemetry store: for each kind of message a sorted set of what was received, scored
with the time of reception. The stored text is the dictionary of the message alone, so that
a message that is received again only moves.
-/

namespace Granum.Ground

/-- The sorted sets of the Redis data base, by their names. -/
abbrev RedisStore (Json : Type) [LinearOrder Json] := String → SortedSet Json ℚ

/-- A call of `update_zset`, with the milliseconds that its clock reads. -/
structure ZsetUpdate (Message : Type) where
  timestamp : ℕ
  setName : String
  message : Message
  deriving DecidableEq, Repr

section

variable {Message Json : Type}

-- the JSON text of the dictionary of a message, and the seconds of `MAV_PLOT_DATA_PBACK`
variable (dumps : Message → Json) (putback : ℚ)

/-- All that is older than this is removed by the call. -/
def ZsetUpdate.deadline (u : ZsetUpdate Message) : ℚ := u.timestamp - putback * 1000

/-- The calls for a set that are later than a deadline. -/
def receptions (updates : List (ZsetUpdate Message)) (setName : String) (deadline : ℚ)
    : List (ZsetUpdate Message) :=
  updates.filter fun u => u.setName = setName ∧ deadline < u.timestamp

/-- Two calls for one set with one text, the second while the first is to be kept. -/
def Repeats (u v : ZsetUpdate Message) : Prop :=
  u.setName = v.setName ∧ dumps u.message = dumps v.message ∧ v.deadline putback < u.timestamp

variable {dumps putback}

theorem mem_receptions {updates : List (ZsetUpdate Message)} {setName : String} {deadline : ℚ}
    {u : ZsetUpdate Message}
    : u ∈ receptions updates setName deadline
      ↔ u ∈ updates ∧ u.setName = setName ∧ deadline < u.timestamp := by
  simp [receptions]

/-- The receptions before a call have different texts, unless two calls repeat. -/
theorem receptions_nodup (updates : List (ZsetUpdate Message)) (u : ZsetUpdate Message)
    (nondecreasing : (updates ++ [u]).Pairwise (·.timestamp ≤ ·.timestamp))
    (unrepeated : (updates ++ [u]).Pairwise fun v w => ¬Repeats dumps putback v w)
    : ((receptions (updates ++ [u]) u.setName (u.deadline putback)).map
        (dumps ·.message)).Nodup := by
  refine List.pairwise_map.mpr ?_
  refine (unrepeated.filter _).imp_of_mem ?_
  intro v w receivedV receivedW apart text
  obtain ⟨-, setV, keptV⟩ := mem_receptions.mp receivedV
  obtain ⟨called, setW, -⟩ := mem_receptions.mp receivedW
  have order : (w.timestamp : ℚ) ≤ u.timestamp := by
    rcases List.mem_append.mp called with earlier | last
    · exact_mod_cast (List.pairwise_append.mp nondecreasing).2.2 w earlier u (by simp)
    · rw [List.mem_singleton.mp last]
  refine apart ⟨setV.trans setW.symm, text, ?_⟩
  simp only [ZsetUpdate.deadline] at keptV ⊢
  linarith

/-- A call that repeats an earlier one is received with it, under one text. -/
theorem Repeats.not_nodup {updates : List (ZsetUpdate Message)} {u v : ZsetUpdate Message}
    (repeats : Repeats dumps putback v u) (called : v ∈ updates)
    (order : v.timestamp ≤ u.timestamp)
    : ¬((receptions (updates ++ [u]) u.setName (u.deadline putback)).map
        (dumps ·.message)).Nodup := by
  obtain ⟨sameSet, text, kept⟩ := repeats
  have order : (v.timestamp : ℚ) ≤ u.timestamp := by exact_mod_cast order
  have last : receptions [u] u.setName (u.deadline putback) = [u] := by
    simp [receptions, kept.trans_le order]
  have first : v ∈ receptions updates u.setName (u.deadline putback) :=
    mem_receptions.mpr ⟨called, sameSet, kept⟩
  rw [receptions, List.filter_append, List.map_append]
  intro nodup
  refine (List.nodup_append.mp nodup).2.2 _ (List.mem_map_of_mem first) _ ?_ text
  rw [← receptions, last]
  simp

variable [LinearOrder Json] (dumps putback)

/-- The message is stored as it is, and what is too old removed afterwards. -/
def updateZset (store : RedisStore Json) (u : ZsetUpdate Message) : RedisStore Json :=
  let added := Function.update store u.setName
    ((store u.setName).zadd u.timestamp (dumps u.message))
  Function.update added u.setName
    ((added u.setName).zremrangebyscore 0 (u.deadline putback))

/-- The store after some calls, empty before the first. -/
def storeAfter (updates : List (ZsetUpdate Message)) : RedisStore Json :=
  updates.foldl (updateZset dumps putback) fun _ => .empty

/-- What a set holds after some calls: only what they have stored and none has removed, and
all that they have stored later than every deadline.
-/
structure Retains (set : SortedSet Json ℚ) (updates : List (ZsetUpdate Message)) : Prop where
  traced : ∀ e ∈ set.entries, (∀ u ∈ updates, u.deadline putback < e.2)
    ∧ ∃ u ∈ updates, dumps u.message = e.1 ∧ (u.timestamp : ℚ) = e.2
  kept : ∀ u ∈ updates, (∀ v ∈ updates, v.deadline putback < u.timestamp)
    → ∃ e ∈ set.entries, e.1 = dumps u.message ∧ (u.timestamp : ℚ) ≤ e.2

variable {dumps putback}

@[simp] theorem storeAfter_append (updates : List (ZsetUpdate Message)) (u : ZsetUpdate Message)
    : storeAfter dumps putback (updates ++ [u])
      = updateZset dumps putback (storeAfter dumps putback updates) u := by
  simp [storeAfter]

theorem updateZset_same (store : RedisStore Json) (u : ZsetUpdate Message)
    : updateZset dumps putback store u u.setName
      = ((store u.setName).zadd u.timestamp (dumps u.message)).zremrangebyscore 0
          (u.deadline putback) := by
  simp [updateZset]

theorem updateZset_other (store : RedisStore Json) (u : ZsetUpdate Message) {setName : String}
    (other : setName ≠ u.setName)
    : updateZset dumps putback store u setName = store setName := by
  simp [updateZset, other]

/-- A call keeps track of its set, as no call before it is later. -/
theorem Retains.updated {set : SortedSet Json ℚ} {updates : List (ZsetUpdate Message)}
    (retains : Retains dumps putback set updates) (u : ZsetUpdate Message)
    (latest : ∀ v ∈ updates, v.timestamp ≤ u.timestamp)
    : Retains dumps putback
        ((set.zadd u.timestamp (dumps u.message)).zremrangebyscore 0 (u.deadline putback))
        (updates ++ [u]) := by
  have deadlines : ∀ v ∈ updates, v.deadline putback ≤ u.deadline putback := by
    intro v earlier
    have order : (v.timestamp : ℚ) ≤ u.timestamp := by exact_mod_cast latest v earlier
    simp only [ZsetUpdate.deadline]
    linarith
  constructor
  case traced =>
    intro e stored
    obtain ⟨stored, remains⟩ := (SortedSet.mem_zremrangebyscore _ _ _ _).mp stored
    rcases (SortedSet.mem_zadd _ _ _ _).mp stored with rfl | ⟨old, -⟩
    · have fresh : u.deadline putback < u.timestamp := by
        simpa using remains
      refine ⟨?_, u, by simp, rfl, rfl⟩
      intro v called
      rcases List.mem_append.mp called with earlier | last
      · exact (deadlines v earlier).trans_lt fresh
      · rw [List.mem_singleton.mp last]
        exact fresh
    · obtain ⟨later, w, called, text, time⟩ := retains.traced e old
      refine ⟨?_, w, by simp [called], text, time⟩
      intro v called
      rcases List.mem_append.mp called with earlier | last
      · exact later v earlier
      · rw [List.mem_singleton.mp last]
        have positive : (0 : ℚ) ≤ e.2 := time ▸ Nat.cast_nonneg _
        simpa [positive] using remains
  case kept =>
    intro w called later
    have fresh : u.deadline putback < w.timestamp := later u (by simp)
    have survives : ∀ e ∈ (set.zadd u.timestamp (dumps u.message)).entries,
        (w.timestamp : ℚ) ≤ e.2
        → e ∈ ((set.zadd u.timestamp (dumps u.message)).zremrangebyscore 0
            (u.deadline putback)).entries := by
      intro e stored order
      refine (SortedSet.mem_zremrangebyscore _ _ _ _).mpr ⟨stored, ?_⟩
      rintro ⟨-, old⟩
      linarith
    have order : (w.timestamp : ℚ) ≤ u.timestamp := by
      rcases List.mem_append.mp called with earlier | last
      · exact_mod_cast latest w earlier
      · rw [List.mem_singleton.mp last]
    by_cases repeated : dumps w.message = dumps u.message
    · exact ⟨(dumps u.message, u.timestamp), survives _ (by simp) order, repeated.symm, order⟩
    · have earlier : w ∈ updates := by
        rcases List.mem_append.mp called with earlier | last
        · exact earlier
        · exact absurd (congrArg (dumps ·.message) (List.mem_singleton.mp last)) repeated
      obtain ⟨e, stored, text, time⟩ := retains.kept w earlier fun v called =>
        later v (List.mem_append_left _ called)
      refine ⟨e, survives e ?_ time, text, time⟩
      exact (SortedSet.mem_zadd _ _ _ _).mpr (.inr ⟨stored, text ▸ repeated⟩)

/-- Every set keeps track of the calls for it, by induction on the run. -/
theorem storeAfter_retains (updates : List (ZsetUpdate Message))
    (nondecreasing : updates.Pairwise (·.timestamp ≤ ·.timestamp)) (setName : String)
    : Retains dumps putback (storeAfter dumps putback updates setName)
        (updates.filter (·.setName = setName)) := by
  induction updates using List.reverseRecOn with
  | nil =>
      constructor
      · simp [storeAfter, SortedSet.empty]
      · simp
  | append_singleton updates u ih =>
      obtain ⟨before, -, latest⟩ := List.pairwise_append.mp nondecreasing
      rw [storeAfter_append, List.filter_append]
      by_cases same : u.setName = setName
      · subst same
        rw [updateZset_same, List.filter_cons_of_pos (by simp), List.filter_nil]
        exact (ih before).updated u fun v called =>
          latest v (List.mem_of_mem_filter called) u (by simp)
      · rw [updateZset_other _ _ (Ne.symm same), List.filter_cons_of_neg (by simpa using same),
          List.filter_nil, List.append_nil]
        exact ih before

/-- After a call its set has as many elements as calls for it were made within the time that
is kept, exactly if no two of these have stored the same text.
-/
theorem zcard_storeAfter (updates : List (ZsetUpdate Message)) (u : ZsetUpdate Message)
    (nondecreasing : (updates ++ [u]).Pairwise (·.timestamp ≤ ·.timestamp))
    : (storeAfter dumps putback (updates ++ [u]) u.setName).zcard
          = (receptions (updates ++ [u]) u.setName (u.deadline putback)).length
      ↔ ((receptions (updates ++ [u]) u.setName (u.deadline putback)).map
          (dumps ·.message)).Nodup := by
  have retains : Retains dumps putback _ _ := storeAfter_retains _ nondecreasing u.setName
  have latest : ∀ v ∈ (updates ++ [u]).filter (·.setName = u.setName),
      v.deadline putback ≤ u.deadline putback := by
    intro v called
    have order : v.timestamp ≤ u.timestamp := by
      rcases List.mem_append.mp (List.mem_of_mem_filter called) with earlier | last
      · exact (List.pairwise_append.mp nondecreasing).2.2 v earlier u (by simp)
      · rw [List.mem_singleton.mp last]
    have order : (v.timestamp : ℚ) ≤ u.timestamp := by exact_mod_cast order
    simp only [ZsetUpdate.deadline]
    linarith
  rw [← List.length_map (dumps ·.message)]
  refine SortedSet.zcard_eq_length_iff _ _ fun text => ?_
  simp only [SortedSet.members, List.mem_map]
  constructor
  · rintro ⟨e, stored, rfl⟩
    obtain ⟨later, v, called, text, time⟩ := retains.traced e stored
    obtain ⟨called, sameSet⟩ := List.mem_filter.mp called
    have kept : u.deadline putback < v.timestamp := time ▸ later u (by simp)
    exact ⟨v, mem_receptions.mpr ⟨called, by simpa using sameSet, kept⟩, text⟩
  · rintro ⟨v, received, rfl⟩
    obtain ⟨called, sameSet, kept⟩ := mem_receptions.mp received
    obtain ⟨e, stored, text, -⟩ := retains.kept v
      (List.mem_filter.mpr ⟨called, by simpa using sameSet⟩)
      fun w called => (latest w called).trans_lt kept
    exact ⟨e, stored, text⟩

theorem pairwise_iff_split {α : Type*} {r : α → α → Prop} {l : List α}
    : l.Pairwise r ↔ ∀ before a rest, l = before ++ a :: rest → ∀ b ∈ before, r b a := by
  constructor
  · rintro pairwise before a rest rfl b earlier
    exact (List.pairwise_append.mp pairwise).2.2 b earlier a (by simp)
  · intro split
    induction l using List.reverseRecOn with
    | nil => exact .nil
    | append_singleton l a ih =>
        refine List.pairwise_append.mpr ⟨?_, List.pairwise_singleton _ _, ?_⟩
        · refine ih fun before b rest cut => split before b (rest ++ [a]) ?_
          simp [cut]
        · intro b earlier c last
          rw [List.mem_singleton.mp last]
          exact split l a [] rfl b earlier

/-- The sets hold every reception of the time that is kept, exactly if no two calls of the
run repeat.
-/
theorem receptions_kept_iff (dumps : Message → Json) (putback : ℚ)
    (updates : List (ZsetUpdate Message))
    (nondecreasing : updates.Pairwise (·.timestamp ≤ ·.timestamp))
    : (∀ seen u rest, updates = seen ++ u :: rest
        → (storeAfter dumps putback (seen ++ [u]) u.setName).zcard
          = (receptions (seen ++ [u]) u.setName (u.deadline putback)).length)
      ↔ updates.Pairwise fun u v => ¬Repeats dumps putback u v := by
  have prefixes : ∀ {seen u rest}, updates = seen ++ u :: rest → (seen ++ [u]).Sublist updates := by
    rintro seen u rest rfl
    simp
  constructor
  · intro keeps
    refine pairwise_iff_split.mpr ?_
    intro seen u rest cut v called repeats
    have ordered := nondecreasing.sublist (prefixes cut)
    exact repeats.not_nodup called ((List.pairwise_append.mp ordered).2.2 v called u (by simp))
      ((zcard_storeAfter seen u ordered).mp (keeps seen u rest cut))
  · intro unrepeated seen u rest cut
    have ordered := nondecreasing.sublist (prefixes cut)
    exact (zcard_storeAfter seen u ordered).mpr
      (receptions_nodup seen u ordered (unrepeated.sublist (prefixes cut)))

end

/-- The fields of a `SONAR` message, as its dictionary lists them. -/
def sonarDict (timeBootMs distance : ℕ) : List (String × String) :=
  [("mavpackettype", "\"SONAR\""), ("time_boot_ms", toString timeBootMs),
    ("distance", toString distance)]

/-- The text of a dictionary whose values are printed already. -/
def dumpsPrinted (dict : List (String × String)) : String :=
  "\x7b" ++ ", ".intercalate (dict.map fun (key, value) => "\"" ++ key ++ "\": " ++ value) ++ "\x7d"

/-- A measurement of the sonar that is received at some time. -/
def sonarReceived (timestamp : ℕ) : ZsetUpdate (List (String × String)) where
  timestamp := timestamp
  setName := "granum:distance"
  message := sonarDict 70 12

/-- Of two receptions of one measurement in the last two minutes one is kept. -/
theorem equal_contents_lost :
    ¬∀ seen u rest, [sonarReceived 5000, sonarReceived 5001] = seen ++ u :: rest
      → (storeAfter dumpsPrinted 120 (seen ++ [u]) u.setName).zcard
        = (receptions (seen ++ [u]) u.setName (u.deadline 120)).length := by
  intro keeps
  have repeats : Repeats dumpsPrinted 120 (sonarReceived 5000) (sonarReceived 5001) := by
    refine ⟨rfl, rfl, ?_⟩
    norm_num [ZsetUpdate.deadline, sonarReceived]
  have distinct := (zcard_storeAfter [sonarReceived 5000] (sonarReceived 5001) (by decide)).mp
    (keeps [sonarReceived 5000] (sonarReceived 5001) [] rfl)
  exact repeats.not_nodup (List.mem_singleton_self _) (by decide) distinct

/-- Two different measurements are both kept. -/
theorem receptions_kept_iff_different :
    let measured : List (ZsetUpdate (List (String × String))) :=
      [sonarReceived 5000, { sonarReceived 5001 with message := sonarDict 71 12 }]
    (∀ seen u rest, measured = seen ++ u :: rest
        → (storeAfter dumpsPrinted 120 (seen ++ [u]) u.setName).zcard
          = (receptions (seen ++ [u]) u.setName (u.deadline 120)).length)
      ↔ measured.Pairwise fun u v => ¬Repeats dumpsPrinted 120 u v :=
  receptions_kept_iff dumpsPrinted 120 _ (by decide)

end Granum.Ground
