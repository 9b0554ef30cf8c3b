import Granum.Ground.SpectrumAggregator

/-! Which intact transmissions a channel delivers. A listener that still accumulates passes
over the header, and takes the packets for those of the transmission it is waiting for.
-/

namespace Granum.Ground

namespace Channel

variable {α : Type} {c : Channel α}

/-- The payloads from the awaited index on are appended. -/
def advanced (c : Channel α) (payloads : List (List α)) : Channel α where
  listener := { c.listener with
    wholeData := c.listener.wholeData ++ (payloads.drop c.indexWeWaitFor).flatten }
  indexWeWaitFor := max payloads.length c.indexWeWaitFor

theorem advanced_nil (c : Channel α) : c.advanced [] = c := by
  simp only [advanced, List.drop_nil, List.flatten_nil, List.append_nil, List.length_nil,
    Nat.zero_max]

/-- A packet before the awaited one appends nothing, the awaited one its payload. -/
theorem advanced_concat (payloads : List (List α)) (data : List α)
    : c.advanced (payloads ++ [data])
      = if payloads.length < c.indexWeWaitFor then c.advanced payloads
        else (c.advanced payloads).extended data := by
  split
  case isTrue early =>
    rw [advanced, advanced, List.drop_eq_nil_of_le early.le,
      List.drop_eq_nil_of_le (by simpa using early), List.length_append, List.length_singleton,
      Nat.max_eq_right early.le, Nat.max_eq_right early]
  case isFalse due =>
    have reached := not_lt.mp due
    simp only [advanced, extended, List.drop_append_of_le_length reached, List.flatten_append,
      List.length_append, List.length_singleton, List.flatten_singleton, List.append_assoc,
      Nat.max_eq_left reached, Nat.max_eq_left (reached.trans (Nat.le_succ _))]

/-- The packets `0, 1, …` at an accumulating channel, by induction from the last one: once
the awaited number of packets is reached it is idle, and until then it has appended the
payloads from the awaited index on.
-/
theorem finish_packets_accum (accum : c.listener.state = .accum) (payloads : List (List α))
    : (c.indexWeWaitFor < c.listener.dataPacketsCount
          ∧ c.listener.dataPacketsCount ≤ payloads.length
        → ((channel α).finish c (packets payloads)).listener.state = .idle)
      ∧ (¬ (c.indexWeWaitFor < c.listener.dataPacketsCount
          ∧ c.listener.dataPacketsCount ≤ payloads.length)
        → (channel α).finish c (packets payloads) = c.advanced payloads) := by
  induction payloads using List.reverseRecOn with
  | nil =>
      refine ⟨fun reached => absurd reached.2 (by simp; omega), fun _ => ?_⟩
      exact c.advanced_nil.symm
  | append_singleton payloads data ih =>
      obtain ⟨reachedBefore, openBefore⟩ := ih
      have waiting : (c.advanced payloads).listener.state = .accum := accum
      rw [packets_concat, Mealy.finish_concat, List.length_append, List.length_singleton,
        advanced_concat]
      change (_ → (accept _ _).1.listener.state = _) ∧ (_ → (accept _ _).1 = _)
      by_cases reached : c.indexWeWaitFor < c.listener.dataPacketsCount
          ∧ c.listener.dataPacketsCount ≤ payloads.length
      · -- already complete: the packet finds an idle listener
        rw [accept_data_idle (reachedBefore reached)]
        exact ⟨fun _ => reachedBefore reached, fun notYet => absurd ⟨reached.1, by omega⟩ notYet⟩
      · rw [openBefore reached]
        rcases Nat.lt_or_ge payloads.length c.indexWeWaitFor with early | due
        · -- the packet comes before the awaited index
          rw [accept_data_early waiting (lt_max_of_lt_right early), if_pos early]
          exact ⟨fun complete => absurd complete (by omega), fun _ => rfl⟩
        · -- the packet is the awaited one
          have awaited : payloads.length = (c.advanced payloads).indexWeWaitFor :=
            (Nat.max_eq_left due).symm
          rw [if_neg due.not_gt]
          by_cases last : payloads.length + 1 = c.listener.dataPacketsCount
          · rw [accept_data_complete waiting awaited last]
            exact ⟨fun _ => rfl, fun notYet => absurd ⟨by omega, by omega⟩ notYet⟩
          · rw [accept_data_extend waiting awaited last]
            exact ⟨fun complete => absurd complete (by omega), fun _ => rfl⟩

/-- What the packet after the packets `0, 1, …` delivers at an accumulating channel. -/
theorem accept_last_accum (accum : c.listener.state = .accum) (payloads : List (List α))
    (data : List α)
    : (((channel α).finish c (packets payloads)).accept (.data ⟨payloads.length, data⟩)).2
      = if c.indexWeWaitFor < c.listener.dataPacketsCount
            ∧ c.listener.dataPacketsCount = payloads.length + 1
          then [{ data := (c.listener.wholeData
                    ++ ((payloads ++ [data]).drop c.indexWeWaitFor).flatten).take
                    c.listener.totalSize
                  identifier := c.listener.numberOfWholePackages }]
          else [] := by
  obtain ⟨whenReached, whenOpen⟩ := finish_packets_accum accum payloads
  have waiting : (c.advanced payloads).listener.state = .accum := accum
  by_cases reached : c.indexWeWaitFor < c.listener.dataPacketsCount
      ∧ c.listener.dataPacketsCount ≤ payloads.length
  · rw [accept_data_idle (whenReached reached), if_neg (by omega)]
  · rw [whenOpen reached]
    rcases Nat.lt_or_ge payloads.length c.indexWeWaitFor with early | due
    · rw [accept_data_early waiting (lt_max_of_lt_right early), if_neg (by omega)]
    · have awaited : payloads.length = (c.advanced payloads).indexWeWaitFor :=
        (Nat.max_eq_left due).symm
      by_cases last : payloads.length + 1 = c.listener.dataPacketsCount
      · rw [accept_data_complete waiting awaited last, if_pos ⟨by omega, last.symm⟩,
          List.drop_append_of_le_length due, List.flatten_append, ← List.append_assoc,
          List.flatten_singleton]
        rfl
      · rw [accept_data_extend waiting awaited last,
          if_neg (fun complete => last complete.2.symm)]

/-- The channel delivers an intact transmission that starts now: it is idle, or it waits for
as many packets, has not passed them all, and what it holds makes up the data with the
packets from the awaited one on.
-/
def Recovers (c : Channel α) (t : Transmission α) : Prop :=
  c.listener.state = .idle
  ∨ (c.listener.state = .accum
    ∧ c.indexWeWaitFor < t.payloads.length
    ∧ c.listener.dataPacketsCount = t.payloads.length
    ∧ (c.listener.wholeData ++ (t.payloads.drop c.indexWeWaitFor).flatten).take
        c.listener.totalSize = t.data)

/-- An idle channel delivers the transmission, since the header makes it accumulate from an
empty list; an accumulating one does in the case of `Recovers`.
-/
theorem recovers_iff {t : Transmission α} {payloads : List (List α)} {data : List α}
    (split : t.payloads = payloads ++ [data])
    : (∃ identifier,
        (((channel α).finish c (.header t.header :: packets payloads)).accept
          (.data ⟨payloads.length, data⟩)).2 = [⟨t.data, identifier⟩])
      ↔ c.Recovers t := by
  have count : t.payloads.length = payloads.length + 1 := by simp [split]
  rw [Mealy.finish_cons]
  cases state : c.listener.state with
  | idle =>
      refine iff_of_true ?_ (Or.inl state)
      refine ⟨c.listener.numberOfWholePackages, ?_⟩
      rw [show (channel α).step c (.header t.header) = _ from accept_header_idle state _,
        accept_last_accum rfl]
      simp [opened, Transmission.header, Transmission.data, split]
  | accum =>
      have recovers : c.Recovers t
          ↔ c.indexWeWaitFor < t.payloads.length
            ∧ c.listener.dataPacketsCount = t.payloads.length
            ∧ (c.listener.wholeData ++ (t.payloads.drop c.indexWeWaitFor).flatten).take
                c.listener.totalSize = t.data := by
        simp [Recovers, state]
      rw [show (channel α).step c (.header t.header) = _ from accept_header_accum state _,
        accept_last_accum state, recovers, count, ← split]
      split
      case isTrue complete =>
        simp only [List.cons.injEq, Delivery.mk.injEq, and_true, exists_and_left,
          exists_eq', complete.2]
        constructor
        · intro same
          exact ⟨by omega, trivial, same⟩
        · intro whole
          exact whole.2.2
      case isFalse incomplete =>
        apply iff_of_false (by simp)
        intro whole
        exact incomplete ⟨by omega, whole.2.1⟩

end Channel

/-- After any history, an intact transmission whose packets arrive in order on one channel,
among any messages of the other, is handed to the acceptor at its last packet exactly when
the channel recovers it. Witness: a channel runs on its own messages alone.
-/
theorem recovered_iff (kind : Kind) (history before : List Message) (last : Message)
    (t : Transmission kind.Elem) (nonempty : t.payloads ≠ [])
    (final : (last.on kind).isSome)
    (delivered : (before ++ [last]).filterMap (Message.on kind) = t.messages)
    : (∃ identifier, callsAt kind (history ++ before) last = [⟨t.data, identifier⟩])
      ↔ ((stateAfter history).channel kind).Recovers t := by
  obtain ⟨payloads, data, split⟩ : ∃ payloads data, t.payloads = payloads ++ [data] :=
    ⟨_, _, (List.dropLast_append_getLast nonempty).symm⟩
  obtain ⟨own, concerned⟩ := Option.isSome_iff_exists.mp final
  have messages : before.filterMap (Message.on kind) ++ [own]
      = (.header t.header :: packets payloads) ++ [.data ⟨payloads.length, data⟩] := by
    rw [List.filterMap_append, List.filterMap_cons_some concerned, List.filterMap_nil,
      Transmission.messages, split, packets_concat] at delivered
    exact delivered
  obtain ⟨earlier, lastOwn⟩ := List.append_inj' messages rfl
  obtain rfl : own = .data ⟨payloads.length, data⟩ := List.head_eq_of_cons_eq lastOwn
  rw [callsAt_eq concerned, channel_stateAfter_append, earlier]
  exact Channel.recovers_iff split

/-- Two pictures of two packets each. -/
def firstPicture : Transmission UInt8 := ⟨506, [List.replicate 253 1, List.replicate 253 2]⟩

def secondPicture : Transmission UInt8 := ⟨506, [List.replicate 253 3, List.replicate 253 4]⟩

/-- The first picture loses its last packet and is sent again. -/
theorem recovered_first_picture
    : ∃ identifier,
        callsAt .picture
          ([.pictureHeader firstPicture.header, .encapsulatedData ⟨0, List.replicate 253 1⟩]
            ++ [.pictureHeader firstPicture.header,
              .encapsulatedData ⟨0, List.replicate 253 1⟩])
          (.encapsulatedData ⟨1, List.replicate 253 2⟩)
          = [⟨firstPicture.data, identifier⟩] := by
  refine (recovered_iff .picture
    [.pictureHeader firstPicture.header, .encapsulatedData ⟨0, List.replicate 253 1⟩] _ _
    firstPicture (by decide) rfl (by decide +kernel)).mpr (Or.inr ?_)
  exact ⟨by decide +kernel, by decide +kernel, by decide +kernel, by decide +kernel⟩

/-- The second picture is intact, but the first one has lost its last packet. -/
theorem second_picture_not_recovered
    : ¬ ∀ (kind : Kind) (history before : List Message) (last : Message)
        (t : Transmission kind.Elem),
        t.payloads ≠ [] → (last.on kind).isSome
        → (before ++ [last]).filterMap (Message.on kind) = t.messages
        → ∃ identifier, callsAt kind (history ++ before) last = [⟨t.data, identifier⟩] := by
  intro recovered
  let history : List Message :=
    [.pictureHeader firstPicture.header, .encapsulatedData ⟨0, List.replicate 253 1⟩]
  let before : List Message :=
    [.pictureHeader secondPicture.header, .encapsulatedData ⟨0, List.replicate 253 3⟩]
  obtain ⟨identifier, delivered⟩ := recovered .picture history before
    (.encapsulatedData ⟨1, List.replicate 253 4⟩) secondPicture (by decide) rfl
    (by decide +kernel)
  have mixed : callsAt .picture (history ++ before) (.encapsulatedData ⟨1, List.replicate 253 4⟩)
      = [⟨List.replicate 253 1 ++ List.replicate 253 4, 0⟩] := by decide +kernel
  rw [mixed] at delivered
  have same : List.replicate 253 1 ++ List.replicate 253 4 = secondPicture.data :=
    congrArg Delivery.data (List.head_eq_of_cons_eq delivered)
  exact absurd same (by decide +kernel)

end Granum.Ground
