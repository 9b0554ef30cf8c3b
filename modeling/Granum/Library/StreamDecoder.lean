import Mathlib

/-! Decoding a stream that arrives in chunks: what is unread is kept, and a decoder is called
on it as long as it makes progress. If every frame is decoded from its own bytes and no
proper prefix of them is, the frames do not depend on the cuts.
-/

/-- A decoder with its buffer. One call may read from the buffer and answer with values, or
fail; `stalled` is the failure of a call that answers without reading.
-/
structure StreamDecoder (σ β α ε : Type*) where
  unread : σ → List β
  append : σ → List β → σ
  unread_append : ∀ s chunk, unread (append s chunk) = unread s ++ chunk
  decode : σ → Except ε (List α) × σ
  stalled : ε

namespace StreamDecoder

variable {σ β α ε γ : Type*} (d : StreamDecoder σ β α ε)

/-- Calls the decoder until nothing is unread, it makes no progress, or it fails. -/
def drain (s : σ) : Except ε Unit × List α × σ :=
  if (d.unread s).isEmpty then (.ok (), [], s) else
  match d.decode s with
  | (.error e, t) => (.error e, [], t)
  | (.ok out, t) =>
      if (d.unread t).length < (d.unread s).length then
        let (result, more, last) := drain t
        (result, out ++ more, last)
      else if out.isEmpty then (.ok (), [], t)
      else (.error d.stalled, out, t)
  termination_by (d.unread s).length

/-- Appends the chunks one after the other, and drains the buffer after each. -/
def feed (s : σ) : List (List β) → Except ε Unit × List α × σ
  | [] => (.ok (), [], s)
  | chunk :: rest =>
      match d.drain (d.append s chunk) with
      | (.error e, out, t) => (.error e, out, t)
      | (.ok (), out, t) =>
          let (result, more, last) := feed t rest
          (result, out ++ more, last)

/-- The decoder recognises the frames `encode a` as `value a`: it reads a whole frame, and
leaves a proper prefix of one unread.
-/
structure Recognises (encode : γ → List β) (value : γ → α) : Prop where
  nonempty : ∀ a, encode a ≠ []
  whole : ∀ a rest s, d.unread s = encode a ++ rest
    → ∃ t, d.decode s = (.ok [value a], t) ∧ d.unread t = rest
  proper : ∀ a s, d.unread s <+: encode a → d.unread s ≠ encode a
    → ∃ t, d.decode s = (.ok [], t) ∧ d.unread t = d.unread s

variable {d} {encode : γ → List β} {value : γ → α}

/-- A whole frame at the front is decoded first, and draining goes on with the rest. -/
theorem Recognises.drain_whole (recognises : d.Recognises encode value) (a : γ) (rest : List β)
    (s : σ) (front : d.unread s = encode a ++ rest)
    : ∃ t, d.unread t = rest ∧ d.drain s =
        ((d.drain t).1, value a :: (d.drain t).2.1, (d.drain t).2.2) := by
  obtain ⟨t, decoded, left⟩ := recognises.whole a rest s front
  have nonempty := List.length_pos_of_ne_nil (recognises.nonempty a)
  have progress : (d.unread t).length < (d.unread s).length := by
    simp only [left, front, List.length_append]
    omega
  have unfinished : (d.unread s).isEmpty = false := by
    simp [front, recognises.nonempty a]
  refine ⟨t, left, ?_⟩
  rw [drain.eq_def]
  simp [unfinished, decoded, progress]

/-- A proper prefix of a frame is left unread. -/
theorem Recognises.drain_proper (recognises : d.Recognises encode value) (a : γ) (s : σ)
    (cut : d.unread s <+: encode a) (proper : d.unread s ≠ encode a)
    : ∃ t, d.unread t = d.unread s ∧ d.drain s = (.ok (), [], t) := by
  rw [drain.eq_def]
  by_cases empty : (d.unread s).isEmpty
  · exact ⟨s, rfl, if_pos empty⟩
  · obtain ⟨t, decoded, left⟩ := recognises.proper a s cut proper
    exact ⟨t, left, by simp [empty, decoded, left]⟩

/-- Draining the first part of some frames yields those that are whole in it, by induction on
the frames; a rest remains only if something is still to come.
-/
theorem Recognises.drain_frames (recognises : d.Recognises encode value) (frames : List γ)
    (s : σ) (future : List β) (stream : d.unread s ++ future = frames.flatMap encode)
    : ∃ done left t, frames = done ++ left ∧ d.drain s = (.ok (), done.map value, t)
        ∧ d.unread t ++ future = left.flatMap encode ∧ (future = [] → left = []) := by
  induction frames generalizing s with
  | nil =>
      have empty : d.unread s = [] := (List.append_eq_nil_iff.mp stream).1
      refine ⟨[], [], s, rfl, ?_, stream, fun _ => rfl⟩
      rw [drain.eq_def]
      simp [empty]
  | cons a frames ih =>
      rw [List.flatMap_cons] at stream
      rcases List.append_eq_append_iff.mp stream with ⟨more, whole, rest⟩ | ⟨more, front, rest⟩
      · by_cases complete : more = []
        · have front : d.unread s = encode a ++ [] := by simp [whole, complete]
          obtain ⟨t, unread, drained⟩ := recognises.drain_whole a [] s front
          obtain ⟨done, left, last, split, tail, remains, settled⟩ :=
            ih t (by simp [unread, rest, complete])
          exact ⟨a :: done, left, last, by simp [split], by simp [drained, tail], remains,
            settled⟩
        · have proper : d.unread s ≠ encode a := by
            intro same
            exact complete (List.self_eq_append_right.mp (same.trans whole))
          obtain ⟨t, unread, drained⟩ := recognises.drain_proper a s ⟨more, whole.symm⟩ proper
          refine ⟨[], a :: frames, t, rfl, by simp [drained], by simpa [unread] using stream, ?_⟩
          intro ended
          exact absurd (List.append_eq_nil_iff.mp (rest.symm.trans ended)).1 complete
      · obtain ⟨t, unread, drained⟩ := recognises.drain_whole a more s front
        obtain ⟨done, left, last, split, tail, remains, settled⟩ :=
          ih t (by rw [unread, rest])
        exact ⟨a :: done, left, last, by simp [split], by simp [drained, tail], remains, settled⟩

/-- However a stream of whole frames is cut into chunks, exactly its frames are decoded, in
order, and nothing is left unread.
-/
theorem Recognises.feed_frames (recognises : d.Recognises encode value)
    (chunks : List (List β)) (frames : List γ) (s : σ)
    (stream : d.unread s ++ chunks.flatten = frames.flatMap encode)
    (settled : chunks.flatten = [] → frames = [])
    : ∃ t, d.feed s chunks = (.ok (), frames.map value, t) ∧ d.unread t = [] := by
  induction chunks generalizing frames s with
  | nil =>
      obtain rfl := settled rfl
      exact ⟨s, rfl, by simpa using stream⟩
  | cons chunk rest ih =>
      have arrived : d.unread (d.append s chunk) ++ rest.flatten = frames.flatMap encode := by
        rw [d.unread_append, List.append_assoc]
        simpa using stream
      obtain ⟨done, left, t, split, drained, remains, settled⟩ :=
        recognises.drain_frames frames (d.append s chunk) rest.flatten arrived
      obtain ⟨last, fed, finished⟩ := ih left t remains settled
      exact ⟨last, by simp [feed, drained, fed, split], finished⟩

end StreamDecoder
