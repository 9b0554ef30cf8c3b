import Granum.Library.Mealy
import Granum.Library.SortedSet

/-! Polling a growing set for a moving window. The client asks for what has at least the score
of the latest member that it was sent, and drops what has left the window.
-/

namespace WindowPolling

variable {M S : Type*} [LinearOrder S]

/-- A member is stored, old members are removed, or the client asks for a window. -/
inductive Event (M S : Type*)
  | insert (member : M) (score : S)
  | expire (lowest deadline : S)
  | poll (lo hi : S)

/-- Members are stored once and with nondecreasing scores, windows do not move back, and what
is removed has left all windows to come.
-/
def Event.Precedes : Event M S → Event M S → Prop
  | .insert member score, .insert member' score' => member ≠ member' ∧ score ≤ score'
  | .poll lo hi, .poll lo' hi' => lo ≤ lo' ∧ hi ≤ hi'
  | .expire _ deadline, .poll lo _ => deadline < lo
  | _, _ => True

/-- A member has one score, as it is stored once. -/
theorem inserted_unique {events : List (Event M S)} (ordered : events.Pairwise Event.Precedes)
    {member : M} {score score' : S} (first : .insert member score ∈ events)
    (second : .insert member score' ∈ events) : score = score' := by
  have apart : events.Pairwise fun a b : Event M S =>
      ∀ member score score', a = .insert member score → b ≠ .insert member score' := by
    refine ordered.imp fun precedes member score score' left right => ?_
    subst left right
    exact precedes.1 rfl
  have : Std.Symm fun a b : Event M S =>
      ∀ member score score', a = .insert member score → b ≠ .insert member score' :=
    ⟨fun _ _ apart member score score' right left => apart member score' score left right⟩
  by_contra different
  exact apart.forall first second (fun same => different (Event.insert.inj same).2) _ _ _ rfl rfl

/-- A member was stored before a poll, and is inside the window of it. -/
def Windowed (events : List (Event M S)) (e : M × S) : Prop :=
  ∃ before lo hi after, events = before ++ .poll lo hi :: after
    ∧ .insert e.1 e.2 ∈ before ∧ lo ≤ e.2 ∧ e.2 ≤ hi

theorem Windowed.concat {events : List (Event M S)} {e : M × S} (windowed : Windowed events e)
    (event : Event M S) : Windowed (events ++ [event]) e := by
  obtain ⟨before, lo, hi, after, rfl, stored, low, high⟩ := windowed
  exact ⟨before, lo, hi, after ++ [event], by simp, stored, low, high⟩

/-- Only a poll at the end adds to the members that were inside a window. -/
theorem windowed_concat {events : List (Event M S)} {event : Event M S} {e : M × S}
    : Windowed (events ++ [event]) e
      ↔ Windowed events e
        ∨ ∃ lo hi, event = .poll lo hi ∧ .insert e.1 e.2 ∈ events ∧ lo ≤ e.2 ∧ e.2 ≤ hi := by
  constructor
  · rintro ⟨before, lo, hi, after, cut, stored, low, high⟩
    cases after using List.reverseRecOn with
    | nil =>
        obtain ⟨rfl, rfl⟩ := List.append_inj' cut rfl |>.imp_right List.head_eq_of_cons_eq
        exact .inr ⟨lo, hi, rfl, stored, low, high⟩
    | append_singleton after last =>
        have cut : events ++ [event] = (before ++ .poll lo hi :: after) ++ [last] := by simpa using cut
        obtain ⟨rfl, -⟩ := List.append_inj' cut rfl
        exact .inl ⟨before, lo, hi, after, rfl, stored, low, high⟩
  · rintro (windowed | ⟨lo, hi, rfl, stored, low, high⟩)
    · exact windowed.concat event
    · exact ⟨events, lo, hi, [], rfl, stored, low, high⟩

/-- No member that was inside a window is inside the window of a later poll. -/
def WindowsApart (events : List (Event M S)) : Prop :=
  ∀ before lo hi after, events = before ++ .poll lo hi :: after
    → ∀ e, Windowed before e → ¬(lo ≤ e.2 ∧ e.2 ≤ hi)

theorem windowsApart_concat {events : List (Event M S)} {event : Event M S}
    : WindowsApart (events ++ [event])
      ↔ WindowsApart events
        ∧ ∀ lo hi, event = .poll lo hi → ∀ e, Windowed events e → ¬(lo ≤ e.2 ∧ e.2 ≤ hi) := by
  constructor
  · intro apart
    constructor
    · rintro before lo hi after rfl
      exact apart before lo hi (after ++ [event]) (by simp)
    · rintro lo hi rfl
      exact apart events lo hi [] rfl
  · rintro ⟨apart, last⟩ before lo hi after cut
    cases after using List.reverseRecOn with
    | nil =>
        obtain ⟨rfl, same⟩ := List.append_inj' cut rfl
        exact last lo hi (List.head_eq_of_cons_eq same)
    | append_singleton after final =>
        have cut : events ++ [event] = (before ++ .poll lo hi :: after) ++ [final] := by
          simpa using cut
        exact apart before lo hi after (List.append_inj' cut rfl).1

/-- In a sorted list, dropping what is too low keeps what is not. -/
theorem mem_dropWhile_iff {l : List (M × S)} (sorted : l.Pairwise (·.2 ≤ ·.2)) (lo : S) (e : M × S)
    : e ∈ l.dropWhile (·.2 < lo) ↔ e ∈ l ∧ lo ≤ e.2 := by
  induction l with
  | nil => simp
  | cons head rest ih =>
      obtain ⟨above, sorted⟩ := List.pairwise_cons.mp sorted
      by_cases low : head.2 < lo
      · rw [List.dropWhile_cons_of_pos (by simpa using low), ih sorted]
        constructor
        · exact fun ⟨member, high⟩ => ⟨List.mem_cons_of_mem _ member, high⟩
        · rintro ⟨member, high⟩
          rcases List.mem_cons.mp member with rfl | member
          · exact absurd low high.not_gt
          · exact ⟨member, high⟩
      · rw [List.dropWhile_cons_of_neg (by simpa using low)]
        refine ⟨fun member => ⟨member, ?_⟩, And.left⟩
        rcases List.mem_cons.mp member with rfl | member
        · exact not_lt.mp low
        · exact (not_lt.mp low).trans (above e member)

variable [LinearOrder M]

structure State (M S : Type*) [LinearOrder M] [LinearOrder S] where
  store : SortedSet M S
  held : List (M × S)
  latest : S

namespace State

variable (s : State M S) (lo hi : S)

def answer : List (M × S) := s.store.zrangebyscore (max s.latest lo) hi

def polled : State M S where
  store := s.store
  held := (s.held ++ s.answer lo hi).dropWhile (·.2 < lo)
  latest := ((s.answer lo hi).getLast?.map Prod.snd).getD s.latest

end State

/-- A poll outputs its answer. -/
def machine : Mealy (State M S) (Event M S) (List (M × S)) where
  step s
    | .insert member score => ({ s with store := s.store.zadd score member }, [])
    | .expire lowest deadline => ({ s with store := s.store.zremrangebyscore lowest deadline }, [])
    | .poll lo hi => (s.polled lo hi, [s.answer lo hi])

def start (bottom : S) : State M S where
  store := .empty
  held := []
  latest := bottom

/-- What holds along every ordered run, of the members `sent` so far: they were inside a
window, `latest` is the highest of their scores, and every member with a lower score is held
by the client, or has left the window.
-/
structure Polled (bottom : S) (events : List (Event M S)) (sent : List (M × S)) (s : State M S)
    : Prop where
  high : ∀ e : M × S, .insert e.1 e.2 ∈ events → bottom ≤ e.2
  stored : ∀ e ∈ s.store.entries, .insert e.1 e.2 ∈ events
  kept : ∀ e : M × S, .insert e.1 e.2 ∈ events
    → e ∈ s.store.entries ∨ ∃ lowest deadline, .expire lowest deadline ∈ events ∧ e.2 ≤ deadline
  sentWindowed : ∀ e ∈ sent, Windowed events e ∧ e.2 ≤ s.latest
  mark : s.latest = bottom ∨ ∃ e ∈ sent, e.2 = s.latest
  reached : ∀ e, Windowed events e → ∃ f ∈ sent, e.2 ≤ f.2
  heldSent : ∀ e ∈ s.held, e ∈ sent
  heldSorted : s.held.Pairwise (·.2 ≤ ·.2)
  delivered : ∀ e : M × S, .insert e.1 e.2 ∈ events → e.2 < s.latest
    → e ∈ s.held ∨ ∃ lo hi, .poll lo hi ∈ events ∧ e.2 < lo

namespace Polled

variable {bottom : S} {events : List (Event M S)} {sent : List (M × S)} {s : State M S}

theorem start : Polled bottom [] [] (WindowPolling.start bottom : State M S) where
  high := by simp
  stored := by simp [WindowPolling.start, SortedSet.empty]
  kept := by simp
  sentWindowed := by simp
  mark := .inl rfl
  reached := by simp [Windowed]
  heldSent := by simp [WindowPolling.start]
  heldSorted := .nil
  delivered := by simp

/-- A stored member has at least the score of what was sent before. -/
theorem insert (polled : Polled bottom events sent s) {member : M} {score : S}
    (follows : ∀ event ∈ events, event.Precedes (.insert member score)) (high : bottom ≤ score)
    : Polled bottom (events ++ [.insert member score]) sent
        { s with store := s.store.zadd score member } where
  high e inserted := by
    rcases List.mem_append.mp inserted with old | last
    · exact polled.high e old
    · obtain ⟨rfl, rfl⟩ : e.1 = member ∧ e.2 = score := by simpa using last
      exact high
  stored e member := by
    rcases (SortedSet.mem_zadd _ _ _ _).mp member with rfl | ⟨old, -⟩
    · simp
    · exact List.mem_append_left _ (polled.stored e old)
  kept e inserted := by
    rcases List.mem_append.mp inserted with old | last
    · rcases polled.kept e old with stored | ⟨lowest, deadline, expired, low⟩
      · exact .inl ((SortedSet.mem_zadd _ _ _ _).mpr (.inr ⟨stored, (follows _ old).1⟩))
      · exact .inr ⟨lowest, deadline, List.mem_append_left _ expired, low⟩
    · obtain ⟨rfl, rfl⟩ : e.1 = member ∧ e.2 = score := by simpa using last
      exact .inl (by simp)
  sentWindowed e member := (polled.sentWindowed e member).imp_left (·.concat _)
  mark := polled.mark
  reached e windowed := by
    rcases windowed_concat.mp windowed with old | ⟨_, _, impossible, _⟩
    · exact polled.reached e old
    · cases impossible
  heldSent := polled.heldSent
  heldSorted := polled.heldSorted
  delivered e inserted low := by
    have order : s.latest ≤ score := by
      rcases polled.mark with bottom | ⟨f, sent, same⟩
      · exact bottom.trans_le high
      · obtain ⟨before, _, _, _, rfl, stored, _⟩ := (polled.sentWindowed f sent).1
        exact same ▸ (follows _ (List.mem_append_left _ stored)).2
    rcases List.mem_append.mp inserted with old | last
    · rcases polled.delivered e old low with held | ⟨lo, hi, asked, left⟩
      · exact .inl held
      · exact .inr ⟨lo, hi, List.mem_append_left _ asked, left⟩
    · obtain ⟨rfl, rfl⟩ : e.1 = member ∧ e.2 = score := by simpa using last
      exact absurd low order.not_gt

/-- What expires has left all windows to come, and is still known to have been stored. -/
theorem expire (polled : Polled bottom events sent s) (lowest deadline : S)
    : Polled bottom (events ++ [.expire lowest deadline]) sent
        { s with store := s.store.zremrangebyscore lowest deadline } where
  high e inserted := polled.high e (by simpa using inserted)
  stored e member :=
    List.mem_append_left _ (polled.stored e ((SortedSet.mem_zremrangebyscore _ _ _ _).mp member).1)
  kept e inserted := by
    have old : .insert e.1 e.2 ∈ events := by simpa using inserted
    rcases polled.kept e old with stored | ⟨lowest', deadline', expired, low⟩
    · by_cases removed : lowest ≤ e.2 ∧ e.2 ≤ deadline
      · exact .inr ⟨lowest, deadline, by simp, removed.2⟩
      · exact .inl ((SortedSet.mem_zremrangebyscore _ _ _ _).mpr ⟨stored, removed⟩)
    · exact .inr ⟨lowest', deadline', List.mem_append_left _ expired, low⟩
  sentWindowed e member := (polled.sentWindowed e member).imp_left (·.concat _)
  mark := polled.mark
  reached e windowed := by
    rcases windowed_concat.mp windowed with old | ⟨_, _, impossible, _⟩
    · exact polled.reached e old
    · cases impossible
  heldSent := polled.heldSent
  heldSorted := polled.heldSorted
  delivered e inserted low := by
    have old : .insert e.1 e.2 ∈ events := by simpa using inserted
    rcases polled.delivered e old low with held | ⟨lo, hi, asked, left⟩
    · exact .inl held
    · exact .inr ⟨lo, hi, List.mem_append_left _ asked, left⟩

section Poll

variable {lo hi : S} {e : M × S}

/-- What was stored and is inside the window to come has not been removed. -/
theorem stored_of_inserted (polled : Polled bottom events sent s)
    (follows : ∀ event ∈ events, event.Precedes (.poll lo hi))
    (inserted : .insert e.1 e.2 ∈ events) (low : lo ≤ e.2) : e ∈ s.store.entries := by
  rcases polled.kept e inserted with stored | ⟨lowest, deadline, expired, left⟩
  · exact stored
  · have passed : deadline < lo := follows _ expired
    exact absurd (low.trans left) passed.not_ge

theorem le_latest_of_held (polled : Polled bottom events sent s) (held : e ∈ s.held)
    : e.2 ≤ s.latest := (polled.sentWindowed e (polled.heldSent e held)).2

/-- The answer continues what is held, in order. -/
theorem held_answer_sorted (polled : Polled bottom events sent s)
    : (s.held ++ s.answer lo hi).Pairwise (·.2 ≤ ·.2) := by
  refine List.pairwise_append.mpr ⟨polled.heldSorted, s.store.zrangebyscore_sorted _ _, ?_⟩
  intro e held f answered
  obtain ⟨-, low, -⟩ := (SortedSet.mem_zrangebyscore _ _ _ _).mp answered
  exact (polled.le_latest_of_held held).trans ((le_max_left _ _).trans low)

/-- After a poll the client holds exactly what is stored inside the window. -/
theorem held_iff (polled : Polled bottom events sent s)
    (follows : ∀ event ∈ events, event.Precedes (.poll lo hi))
    : e ∈ (s.polled lo hi).held ↔ e ∈ s.store.entries ∧ lo ≤ e.2 ∧ e.2 ≤ hi := by
  rw [State.polled, mem_dropWhile_iff polled.held_answer_sorted, List.mem_append, State.answer,
    SortedSet.mem_zrangebyscore]
  constructor
  · rintro ⟨held | ⟨stored, -, high⟩, low⟩
    · obtain ⟨before, lo', hi', after, rfl, inserted, -, high⟩ :=
        (polled.sentWindowed e (polled.heldSent e held)).1
      have wider : lo' ≤ lo ∧ hi' ≤ hi := follows (.poll lo' hi') (by simp)
      exact ⟨polled.stored_of_inserted follows (List.mem_append_left _ inserted) low, low,
        high.trans wider.2⟩
    · exact ⟨stored, low, high⟩
  · rintro ⟨stored, low, high⟩
    refine ⟨?_, low⟩
    rcases le_or_gt s.latest e.2 with later | earlier
    · exact .inr ⟨stored, max_le later low, high⟩
    · rcases polled.delivered e (polled.stored e stored) earlier with held | ⟨lo', hi', asked, left⟩
      · exact .inl held
      · have wider : lo' ≤ lo ∧ hi' ≤ hi := follows _ asked
        exact absurd (left.trans_le wider.1) low.not_gt

/-- The mark moves to the last score of the answer, if there is one. -/
theorem latest_polled (s : State M S) (lo hi : S)
    : s.answer lo hi = [] ∧ (s.polled lo hi).latest = s.latest
      ∨ (∃ f ∈ s.answer lo hi, f.2 = (s.polled lo hi).latest)
        ∧ ∀ e ∈ s.answer lo hi, e.2 ≤ (s.polled lo hi).latest := by
  have sorted := s.store.zrangebyscore_sorted (max s.latest lo) hi
  rw [← State.answer] at sorted
  rcases List.eq_nil_or_concat' (s.answer lo hi) with none | ⟨first, last, answer⟩
  · exact .inl ⟨none, by simp [State.polled, none]⟩
  · rw [answer] at sorted ⊢
    have latest : (s.polled lo hi).latest = last.2 := by simp [State.polled, answer]
    rw [latest]
    refine .inr ⟨⟨last, by simp, rfl⟩, ?_⟩
    intro e member
    rcases List.mem_append.mp member with earlier | same
    · exact (List.pairwise_append.mp sorted).2.2 e earlier last (by simp)
    · rw [List.mem_singleton.mp same]

theorem latest_le_polled (s : State M S) (lo hi : S) : s.latest ≤ (s.polled lo hi).latest := by
  rcases latest_polled s lo hi with ⟨-, same⟩ | ⟨⟨f, answered, last⟩, -⟩
  · exact same.ge
  · obtain ⟨-, low, -⟩ := (SortedSet.mem_zrangebyscore _ _ _ _).mp answered
    exact (le_max_left _ _).trans (low.trans last.le)

/-- All that was sent is below the end of the window to come. -/
theorem sent_le (polled : Polled bottom events sent s)
    (follows : ∀ event ∈ events, event.Precedes (.poll lo hi)) (member : e ∈ sent) : e.2 ≤ hi := by
  obtain ⟨before, lo', hi', after, rfl, -, -, high⟩ := (polled.sentWindowed e member).1
  have wider : lo' ≤ lo ∧ hi' ≤ hi := follows (.poll lo' hi') (by simp)
  exact high.trans wider.2

/-- What is below the new mark is not above the window. -/
theorem le_of_lt_polled (polled : Polled bottom events sent s)
    (follows : ∀ event ∈ events, event.Precedes (.poll lo hi))
    (inserted : .insert e.1 e.2 ∈ events) (low : e.2 < (s.polled lo hi).latest) : e.2 ≤ hi := by
  rcases latest_polled s lo hi with ⟨-, same⟩ | ⟨⟨f, answered, last⟩, -⟩
  · rw [same] at low
    rcases polled.mark with bottom | ⟨f, sent, last⟩
    · exact absurd (bottom ▸ low) (polled.high e inserted).not_gt
    · exact low.le.trans (last ▸ polled.sent_le follows sent)
  · obtain ⟨-, -, high⟩ := (SortedSet.mem_zrangebyscore _ _ _ _).mp answered
    exact low.le.trans (last ▸ high)

/-- A poll keeps the invariant. -/
theorem poll (polled : Polled bottom events sent s)
    (follows : ∀ event ∈ events, event.Precedes (.poll lo hi))
    : Polled bottom (events ++ [.poll lo hi]) (sent ++ s.answer lo hi) (s.polled lo hi) where
  high e inserted := polled.high e (by simpa using inserted)
  stored e member := List.mem_append_left _ (polled.stored e member)
  kept e inserted := by
    rcases polled.kept e (by simpa using inserted) with stored | ⟨lowest, deadline, expired, left⟩
    · exact .inl stored
    · exact .inr ⟨lowest, deadline, List.mem_append_left _ expired, left⟩
  sentWindowed e member := by
    rcases List.mem_append.mp member with old | answered
    · obtain ⟨windowed, low⟩ := polled.sentWindowed e old
      exact ⟨windowed.concat _, low.trans (latest_le_polled s lo hi)⟩
    · obtain ⟨stored, low, high⟩ := (SortedSet.mem_zrangebyscore _ _ _ _).mp answered
      refine ⟨windowed_concat.mpr (.inr ⟨lo, hi, rfl, polled.stored e stored, ?_, high⟩), ?_⟩
      · exact (le_max_right _ _).trans low
      · rcases latest_polled s lo hi with ⟨none, -⟩ | ⟨-, last⟩
        · simp [none] at answered
        · exact last e answered
  mark := by
    rcases latest_polled s lo hi with ⟨-, same⟩ | ⟨⟨f, answered, last⟩, -⟩
    · rw [same]
      exact polled.mark.imp_right fun ⟨f, sent, last⟩ => ⟨f, List.mem_append_left _ sent, last⟩
    · exact .inr ⟨f, List.mem_append_right _ answered, last⟩
  reached e windowed := by
    rcases windowed_concat.mp windowed with old | ⟨_, _, same, inserted, low, high⟩
    · obtain ⟨f, sent, order⟩ := polled.reached e old
      exact ⟨f, List.mem_append_left _ sent, order⟩
    · obtain ⟨rfl, rfl⟩ := Event.poll.inj same
      rcases le_or_gt s.latest e.2 with later | earlier
      · have stored := polled.stored_of_inserted follows inserted low
        have answered : e ∈ s.answer lo hi :=
          (SortedSet.mem_zrangebyscore _ _ _ _).mpr ⟨stored, max_le later low, high⟩
        exact ⟨e, List.mem_append_right _ answered, le_rfl⟩
      · rcases polled.mark with bottom | ⟨f, sent, last⟩
        · exact absurd (bottom ▸ earlier) (polled.high e inserted).not_gt
        · exact ⟨f, List.mem_append_left _ sent, earlier.le.trans last.ge⟩
  heldSent e held := by
    rcases List.mem_append.mp ((List.dropWhile_suffix _).mem held) with old | answered
    · exact List.mem_append_left _ (polled.heldSent e old)
    · exact List.mem_append_right _ answered
  heldSorted := polled.held_answer_sorted.sublist (List.dropWhile_suffix _).sublist
  delivered e inserted low := by
    have inserted : .insert e.1 e.2 ∈ events := by simpa using inserted
    rcases le_or_gt lo e.2 with inside | left
    · have stored := polled.stored_of_inserted follows inserted inside
      exact .inl ((polled.held_iff follows).mpr
        ⟨stored, inside, polled.le_of_lt_polled follows inserted low⟩)
    · exact .inr ⟨lo, hi, by simp, left⟩

end Poll

end Polled

/-- Every ordered run keeps the invariant, by induction on its events. -/
theorem polled_of_ordered (bottom : S) (events : List (Event M S))
    (ordered : events.Pairwise Event.Precedes)
    (high : ∀ member score, Event.insert member score ∈ events → bottom ≤ score)
    : Polled bottom events (machine.outputs (start bottom) events).flatten
        (machine.finish (start bottom) events) := by
  induction events using List.reverseRecOn with
  | nil => exact Polled.start
  | append_singleton events event ih =>
      obtain ⟨before, -, follows⟩ := List.pairwise_append.mp ordered
      have follows : ∀ earlier ∈ events, earlier.Precedes event :=
        fun earlier member => follows earlier member event (by simp)
      have polled := ih before fun member score inserted =>
        high member score (List.mem_append_left _ inserted)
      rw [Mealy.finish_concat, Mealy.outputs_concat, List.flatten_append]
      cases event with
      | insert member score =>
          simpa [machine] using polled.insert follows (high member score (by simp))
      | expire lowest deadline => simpa [machine] using polled.expire lowest deadline
      | poll lo hi => simpa [machine] using polled.poll follows

/-- A poll sends nothing again exactly if nothing that was inside a window before is inside
its own: else the highest of what was sent before is sent again.
-/
theorem Polled.fresh_iff {bottom : S} {events : List (Event M S)} {sent : List (M × S)}
    {s : State M S} {lo hi : S} (polled : Polled bottom events sent s)
    (follows : ∀ event ∈ events, event.Precedes (.poll lo hi))
    : sent.Disjoint (s.answer lo hi) ↔ ∀ e, Windowed events e → ¬(lo ≤ e.2 ∧ e.2 ≤ hi) := by
  constructor
  · rintro fresh e windowed ⟨low, -⟩
    obtain ⟨f, before, order⟩ := polled.reached e windowed
    obtain ⟨g, before, last⟩ : ∃ g ∈ sent, g.2 = s.latest := by
      rcases polled.mark with bottom | marked
      · refine ⟨f, before, le_antisymm (polled.sentWindowed f before).2 ?_⟩
        obtain ⟨first, _, _, _, rfl, inserted, _⟩ := (polled.sentWindowed f before).1
        exact bottom.trans_le (polled.high f (List.mem_append_left _ inserted))
      · exact marked
    have low : lo ≤ g.2 :=
      low.trans (order.trans ((polled.sentWindowed f ‹_›).2.trans last.ge))
    obtain ⟨first, _, _, _, rfl, inserted, _⟩ := (polled.sentWindowed g before).1
    have stored := polled.stored_of_inserted follows (List.mem_append_left _ inserted) low
    refine fresh before ((SortedSet.mem_zrangebyscore _ _ _ _).mpr ⟨stored, ?_, ?_⟩)
    · exact max_le last.ge low
    · exact polled.sent_le follows before
  · intro apart e before answered
    obtain ⟨-, low, high⟩ := (SortedSet.mem_zrangebyscore _ _ _ _).mp answered
    exact apart e (polled.sentWindowed e before).1 ⟨(le_max_right _ _).trans low, high⟩

/-- Nothing is sent twice in an ordered run exactly if its windows are apart. -/
theorem sent_nodup_iff (bottom : S) (events : List (Event M S))
    (ordered : events.Pairwise Event.Precedes)
    (high : ∀ member score, Event.insert member score ∈ events → bottom ≤ score)
    : (machine.outputs (start bottom) events).flatten.Nodup ↔ WindowsApart events := by
  induction events using List.reverseRecOn with
  | nil => simp [WindowsApart]
  | append_singleton events event ih =>
      obtain ⟨before, -, follows⟩ := List.pairwise_append.mp ordered
      have follows : ∀ earlier ∈ events, earlier.Precedes event :=
        fun earlier member => follows earlier member event (by simp)
      have high : ∀ member score, Event.insert member score ∈ events → bottom ≤ score :=
        fun member score inserted => high member score (List.mem_append_left _ inserted)
      have polled := polled_of_ordered bottom events before high
      rw [Mealy.outputs_concat, List.flatten_append, windowsApart_concat, ← ih before high]
      cases event with
      | insert member score => simp [machine]
      | expire lowest deadline => simp [machine]
      | poll lo hi =>
          have answers : (machine.step (machine.finish (start bottom) events) (.poll lo hi)).2.flatten
              = (machine.finish (start bottom) events).answer lo hi := by
            simp [machine]
          have unique : ((machine.finish (start bottom) events).answer lo hi).Nodup :=
            (SortedSet.zrangebyscore_unique _ _ _).of_map _
          rw [answers, List.nodup_append', polled.fresh_iff follows]
          simp only [unique, true_and, Event.poll.injEq]
          refine and_congr_right fun _ => ⟨?_, fun apart => apart lo hi ⟨rfl, rfl⟩⟩
          rintro apart _ _ ⟨rfl, rfl⟩
          exact apart

/-- No member is sent twice in an ordered run exactly if its windows are apart. -/
theorem members_nodup_iff (bottom : S) (events : List (Event M S))
    (ordered : events.Pairwise Event.Precedes)
    (high : ∀ member score, Event.insert member score ∈ events → bottom ≤ score)
    : ((machine.outputs (start bottom) events).flatten.map Prod.fst).Nodup
      ↔ WindowsApart events := by
  rw [← sent_nodup_iff bottom events ordered high]
  refine ⟨List.Nodup.of_map _, fun nodup => nodup.map_on ?_⟩
  have inserted : ∀ e ∈ (machine.outputs (start bottom) events).flatten,
      .insert e.1 e.2 ∈ events := by
    intro e sent
    obtain ⟨before, _, _, _, rfl, stored, _⟩ :=
      ((polled_of_ordered bottom events ordered high).sentWindowed e sent).1
    exact List.mem_append_left _ stored
  rintro ⟨member, score⟩ sent ⟨_, score'⟩ sent' rfl
  exact congrArg _ (inserted_unique ordered (inserted _ sent) (inserted _ sent'))

end WindowPolling
