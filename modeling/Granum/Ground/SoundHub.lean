import Granum.Library.EventSystem

/-! The forwarder of the sound hub. It sends the datagrams of the board to all subscribers, and a
byte when none has come for a second; the main thread adds subscribers at any time.
-/

namespace Granum.Ground

/-- `SOUND_CHUNK * SOUND_CHANNELS * 4`. -/
def receiveSize : ℕ := 1024 * 1 * 4

/-- What the forwarder sends around: a datagram, or `b'1'` after a timeout. -/
inductive SoundData
  | datagram (data : List UInt8)
  | keepAlive
  deriving DecidableEq, Repr

def SoundData.bytes : SoundData → List UInt8
  | .datagram data => data
  | .keepAlive => [49]

/-- `subscribers`, as the numbers of their connections, and the `for` loop: its data and the index
of the next subscriber.
-/
structure SoundHub where
  subscribers : List ℕ := []
  nextConn : ℕ := 0
  loop : Option (SoundData × ℕ) := none
  logstream : List UInt8 := []
  deriving DecidableEq, Repr

inductive HubEvent
  /-- The main thread accepts a connection. -/
  | subscribe
  /-- `recvfrom` cuts a datagram that is longer than the buffer. -/
  | recvfrom (data : List UInt8)
  | timeout
  /-- `send` to the next subscriber sends all bytes. -/
  | send
  /-- `send` raises a `ConnectionError`. -/
  | connectionError
  /-- The loop has come to the end of the list. -/
  | endLoop
  deriving DecidableEq, Repr

/-- What a subscriber is sent. -/
structure SentData where
  subscriber : ℕ
  data : SoundData
  deriving DecidableEq, Repr

/-- The steps of both threads. The loop goes on behind the index of a subscriber that it removes,
which is now that of the next one.
-/
def SoundHub.step (s : SoundHub) : HubEvent → Option (SoundHub × List SentData)
  | .subscribe =>
      some ({ s with subscribers := s.subscribers ++ [s.nextConn], nextConn := s.nextConn + 1 }, [])
  | .recvfrom data =>
      match s.loop with
      | none =>
          let data := data.take receiveSize
          some ({ s with loop := some (.datagram data, 0), logstream := s.logstream ++ data }, [])
      | some _ => none
  | .timeout =>
      match s.loop with
      | none => some ({ s with loop := some (.keepAlive, 0) }, [])
      | some _ => none
  | .send =>
      match s.loop with
      | none => none
      | some (data, index) =>
          s.subscribers[index]?.map fun subscriber =>
            ({ s with loop := some (data, index + 1) }, [⟨subscriber, data⟩])
  | .connectionError =>
      match s.loop with
      | none => none
      | some (data, index) =>
          s.subscribers[index]?.map fun subscriber =>
            ({ s with
                subscribers := s.subscribers.erase subscriber
                loop := some (data, index + 1) }, [])
  | .endLoop =>
      match s.loop with
      | none => none
      | some (_, index) =>
          if s.subscribers.length ≤ index then some ({ s with loop := none }, []) else none

def soundHub : EventSystem SoundHub HubEvent SentData where
  start := {}
  step := SoundHub.step

/-- The datagrams have whole samples of four bytes. -/
def HubEvent.WholeSamples : HubEvent → Prop
  | .recvfrom data => 4 ∣ data.length
  | _ => True

/-- All bytes that a subscriber has been sent. -/
def bytesSentTo (subscriber : ℕ) (sent : List SentData) : ℕ :=
  ((sent.filter (·.subscriber = subscriber)).map (·.data.bytes.length)).sum

/-- The keep-alive bytes among them. -/
def keepAlivesTo (subscriber : ℕ) (sent : List SentData) : ℕ :=
  sent.countP fun o => o.subscriber = subscriber ∧ o.data = .keepAlive

/-- The next event sends the byte of a timeout to the subscriber. -/
def SoundHub.keepsAlive (s : SoundHub) (subscriber : ℕ) : HubEvent → Bool
  | .send =>
      match s.loop with
      | some (.keepAlive, index) => s.subscribers[index]? = some subscriber
      | _ => false
  | _ => false

/-- The timeouts whose loop reaches the subscriber, in the course of the events. -/
def timeoutsReaching (subscriber : ℕ) : SoundHub → List HubEvent → ℕ
  | _, [] => 0
  | s, event :: rest =>
      (if s.keepsAlive subscriber event then 1 else 0)
        + match s.step event with
          | none => 0
          | some (t, _) => timeoutsReaching subscriber t rest

/-- Data that keep the samples of a subscriber aligned. -/
def SoundData.Whole : SoundData → Prop
  | .datagram data => 4 ∣ data.length
  | .keepAlive => True

/-- The data that an iteration of the forwarder begins with. -/
def HubEvent.received : HubEvent → Option SoundData
  | .recvfrom data => some (.datagram (data.take receiveSize))
  | .timeout => some .keepAlive
  | .subscribe | .send | .connectionError | .endLoop => none

/-- The loop goes over what has been received, and only `send` sends, once. -/
theorem SoundHub.step_cases {s t : SoundHub} {event : HubEvent} {out : List SentData}
    (stepped : s.step event = some (t, out))
    : (∀ data index, t.loop = some (data, index) →
        event.received = some data ∨ ∃ before, s.loop = some (data, before))
      ∧ (out = []
        ∨ event = .send ∧ ∃ data index subscriber, s.loop = some (data, index)
          ∧ s.subscribers[index]? = some subscriber ∧ out = [⟨subscriber, data⟩]) := by
  cases event with
  | subscribe =>
      obtain ⟨rfl, rfl⟩ := Prod.mk.inj (Option.some.inj stepped)
      exact ⟨fun data index running => Or.inr ⟨index, running⟩, Or.inl rfl⟩
  | recvfrom _ | timeout =>
      cases running : s.loop with
      | some _ => simp [step, running] at stepped
      | none =>
          simp only [step, running] at stepped
          obtain ⟨rfl, rfl⟩ := Prod.mk.inj (Option.some.inj stepped)
          refine ⟨fun data index next => ?_, Or.inl rfl⟩
          obtain ⟨rfl, -⟩ := Prod.mk.inj (Option.some.inj next)
          exact Or.inl rfl
  | send =>
      cases running : s.loop with
      | none => simp [step, running] at stepped
      | some loop =>
          simp only [step, running] at stepped
          obtain ⟨subscriber, reached, taken⟩ := Option.map_eq_some_iff.mp stepped
          obtain ⟨rfl, rfl⟩ := Prod.mk.inj taken
          refine ⟨fun data index next => ?_,
            Or.inr ⟨rfl, loop.1, loop.2, subscriber, rfl, reached, rfl⟩⟩
          obtain ⟨rfl, -⟩ := Prod.mk.inj (Option.some.inj next)
          exact Or.inr ⟨loop.2, rfl⟩
  | connectionError =>
      cases running : s.loop with
      | none => simp [step, running] at stepped
      | some loop =>
          simp only [step, running] at stepped
          obtain ⟨subscriber, -, taken⟩ := Option.map_eq_some_iff.mp stepped
          obtain ⟨rfl, rfl⟩ := Prod.mk.inj taken
          refine ⟨fun data index next => ?_, Or.inl rfl⟩
          obtain ⟨rfl, -⟩ := Prod.mk.inj (Option.some.inj next)
          exact Or.inr ⟨loop.2, rfl⟩
  | endLoop =>
      cases running : s.loop with
      | none => simp [step, running] at stepped
      | some loop =>
          simp only [step, running, Option.ite_none_right_eq_some] at stepped
          obtain ⟨rfl, rfl⟩ := Prod.mk.inj (Option.some.inj stepped.2)
          refine ⟨fun data index next => ?_, Or.inl rfl⟩
          cases next

/-- What is sent is what the loop goes over. -/
theorem SoundHub.step_sends {s t : SoundHub} {event : HubEvent} {out : List SentData}
    (stepped : s.step event = some (t, out))
    : ∀ o ∈ out, ∃ index, s.loop = some (o.data, index) := by
  intro o mem
  rcases (step_cases stepped).2 with rfl | ⟨-, data, index, subscriber, running, -, rfl⟩
  · cases mem
  · rw [List.mem_singleton.mp mem]
    exact ⟨index, running⟩

/-- A datagram that is cut has whole samples as well. -/
theorem HubEvent.WholeSamples.received {event : HubEvent} (whole : event.WholeSamples)
    {data : SoundData} (received : event.received = some data)
    : data.Whole := by
  cases event with
  | recvfrom datagram =>
      obtain rfl := Option.some.inj received
      have length : (datagram.take receiveSize).length = min receiveSize datagram.length :=
        List.length_take
      rw [SoundData.Whole, length, Nat.min_def]
      split_ifs
      · exact ⟨1024, rfl⟩
      · exact whole
  | timeout =>
      obtain rfl := Option.some.inj received
      trivial
  | subscribe | send | connectionError | endLoop => cases received

/-- Samples that are received whole are sent whole, by induction on the run. -/
theorem sent_whole {events : List HubEvent} {sent : List SentData} {s : SoundHub}
    (run : soundHub.RunWhere (fun _ event => event.WholeSamples) events sent s)
    : (∀ data index, s.loop = some (data, index) → data.Whole) ∧ ∀ o ∈ sent, o.data.Whole := by
  induction run with
  | start =>
      refine ⟨fun data index running => ?_, List.forall_mem_nil _⟩
      cases running
  | @concat _ _ _ _ _ event _ whole step ih =>
      obtain ⟨loop, before⟩ := ih
      obtain ⟨next, -⟩ := SoundHub.step_cases step
      refine ⟨fun data index running => ?_, fun o mem => ?_⟩
      · rcases next data index running with received | ⟨index, running⟩
        · exact whole.received received
        · exact loop data index running
      · rcases List.mem_append.mp mem with earlier | sent
        · exact before o earlier
        · obtain ⟨index, running⟩ := SoundHub.step_sends step o sent
          exact loop o.data index running

theorem bytesSentTo_cons (subscriber : ℕ) (o : SentData) (rest : List SentData)
    : bytesSentTo subscriber (o :: rest)
      = (if o.subscriber = subscriber then o.data.bytes.length else 0)
        + bytesSentTo subscriber rest := by
  rw [bytesSentTo, List.filter_cons]
  by_cases mine : o.subscriber = subscriber <;> simp [mine, bytesSentTo]

theorem keepAlivesTo_cons (subscriber : ℕ) (o : SentData) (rest : List SentData)
    : keepAlivesTo subscriber (o :: rest)
      = keepAlivesTo subscriber rest
        + if o.subscriber = subscriber ∧ o.data = .keepAlive then 1 else 0 := by
  rw [keepAlivesTo, List.countP_cons]
  simp [keepAlivesTo]

/-- Everything but the keep-alive bytes comes in samples, by induction on what is sent. -/
theorem bytesSentTo_mod (subscriber : ℕ) {sent : List SentData}
    (whole : ∀ o ∈ sent, o.data.Whole)
    : bytesSentTo subscriber sent % 4 = keepAlivesTo subscriber sent % 4 := by
  induction sent with
  | nil => rfl
  | cons o rest ih =>
      have others := ih (fun other mem => whole other (List.mem_cons_of_mem o mem))
      have own := whole o List.mem_cons_self
      rw [bytesSentTo_cons, keepAlivesTo_cons]
      by_cases mine : o.subscriber = subscriber
      · cases data : o.data with
        | datagram bytes =>
            rw [data] at own
            have samples : bytes.length % 4 = 0 := Nat.mod_eq_zero_of_dvd own
            have other : ¬ (o.subscriber = subscriber ∧ SoundData.datagram bytes = .keepAlive) := by
              simp
            rw [if_pos mine, if_neg other, Nat.add_mod, SoundData.bytes, samples]
            omega
        | keepAlive =>
            rw [if_pos mine, if_pos ⟨mine, rfl⟩, SoundData.bytes, List.length_singleton]
            omega
      · rw [if_neg mine, if_neg (fun both => mine both.1)]
        omega

theorem keepAlivesTo_step (subscriber : ℕ) {s t : SoundHub} {event : HubEvent}
    {out : List SentData} (stepped : s.step event = some (t, out))
    : keepAlivesTo subscriber out = if s.keepsAlive subscriber event then 1 else 0 := by
  cases event with
  | send =>
      rcases (SoundHub.step_cases stepped).2 with rfl | ⟨-, data, index, other, running, reached, rfl⟩
      · cases running : s.loop with
        | none => simp [SoundHub.step, running] at stepped
        | some loop => simp [SoundHub.step, running] at stepped
      · cases data <;> simp [keepAlivesTo, SoundHub.keepsAlive, running, reached]
  | subscribe | recvfrom _ | timeout | connectionError | endLoop =>
      rcases (SoundHub.step_cases stepped).2 with rfl | ⟨other, -⟩
      · rfl
      · cases other

/-- What is sent counts the timeouts, by induction on the events. -/
theorem keepAlivesTo_exec (subscriber : ℕ) {events : List HubEvent} {s t : SoundHub}
    {sent : List SentData} (done : soundHub.exec s events = some (t, sent))
    : keepAlivesTo subscriber sent = timeoutsReaching subscriber s events := by
  induction events generalizing s sent with
  | nil =>
      obtain ⟨-, rfl⟩ : s = t ∧ [] = sent := by simpa [EventSystem.exec] using done
      rfl
  | cons event rest ih =>
      simp only [EventSystem.exec, Option.bind_eq_some_iff, Option.map_eq_some_iff,
        Prod.mk.injEq] at done
      obtain ⟨⟨next, now⟩, step, ⟨last, later⟩, continued, rfl, rfl⟩ := done
      have stepped : s.step event = some (next, now) := step
      rw [keepAlivesTo, List.countP_append, timeoutsReaching, stepped]
      exact congrArg₂ (· + ·) (keepAlivesTo_step subscriber stepped) (ih continued)

/-- Data that are sent are sent by one event of the run, by induction on it. -/
theorem sent_by_send {allowed : SoundHub → HubEvent → Prop} {events : List HubEvent}
    {sent before : List SentData} {s : SoundHub} {o : SentData}
    (run : soundHub.RunWhere allowed events sent s) (forwarded : before ++ [o] <+: sent)
    : ∃ seen t u, seen ++ [.send] <+: events ∧ soundHub.RunWhere allowed seen before t
        ∧ t.step .send = some (u, [o]) := by
  induction run with
  | start => simp at forwarded
  | @concat events sent out s t event earlier _ step ih =>
      rcases (SoundHub.step_cases step).2 with rfl | ⟨rfl, data, index, subscriber, -, -, rfl⟩
      · rw [List.append_nil] at forwarded
        obtain ⟨seen, t, u, isPrefix, run, sends⟩ := ih forwarded
        exact ⟨seen, t, u, isPrefix.trans (List.prefix_append _ _), run, sends⟩
      · rcases List.prefix_concat_iff.mp forwarded with last | inside
        · obtain ⟨rfl, same⟩ := List.append_inj' last rfl
          rw [List.cons.inj same |>.1]
          exact ⟨events, s, t, List.prefix_rfl, earlier, step⟩
        · obtain ⟨seen, t, u, isPrefix, run, sends⟩ := ih inside
          exact ⟨seen, t, u, isPrefix.trans (List.prefix_append _ _), run, sends⟩

/-- A datagram comes after whole samples in the stream of a subscriber exactly if the number of
timeouts that have reached it by then is a multiple of four.
-/
theorem samples_aligned_iff {events : List HubEvent} {sent : List SentData} {s : SoundHub}
    (run : soundHub.RunWhere (fun _ event => event.WholeSamples) events sent s)
    {before : List SentData} {subscriber : ℕ} {data : List UInt8}
    (forwarded : before ++ [⟨subscriber, .datagram data⟩] <+: sent)
    : ∃ seen t u, seen ++ [.send] <+: events
        ∧ soundHub.RunWhere (fun _ event => event.WholeSamples) seen before t
        ∧ t.step .send = some (u, [⟨subscriber, .datagram data⟩])
        ∧ (4 ∣ bytesSentTo subscriber before ↔ 4 ∣ timeoutsReaching subscriber {} seen) := by
  obtain ⟨seen, t, u, isPrefix, earlier, sends⟩ := sent_by_send run forwarded
  refine ⟨seen, t, u, isPrefix, earlier, sends, ?_⟩
  rw [Nat.dvd_iff_mod_eq_zero, Nat.dvd_iff_mod_eq_zero,
    bytesSentTo_mod subscriber (sent_whole earlier).2, keepAlivesTo_exec subscriber earlier.exec_eq]
  rfl

instance (event : HubEvent) : Decidable event.WholeSamples :=
  match event with
  | .recvfrom data => inferInstanceAs (Decidable (4 ∣ data.length))
  | .subscribe | .timeout | .send | .connectionError | .endLoop => .isTrue trivial

/-- Four seconds without a datagram. -/
def fourTimeouts : List HubEvent :=
  .subscribe :: (List.replicate 4 [.timeout, .send, .endLoop]).flatten

/-- After four bytes, the samples are aligned again. -/
theorem samples_aligned_iff_four
    : ∃ seen t u, seen ++ [.send] <+: fourTimeouts ++ [.recvfrom [1, 2, 3, 4], .send]
        ∧ soundHub.RunWhere (fun _ event => event.WholeSamples) seen
          (List.replicate 4 ⟨0, .keepAlive⟩) t
        ∧ t.step .send = some (u, [⟨0, .datagram [1, 2, 3, 4]⟩])
        ∧ (4 ∣ bytesSentTo 0 (List.replicate 4 ⟨0, .keepAlive⟩)
          ↔ 4 ∣ timeoutsReaching 0 {} seen) := by
  have run : soundHub.RunWhere (fun _ event => event.WholeSamples)
      (fourTimeouts ++ [.recvfrom [1, 2, 3, 4], .send])
      (List.replicate 4 ⟨0, .keepAlive⟩ ++ [⟨0, .datagram [1, 2, 3, 4]⟩])
      ⟨[0], 1, some (.datagram [1, 2, 3, 4], 1), [1, 2, 3, 4]⟩ :=
    EventSystem.runWhere_of_exec rfl
  exact samples_aligned_iff run List.prefix_rfl

/-- A second without a datagram shifts the samples that follow. -/
theorem timeout_shifts
    : ∃ events sent s, soundHub.RunWhere (fun _ event => event.WholeSamples) events sent s
        ∧ ∃ before subscriber data, before ++ [⟨subscriber, .datagram data⟩] <+: sent
          ∧ ¬ 4 ∣ bytesSentTo subscriber before := by
  refine ⟨[.subscribe, .timeout, .send, .endLoop, .recvfrom [1, 2, 3, 4], .send],
    [⟨0, .keepAlive⟩, ⟨0, .datagram [1, 2, 3, 4]⟩],
    ⟨[0], 1, some (.datagram [1, 2, 3, 4], 1), [1, 2, 3, 4]⟩, EventSystem.runWhere_of_exec rfl, ?_⟩
  exact ⟨[⟨0, .keepAlive⟩], 0, [1, 2, 3, 4], List.prefix_rfl, by decide⟩

end Granum.Ground
