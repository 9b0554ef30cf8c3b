import Granum.Ground.PlotPolling

/-! What is appended twice. A poll asks from the score of the latest message on, that message
included, so that it is sent again as long as it is in the scope; the dataset of a chart and
the track line of the map take it again.
-/

namespace Granum.Ground

/-- A point of the response to the map, with the message it was made of. -/
structure MapPoint (Message : Type) where
  message : Message
  timeUsec : ℚ
  fixType : ℚ
  lat : ℚ
  lon : ℚ
  alt : ℚ
  servertime : ℤ
  deriving DecidableEq, Repr

/-- The track line of the map with the message of each coordinate, and the features of its
source by their ids.
-/
structure TrackMap (Message Coordinate : Type) where
  line : List (Message × Coordinate) := []
  features : List (ℚ × ℚ) := []
  latestUpdateTime : ℤ := -1
  deriving DecidableEq, Repr

section

variable {Message Coordinate : Type} (fromLonLat : ℚ → ℚ → Coordinate)

/-- A feature whose id is there already is not added, the coordinate is appended anyway. -/
def addCoord (map : TrackMap Message Coordinate) (point : MapPoint Message)
    : TrackMap Message Coordinate :=
  { map with
    line := map.line ++ [(point.message, fromLonLat point.lon point.lat)]
    features :=
      if point.timeUsec ∈ map.features.map Prod.fst then map.features
      else map.features ++ [(point.timeUsec, point.fixType)] }

/-- The callback of `updateCoords`. -/
def updateCoords (map : TrackMap Message Coordinate) (data : List (MapPoint Message))
    : TrackMap Message Coordinate :=
  data.foldl (fun map point =>
    { addCoord fromLonLat map point with latestUpdateTime := point.servertime }) map

variable [LinearOrder Message]

-- the number under a key of a stored message, and the milliseconds of `..._PLOT_SCOPE_MS`
variable (number : String → Message → ℚ) (plotScopeMs : String → ℚ)

/-- The response to a poll of the map. -/
def mapData (store : SortedSet Message ℚ) (time : ℚ) (latestUpdateTime : ℤ)
    : List (MapPoint Message) :=
  let latestUpdateTime : ℚ := max latestUpdateTime (viewlimit plotScopeMs "MAP" time)
  (store.zrangebyscore latestUpdateTime time).map fun (value, score) =>
    { message := value
      timeUsec := number "time_usec" value
      fixType := number "fix_type" value
      lat := number "lat" value / 10 ^ 7
      lon := number "lon" value / 10 ^ 7
      alt := number "alt" value / 1000
      servertime := pyInt score }

/-- The set of the GPS messages, and the map. -/
structure Mapping (Message Coordinate : Type) [LinearOrder Message] where
  store : SortedSet Message ℚ := .empty
  map : TrackMap Message Coordinate := {}

/-- Each poll outputs its response. -/
def mapMachine
    : Mealy (Mapping Message Coordinate) (PageEvent Message) (List (MapPoint Message)) where
  step s
    | .insert message score => ({ s with store := s.store.zadd score message }, [])
    | .expire deadline => ({ s with store := s.store.zremrangebyscore 0 deadline }, [])
    | .poll time =>
        let data := mapData number plotScopeMs s.store time s.map.latestUpdateTime
        ({ s with map := updateCoords fromLonLat s.map data }, [data])

end

-----------------------------------------------------------------------------------------
-- Messages in the scope of two polls
-----------------------------------------------------------------------------------------

section

variable {Message : Type}

/-- A message was stored before a poll, and is in the scope of it. -/
def Shown (scope : ℚ) (events : List (PageEvent Message)) (message : Message) (score : ℤ) : Prop :=
  ∃ before, ∃ time : ℤ, ∃ after, events = before ++ .poll time :: after
    ∧ .insert message score ∈ before ∧ time - scope ≤ score ∧ score ≤ time

/-- No message that was in the scope of a poll after it was stored is in the scope of a later
poll.
-/
def ShownOnce (scope : ℚ) (events : List (PageEvent Message)) : Prop :=
  ∀ before (time : ℤ) after, events = before ++ .poll time :: after
    → ∀ message score, Shown scope before message score → ¬(time - scope ≤ score ∧ score ≤ time)

/-- The poll that a window was made of. -/
theorem window_eq_poll {scope lo hi : ℚ} {event : PageEvent Message}
    (same : event.window scope = .poll lo hi)
    : ∃ time : ℤ, event = .poll time ∧ lo = time - scope ∧ hi = time := by
  cases event with
  | insert message score => cases same
  | expire deadline => cases same
  | poll time =>
      obtain ⟨rfl, rfl⟩ := WindowPolling.Event.poll.inj same
      exact ⟨time, rfl, rfl, rfl⟩

theorem window_insert_mem {scope score : ℚ} {message : Message} {events : List (PageEvent Message)}
    : .insert message score ∈ events.map (PageEvent.window scope)
      ↔ ∃ k : ℤ, score = k ∧ .insert message k ∈ events := by
  rw [List.mem_map]
  constructor
  · rintro ⟨event, member, same⟩
    cases event with
    | insert message' score' =>
        obtain ⟨rfl, rfl⟩ := WindowPolling.Event.insert.inj same
        exact ⟨score', rfl, member⟩
    | expire deadline => cases same
    | poll time => cases same
  · rintro ⟨k, rfl, member⟩
    exact ⟨_, member, rfl⟩

/-- A poll for a window among the events comes from a poll of the page. -/
theorem window_split {scope lo hi : ℚ} {events : List (PageEvent Message)}
    {before after : List (WindowPolling.Event Message ℚ)}
    (cut : events.map (PageEvent.window scope) = before ++ .poll lo hi :: after)
    : ∃ (first : List (PageEvent Message)) (time : ℤ) (rest : List (PageEvent Message)),
        events = first ++ .poll time :: rest ∧ before = first.map (PageEvent.window scope)
        ∧ lo = time - scope ∧ hi = time := by
  obtain ⟨first, later, rfl, rfl, polls⟩ := List.map_eq_append_iff.mp cut
  obtain ⟨event, rest, rfl, same, rfl⟩ := List.map_eq_cons_iff.mp polls
  obtain ⟨time, rfl, low, high⟩ := window_eq_poll same
  exact ⟨first, time, rest, rfl, rfl, low, high⟩

theorem windowed_iff_shown {scope : ℚ} {events : List (PageEvent Message)} {e : Message × ℚ}
    : WindowPolling.Windowed (events.map (PageEvent.window scope)) e
      ↔ ∃ k : ℤ, e.2 = k ∧ Shown scope events e.1 k := by
  constructor
  · rintro ⟨before, lo, hi, after, cut, inserted, low, high⟩
    obtain ⟨first, time, rest, rfl, rfl, rfl, rfl⟩ := window_split cut
    obtain ⟨k, score, member⟩ := window_insert_mem.mp inserted
    rw [score] at low high
    exact ⟨k, score, first, time, rest, rfl, member, low, by exact_mod_cast high⟩
  · rintro ⟨k, score, before, time, after, rfl, member, low, high⟩
    refine ⟨_, time - scope, time, _, List.map_append, window_insert_mem.mpr ⟨k, score, member⟩,
      ?_, ?_⟩
    · rwa [score]
    · rw [score]
      exact_mod_cast high

theorem windowsApart_iff_shownOnce {scope : ℚ} {events : List (PageEvent Message)}
    : WindowPolling.WindowsApart (events.map (PageEvent.window scope)) ↔ ShownOnce scope events := by
  constructor
  · rintro apart before time after rfl message score shown ⟨low, high⟩
    refine apart _ (time - scope) time _ List.map_append (message, score)
      (windowed_iff_shown.mpr ⟨score, rfl, shown⟩) ⟨low, Int.cast_le.mpr high⟩
  · rintro once before lo hi after cut e windowed ⟨low, high⟩
    obtain ⟨first, time, rest, rfl, rfl, rfl, rfl⟩ := window_split cut
    obtain ⟨k, score, shown⟩ := windowed_iff_shown.mp windowed
    rw [score] at low high
    exact once first time rest rfl e.1 k shown ⟨low, by exact_mod_cast high⟩

end

-----------------------------------------------------------------------------------------
-- The map, as a client that polls for a moving window
-----------------------------------------------------------------------------------------

section

variable {Message Coordinate : Type} [LinearOrder Message] (fromLonLat : ℚ → ℚ → Coordinate)
  (number : String → Message → ℚ) (plotScopeMs : String → ℚ)

def MapPoint.key {Message : Type} (point : MapPoint Message) : Message × ℚ :=
  (point.message, point.servertime)

omit [LinearOrder Message] in
/-- The line is extended by the points of a response, and the mark is that of the last one. -/
theorem updateCoords_spec (map : TrackMap Message Coordinate) (data : List (MapPoint Message))
    : (updateCoords fromLonLat map data).line.map Prod.fst
          = map.line.map Prod.fst ++ data.map MapPoint.message
      ∧ (updateCoords fromLonLat map data).latestUpdateTime
          = (data.getLast?.map MapPoint.servertime).getD map.latestUpdateTime := by
  induction data generalizing map with
  | nil => simp [updateCoords]
  | cons point rest ih =>
      obtain ⟨line, mark⟩ := ih
        { addCoord fromLonLat map point with latestUpdateTime := point.servertime }
      rw [updateCoords, List.foldl_cons, ← updateCoords, line, mark, List.getLast?_cons]
      constructor
      · simp [addCoord]
      · cases rest.getLast? with
        | none => rfl
        | some last => rfl

/-- The map with its set, as a client that polls the same store for a window. -/
structure Follows (s : Mapping Message Coordinate) (a : WindowPolling.State Message ℚ) : Prop where
  store : a.store = s.store
  latest : a.latest = s.map.latestUpdateTime
  integral : ∀ e ∈ s.store.entries, ∃ k : ℤ, e.2 = k

theorem mapData_keys {store : SortedSet Message ℚ}
    (integral : ∀ e ∈ store.entries, ∃ k : ℤ, e.2 = k) (time : ℚ) (latestUpdateTime : ℤ)
    : (mapData number plotScopeMs store time latestUpdateTime).map MapPoint.key
      = store.zrangebyscore (max latestUpdateTime (time - plotScopeMs "MAP")) time := by
  rw [mapData, List.map_map, viewlimit]
  refine (List.map_congr_left ?_).trans (List.map_id _)
  rintro ⟨value, score⟩ answered
  obtain ⟨k, rfl⟩ := integral _ ((SortedSet.mem_zrangebyscore _ _ _ _).mp answered).1
  simp [MapPoint.key]

/-- Every step of the map is one of the window client. -/
theorem Follows.step {s : Mapping Message Coordinate} {a : WindowPolling.State Message ℚ}
    (follows : Follows s a) (event : PageEvent Message)
    : let next := (mapMachine fromLonLat number plotScopeMs).step s event
      let view := WindowPolling.machine.step a (event.window (plotScopeMs "MAP"))
      Follows next.1 view.1 ∧ next.2.map (·.map MapPoint.key) = view.2
        ∧ next.1.map.line.map Prod.fst
          = s.map.line.map Prod.fst ++ view.2.flatten.map Prod.fst := by
  obtain ⟨store, latest, integral⟩ := follows
  cases event with
  | insert message score =>
      refine ⟨⟨?_, latest, ?_⟩, rfl, by simp [mapMachine, WindowPolling.machine, PageEvent.window]⟩
      · simp [WindowPolling.machine, mapMachine, PageEvent.window, store]
      · intro e member
        rcases (SortedSet.mem_zadd _ _ _ _).mp member with rfl | ⟨old, -⟩
        · exact ⟨score, rfl⟩
        · exact integral e old
  | expire deadline =>
      refine ⟨⟨?_, latest, ?_⟩, rfl, by simp [mapMachine, WindowPolling.machine, PageEvent.window]⟩
      · simp [WindowPolling.machine, mapMachine, PageEvent.window, store]
      · exact fun e member => integral e ((SortedSet.mem_zremrangebyscore _ _ _ _).mp member).1
  | poll time =>
      have keys := mapData_keys number plotScopeMs integral time s.map.latestUpdateTime
      have answer : a.answer (time - plotScopeMs "MAP") time
          = (mapData number plotScopeMs s.store time s.map.latestUpdateTime).map MapPoint.key := by
        rw [WindowPolling.State.answer, store, latest, keys]
      obtain ⟨line, mark⟩ := updateCoords_spec fromLonLat s.map
        (mapData number plotScopeMs s.store time s.map.latestUpdateTime)
      refine ⟨⟨store, ?_, integral⟩, ?_, ?_⟩
      · change (Option.map Prod.snd (a.answer _ _).getLast?).getD a.latest
          = ((updateCoords fromLonLat s.map _).latestUpdateTime : ℚ)
        rw [mark, answer, latest, List.getLast?_map]
        generalize List.getLast? _ = last
        cases last with
        | none => rfl
        | some point => rfl
      · simp [mapMachine, WindowPolling.machine, PageEvent.window, answer]
      · change (updateCoords fromLonLat s.map _).line.map Prod.fst = _
        rw [line]
        simp [WindowPolling.machine, PageEvent.window, answer, MapPoint.key, Function.comp_def]

/-- Every run of the map is one of the window client, and its line has what was sent. -/
theorem Follows.run (events : List (PageEvent Message))
    : let s := (mapMachine fromLonLat number plotScopeMs).finish {} events
      let windows := events.map (PageEvent.window (plotScopeMs "MAP"))
      Follows s (WindowPolling.machine.finish (WindowPolling.start (-1)) windows)
        ∧ s.map.line.map Prod.fst
          = (WindowPolling.machine.outputs (WindowPolling.start (-1)) windows).flatten.map
              Prod.fst := by
  induction events using List.reverseRecOn with
  | nil => exact ⟨⟨rfl, by simp [WindowPolling.start], by simp [SortedSet.empty]⟩, rfl⟩
  | append_singleton events event ih =>
      obtain ⟨follows, line⟩ := ih
      obtain ⟨next, -, longer⟩ := follows.step fromLonLat number plotScopeMs event
      simp only [List.map_append, List.map_cons, List.map_nil, Mealy.finish_concat,
        Mealy.outputs_concat, List.flatten_append]
      exact ⟨next, by rw [longer, line]⟩

theorem chart_appended_once_iff (plot : Plot) (events : List (PageEvent Message))
    (ordered : events.Pairwise (PageEvent.Precedes (plotScopeMs plot.plotname)))
    (scores : FromStart events) (i : Fin plot.curves.length)
    : (((plot.machine number plotScopeMs).outputs {} events).flatMap
          fun data => (data.datas i).map Datum.message).Nodup
      ↔ ShownOnce (plotScopeMs plot.plotname) events := by
  have windows := List.pairwise_map.mpr (ordered.imp PageEvent.Precedes.window)
  rw [← windowsApart_iff_shownOnce,
    ← WindowPolling.members_nodup_iff (-1) _ windows (scores.window _),
    ← (Views.run number plotScopeMs plot i events).2, ← List.flatMap_def, List.map_flatMap]
  simp only [List.map_map]
  rfl

theorem track_appended_once_iff (events : List (PageEvent Message))
    (ordered : events.Pairwise (PageEvent.Precedes (plotScopeMs "MAP")))
    (scores : FromStart events)
    : (((mapMachine fromLonLat number plotScopeMs).finish {} events).map.line.map Prod.fst).Nodup
      ↔ ShownOnce (plotScopeMs "MAP") events := by
  have windows := List.pairwise_map.mpr (ordered.imp PageEvent.Precedes.window)
  rw [(Follows.run fromLonLat number plotScopeMs events).2, ← windowsApart_iff_shownOnce]
  exact WindowPolling.members_nodup_iff (-1) _ windows (scores.window _)

/-- No message is appended twice to a dataset of a chart, or to the track line, exactly in the
runs in which no message is in the scope of two polls.
-/
theorem appended_once_iff :
    (∀ (plot : Plot) (events : List (PageEvent Message)),
      events.Pairwise (PageEvent.Precedes (plotScopeMs plot.plotname)) → FromStart events
      → ∀ i : Fin plot.curves.length,
        ((((plot.machine number plotScopeMs).outputs {} events).flatMap
            fun data => (data.datas i).map Datum.message).Nodup
          ↔ ShownOnce (plotScopeMs plot.plotname) events))
    ∧ ∀ events : List (PageEvent Message),
      events.Pairwise (PageEvent.Precedes (plotScopeMs "MAP")) → FromStart events
      → ((((mapMachine fromLonLat number plotScopeMs).finish {} events).map.line.map
            Prod.fst).Nodup
          ↔ ShownOnce (plotScopeMs "MAP") events) :=
  ⟨fun plot events ordered scores i =>
      chart_appended_once_iff number plotScopeMs plot events ordered scores i,
    fun events ordered scores =>
      track_appended_once_iff fromLonLat number plotScopeMs events ordered scores⟩

end

/-- One message, and two polls half a second apart. -/
def polledTwice : List (PageEvent (ℕ ×ₗ ℕ)) :=
  [.insert (toLex (70, 12)) 5000, .poll 5000, .poll 5500]

theorem polledTwice_ordered : polledTwice.Pairwise (PageEvent.Precedes 15000) := by
  simp [polledTwice, PageEvent.Precedes]

theorem polledTwice_fromStart : FromStart polledTwice := by
  intro message score inserted
  simp only [polledTwice, List.mem_cons, PageEvent.insert.injEq, reduceCtorEq, List.not_mem_nil,
    or_false] at inserted
  omega

/-- The message is in the scope of both polls, and appended at both. -/
theorem last_message_appended_again :
    ¬((((distanceData.machine sonarNumber fun _ => 15000).outputs {} polledTwice).flatMap
          fun data => (data.datas ⟨0, distanceData.nonempty⟩).map Datum.message).Nodup
      ∨ (((mapMachine Prod.mk sonarNumber fun _ => 15000).finish {} polledTwice).map.line.map
          Prod.fst).Nodup) := by
  have twice : ¬ShownOnce 15000 polledTwice := by
    intro once
    refine once (polledTwice.take 2) 5500 [] rfl (toLex (70, 12)) 5000 ?_ (by norm_num)
    exact ⟨polledTwice.take 1, 5000, [], rfl, by simp [polledTwice], by norm_num, le_rfl⟩
  rintro (chart | track)
  · exact twice ((chart_appended_once_iff sonarNumber (fun _ => 15000) distanceData polledTwice
      polledTwice_ordered polledTwice_fromStart _).mp chart)
  · exact twice ((track_appended_once_iff Prod.mk sonarNumber (fun _ => 15000) polledTwice
      polledTwice_ordered polledTwice_fromStart).mp track)

/-- The equivalences for this run. -/
theorem appended_once_iff_polledTwice :
    ((((distanceData.machine sonarNumber fun _ => 15000).outputs {} polledTwice).flatMap
          fun data => (data.datas ⟨0, distanceData.nonempty⟩).map Datum.message).Nodup
        ↔ ShownOnce 15000 polledTwice)
      ∧ ((((mapMachine Prod.mk sonarNumber fun _ => 15000).finish {} polledTwice).map.line.map
          Prod.fst).Nodup
        ↔ ShownOnce 15000 polledTwice) :=
  ⟨(appended_once_iff Prod.mk sonarNumber fun _ => 15000).1 distanceData polledTwice
      polledTwice_ordered polledTwice_fromStart _,
    (appended_once_iff Prod.mk sonarNumber fun _ => 15000).2 polledTwice polledTwice_ordered
      polledTwice_fromStart⟩

end Granum.Ground
