import Granum.Ground.TelemetryStore
import Granum.Library.WindowPolling

/-! The plots of the web page. The server answers a poll with the messages of its window that
are not older than the latest one the page has seen; the page appends them to its datasets,
and shifts out what has left the window.
-/

namespace Granum.Ground

/-- The integer that `int` makes of a score. -/
def pyInt (score : ℚ) : ℤ := score.num.tdiv score.den

@[simp] theorem pyInt_intCast (k : ℤ) : pyInt k = k := by simp [pyInt]

/-- A plot: the name of its set and its scope, and for each dataset the key of its values and
what they are divided by.
-/
structure Plot where
  plotname : String
  curves : List (String × ℚ)
  nonempty : 0 < curves.length := by decide

def accData : Plot where
  plotname := "IMU"
  curves := [("xacc", 1000), ("yacc", 1000), ("zacc", 1000)]

def gyroData : Plot where
  plotname := "IMU"
  curves := [("xgyro", 1000), ("ygyro", 1000), ("zgyro", 1000)]

def temperatureBmpData : Plot where
  plotname := "PRESSURE"
  curves := [("temperature", 100)]

def temperatureAmData : Plot where
  plotname := "HUMIDITY"
  curves := [("temperature", 10)]

def pressureData : Plot where
  plotname := "PRESSURE"
  curves := [("press_abs", 1)]

def distanceData : Plot where
  plotname := "DISTANCE"
  curves := [("distance", 1)]

def luminosityData : Plot where
  plotname := "LUMINOSITY"
  curves := [("luminosity", 1)]

def humidityData : Plot where
  plotname := "HUMIDITY"
  curves := [("humidity", 10)]

/-- The plot for the name of a chart. -/
def plotData (chartName : String) : Option Plot :=
  if chartName = "acc" then accData
  else if chartName = "gyro" then gyroData
  else if chartName = "temperature-bmp" then temperatureBmpData
  else if chartName = "temperature-am" then temperatureAmData
  else if chartName = "pressure" then pressureData
  else if chartName = "distance" then distanceData
  else if chartName = "luminosity" then luminosityData
  else if chartName = "humidity" then humidityData
  else none

/-- A point of a dataset, with the message it was made of. -/
structure Datum (Message : Type) where
  message : Message
  x : ℚ
  y : ℚ
  servertime : ℤ
  deriving DecidableEq, Repr

/-- The response to a poll for a plot of `n` datasets. -/
structure PlotAnswer (Message : Type) (n : ℕ) where
  datas : Fin n → List (Datum Message)
  latestUpdateTime : ℤ
  viewlimit : ℚ

/-- A chart of the page. -/
structure Chart (Message : Type) (n : ℕ) where
  datasets : Fin n → List (Datum Message) := fun _ => []
  latestUpdateTime : ℤ := -1

/-- The callback of `updatePlot`: an empty dataset ends its loop by an error that is caught. -/
def updatePlot {Message : Type} {n : ℕ} (chart : Chart Message n) (data : PlotAnswer Message n)
    : Chart Message n where
  datasets i := (chart.datasets i ++ data.datas i).dropWhile (·.servertime < data.viewlimit)
  latestUpdateTime := data.latestUpdateTime

/-- What happens to one set of the store and to a page that polls it. -/
inductive PageEvent (Message : Type)
  | insert (message : Message) (score : ℤ)
  | expire (deadline : ℚ)
  | poll (time : ℤ)
  deriving DecidableEq, Repr

section

variable {Message : Type}

/-- The events of a page with the scope `scope`, as polls for windows. -/
def PageEvent.window (scope : ℚ) : PageEvent Message → WindowPolling.Event Message ℚ
  | .insert message score => .insert message score
  | .expire deadline => .expire 0 deadline
  | .poll time => .poll (time - scope) time

/-- The runs of a page: messages are stored once and with nondecreasing scores, polls do not
go back in time, and what is removed has left the scope of all polls to come.
-/
def PageEvent.Precedes (scope : ℚ) : PageEvent Message → PageEvent Message → Prop
  | .insert message score, .insert message' score' => message ≠ message' ∧ score ≤ score'
  | .poll time, .poll time' => time ≤ time'
  | .expire deadline, .poll time => deadline < time - scope
  | _, _ => True

theorem PageEvent.Precedes.window {scope : ℚ} {a b : PageEvent Message}
    (precedes : a.Precedes scope b) : (a.window scope).Precedes (b.window scope) := by
  cases a <;> cases b
  case insert.insert message score message' score' =>
    exact ⟨precedes.1, by exact_mod_cast precedes.2⟩
  case poll.poll time time' =>
    have order : (time : ℚ) ≤ time' := by exact_mod_cast precedes
    exact ⟨by linarith, order⟩
  case expire.poll deadline time => exact precedes
  all_goals trivial

/-- The runs in which no score is below the mark that a page starts with. -/
def FromStart (events : List (PageEvent Message)) : Prop :=
  ∀ message score, .insert message score ∈ events → -1 ≤ score

theorem FromStart.window {events : List (PageEvent Message)} (scores : FromStart events)
    (scope : ℚ) (message : Message) (score : ℚ)
    (inserted : .insert message score ∈ events.map (PageEvent.window scope)) : -1 ≤ score := by
  obtain ⟨event, member, same⟩ := List.mem_map.mp inserted
  cases event with
  | insert message' score' =>
      obtain ⟨rfl, rfl⟩ := WindowPolling.Event.insert.inj same
      exact_mod_cast scores message' score' member
  | expire deadline => cases same
  | poll time => cases same

variable [LinearOrder Message]

-- the number under a key of a stored message, and the milliseconds of `..._PLOT_SCOPE_MS`
variable (number : String → Message → ℚ) (plotScopeMs : String → ℚ)

def viewlimit (plotname : String) (timebase : ℚ) : ℚ := timebase - plotScopeMs plotname

/-- The points of a dataset, from what is stored since the latest update or in the scope. -/
def getDataAbstract (store : SortedSet Message ℚ) (plotname yvalueName : String) (time : ℚ)
    (latestUpdateTime : ℤ) : List (Datum Message) :=
  let latestUpdateTime : ℚ := max latestUpdateTime (viewlimit plotScopeMs plotname time)
  (store.zrangebyscore latestUpdateTime time).map fun (value, score) =>
    { message := value
      x := number "time_boot_ms" value / 1000
      y := number yvalueName value
      servertime := pyInt score }

/-- The functions `_get_..._data`: the latest update is the last point of the first dataset,
or else it is echoed.
-/
def Plot.getData (plot : Plot) (store : SortedSet Message ℚ) (time : ℚ) (latestUpdateTime : ℤ)
    : PlotAnswer Message plot.curves.length :=
  let datas (i : Fin plot.curves.length) :=
    getDataAbstract number plotScopeMs store plot.plotname (plot.curves.get i).1 time
      latestUpdateTime
  { datas := fun i => (datas i).map fun d => { d with y := d.y / (plot.curves.get i).2 }
    latestUpdateTime :=
      ((datas ⟨0, plot.nonempty⟩).getLast?.map Datum.servertime).getD latestUpdateTime
    viewlimit := viewlimit plotScopeMs plot.plotname time }

/-- The set of a plot, and its chart. -/
structure Plotting (Message : Type) [LinearOrder Message] (n : ℕ) where
  store : SortedSet Message ℚ := .empty
  chart : Chart Message n := {}

/-- Each poll outputs its response. -/
def Plot.machine (plot : Plot) : Mealy (Plotting Message plot.curves.length) (PageEvent Message)
    (PlotAnswer Message plot.curves.length) where
  step s
    | .insert message score => ({ s with store := s.store.zadd score message }, [])
    | .expire deadline => ({ s with store := s.store.zremrangebyscore 0 deadline }, [])
    | .poll time =>
        let data := plot.getData number plotScopeMs s.store time s.chart.latestUpdateTime
        ({ s with chart := updatePlot s.chart data }, [data])

/-- A call of `update_zset` stores the text of its message and removes what is too old. -/
theorem updateZset_events {Content : Type} (dumps : Content → Message) (putback : ℚ)
    (store : RedisStore Message) (u : ZsetUpdate Content) (plot : Plot)
    (chart : Chart Message plot.curves.length)
    : ((plot.machine number plotScopeMs).finish { store := store u.setName, chart }
        [.insert (dumps u.message) u.timestamp, .expire (u.deadline putback)]).store
      = updateZset dumps putback store u u.setName := by
  simp [Plot.machine, Mealy.finish, updateZset_same]

-----------------------------------------------------------------------------------------
-- A dataset is polled for a moving window
-----------------------------------------------------------------------------------------

def Datum.key (d : Datum Message) : Message × ℚ := (d.message, d.servertime)

/-- The dataset of a chart, as a client that polls the same store for a window. -/
structure Views {n : ℕ} (i : Fin n) (s : Plotting Message n) (a : WindowPolling.State Message ℚ)
    : Prop where
  store : a.store = s.store
  latest : a.latest = s.chart.latestUpdateTime
  held : a.held = (s.chart.datasets i).map Datum.key
  integral : ∀ e ∈ s.store.entries, ∃ k : ℤ, e.2 = k

/-- The points for a poll are those of its window, as the scores are integers. -/
theorem getDataAbstract_keys {store : SortedSet Message ℚ}
    (integral : ∀ e ∈ store.entries, ∃ k : ℤ, e.2 = k) (plotname yvalueName : String) (time : ℚ)
    (latestUpdateTime : ℤ)
    : (getDataAbstract number plotScopeMs store plotname yvalueName time latestUpdateTime).map
        Datum.key
      = store.zrangebyscore (max latestUpdateTime (time - plotScopeMs plotname)) time := by
  rw [getDataAbstract, List.map_map, viewlimit]
  refine (List.map_congr_left ?_).trans (List.map_id _)
  rintro ⟨value, score⟩ answered
  obtain ⟨k, rfl⟩ := integral _ ((SortedSet.mem_zrangebyscore _ _ _ _).mp answered).1
  simp [Datum.key]

/-- A response has the points of the window in each dataset, and the mark moves with them. -/
theorem getData_window (plot : Plot) {store : SortedSet Message ℚ}
    (integral : ∀ e ∈ store.entries, ∃ k : ℤ, e.2 = k) (time : ℚ) (latestUpdateTime : ℤ)
    : let answer := store.zrangebyscore
          (max (latestUpdateTime : ℚ) (time - plotScopeMs plot.plotname)) time
      let data := plot.getData number plotScopeMs store time latestUpdateTime
      (∀ i, (data.datas i).map Datum.key = answer)
        ∧ (data.latestUpdateTime : ℚ) = (answer.getLast?.map Prod.snd).getD latestUpdateTime := by
  constructor
  · intro i
    rw [← getDataAbstract_keys number plotScopeMs integral _ (plot.curves.get i).1, Plot.getData, List.map_map]
    rfl
  · rw [← getDataAbstract_keys number plotScopeMs integral _ (plot.curves.get ⟨0, plot.nonempty⟩).1, Plot.getData,
      List.getLast?_map]
    generalize List.getLast? _ = last
    cases last with
    | none => rfl
    | some d => rfl

/-- Every step of a page is one of the window client. -/
theorem Views.step {plot : Plot} {i : Fin plot.curves.length}
    {s : Plotting Message plot.curves.length} {a : WindowPolling.State Message ℚ}
    (views : Views i s a) (event : PageEvent Message)
    : let next := (plot.machine number plotScopeMs).step s event
      let view := WindowPolling.machine.step a (event.window (plotScopeMs plot.plotname))
      Views i next.1 view.1 ∧ next.2.map (fun data => (data.datas i).map Datum.key) = view.2 := by
  obtain ⟨store, latest, held, integral⟩ := views
  cases event with
  | insert message score =>
      refine ⟨⟨?_, latest, held, ?_⟩, rfl⟩
      · simp [WindowPolling.machine, Plot.machine, PageEvent.window, store]
      · intro e member
        rcases (SortedSet.mem_zadd _ _ _ _).mp member with rfl | ⟨old, -⟩
        · exact ⟨score, rfl⟩
        · exact integral e old
  | expire deadline =>
      refine ⟨⟨?_, latest, held, ?_⟩, rfl⟩
      · simp [WindowPolling.machine, Plot.machine, PageEvent.window, store]
      · exact fun e member => integral e ((SortedSet.mem_zremrangebyscore _ _ _ _).mp member).1
  | poll time =>
      obtain ⟨datas, mark⟩ := getData_window number plotScopeMs plot integral time
        s.chart.latestUpdateTime
      have answer : a.answer (time - plotScopeMs plot.plotname) time
          = s.store.zrangebyscore
              (max (s.chart.latestUpdateTime : ℚ) (time - plotScopeMs plot.plotname)) time := by
        rw [WindowPolling.State.answer, store, latest]
      refine ⟨⟨store, ?_, ?_, integral⟩, ?_⟩
      · change (Option.map Prod.snd (a.answer _ _).getLast?).getD a.latest = _
        rw [answer, latest]
        exact mark.symm
      · change List.dropWhile _ (a.held ++ a.answer _ _) = _
        rw [answer, held, ← datas i, ← List.map_append, List.dropWhile_map]
        rfl
      · simp [Plot.machine, WindowPolling.machine, PageEvent.window, answer, datas i]

/-- Every run of a page is one of the window client, by induction on its events. -/
theorem Views.run (plot : Plot) (i : Fin plot.curves.length) (events : List (PageEvent Message))
    : let m := plot.machine number plotScopeMs
      let windows := events.map (PageEvent.window (plotScopeMs plot.plotname))
      Views i (m.finish {} events)
          (WindowPolling.machine.finish (WindowPolling.start (-1)) windows)
        ∧ (m.outputs {} events).map (fun data => (data.datas i).map Datum.key)
          = WindowPolling.machine.outputs (WindowPolling.start (-1)) windows := by
  induction events using List.reverseRecOn with
  | nil => exact ⟨⟨rfl, by simp [WindowPolling.start], rfl, by simp [SortedSet.empty]⟩, rfl⟩
  | append_singleton events event ih =>
      obtain ⟨views, outputs⟩ := ih
      obtain ⟨next, output⟩ := views.step number plotScopeMs event
      simp only [List.map_append, List.map_cons, List.map_nil, Mealy.finish_concat,
        Mealy.outputs_concat]
      exact ⟨next, by rw [outputs, output]⟩

end

/-- The numbers of a sonar message, which is its time since boot and its distance. -/
def sonarNumber (key : String) (message : ℕ ×ₗ ℕ) : ℚ :=
  if key = "time_boot_ms" then (ofLex message).1
  else if key = "distance" then (ofLex message).2
  else 0

end Granum.Ground
