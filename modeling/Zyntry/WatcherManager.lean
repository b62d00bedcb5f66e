import Zyntry.PythonText
import Zyntry.RowTable
import Zyntry.StepRuns

/-!
# The watchers of the sources

The manager keeps one watcher for a source id, and a watcher has a flag and the task of its
poll loop. A stopped loop has ended before `stop` returns, and a loop gives up after its fifth
failure in a row. `Sound` is the condition under which the flag tells what the task does.
-/

namespace Zyntry

open Python StepRuns

inductive WatcherKind where
  | github
  | googleDrive
  | notion
  | slack
  | postgres
deriving DecidableEq, Repr

inductive WatcherError where
  | attributeError
  | valueError (message : String)
deriving DecidableEq, Repr

/-- The task of a poll loop. -/
inductive WatcherTask where
  | running
  | ended
deriving DecidableEq, Repr

/-- How one `poll` ends. -/
inductive PollOutcome where
  | succeeds
  | fails
  /-- `CancelledError`, without a call of `stop`. -/
  | cancelled
deriving DecidableEq, Repr

structure BaseWatcher (Connector : Type) where
  sourceId : String
  kind : WatcherKind
  connector : Connector
  pollInterval : ℤ := 60
  running : Bool := false
  task : Option WatcherTask := none
  reconnectAttempts : ℕ := 0
  reconnectBackoff : ℕ := 1
deriving DecidableEq

namespace BaseWatcher

variable {Connector : Type}

def maxReconnectAttempts : ℕ := 5

def start (w : BaseWatcher Connector) : BaseWatcher Connector :=
  if w.running then w
  else
    { w with running := true, reconnectAttempts := 0, reconnectBackoff := 1, task := some .running }

/-- The loop is cancelled and waited for. -/
def stop (w : BaseWatcher Connector) : BaseWatcher Connector :=
  { w with running := false, task := none }

/-- One round of `_run_loop`. -/
def round (w : BaseWatcher Connector) : PollOutcome → BaseWatcher Connector
  | .succeeds => { w with reconnectAttempts := 0, reconnectBackoff := 1 }
  | .fails =>
      let attempts := w.reconnectAttempts + 1
      if maxReconnectAttempts ≤ attempts then
        { w with reconnectAttempts := attempts, task := some .ended }
      else
        { w with
          reconnectAttempts := attempts
          reconnectBackoff := min (w.reconnectBackoff * 2) 60 }
  | .cancelled => { w with task := some .ended }

/-- A poll ends, if the loop is there to poll. -/
def pollEnds (w : BaseWatcher Connector) (outcome : PollOutcome) : BaseWatcher Connector :=
  if w.task = some .running then w.round outcome else w

@[simp] theorem start_sourceId (w : BaseWatcher Connector) : w.start.sourceId = w.sourceId := by
  unfold start
  split_ifs <;> rfl

@[simp] theorem start_connector (w : BaseWatcher Connector) :
    w.start.connector = w.connector := by
  unfold start
  split_ifs <;> rfl

@[simp] theorem stop_sourceId (w : BaseWatcher Connector) : w.stop.sourceId = w.sourceId := rfl

@[simp] theorem stop_connector (w : BaseWatcher Connector) : w.stop.connector = w.connector := rfl

@[simp] theorem pollEnds_sourceId (w : BaseWatcher Connector) (outcome : PollOutcome) :
    (w.pollEnds outcome).sourceId = w.sourceId := by
  unfold pollEnds
  split_ifs
  · cases outcome with
    | fails =>
      simp only [round]
      split_ifs <;> rfl
    | _ => rfl
  · rfl

/-- The flag is set exactly while the loop runs. -/
def Consistent (w : BaseWatcher Connector) : Prop := w.running = true ↔ w.task = some .running

theorem consistent_stop (w : BaseWatcher Connector) : w.stop.Consistent := by
  simp [Consistent, stop]

theorem start_task {w : BaseWatcher Connector} (h : w.Consistent) :
    w.start.task = some .running := by
  unfold start
  split_ifs with hrunning
  · exact h.mp hrunning
  · rfl

theorem consistent_start {w : BaseWatcher Connector} (h : w.Consistent) :
    w.start.Consistent := by
  unfold start
  split_ifs
  · exact h
  · simp [Consistent]

/-- The poll leaves the loop running. -/
def Survives (w : BaseWatcher Connector) : PollOutcome → Prop
  | .succeeds => True
  | .fails => w.task = some .running → w.reconnectAttempts + 1 < maxReconnectAttempts
  | .cancelled => w.task ≠ some .running

/-- The flag stays what it was, and the loop ends exactly if it does not survive. -/
theorem consistent_pollEnds {w : BaseWatcher Connector} (h : w.Consistent)
    (outcome : PollOutcome) : (w.pollEnds outcome).Consistent ↔ w.Survives outcome := by
  unfold pollEnds
  by_cases htask : w.task = some .running
  · have hrunning := h.mpr htask
    rw [if_pos htask]
    cases outcome with
    | succeeds => simp [Consistent, round, Survives, hrunning, htask]
    | fails =>
      simp only [round, Survives, htask, true_implies]
      split_ifs with hmax
      · simp only [Consistent, hrunning, true_iff]
        constructor
        · intro hended
          cases hended
        · intro hless
          omega
      · rw [Consistent]
        refine iff_of_true (iff_of_true hrunning rfl) ?_
        omega
    | cancelled => simp [Consistent, round, Survives, hrunning, htask]
  · rw [if_neg htask]
    have hsurvives : w.Survives outcome := by
      cases outcome with
      | succeeds => trivial
      | fails => exact fun hrunning => absurd hrunning htask
      | cancelled => exact htask
    exact ⟨fun _ => hsurvives, fun _ => h⟩

end BaseWatcher

/-! ## The manager -/

section Manager

variable {Connector : Type} (config : Connector → List (String × Json))

abbrev WatcherTable (Connector : Type) :=
  RowTable String (BaseWatcher Connector) BaseWatcher.sourceId

/-- `connector.config.get("source_type", "").lower()`. -/
def sourceType (connector : Connector) : Except WatcherError String :=
  match Json.lookup "source_type" (config connector) with
  | none => .ok ""
  | some (.str s) => .ok (lower s)
  | some _ => .error .attributeError

def watcherMap (sourceType : String) : Option WatcherKind :=
  [("github", WatcherKind.github), ("google_drive", .googleDrive), ("notion", .notion),
    ("slack", .slack), ("postgres", .postgres)].lookup sourceType

/-- A new watcher for a source that has none. -/
def newWatcher (sourceId : String) (connector : Connector) (pollInterval : ℤ) :
    Except WatcherError (BaseWatcher Connector) := do
  let type ← sourceType config connector
  match watcherMap type with
  | none => .error (.valueError ("No watcher for source type: " ++ type))
  | some kind => .ok { sourceId, kind, connector, pollInterval }

inductive WatcherEvent (Connector : Type) where
  | startSource (sourceId : String) (connector : Connector) (pollInterval : ℤ := 60)
  | stopSource (sourceId : String)
  | restartSource (sourceId : String) (connector : Connector) (pollInterval : ℤ := 60)
  | stopAll
  | pollEnds (sourceId : String) (outcome : PollOutcome)

def startWatcher (t : WatcherTable Connector) (sourceId : String) : WatcherTable Connector :=
  t.update sourceId BaseWatcher.start BaseWatcher.start_sourceId

def stopSource (t : WatcherTable Connector) (sourceId : String) : WatcherTable Connector :=
  t.update sourceId BaseWatcher.stop BaseWatcher.stop_sourceId

def startSource (t : WatcherTable Connector) (sourceId : String) (connector : Connector)
    (pollInterval : ℤ) : Except WatcherError (WatcherTable Connector) :=
  match t.get? sourceId with
  | some _ => .ok (startWatcher t sourceId)
  | none => do
      let watcher ← newWatcher config sourceId connector pollInterval
      .ok (startWatcher (t.insert watcher) sourceId)

def getActive (t : WatcherTable Connector) : List String :=
  (t.rows.filter fun w => w.running).map BaseWatcher.sourceId

/-- A call that raises leaves what there was before its last part. -/
def afterCall (t : WatcherTable Connector) :
    Except WatcherError (WatcherTable Connector) → WatcherTable Connector
  | .ok started => started
  | .error _ => t

def watcherStep (t : WatcherTable Connector) : WatcherEvent Connector → WatcherTable Connector
  | .startSource s connector pollInterval =>
      afterCall t (startSource config t s connector pollInterval)
  | .stopSource s => stopSource t s
  | .restartSource s connector pollInterval =>
      let stopped := stopSource t s
      afterCall stopped (startSource config stopped s connector pollInterval)
  | .stopAll => (t.rows.map BaseWatcher.sourceId).foldl stopSource t
  | .pollEnds s outcome =>
      t.update s (fun w => w.pollEnds outcome) fun w => w.pollEnds_sourceId outcome

/-- A loop runs for the source and polls through the connector. -/
def Polls (t : WatcherTable Connector) (s : String) (connector : Connector) : Prop :=
  ∃ w, t.get? s = some w ∧ w.task = some .running ∧ w.connector = connector

/-- What the caller of `start_source` or `restart_source` relies on, if the call returns. -/
def Answers (t : WatcherTable Connector) : WatcherEvent Connector → Prop
  | .startSource s connector pollInterval =>
      ∀ started, startSource config t s connector pollInterval = .ok started →
        Polls started s connector
  | .restartSource s connector pollInterval =>
      ∀ started, startSource config (stopSource t s) s connector pollInterval = .ok started →
        Polls started s connector
  | _ => True

/-- `get_active` lists the sources whose loop runs. -/
def ActiveExact (t : WatcherTable Connector) : Prop :=
  ∀ s, s ∈ getActive t ↔ ∃ w, t.get? s = some w ∧ w.task = some .running

/-- A source that is registered is started with its own connector, and a loop does not end by
itself. -/
def Sound (t : WatcherTable Connector) : WatcherEvent Connector → Prop
  | .startSource s connector _ => ∀ w, t.get? s = some w → w.connector = connector
  | .restartSource s connector _ => ∀ w, t.get? s = some w → w.connector = connector
  | .pollEnds s outcome => ∀ w, t.get? s = some w → w.Survives outcome
  | _ => True

/-! ## Flags and loops -/

def AllConsistent (t : WatcherTable Connector) : Prop := ∀ w ∈ t.rows, w.Consistent

variable {config} {t started : WatcherTable Connector} {s : String}
  {connector connector' : Connector} {pollInterval : ℤ}

theorem mem_getActive : s ∈ getActive t ↔ ∃ w, t.get? s = some w ∧ w.running = true := by
  constructor
  · intro hmem
    obtain ⟨w, hw, rfl⟩ := List.mem_map.mp hmem
    obtain ⟨hrow, hrunning⟩ := List.mem_filter.mp hw
    exact ⟨w, RowTable.get?_of_mem hrow, hrunning⟩
  · rintro ⟨w, hget, hrunning⟩
    have hmem := List.mem_filter.mpr ⟨RowTable.get?_some_mem hget, hrunning⟩
    exact List.mem_map.mpr ⟨w, hmem, RowTable.get?_some_key hget⟩

/-- The active sources are listed exactly if no flag is wrong. -/
theorem activeExact_iff : ActiveExact t ↔ AllConsistent t := by
  constructor
  · intro h w hw
    have hget := RowTable.get?_of_mem hw
    have hiff := h w.sourceId
    rw [mem_getActive] at hiff
    simp only [hget, Option.some.injEq, exists_eq_left'] at hiff
    exact hiff
  · intro h s
    rw [mem_getActive]
    refine exists_congr fun w => and_congr_right fun hget => ?_
    exact h w (RowTable.get?_some_mem hget)

theorem allConsistent_update (h : AllConsistent t)
    (f : BaseWatcher Connector → BaseWatcher Connector) (hf : ∀ w, (f w).sourceId = w.sourceId) :
    AllConsistent (t.update s f hf) ↔ ∀ w, t.get? s = some w → (f w).Consistent := by
  constructor
  · intro hall w hget
    apply hall
    apply RowTable.get?_some_mem
    rw [RowTable.get?_update_self, hget, Option.map_some]
  · intro hwatcher w hw
    obtain ⟨hold, -⟩ | ⟨w', hget, rfl⟩ := RowTable.mem_rows_update hf hw
    · exact h w hold
    · exact hwatcher w' hget

theorem AllConsistent.stopSource (h : AllConsistent t) (s : String) :
    AllConsistent (stopSource t s) :=
  (allConsistent_update h _ _).mpr fun w _ => w.consistent_stop

theorem AllConsistent.stopAll (h : AllConsistent t) (sources : List String) :
    AllConsistent (sources.foldl Zyntry.stopSource t) := by
  induction sources generalizing t with
  | nil => exact h
  | cons s sources ih => exact ih (h.stopSource s)

theorem AllConsistent.startWatcher (h : AllConsistent t) (s : String) :
    AllConsistent (startWatcher t s) :=
  (allConsistent_update h _ _).mpr fun _ hget =>
    BaseWatcher.consistent_start (h _ (RowTable.get?_some_mem hget))

theorem AllConsistent.insert (h : AllConsistent t) {w : BaseWatcher Connector}
    (hw : w.Consistent) : AllConsistent (t.insert w) := by
  intro w' hw'
  obtain hold | rfl := RowTable.mem_rows_insert hw'
  · exact h w' hold
  · exact hw

/-- A new watcher has no loop yet. -/
theorem newWatcher_eq_ok {w : BaseWatcher Connector}
    (h : newWatcher config s connector pollInterval = .ok w) :
    w.sourceId = s ∧ w.connector = connector ∧ w.Consistent := by
  obtain ⟨type, -, hkind⟩ := bind_eq_ok.mp h
  cases hmap : watcherMap type with
  | none =>
    rw [hmap] at hkind
    cases hkind
  | some kind =>
    rw [hmap] at hkind
    cases hkind
    exact ⟨rfl, rfl, by simp [BaseWatcher.Consistent]⟩

theorem polls_startWatcher {w : BaseWatcher Connector} (h : AllConsistent t)
    (hget : t.get? s = some w) : Polls (startWatcher t s) s w.connector := by
  refine ⟨w.start, ?_, BaseWatcher.start_task (h w (RowTable.get?_some_mem hget)), by simp⟩
  rw [startWatcher, RowTable.get?_update_self, hget, Option.map_some]

theorem polls_iff (h : Polls t s connector) : Polls t s connector' ↔ connector = connector' := by
  obtain ⟨w, hget, htask, rfl⟩ := h
  constructor
  · rintro ⟨w', hget', -, rfl⟩
    cases hget.symm.trans hget'
    rfl
  · rintro rfl
    exact ⟨w, hget, htask, rfl⟩

/-- What a start that returns has done: the loop runs, through the connector that is
registered for the source. -/
theorem startSource_eq_ok (h : AllConsistent t)
    (hstart : startSource config t s connector pollInterval = .ok started) :
    AllConsistent started ∧
      Polls started s ((t.get? s).elim connector BaseWatcher.connector) := by
  unfold startSource at hstart
  cases hget : t.get? s with
  | some w =>
    simp only [hget] at hstart
    cases hstart
    exact ⟨h.startWatcher s, polls_startWatcher h hget⟩
  | none =>
    simp only [hget] at hstart
    obtain ⟨w, hnew, hok⟩ := bind_eq_ok.mp hstart
    cases hok
    obtain ⟨rfl, rfl, hw⟩ := newWatcher_eq_ok hnew
    have hinsert := h.insert hw
    exact ⟨hinsert.startWatcher _, polls_startWatcher hinsert (RowTable.get?_insert_self hget)⟩

/-- Only a source that is not registered can be refused. -/
theorem startSource_of_get? {w : BaseWatcher Connector} (hget : t.get? s = some w) :
    startSource config t s connector pollInterval = .ok (startWatcher t s) := by
  simp only [startSource, hget]

theorem answers_startSource_iff (h : AllConsistent t) :
    (∀ started, startSource config t s connector pollInterval = .ok started →
      Polls started s connector) ↔ ∀ w, t.get? s = some w → w.connector = connector := by
  constructor
  · intro hanswers w hget
    have hpolls := hanswers _ (startSource_of_get? hget)
    exact (polls_iff (polls_startWatcher h hget)).mp hpolls
  · intro hsame started hstart
    obtain ⟨-, hpolls⟩ := startSource_eq_ok h hstart
    cases hget : t.get? s with
    | none =>
      rw [hget] at hpolls
      exact hpolls
    | some w =>
      rw [hget] at hpolls
      exact (polls_iff hpolls).mpr (hsame w hget)

theorem AllConsistent.startSource (h : AllConsistent t) (s : String) (connector : Connector)
    (pollInterval : ℤ) :
    AllConsistent (afterCall t (startSource config t s connector pollInterval)) := by
  cases hstart : Zyntry.startSource config t s connector pollInterval with
  | error e => exact h
  | ok started => exact (startSource_eq_ok h hstart).1

theorem get?_stopSource (t : WatcherTable Connector) (s : String) :
    (stopSource t s).get? s = (t.get? s).map BaseWatcher.stop := RowTable.get?_update_self ..

/-- The step lemma: a sound step is one that does what its caller relies on and leaves the list
of active sources right. -/
theorem sound_iff (h : AllConsistent t) (e : WatcherEvent Connector) :
    Answers config t e ∧ ActiveExact (watcherStep config t e) ↔ Sound t e := by
  rw [activeExact_iff]
  cases e with
  | startSource s connector pollInterval =>
    rw [Answers, Sound, answers_startSource_iff h]
    exact and_iff_left (h.startSource s connector pollInterval)
  | stopSource s => exact ⟨fun _ => trivial, fun _ => ⟨trivial, h.stopSource s⟩⟩
  | restartSource s connector pollInterval =>
    have hstopped := h.stopSource s
    rw [Answers, Sound, answers_startSource_iff hstopped, get?_stopSource, watcherStep]
    rw [and_iff_left (hstopped.startSource s connector pollInterval)]
    simp
  | stopAll => exact ⟨fun _ => trivial, fun _ => ⟨trivial, h.stopAll _⟩⟩
  | pollEnds s outcome =>
    simp only [Answers, Sound, true_and, watcherStep, allConsistent_update h]
    refine forall_congr' fun w => forall_congr' fun hget => ?_
    exact BaseWatcher.consistent_pollEnds (h w (RowTable.get?_some_mem hget)) outcome

/-- From the empty manager, every call does what its caller relies on and the active sources
are always listed right exactly if every source is started with its own connector and no loop
ends by itself. -/
theorem watcherManager_sound_iff (config : Connector → List (String × Json))
    (events : List (WatcherEvent Connector)) :
    Along (watcherStep config)
        (fun t e => Answers config t e ∧ ActiveExact (watcherStep config t e)) default events ↔
      Along (watcherStep config) Sound default events := by
  apply along_congr (I := AllConsistent) (fun t e h => sound_iff h e)
  · intro t e _ hstep
    exact activeExact_iff.mp hstep.2
  · intro w hw
    cases hw

end Manager

/-! ## A loop that gives up -/

/-- A connector is told by its token. -/
def slackConfig : String → List (String × Json) := fun _ => [("source_type", .str "Slack")]

def gaveUp : List (WatcherEvent String) :=
  .startSource "support" "old" :: List.replicate 5 (.pollEnds "support" .fails)

def startedAgain : List (WatcherEvent String) := gaveUp ++ [.startSource "support" "old"]

def restartedWithNew : List (WatcherEvent String) :=
  [.startSource "support" "old", .restartSource "support" "new"]

/-- The loop that has given up is listed, and a start does not start another one. A restart with
a new connector keeps the old one. -/
theorem gaveUp_listed :
    getActive (gaveUp.foldl (watcherStep slackConfig) default) = ["support"] ∧
    ((startedAgain.foldl (watcherStep slackConfig) default).get? "support").map
      BaseWatcher.task = some (some .ended) ∧
    ((restartedWithNew.foldl (watcherStep slackConfig) default).get? "support").map
      BaseWatcher.connector = some "old" := by
  decide

end Zyntry
