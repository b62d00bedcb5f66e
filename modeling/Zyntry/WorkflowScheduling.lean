import Zyntry.BillingModel
import Zyntry.RuntimeUpdate

/-!
# Pending workflow schedules

`run_pending_workflows` takes the workflows one by one, queues those whose schedule is due and
writes when they run next. The schedule is whatever JSON is stored in the definition.
-/

namespace Zyntry

open Python

inductive ScheduleError where
  | typeError
  | valueError
  | attributeError
  | overflowError
deriving DecidableEq

/-- A datetime without an offset, or an instant; in microseconds. -/
inductive Timestamp where
  | naive (time : ℤ)
  | aware (instant : ℤ)

/-- Texts of values and of times. -/
structure TimeFunctions where
  str : Json → String
  /-- None is the `ValueError`. -/
  fromisoformat : String → Option Timestamp
  isoformat : ℤ → String

/-- A row of `workflows`. -/
structure ScheduledWorkflow where
  id : Uuid
  definition : Option Fields

/-! ## Dictionaries -/

/-- The entries of a dictionary in the order in which they are set; the last one of a key counts. -/
abbrev PyDict := List (Json × Json)

/-- An element of the sequence that `dict` is called with. -/
def pairOf : Json → Except ScheduleError (Json × Json)
  | .arr [.arr _, _] => .error .typeError
  | .arr [.obj _, _] => .error .typeError
  | .arr [key, value] => .ok (key, value)
  | .arr _ => .error .valueError
  | .obj [(key, _), (key', _)] => .ok (.str key, .str key')
  | .obj _ => .error .valueError
  | .str text =>
      match text.toList with
      | [c, c'] => .ok (.str (String.ofList [c]), .str (String.ofList [c']))
      | _ => .error .valueError
  | _ => .error .typeError

/-- `dict(value)`. -/
def scheduleDict : Json → Except ScheduleError PyDict
  | .obj fields => .ok (fields.map fun (key, value) => (.str key, value))
  | .arr items => items.mapM pairOf
  | .str text => if text = "" then .ok [] else .error .valueError
  | _ => .error .typeError

/-- `schedule.get(name)`. -/
def PyDict.get (name : String) (entries : PyDict) : Option Json :=
  (entries.reverse.find? fun
    | (.str key, _) => key = name
    | _ => false).map Prod.snd

/-- `now + timedelta(minutes=n)`. -/
def plusMinutes (now n : ℤ) : Except ScheduleError ℤ :=
  if now + n * 60000000 ≤ maxDatetime then .ok (now + n * 60000000) else .error .overflowError

/-- `_calculate_next_workflow_run` of a text. -/
def nextRunOfText (cron : String) (now : ℤ) : Except ScheduleError ℤ :=
  let parts := splitSpaces cron
  let minute := parts.headD "*"
  match startsWith minute "*/", intOfString (String.ofList (minute.toList.drop 2)) with
  | true, .ok n => plusMinutes now (max 1 n)
  | _, _ =>
      if minute = "0" ∧ parts[1]? = some "*" then plusMinutes now 60
      else if minute = "0" ∧ parts[2]? = some "*" then plusMinutes now (24 * 60)
      else plusMinutes now 60

/-- `_calculate_next_workflow_run`. -/
def calculateNextWorkflowRun (cron : Option Json) (now : ℤ) : Except ScheduleError ℤ :=
  match cron.filter Json.truthy with
  | none => plusMinutes now 60
  | some (.str text) => nextRunOfText text now
  | some _ => .error .attributeError

namespace ScheduledWorkflow

variable (times : TimeFunctions) (now : ℤ) (workflow : ScheduledWorkflow)

def schedule : Except ScheduleError PyDict :=
  match (Json.lookup "schedule" (workflow.definition.getD [])).filter Json.truthy with
  | some value => scheduleDict value
  | none => .ok []

/-- The text of the next run of a schedule that is enabled. -/
def nextRunText (schedule : PyDict) : Option String :=
  if (schedule.get "enabled").any Json.truthy then
    ((schedule.get "next_run_at").filter Json.truthy).map times.str
  else none

/-- What the body of the loop queues, and what it raises or writes. -/
structure Visit where
  queued : Option Json := none
  result : Except ScheduleError (Option PyDict) := .ok none

def queueDue (schedule : PyDict) : Visit where
  queued := some (((schedule.get "input_data").filter Json.truthy).getD (.obj []))
  result := (calculateNextWorkflowRun (schedule.get "cron") now).map fun next =>
    some (schedule ++ [(.str "last_run_at", .str (times.isoformat now)),
      (.str "next_run_at", .str (times.isoformat next))])

/-- The body of the loop. -/
def visit : Visit :=
  match workflow.schedule with
  | .error e => { result := .error e }
  | .ok schedule =>
      match (nextRunText times schedule).bind times.fromisoformat with
      | none => {}
      | some (.naive _) => { result := .error .typeError }
      | some (.aware dueAt) => if dueAt > now then {} else queueDue times now schedule

end ScheduledWorkflow

structure WorkflowTick where
  queued : List (ScheduledWorkflow × Json) := []
  /-- The schedules that are written, in the open transaction. -/
  written : List (Uuid × PyDict) := []
  raised : Option ScheduleError := none

/-- The loop. -/
def queueWorkflows (times : TimeFunctions) (now : ℤ) : List ScheduledWorkflow → WorkflowTick
  | [] => {}
  | workflow :: workflows =>
      let visit := workflow.visit times now
      let queued := visit.queued.toList.map fun input => (workflow, input)
      match visit.result with
      | .error e => { queued, raised := some e }
      | .ok change =>
          let rest := queueWorkflows times now workflows
          { queued := queued ++ rest.queued
            written := (change.toList.map fun schedule => (workflow.id, schedule)) ++ rest.written
            raised := rest.raised }

/-- `run_pending_workflows`: the calls of `delay`, and the rows that are committed. -/
def runPendingWorkflows (times : TimeFunctions) (now : ℤ) (workflows : List ScheduledWorkflow) :
    List (ScheduledWorkflow × Json) × Except ScheduleError (List (Uuid × PyDict)) :=
  let tick := queueWorkflows times now workflows
  (tick.queued, match tick.raised with
    | some e => .error e
    | none => .ok tick.written)

/-! ## Entries that raise -/

namespace ScheduledWorkflow

section

variable (times : TimeFunctions) (now : ℤ) (workflow : ScheduledWorkflow)

/-- The body of the loop raises: the schedule is no dictionary, its next run has no offset, or the
run after a due one cannot be computed. -/
def raises : Bool :=
  match workflow.schedule with
  | .error _ => true
  | .ok schedule =>
      match (nextRunText times schedule).bind times.fromisoformat with
      | none => false
      | some (.naive _) => true
      | some (.aware dueAt) =>
          dueAt ≤ now && !(calculateNextWorkflowRun (schedule.get "cron") now).isOk

/-- The schedule is well formed, and its next run is due. -/
def due : Bool :=
  match workflow.schedule with
  | .error _ => false
  | .ok schedule =>
      match (nextRunText times schedule).bind times.fromisoformat with
      | none => false
      | some (.naive _) => false
      | some (.aware dueAt) =>
          dueAt ≤ now && (calculateNextWorkflowRun (schedule.get "cron") now).isOk

end

variable {times : TimeFunctions} {now : ℤ} {workflow : ScheduledWorkflow}

theorem raises_eq : workflow.raises times now = !(workflow.visit times now).result.isOk := by
  unfold visit raises
  cases workflow.schedule with
  | error e => rfl
  | ok schedule =>
      dsimp only
      cases (nextRunText times schedule).bind times.fromisoformat with
      | none => rfl
      | some timestamp =>
          cases timestamp with
          | naive time => rfl
          | aware dueAt =>
              dsimp only
              split_ifs with hlater
              · rw [decide_eq_false (not_le.mpr hlater)]
                rfl
              · rw [decide_eq_true (not_lt.mp hlater), queueDue]
                cases calculateNextWorkflowRun (schedule.get "cron") now <;> rfl

/-- A due workflow is queued, and nothing is raised for it. -/
theorem visit_queued (h : workflow.due times now = true) :
    (workflow.visit times now).queued.isSome = true ∧ workflow.raises times now = false := by
  unfold due at h
  unfold visit raises
  cases hschedule : workflow.schedule with
  | error e =>
      rw [hschedule] at h
      cases h
  | ok schedule =>
      rw [hschedule] at h
      dsimp only at h ⊢
      cases htime : (nextRunText times schedule).bind times.fromisoformat with
      | none =>
          rw [htime] at h
          cases h
      | some timestamp =>
          rw [htime] at h
          cases timestamp with
          | naive time => cases h
          | aware dueAt =>
              obtain ⟨hdue, hnext⟩ := Bool.and_eq_true_iff.mp h
              dsimp only
              rw [if_neg (not_lt.mpr (of_decide_eq_true hdue)), hnext]
              exact ⟨rfl, Bool.and_false _⟩

end ScheduledWorkflow

section

variable {times : TimeFunctions} {now : ℤ}

theorem queueWorkflows_cons (workflow : ScheduledWorkflow) (workflows : List ScheduledWorkflow) :
    (queueWorkflows times now (workflow :: workflows)).queued =
      (workflow.visit times now).queued.toList.map (fun input => (workflow, input)) ++
        if workflow.raises times now then [] else (queueWorkflows times now workflows).queued := by
  rw [queueWorkflows, ScheduledWorkflow.raises_eq]
  cases (workflow.visit times now).result with
  | error e => exact (List.append_nil _).symm
  | ok change => rfl

end

/-- Every well-formed workflow that is due is queued, once for each time it is listed. -/
def QueuesDue (times : TimeFunctions) (now : ℤ) (workflows : List ScheduledWorkflow) : Prop :=
  ((runPendingWorkflows times now workflows).1.map Prod.fst).filter
      (ScheduledWorkflow.due times now) =
    workflows.filter (ScheduledWorkflow.due times now)

section

variable {times : TimeFunctions} {now : ℤ} {workflow : ScheduledWorkflow}
  {workflows : List ScheduledWorkflow}

theorem queuesDue_cons_of_raises (h : workflow.raises times now = true) :
    QueuesDue times now (workflow :: workflows) ↔
      ∀ later ∈ workflows, later.due times now = false := by
  have hdue : workflow.due times now = false := by
    by_contra hdue
    have hnot := (ScheduledWorkflow.visit_queued ((Bool.not_eq_false _).mp hdue)).2
    rw [h] at hnot
    cases hnot
  unfold QueuesDue runPendingWorkflows
  dsimp only
  rw [queueWorkflows_cons, h, if_pos rfl, List.append_nil,
    List.filter_cons_of_neg (by simp [hdue])]
  have hnone : ∀ queued : Option Json, ((queued.toList.map fun input => (workflow, input)).map
      Prod.fst).filter (ScheduledWorkflow.due times now) = [] := by
    intro queued
    cases queued <;> simp [hdue]
  rw [hnone, eq_comm, List.filter_eq_nil_iff]
  simp only [Bool.not_eq_true]

theorem queuesDue_cons_of_not_raises (h : workflow.raises times now = false) :
    QueuesDue times now (workflow :: workflows) ↔ QueuesDue times now workflows := by
  unfold QueuesDue runPendingWorkflows
  dsimp only
  rw [queueWorkflows_cons, h, if_neg (by simp), List.map_append, List.filter_append]
  cases hdue : workflow.due times now with
  | false =>
      rw [List.filter_cons_of_neg (by simp [hdue])]
      cases (workflow.visit times now).queued <;> simp [hdue]
  | true =>
      obtain ⟨input, hinput⟩ :=
        Option.isSome_iff_exists.mp (ScheduledWorkflow.visit_queued hdue).1
      rw [List.filter_cons_of_pos hdue, hinput]
      simp [hdue]

end

/-- The well-formed workflows that are due are queued exactly if none of them comes after a workflow
for which the loop raises. -/
theorem queuesDue_iff (times : TimeFunctions) (now : ℤ) (workflows : List ScheduledWorkflow) :
    QueuesDue times now workflows ↔ workflows.Pairwise fun earlier later =>
      later.due times now = true → earlier.raises times now = false := by
  induction workflows with
  | nil => exact iff_of_true rfl .nil
  | cons workflow workflows ih =>
      rw [List.pairwise_cons]
      cases hraises : workflow.raises times now with
      | true =>
          rw [queuesDue_cons_of_raises hraises]
          constructor
          · intro hnone
            refine ⟨fun later hlater hdue => ?_, ?_⟩
            · rw [hnone later hlater] at hdue
              cases hdue
            · apply List.pairwise_of_forall_mem_list
              intro earlier _ later hlater hdue
              rw [hnone later hlater] at hdue
              cases hdue
          · rintro ⟨hfirst, -⟩ later hlater
            by_contra hdue
            have hnot := hfirst later hlater ((Bool.not_eq_false _).mp hdue)
            cases hnot
      | false =>
          rw [queuesDue_cons_of_not_raises hraises, ih]
          exact (and_iff_right fun _ _ _ => rfl).symm

/-- The times of one day, with an offset and without. -/
def newYear : TimeFunctions where
  str value := match value with
    | .str text => text
    | _ => ""
  fromisoformat text :=
    if text = "2026-01-01T00:00:00" then some (.naive 1767225600000000)
    else if text = "2026-01-01T00:00:00+00:00" then some (.aware 1767225600000000)
    else none
  isoformat _ := "2026-01-02T00:00:00+00:00"

def scheduledAt (id text : String) : ScheduledWorkflow where
  id := ⟨id⟩
  definition := some [("schedule", .obj [("enabled", .bool true), ("next_run_at", .str text)])]

def newYearWorkflows : List ScheduledWorkflow :=
  [scheduledAt "naive" "2026-01-01T00:00:00", scheduledAt "zoned" "2026-01-01T00:00:00+00:00"]

/-- A timestamp without an offset stops the workflow after it. -/
theorem newYearWorkflows_not_queued : ¬QueuesDue newYear 1767312000000000 newYearWorkflows := by
  intro h
  have hlength := congrArg List.length h
  have hqueued : (runPendingWorkflows newYear 1767312000000000 newYearWorkflows).1 = [] := rfl
  rw [hqueued] at hlength
  exact absurd hlength (by decide)

end Zyntry
