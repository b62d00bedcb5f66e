import Zyntry.ActionRecords

/-!
# Runs of workflows

`execute_workflow` takes the steps of a workflow in order. The results are kept by the names of
their actions in a dictionary that starts with the values of the caller, and a step with a
dependency looks its name up there.
-/

namespace Zyntry

open Python

/-! ## Steps -/

structure WorkflowStep where
  provider : String
  action : String
  arguments : Fields := []
  dependsOn : Option String := none
  condition : Option String := none

/-- An action of the catalog, in the fields that decide whether it writes. -/
structure CatalogAction where
  name : String
  risk : String
  requiredPermissions : List String

/-- A value of the context: JSON, or the response of a provider. -/
inductive StepResult where
  | value (v : Json)
  | response (success : Bool)

namespace StepResult

def isNone : StepResult → Bool
  | .value .null => true
  | _ => false

def truthy : StepResult → Bool
  | .value v => v.truthy
  | .response _ => true

/-- The result does not report a failure. -/
def succeeded : StepResult → Bool
  | .value _ => true
  | .response success => success

end StepResult

abbrev WorkflowContext := String → Option StepResult

inductive StepOutcome where
  | raised (text : String)
  | returned (result : StepResult)

/-- A workflow with what the catalog, the tokens and the connectors give in a run. A connector may
answer each step on its own. -/
structure Workflow where
  userId : Uuid
  projectId : String
  steps : List WorkflowStep
  context : WorkflowContext := fun _ => none
  confirm : Bool := false
  /-- The tokens of `pre_resolve_project_tokens`, unless nothing is resolved. -/
  resolvedTokens : Option Json := none
  catalog : String → List CatalogAction := fun _ => []
  connector : ℕ → WorkflowStep → WorkflowContext → StepOutcome

def writeActionPrefixes : List String :=
  ["create", "update", "delete", "remove", "send", "post", "put", "patch", "upload", "invite",
   "pin", "schedule", "trigger", "merge", "close", "cancel", "archive", "revoke", "comment",
   "commit", "add", "modify", "move", "rename", "set", "write"]

/-- `requires_action_confirmation`. -/
def requiresActionConfirmation (action : String) (definition : Option CatalogAction) : Bool :=
  (definition.any fun d =>
    d.requiredPermissions.any (fun item => lower item = "write") ||
      d.risk ∈ ["medium", "high", "critical"]) ||
  writeActionPrefixes.any (startsWith (lower (stripped action)))

/-- How the body of the loop ends for a step. -/
inductive StepEnd where
  | dependencyMissing
  | conditionNotMet
  | unconfirmed
  | raised (text : String)
  | completed (result : StepResult)

namespace StepEnd

/-- `break`. -/
def stops : StepEnd → Bool
  | .unconfirmed => true
  | .raised _ => true
  | _ => false

/-- The connector is called. -/
def executed : StepEnd → Bool
  | .raised _ => true
  | .completed _ => true
  | _ => false

end StepEnd

/-- A string that is not empty. -/
def given (name : Option String) : Option String := name.filter (· ≠ "")

namespace Workflow

variable (w : Workflow)

/-- The context before the first step. -/
def startContext : WorkflowContext :=
  let context := Function.update w.context "user_id" (some (.value (.str w.userId.str)))
  let context := Function.update context "project_id" (some (.value (.str w.projectId)))
  let context := Function.update context "confirmed" (some (.value (.bool w.confirm)))
  match w.resolvedTokens with
  | some tokens => Function.update context "_resolved_oauth_tokens" (some (.value tokens))
  | none => context

/-- `context.get(name) is None`. -/
def missing (context : WorkflowContext) (name : String) : Bool :=
  (context name).all StepResult.isNone

/-- A step that passes its dependency is held back by its condition or as a write that is not
confirmed. -/
def heldBack (context : WorkflowContext) (step : WorkflowStep) : Option StepEnd :=
  if (given step.condition).any fun name => !(context name).any StepResult.truthy then
    some .conditionNotMet
  else if requiresActionConfirmation step.action
      ((w.catalog step.provider).find? fun item => item.name = step.action) && !w.confirm then
    some .unconfirmed
  else none

/-- The body of the loop. -/
def endOf (index : ℕ) (context : WorkflowContext) (step : WorkflowStep) : StepEnd :=
  if (given step.dependsOn).any (missing context) then .dependencyMissing
  else
    match w.heldBack context step with
    | some held => held
    | none =>
        match w.connector index step context with
        | .raised text => .raised text
        | .returned result => .completed result

end Workflow

/-- `context[step.action] = result`. -/
def nextContext (context : WorkflowContext) : WorkflowStep × StepEnd → WorkflowContext
  | (step, .completed result) => Function.update context step.action (some result)
  | _ => context

namespace Workflow

variable (w : Workflow)

/-- The steps that the loop reaches, with how each ends. -/
def visits : ℕ → WorkflowContext → List WorkflowStep → List (WorkflowStep × StepEnd)
  | _, _, [] => []
  | index, context, step :: steps =>
      let stepEnd := w.endOf index context step
      (step, stepEnd) ::
        if stepEnd.stops then []
        else visits (index + 1) (nextContext context (step, stepEnd)) steps

def run : List (WorkflowStep × StepEnd) := w.visits 0 w.startContext w.steps

end Workflow

/-! ## Events -/

inductive WorkflowEvent where
  | stepStart (step : WorkflowStep)
  | stepError (step : WorkflowStep) (error : String)
  | stepSkipped (step : WorkflowStep) (reason : String)
  | stepComplete (step : WorkflowStep) (result : StepResult)
  | workflowComplete

def StepEnd.event (step : WorkflowStep) : StepEnd → WorkflowEvent
  | .dependencyMissing =>
      .stepError step ("Dependency '" ++ step.dependsOn.getD "" ++ "' not found")
  | .conditionNotMet =>
      .stepSkipped step ("Condition '" ++ step.condition.getD "" ++ "' not met")
  | .unconfirmed => .stepError step "Workflow write operation requires explicit confirmation"
  | .raised text => .stepError step text
  | .completed result => .stepComplete step result

/-- `execute_workflow`, in the events that it yields. -/
def executeWorkflow (w : Workflow) : List WorkflowEvent :=
  w.run.flatMap (fun (step, stepEnd) => [.stepStart step, stepEnd.event step]) ++
    [.workflowComplete]

/-! ## Dependencies -/

/-- The result that a visit leaves under a name. -/
def resultOf (name : String) : WorkflowStep × StepEnd → Option StepResult
  | (step, .completed result) => if step.action = name then some result else none
  | _ => none

/-- A step with the action has completed successfully. -/
def CompletedEarlier (earlier : List (WorkflowStep × StepEnd)) (name : String) : Prop :=
  ∃ visit ∈ earlier, (resultOf name visit).any StepResult.succeeded = true

/-- The result of the last step with the action that has completed. -/
def lastResult (earlier : List (WorkflowStep × StepEnd)) (name : String) : Option StepResult :=
  earlier.reverse.findSome? (resultOf name)

/-- A step with a dependency is executed only after it, and is not refused after it. -/
def RespectsDependency (earlier : List (WorkflowStep × StepEnd)) (step : WorkflowStep)
    (stepEnd : StepEnd) : Prop :=
  ∀ name ∈ given step.dependsOn, (stepEnd.executed = true → CompletedEarlier earlier name) ∧
    (stepEnd = .dependencyMissing → ¬CompletedEarlier earlier name)

def RespectsDependencies (run : List (WorkflowStep × StepEnd)) : Prop :=
  ∀ earlier step stepEnd later, run = earlier ++ (step, stepEnd) :: later →
    RespectsDependency earlier step stepEnd

def contextAfter (context : WorkflowContext) (earlier : List (WorkflowStep × StepEnd)) :
    WorkflowContext := earlier.foldl nextContext context

/-- The name of the dependency stands for it: the last result under it is not `None`, and one of
them is no failure; without a result, nothing else is under the name. Unless one of the results is
no failure, the step may also be held back. -/
def Workflow.NamesDependency (w : Workflow) (earlier : List (WorkflowStep × StepEnd))
    (step : WorkflowStep) : Prop :=
  ∀ name ∈ given step.dependsOn,
    match lastResult earlier name with
    | some result => result.isNone = false ∧ (CompletedEarlier earlier name ∨
        (w.heldBack (contextAfter w.startContext earlier) step).isSome = true)
    | none => Workflow.missing w.startContext name = true ∨
        (w.heldBack (contextAfter w.startContext earlier) step).isSome = true

section

variable {w : Workflow} {context : WorkflowContext} {earlier later : List (WorkflowStep × StepEnd)}
  {step : WorkflowStep} {stepEnd : StepEnd} {name : String}

theorem nextContext_apply (visit : WorkflowStep × StepEnd) :
    nextContext context visit name = (resultOf name visit).or (context name) := by
  obtain ⟨step, stepEnd⟩ := visit
  cases stepEnd with
  | completed result =>
      rw [nextContext, resultOf]
      split_ifs with hname
      · rw [hname, Function.update_self, Option.some_or]
      · rw [Function.update_of_ne (Ne.symm hname), Option.none_or]
  | _ => rfl

/-- A name stands for its last result, or for what it stood for at the start. -/
theorem contextAfter_apply (earlier : List (WorkflowStep × StepEnd)) :
    contextAfter context earlier name = (lastResult earlier name).or (context name) := by
  induction earlier using List.reverseRecOn with
  | nil => rfl
  | append_singleton earlier visit ih =>
      rw [contextAfter, List.foldl_append, List.foldl_cons, List.foldl_nil, nextContext_apply,
        lastResult, List.reverse_append, List.reverse_singleton, List.singleton_append,
        List.findSome?_cons]
      cases hresult : resultOf name visit with
      | some result => rfl
      | none =>
          rw [Option.none_or]
          exact ih

theorem visits_split {index : ℕ} {steps : List WorkflowStep}
    (h : w.visits index context steps = earlier ++ (step, stepEnd) :: later) :
    ∃ index', stepEnd = w.endOf index' (contextAfter context earlier) step := by
  induction earlier generalizing index context steps with
  | nil =>
      cases steps with
      | nil => cases h
      | cons first steps =>
          obtain ⟨hvisit, -⟩ := List.cons.inj h
          obtain ⟨rfl, rfl⟩ := Prod.mk.inj hvisit
          exact ⟨index, rfl⟩
  | cons visit earlier ih =>
      cases steps with
      | nil => cases h
      | cons first steps =>
          rw [Workflow.visits] at h
          obtain ⟨rfl, hlater⟩ := List.cons.inj h
          split_ifs at hlater with hstops
          · exact absurd hlater.symm (by simp)
          · exact ih hlater

theorem lastResult_none_iff :
    lastResult earlier name = none ↔ ∀ visit ∈ earlier, resultOf name visit = none := by
  simp [lastResult, List.findSome?_eq_none_iff]

theorem not_completedEarlier_of_none (h : lastResult earlier name = none) :
    ¬CompletedEarlier earlier name := by
  rintro ⟨visit, hvisit, hany⟩
  rw [lastResult_none_iff.mp h visit hvisit] at hany
  cases hany

theorem completedEarlier_of_isNone {result : StepResult} (h : lastResult earlier name = some result)
    (hnone : result.isNone = true) : CompletedEarlier earlier name := by
  obtain ⟨visit, hvisit, hresult⟩ := List.exists_of_findSome?_eq_some h
  refine ⟨visit, List.mem_reverse.mp hvisit, ?_⟩
  rw [hresult]
  cases result with
  | value v => rfl
  | response success => cases hnone

theorem heldBack_eq_some {held : StepEnd} (h : w.heldBack context step = some held) :
    held.executed = false ∧ held ≠ .dependencyMissing := by
  unfold Workflow.heldBack at h
  split_ifs at h
  · obtain rfl := Option.some.inj h
    exact ⟨rfl, fun heq => by cases heq⟩
  · obtain rfl := Option.some.inj h
    exact ⟨rfl, fun heq => by cases heq⟩

/-- A dependency that is missing ends the step; otherwise it is executed unless it is held back. -/
theorem endOf_of_dependency (w : Workflow) (index : ℕ) (context : WorkflowContext)
    (h : name ∈ given step.dependsOn) :
    (Workflow.missing context name = true →
      w.endOf index context step = .dependencyMissing) ∧
    (Workflow.missing context name = false →
      w.endOf index context step ≠ .dependencyMissing ∧
        ((w.endOf index context step).executed = true ↔
          (w.heldBack context step).isSome = false)) := by
  have hany : (given step.dependsOn).any (Workflow.missing context) =
      Workflow.missing context name := by rw [Option.mem_def.mp h, Option.any_some]
  unfold Workflow.endOf
  rw [hany]
  constructor
  · intro hmissing
    rw [if_pos hmissing]
  · intro hfound
    rw [hfound, if_neg (by simp)]
    cases hheld : w.heldBack context step with
    | some held =>
        obtain ⟨hexecuted, hne⟩ := heldBack_eq_some hheld
        exact ⟨hne, by simp [hexecuted]⟩
    | none =>
        dsimp only
        cases w.connector index step context with
        | raised text => exact ⟨fun heq => (by cases heq), by simp [StepEnd.executed]⟩
        | returned result => exact ⟨fun heq => (by cases heq), by simp [StepEnd.executed]⟩

theorem respectsDependency_iff {index : ℕ} :
    RespectsDependency earlier step
        (w.endOf index (contextAfter w.startContext earlier) step) ↔
      w.NamesDependency earlier step := by
  refine forall₂_congr fun name hname => ?_
  obtain ⟨hmissing, hfound⟩ :=
    endOf_of_dependency w index (contextAfter w.startContext earlier) hname
  have happly : Workflow.missing (contextAfter w.startContext earlier) name =
      ((lastResult earlier name).or (w.startContext name)).all StepResult.isNone := by
    rw [Workflow.missing, contextAfter_apply]
  cases hlast : lastResult earlier name with
  | some result =>
      rw [hlast, Option.some_or, Option.all_some] at happly
      dsimp only
      cases hnone : result.isNone with
      | true =>
          rw [hnone] at happly
          refine iff_of_false (fun h => ?_) (by simp)
          exact (h.2 (hmissing happly)) (completedEarlier_of_isNone hlast hnone)
      | false =>
          rw [hnone] at happly
          obtain ⟨hne, hexecuted⟩ := hfound happly
          rw [hexecuted]
          cases (w.heldBack (contextAfter w.startContext earlier) step).isSome <;> simp [hne]
  | none =>
      have hnot := not_completedEarlier_of_none hlast
      rw [hlast, Option.none_or] at happly
      dsimp only
      cases hstart : Workflow.missing w.startContext name with
      | true =>
          rw [Workflow.missing] at hstart
          rw [hstart] at happly
          rw [hmissing happly]
          exact iff_of_true ⟨fun h => (by cases h), fun _ => hnot⟩ (.inl rfl)
      | false =>
          rw [Workflow.missing] at hstart
          rw [hstart] at happly
          obtain ⟨hne, hexecuted⟩ := hfound happly
          rw [hexecuted]
          cases (w.heldBack (contextAfter w.startContext earlier) step).isSome <;> simp [hne, hnot]

end

/-- A run respects the dependencies of its steps exactly if at each step that it reaches the name
of the dependency stands for it. -/
theorem run_respectsDependencies_iff (w : Workflow) : RespectsDependencies w.run ↔
    ∀ earlier step stepEnd later, w.run = earlier ++ (step, stepEnd) :: later →
      w.NamesDependency earlier step := by
  refine forall₄_congr fun earlier step stepEnd later => forall_congr' fun hrun => ?_
  obtain ⟨index, rfl⟩ := visits_split hrun
  exact respectsDependency_iff

def listStep : WorkflowStep := { provider := "github", action := "list_issues" }

def dependentStep : WorkflowStep :=
  { provider := "github", action := "get_issue", dependsOn := some "list_issues" }

/-- Both connectors return `None`. -/
def silentWorkflow : Workflow where
  userId := ⟨"user"⟩
  projectId := ""
  steps := [listStep, dependentStep]
  connector := fun _ _ _ => .returned (.value .null)

theorem silentWorkflow_run : silentWorkflow.run =
    [(listStep, .completed (.value .null)), (dependentStep, .dependencyMissing)] := rfl

/-- A step that returned `None` is not found by the step that depends on it. -/
theorem silentWorkflow_refused : ¬RespectsDependencies silentWorkflow.run := by
  intro h
  have hstep := h [(listStep, .completed (.value .null))] dependentStep .dependencyMissing []
    silentWorkflow_run "list_issues" rfl
  exact hstep.2 rfl ⟨_, List.mem_singleton_self _, rfl⟩

end Zyntry
