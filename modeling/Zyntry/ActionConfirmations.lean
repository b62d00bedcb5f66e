import Zyntry.SqlSessions
import Zyntry.ActionProposals
import Zyntry.RowTable

/-!
# Confirmations of actions

The requests that resolve a row of `action_confirmations`: `approve` and `reject` of the
actions API with `ConfirmationService` and `ActionExecutor`, and `confirm` of the assistant
with `RuntimeAssistantCommandService.resolve`. All of them read the row without a lock and
overwrite its status later. What a provider or a tool does when it is called is an input.
-/

namespace Zyntry

open SqlProgram Python

/-! ## Tables -/

inductive ConfirmationStatus where
  | pending
  | succeeded
  | failed
  | cancelled
  | expired
  | permissionDenied
  | confirmed
  | executed
deriving DecidableEq, Repr

/-- A row of `action_confirmations`. -/
structure Confirmation where
  id : Uuid
  userId : Uuid
  projectId : Uuid
  provider : String
  action : String
  arguments : Fields
  status : ConfirmationStatus := .pending
  expiresAt : ℕ

inductive ExecutionStatus where
  | running
  | succeeded
  | failed
deriving DecidableEq, Repr

/-- A row of `action_executions`. -/
structure ActionExecution where
  id : Uuid
  userId : Uuid
  projectId : Uuid
  provider : String
  action : String
  status : ExecutionStatus := .running
deriving DecidableEq, Repr

structure ActionDb where
  /-- What `now` reads. -/
  clock : ℕ := 0
  confirmations : RowTable Uuid Confirmation Confirmation.id := default
  executions : RowTable Uuid ActionExecution ActionExecution.id := default

/-! ## Commits -/

/-- What a statement commits for a confirmation; `performs` says that the action takes effect
with the commit. -/
inductive ActionStatement where
  | read
  | tick (seconds : ℕ)
  /-- Rejected, cancelled, expired or not permitted. -/
  | refuse (id : Uuid) (outcome : ConfirmationStatus)
  | approve (id : Uuid)
  | startExecution (id : Uuid) (execution : ActionExecution)
  /-- The provider carries the action out. -/
  | perform (id : Uuid)
  /-- The tool commits the open transaction. -/
  | confirm (id : Uuid) (execution : ActionExecution) (performs : Bool)
  | finish (id : Uuid) (found : ConfirmationStatus) (execution : ActionExecution)
      (succeeds performs : Bool)
deriving DecidableEq, Repr

namespace ActionDb

def setStatus (d : ActionDb) (id : Uuid) (status : ConfirmationStatus) :
    RowTable Uuid Confirmation Confirmation.id :=
  d.confirmations.update id (fun row => { row with status }) fun _ => rfl

def saveExecution (d : ActionDb) (execution : ActionExecution) :
    RowTable Uuid ActionExecution ActionExecution.id :=
  (d.executions.insert execution).update execution.id
    (fun row => { row with status := execution.status }) fun _ => rfl

end ActionDb

/-- How the assistant records the end of a tool call. -/
def finishedStatus (succeeds : Bool) : ConfirmationStatus := if succeeds then .executed else .failed

def finishedExecution (execution : ActionExecution) (succeeds : Bool) : ActionExecution :=
  { execution with status := if succeeds then .succeeded else .failed }

def ActionStatement.effect : ActionStatement → ActionDb → ActionDb
  | .read, d => d
  | .tick seconds, d => { d with clock := d.clock + seconds }
  | .refuse id outcome, d => { d with confirmations := d.setStatus id outcome }
  | .approve id, d => { d with confirmations := d.setStatus id .succeeded }
  | .startExecution _ execution, d => { d with executions := d.executions.insert execution }
  | .perform _, d => d
  | .confirm id execution _, d =>
      { d with
        confirmations := d.setStatus id .confirmed
        executions := d.saveExecution execution }
  | .finish id _ execution succeeds _, d =>
      { d with
        confirmations := d.setStatus id (finishedStatus succeeds)
        executions := d.saveExecution (finishedExecution execution succeeds) }

/-! ## Programs -/

inductive ActionError where
  | http (status : ℕ) (detail : String)
deriving DecidableEq, Repr

abbrev ActionProgram := SqlProgram ActionDb Uuid ActionStatement ActionError

/-- What the called provider or tool does. -/
structure ActionRun where
  /-- The action takes effect. -/
  performs : Bool := true
  /-- A tool that commits before it returns. -/
  commits : Bool := false
  /-- It returns without an error. -/
  succeeds : Bool := true

inductive ActionReply where
  | response (success : Bool)
  | noContent
  | resolved (status : ConfirmationStatus)
deriving DecidableEq, Repr

def commitAction (l : ActionStatement) : ActionProgram Unit := SqlProgram.write l l.effect

/-- `update` of a confirmation and `commit`: the row is locked by the UPDATE. -/
def updateConfirmation (id : Uuid) (l : ActionStatement) : ActionProgram Unit := do
  locking .read (fun _ => [id]) fun _ => ()
  commitAction l

def actionClock : ActionProgram ℕ := query .read ActionDb.clock

section Service

def badRequest (detail : String) : ActionError := .http 400 detail

/-- `ConfirmationService.approve` and `reject`, which have the row in their session. -/
def resolvePending (row : Confirmation) (l : ActionStatement) : ActionProgram Unit := do
  ensure (row.status = .pending) (badRequest "Confirmation already resolved")
  let now ← actionClock
  if row.expiresAt ≤ now then do
    updateConfirmation row.id (.refuse row.id .cancelled)
    raise (badRequest "Confirmation expired")
  else updateConfirmation row.id l

def confirmationApprove (row : Confirmation) : ActionProgram Unit :=
  resolvePending row (.approve row.id)

def confirmationReject (row : Confirmation) : ActionProgram Unit :=
  resolvePending row (.refuse row.id .failed)

/-- `ActionExecutor.execute`. The outcome is set on an object that is not in the session, so
the last commit has nothing to write. -/
def executeAction (row : Confirmation) (userId executionId : Uuid) (run : ActionRun) :
    ActionProgram ActionReply := do
  commitAction (.startExecution row.id
    { id := executionId, userId, projectId := row.projectId, provider := row.provider,
      action := row.action })
  if run.performs then do
    commitAction (.perform row.id)
    pure (.response run.succeeds)
  else pure (.response run.succeeds)

structure ConfirmationRequest where
  id : Uuid
  userId : Uuid
  isSuperuser : Bool := false
  /-- The API key, if there is one, has the scope `write` or `*`. -/
  writeScope : Bool := true
  /-- The exception of `require_project_membership`. -/
  notMember : Option ActionError := none

/-- What `approve_confirmation` and `reject_confirmation` check first. -/
def pendingConfirmation (r : ConfirmationRequest) : ActionProgram Confirmation := do
  ensure r.writeScope (.http 403 "API key lacks write scope")
  let row ← query .read fun d => d.confirmations.get? r.id
  let row ← orRaise row (badRequest "Confirmation not found")
  ensure (row.userId = r.userId ∨ r.isSuperuser) (.http 404 "Confirmation not found")
  ensure (r.notMember = none) (r.notMember.getD (badRequest ""))
  pure row

def approveConfirmation (r : ConfirmationRequest) (executionId : Uuid) (run : ActionRun) :
    ActionProgram ActionReply := do
  let row ← pendingConfirmation r
  confirmationApprove row
  executeAction row r.userId executionId run

def rejectConfirmation (r : ConfirmationRequest) : ActionProgram ActionReply := do
  let row ← pendingConfirmation r
  confirmationReject row
  pure .noContent

end Service

section Assistant

structure ResolveRequest where
  proposalId : Uuid
  runtimeId : Uuid
  projectId : Uuid
  userId : Uuid
  /-- The reason of `check_tool_permission` for the user's role. -/
  denied : String → Option String
  confirm : Bool
  executionId : Uuid
  run : ActionRun := {}

def proposalNotFound : ActionError := badRequest "Action proposal not found in this runtime scope"

/-- The call of the tool and what `resolve` records of it. A tool that does not commit takes
effect with the commit that records it: the row is locked in between. -/
def executeProposal (row : Confirmation) (r : ResolveRequest) : ActionProgram ActionReply := do
  let execution : ActionExecution :=
    { id := r.executionId, userId := r.userId, projectId := r.projectId,
      provider := "runtime_assistant", action := row.action }
  if r.run.commits then do
    updateConfirmation row.id (.confirm row.id execution r.run.performs)
    updateConfirmation row.id (.finish row.id .confirmed execution r.run.succeeds false)
    pure (.resolved (finishedStatus r.run.succeeds))
  else do
    updateConfirmation row.id
      (.finish row.id .pending execution r.run.succeeds r.run.performs)
    pure (.resolved (finishedStatus r.run.succeeds))

/-- `RuntimeAssistantCommandService.resolve`. -/
def resolveProposal (r : ResolveRequest) : ActionProgram ActionReply := do
  let row ← query .read fun d => d.confirmations.get? r.proposalId
  let row ← orRaise row proposalNotFound
  ensure (row.projectId = r.projectId ∧ row.userId = r.userId ∧
    textField row.arguments "runtime_id" = some r.runtimeId.str) proposalNotFound
  ensure (row.status = .pending) (badRequest "Action proposal is no longer pending")
  let now ← actionClock
  if row.expiresAt ≤ now then do
    updateConfirmation row.id (.refuse row.id .expired)
    raise (badRequest "Action proposal expired")
  else if r.confirm = false then do
    updateConfirmation row.id (.refuse row.id .cancelled)
    pure (.resolved .cancelled)
  else
    match r.denied row.action with
    | some reason => do
        updateConfirmation row.id (.refuse row.id .permissionDenied)
        raise (.http 403 reason)
    | none => executeProposal row r

end Assistant

/-- The requests of any number of clients; `tick` lets time pass. -/
inductive ResolutionRequest where
  | tick (seconds : ℕ)
  | approve (r : ConfirmationRequest) (executionId : Uuid) (run : ActionRun)
  | reject (r : ConfirmationRequest)
  | resolve (r : ResolveRequest)

/-- The confirmation that a request is about. -/
def ResolutionRequest.confirmation : ResolutionRequest → Option Uuid
  | .tick _ => none
  | .approve r _ _ => some r.id
  | .reject r => some r.id
  | .resolve r => some r.proposalId

def ResolutionRequest.program : ResolutionRequest → ActionProgram ActionReply
  | .tick seconds => do
      commitAction (.tick seconds)
      pure .noContent
  | .approve r executionId run => approveConfirmation r executionId run
  | .reject r => rejectConfirmation r
  | .resolve r => resolveProposal r

/-! ## What a request commits -/

/-- The commits of one request for a confirmation, as far as it may have got. -/
inductive ResolutionTrace (id : Uuid) : List ActionStatement → Prop
  | start : ResolutionTrace id []
  | refused {outcome : ConfirmationStatus} :
      outcome ∈ [ConfirmationStatus.failed, .cancelled, .expired, .permissionDenied] →
        ResolutionTrace id [.refuse id outcome]
  | approved : ResolutionTrace id [.approve id]
  | started (x : ActionExecution) : ResolutionTrace id [.approve id, .startExecution id x]
  | performed (x : ActionExecution) :
      ResolutionTrace id [.approve id, .startExecution id x, .perform id]
  | finished (x : ActionExecution) (succeeds performs : Bool) :
      ResolutionTrace id [.finish id .pending x succeeds performs]
  | confirmed (x : ActionExecution) (performs : Bool) : ResolutionTrace id [.confirm id x performs]
  | confirmFinished (x : ActionExecution) (performs succeeds : Bool) :
      ResolutionTrace id [.confirm id x performs, .finish id .confirmed x succeeds false]

/-- What a request has committed about the confirmation that it is about. -/
def ResolutionRequest.Trace (r : ResolutionRequest) (mine : List ActionStatement) : Prop :=
  match r.confirmation with
  | some id => ResolutionTrace id mine
  | none => ∀ l ∈ mine, ∃ seconds, l = .tick seconds

/-- The outcome that a commit records. -/
def ActionStatement.outcome : ActionStatement → Option (Uuid × ConfirmationStatus)
  | .refuse id outcome => some (id, outcome)
  | .approve id => some (id, .succeeded)
  | .finish id _ _ succeeds _ => some (id, finishedStatus succeeds)
  | _ => none

def ActionStatement.records (id : Uuid) (l : ActionStatement) : Bool :=
  (l.outcome.map Prod.fst) = some id

section Emits

variable {α : Type} {G : List ActionStatement → ActionStatement → ActionDb → ActionDb → Prop}
  {post : List ActionStatement → α → Prop} {mine : List ActionStatement}

theorem emits_commitAction {l : ActionStatement} {k : Unit → ActionProgram α} :
    (commitAction l >>= k).Emits G post mine ↔
      (∀ d, G mine l d (l.effect d)) ∧ (k ()).Emits G post (mine ++ [l]) := emits_write

theorem emits_actionClock {k : ℕ → ActionProgram α} :
    (actionClock >>= k).Emits G post mine ↔ ∀ d : ActionDb, (k d.clock).Emits G post mine :=
  emits_query

theorem emits_updateConfirmation {id : Uuid} {l : ActionStatement} {k : Unit → ActionProgram α} :
    (updateConfirmation id l >>= k).Emits G post mine ↔
      (∀ d, G mine l d (l.effect d)) ∧ (k ()).Emits G post (mine ++ [l]) := by
  rw [updateConfirmation, bind_assoc, emits_locking]
  exact ⟨fun h => emits_commitAction.1 (h {}), fun h _ => emits_commitAction.2 h⟩

theorem emits_pendingConfirmation {r : ConfirmationRequest} {k : Confirmation → ActionProgram α}
    (h : ∀ row : Confirmation, row.id = r.id → (k row).Emits G post mine) :
    (pendingConfirmation r >>= k).Emits G post mine := by
  simp only [pendingConfirmation, bind_assoc, emits_ensure, emits_query, emits_orRaise, pure_eq,
    ret_bind]
  intro _ d row hrow _ _
  exact h row (RowTable.get?_some_key hrow)

/-- Either the confirmation has expired or it is overwritten with what was decided. -/
theorem emits_resolvePending {row : Confirmation} {l : ActionStatement}
    {k : Unit → ActionProgram α}
    (hexpired : ∀ d, G mine (.refuse row.id .cancelled) d
      ((ActionStatement.refuse row.id .cancelled).effect d))
    (hl : ∀ d, G mine l d (l.effect d)) (hk : (k ()).Emits G post (mine ++ [l])) :
    (resolvePending row l >>= k).Emits G post mine := by
  unfold resolvePending
  rw [bind_assoc, emits_ensure]
  intro _
  rw [bind_assoc, emits_actionClock]
  intro d
  split_ifs with hpast
  · rw [bind_assoc, emits_updateConfirmation]
    exact ⟨hexpired, emits_raise.2 trivial⟩
  · rw [emits_updateConfirmation]
    exact ⟨hl, hk⟩

end Emits

theorem records_self {id : Uuid} {l : ActionStatement} {o : ConfirmationStatus}
    (h : l.outcome = some (id, o)) : l.records id = true := by
  simp [ActionStatement.records, h]

/-- What a request writes, and that it only replies after it has recorded an outcome. -/
theorem ResolutionRequest.emits_program (r : ResolutionRequest) :
    r.program.Emits (fun mine l d d' => d' = l.effect d ∧ r.Trace (mine ++ [l]))
      (fun mine _ => ∀ id, r.confirmation = some id → ∃ l ∈ mine, l.records id) [] := by
  cases r with
  | tick seconds =>
      rw [program, emits_commitAction]
      exact ⟨fun d => ⟨rfl, fun l hl => ⟨seconds, List.mem_singleton.1 hl⟩⟩, emits_ret.2 nofun⟩
  | approve r executionId run =>
      have hpost : ∀ tail id,
          (ResolutionRequest.approve r executionId run).confirmation = some id →
            ∃ l ∈ (ActionStatement.approve r.id :: tail), l.records id := by
        rintro tail id hr
        obtain rfl : r.id = id := Option.some.inj hr
        exact ⟨_, List.mem_cons_self, records_self rfl⟩
      rw [program, approveConfirmation]
      apply emits_pendingConfirmation
      intro row hid
      apply emits_resolvePending
      · exact fun d => ⟨rfl, hid ▸ .refused (by decide)⟩
      · exact fun d => ⟨rfl, hid ▸ .approved⟩
      · rw [executeAction, emits_commitAction, hid]
        refine ⟨fun d => ⟨rfl, .started _⟩, ?_⟩
        split_ifs with hperforms
        · rw [emits_commitAction]
          exact ⟨fun d => ⟨rfl, .performed _⟩, emits_ret.2 (hpost _)⟩
        · exact emits_ret.2 (hpost _)
  | reject r =>
      rw [program, rejectConfirmation]
      apply emits_pendingConfirmation
      intro row hid
      apply emits_resolvePending
      · exact fun d => ⟨rfl, hid ▸ .refused (by decide)⟩
      · exact fun d => ⟨rfl, hid ▸ .refused (by decide)⟩
      · refine emits_ret.2 fun id hr => ?_
        obtain rfl : r.id = id := Option.some.inj hr
        exact ⟨_, List.mem_singleton_self _, records_self (congrArg _ (congrArg₂ _ hid rfl))⟩
  | resolve r =>
      have hpost : ∀ (mine : List ActionStatement) (l : ActionStatement) (o : ConfirmationStatus),
          l.outcome = some (r.proposalId, o) → ∀ id, (ResolutionRequest.resolve r).confirmation = some id →
            ∃ l' ∈ mine ++ [l], l'.records id := by
        rintro mine l o hl id hr
        obtain rfl : r.proposalId = id := Option.some.inj hr
        exact ⟨l, List.mem_append_right _ (List.mem_singleton_self _), records_self hl⟩
      rw [program, resolveProposal]
      simp only [emits_query, emits_orRaise, emits_ensure, emits_actionClock]
      intro d row hrow _ _ d'
      have hid : row.id = r.proposalId := RowTable.get?_some_key hrow
      rw [hid]
      split_ifs with hpast hconfirm
      · rw [emits_updateConfirmation]
        exact ⟨fun d => ⟨rfl, .refused (by decide)⟩, emits_raise.2 trivial⟩
      · rw [emits_updateConfirmation]
        exact ⟨fun d => ⟨rfl, .refused (by decide)⟩, emits_ret.2 (hpost [] _ _ rfl)⟩
      · cases r.denied row.action with
        | some reason =>
            simp only
            rw [emits_updateConfirmation]
            exact ⟨fun d => ⟨rfl, .refused (by decide)⟩, emits_raise.2 trivial⟩
        | none =>
            simp only [executeProposal, hid]
            split_ifs with hcommits
            · rw [emits_updateConfirmation, emits_updateConfirmation]
              exact ⟨fun d => ⟨rfl, .confirmed _ _⟩, fun d => ⟨rfl, .confirmFinished _ _ _⟩,
                emits_ret.2 (hpost _ _ _ rfl)⟩
            · rw [emits_updateConfirmation]
              exact ⟨fun d => ⟨rfl, .finished _ _ _⟩, emits_ret.2 (hpost [] _ _ rfl)⟩

end Zyntry
