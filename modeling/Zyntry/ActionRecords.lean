import Zyntry.ActionConfirmations
import Zyntry.TrackedObjects

/-!
# Records of actions

`ActionExecutor.execute` makes an object for the call and has the repository make another one, which
is the one that has a row. The outcome of the call is set on the first.
-/

namespace Zyntry

open Python ObjectSession

structure ActionRequest where
  provider : String
  action : String
  arguments : Fields := []
  confirm : Bool := false

/-- The columns of `action_executions` that the executor sets. -/
structure ExecutionColumns where
  userId : Uuid
  projectId : Uuid
  provider : String
  action : String
  arguments : Fields
  status : ExecutionStatus
  result : Option Json := none
  error : Option String := none
  durationMs : Option ℤ := none

structure ActionResponse where
  success : Bool
  result : Json := .null
  error : Option String := none
  executionId : String

inductive ConnectorOutcome where
  | returned (result : Json)
  | raised (text : String)
  /-- Cancelled or stopped, which no handler catches. -/
  | cancelled

/-- What the connector and the database do in a call. -/
structure ExecutionRun where
  /-- The row of the call is stored. -/
  starts : Bool := true
  outcome : ConnectorOutcome
  /-- The exception of the flush or the commit after a result. -/
  saveError : Option String := none
  /-- The flush and the commit after an exception do not raise. -/
  recordsFailure : Bool := true
  durationMs : ℤ := 0

abbrev ExecutionSession := ObjectSession Uuid ExecutionColumns

/-- `str(execution.id)`. -/
def executionId (session : ExecutionSession) (execution : ℕ) : String :=
  match (session.heap execution).key with
  | some id => id.str
  | none => "None"

namespace ActionExecutor

variable (newKey : ℕ → Uuid)

/-- `create`: a new object is added and flushed. -/
def create (columns : ExecutionColumns) (session : ExecutionSession) : ExecutionSession :=
  (session.add columns).flush newKey

/-- `update`: attributes are set on an object, and the session is flushed. -/
def update (execution : ℕ) (change : ExecutionColumns → ExecutionColumns)
    (session : ExecutionSession) : ExecutionSession :=
  (session.setattr execution change).flush newKey

def succeed (result : Json) (durationMs : ℤ) (columns : ExecutionColumns) : ExecutionColumns :=
  { columns with status := .succeeded, result := some result, durationMs := some durationMs }

def fail (text : String) (durationMs : ℤ) (columns : ExecutionColumns) : ExecutionColumns :=
  { columns with status := .failed, error := some text, durationMs := some durationMs }

def running (body : ActionRequest) (userId projectId : Uuid) : ExecutionColumns where
  userId := userId
  projectId := projectId
  provider := body.provider
  action := body.action
  arguments := body.arguments
  status := .running

/-- The handler of an exception. -/
def recordFailure (execution : ℕ) (run : ExecutionRun) (text : String)
    (session : ExecutionSession) : Option ActionResponse × ExecutionSession :=
  let session := session.setattr execution (fail text run.durationMs)
  if run.recordsFailure then
    let session := (update newKey execution (fail text run.durationMs) session).commit newKey
    (some { success := false, error := some text, executionId := executionId session execution },
      session)
  else (none, session)

/-- `execute`; no response is an exception that it raises. -/
def execute (body : ActionRequest) (userId projectId : Uuid) (run : ExecutionRun)
    (session : ExecutionSession) : Option ActionResponse × ExecutionSession :=
  let execution := session.next
  let session := session.construct (running body userId projectId)
  if run.starts then
    let session := (create newKey (running body userId projectId) session).commit newKey
    match run.outcome, run.saveError with
    | .returned result, none =>
        let session := session.setattr execution (succeed result run.durationMs)
        let session :=
          (update newKey execution (succeed result run.durationMs) session).commit newKey
        (some { success := true, result, executionId := executionId session execution }, session)
    | .returned result, some text =>
        recordFailure newKey execution run text
          (session.setattr execution (succeed result run.durationMs))
    | .raised text, _ => recordFailure newKey execution run text session
    | .cancelled, _ => (none, session)
  else (none, session)

end ActionExecutor

/-- The call returns: its row is stored, and so is its result or its failure. -/
def ExecutionRun.returns (run : ExecutionRun) : Bool :=
  run.starts &&
    match run.outcome with
    | .returned _ => run.saveError.isNone || run.recordsFailure
    | .raised _ => run.recordsFailure
    | .cancelled => false

/-- The row of the call has the id and the outcome that the response reports. -/
def RecordsResponse (id : Uuid) (table : Uuid → Option ExecutionColumns)
    (response : ActionResponse) : Prop :=
  ∃ row, table id = some row ∧ response.executionId = id.str ∧ row.status ≠ .running ∧
    (row.status = .succeeded ↔ response.success = true)

section

variable {newKey : ℕ → Uuid} {body : ActionRequest} {userId projectId : Uuid}
  {run : ExecutionRun} {session : ExecutionSession} {execution i : ℕ} {id : Uuid}
  {columns : ExecutionColumns}

/-- What stays true while attributes are set on the first object. -/
structure Apart (session : ExecutionSession) (execution i : ℕ) (id : Uuid)
    (columns : ExecutionColumns) : Prop where
  last : LastTracked session i id columns
  untracked : Untracked session execution
  ne : execution ≠ i
  committed : session.committed id = some columns

namespace Apart

theorem setattr (h : Apart session execution i id columns)
    (change : ExecutionColumns → ExecutionColumns) :
    Apart (session.setattr execution change) execution i id columns :=
  ⟨h.last.setattr h.ne change, h.untracked.setattr change, h.ne, h.committed⟩

theorem update_commit (newKey : ℕ → Uuid) (h : Apart session execution i id columns)
    (change : ExecutionColumns → ExecutionColumns) :
    Apart ((ActionExecutor.update newKey execution change session).commit newKey) execution i id
      columns := by
  have hset := h.setattr change
  have hlast : LastTracked (ActionExecutor.update newKey execution change session) i id columns :=
    hset.last.flush
  exact ⟨hlast.commit, hset.untracked.flush.commit, h.ne, hlast.committed_commit⟩

theorem executionId (h : Apart session execution i id columns) :
    executionId session execution = "None" := by
  rw [Zyntry.executionId, h.untracked.key_eq]

end Apart

theorem apart_create (newKey : ℕ → Uuid) (columns columns' : ExecutionColumns)
    (session : ExecutionSession) :
    Apart ((ActionExecutor.create newKey columns (session.construct columns')).commit newKey)
      session.next (session.next + 1) (newKey (session.next + 1)) columns := by
  have hlast : LastTracked (ActionExecutor.create newKey columns (session.construct columns'))
      (session.next + 1) (newKey (session.next + 1)) columns :=
    lastTracked_add columns (session.construct columns')
  have huntracked : Untracked ((session.construct columns').add columns) session.next :=
    (Untracked.construct columns' session).add (Nat.lt_succ_self session.next) columns
  exact ⟨hlast.commit, huntracked.flush.commit, (Nat.lt_succ_self _).ne, hlast.committed_commit⟩

theorem recordFailure_apart (h : Apart session execution i id columns) (text : String)
    {response : ActionResponse}
    (hresponse : (ActionExecutor.recordFailure newKey execution run text session).1 =
      some response) :
    (ActionExecutor.recordFailure newKey execution run text session).2.committed id =
        some columns ∧ response.executionId = "None" := by
  have hfailed := (h.setattr (ActionExecutor.fail text run.durationMs)).update_commit newKey
    (ActionExecutor.fail text run.durationMs)
  unfold ActionExecutor.recordFailure at hresponse ⊢
  split_ifs at hresponse ⊢
  obtain rfl := Option.some.inj hresponse
  exact ⟨hfailed.committed, hfailed.executionId⟩

theorem recordFailure_isSome (text : String) :
    (ActionExecutor.recordFailure newKey execution run text session).1.isSome =
      run.recordsFailure := by
  unfold ActionExecutor.recordFailure
  split_ifs with hrecords
  · exact hrecords.symm
  · simpa using hrecords

theorem execute_isSome (newKey : ℕ → Uuid) (body : ActionRequest) (userId projectId : Uuid)
    (run : ExecutionRun) (session : ExecutionSession) :
    (ActionExecutor.execute newKey body userId projectId run session).1.isSome = run.returns := by
  unfold ActionExecutor.execute ExecutionRun.returns
  cases hstarts : run.starts with
  | false => rfl
  | true =>
      cases run.outcome with
      | returned result =>
          cases run.saveError with
          | none => rfl
          | some text => exact recordFailure_isSome text
      | raised text => exact recordFailure_isSome text
      | cancelled => rfl

/-- When the call returns, its row is as it was when the call started. -/
theorem execute_committed {response : ActionResponse}
    (h : (ActionExecutor.execute newKey body userId projectId run session).1 = some response) :
    (ActionExecutor.execute newKey body userId projectId run session).2.committed
        (newKey (session.next + 1)) = some (ActionExecutor.running body userId projectId) ∧
      response.executionId = "None" := by
  have hcreated := apart_create newKey (ActionExecutor.running body userId projectId)
    (ActionExecutor.running body userId projectId) session
  unfold ActionExecutor.execute at h ⊢
  cases hstarts : run.starts with
  | false =>
      rw [hstarts] at h
      cases h
  | true =>
      rw [hstarts] at h
      cases houtcome : run.outcome with
      | returned result =>
          have hset := hcreated.setattr (ActionExecutor.succeed result run.durationMs)
          rw [houtcome] at h
          cases hsave : run.saveError with
          | none =>
              rw [hsave] at h
              obtain rfl := Option.some.inj h
              have hsaved := hset.update_commit newKey
                (ActionExecutor.succeed result run.durationMs)
              exact ⟨hsaved.committed, hsaved.executionId⟩
          | some text =>
              rw [hsave] at h
              exact recordFailure_apart hset text h
      | raised text =>
          rw [houtcome] at h
          exact recordFailure_apart hcreated text h
      | cancelled =>
          rw [houtcome] at h
          cases h

end

/-- The row of a call that returns never reports its outcome. -/
theorem execute_recordsResponse_iff (newKey : ℕ → Uuid) (body : ActionRequest)
    (userId projectId : Uuid) (run : ExecutionRun) (session : ExecutionSession) :
    (∀ response,
      (ActionExecutor.execute newKey body userId projectId run session).1 = some response →
        RecordsResponse (newKey (session.next + 1))
          (ActionExecutor.execute newKey body userId projectId run session).2.committed response) ↔
      run.returns = false := by
  rw [← execute_isSome newKey body userId projectId run session, Option.isSome_eq_false_iff,
    Option.isNone_iff_eq_none]
  constructor
  · intro hrecords
    by_contra hreturns
    obtain ⟨response, hresponse⟩ := Option.ne_none_iff_exists'.mp hreturns
    obtain ⟨row, hrow, -, hrunning, -⟩ := hrecords response hresponse
    rw [(execute_committed hresponse).1] at hrow
    obtain rfl := Option.some.inj hrow
    exact hrunning rfl
  · intro hnone response hresponse
    rw [hnone] at hresponse
    cases hresponse

def emptySession : ExecutionSession where
  heap := fun _ => ⟨none, ActionExecutor.running ⟨"", "", [], false⟩ ⟨""⟩ ⟨""⟩⟩
  next := 0
  tracked := []
  tracked_lt := fun _ h => absurd h List.not_mem_nil
  rows := fun _ => none
  committed := fun _ => none

/-- A call that succeeds leaves its row running, under another id than it reports. -/
theorem execute_leaves_running : ∃ response,
    (ActionExecutor.execute (fun i => ⟨toString i⟩) ⟨"slack", "send_message", [], true⟩ ⟨"user"⟩
      ⟨"project"⟩ { outcome := .returned (.bool true) } emptySession).1 = some response ∧
    response.success = true ∧ response.executionId = "None" ∧
    ¬RecordsResponse ⟨toString 1⟩
      (ActionExecutor.execute (fun i => ⟨toString i⟩) ⟨"slack", "send_message", [], true⟩ ⟨"user"⟩
        ⟨"project"⟩ { outcome := .returned (.bool true) } emptySession).2.committed response := by
  refine ⟨_, rfl, rfl, rfl, ?_⟩
  rintro ⟨row, hrow, -, hrunning, -⟩
  obtain rfl := Option.some.inj hrow
  exact hrunning rfl

end Zyntry
