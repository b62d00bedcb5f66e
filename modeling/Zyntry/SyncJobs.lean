import Zyntry.RowTable
import Zyntry.SqlAssertions
import Zyntry.SqlCommits

/-!
# Synchronisations of knowledge sources

A sync holds its job and its source from its first statement to its last: it commits the start,
the crawl, for a website the persisting of pages, and last a status that is written whatever the
job's status has become. A cancel request holds the job as it was when it read it. An exception
of the connector is one of the outcomes; any other end of the sync is a crash of its session.
-/

namespace Zyntry

open SqlProgram RowTable

structure SyncStats where
  itemsDiscovered : ℕ := 0
  documentsSynced : ℕ := 0
deriving DecidableEq, Repr

structure SyncJob where
  status : String := "running"
  progress : ℕ := 0
  currentStep : Option String := none
  startedAt : Option ℤ := none
  completedAt : Option ℤ := none
  errorMessage : Option String := none
  stats : Option SyncStats := none
deriving DecidableEq, Repr

structure SyncSource where
  sourceType : String
  status : String := "pending"
  connectionStatus : String := "pending"
  syncProgress : ℕ := 0
  lastSyncedAt : Option ℤ := none
  lastError : Option String := none
  errorCount : ℕ := 0
deriving DecidableEq, Repr

/-- A source, and the job of its sync. -/
structure SyncDatabase where
  source : Option SyncSource
  job : Option SyncJob := none
deriving DecidableEq, Repr

inductive SyncRow where
  | source
  | job
deriving DecidableEq, Repr

inductive SyncLabel where
  | sourceLoaded
  | jobLoaded
  | jobUpdate
  | sourceUpdate
  | started
  | crawling
  | persisting
  | completed
  | failed
  | cancelled
deriving DecidableEq, Repr

inductive SyncError where
  | sourceNotFound
  | jobNotFound
  | raised (message : String)
  | stopped
deriving DecidableEq, Repr

abbrev SyncProgram := SqlProgram SyncDatabase SyncRow SyncLabel SyncError

/-! ## The copies of a session -/

/-- The job in a session: the row as last read or stored, and as the session has set it. -/
structure HeldJob where
  stored : SyncJob
  current : SyncJob

def HeldJob.ofRow (row : SyncJob) : HeldJob := ⟨row, row⟩

def HeldJob.flushed (held : HeldJob) (row : SyncJob) : SyncJob where
  status := sentColumn held.stored.status held.current.status row.status
  progress := sentColumn held.stored.progress held.current.progress row.progress
  currentStep := sentColumn held.stored.currentStep held.current.currentStep row.currentStep
  startedAt := sentColumn held.stored.startedAt held.current.startedAt row.startedAt
  completedAt := sentColumn held.stored.completedAt held.current.completedAt row.completedAt
  errorMessage := sentColumn held.stored.errorMessage held.current.errorMessage row.errorMessage
  stats := sentColumn held.stored.stats held.current.stats row.stats

/-- The flush of `sync_jobs.update`: a change locks the row. -/
def updateJob (job : HeldJob) (row : SyncJob) : SyncProgram HeldJob := do
  locking .jobUpdate (fun _ => if row = job.current then [] else [.job]) fun _ => ()
  pure { job with current := row }

/-- The two updates of a stage and their commit. Only the sync writes its source, so that a
column it does not send is as it holds it. -/
def saveStage (l : SyncLabel) (job : HeldJob) (source : SyncSource) (jobRow : SyncJob)
    (sourceRow : SyncSource) : SyncProgram HeldJob := do
  let job ← updateJob job jobRow
  locking .sourceUpdate (fun _ => if sourceRow = source then [] else [.source]) fun _ => ()
  write l fun d => { job := d.job.map job.flushed, source := d.source.map fun _ => sourceRow }
  pure (.ofRow job.current)

/-! ## A sync -/

/-- What `connector.sync` returns. -/
structure SyncResult where
  status : Option String := none
  error : Option String := none
  total : ℕ := 0
deriving DecidableEq, Repr

/-- What happens outside of the two rows. -/
structure SyncOutcomes where
  startedAt : ℤ := 0
  /-- `get_connector` and the decryption of the credentials raise. -/
  connector : Option String := none
  sync : Except String SyncResult := .ok {}
  /-- `_persist_website_items`. -/
  persist : Except String ℕ := .ok 0
  completedAt : ℤ := 0

section Sync

variable (o : SyncOutcomes)

/-- The handler of an exception. -/
def failSync (job : HeldJob) (source : SyncSource) (message : String) : SyncProgram Unit := do
  let _ ← saveStage .failed job source
    { job.current with
      status := "failed", progress := 0, currentStep := some "failed",
      completedAt := some o.completedAt, errorMessage := some message }
    { source with
      status := "failed", syncProgress := 0, lastError := some message,
      errorCount := source.errorCount + 1 }
  .raise (.raised message)

def completeSync (job : HeldJob) (source : SyncSource) (stats : SyncStats) :
    SyncProgram Unit := do
  let _ ← saveStage .completed job source
    { job.current with
      status := "completed", progress := 100, currentStep := some "completed",
      completedAt := some o.completedAt, stats := some stats }
    { source with
      status := "completed", connectionStatus := "connected", syncProgress := 100,
      lastSyncedAt := some o.completedAt, lastError := none }
  pure ()

def persistSync (job : HeldJob) (source : SyncSource) (result : SyncResult) :
    SyncProgram Unit := do
  if source.sourceType = "website" ∨ source.sourceType = "crawler" then
    let persisting := { source with syncProgress := 80 }
    let job ← saveStage .persisting job source
      { job.current with progress := 80, currentStep := some "persisting" } persisting
    match o.persist with
    | .error message => failSync o job persisting message
    | .ok documents => completeSync o job persisting ⟨result.total, documents⟩
  else completeSync o job source ⟨result.total, 0⟩

/-- `result.get("error") or "Source synchronization failed"`. -/
def SyncResult.message (result : SyncResult) : String :=
  match result.error with
  | none => "Source synchronization failed"
  | some error => if error = "" then "Source synchronization failed" else error

def crawlSync (job : HeldJob) (source : SyncSource) : SyncProgram Unit := do
  let crawling := { source with syncProgress := 20 }
  let job ← saveStage .crawling job source
    { job.current with progress := 20, currentStep := some "crawling" } crawling
  match o.sync with
  | .error message => failSync o job crawling message
  | .ok result =>
      if result.status = some "failed" then failSync o job crawling result.message
      else persistSync o job crawling result

/-- A new job has an id of its own, so that there is no row to replace. -/
def startSync (source : SyncSource) : SyncProgram Unit := do
  match o.connector with
  | some message => .raise (.raised message)
  | none =>
      let job : SyncJob := { startedAt := some o.startedAt, stats := some {} }
      let syncing := { source with status := "syncing", syncProgress := 0 }
      locking .sourceUpdate (fun _ => if syncing = source then [] else [.source]) fun _ => ()
      write .started fun d =>
        { job := d.job.or (some job), source := d.source.map fun _ => syncing }
      crawlSync o (.ofRow job) syncing

/-- `KnowledgeService.sync_source`. -/
def syncSource : SyncProgram Unit := do
  match ← query .sourceLoaded SyncDatabase.source with
  | none => .raise .sourceNotFound
  | some source => startSync o source

end Sync

/-- The end of `KnowledgeService.cancel_sync`, for the job that it has read. -/
def cancelJob (now : ℤ) (row : SyncJob) : SyncProgram Unit := do
  let job ← updateJob (.ofRow row) { row with status := "cancelled", completedAt := some now }
  write .cancelled fun d => { d with job := d.job.map job.flushed }

/-- `KnowledgeService.cancel_sync`. -/
def cancelSync (now : ℤ) : SyncProgram Unit := do
  match ← query .jobLoaded SyncDatabase.job with
  | none => .raise .jobNotFound
  | some row => cancelJob now row

/-- One sync; every other session is a cancel request. -/
def syncSessions {S : Type} [DecidableEq S] (o : SyncOutcomes) (now : S → ℤ) (worker : S) :
    S → SyncProgram Unit := fun s => if s = worker then syncSource o else cancelSync (now s)

end Zyntry
