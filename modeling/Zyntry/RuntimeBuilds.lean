import Zyntry.RowTable
import Zyntry.SqlAssertions
import Zyntry.SqlCommits

/-!
# Runtime builds

The build worker reads the row of its runtime once and goes through twelve stages. It
writes its progress from the copy that it holds: a flush sends the columns in which the
copy differs from what the session last read or stored. A cancel request sets the status
of the row in a session of its own.
-/

namespace Zyntry

open SqlProgram
open RowTable (sentColumn)

inductive BuildStage where
  | collectSources
  | validateSources
  | discoverResources
  | extractDocuments
  | normalizeDocuments
  | cleanDocuments
  | chunkDocuments
  | generateEmbeddings
  | storeEmbeddings
  | buildRuntime
  | generateApiKey
  | activateRuntime
deriving DecidableEq, Repr

def BuildStage.value : BuildStage → String
  | .collectSources => "collect_sources"
  | .validateSources => "validate_sources"
  | .discoverResources => "discover_resources"
  | .extractDocuments => "extract_documents"
  | .normalizeDocuments => "normalize_documents"
  | .cleanDocuments => "clean_documents"
  | .chunkDocuments => "chunk_documents"
  | .generateEmbeddings => "generate_embeddings"
  | .storeEmbeddings => "store_embeddings"
  | .buildRuntime => "build_runtime"
  | .generateApiKey => "generate_api_key"
  | .activateRuntime => "activate_runtime"

/-- `RUNTIME_STAGES`. -/
def runtimeStages : List BuildStage :=
  [.collectSources, .validateSources, .discoverResources, .extractDocuments, .normalizeDocuments,
   .cleanDocuments, .chunkDocuments, .generateEmbeddings, .storeEmbeddings, .buildRuntime,
   .generateApiKey, .activateRuntime]

/-- What the worker reads and writes of `config`. -/
structure BuildConfig where
  buildId : Option String := none
  buildStage : Option String := none
  buildProgress : Option ℕ := none
  writeAccessEnabled : Bool := false
deriving DecidableEq, Repr

structure BuildRow where
  status : String
  environment : String := "development"
  health : ℕ := 0
  errorMessage : Option String := none
  config : BuildConfig := {}
  documents : ℕ := 0
  chunks : ℕ := 0
  embeddings : ℕ := 0
  indexSize : ℕ := 0
  apiKeyId : Option ℕ := none
  lastBuildCompleted : Option ℕ := none
deriving DecidableEq, Repr

structure BuildKey where
  id : ℕ
  environment : String
  scopes : List String
deriving DecidableEq, Repr

structure BuildLog where
  stage : BuildStage
  status : String
  errorMessage : Option String := none
deriving DecidableEq, Repr

/-- What a build reads and writes: one runtime, and the rows that belong to it. -/
structure BuildDatabase where
  runtime : Option BuildRow
  chunkRows : ℕ := 0
  logs : List BuildLog := []
  keys : List BuildKey := []
  hasBuiltRuntime : Bool := false
deriving DecidableEq, Repr

inductive BuildLabel where
  | loaded
  | reloaded
  | update
  | chunksDeleted
  | progress (stage : BuildStage)
  | started (stage : BuildStage)
  | status (status : String)
  | counts
  | apiKey
  | lastBuild
  | completed (stage : BuildStage)
  | stageFailed (stage : BuildStage)
  | concluded
  | failed
  | cancelled
deriving DecidableEq, Repr

inductive BuildError where
  | raised (message : String)
  | notFound
  | stopped
deriving DecidableEq, Repr

/-- `str(e)`. -/
def BuildError.text : BuildError → String
  | .raised message => message
  | .notFound => "Runtime not found"
  | .stopped => ""

abbrev BuildProgram := SqlProgram BuildDatabase Unit BuildLabel BuildError

/-! ## The copy of a session -/

/-- The runtime in a session: the row as last read or stored, and as the session has set it. -/
structure HeldRuntime where
  stored : BuildRow
  current : BuildRow

def HeldRuntime.ofRow (row : BuildRow) : HeldRuntime := ⟨row, row⟩

def HeldRuntime.flushed (held : HeldRuntime) (row : BuildRow) : BuildRow where
  status := sentColumn held.stored.status held.current.status row.status
  environment := sentColumn held.stored.environment held.current.environment row.environment
  health := sentColumn held.stored.health held.current.health row.health
  errorMessage := sentColumn held.stored.errorMessage held.current.errorMessage row.errorMessage
  config := sentColumn held.stored.config held.current.config row.config
  documents := sentColumn held.stored.documents held.current.documents row.documents
  chunks := sentColumn held.stored.chunks held.current.chunks row.chunks
  embeddings := sentColumn held.stored.embeddings held.current.embeddings row.embeddings
  indexSize := sentColumn held.stored.indexSize held.current.indexSize row.indexSize
  apiKeyId := sentColumn held.stored.apiKeyId held.current.apiKeyId row.apiKeyId
  lastBuildCompleted :=
    sentColumn held.stored.lastBuildCompleted held.current.lastBuildCompleted row.lastBuildCompleted

/-- `RuntimeRepository.update`. The flush of a change locks the row. -/
def updateHeld (held : HeldRuntime) (row : BuildRow) : BuildProgram HeldRuntime := do
  locking .update (fun _ => if row = held.current then [] else [()]) fun _ => ()
  pure { held with current := row }

/-- A commit of the session, with what else it has written. -/
def commitHeld (l : BuildLabel) (held : HeldRuntime) (also : BuildDatabase → BuildDatabase) :
    BuildProgram HeldRuntime := do
  write l fun d => also { d with runtime := d.runtime.map held.flushed }
  pure (.ofRow held.current)

/-! ## The worker -/

inductive BuildEvent where
  | started
  | stage (stage : BuildStage)
  | ready
deriving DecidableEq, Repr

/-- What happens outside of the runtime's row: the work of the stages, and the exceptions
raised by it and by the publication of events. -/
structure BuildOutcomes where
  buildId : String
  published : BuildEvent → Option String := fun _ => none
  work : BuildStage → Option String := fun _ => none
  documents : ℕ := 0
  chunks : ℕ := 0
  embeddings : ℕ := 0
  vectors : ℕ := 0
  apiKey : ℕ := 0
  completedAt : ℕ := 0

def raiseAny : Option String → BuildProgram Unit
  | none => pure ()
  | some message => .raise (.raised message)

/-- `_update_runtime_status`. -/
def updateRuntimeStatus (status : String) (held : HeldRuntime) : BuildProgram HeldRuntime := do
  let held ← updateHeld held { held.current with status }
  commitHeld (.status status) held id

/-- `_update_runtime_counts`. -/
def updateRuntimeCounts (held : HeldRuntime) (row : BuildRow)
    (also : BuildDatabase → BuildDatabase) : BuildProgram HeldRuntime := do
  let held ← updateHeld held row
  commitHeld .counts held also

/-- `_update_build_progress`. -/
def updateBuildProgress (o : BuildOutcomes) (stage : BuildStage) (held : HeldRuntime) :
    BuildProgram HeldRuntime := do
  let progress := runtimeStages.idxOf stage * 100 / runtimeStages.length
  let config : BuildConfig :=
    { held.current.config with
      buildId := some o.buildId, buildStage := some stage.value,
      buildProgress := some (max 0 (min 100 progress)) }
  let held ← updateHeld held { held.current with config }
  commitHeld (.progress stage) held id

def newKey (o : BuildOutcomes) (row : BuildRow) : BuildKey where
  id := o.apiKey
  environment := if row.environment = "" then "development" else row.environment
  scopes := if row.config.writeAccessEnabled then ["read", "write"] else ["read"]

namespace RuntimeWorker

variable (o : BuildOutcomes)

/-- The methods `_stage_…`. What a stage does elsewhere comes first, and may raise. -/
def stageMethod (stage : BuildStage) (held : HeldRuntime) : BuildProgram HeldRuntime := do
  raiseAny (o.work stage)
  match stage with
  | .collectSources => updateRuntimeStatus "validating" held
  | .validateSources => updateRuntimeStatus "discovering" held
  | .discoverResources => updateRuntimeStatus "extracting" held
  | .extractDocuments => updateRuntimeStatus "cleaning" held
  | .normalizeDocuments => updateRuntimeStatus "chunking" held
  | .cleanDocuments => pure held
  | .chunkDocuments =>
      let chunks := if o.documents = 0 then 0 else o.chunks
      updateRuntimeCounts held { held.current with documents := o.documents, chunks := chunks }
        fun d => { d with chunkRows := d.chunkRows + chunks }
  | .generateEmbeddings =>
      let held ← updateRuntimeStatus "indexing" held
      updateRuntimeCounts held { held.current with embeddings := o.embeddings } id
  | .storeEmbeddings =>
      let held ← updateRuntimeCounts held { held.current with indexSize := o.vectors } id
      updateRuntimeStatus "building" held
  | .buildRuntime => updateRuntimeStatus "provisioning" held
  | .generateApiKey =>
      let held ← commitHeld .apiKey held fun d =>
        { d with keys := d.keys ++ [newKey o held.current] }
      updateHeld held { held.current with apiKeyId := some o.apiKey }
  | .activateRuntime =>
      let held ← updateHeld held { held.current with lastBuildCompleted := some o.completedAt }
      commitHeld .lastBuild held id

def closeLog (stage : BuildStage) (status : String) (errorMessage : Option String)
    (d : BuildDatabase) : BuildDatabase :=
  { d with logs := d.logs.map fun log =>
      if log.stage = stage ∧ log.status = "started" then ⟨stage, status, errorMessage⟩ else log }

/-- The rollback of a session and the update of the row that it then reads. -/
def markFailed (l : BuildLabel) (e : BuildError) (also : BuildDatabase → BuildDatabase) :
    BuildProgram Unit := do
  match ← query .reloaded BuildDatabase.runtime with
  | none => write l also
  | some row =>
      let held ← updateHeld (.ofRow row)
        { row with status := "failed", errorMessage := some e.text }
      let _ ← commitHeld l held also

/-- `_run_stage`. -/
def runStage (stage : BuildStage) (held : HeldRuntime) : BuildProgram HeldRuntime := do
  let held ← updateBuildProgress o stage held
  let held ← commitHeld (.started stage) held fun d =>
    { d with logs := d.logs ++ [⟨stage, "started", none⟩] }
  raiseAny (o.published (.stage stage))
  let held ← (stageMethod o stage held).catching fun e => do
    markFailed (.stageFailed stage) e (closeLog stage "failed" (some e.text))
    .raise e
  commitHeld (.completed stage) held (closeLog stage "completed" none)

def runStages : List BuildStage → HeldRuntime → BuildProgram HeldRuntime
  | [], held => pure held
  | stage :: stages, held =>
      if held.current.status = "cancelled" then pure held
      else do
        let held ← runStage o stage held
        runStages stages held

/-- The end of `run`. -/
def conclude (held : HeldRuntime) : BuildProgram Unit := do
  if held.current.status ≠ "cancelled" ∧ held.current.status ≠ "failed" then
    let config : BuildConfig :=
      { held.current.config with buildStage := some "active", buildProgress := some 100 }
    let held ← updateHeld held { held.current with status := "active", health := 100, config }
    let _ ← commitHeld .concluded held fun d => { d with hasBuiltRuntime := true }
    raiseAny (o.published .ready)

def build (held : HeldRuntime) : BuildProgram Unit := do
  write .chunksDeleted fun d => { d with chunkRows := 0 }
  raiseAny (o.published .started)
  let held ← runStages o runtimeStages held
  conclude o held

/-- `RuntimeWorker.run`. -/
def run : BuildProgram Unit := do
  match ← query .loaded BuildDatabase.runtime with
  | none => pure ()
  | some row =>
      (build o (.ofRow row)).catching fun e => do
        markFailed .failed e id
        .raise e

end RuntimeWorker

/-- The end of `RuntimeService.cancel`, for the row that it has read. -/
def cancelRow (row : BuildRow) : BuildProgram Unit := do
  let held ← updateHeld (.ofRow row) { row with status := "cancelled" }
  let _ ← commitHeld .cancelled held id

/-- `RuntimeService.cancel`. -/
def cancelRuntime : BuildProgram Unit := do
  match ← query .loaded BuildDatabase.runtime with
  | none => .raise .notFound
  | some row => cancelRow row

/-- One worker; every other session is a cancel request. -/
def buildSessions {S : Type} [DecidableEq S] (o : BuildOutcomes) (worker : S) :
    S → BuildProgram Unit := fun s => if s = worker then RuntimeWorker.run o else cancelRuntime

end Zyntry
