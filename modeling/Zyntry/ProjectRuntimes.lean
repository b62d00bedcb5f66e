import Zyntry.RowReferences
import Zyntry.RuntimeSettings
import Zyntry.SqlCommits

/-!
# Projects and their runtimes

The requests that create projects and runtimes, change them and attach the ones to the
others, as programs over the two tables. A session sends the columns in which its copy of a
row differs from what it has loaded; JSON columns are sent whenever they are set. How the
database folds names and how names are compared in Python are parameters.
-/

namespace Zyntry

open Python SqlProgram
open RowTable (sentColumn)

/-! ## Tables -/

/-- A row of `projects`. -/
structure ProjectRow where
  id : ℕ
  organizationId : ℕ
  name : String
  slug : String
  settings : Fields := []

/-- A row of `runtimes`. -/
structure RuntimeRow where
  id : ℕ
  userId : ℕ
  projectId : Option ℕ
  organizationId : Option ℕ
  settings : StoredRuntime := {}

/-- What a switch of the environment reads and writes of an API key. -/
structure EnvironmentKey where
  id : ℕ
  projectId : Option ℕ
  runtimeId : Option ℕ
  revoked : Bool := false
deriving DecidableEq, Repr

abbrev ProjectTable := RowTable ℕ ProjectRow ProjectRow.id

abbrev RuntimeTable := RowTable ℕ RuntimeRow RuntimeRow.id

structure ProjectDb where
  organizations : List ℕ
  projects : ProjectTable
  runtimes : RuntimeTable
  keys : List EnvironmentKey := []

structure ProjectUser where
  id : ℕ
  organizationId : Option ℕ

/-- Names as `func.lower`, `str.lower` and `str.casefold` fold them. -/
structure NameFunctions where
  sqlLower : String → String
  lower : String → String
  casefold : String → String

inductive ProjectError where
  | http (status : ℕ) (detail : String)
  | conflict (code message : String)
  | valueError (message : String)
  | tool (e : ToolError)
  | integrity
  | stopped

inductive ProjectStatement where
  | read
  | createdProject (project : ProjectRow)
  | created (runtime : RuntimeRow)
  | updated (loaded new : RuntimeRow)
  | attached (project : ℕ) (runtime : RuntimeRow) (detached : Option RuntimeRow)
  | savedProject (project : ℕ)
  | switched (project : ℕ) (runtime : RuntimeRow)

abbrev ProjectProgram := SqlProgram ProjectDb Unit ProjectStatement ProjectError

inductive Environment where
  | development
  | staging
  | production
deriving DecidableEq, Repr

def Environment.value : Environment → String
  | .development => "development"
  | .staging => "staging"
  | .production => "production"

/-- The environment in a project's settings, if it names one, is that of the runtime. -/
def environmentAgrees (settings : Fields) (environment : String) : Bool :=
  match Json.lookup "environment" settings with
  | none => true
  | some (.str s) => s = "" ∨ s = environment
  | some v => !v.truthy

/-! ## Lookups -/

namespace ProjectDb

/-- `get_by_project`: the first one in storage order. -/
def byProject (d : ProjectDb) (project : ℕ) : Option RuntimeRow :=
  d.runtimes.rows.find? fun r => r.projectId = some project

/-- `get_by_owner_and_name`. -/
def byOwnerAndName (N : NameFunctions) (d : ProjectDb) (owner : ℕ) (name : String) :
    Option RuntimeRow :=
  d.runtimes.rows.find? fun r =>
    r.userId = owner ∧ N.sqlLower r.settings.name = N.lower (stripped name)

/-- The foreign key of `runtimes.project_id`. -/
def HasProject (d : ProjectDb) (project : Option ℕ) : Prop :=
  ∀ k ∈ project, (d.projects.get? k).isSome

instance (d : ProjectDb) (project : Option ℕ) : Decidable (d.HasProject project) :=
  inferInstanceAs (Decidable (∀ k ∈ project, (d.projects.get? k).isSome))

/-- `uq_project_org_slug`, for a row that is written with this slug. -/
def SlugTaken (d : ProjectDb) (id organization : ℕ) (slug : String) : Prop :=
  ∃ p ∈ d.projects.rows, p.id ≠ id ∧ p.organizationId = organization ∧ p.slug = slug

instance (d : ProjectDb) (id organization : ℕ) (slug : String) :
    Decidable (d.SlugTaken id organization slug) :=
  inferInstanceAs (Decidable (∃ p ∈ d.projects.rows,
    p.id ≠ id ∧ p.organizationId = organization ∧ p.slug = slug))

end ProjectDb

def read {β : Type} (f : ProjectDb → β) : ProjectProgram β := query .read f

/-! ## Columns -/

/-- The two JSON columns of a runtime that an update may set. -/
structure JsonColumns where
  policies : Bool
  config : Bool

def StoredRuntime.flushed (loaded new : StoredRuntime) (set : JsonColumns)
    (stored : StoredRuntime) : StoredRuntime where
  name := sentColumn loaded.name new.name stored.name
  environment := sentColumn loaded.environment new.environment stored.environment
  provider := sentColumn loaded.provider new.provider stored.provider
  model := sentColumn loaded.model new.model stored.model
  fallbackModels := sentColumn loaded.fallbackModels new.fallbackModels stored.fallbackModels
  routingStrategy := sentColumn loaded.routingStrategy new.routingStrategy stored.routingStrategy
  embeddingModel := sentColumn loaded.embeddingModel new.embeddingModel stored.embeddingModel
  vectorStore := sentColumn loaded.vectorStore new.vectorStore stored.vectorStore
  chunkSize := sentColumn loaded.chunkSize new.chunkSize stored.chunkSize
  chunkOverlap := sentColumn loaded.chunkOverlap new.chunkOverlap stored.chunkOverlap
  systemInstructions :=
    sentColumn loaded.systemInstructions new.systemInstructions stored.systemInstructions
  securityPolicies := if set.policies then new.securityPolicies else stored.securityPolicies
  config := if set.config then new.config else stored.config

def RuntimeRow.flushed (loaded new : RuntimeRow) (set : JsonColumns) (stored : RuntimeRow) :
    RuntimeRow :=
  { stored with
    projectId := sentColumn loaded.projectId new.projectId stored.projectId
    organizationId := sentColumn loaded.organizationId new.organizationId stored.organizationId
    settings := loaded.settings.flushed new.settings set stored.settings }

theorem RuntimeRow.flushed_id (loaded new : RuntimeRow) (set : JsonColumns)
    (stored : RuntimeRow) : (loaded.flushed new set stored).id = stored.id := rfl

/-- The changes of a session to a runtime that it has loaded. -/
def ProjectDb.flushRuntime (loaded new : RuntimeRow) (set : JsonColumns) (d : ProjectDb) :
    ProjectDb :=
  { d with
    runtimes := d.runtimes.update loaded.id (loaded.flushed new set)
      (RuntimeRow.flushed_id loaded new set) }

/-! ## The runtime service -/

structure RuntimeCreate where
  userId : Option ℕ := none
  projectId : Option ℕ := none
  organizationId : Option ℕ := none
  settings : StoredRuntime := {}

def nameExists (duplicate : RuntimeRow) : ProjectError :=
  let name := duplicate.settings.name
  .conflict "runtime_name_already_exists"
    (s!"A runtime named '{name}' already exists. " ++
      "Review the existing runtime before proceeding.")

def nameMismatch (existing : RuntimeRow) (runtimeName : String) : ProjectError :=
  let name := existing.settings.name
  .conflict "project_runtime_name_mismatch"
    (s!"Project already has the runtime '{name}'. " ++
      s!"The requested name '{runtimeName}' does not match. " ++
      "Review the project binding before proceeding.")

/-- The columns of a new runtime; an empty environment is replaced. -/
def RuntimeCreate.row (data : RuntimeCreate) (id owner : ℕ) (name : String) : RuntimeRow where
  id
  userId := owner
  projectId := data.projectId
  organizationId := data.organizationId
  settings :=
    { data.settings with
      name
      environment :=
        if data.settings.environment = "" then "development" else data.settings.environment }

/-- `uow.runtimes.create` and the commit. -/
def insertRuntime (row : RuntimeRow) : ProjectProgram RuntimeRow := do
  let accepted ← read fun d => decide ((d.runtimes.get? row.id) = none ∧ d.HasProject row.projectId)
  ensure (accepted = true) .integrity
  let _ ← ofExcept (row.settings.flush.mapError .tool)
  write (.created row) fun d => { d with runtimes := d.runtimes.insert row }
  pure row

section Service

variable (N : NameFunctions) (ipRule : String → Option String)

/-- `RuntimeService.get_or_create`; the new id is given. -/
def getOrCreate (id : ℕ) (data : RuntimeCreate) (defaultUser : Option ℕ) :
    ProjectProgram RuntimeRow := do
  let owner ← orRaise (data.userId.or defaultUser)
    (.valueError "user_id is required to create a runtime")
  let runtimeName :=
    stripped (if data.settings.name = "" then "Default Runtime" else data.settings.name)
  ensure (runtimeName ≠ "") (.valueError "Runtime name cannot be empty")
  match ← read (·.byOwnerAndName N owner runtimeName) with
  | some duplicate => .raise (nameExists duplicate)
  | none =>
      match data.projectId with
      | none => insertRuntime (data.row id owner runtimeName)
      | some project =>
          match ← read (·.byProject project) with
          | some existing =>
              if N.casefold existing.settings.name = N.casefold runtimeName then pure existing
              else .raise (nameMismatch existing runtimeName)
          | none => insertRuntime (data.row id owner runtimeName)

/-- `RuntimeUpdate` with the project; `some none` detaches. -/
structure RuntimeRowPatch extends RuntimePatch where
  projectId : Option (Option ℕ) := none

def RuntimeRowPatch.jsonColumns (data : RuntimeRowPatch) : JsonColumns where
  policies := data.securityPolicies.isSome
  config := data.config.isSome

/-- The row that an update makes of the loaded one. -/
def RuntimeRowPatch.newRow (data : RuntimeRowPatch) (loaded : RuntimeRow)
    (settings : StoredRuntime) : RuntimeRow :=
  { loaded with projectId := data.projectId.getD loaded.projectId, settings }

/-- `RuntimeService.update`. -/
def updateRuntimeRow (id : ℕ) (data : RuntimeRowPatch) : ProjectProgram RuntimeRow := do
  let loaded ← orRaise (← read (·.runtimes.get? id)) (.valueError "Runtime not found")
  let settings ← ofExcept
    ((updateRuntime ipRule loaded.settings data.toRuntimePatch).mapError .tool)
  let new := data.newRow loaded settings
  ensure (new.projectId = loaded.projectId ∨ (← read fun d => decide (d.HasProject new.projectId)))
    .integrity
  write (.updated loaded new) (ProjectDb.flushRuntime loaded new data.jsonColumns)
  pure new

end Service

/-! ## Project requests -/

structure ProjectCreate where
  name : String
  slug : String
  organizationId : Option ℕ := none
  settings : Fields := []
  environment : Environment := .development

/-- `ProjectUpdate`; a field that is not set is `none`, and `some none` is a null. -/
structure ProjectUpdate where
  name : Option (Option String) := none
  slug : Option (Option String) := none
  settings : Option (Option Fields) := none
  runtimeId : Option (Option ℕ) := none
  environment : Option (Option Environment) := none

def notFound (detail : String) : ProjectError := .http 404 detail

def slugConflict : ProjectError := .http 409 "Project with this slug already exists"

/-- The project of the path, for a user of its organization. -/
def ownProject (user : ProjectUser) (id : ℕ) : ProjectProgram ProjectRow := do
  let project ← orRaise (← read (·.projects.get? id)) (notFound "Project not found")
  ensure (user.organizationId = some project.organizationId) (notFound "Project not found")
  pure project

/-- `create_project` without an idempotency key; the new id is given. -/
def createProject (user : ProjectUser) (id : ℕ) (body : ProjectCreate) :
    ProjectProgram ProjectRow := do
  let organization ← orRaise (body.organizationId.or user.organizationId)
    (.http 400 "organization_id is required")
  ensure (user.organizationId = some organization)
    (.http 403 "Cannot create project in another organization")
  ensure (organization ∈ (← read (·.organizations))) (notFound "Organization not found")
  let existing ← read fun d => d.projects.rows.filter fun p =>
    p.organizationId = organization ∧ p.name = body.name
  ensure (existing.length ≤ 1) (.http 500 "Multiple rows were found")
  ensure (existing = []) (.http 409 "Project with this name already exists")
  let project : ProjectRow :=
    { id, organizationId := organization, name := body.name, slug := body.slug
      settings := Json.set "environment" (.str body.environment.value) body.settings }
  let accepted ← read fun d => decide
    ((d.projects.get? id) = none ∧ ¬d.SlugTaken id organization body.slug)
  ensure (accepted = true) slugConflict
  write (.createdProject project) fun d => { d with projects := d.projects.insert project }
  pure project

/-- The settings that an update writes, if it writes any. -/
def ProjectUpdate.newSettings (body : ProjectUpdate) (settings : Fields) : Option Fields :=
  let given := body.settings.map (·.getD [])
  match body.environment.getD none with
  | none => given.map Json.asDict
  | some environment =>
      some (Json.asDict (Json.set "environment" (.str environment.value)
        (Json.update settings (given.getD []))))

/-- The project with the fields that an update sets. -/
def ProjectUpdate.apply (body : ProjectUpdate) (settings : Option Fields) (p : ProjectRow) :
    ProjectRow :=
  { p with
    name := (body.name.getD none).getD p.name
    slug := (body.slug.getD none).getD p.slug
    settings := settings.getD p.settings }

theorem ProjectUpdate.apply_id (body : ProjectUpdate) (settings : Option Fields)
    (p : ProjectRow) : (body.apply settings p).id = p.id := rfl

def ProjectDb.saveProject (id : ℕ) (body : ProjectUpdate) (settings : Option Fields)
    (d : ProjectDb) : ProjectDb :=
  { d with
    projects := d.projects.update id (body.apply settings) (ProjectUpdate.apply_id body settings) }

/-- The runtime of another project, or of none, that an update may attach. -/
def attachableRuntime (user : ProjectUser) (project : ProjectRow) (settings : Option Fields)
    (runtimeId : ℕ) : ProjectProgram RuntimeRow := do
  let runtime ← orRaise (← read (·.runtimes.get? runtimeId)) (notFound "Runtime not found")
  ensure (runtime.userId = user.id ∨
      (user.organizationId ≠ none ∧ runtime.organizationId = user.organizationId))
    (notFound "Runtime not found")
  ensure (runtime.projectId ∈ [none, some project.id])
    (.http 409 "Runtime is attached to another project")
  ensure (environmentAgrees (Json.update project.settings (settings.getD []))
      runtime.settings.environment = true)
    (.http 409 "runtime_environment_mismatch")
  pure runtime

def noJson : JsonColumns := ⟨false, false⟩

/-- The flushes of `update_project` that attach a runtime and detach the one before it. -/
def ProjectDb.attach (project : ProjectRow) (runtime : RuntimeRow) (detached : Option RuntimeRow)
    (d : ProjectDb) : ProjectDb :=
  let d :=
    match detached with
    | none => d
    | some old => d.flushRuntime old { old with projectId := none } noJson
  d.flushRuntime runtime
    { runtime with
      projectId := some project.id, organizationId := some project.organizationId } noJson

/-- `update_project`. The reconciliation of integrations may raise. -/
def updateProject (user : ProjectUser) (id : ℕ) (body : ProjectUpdate)
    (reconciled : Option String) : ProjectProgram Unit := do
  let project ← ownProject user id
  ensure (body.name ≠ some none) (.http 422 "name cannot be null")
  ensure (body.slug ≠ some none) (.http 422 "slug cannot be null")
  let settings := body.newSettings project.settings
  match body.runtimeId with
  | none =>
      let taken ← read fun d => decide (d.SlugTaken id project.organizationId
        ((body.slug.getD none).getD project.slug))
      ensure (taken = false) slugConflict
      write (.savedProject id) (ProjectDb.saveProject id body settings)
  | some none => .raise (.http 422 "runtime_id cannot be null")
  | some (some runtimeId) =>
      let runtime ← attachableRuntime user project settings runtimeId
      let attached ← read (·.byProject id)
      let detached := attached.filter fun old => old.id ≠ runtime.id
      ensure (reconciled = none) (.http 500 "Failed to update project")
      let taken ← read fun d => decide (d.SlugTaken id project.organizationId
        ((body.slug.getD none).getD project.slug))
      ensure (taken = false) slugConflict
      write (.attached id runtime detached) fun d =>
        (d.attach project runtime detached).saveProject id body settings

/-- `create_project_runtime`. -/
def createProjectRuntime (N : NameFunctions) (user : ProjectUser) (project id : ℕ)
    (data : RuntimeCreate) : ProjectProgram RuntimeRow := do
  let row ← ownProject user project
  getOrCreate N id
    { data with
      projectId := some project, organizationId := some row.organizationId
      userId := some user.id } (some user.id)

def ProjectRow.withSettings (settings : Fields) (p : ProjectRow) : ProjectRow :=
  { p with settings }

theorem ProjectRow.withSettings_id (settings : Fields) (p : ProjectRow) :
    (p.withSettings settings).id = p.id := rfl

def ProjectDb.setSettings (id : ℕ) (settings : Fields) (d : ProjectDb) : ProjectDb :=
  { d with
    projects := d.projects.update id (ProjectRow.withSettings settings)
      (ProjectRow.withSettings_id settings) }

/-- A key of the project or of the runtime is revoked. -/
def EnvironmentKey.revokedFor (project runtime : ℕ) (key : EnvironmentKey) : EnvironmentKey :=
  if key.projectId = some project ∨ key.runtimeId = some runtime then { key with revoked := true }
  else key

def RuntimeRow.switched (runtime : RuntimeRow) (target : Environment) : RuntimeRow :=
  { runtime with settings := { runtime.settings with environment := target.value } }

/-- `switch_project_environment`. -/
def switchProjectEnvironment (user : ProjectUser) (id : ℕ) (target : Environment) :
    ProjectProgram Unit := do
  let project ← ownProject user id
  let runtime ← orRaise (← read (·.byProject id))
    (.http 409 "Attach a runtime before switching this project environment")
  let settings := Json.set "environment" (.str target.value) project.settings
  write (.switched id runtime) fun d =>
    let d := (d.flushRuntime runtime (runtime.switched target) noJson).setSettings id settings
    { d with keys := d.keys.map (EnvironmentKey.revokedFor id runtime.id) }

end Zyntry
