import Zyntry.OnboardingTransitions
import Zyntry.ProjectRuntimes
import Zyntry.SqlAssertions

/-!
# Completion of an onboarding session

`complete_onboarding` reads the session, works out the name and the policies of its runtime,
and has `_ensure_onboarding_runtime` look the runtime up or create it. The runtime, its
integrations and the completed session are written by one commit, and nothing is locked
before the writes are sent.
-/

namespace Zyntry

open Python SqlProgram RowTable

inductive CompletionError where
  | onboarding (e : OnboardingError)
  | integration (e : IntegrationError)
  | policy (e : PolicyError)
  | badSessionId
  | sessionNotFound
  /-- No mode is chosen for the connection of the named integration. -/
  | ownerNotChosen (name : String)
  | nameMismatch (savedName requestedName : String)
  | runtimeNameExists (existing : Uuid)
  | database
  | stopped
deriving DecidableEq

/-! ## Rows -/

structure OnboardingSession where
  id : Uuid
  userId : Uuid
  state : String := "onboarding_started"
  messages : List Fields := []
  configuration : Fields := []
  createdRuntimeId : Option Uuid := none
  completedAt : Option ℤ := none

/-- A runtime in the columns that are read here. -/
structure OnboardedRuntime where
  id : Uuid
  userId : Uuid
  name : String
  environment : String
  status : String
  config : Fields

/-- The session, and the tables of runtimes and of their integrations. -/
structure CompletionDb where
  session : OnboardingSession
  runtimes : RowTable Uuid OnboardedRuntime OnboardedRuntime.id := default
  store : IntegrationStore := {}

inductive CompletionRow where
  | session
  | runtime (id : Uuid)
deriving DecidableEq, Repr

inductive CompletionLabel where
  | sessionLoaded
  | runtimeLoaded
  | nameLooked
  | runtimeInserted
  | policiesRead
  | sessionUpdate
  /-- The commit of a completed session, with its runtime and whether that is a new one. -/
  | completed (runtimeId : Uuid) (created : Bool)
deriving DecidableEq, Repr

abbrev CompletionProgram :=
  SqlProgram CompletionDb CompletionRow CompletionLabel CompletionError

/-- `get_by_owner_and_name`. -/
def CompletionDb.byOwnerAndName (d : CompletionDb) (N : NameFunctions) (owner : Uuid)
    (name : String) : Option OnboardedRuntime :=
  d.runtimes.rows.find? fun r =>
    r.userId = owner ∧ N.sqlLower r.name = N.lower (stripped name)

/-! ## Requests -/

structure OnboardingCompleteRequest where
  sessionId : String
  runtimeName : Option String := none
  environment : String := "development"
  integrationModes : List (String × String) := []
  nameReviewed : Bool := false

/-- A call, with the time and the id that a new runtime would get. -/
structure CompletionCall where
  userId : Uuid
  req : OnboardingCompleteRequest
  now : ℤ
  newId : Uuid

structure OnboardingCompleteResponse where
  sessionId : String
  runtimeId : Uuid
  runtimeName : String
  environment : Json
  status : String
  enabledIntegrations : List Json
  message : String
  applicationRequirements : Option Json
  runtimePlan : Option Json

/-- The engine with what completion takes from elsewhere: the methods of strings, the name that
a provider extracts from a message, what the conversions of the other columns of a runtime
raise, and the comparison by which a changed document is sent. -/
structure CompletionEngine extends OnboardingEngine where
  names : NameFunctions
  title : String → String
  capitalize : String → String
  extractRuntimeName : String → Option String
  columnError : Fields → Option CompletionError
  sameDocument : Fields → Fields → Bool

def spaced (s : String) : String := replaceChars ['_'] ' ' s

/-- `f"{value.replace('_', ' ')…}"` of a value that may be no string. -/
def replaced (change : String → String) : Json → Except OnboardingError String
  | .str s => .ok (change (spaced s))
  | _ => .error .attributeError

namespace CompletionEngine

variable (engine : CompletionEngine)

/-- `str(value or "")`. -/
def textOf (value : Option Json) : String :=
  match value.filter Json.truthy with
  | some v => engine.str v
  | none => ""

/-! ## The name of the runtime -/

/-- `_runtime_name_from_messages`. -/
def recoveredName (messages : List Fields) : Option String :=
  messages.reverse.findSome? fun item =>
    match Json.lookup "role" item, Json.lookup "content" item with
    | some (.str "user"), some (.str content) =>
        (engine.extractRuntimeName content).filter (· ≠ "")
    | _, _ => none

def requestedName (req : OnboardingCompleteRequest) : String := stripped (req.runtimeName.getD "")

def savedName (recovered : Option String) (configured : Option Json) : String :=
  stripped (recovered.getD (engine.textOf configured))

/-- The names differ and the user has not reviewed them. -/
def checkName (recovered : Option String) (configured : Option Json)
    (req : OnboardingCompleteRequest) : Except CompletionError Unit :=
  let saved := engine.savedName recovered configured
  let requested := requestedName req
  raiseIf (requested ≠ "" ∧ saved ≠ "" ∧
    engine.names.casefold requested ≠ engine.names.casefold saved ∧ req.nameReviewed = false)
    (.nameMismatch saved requested)

def fallbackName (config : Fields) : Except CompletionError String :=
  ((replaced engine.title ((Json.lookup "use_case" config).getD (.str "AI App"))).mapError
    .onboarding).map (· ++ " Runtime")

/-- The recovered name, if nothing else than a default is requested. -/
def repairedName (recovered : Option String) (configured : Option Json) (fallback : String)
    (req : OnboardingCompleteRequest) : Option String :=
  recovered.filter fun _ => requestedName req = "" ∨
    engine.names.casefold (requestedName req) ∈
      [engine.names.casefold (engine.textOf configured), engine.names.casefold fallback]

/-! ## Policies -/

/-- `_resolve_connection_mode` of any two values. -/
def resolveMode (slug requested : Json) : Except CompletionError (Json × String) :=
  if requested.truthy = false then .ok (.null, "not_selected")
  else
    match slug with
    | .str s =>
        match engine.registry.get s, requested with
        | none, _ => .ok (requested, "requested")
        | some _, .str mode =>
            ((resolveConnectionMode engine.registry s mode).mapError .integration).map
              fun (mode, resolution) => ((mode.map Json.str).getD .null, resolution)
        | some _, _ => .error (.onboarding .valueError)
    | _ => .error (.onboarding .attributeError)

/-- A policy of a completed session, normalized; `none` if it is skipped. -/
def normalizePolicy (config : Fields) : Json → Except CompletionError (Option Json)
  | .obj policy =>
      match (Json.lookup "integration_slug" policy).filter Json.truthy with
      | none => .ok none
      | some slug => do
          if ← (OnboardingEngine.keepSlug slug).mapError .onboarding then
            let requested := ((Json.lookup "requested_connection_mode" policy).or
              ((Json.lookup "connection_mode" policy).or
                (Json.lookup "integration_mode" config))).getD .null
            let (mode, resolution) ← engine.resolveMode slug requested
            pure (some (.obj (Json.update policy [("connection_mode", mode),
              ("requested_connection_mode", requested), ("mode_resolution", .str resolution)])))
          else pure none
  | _ => .error (.onboarding .attributeError)

/-- An intended integration of a draft. -/
structure DraftPolicy where
  slug : String
  name : String
  mode : Json
  requestedMode : Json
  modeResolution : String
  capabilities : Json

def DraftPolicy.fields (policy : DraftPolicy) : Json :=
  .obj [("integration_slug", .str policy.slug), ("connection_mode", policy.mode),
    ("requested_connection_mode", policy.requestedMode),
    ("mode_resolution", .str policy.modeResolution),
    ("enabled_capabilities", policy.capabilities), ("connection_status", .str "not_configured")]

/-- `capabilities_map.get(slug, reads)`. -/
def draftCapabilities (config : Fields) (slug : String) (definition : IntegrationDefinition) :
    Except CompletionError Json :=
  match (Json.lookup "capabilities" config).getD (.obj []) with
  | .obj fields =>
      .ok ((Json.lookup slug fields).getD (.arr (definition.readCapabilities.map .str)))
  | _ => .error (.onboarding .attributeError)

/-- One turn of the loop over the integrations of a draft. -/
def draftPolicy (config modes : Fields) : Json → Except CompletionError (Option DraftPolicy)
  | .str slug =>
      match engine.registry.get slug with
      | none => .ok none
      | some definition => do
          let capabilities ← draftCapabilities config slug definition
          let requested := ((Json.lookup slug modes).or
            (Json.lookup "integration_mode" config)).getD .null
          raiseIf (requested.truthy = false) (.ownerNotChosen definition.name)
          let (mode, modeResolution) ← engine.resolveMode (.str slug) requested
          pure (some { slug, name := definition.name, mode, requestedMode := requested,
                       modeResolution, capabilities })
  | _ => .error (.onboarding .attributeError)

/-- `{**config.get("integration_modes", {}), **req.integration_modes}`. -/
def draftModes (config : Fields) (req : OnboardingCompleteRequest) :
    Except CompletionError Fields :=
  match (Json.lookup "integration_modes" config).getD (.obj []) with
  | .obj fields =>
      .ok (Json.update fields (req.integrationModes.map fun (slug, mode) => (slug, .str mode)))
  | _ => .error (.onboarding .typeError)

def draftPolicies (config : Fields) (req : OnboardingCompleteRequest) :
    Except CompletionError (List DraftPolicy) := do
  let items ← (itemsOf ((Json.lookup "integrations" config).getD (.arr []))).mapError .onboarding
  let integrations ← (OnboardingEngine.withoutResources items).mapError .onboarding
  let modes ← draftModes config req
  let policies ← integrations.mapM (engine.draftPolicy config modes)
  pure (policies.filterMap id)

/-! ## Before the runtime is looked up -/

structure Preparation where
  config : Fields
  enabledIntegrations : List Json
  runtimeName : Json
  environment : Json

def environmentOf (req : OnboardingCompleteRequest) (config : Fields) : Json :=
  if req.environment ≠ "" then .str req.environment
  else (Json.lookup "environment" config).getD (.str "development")

def attachPlan (config : Fields) : Except CompletionError Fields :=
  (engine.attachRuntimePlan config (Json.lookup "runtime_plan" config)).mapError .onboarding

/-- The branch of a completed session. -/
def prepareAgain (session : OnboardingSession) (req : OnboardingCompleteRequest) :
    Except CompletionError Preparation := do
  let config := session.configuration
  let recovered := engine.recoveredName session.messages
  let configured := Json.lookup "runtime_name" config
  engine.checkName recovered configured req
  let fallback ← engine.fallbackName config
  let repaired := engine.repairedName recovered configured fallback req
  let named :=
    match repaired with
    | some name => Json.set "runtime_name" (.str name) config
    | none =>
        if requestedName req ≠ "" ∧ req.nameReviewed then
          Json.set "runtime_name" (.str (requestedName req)) config
        else config
  let existing ← (itemsOf ((Json.lookup "integration_policies" named).getD (.arr []))).mapError
    .onboarding
  let policies ← existing.mapM (engine.normalizePolicy named)
  let normalized := policies.filterMap id
  let config ← engine.attachPlan
    (if normalized.isEmpty then named
      else Json.set "integration_policies" (.arr normalized) named)
  pure
    { config
      enabledIntegrations := normalized
      runtimeName :=
        match repaired with
        | some name => .str name
        | none =>
            if requestedName req ≠ "" then .str (requestedName req)
            else (Json.lookup "runtime_name" config).getD (.str "AI App Runtime")
      environment := environmentOf req config }

/-- The branch of a session that is not completed; the policies are kept for the answer. -/
def prepareDraft (session : OnboardingSession) (req : OnboardingCompleteRequest) :
    Except CompletionError (Preparation × List DraftPolicy) := do
  let config := session.configuration
  let recovered := engine.recoveredName session.messages
  let configured := Json.lookup "runtime_name" config
  let fallback ← engine.fallbackName config
  engine.checkName recovered configured req
  let runtimeName : Json :=
    match engine.repairedName recovered configured fallback req with
    | some name => .str name
    | none =>
        if requestedName req ≠ "" then .str (requestedName req)
        else (configured.filter Json.truthy).getD (.str fallback)
  let environment := environmentOf req config
  let config := Json.update config [("runtime_name", runtimeName), ("environment", environment)]
  let policies ← engine.draftPolicies config req
  let enabledIntegrations := policies.map DraftPolicy.fields
  let config ← engine.attachPlan (Json.set "integration_policies" (.arr enabledIntegrations) config)
  pure ({ config, enabledIntegrations, runtimeName, environment }, policies)

/-! ## The runtime of a session -/

/-- `bool(config.get("requires_documents") or requirements.get("requires_documents"))`. -/
def requiresDocuments (config requirements : Fields) : Bool :=
  ((Json.lookup "requires_documents" config).any Json.truthy) ||
    (Json.lookup "requires_documents" requirements).any Json.truthy

def orAutomatic (value : Option Json) : Json :=
  (value.filter Json.truthy).getD (.str "automatic")

def runtimeConfig (sessionId : Uuid) (config : Fields) : Fields :=
  let requirements : Fields :=
    match Json.lookup "application_requirements" config with
    | some (.obj fields) => fields
    | _ => []
  [("onboarding_session_id", .str sessionId.str),
   ("onboarding_requirements", (Json.lookup "application_requirements" config).getD .null),
   ("runtime_plan", (Json.lookup "runtime_plan" config).getD .null),
   ("integrations", (Json.lookup "integrations" config).getD (.arr [])),
   ("capabilities", (Json.lookup "capabilities" config).getD (.obj [])),
   ("integration_mode", (Json.lookup "integration_mode" config).getD .null),
   ("integration_modes", (Json.lookup "integration_modes" config).getD (.obj [])),
   ("requires_documents", .bool (requiresDocuments config requirements)),
   ("document_formats", (Json.lookup "document_formats" requirements).getD (.arr [])),
   ("external_sources", (Json.lookup "external_sources" config).getD (.obj [])),
   ("memory_policy", (Json.lookup "memory_policy" config).getD .null),
   ("provider_preference", orAutomatic (Json.lookup "provider" config)),
   ("model_preference", orAutomatic (Json.lookup "model" config))]

/-- The row of a new runtime; values that its columns cannot hold raise. -/
def newRuntime (session : OnboardingSession) (userId id : Uuid) (config : Fields) (name : String)
    (environment : Json) : Except CompletionError OnboardedRuntime :=
  match engine.columnError config with
  | some e => .error e
  | none =>
      match if environment.truthy then environment else .str "development" with
      | .str environment =>
          if 255 < name.length ∨ 32 < environment.length then .error .database
          else .ok
            { id, userId, name, environment
              status := "preconfigured"
              config := runtimeConfig session.id config }
      | _ => .error .database

/-- The session that owns a runtime. -/
def marker (runtime : OnboardedRuntime) : String :=
  engine.textOf (Json.lookup "onboarding_session_id" runtime.config)

/-- `reconcile_runtime_policies` in a session that has the runtime. -/
def reconciled (runtime : OnboardedRuntime) (policies : List Json) (store : IntegrationStore) :
    Except CompletionError (List RuntimeIntegration) :=
  let tenancy : Tenancy :=
    { runtimes := fun id => if id = runtime.id then some ⟨runtime.userId, none⟩ else none
      users := fun _ => none
      projects := fun _ => none }
  ((reconcileRuntimePolicies engine.registry tenancy store runtime.id runtime.config policies
    true).mapError .policy).map Prod.snd

/-- The session as it is set, and as the stored row is after the flush. -/
def flushedSession (loaded new stored : OnboardingSession) : OnboardingSession :=
  { stored with
    state := sentColumn loaded.state new.state stored.state
    configuration :=
      if engine.sameDocument new.configuration loaded.configuration then stored.configuration
      else new.configuration
    createdRuntimeId :=
      sentColumn loaded.createdRuntimeId new.createdRuntimeId stored.createdRuntimeId
    completedAt := sentColumn loaded.completedAt new.completedAt stored.completedAt }

/-- The update locks the row, unless nothing has changed. -/
def changesSession (loaded new : OnboardingSession) : Bool :=
  loaded.state ≠ new.state || loaded.createdRuntimeId ≠ new.createdRuntimeId ||
    loaded.completedAt ≠ new.completedAt ||
    !engine.sameDocument new.configuration loaded.configuration

/-- The configuration and the session that a completion sets. -/
def completedConfig (session : OnboardingSession) (config : Fields) (runtime : OnboardedRuntime) :
    Fields :=
  Json.update config [("runtime_id", .str runtime.id.str), ("runtime_name", .str runtime.name),
    ("runtime_status", .str runtime.status), ("onboarding_session_id", .str session.id.str)]

def completed (session : OnboardingSession) (runtimeId : Uuid) (config : Fields) (now : ℤ) :
    OnboardingSession :=
  { session with
    state := "completed"
    createdRuntimeId := some runtimeId
    configuration := config
    completedAt := some (session.completedAt.getD now) }

/-- The end of `_ensure_onboarding_runtime`, from the runtime that is found or created. -/
def finishSession (session : OnboardingSession) (call : CompletionCall) (prepared : Preparation)
    (runtime : OnboardedRuntime) (created : Bool) :
    CompletionProgram (OnboardedRuntime × Fields) := do
  let policies ← query .policiesRead fun d =>
    if prepared.enabledIntegrations.isEmpty then .ok []
    else engine.reconciled runtime prepared.enabledIntegrations d.store
  let rows ← ofExcept policies
  let config := completedConfig session prepared.config runtime
  let new := completed session runtime.id config call.now
  locking .sessionUpdate
    (fun _ => if engine.changesSession session new then [.session] else []) fun _ => ()
  write (.completed runtime.id created) fun d =>
    { session := engine.flushedSession session new d.session
      runtimes := if created then d.runtimes.insert runtime else d.runtimes
      store := rows.foldl IntegrationStore.writeIntegration d.store }
  pure (runtime, config)

/-- A new row waits for the others with its key. -/
def insertRuntime (runtime : OnboardedRuntime) : CompletionProgram Unit := do
  let taken ← locking .runtimeInserted (fun _ => [.runtime runtime.id])
    fun d => d.runtimes.get? runtime.id
  ensure taken.isNone .database

/-- `uow.runtimes.get` of an id, if there is one. -/
def loadRuntime (id : Option Uuid) : CompletionProgram (Option OnboardedRuntime) :=
  match id with
  | some id => query .runtimeLoaded fun d => d.runtimes.get? id
  | none => pure none

/-- The end of `_ensure_onboarding_runtime`, from its lookups. -/
def finishRuntime (session : OnboardingSession) (call : CompletionCall) (prepared : Preparation)
    (name : String) (runtime existing : Option OnboardedRuntime) :
    CompletionProgram (OnboardedRuntime × Fields) :=
  match runtime, existing with
  | some runtime, _ => engine.finishSession session call prepared runtime false
  | none, some existing =>
      if engine.marker existing = session.id.str then
        engine.finishSession session call prepared existing false
      else .raise (.runtimeNameExists existing.id)
  | none, none => do
      let row ← ofExcept (engine.newRuntime session call.userId call.newId prepared.config name
        prepared.environment)
      insertRuntime row
      engine.finishSession session call prepared row true

/-- `_ensure_onboarding_runtime`. -/
def ensureOnboardingRuntime (session : OnboardingSession) (call : CompletionCall)
    (prepared : Preparation) : CompletionProgram (OnboardedRuntime × Fields) := do
  let created ← loadRuntime session.createdRuntimeId
  let stored := ((Json.lookup "runtime_id" prepared.config).filter Json.truthy).bind Uuid.ofJson
  let runtime ← if created.isNone then loadRuntime stored else pure created
  match prepared.runtimeName with
  | .str name => do
      let existing ← query .nameLooked fun d => d.byOwnerAndName engine.names call.userId name
      engine.finishRuntime session call prepared name runtime existing
  | _ => .raise (.onboarding .attributeError)

/-! ## The call -/

def againMessage : String :=
  "Runtime created and ready to attach to a project. " ++
    "Connect its resources and build it from the Runtime Console."

/-- The line of an integration in the answer. -/
def policyLine (policy : DraftPolicy) : Except OnboardingError String := do
  let capabilities ← (← itemsOf policy.capabilities).mapM (replaced engine.capitalize)
  pure ("• " ++ policy.name ++ ": " ++ String.intercalate ", " capabilities)

def draftMessage (name environment : Json) (status : String) (config : Fields)
    (policies : List DraftPolicy) : Except OnboardingError String := do
  let lines ← policies.mapM engine.policyLine
  let environment ←
    match environment with
    | .str s => .ok (engine.capitalize s)
    | _ => .error .attributeError
  let strategy ← replaced engine.capitalize
    ((Json.lookup "routing_strategy" config).getD (.str "balanced"))
  pure ("Runtime created.\n\n• Name: " ++ engine.str name ++
    "\n• Status: " ++ engine.title (spaced status) ++
    "\n• Environment: " ++ environment ++
    "\n• Routing Strategy: " ++ strategy ++
    "\n\nConfigured Integrations:\n" ++
    (if lines.isEmpty then "• Standard read access" else String.intercalate "\n" lines) ++
    "\n\nNext: attach it to a project, connect the selected resources, and build it.")

def answerAgain (session : OnboardingSession) (prepared : Preparation)
    (runtime : OnboardedRuntime) (config : Fields) : OnboardingCompleteResponse where
  sessionId := session.id.str
  runtimeId := runtime.id
  runtimeName := runtime.name
  environment := .str runtime.environment
  status := runtime.status
  enabledIntegrations := prepared.enabledIntegrations
  message := againMessage
  applicationRequirements := Json.lookup "application_requirements" config
  runtimePlan := Json.lookup "runtime_plan" config

def answerDraft (session : OnboardingSession) (prepared : Preparation)
    (runtime : OnboardedRuntime) (config : Fields) (message : String) :
    OnboardingCompleteResponse where
  sessionId := session.id.str
  runtimeId := runtime.id
  runtimeName := engine.str prepared.runtimeName
  environment := prepared.environment
  status := runtime.status
  enabledIntegrations := prepared.enabledIntegrations
  message := message
  applicationRequirements := Json.lookup "application_requirements" config
  runtimePlan := Json.lookup "runtime_plan" config

/-- The rest of a call for a session that it owns. -/
def completeSession (session : OnboardingSession) (call : CompletionCall) :
    CompletionProgram OnboardingCompleteResponse :=
  if session.state = "completed" then do
    let prepared ← ofExcept (engine.prepareAgain session call.req)
    let (runtime, config) ← engine.ensureOnboardingRuntime session call prepared
    pure (answerAgain session prepared runtime config)
  else do
    let (prepared, policies) ← ofExcept (engine.prepareDraft session call.req)
    let (runtime, config) ← engine.ensureOnboardingRuntime session call prepared
    let message ← ofExcept ((engine.draftMessage prepared.runtimeName prepared.environment
      runtime.status config policies).mapError .onboarding)
    pure (engine.answerDraft session prepared runtime config message)

/-- `complete_onboarding`. -/
def completeOnboarding (call : CompletionCall) :
    CompletionProgram OnboardingCompleteResponse := do
  let sessionId ← orRaise ((uuid call.req.sessionId).map Uuid.mk) .badSessionId
  let session ← query .sessionLoaded CompletionDb.session
  ensure (session.id = sessionId ∧ session.userId = call.userId) .sessionNotFound
  engine.completeSession session call

end CompletionEngine

end Zyntry
