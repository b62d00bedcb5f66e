import Zyntry.ActionProposals
import Zyntry.ConfigurationTools
import Zyntry.Integrations
import Zyntry.RowTable
import Zyntry.SqlEndings

/-!
# The tools of the runtime assistant

A tool is a handler that is called with the arguments of the call as keywords. The handlers
that change something do it through services that commit their own work, and then put the
answer together. A statement that is flushed may be refused by the database, and a build may
be refused by the queue.
-/

namespace Zyntry

open Python SqlProgram

/-! ## The tables -/

/-- A row of `runtimes`, without the counters of its documents. -/
structure AssistantRuntime extends StoredRuntime where
  id : Uuid
  projectId : Option Uuid := none
  organizationId : Option Uuid := none
  apiKeyId : Option Uuid := none
  status : String := "queued"
  health : ℚ := 0
  lastBuildStarted : Option ℤ := none
  lastBuildCompleted : Option ℤ := none
  errorMessage : Option String := none

structure StoredApiKey where
  id : Uuid
  name : String
  hashedKey : String
  keyPrefix : String
  userId : Option Uuid := none
  runtimeId : Option Uuid := none
  projectId : Option Uuid := none
  organizationId : Option Uuid := none
  environment : String := "development"
  allowedOrigins : List String := []
  scopes : List String := ["read"]
  revoked : Bool := false
  expiresAt : Option ℤ := none
  usageCount : ℕ := 0

structure AssistantTool where
  id : Uuid
  name : String
  projectId : Option Uuid

structure AssistantSource where
  id : Uuid
  projectId : Uuid
  sourceType : String
  status : String

/-- A row of `provider_connections`. -/
structure ProviderCredential where
  projectId : Option Uuid
  organizationId : Option Uuid
  providerName : String
  isActive : Bool
  status : String
  encryptedApiKey : Option String

structure ToolTables where
  runtimes : RowTable Uuid AssistantRuntime AssistantRuntime.id := default
  apiKeys : RowTable Uuid StoredApiKey StoredApiKey.id := default
  tools : RowTable Uuid AssistantTool AssistantTool.id := default
  sources : RowTable Uuid AssistantSource AssistantSource.id := default
  integrations : List RuntimeIntegration := []
  providers : List ProviderCredential := []
  /-- How many documents a project has. -/
  documents : Uuid → ℕ := fun _ => 0

/-- The stored runtime takes the values of `row`. -/
def ToolTables.saveRuntime (row : AssistantRuntime) (d : ToolTables) : ToolTables :=
  { d with runtimes := d.runtimes.update row.id (fun r => { row with id := r.id }) fun _ => rfl }

def ToolTables.createApiKey (key : StoredApiKey) (d : ToolTables) : ToolTables :=
  { d with apiKeys := d.apiKeys.insert key }

def ToolTables.revokeApiKey (id : Uuid) (d : ToolTables) : ToolTables :=
  { d with
    apiKeys := d.apiKeys.update id (fun key => { key with revoked := true }) fun _ => rfl }

/-! ## Programs -/

/-- An exception of a handler; the text of `other` is not shown. -/
inductive ToolException where
  | permissionDenied (message : String)
  | valueError (message : String)
  | other
deriving DecidableEq

def ToolException.ofToolError : ToolError → ToolException
  | .valueError message => .valueError message
  | .other => .other

/-- A handler: its locks play no role, and its statements have no names. -/
abbrev ToolProgram := SqlProgram ToolTables Unit Unit ToolException

/-- What the handlers use from outside of the database. -/
structure ToolServices where
  now : ℤ
  newId : Uuid
  generateApiKey : String → String
  hashToken : String → String
  isoformat : ℤ → String
  ipRule : String → Option String
  providerRegistry : List String
  environmentKey : String → Option String
  decrypt : String → Option String
  /-- Why the database refuses tables that are flushed. -/
  flushError : ToolTables → Option ToolException
  /-- The exception of the queue. -/
  queueError : Option String
  /-- What a tool that only reads finds. -/
  answer : String → Fields → ToolTables → Except ToolException Json
  /-- `sync_source`, which may read, change and raise anything. -/
  syncSource : AssistantSource → ToolProgram Json

/-- `RuntimeAssistantTools`. -/
structure RuntimeAssistantTools where
  services : ToolServices
  runtimeId : String
  projectId : Option String := none

/-- The changes are flushed. -/
def ToolServices.flush (services : ToolServices) (change : ToolTables → ToolTables) :
    ToolProgram Unit := do
  match ← query () fun d => services.flushError (change d) with
  | some e => raise e
  | none => pure ()

/-- The changes are flushed and committed. -/
def ToolServices.save (services : ToolServices) (change : ToolTables → ToolTables) :
    ToolProgram Unit := do
  services.flush change
  write () change

/-- `UUID(text)`. -/
def requireUuid (text message : String) : ToolProgram Uuid :=
  orRaise ((uuid text).map Uuid.mk) (.valueError message)

/-! ## `RuntimeService` -/

/-- `_to_read`, without the counters and the dates of the row. -/
def AssistantRuntime.toRead (isoformat : ℤ → String) (row : AssistantRuntime) : Json :=
  let idText (id : Option Uuid) : Json := (id.map fun u => Json.str u.str).getD .null
  let text (s : Option String) : Json := (s.map Json.str).getD .null
  let time (t : Option ℤ) : Json := (t.map fun t => Json.str (isoformat t)).getD .null
  .obj
    [("id", .str row.id.str), ("name", .str row.name), ("environment", .str row.environment),
     ("project_id", idText row.projectId), ("organization_id", idText row.organizationId),
     ("status", .str row.status), ("provider", .str row.provider), ("model", .str row.model),
     ("fallback_models", .arr (row.fallbackModels.map .str)),
     ("routing_strategy", .str (orElse row.routingStrategy "balanced")),
     ("embedding_model", .str row.embeddingModel), ("vector_store", .str row.vectorStore),
     ("chunk_size", .int row.chunkSize), ("chunk_overlap", .int row.chunkOverlap),
     ("last_build_started", time row.lastBuildStarted),
     ("last_build_completed", time row.lastBuildCompleted), ("health", .float row.health),
     ("error_message", text row.errorMessage), ("api_key_id", idText row.apiKeyId),
     ("system_instructions", text row.systemInstructions),
     ("security_policies", .obj (redactFields row.securityPolicies)),
     ("config", .obj row.readConfig)]

/-- What `enqueue_build` finds before it starts a build. -/
inductive BuildGate where
  | projectAttachment
  | providerCredentials (requirements : List (String × String))
  | connections (slugs : List String)
  | documents (formats : Json)
  | passed

/-- `_database_connection`. -/
def ToolTables.providerConnection (d : ToolTables) (providerName : String) (projectId : Uuid)
    (organizationId : Option Uuid) : Option ProviderCredential :=
  let usable (row : ProviderCredential) : Bool :=
    lower (stripped row.providerName) = providerName ∧ row.isActive ∧ row.status = "active"
  (d.providers.find? fun row => row.projectId = some projectId ∧ usable row).or
    (organizationId.bind fun organization =>
      d.providers.find? fun row => row.organizationId = some organization ∧ usable row)

/-- `decrypt_provider_key`. -/
def ToolServices.decryptProviderKey (services : ToolServices) (value : Option String) :
    Option String :=
  (value.filter (· ≠ "")).bind fun key =>
    if startsWith key "ENCV1:" then services.decrypt key else some key

/-- `provider_credential_status`, as the reason why a provider has no credentials. -/
def ToolServices.missingCredential (services : ToolServices) (d : ToolTables)
    (providerName : String) (projectId : Uuid) (organizationId : Option Uuid) : Option String :=
  let normalized := lower (stripped providerName)
  if normalized ∉ services.providerRegistry then some "unsupported_provider"
  else
    let stored := ((d.providerConnection normalized projectId organizationId).bind fun row =>
      services.decryptProviderKey row.encryptedApiKey).filter (· ≠ "")
    let key := stored.or ((services.environmentKey normalized).filter (· ≠ ""))
    if (key.filter fun k => stripped k ≠ "").isSome then none else some "missing_credentials"

/-- The providers of a runtime, each once. -/
def AssistantRuntime.providerNames (row : AssistantRuntime) : List String :=
  let names := [lower (stripped row.provider)]
  let embeddingModel := stripped row.embeddingModel
  let embeddingProvider :=
    if '/' ∈ embeddingModel.toList then
      lower (String.ofList (embeddingModel.toList.takeWhile (· ≠ '/')))
    else "openai"
  if embeddingProvider ∈ names then names else names ++ [embeddingProvider]

/-- `_provider_requirements` of a runtime with a project. -/
def ToolServices.providerRequirements (services : ToolServices) (d : ToolTables)
    (row : AssistantRuntime) (projectId : Uuid) : List (String × String) :=
  (row.providerNames.filter (· ≠ "")).filterMap fun providerName =>
    (services.missingCredential d providerName projectId row.organizationId).map fun reason =>
      (providerName, reason)

/-- A dict in the configuration of a runtime. -/
def AssistantRuntime.configDict (row : AssistantRuntime) (key : String) : Option Fields :=
  match Json.lookup key row.config with
  | some (.obj fields) => some fields
  | _ => none

def AssistantRuntime.onboardingRequirements (row : AssistantRuntime) : Fields :=
  ((row.configDict "onboarding_requirements").or
    (row.configDict "application_requirements")).getD []

def AssistantRuntime.requiresDocuments (row : AssistantRuntime)
    (integrations : List RuntimeIntegration) : Bool :=
  let components :=
    match Json.lookup "components" ((row.configDict "runtime_plan").getD []) with
    | some (.arr items) => items
    | _ => []
  (Json.lookup "requires_documents" row.config).any Json.truthy ||
    (Json.lookup "requires_documents" row.onboardingRequirements).any Json.truthy ||
    components.any (fun component =>
      match component.get? "key" with
      | some (.str key) => key = "document_processing"
      | _ => false) ||
    integrations.any fun item => item.isEnabled && item.integrationSlug = "document_storage"

def ToolServices.buildGate (services : ToolServices) (row : AssistantRuntime) (d : ToolTables) :
    BuildGate :=
  match row.projectId with
  | none => .projectAttachment
  | some projectId =>
      let requirements := services.providerRequirements d row projectId
      let integrations := d.integrations.filter fun item => item.runtimeId = row.id
      let required := integrations.filter fun item =>
        item.isEnabled && item.connectionRequired && item.connectionStatus ≠ "connected"
      if requirements ≠ [] then .providerCredentials requirements
      else if required ≠ [] then .connections (required.map RuntimeIntegration.integrationSlug)
      else if row.requiresDocuments integrations ∧ d.documents projectId = 0 then
        .documents ((Json.lookup "document_formats" row.onboardingRequirements).getD (.arr []))
      else .passed

/-- The row of a build that starts. -/
def AssistantRuntime.building (row : AssistantRuntime) (now : ℤ) : AssistantRuntime :=
  { row with
    status := "building"
    health := 0
    lastBuildStarted := some now
    lastBuildCompleted := none
    errorMessage := none }

/-- The row of a build that could not be queued. -/
def AssistantRuntime.unqueued (row : AssistantRuntime) (reason : String) : AssistantRuntime :=
  { row with
    status := "failed"
    errorMessage := some s!"Unable to queue runtime build: {reason}" }

namespace RuntimeAssistantTools

variable (self : RuntimeAssistantTools)

/-- The runtime of the assistant, or the error of the handlers. -/
def getRuntime : ToolProgram AssistantRuntime := do
  let id ← requireUuid self.runtimeId "badly formed hexadecimal UUID string"
  orRaise (← query () fun d => d.runtimes.get? id) (.valueError "Runtime not found")

/-- The configuration columns of the runtime are changed and committed. -/
def update (change : StoredRuntime → Except ToolError StoredRuntime) : ToolProgram Json := do
  let row ← self.getRuntime
  let stored ← ofExcept ((change row.toStoredRuntime).mapError .ofToolError)
  let updated : AssistantRuntime := { row with toStoredRuntime := stored }
  self.services.save (ToolTables.saveRuntime updated)
  pure (updated.toRead self.services.isoformat)

def updateStatus (status : String) : ToolProgram Unit := do
  let row ← self.getRuntime
  self.services.save (ToolTables.saveRuntime { row with status })

/-- The status of a runtime that cannot be built, and the answer to it. -/
def await (row : AssistantRuntime) (status trigger : String) (answer : Fields) :
    ToolProgram Json := do
  self.services.save (ToolTables.saveRuntime { row with status, errorMessage := none })
  pure (.obj ([("runtime_id", .str row.id.str), ("status", .str status)] ++ answer ++
    [("trigger", .str trigger)]))

def enqueueBuild (trigger : String) : ToolProgram Json := do
  let row ← self.getRuntime
  match ← query () (self.services.buildGate row) with
  | .projectAttachment =>
      self.await row "awaiting_project_attachment" trigger
        [("required_project_attachment", .bool true),
         ("message", .str "Attach this runtime to a project before building it.")]
  | .providerCredentials requirements =>
      self.await row "awaiting_provider_credentials" trigger
        [("required_provider_credentials", .arr (requirements.map fun (provider, reason) =>
          .obj [("provider", .str provider), ("reason", .str reason)])),
         ("message",
          .str "Connect and verify the selected model provider before building.")]
  | .connections slugs =>
      self.await row "awaiting_connections" trigger
        [("required_connections", .arr (slugs.map .str))]
  | .documents formats =>
      self.await row "awaiting_documents" trigger
        [("required_documents", .bool true), ("required_document_formats", formats)]
  | .passed =>
      let building := row.building self.services.now
      self.services.save (ToolTables.saveRuntime building)
      match self.services.queueError with
      | some reason =>
          self.services.save (ToolTables.saveRuntime (building.unqueued reason))
          raise .other
      | none =>
          pure (.obj [("runtime_id", .str row.id.str), ("status", .str "building"),
            ("build_stage", .str "collect_sources"), ("build_progress", .int 0),
            ("trigger", .str trigger)])

end RuntimeAssistantTools

/-! ## `ApiKeyService` -/

/-- An `ApiKeyRead`. -/
structure ApiKeyRead where
  id : Uuid
  name : String
  keyPrefix : String
  runtimeId : Option Uuid
  projectId : Option Uuid
  environment : String
  allowedOrigins : List String
  scopes : List String
  revoked : Bool
  expiresAt : Option ℤ
  usageCount : ℕ

/-- `key.get(name)`: a model of pydantic has no such method. -/
def ApiKeyRead.get (_ : ApiKeyRead) (_ : String) : Except ToolException Json := .error .other

def StoredApiKey.toRead (key : StoredApiKey) : ApiKeyRead where
  id := key.id
  name := key.name
  keyPrefix := key.keyPrefix
  runtimeId := key.runtimeId
  projectId := key.projectId
  environment := key.environment
  allowedOrigins := key.allowedOrigins
  scopes := key.scopes
  revoked := key.revoked
  expiresAt := key.expiresAt
  usageCount := key.usageCount

structure RotatedKey where
  apiKey : ApiKeyRead
  rawKey : String

namespace ToolServices

variable (services : ToolServices)

/-- The key that takes the place of another one. -/
def rotated (old : StoredApiKey) : StoredApiKey × String :=
  let keyType :=
    if old.environment ∈ ["development", "staging", "test"] then "sk_test" else "sk_live"
  let rawKey := services.generateApiKey keyType
  ({ id := services.newId
     name := old.name
     hashedKey := services.hashToken rawKey
     keyPrefix := String.ofList (rawKey.toList.take 16)
     userId := old.userId
     runtimeId := old.runtimeId
     projectId := old.projectId
     organizationId := old.organizationId
     environment := old.environment
     scopes := old.scopes
     allowedOrigins := old.allowedOrigins }, rawKey)

def rotateKey (keyId : Uuid) : ToolProgram RotatedKey := do
  let old ← orRaise (← query () fun d => d.apiKeys.get? keyId) (.valueError "API key not found")
  ensure (old.revoked = false) (.valueError "API key is already revoked")
  let key := (services.rotated old).1
  let taken ← query () fun d => (d.apiKeys.get? key.id).isSome
  ensure (taken = false) .other
  services.flush (ToolTables.createApiKey key)
  services.save fun d => (d.createApiKey key).revokeApiKey old.id
  pure ⟨key.toRead, (services.rotated old).2⟩

/-- The argument of `revoke_key`, which is meant to be a text. -/
def keyId : Json → ToolProgram Uuid
  | .str s => requireUuid s "Invalid api key id"
  | .null => raise (.valueError "API key not found")
  | _ => raise .other

def revokeKey (apiKeyId : Json) : ToolProgram Unit := do
  let id ← keyId apiKeyId
  let key ← orRaise (← query () fun d => d.apiKeys.get? id) (.valueError "API key not found")
  services.save (ToolTables.revokeApiKey key.id)

end ToolServices

/-! ## The handlers -/

inductive ToolHandler where
  /-- A handler that changes none of the tables, with its keywords. -/
  | reads (required optional : List String)
  | enableDynamicRouting
  | disableDynamicRouting
  | changeDefaultProvider
  | changeTemperature
  | changeMaxTokens
  | updateRuntimeConfiguration
  | syncSources
  | restartRuntime
  | pauseRuntime
  | resumeRuntime
  | rotateApiKey
  | revokeApiKey
deriving DecidableEq

/-- `_TOOL_MAP`. -/
def toolMap : List (String × ToolHandler) :=
  [("get_runtime_summary", .reads [] []), ("get_runtime_health", .reads [] []),
   ("get_runtime_config", .reads [] []), ("get_providers", .reads [] []),
   ("get_models", .reads [] []), ("get_knowledge_sources", .reads [] []),
   ("get_tools", .reads [] []), ("get_logs", .reads [] ["limit"]),
   ("get_analytics", .reads [] []), ("get_billing", .reads [] []),
   ("get_security_settings", .reads [] []), ("get_deployment_status", .reads [] []),
   ("get_change_history", .reads [] ["limit"]),
   ("enable_dynamic_routing", .enableDynamicRouting),
   ("disable_dynamic_routing", .disableDynamicRouting),
   ("change_default_provider", .changeDefaultProvider),
   ("change_temperature", .changeTemperature), ("change_max_tokens", .changeMaxTokens),
   ("update_runtime_configuration", .updateRuntimeConfiguration),
   ("sync_sources", .syncSources), ("rebuild_embeddings", .reads [] []),
   ("clear_cache", .reads [] []), ("restart_runtime", .restartRuntime),
   ("run_health_check", .reads [] []), ("run_cost_analysis", .reads [] []),
   ("generate_report", .reads [] ["format"]), ("pause_runtime", .pauseRuntime),
   ("resume_runtime", .resumeRuntime), ("rotate_api_key", .rotateApiKey),
   ("revoke_api_key", .revokeApiKey), ("test_provider", .reads ["provider_name"] []),
   ("test_database", .reads [] []), ("test_tool", .reads ["tool_id"] []),
   ("generate_runtime_summary", .reads [] [])]

/-- The keywords of a handler: those without a default, and the others. -/
def ToolHandler.keywords : ToolHandler → List String × List String
  | .reads required optional => (required, optional)
  | .changeDefaultProvider => (["provider"], [])
  | .changeTemperature => (["temperature"], [])
  | .changeMaxTokens => (["max_tokens"], [])
  | .updateRuntimeConfiguration => (["changes"], [])
  | .revokeApiKey => (["key_id"], [])
  | _ => ([], [])

/-- The arguments are keywords of the handler, and none of them is missing. -/
def ToolHandler.Accepts (handler : ToolHandler) (arguments : Fields) : Prop :=
  (∀ key ∈ Json.keys arguments, key ∈ handler.keywords.1 ++ handler.keywords.2) ∧
    ∀ key ∈ handler.keywords.1, key ∈ Json.keys arguments

instance (handler : ToolHandler) (arguments : Fields) : Decidable (handler.Accepts arguments) :=
  inferInstanceAs (Decidable (_ ∧ _))

/-- `RuntimeUpdate(provider=value)`, and the update with it; the column may not be null. -/
def changeProvider (ipRule : String → Option String) (value : Json) (r : StoredRuntime) :
    Except ToolError StoredRuntime :=
  match value with
  | .str provider => r.update ipRule { provider := some provider }
  | _ => .error .other

/-- `REBUILD_FIELDS`. -/
def rebuildFields : List String :=
  ["provider", "model", "fallback_models", "routing_strategy", "embedding_model", "vector_store",
   "chunk_size", "chunk_overlap", "system_instructions"]

/-- `configuration_change_impact`. -/
def configurationChangeImpact (changes : Fields) : Fields :=
  let changedFields := changes.flatMap fun
    | ("config", .obj settings) => (Json.keys settings).map ("config." ++ ·)
    | (key, _) => [key]
  let rebuild := changedFields.filter (· ∈ rebuildFields)
  [("changed_fields", .arr (changedFields.map .str)), ("requires_rebuild", .bool (rebuild ≠ [])),
   ("rebuild_fields", .arr (rebuild.map .str))]

/-- The changes that `_update_runtime_configuration` has made. -/
def madeChanges (changes : Json) : Fields :=
  match normalizedChanges changes with
  | .ok normalized =>
      let settings := (objectField normalized "config").getD []
      normalized.filter (fun entry => entry.1 ≠ "config") ++
        if settings = [] then [] else [("config", .obj settings)]
  | .error _ => []

/-- What a call of a tool is like when it is over. -/
structure ExecutedCall where
  status : String
  result : Option Json := none
  error : Option String := none

/-- The call of a handler that has failed. -/
def failedCall : ToolException → ExecutedCall
  | .permissionDenied message => { status := "permission_denied", error := some message }
  | .valueError message => { status := "error", error := some message }
  | .other =>
      { status := "error"
        error := some "Tool execution failed. Check the execution log for details." }

namespace RuntimeAssistantTools

variable (self : RuntimeAssistantTools)

/-- The answer of a tool that has changed the runtime. -/
def changed (change : StoredRuntime → Except ToolError StoredRuntime) (answer : Fields) :
    ToolProgram Json := do
  let updated ← self.update change
  pure (.obj ([("status", .str "success")] ++ answer ++ [("runtime", updated)]))

/-- The answer about a source that is synchronized. -/
def syncOne (source : AssistantSource) : ToolProgram Json :=
  (self.services.syncSource source >>= fun result =>
    pure (Json.obj [("source_id", .str source.id.str), ("status", .str "queued"),
      ("result", result)])).catching fun _ =>
    pure (Json.obj [("source_id", .str source.id.str), ("status", .str "error"),
      ("error", .str "Source sync failed. Check the execution log for details.")])

def syncSources : ToolProgram Json := do
  let row ← self.getRuntime
  let projectId ← orRaise ((self.projectId.filter (· ≠ "")).or (row.projectId.map Uuid.str))
    (.valueError "Runtime is not attached to a project")
  let project ← requireUuid projectId "badly formed hexadecimal UUID string"
  let sources ← query () fun d => d.sources.rows.filter fun source => source.projectId = project
  let results ← sources.mapM self.syncOne
  pure (.obj [("status", .str "completed"), ("synced", .int results.length),
    ("results", .arr results)])

/-- `_rotate_api_key`. -/
def rotateApiKey : ToolProgram Json := do
  let row ← self.getRuntime
  match row.apiKeyId with
  | none =>
      pure (.obj [("status", .str "error"), ("error", .str "No API key associated with runtime")])
  | some apiKeyId =>
      let result ← self.services.rotateKey apiKeyId
      -- `result["api_key"]` is no dict, as the handler takes it to be
      let keyId ← ofExcept (result.apiKey.get "id")
      let keyPrefix ← ofExcept (result.apiKey.get "prefix")
      pure (.obj [("status", .str "rotated"), ("key_id", keyId), ("prefix", keyPrefix)])

/-- The body of a handler. -/
def body (name : String) (arguments : Fields) : ToolHandler → ToolProgram Json :=
  let argument (key : String) := (Json.lookup key arguments).getD .null
  fun
  | .reads _ _ => do ofExcept (← query () (self.services.answer name arguments))
  | .enableDynamicRouting =>
      self.changed (ConfigurationTool.enableDynamicRouting.apply self.services.ipRule)
        [("dynamic_routing_enabled", .bool true)]
  | .disableDynamicRouting =>
      self.changed (ConfigurationTool.disableDynamicRouting.apply self.services.ipRule)
        [("dynamic_routing_enabled", .bool false)]
  | .changeDefaultProvider =>
      self.changed (changeProvider self.services.ipRule (argument "provider"))
        [("provider", argument "provider")]
  | .changeTemperature =>
      self.changed (ConfigurationTool.apply self.services.ipRule ·
        (.changeTemperature (argument "temperature"))) [("temperature", argument "temperature")]
  | .changeMaxTokens =>
      self.changed (ConfigurationTool.apply self.services.ipRule ·
        (.changeMaxTokens (argument "max_tokens"))) [("max_tokens", argument "max_tokens")]
  | .updateRuntimeConfiguration =>
      self.changed (ConfigurationTool.apply self.services.ipRule ·
        (.updateRuntimeConfiguration (argument "changes")))
        (configurationChangeImpact (madeChanges (argument "changes")))
  | .syncSources => self.syncSources
  | .restartRuntime => do
      let result ← self.enqueueBuild "assistant_restart"
      pure (.obj [("status", .str "queued"), ("runtime_id", .str self.runtimeId),
        ("result", result)])
  | .pauseRuntime => do
      let _ ← self.getRuntime
      self.updateStatus "paused"
      pure (.obj [("status", .str "paused"), ("runtime_id", .str self.runtimeId)])
  | .resumeRuntime => do
      let _ ← self.getRuntime
      self.updateStatus "active"
      pure (.obj [("status", .str "active"), ("runtime_id", .str self.runtimeId)])
  | .rotateApiKey => self.rotateApiKey
  | .revokeApiKey => do
      self.services.revokeKey (argument "key_id")
      pure (.obj [("status", .str "revoked"), ("key_id", argument "key_id")])

/-- `handler(self, **arguments)`. -/
def called (call : ToolCall) (handler : ToolHandler) : ToolProgram Json := do
  ensure (handler.Accepts call.arguments) .other
  self.body call.name call.arguments handler

/-- `execute`. -/
def execute (call : ToolCall) : ToolProgram ExecutedCall :=
  match toolMap.lookup call.name with
  | none => pure { status := "error", error := some s!"Unknown tool: {call.name}" }
  | some handler =>
      (self.called call handler >>= fun result =>
        pure (ExecutedCall.mk "success" (some result) none)).catching fun e =>
          pure (failedCall e)

end RuntimeAssistantTools

end Zyntry
