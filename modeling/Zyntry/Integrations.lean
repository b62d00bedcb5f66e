import Zyntry.BillingModel
import Zyntry.PythonDict
import Zyntry.PythonText
import Zyntry.RuntimeUpdate

/-!
# Integrations and their connections

A runtime has a row for each integration that is enabled on it, and the row may name the
connection whose credentials are used. Connections are made by the OAuth callback or from
given credentials, and they are linked to a row by every call that changes one.
-/

namespace Zyntry

open Python

/-! ## The registry -/

structure IntegrationCapability where
  slug : String
  isWrite : Bool := false
  requiredScopes : List String := []

structure IntegrationDefinition where
  id : String
  slug : String
  name : String
  status : String := "available"
  enabled : Bool := true
  connectionModes : List String := ["zyntry_managed", "end_user_oauth"]
  authMethods : List String := ["oauth2"]
  capabilities : List IntegrationCapability := []
  scopes : List String := []

def IntegrationDefinition.supportsHybrid (definition : IntegrationDefinition) : Bool :=
  "zyntry_managed" ∈ definition.connectionModes ∧ "end_user_oauth" ∈ definition.connectionModes

def IntegrationDefinition.readCapabilities (definition : IntegrationDefinition) : List String :=
  (definition.capabilities.filter fun c => !c.isWrite).map IntegrationCapability.slug

structure IntegrationRegistry where
  definitions : List (String × IntegrationDefinition)
  aliases : List (String × String)

def IntegrationRegistry.get (registry : IntegrationRegistry) (slugOrId : String) :
    Option IntegrationDefinition :=
  let key := stripped (lower slugOrId)
  let key := (registry.aliases.lookup key).getD key
  match registry.definitions.lookup key with
  | some definition => some definition
  | none => (registry.definitions.map Prod.snd).find? fun d => d.id = key ∨ d.slug = key

theorem IntegrationRegistry.mem_of_get {registry : IntegrationRegistry} {slugOrId : String}
    {definition : IntegrationDefinition} (h : registry.get slugOrId = some definition) :
    definition ∈ registry.definitions.map Prod.snd := by
  simp only [IntegrationRegistry.get] at h
  split at h
  · rename_i found hlookup
    obtain ⟨before, after, hlist, -⟩ := List.lookup_eq_some_iff.1 hlookup
    rw [← Option.some.inj h, hlist]
    simp
  · exact List.mem_of_find?_eq_some h

/-! ## The tables -/

/-- `UUID(str(value))`; the texts of the other values are never hexadecimal. -/
def Uuid.ofJson : Json → Option Uuid
  | .str s => (uuid s).map Uuid.mk
  | .int n => (uuid (toString n)).map Uuid.mk
  | _ => none

structure RuntimeIntegration where
  runtimeId : Uuid
  integrationSlug : String
  connectionMode : String
  enabledCapabilities : List String
  isEnabled : Bool
  connectionRequired : Bool
  connectionStatus : String
  connectionId : Option Uuid
  config : Fields

def RuntimeIntegration.key (row : RuntimeIntegration) : Uuid × String :=
  (row.runtimeId, row.integrationSlug)

/-- An `IntegrationConnection`, with its credentials in the clear. -/
structure IntegrationConnection where
  id : Uuid
  userId : Option Uuid
  runtimeId : Option Uuid
  integrationSlug : String
  connectionMode : String
  endUserId : Option String
  authMethod : String
  credentials : Option Fields
  scopes : List String
  expiresAt : Option ℤ := none
  status : String := "active"

/-- An `OAuthState`, with its `source_config` as columns. -/
structure OAuthState where
  state : String
  provider : String
  userId : Option Uuid
  purpose : String
  runtimeId : Option Uuid
  endUserId : Option String
  connectionMode : String
  expiresAt : ℤ

structure IntegrationStore where
  integrations : RowTable (Uuid × String) RuntimeIntegration RuntimeIntegration.key := default
  connections : RowTable Uuid IntegrationConnection IntegrationConnection.id := default
  oauthStates : RowTable String OAuthState OAuthState.state := default

structure RuntimeOwner where
  userId : Uuid
  projectId : Option Uuid

/-- The runtimes, and the organizations of users and projects. -/
structure Tenancy where
  runtimes : Uuid → Option RuntimeOwner
  users : Uuid → Option (Option Uuid)
  projects : Uuid → Option Uuid

inductive IntegrationError where
  | valueError (message : String)
  | permissionError (message : String)
  | oauthAuthorizationError (message code : String) (statusCode : ℕ)
  /-- The `ValueError` for a mode that the definition does not have. -/
  | modeUnsupported (mode slug : String) (supported : List String)
  /-- The `ValueError` for capabilities that the definition does not have. -/
  | invalidCapabilities (slug : String) (capabilities : List String)
  | integrityError
deriving DecidableEq

/-- `first()` of a query without an order: some row of the result, if there is one. -/
structure FirstRow where
  first : List IntegrationConnection → Option IntegrationConnection
  mem_of_first : ∀ {rows c}, first rows = some c → c ∈ rows
  eq_nil_of_first : ∀ {rows}, first rows = none → rows = []

def FirstRow.head : FirstRow where
  first := List.head?
  mem_of_first := List.mem_of_head?
  eq_nil_of_first := List.head?_eq_none_iff.mp

namespace IntegrationStore

variable (s : IntegrationStore)

def getForEndUser (query : FirstRow) (runtimeId : Uuid) (slug endUserId : String) :
    Option IntegrationConnection :=
  query.first (s.connections.rows.filter fun c => c.runtimeId = some runtimeId ∧
    c.integrationSlug = slug ∧ c.endUserId = some endUserId ∧ c.status = "active")

def getZyntryManaged (query : FirstRow) (userId : Uuid) (slug : String) :
    Option IntegrationConnection :=
  query.first (s.connections.rows.filter fun c => c.userId = some userId ∧
    c.integrationSlug = slug ∧ c.connectionMode = "zyntry_managed" ∧ c.status = "active")

/-- The row that is stored for a runtime and an integration takes the values of `row`. -/
def saveIntegration (row : RuntimeIntegration) : IntegrationStore :=
  { s with
    integrations := s.integrations.update row.key
      (fun r => { row with runtimeId := r.runtimeId, integrationSlug := r.integrationSlug })
      (fun _ => rfl) }

/-- The stored row takes the values of `row`, or `row` becomes the stored row. -/
def writeIntegration (row : RuntimeIntegration) : IntegrationStore :=
  match s.integrations.get? row.key with
  | some _ => s.saveIntegration row
  | none => { s with integrations := s.integrations.insert row }

def createConnection (c : IntegrationConnection) : Except IntegrationError IntegrationStore :=
  if (s.connections.get? c.id).isSome then .error .integrityError
  else .ok { s with connections := s.connections.insert c }

end IntegrationStore

/-! ## Rows of a runtime -/

/-- `_resolve_connection_mode`. -/
def resolveConnectionMode (registry : IntegrationRegistry) (slug requestedMode : String) :
    Except IntegrationError (Option String × String) :=
  if requestedMode = "" then .ok (none, "not_selected")
  else
    match registry.get slug with
    | none => .ok (some requestedMode, "requested")
    | some definition =>
        if requestedMode = "hybrid" ∧ !definition.supportsHybrid then
          .ok (some "zyntry_managed", "company_managed_only")
        else if requestedMode ∉ definition.connectionModes ∧ requestedMode ≠ "hybrid" then
          .error (.modeUnsupported requestedMode definition.slug definition.connectionModes)
        else .ok (some requestedMode, "requested")

def allowedConnectionModes (mode : String) : Json :=
  .arr (if mode = "hybrid" then [.str "zyntry_managed", .str "end_user_oauth"] else [.str mode])

def resourceOnlySlugs : List String :=
  ["pdf", "docx", "txt", "csv", "markdown", "html", "json", "document_storage"]

/-- A policy as `enable_runtime_integration` writes it. -/
structure RuntimePolicy where
  integrationSlug : String
  requestedConnectionMode : String
  connectionMode : String
  enabledCapabilities : List String
  config : Fields

/-- The connection that the stored row keeps under a mode: its own one, if that is valid. -/
def IntegrationStore.linkedConnection (s : IntegrationStore) (runtimeId : Uuid)
    (storageSlug effectiveMode : String) : Option IntegrationConnection :=
  ((s.integrations.get? (runtimeId, storageSlug)).bind fun existing =>
    existing.connectionId.bind s.connections.get?).filter fun c => c.status = "active" ∧
      c.integrationSlug = storageSlug ∧ c.connectionMode = effectiveMode

/-- The row that a policy is materialized as. -/
def RuntimePolicy.row (policy : RuntimePolicy) (definition : IntegrationDefinition)
    (runtimeId : Uuid) (storageSlug requestedMode effectiveMode modeResolution : String)
    (linked : Option IntegrationConnection) : RuntimeIntegration where
  runtimeId := runtimeId
  integrationSlug := storageSlug
  connectionMode := effectiveMode
  enabledCapabilities :=
    (if policy.enabledCapabilities = [] then definition.readCapabilities
      else policy.enabledCapabilities.eraseDups).filter fun c =>
        c ∈ definition.capabilities.map IntegrationCapability.slug
  isEnabled := true
  connectionId := linked.map IntegrationConnection.id
  connectionRequired := linked.isNone && effectiveMode ∈ ["zyntry_managed", "hybrid"]
  connectionStatus :=
    if linked.isSome then "connected"
    else if effectiveMode = "end_user_oauth" then "ready_for_end_users"
    else "connection_required"
  config := Json.update policy.config
    [("allowed_connection_modes", allowedConnectionModes effectiveMode),
     ("requested_connection_mode", .str requestedMode),
     ("mode_resolution", .str modeResolution)]

/-- The requested mode of a policy, which is never blank. -/
def RuntimePolicy.requestedMode (policy : RuntimePolicy) : String :=
  let mode := orElse policy.requestedConnectionMode policy.connectionMode
  if stripped mode = "" then "zyntry_managed" else mode

/-- One round of the loop of `reconcile_runtime_policies` with `canonicalize_slugs=False`;
`none` if the policy is skipped. -/
def reconcileRuntimePolicy (registry : IntegrationRegistry) (s : IntegrationStore)
    (runtimeId : Uuid) (policy : RuntimePolicy) :
    Except IntegrationError (Option (IntegrationStore × RuntimeIntegration)) :=
  match registry.get (stripped policy.integrationSlug) with
  | none => .ok none
  | some definition =>
      if stripped policy.integrationSlug = "" ∨ !definition.enabled ∨
          definition.status ∉ ["available", "beta"] ∨ definition.slug ∈ resourceOnlySlugs then
        .ok none
      else do
        let (mode, modeResolution) ←
          resolveConnectionMode registry definition.slug policy.requestedMode
        let storageSlug := lower (stripped policy.integrationSlug)
        let effectiveMode := mode.getD "zyntry_managed"
        let row := policy.row definition runtimeId storageSlug policy.requestedMode effectiveMode
          modeResolution (s.linkedConnection runtimeId storageSlug effectiveMode)
        pure (some (s.writeIntegration row, row))

structure RuntimeIntegrationCreate where
  integrationSlug : String
  connectionMode : String := "zyntry_managed"
  enabledCapabilities : List String := []
  config : Fields := []

/-- The capabilities that a definition does not have. -/
def IntegrationDefinition.invalidCapabilities (definition : IntegrationDefinition)
    (capabilities : List String) : List String :=
  capabilities.filter fun c => c ∉ definition.capabilities.map IntegrationCapability.slug

def enableRuntimeIntegration (registry : IntegrationRegistry) (tenancy : Tenancy)
    (s : IntegrationStore) (runtimeId : Uuid) (data : RuntimeIntegrationCreate)
    (userId : Option Uuid) : Except IntegrationError (IntegrationStore × RuntimeIntegration) :=
  match tenancy.runtimes runtimeId with
  | none => .error (.valueError s!"Runtime '{runtimeId.str}' not found")
  | some runtime => do
      raiseIf (userId.any (· ≠ runtime.userId))
        (.permissionError "Unauthorized to modify this runtime")
      match registry.get data.integrationSlug with
      | none => .error (.valueError s!"Integration '{data.integrationSlug}' is not supported")
      | some definition =>
          raiseIf (definition.status ∉ ["available", "beta"])
            (.valueError (s!"Integration '{data.integrationSlug}' is currently " ++
              s!"'{definition.status}' and cannot be enabled on active runtimes"))
          let enabledCapabilities :=
            if data.enabledCapabilities = [] then definition.readCapabilities
            else data.enabledCapabilities
          let invalid := definition.invalidCapabilities enabledCapabilities
          raiseIf (invalid ≠ []) (.invalidCapabilities data.integrationSlug invalid)
          let (mode, _) ← resolveConnectionMode registry definition.slug data.connectionMode
          let policy : RuntimePolicy :=
            { integrationSlug := data.integrationSlug
              requestedConnectionMode := data.connectionMode
              connectionMode := mode.getD "zyntry_managed"
              enabledCapabilities
              config := data.config }
          match ← reconcileRuntimePolicy registry s runtimeId policy with
          | some created => pure created
          | none => .error (.valueError s!"Integration '{data.integrationSlug}' is not supported")

structure RuntimeIntegrationUpdate where
  connectionMode : Option String := none
  enabledCapabilities : Option (List String) := none
  isEnabled : Option Bool := none
  config : Option Fields := none

/-- The connection that a switch to a mode goes back to: the one in the configuration of
the row, if it is active and of that mode. -/
def IntegrationStore.restoredConnection (s : IntegrationStore) (config : Fields)
    (nextMode : String) : Option IntegrationConnection :=
  match Json.lookup "previous_connection_mode" config,
      Json.lookup "previous_connection_id" config with
  | some (.str previousMode), some previousId =>
      if previousMode = nextMode ∧ previousId.truthy then
        ((Uuid.ofJson previousId).bind s.connections.get?).filter fun c =>
          c.status = "active" ∧ c.connectionMode = nextMode
      else none
  | _, _ => none

def modeChange (source target status : String) : Json :=
  .obj [("from", .str source), ("to", .str target), ("status", .str status)]

/-- The row after a switch to `nextMode`. -/
def RuntimeIntegration.switchMode (row : RuntimeIntegration)
    (restored : Option IntegrationConnection) (requestedMode nextMode modeResolution : String) :
    RuntimeIntegration :=
  match restored with
  | some c =>
      { row with
        connectionMode := nextMode
        connectionId := some c.id
        connectionRequired := false
        connectionStatus := "connected"
        config := Json.set "mode_change" (modeChange row.connectionMode nextMode "restored")
          row.config }
  | none =>
      { row with
        connectionMode := nextMode
        connectionId := none
        connectionRequired := nextMode ∈ ["zyntry_managed", "hybrid"]
        connectionStatus :=
          if nextMode = "end_user_oauth" then "ready_for_end_users" else "connection_required"
        config := Json.update row.config
          [("allowed_connection_modes", allowedConnectionModes nextMode),
           ("requested_connection_mode", .str requestedMode),
           ("mode_resolution", .str modeResolution),
           ("previous_connection_mode", .str row.connectionMode),
           ("previous_connection_id",
            match row.connectionId with
            | some id => .str id.str
            | none => .null),
           ("mode_change", modeChange row.connectionMode nextMode "pending_connection")] }

/-- The row with the requested mode. -/
def RuntimeIntegration.requestMode (registry : IntegrationRegistry) (s : IntegrationStore)
    (row : RuntimeIntegration) (slug : String) :
    Option String → Except IntegrationError RuntimeIntegration
  | none => .ok row
  | some requestedMode => do
      raiseIf (registry.get row.integrationSlug).isNone
        (.valueError s!"Integration '{slug}' is not supported")
      let (mode, modeResolution) ←
        resolveConnectionMode registry row.integrationSlug requestedMode
      let nextMode := mode.getD "zyntry_managed"
      if nextMode = row.connectionMode then pure row
      else pure (row.switchMode (s.restoredConnection row.config nextMode) requestedMode
        nextMode modeResolution)

def updateRuntimeIntegration (registry : IntegrationRegistry) (s : IntegrationStore)
    (runtimeId : Uuid) (slug : String) (data : RuntimeIntegrationUpdate) :
    Except IntegrationError (IntegrationStore × RuntimeIntegration) :=
  match s.integrations.get? (runtimeId, slug) with
  | none => .error (.valueError s!"Integration '{slug}' is not configured on this runtime")
  | some existing => do
      let row ← existing.requestMode registry s slug data.connectionMode
      let invalid := (registry.get slug).elim [] fun definition =>
        definition.invalidCapabilities (data.enabledCapabilities.getD [])
      raiseIf (invalid ≠ []) (.invalidCapabilities slug invalid)
      let row : RuntimeIntegration :=
        { row with
          enabledCapabilities := data.enabledCapabilities.getD row.enabledCapabilities
          isEnabled := data.isEnabled.getD row.isEnabled
          config := data.config.getD row.config }
      pure (s.saveIntegration row, row)

/-! ## What the calls write -/

theorem columns_of_get? {s : IntegrationStore} {runtimeId : Uuid} {slug : String}
    {row : RuntimeIntegration} (h : s.integrations.get? (runtimeId, slug) = some row) :
    row.runtimeId = runtimeId ∧ row.integrationSlug = slug := by
  have hkey : row.key = (runtimeId, slug) := RowTable.get?_some_key h
  exact Prod.mk.inj hkey

theorem restoredConnection_spec {s : IntegrationStore} {config : Fields} {nextMode : String}
    {c : IntegrationConnection} (h : s.restoredConnection config nextMode = some c) :
    s.connections.get? c.id = some c ∧ c.connectionMode = nextMode := by
  unfold IntegrationStore.restoredConnection at h
  split at h
  · split_ifs at h
    obtain ⟨hget, hc⟩ := Option.filter_eq_some_iff.mp h
    obtain ⟨id, -, hget⟩ := Option.bind_eq_some_iff.mp hget
    have hid : c.id = id := RowTable.get?_some_key hget
    have hc : c.status = "active" ∧ c.connectionMode = nextMode := by simpa using hc
    exact ⟨hid ▸ hget, hc.2⟩
  · cases h

/-- The requested mode leaves the row as it is, unlinks it, or restores a connection. -/
theorem requestMode_spec {registry : IntegrationRegistry} {s : IntegrationStore}
    {row row' : RuntimeIntegration} {slug : String} {requestedMode : Option String}
    (h : row.requestMode registry s slug requestedMode = .ok row') :
    row'.key = row.key ∧ (row' = row ∨ row'.connectionId = none ∨
      ∃ mode ∈ requestedMode, ∃ resolved,
        resolveConnectionMode registry row.integrationSlug mode = .ok resolved ∧
          row'.connectionMode = resolved.1.getD "zyntry_managed" ∧
          row'.connectionMode ≠ row.connectionMode ∧
          ∃ c ∈ s.restoredConnection row.config row'.connectionMode,
            row'.connectionId = some c.id) := by
  cases requestedMode with
  | none =>
      obtain rfl := Except.ok.inj h
      exact ⟨rfl, .inl rfl⟩
  | some mode =>
      obtain ⟨-, -, h⟩ := bind_eq_ok.mp h
      obtain ⟨resolved, hresolved, h⟩ := bind_eq_ok.mp h
      dsimp only at h
      split_ifs at h with hmode
      · obtain rfl := Except.ok.inj h
        exact ⟨rfl, .inl rfl⟩
      · obtain rfl := Except.ok.inj h
        cases hc : s.restoredConnection row.config (resolved.1.getD "zyntry_managed") with
        | none => exact ⟨rfl, .inr (.inl rfl)⟩
        | some c =>
            exact ⟨rfl, .inr (.inr ⟨mode, rfl, resolved, hresolved, rfl, hmode, c, hc, rfl⟩)⟩

theorem updateRuntimeIntegration_spec {registry : IntegrationRegistry} {s s' : IntegrationStore}
    {runtimeId : Uuid} {slug : String} {data : RuntimeIntegrationUpdate}
    {row : RuntimeIntegration}
    (h : updateRuntimeIntegration registry s runtimeId slug data = .ok (s', row)) :
    ∃ existing switched, s.integrations.get? (runtimeId, slug) = some existing ∧
      existing.requestMode registry s slug data.connectionMode = .ok switched ∧
      s' = s.saveIntegration row ∧ row.key = switched.key ∧
      row.connectionMode = switched.connectionMode ∧ row.connectionId = switched.connectionId := by
  unfold updateRuntimeIntegration at h
  split at h
  · cases h
  · rename_i existing hexisting
    obtain ⟨switched, hswitched, h⟩ := bind_eq_ok.mp h
    obtain ⟨-, -, h⟩ := bind_eq_ok.mp h
    obtain ⟨rfl, rfl⟩ := Prod.mk.inj (Except.ok.inj h)
    exact ⟨existing, switched, hexisting, hswitched, rfl, rfl, rfl, rfl⟩

theorem linkedConnection_spec {s : IntegrationStore} {runtimeId : Uuid} {slug mode : String}
    {c : IntegrationConnection} (h : s.linkedConnection runtimeId slug mode = some c) :
    c.connectionMode = mode ∧ s.connections.get? c.id = some c ∧
      ∃ existing, s.integrations.get? (runtimeId, slug) = some existing ∧
        existing.connectionId = some c.id := by
  obtain ⟨hc, hvalid⟩ := Option.filter_eq_some_iff.mp h
  obtain ⟨existing, hexisting, hc⟩ := Option.bind_eq_some_iff.mp hc
  obtain ⟨id, hid, hget⟩ := Option.bind_eq_some_iff.mp hc
  obtain rfl : c.id = id := RowTable.get?_some_key hget
  have hvalid : c.status = "active" ∧ c.integrationSlug = slug ∧ c.connectionMode = mode := by
    simpa using hvalid
  exact ⟨hvalid.2.2, hget, existing, hexisting, hid⟩

/-- A policy is written to a row that keeps its connection only if that is of the mode of the
row. -/
theorem reconcileRuntimePolicy_spec {registry : IntegrationRegistry} {s s' : IntegrationStore}
    {runtimeId : Uuid} {policy : RuntimePolicy} {row : RuntimeIntegration}
    (h : reconcileRuntimePolicy registry s runtimeId policy = .ok (some (s', row))) :
    s' = s.writeIntegration row ∧ row.connectionId =
      (s.linkedConnection row.runtimeId row.integrationSlug row.connectionMode).map
        IntegrationConnection.id := by
  unfold reconcileRuntimePolicy at h
  split at h
  · cases h
  · split_ifs at h
    · cases h
    · obtain ⟨resolved, -, h⟩ := bind_eq_ok.mp h
      obtain ⟨rfl, rfl⟩ := Prod.mk.inj (Option.some.inj (Except.ok.inj h))
      exact ⟨rfl, rfl⟩

theorem enableRuntimeIntegration_spec {registry : IntegrationRegistry} {tenancy : Tenancy}
    {s s' : IntegrationStore} {runtimeId : Uuid} {data : RuntimeIntegrationCreate}
    {userId : Option Uuid} {row : RuntimeIntegration}
    (h : enableRuntimeIntegration registry tenancy s runtimeId data userId = .ok (s', row)) :
    ∃ policy, reconcileRuntimePolicy registry s runtimeId policy = .ok (some (s', row)) := by
  unfold enableRuntimeIntegration at h
  split at h
  · cases h
  · obtain ⟨-, -, h⟩ := bind_eq_ok.mp h
    split at h
    · cases h
    · obtain ⟨-, -, h⟩ := bind_eq_ok.mp h
      obtain ⟨-, -, h⟩ := bind_eq_ok.mp h
      obtain ⟨resolved, -, h⟩ := bind_eq_ok.mp h
      obtain ⟨created, hcreated, h⟩ := bind_eq_ok.mp h
      split at h
      · obtain rfl := Except.ok.inj h
        exact ⟨_, hcreated⟩
      · cases h

end Zyntry
