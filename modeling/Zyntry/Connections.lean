import Zyntry.Integrations

/-!
# Authorizing connections and using them

The calls that make, link and revoke connections, and the lookup of the credentials that
an action of a runtime runs with. The exchange of an authorization code and the state text
of a new flow come from outside.
-/

namespace Zyntry

open Python

/-- `UUID(runtime_id) if runtime_id else None`; `none` outside is its `ValueError`. -/
def runtimeUuid : Option String → Option (Option Uuid)
  | none => some none
  | some text => if text = "" then some none else (uuid text).map fun s => some ⟨s⟩

/-! ## Making connections -/

structure ConnectionAuthorizeRequest where
  runtimeId : Option String := none
  connectionMode : String := "zyntry_managed"
  endUserId : Option String := none

structure ConnectionAuthorizeResponse where
  requiresAuthorization : Bool
  state : Option String := none
  integrationSlug : String
  connectionMode : String
  connectionId : Option Uuid := none

/-- The active connection that already serves the request. -/
def IntegrationStore.existingConnection (s : IntegrationStore) (query : FirstRow)
    (integrationSlug : String) (userId runtimeId : Option Uuid)
    (data : ConnectionAuthorizeRequest) : Option IntegrationConnection :=
  if data.connectionMode = "zyntry_managed" then
    userId.bind fun u => s.getZyntryManaged query u integrationSlug
  else if data.connectionMode = "end_user_oauth" then
    runtimeId.bind fun r => (data.endUserId.filter (· ≠ "")).bind fun endUser =>
      s.getForEndUser query r integrationSlug endUser
  else none

/-- The runtime of the request, with the row that lets it authorize the integration. -/
def IntegrationStore.authorizedRow (s : IntegrationStore) (integrationSlug : String)
    (data : ConnectionAuthorizeRequest) :
    Except IntegrationError (Option Uuid × Option RuntimeIntegration) :=
  match runtimeUuid data.runtimeId with
  | none =>
      .error (.oauthAuthorizationError "Select a valid runtime and try again."
        "invalid_runtime" 400)
  | some none => .ok (none, none)
  | some (some runtimeId) =>
      match (s.integrations.get? (runtimeId, integrationSlug)).filter (·.isEnabled) with
      | none =>
          .error (.oauthAuthorizationError
            "Add this integration to the runtime before authorizing it."
            "integration_not_enabled" 409)
      | some row => .ok (some runtimeId, some row)

/-- The row that a managed connection serves is linked to it. -/
def IntegrationStore.linkExisting (s : IntegrationStore) (row : Option RuntimeIntegration)
    (existing : IntegrationConnection) (connectionMode : String) : IntegrationStore :=
  match row with
  | some row =>
      if connectionMode = "zyntry_managed" then
        s.saveIntegration { row with
          connectionId := some existing.id
          connectionRequired := false
          connectionStatus := "connected" }
      else s
  | none => s

/-- `authorize`; the state text of the flow is missing if OAuth is not configured. -/
def authorize (registry : IntegrationRegistry) (s : IntegrationStore) (query : FirstRow)
    (now : ℤ) (flow : Option String) (integrationSlug : String) (userId : Option Uuid)
    (data : ConnectionAuthorizeRequest) :
    Except IntegrationError (IntegrationStore × ConnectionAuthorizeResponse) :=
  match registry.get integrationSlug with
  | none =>
      .error (.oauthAuthorizationError "This integration is not supported yet."
        "integration_not_supported" 404)
  | some definition => do
      raiseIf ("oauth2" ∉ definition.authMethods) (.oauthAuthorizationError
        "This integration uses a direct connection instead of OAuth." "oauth_not_supported" 422)
      raiseIf (data.connectionMode ∉ definition.connectionModes) (.oauthAuthorizationError
        "The selected connection mode is not available for this integration."
        "connection_mode_not_supported" 422)
      let (runtimeId, row) ← s.authorizedRow integrationSlug data
      match s.existingConnection query integrationSlug userId runtimeId data, flow with
      | some existing, _ =>
          pure (s.linkExisting row existing data.connectionMode,
            { requiresAuthorization := false
              integrationSlug
              connectionMode := data.connectionMode
              connectionId := some existing.id })
      | none, none =>
          .error (.oauthAuthorizationError ("OAuth is not configured for this integration " ++
            "yet. Ask a workspace administrator to verify the provider setup.")
            "oauth_not_configured" 503)
      | none, some state =>
          raiseIf (s.oauthStates.get? state).isSome .integrityError
          let pending : OAuthState :=
            { state
              provider := integrationSlug
              userId
              purpose := data.connectionMode
              runtimeId
              endUserId := data.endUserId
              connectionMode := data.connectionMode
              expiresAt := now + 600 }
          pure ({ s with oauthStates := s.oauthStates.insert pending },
            { requiresAuthorization := true
              state := some state
              integrationSlug
              connectionMode := data.connectionMode })

/-- What the exchange of an authorization code returns. -/
structure TokenData where
  accessToken : Json
  tokenType : Json := .str "Bearer"
  scope : String := ""
  expiresIn : Option ℤ := none

/-- The runtime of an OAuth state, if it has one, belongs to the organization of the user, or
to the user. -/
def Tenancy.runtimeAuthorized (tenancy : Tenancy) (userId : Option Uuid) :
    Option Uuid → Except IntegrationError Unit
  | none => .ok ()
  | some runtimeId =>
      match tenancy.runtimes runtimeId, userId, userId.bind tenancy.users with
      | some runtime, some user, some organizationId =>
          let authorized : Bool := match runtime.projectId with
            | some projectId =>
                tenancy.projects projectId ≠ none ∧ tenancy.projects projectId = organizationId
            | none => runtime.userId = user
          raiseIf (!authorized) (.valueError "OAuth runtime is not authorized for this user")
      | _, _, _ => .error (.valueError "OAuth runtime is no longer available")

/-- A managed connection that was made for a runtime is linked to the row of the runtime. -/
def IntegrationStore.linkManaged (s : IntegrationStore) (c : IntegrationConnection) :
    IntegrationStore :=
  match c.runtimeId.bind fun r => s.integrations.get? (r, c.integrationSlug) with
  | some row =>
      if c.connectionMode = "zyntry_managed" then
        s.saveIntegration { row with
          connectionId := some c.id
          connectionStatus := "connected" }
      else s
  | none => s

/-- `handle_callback`, given the outcome of the exchange of the code. -/
def handleCallback (registry : IntegrationRegistry) (tenancy : Tenancy) (s : IntegrationStore)
    (now : ℤ) (newId : Uuid) (exchanged : Except IntegrationError TokenData)
    (integrationSlug state : String) (expectedUserId : Option Uuid) :
    Except IntegrationError (IntegrationStore × IntegrationConnection) :=
  match s.oauthStates.get? state with
  | none => .error (.valueError "Invalid or expired OAuth state")
  | some stateObj => do
      raiseIf (stateObj.expiresAt ≤ now) (.valueError "OAuth state has expired")
      raiseIf (expectedUserId.isSome ∧ stateObj.userId.isSome ∧ stateObj.userId ≠ expectedUserId)
        (.valueError "OAuth state does not belong to the current authenticated user")
      match registry.get integrationSlug with
      | none => .error (.valueError s!"Unknown integration: {integrationSlug}")
      | some definition =>
          let tokenData ← exchanged
          tenancy.runtimeAuthorized stateObj.userId stateObj.runtimeId
          let connection : IntegrationConnection :=
            { id := newId
              userId := stateObj.userId
              runtimeId := stateObj.runtimeId
              integrationSlug
              connectionMode :=
                orElse stateObj.purpose (orElse stateObj.connectionMode "zyntry_managed")
              endUserId := stateObj.endUserId
              authMethod := "oauth2"
              credentials := some [("access_token", tokenData.accessToken),
                ("token_type", tokenData.tokenType)]
              scopes :=
                if tokenData.scope = "" then definition.scopes else splitSpaces tokenData.scope
              expiresAt := (tokenData.expiresIn.filter (· ≠ 0)).map (now + ·) }
          let s ← s.createConnection connection
          let s := s.linkManaged connection
          pure ({ s with oauthStates := s.oauthStates.delete state }, connection)

structure ConnectionDirectCreate where
  integrationSlug : String
  connectionMode : String := "zyntry_managed"
  runtimeId : Option String := none
  endUserId : Option String := none
  authMethod : String := "connection_string"
  credentials : Fields

/-- The row of a runtime under the requested slug, or else under the canonical one. -/
def IntegrationStore.requestedIntegration (s : IntegrationStore) (runtimeId : Uuid)
    (requestedSlug canonicalSlug : String) : Option RuntimeIntegration :=
  match s.integrations.get? (runtimeId, requestedSlug) with
  | some row => some row
  | none => s.integrations.get? (runtimeId, canonicalSlug)

def createDirectConnection (registry : IntegrationRegistry) (s : IntegrationStore)
    (newId : Uuid) (userId : Option Uuid) (data : ConnectionDirectCreate) :
    Except IntegrationError (IntegrationStore × IntegrationConnection) :=
  match registry.get data.integrationSlug, runtimeUuid data.runtimeId with
  | none, _ => .error (.valueError s!"Unknown integration: {data.integrationSlug}")
  | _, none => .error (.valueError "badly formed hexadecimal UUID string")
  | some definition, some runtimeId => do
      let row := runtimeId.bind fun r =>
        s.requestedIntegration r data.integrationSlug definition.slug
      raiseIf (runtimeId.isSome ∧ !row.any RuntimeIntegration.isEnabled)
        (.valueError (s!"Integration capability '{data.integrationSlug}' is not " ++
          "enabled on runtime " ++ data.runtimeId.getD ""))
      let connection : IntegrationConnection :=
        { id := newId
          userId
          runtimeId
          integrationSlug := (row.map RuntimeIntegration.integrationSlug).getD definition.slug
          connectionMode := data.connectionMode
          endUserId := data.endUserId
          authMethod := data.authMethod
          credentials := some data.credentials
          scopes := definition.scopes }
      let s ← s.createConnection connection
      pure (s.linkManaged connection, connection)

def revokeConnection (s : IntegrationStore) (connectionId : Uuid) :
    Except IntegrationError IntegrationStore :=
  match s.connections.get? connectionId with
  | none => .error (.valueError "Connection not found")
  | some _ =>
      .ok { s with
        connections := s.connections.update connectionId
          (fun c => { c with status := "revoked", credentials := none }) (fun _ => rfl) }

/-! ## Using connections -/

/-- The scopes that the capabilities need, and the others only if these need none. -/
def IntegrationDefinition.requiredScopes (definition : IntegrationDefinition)
    (enabledCapabilities : List String) : List String :=
  let declared := enabledCapabilities.flatMap fun capability =>
    match definition.capabilities.reverse.find? fun c => c.slug = capability with
    | some c => c.requiredScopes
    | none => []
  if declared = [] then definition.scopes.eraseDups else declared.eraseDups

/-- The required scopes that no granted one matches, sorted. -/
def missingScopes (required granted : List String) : List String :=
  let granted := (granted.map stripped).filter (· ≠ "")
  (required.filter fun r =>
    !granted.any fun g => g = r ∨ endsWith g ("/" ++ r) ∨ endsWith g (":" ++ r)).mergeSort

structure ExecutionConnection where
  connectionId : Uuid
  integrationSlug : String
  connectionMode : String
  authMethod : String
  scopes : List String
  credentials : Fields
  enabledCapabilities : List String

/-- The connection that the row of a runtime stands for. -/
def IntegrationStore.connectionOf (s : IntegrationStore) (tenancy : Tenancy) (query : FirstRow)
    (row : RuntimeIntegration) (runtimeId : Uuid) (integrationSlug : String)
    (endUserId : Option String) : Except IntegrationError (Option IntegrationConnection) :=
  if row.connectionMode = "end_user_oauth" then
    match endUserId.filter (· ≠ "") with
    | none => .error (.valueError (s!"Integration '{integrationSlug}' is in BYO-user mode; " ++
        "end_user_id is required"))
    | some endUser => .ok (s.getForEndUser query runtimeId integrationSlug endUser)
  else
    match row.connectionId.bind s.connections.get? with
    | some c => .ok (some c)
    | none => .ok ((tenancy.runtimes runtimeId).bind fun runtime =>
        s.getZyntryManaged query runtime.userId integrationSlug)

def getConnectionForExecution (registry : IntegrationRegistry) (tenancy : Tenancy)
    (s : IntegrationStore) (query : FirstRow) (now : ℤ) (runtimeId : Uuid)
    (integrationSlug : String) (endUserId : Option String) :
    Except IntegrationError ExecutionConnection :=
  match (s.integrations.get? (runtimeId, integrationSlug)).filter (·.isEnabled) with
  | none => .error (.permissionError
      s!"Capability '{integrationSlug}' is not enabled for runtime {runtimeId.str}")
  | some row => do
      let found ← s.connectionOf tenancy query row runtimeId integrationSlug endUserId
      match found.filter fun c => c.status = "active" with
      | none => .error (.permissionError (s!"No active authorized connection found for " ++
          s!"'{integrationSlug}' on runtime {runtimeId.str}"))
      | some connection =>
          raiseIf (connection.expiresAt.any (· ≤ now))
            (.permissionError (s!"Connection for '{integrationSlug}' has expired. " ++
              "Re-authorization required."))
          let missing := match registry.get integrationSlug with
            | some definition =>
                missingScopes (definition.requiredScopes row.enabledCapabilities)
                  connection.scopes
            | none => []
          raiseIf (missing ≠ [])
            (.permissionError (s!"Connection for '{integrationSlug}' is missing " ++
              "required API scopes: " ++ ", ".intercalate missing))
          pure
            { connectionId := connection.id
              integrationSlug
              connectionMode := connection.connectionMode
              authMethod := connection.authMethod
              scopes := connection.scopes
              credentials := connection.credentials.getD []
              enabledCapabilities := row.enabledCapabilities }

/-! ## What the queries find -/

theorem getForEndUser_spec {s : IntegrationStore} {query : FirstRow} {runtimeId : Uuid}
    {slug endUserId : String} {c : IntegrationConnection}
    (h : s.getForEndUser query runtimeId slug endUserId = some c) :
    s.connections.get? c.id = some c ∧ c.runtimeId = some runtimeId ∧ c.integrationSlug = slug ∧
      c.endUserId = some endUserId ∧ c.status = "active" := by
  obtain ⟨hmem, hc⟩ := List.mem_filter.mp (query.mem_of_first h)
  exact ⟨RowTable.get?_of_mem hmem, by simpa using hc⟩

theorem getZyntryManaged_spec {s : IntegrationStore} {query : FirstRow} {userId : Uuid}
    {slug : String} {c : IntegrationConnection}
    (h : s.getZyntryManaged query userId slug = some c) :
    s.connections.get? c.id = some c ∧ c.userId = some userId ∧ c.integrationSlug = slug ∧
      c.connectionMode = "zyntry_managed" ∧ c.status = "active" := by
  obtain ⟨hmem, hc⟩ := List.mem_filter.mp (query.mem_of_first h)
  exact ⟨RowTable.get?_of_mem hmem, by simpa using hc⟩

theorem createConnection_ok_iff {s s' : IntegrationStore} {c : IntegrationConnection} :
    s.createConnection c = .ok s' ↔ s.connections.get? c.id = none ∧
      s' = { s with connections := s.connections.insert c } := by
  unfold IntegrationStore.createConnection
  split_ifs with htaken
  · simp only [false_iff, not_and]
    intro hfree
    simp [hfree] at htaken
  · simp only [Except.ok.injEq, eq_comm, Option.not_isSome_iff_eq_none.mp htaken, true_and]

theorem authorizedRow_spec {s : IntegrationStore} {slug : String}
    {data : ConnectionAuthorizeRequest} {runtimeId : Option Uuid}
    {row : RuntimeIntegration} (h : s.authorizedRow slug data = .ok (runtimeId, some row)) :
    runtimeId = some row.runtimeId ∧ runtimeUuid data.runtimeId = some (some row.runtimeId) ∧
      s.integrations.get? (row.runtimeId, slug) = some row := by
  unfold IntegrationStore.authorizedRow at h
  split at h
  · cases h
  · cases h
  · rename_i id hid
    split at h
    · cases h
    · rename_i row' hrow
      obtain ⟨rfl, hrow'⟩ := Prod.mk.inj (Except.ok.inj h)
      obtain rfl := Option.some.inj hrow'
      have hget := (Option.filter_eq_some_iff.mp hrow).1
      obtain rfl : row'.runtimeId = id := (columns_of_get? hget).1
      exact ⟨rfl, hid, hget⟩

/-- An authorization starts a flow, or it links a managed connection of the user to the row
of the requested runtime, or it changes nothing. -/
theorem authorize_spec {registry : IntegrationRegistry} {s s' : IntegrationStore}
    {query : FirstRow} {now : ℤ} {flow : Option String} {slug : String} {userId : Option Uuid}
    {data : ConnectionAuthorizeRequest} {response : ConnectionAuthorizeResponse}
    (h : authorize registry s query now flow slug userId data = .ok (s', response)) :
    (s'.integrations = s.integrations ∧ s'.connections = s.connections) ∨
      ∃ definition row u c, registry.get slug = some definition ∧
        "oauth2" ∈ definition.authMethods ∧ data.connectionMode ∈ definition.connectionModes ∧
        data.connectionMode = "zyntry_managed" ∧
        s.authorizedRow slug data = .ok (some row.runtimeId, some row) ∧ userId = some u ∧
        s.getZyntryManaged query u slug = some c ∧
        s' = s.linkExisting (some row) c "zyntry_managed" := by
  unfold authorize at h
  split at h
  · cases h
  · rename_i definition hdefinition
    obtain ⟨_, hoauth, h⟩ := bind_eq_ok.mp h
    obtain ⟨_, hmodes, h⟩ := bind_eq_ok.mp h
    obtain ⟨⟨runtimeId, row⟩, hrow, h⟩ := bind_eq_ok.mp h
    dsimp only at h
    cases hc : s.existingConnection query slug userId runtimeId data with
    | some c =>
        rw [hc] at h
        obtain ⟨rfl, -⟩ := Prod.mk.inj (Except.ok.inj h)
        by_cases hmode : data.connectionMode = "zyntry_managed"
        · rw [IntegrationStore.existingConnection, if_pos hmode] at hc
          obtain ⟨u, rfl, hc⟩ := Option.bind_eq_some_iff.mp hc
          cases row with
          | none => exact .inl ⟨rfl, rfl⟩
          | some row =>
              obtain rfl : runtimeId = some row.runtimeId := (authorizedRow_spec hrow).1
              exact .inr ⟨definition, row, u, c, hdefinition, by simpa using hoauth,
                by simpa using hmodes, hmode, hrow, rfl, hc, by rw [hmode]⟩
        · refine .inl ?_
          cases row with
          | none => exact ⟨rfl, rfl⟩
          | some row => simp [IntegrationStore.linkExisting, hmode]
    | none =>
        rw [hc] at h
        cases flow with
        | none => cases h
        | some state =>
            obtain ⟨-, -, h⟩ := bind_eq_ok.mp h
            obtain ⟨rfl, -⟩ := Prod.mk.inj (Except.ok.inj h)
            exact .inl ⟨rfl, rfl⟩

/-- The mode of the connection that a callback makes from the state. -/
def OAuthState.mode (pending : OAuthState) : String :=
  orElse pending.purpose (orElse pending.connectionMode "zyntry_managed")

/-- The state and the code pass the checks of `handle_callback`. -/
def IntegrationStore.AcceptsCallback (s : IntegrationStore) (registry : IntegrationRegistry)
    (tenancy : Tenancy) (now : ℤ) (newId : Uuid) (exchanged : Except IntegrationError TokenData)
    (slug : String) (expectedUserId : Option Uuid) (pending : OAuthState) : Prop :=
  now < pending.expiresAt ∧
    ¬(expectedUserId.isSome ∧ pending.userId.isSome ∧ pending.userId ≠ expectedUserId) ∧
    (registry.get slug).isSome ∧ exchanged.toOption.isSome ∧
    (tenancy.runtimeAuthorized pending.userId pending.runtimeId).toOption.isSome ∧
    (s.connections.get? newId).isNone

/-- A callback that succeeds makes a connection from its state and links it. -/
theorem handleCallback_spec {registry : IntegrationRegistry} {tenancy : Tenancy}
    {s s' : IntegrationStore} {now : ℤ} {newId : Uuid}
    {exchanged : Except IntegrationError TokenData} {slug state : String}
    {expectedUserId : Option Uuid} {c : IntegrationConnection}
    (h : handleCallback registry tenancy s now newId exchanged slug state expectedUserId =
      .ok (s', c)) :
    ∃ pending s₁, s.oauthStates.get? state = some pending ∧
      s.AcceptsCallback registry tenancy now newId exchanged slug expectedUserId pending ∧
      c.id = newId ∧ c.runtimeId = pending.runtimeId ∧ c.integrationSlug = slug ∧
      c.connectionMode = pending.mode ∧ c.status = "active" ∧ s.createConnection c = .ok s₁ ∧
      s' = { s₁.linkManaged c with
        oauthStates := (s₁.linkManaged c).oauthStates.delete state } := by
  unfold handleCallback at h
  split at h
  · cases h
  · rename_i pending hpending
    obtain ⟨_, hexpired, h⟩ := bind_eq_ok.mp h
    obtain ⟨_, hother, h⟩ := bind_eq_ok.mp h
    split at h
    · cases h
    · rename_i definition hdefinition
      obtain ⟨tokenData, hexchanged, h⟩ := bind_eq_ok.mp h
      obtain ⟨u, hauthorized, h⟩ := bind_eq_ok.mp h
      obtain ⟨s₁, hs₁, h⟩ := bind_eq_ok.mp h
      obtain ⟨rfl, rfl⟩ := Prod.mk.inj (Except.ok.inj h)
      have hfree := (createConnection_ok_iff.mp hs₁).1
      refine ⟨pending, s₁, hpending, ⟨?_, ?_, ?_, ?_, ?_, ?_⟩, rfl, rfl, rfl, rfl, rfl, hs₁, rfl⟩
      · simpa using hexpired
      · simpa using hother
      · rw [hdefinition]
        rfl
      · rw [hexchanged]
        rfl
      · rw [hauthorized]
        rfl
      · rw [hfree]
        rfl

/-- A direct connection is made and linked to the row that it is requested for. -/
theorem createDirectConnection_spec {registry : IntegrationRegistry} {s s' : IntegrationStore}
    {newId : Uuid} {userId : Option Uuid} {data : ConnectionDirectCreate}
    {c : IntegrationConnection}
    (h : createDirectConnection registry s newId userId data = .ok (s', c)) :
    ∃ definition runtimeId s₁, registry.get data.integrationSlug = some definition ∧
      runtimeUuid data.runtimeId = some runtimeId ∧
      (∀ r ∈ runtimeId, ∃ row,
        s.requestedIntegration r data.integrationSlug definition.slug = some row ∧
          row.isEnabled ∧ c.integrationSlug = row.integrationSlug) ∧
      c.id = newId ∧ c.runtimeId = runtimeId ∧ c.connectionMode = data.connectionMode ∧
      c.status = "active" ∧ s.createConnection c = .ok s₁ ∧ s' = s₁.linkManaged c := by
  unfold createDirectConnection at h
  split at h
  · cases h
  · cases h
  · rename_i definition runtimeId hdefinition hruntime
    obtain ⟨_, henabled, h⟩ := bind_eq_ok.mp h
    obtain ⟨s₁, hs₁, h⟩ := bind_eq_ok.mp h
    obtain ⟨rfl, rfl⟩ := Prod.mk.inj (Except.ok.inj h)
    refine ⟨definition, runtimeId, s₁, hdefinition, hruntime, ?_, rfl, rfl, rfl, rfl, hs₁, rfl⟩
    rintro r rfl
    cases hrow : s.requestedIntegration r data.integrationSlug definition.slug with
    | none => simp [hrow] at henabled
    | some row =>
        refine ⟨row, rfl, ?_, ?_⟩
        · simpa [hrow] using henabled
        · simp [hrow]

theorem getConnectionForExecution_spec {registry : IntegrationRegistry} {tenancy : Tenancy}
    {s : IntegrationStore} {query : FirstRow} {now : ℤ} {runtimeId : Uuid} {slug : String}
    {endUserId : Option String} {out : ExecutionConnection}
    (h : getConnectionForExecution registry tenancy s query now runtimeId slug endUserId =
      .ok out) :
    ∃ row c, s.integrations.get? (runtimeId, slug) = some row ∧
      s.connectionOf tenancy query row runtimeId slug endUserId = .ok (some c) ∧
      c.status = "active" ∧ (∀ t ∈ c.expiresAt, now < t) ∧ out.connectionId = c.id ∧
      out.credentials = c.credentials.getD [] := by
  unfold getConnectionForExecution at h
  split at h
  · cases h
  · rename_i row hrow
    obtain ⟨found, hfound, h⟩ := bind_eq_ok.mp h
    split at h
    · cases h
    · rename_i c hc
      obtain ⟨rfl, hactive⟩ := Option.filter_eq_some_iff.mp hc
      obtain ⟨_, hexpiry, h⟩ := bind_eq_ok.mp h
      obtain ⟨-, -, h⟩ := bind_eq_ok.mp h
      obtain rfl := Except.ok.inj h
      refine ⟨row, c, (Option.filter_eq_some_iff.mp hrow).1, hfound, by simpa using hactive, ?_,
        rfl, rfl⟩
      intro t ht
      rw [Option.mem_def.mp ht] at hexpiry
      simpa using hexpiry

end Zyntry
