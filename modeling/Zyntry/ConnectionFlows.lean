import Zyntry.SqlSessions
import Zyntry.Connections

/-!
# Authorization flows as programs

`authorize` and `handle_callback` of `ConnectionService` as programs of statements: what they
read they read without locks, and each of them commits once at most. The texts of new states,
what a provider answers and new ids are inputs.
-/

namespace Zyntry

open SqlProgram Python

structure FlowDb where
  /-- What `now` reads. -/
  clock : ℤ := 0
  store : IntegrationStore := {}

/-! ## Commits -/

inductive FlowStatement where
  | read
  | tick (seconds : ℕ)
  /-- A row is linked to a managed connection that exists. -/
  | linked (row : Uuid × String) (connectionId : Uuid)
  | authorized (pending : OAuthState)
  /-- A connection from a state, with the row of the runtime that is linked to it. -/
  | connected (pending : OAuthState) (connection : IntegrationConnection)
      (row : Option (Uuid × String))

namespace IntegrationStore

variable (s : IntegrationStore)

/-- The UPDATE of a row to a connection; `required` is the value for `connection_required`. -/
def linkRow (row : Uuid × String) (connectionId : Uuid) (required : Option Bool) :
    RowTable (Uuid × String) RuntimeIntegration RuntimeIntegration.key :=
  s.integrations.update row
    (fun r => { r with
      connectionId := some connectionId
      connectionRequired := required.getD r.connectionRequired
      connectionStatus := "connected" })
    fun _ => rfl

end IntegrationStore

def FlowStatement.effect : FlowStatement → FlowDb → FlowDb
  | .read, d => d
  | .tick seconds, d => { d with clock := d.clock + seconds }
  | .linked row connectionId, d =>
      { d with store :=
          { d.store with integrations := d.store.linkRow row connectionId (some false) } }
  | .authorized pending, d =>
      { d with store := { d.store with oauthStates := d.store.oauthStates.insert pending } }
  | .connected pending connection row, d =>
      { d with store :=
          { integrations := row.elim d.store.integrations fun row =>
              d.store.linkRow row connection.id none
            connections := d.store.connections.insert connection
            oauthStates := d.store.oauthStates.delete pending.state } }

/-! ## Programs -/

inductive FlowLock where
  | integration (row : Uuid × String)
  | connection (id : Uuid)
  | oauthState (state : String)
deriving DecidableEq

abbrev FlowProgram := SqlProgram FlowDb FlowLock FlowStatement IntegrationError

inductive FlowReply where
  | authorized (response : ConnectionAuthorizeResponse)
  | connected (connection : IntegrationConnection)
  | done

def commitFlow (l : FlowStatement) : FlowProgram Unit := SqlProgram.write l l.effect

def flowClock : FlowProgram ℤ := query .read FlowDb.clock

section Handlers

variable (registry : IntegrationRegistry) (tenancy : Tenancy) (first : FirstRow)

/-- A row of `oauth_states`, whose `state` is unique. -/
def createState (integrationSlug : String) (userId runtimeId : Option Uuid)
    (data : ConnectionAuthorizeRequest) (state : String) : FlowProgram Unit := do
  let now ← flowClock
  let taken ← locking .read (fun _ => [.oauthState state])
    fun d => (d.store.oauthStates.get? state).isSome
  ensure (taken = false) .integrityError
  commitFlow (.authorized
    { state
      provider := integrationSlug
      userId
      purpose := data.connectionMode
      runtimeId
      endUserId := data.endUserId
      connectionMode := data.connectionMode
      expiresAt := now + 600 })

/-- The managed connection that already serves the request is linked to the row. -/
def linkExistingRow (row : Option RuntimeIntegration) (existing : IntegrationConnection)
    (connectionMode : String) : FlowProgram Unit :=
  match row with
  | some row =>
      if connectionMode = "zyntry_managed" then do
        locking .read (fun _ => [.integration row.key]) fun _ => ()
        commitFlow (.linked row.key existing.id)
      else pure ()
  | none => pure ()

/-- `ConnectionService.authorize`; the state text of the flow is missing if OAuth is not
configured. -/
def authorizeFlow (integrationSlug : String) (userId : Option Uuid)
    (data : ConnectionAuthorizeRequest) (flow : Option String) : FlowProgram FlowReply := do
  let definition ← orRaise (registry.get integrationSlug) (.oauthAuthorizationError
    "This integration is not supported yet." "integration_not_supported" 404)
  ensure ("oauth2" ∈ definition.authMethods) (.oauthAuthorizationError
    "This integration uses a direct connection instead of OAuth." "oauth_not_supported" 422)
  ensure (data.connectionMode ∈ definition.connectionModes) (.oauthAuthorizationError
    "The selected connection mode is not available for this integration."
    "connection_mode_not_supported" 422)
  let row ← query .read fun d => d.store.authorizedRow integrationSlug data
  let (runtimeId, row) ← ofExcept row
  let existing ← query .read fun d =>
    d.store.existingConnection first integrationSlug userId runtimeId data
  match existing with
  | some existing => do
      linkExistingRow row existing data.connectionMode
      pure (.authorized
        { requiresAuthorization := false
          integrationSlug
          connectionMode := data.connectionMode
          connectionId := some existing.id })
  | none => do
      let state ← orRaise flow (.oauthAuthorizationError ("OAuth is not configured for this " ++
        "integration yet. Ask a workspace administrator to verify the provider setup.")
        "oauth_not_configured" 503)
      createState integrationSlug userId runtimeId data state
      pure (.authorized
        { requiresAuthorization := true
          state := some state
          integrationSlug
          connectionMode := data.connectionMode })

/-- The connection that a callback makes from a state. -/
def OAuthState.connection (pending : OAuthState) (newId : Uuid) (integrationSlug : String)
    (definition : IntegrationDefinition) (tokenData : TokenData) (now : ℤ) :
    IntegrationConnection where
  id := newId
  userId := pending.userId
  runtimeId := pending.runtimeId
  integrationSlug := integrationSlug
  connectionMode := orElse pending.purpose (orElse pending.connectionMode "zyntry_managed")
  endUserId := pending.endUserId
  authMethod := "oauth2"
  credentials :=
    some [("access_token", tokenData.accessToken), ("token_type", tokenData.tokenType)]
  scopes := if tokenData.scope = "" then definition.scopes else splitSpaces tokenData.scope
  expiresAt := (tokenData.expiresIn.filter (· ≠ 0)).map (now + ·)

/-- The row of the runtime that a managed connection is linked to. -/
def IntegrationStore.managedRow (s : IntegrationStore) (c : IntegrationConnection) :
    Option (Uuid × String) :=
  if c.connectionMode = "zyntry_managed" then
    (c.runtimeId.bind fun r => s.integrations.get? (r, c.integrationSlug)).map
      RuntimeIntegration.key
  else none

/-- `ConnectionService.handle_callback`; the DELETE of the state does not mind if it finds no
row. -/
def callbackFlow (integrationSlug state : String) (expectedUserId : Option Uuid)
    (exchanged : Except IntegrationError TokenData) (newId : Uuid) : FlowProgram FlowReply := do
  let pending ← query .read fun d => d.store.oauthStates.get? state
  let pending ← orRaise pending (.valueError "Invalid or expired OAuth state")
  let now ← flowClock
  ensure (now < pending.expiresAt) (.valueError "OAuth state has expired")
  ensure (¬(expectedUserId.isSome ∧ pending.userId.isSome ∧ pending.userId ≠ expectedUserId))
    (.valueError "OAuth state does not belong to the current authenticated user")
  let definition ← orRaise (registry.get integrationSlug)
    (.valueError s!"Unknown integration: {integrationSlug}")
  let tokenData ← ofExcept exchanged
  ofExcept (tenancy.runtimeAuthorized pending.userId pending.runtimeId)
  let now ← flowClock
  let connection := pending.connection newId integrationSlug definition tokenData now
  let taken ← locking .read (fun _ => [.connection newId])
    fun d => (d.store.connections.get? newId).isSome
  ensure (taken = false) .integrityError
  let row ← query .read fun d => d.store.managedRow connection
  locking .read (fun _ => row.toList.map FlowLock.integration ++ [.oauthState state]) fun _ => ()
  commitFlow (.connected pending connection row)
  pure (.connected connection)

/-- The requests of any number of clients; `tick` lets time pass. -/
inductive FlowRequest where
  | tick (seconds : ℕ)
  | authorize (integrationSlug : String) (userId : Option Uuid)
      (data : ConnectionAuthorizeRequest) (flow : Option String)
  | callback (integrationSlug state : String) (expectedUserId : Option Uuid)
      (exchanged : Except IntegrationError TokenData) (newId : Uuid)

def FlowRequest.program : FlowRequest → FlowProgram FlowReply
  | .tick seconds => do
      commitFlow (.tick seconds)
      pure .done
  | .authorize integrationSlug userId data flow =>
      authorizeFlow registry first integrationSlug userId data flow
  | .callback integrationSlug state expectedUserId exchanged newId =>
      callbackFlow registry tenancy integrationSlug state expectedUserId exchanged newId

end Handlers

end Zyntry
