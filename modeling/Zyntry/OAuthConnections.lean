import Zyntry.SqlCommits
import Zyntry.RowTable

/-!
# Connections of the OAuth service

`OAuthService` as programs of statements on the tables of states and connections, with the
connection cache that all instances of the service in a process share. The cache is a part
of the state that is written outside transactions. What a provider answers, random texts and
new ids are inputs.
-/

namespace Zyntry.OAuthService

open SqlProgram

/-! ## Tables -/

/-- A row of `oauth_states`. -/
structure OAuthState where
  id : ℕ
  provider : String
  state : String
  userId : Option ℕ
  projectId : Option ℕ
  expiresAt : ℕ
deriving DecidableEq, Repr

inductive ConnectionStatus where
  | active
  | revoked
deriving DecidableEq, Repr

/-- A row of `oauth_connections`; the tokens are encrypted. -/
structure OAuthConnection where
  id : ℕ
  userId : ℕ
  projectId : ℕ
  providerId : ℕ
  accessToken : String
  refreshToken : Option String
  expiresAt : Option ℕ
  status : ConnectionStatus := .active
deriving DecidableEq, Repr

inductive CacheKey where
  | user (userId : ℕ) (provider : String)
  | project (projectId : ℕ) (provider : String)
deriving DecidableEq, Repr

structure CacheEntry where
  key : CacheKey
  connection : OAuthConnection
deriving DecidableEq, Repr

structure OAuthDb where
  /-- What `now` reads. -/
  clock : ℕ := 0
  states : RowTable ℕ OAuthState OAuthState.id := default
  connections : RowTable ℕ OAuthConnection OAuthConnection.id := default
  /-- `_connection_cache` of the process. -/
  cache : RowTable CacheKey CacheEntry CacheEntry.key := default

/-! ## Commits -/

/-- What a statement commits; `fill` and `drop` write the cache. -/
inductive OAuthStatement where
  | read
  /-- The SELECT ... FOR UPDATE of a state. -/
  | validateState
  | tick (seconds : ℕ)
  | authorize (state : OAuthState)
  | connect (stateId : ℕ) (connection : OAuthConnection)
  | deleteState (stateId : ℕ)
  | refresh (connectionId : ℕ) (accessToken : String) (refreshToken : Option String)
      (expiresAt : Option ℕ)
  | revoke (connectionId : ℕ)
  | fill (key : CacheKey) (connection : OAuthConnection)
  | drop (keys : List CacheKey)
deriving DecidableEq, Repr

namespace OAuthDb

def setTokens (d : OAuthDb) (id : ℕ) (accessToken : String) (refreshToken : Option String)
    (expiresAt : Option ℕ) : RowTable ℕ OAuthConnection OAuthConnection.id :=
  d.connections.update id (fun row => { row with accessToken, refreshToken, expiresAt })
    fun _ => rfl

def setRevoked (d : OAuthDb) (id : ℕ) : RowTable ℕ OAuthConnection OAuthConnection.id :=
  d.connections.update id (fun row => { row with status := .revoked }) fun _ => rfl

def cached (d : OAuthDb) (key : CacheKey) : Option OAuthConnection :=
  (d.cache.get? key).map CacheEntry.connection

def cacheWith (d : OAuthDb) (key : CacheKey) (connection : OAuthConnection) :
    RowTable CacheKey CacheEntry CacheEntry.key :=
  (d.cache.delete key).insert { key, connection }

def cacheWithout (d : OAuthDb) (keys : List CacheKey) :
    RowTable CacheKey CacheEntry CacheEntry.key :=
  keys.foldl RowTable.delete d.cache

end OAuthDb

def OAuthStatement.effect : OAuthStatement → OAuthDb → OAuthDb
  | .read, d => d
  | .validateState, d => d
  | .tick seconds, d => { d with clock := d.clock + seconds }
  | .authorize state, d => { d with states := d.states.insert state }
  | .connect _ connection, d => { d with connections := d.connections.insert connection }
  | .deleteState stateId, d => { d with states := d.states.delete stateId }
  | .refresh id accessToken refreshToken expiresAt, d =>
      { d with connections := d.setTokens id accessToken refreshToken expiresAt }
  | .revoke id, d => { d with connections := d.setRevoked id }
  | .fill key connection, d => { d with cache := d.cacheWith key connection }
  | .drop keys, d => { d with cache := d.cacheWithout keys }

/-! ## Programs -/

inductive OAuthLock where
  | state (id : ℕ)
  | connection (id : ℕ)
deriving DecidableEq, Repr

inductive OAuthError where
  | oauthError (message : String)
  | integrityError
  /-- Other exceptions, of the provider's answer for example. -/
  | other
deriving DecidableEq, Repr

abbrev OAuthProgram := SqlProgram OAuthDb OAuthLock OAuthStatement OAuthError

/-- What the token endpoint grants. -/
structure TokenGrant where
  accessToken : String
  refreshToken : Option String := none
  expiresIn : Option ℕ := none
deriving DecidableEq, Repr

def commitOAuth (l : OAuthStatement) : OAuthProgram Unit := SqlProgram.write l l.effect

def oauthClock : OAuthProgram ℕ := query .read OAuthDb.clock

section Handlers

-- the row of a provider's name, from the provider cache or the table
variable (providerId : String → Option ℕ)

structure AuthorizeRequest where
  provider : String
  userId : ℕ
  projectId : Option ℕ
  state : String
  stateId : ℕ

/-- `OAuthService.authorize`. -/
def oauthAuthorize (r : AuthorizeRequest) : OAuthProgram (Option OAuthConnection) := do
  let _ ← orRaise (providerId r.provider)
    (.oauthError s!"OAuth provider '{r.provider}' is not configured on this environment")
  let now ← oauthClock
  commitOAuth (.authorize
    { id := r.stateId, provider := r.provider, state := r.state, userId := some r.userId,
      projectId := r.projectId, expiresAt := now + 10 * 60 })
  pure none

structure CallbackRequest where
  provider : String
  state : String
  projectId : Option ℕ := none
  expectedUserId : Option ℕ := none
  /-- What the exchange of the code and the request for the user's information end in. -/
  answer : Except OAuthError TokenGrant
  connectionId : ℕ

def OAuthDb.pendingStates (d : OAuthDb) (provider state : String) (now : ℕ) : List OAuthState :=
  d.states.rows.filter fun row =>
    row.provider = provider ∧ row.state = state ∧ now < row.expiresAt

/-- `_validate_state`. -/
def validateState (provider state : String) : OAuthProgram OAuthState := do
  let now ← oauthClock
  let found ← locking .validateState
    (fun d => (d.pendingStates provider state now).map fun row => .state row.id)
    fun d => (d.pendingStates provider state now).head?
  orRaise found (.oauthError "Invalid or expired state")

/-- `OAuthService.callback`; the user and the project of a connection are not nullable. -/
def oauthCallback (r : CallbackRequest) : OAuthProgram (Option OAuthConnection) := do
  let state ← validateState r.provider r.state
  ensure (r.expectedUserId = none ∨ state.userId = r.expectedUserId)
    (.oauthError "OAuth state does not belong to the current user")
  ensure (r.projectId = none ∨ state.projectId = r.projectId)
    (.oauthError "OAuth project does not match the authorization request")
  let providerId ← orRaise (providerId r.provider)
    (.oauthError s!"Provider '{r.provider}' not found")
  match r.answer with
  | .error e => raise e
  | .ok tokens => do
      let now ← oauthClock
      let userId ← orRaise state.userId .integrityError
      let projectId ← orRaise (r.projectId.or state.projectId) .integrityError
      commitOAuth (.connect state.id
        { id := r.connectionId, userId, projectId, providerId,
          accessToken := tokens.accessToken, refreshToken := tokens.refreshToken,
          expiresAt := tokens.expiresIn.map (now + ·) })
      locking .read (fun _ => [.state state.id]) fun _ => ()
      commitOAuth (.deleteState state.id)
      pure none

def CacheKey.selects (providerId : ℕ) : CacheKey → OAuthConnection → Bool
  | .user userId _, row => row.userId = userId && row.providerId = providerId
  | .project projectId _, row => row.projectId = projectId && row.providerId = providerId

def CacheKey.provider : CacheKey → String
  | .user _ provider => provider
  | .project _ provider => provider

/-- The active connections that a key stands for. -/
def OAuthDb.activeConnections (d : OAuthDb) (providerId : ℕ) (key : CacheKey) :
    List OAuthConnection :=
  d.connections.rows.filter fun row => key.selects providerId row ∧ row.status = .active

/-- `_get_connection_cached`: an entry of the cache is taken as it is, whatever its age. -/
def getConnectionCached (key : CacheKey) (lookup : OAuthProgram (Option OAuthConnection)) :
    OAuthProgram (Option OAuthConnection) := do
  let entry ← query .read fun d => d.cached key
  match entry with
  | some connection => pure (some connection)
  | none => do
      let connection ← lookup
      match connection with
      | none => pure none
      | some connection => do
          commitOAuth (.fill key connection)
          pure (some connection)

/-- `get_connection_by_provider` of a user and `get_connection_by_project`. -/
def getConnection (key : CacheKey) : OAuthProgram (Option OAuthConnection) :=
  match providerId key.provider with
  | none => pure none
  | some id => getConnectionCached key (query .read fun d => (d.activeConnections id key).head?)

def connectionNotFound : OAuthError := .oauthError "Connection not found"

/-- `OAuthService.refresh_token`; `provider` is the name of the connection's provider. -/
def refreshToken (connectionId : ℕ) (provider : Option String)
    (answer : Except OAuthError TokenGrant) : OAuthProgram (Option OAuthConnection) := do
  let row ← query .read fun d => d.connections.get? connectionId
  let row ← orRaise row connectionNotFound
  let provider ← orRaise provider (.oauthError "Provider not found")
  let oldToken ← orRaise row.refreshToken (.oauthError "No refresh token available")
  commitOAuth (.drop [.user row.userId provider, .project row.projectId provider])
  match answer with
  | .error e => raise e
  | .ok tokens => do
      let now ← oauthClock
      locking .read (fun _ => [.connection connectionId]) fun _ => ()
      commitOAuth (.refresh connectionId tokens.accessToken
        (some (tokens.refreshToken.getD oldToken)) (tokens.expiresIn.map (now + ·)))
      pure none

/-- `OAuthService.revoke`. -/
def revokeConnection (connectionId : ℕ) : OAuthProgram (Option OAuthConnection) := do
  let row ← query .read fun d => d.connections.get? connectionId
  let _ ← orRaise row connectionNotFound
  locking .read (fun _ => [.connection connectionId]) fun _ => ()
  commitOAuth (.revoke connectionId)
  pure none

/-- The calls of the service, by any number of instances; `tick` lets time pass. -/
inductive OAuthRequest where
  | tick (seconds : ℕ)
  | authorize (r : AuthorizeRequest)
  | callback (r : CallbackRequest)
  | lookup (key : CacheKey)
  | refresh (connectionId : ℕ) (provider : Option String) (answer : Except OAuthError TokenGrant)
  | revoke (connectionId : ℕ)

def OAuthRequest.program : OAuthRequest → OAuthProgram (Option OAuthConnection)
  | .tick seconds => do
      commitOAuth (.tick seconds)
      pure none
  | .authorize r => oauthAuthorize providerId r
  | .callback r => oauthCallback providerId r
  | .lookup key => getConnection providerId key
  | .refresh connectionId provider answer => OAuthService.refreshToken connectionId provider answer
  | .revoke connectionId => OAuthService.revokeConnection connectionId

end Handlers

end Zyntry.OAuthService
