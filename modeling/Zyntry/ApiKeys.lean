import Zyntry.RowTable
import Zyntry.SqlCommits
import Zyntry.PythonText

/-!
# API keys

Keys are created, rotated, revoked, given an end and deleted by their owners and by
administrators, and two dependencies of the routes admit the bearer of a key. A key is stored by
the hash of its text, which is unique. A session keeps the row that it has loaded, sends what
differs from it when it flushes, and waits for the row when it does.
-/

namespace Zyntry.ApiKeys

open SqlProgram Python

/-! ## Tables -/

structure ApiKey where
  id : ℕ
  name : String
  hashedKey : String
  keyPrefix : String
  userId : Option ℕ := none
  organizationId : Option ℕ := none
  projectId : Option ℕ := none
  runtimeId : Option ℕ := none
  environment : String := "development"
  allowedOrigins : List String := []
  scopes : List String := ["read"]
  revoked : Bool := false
  expiresAt : Option ℤ := none
  lastUsedAt : Option ℤ := none
  usageCount : ℤ := 0
deriving DecidableEq, Repr

structure ApiUser where
  id : ℕ
  organizationId : Option ℕ := none
  isActive : Bool := true
  isSuperuser : Bool := false
deriving DecidableEq, Repr

/-- A row of `sessions`. -/
structure UserSession where
  tokenHash : String
  userId : ℕ
  expiresAt : ℤ
  revoked : Bool := false
deriving DecidableEq, Repr

structure KeyTables where
  apiKeys : RowTable ℕ ApiKey ApiKey.id := default
  users : RowTable ℕ ApiUser ApiUser.id := default
  sessions : List UserSession := []

/-- What a statement locks: a row by its id, or an entry of the unique index. -/
inductive KeyResource where
  | row (id : ℕ)
  | hashedKey (hash : String)
deriving DecidableEq, Repr

inductive KeyStatement where
  | keyLoaded
  | userLoaded
  | sessionLoaded
  | keyInserted
  | keyUpdated
  | keyDeleted
  | committed
deriving DecidableEq, Repr

inductive KeyError where
  | http (status : ℕ) (detail : String)
  | valueError (message : String)
  | integrity
  | staleData
  | multipleResults
  /-- An answer 500 whose detail ends in the exception. -/
  | failed (message : String) (cause : KeyError)
deriving DecidableEq, Repr

abbrev KeyProgram := SqlProgram KeyTables KeyResource KeyStatement KeyError

/-! ## Statements -/

/-- `scalar_one_or_none`. -/
def scalarOneOrNone {α : Type} : List α → KeyProgram (Option α)
  | [] => pure none
  | [row] => pure (some row)
  | _ => .raise .multipleResults

def KeyTables.withHash (d : KeyTables) (hash : String) : List ApiKey :=
  d.apiKeys.rows.filter (·.hashedKey = hash)

/-- A new row collides with a key of its id or of its hash. -/
def KeyTables.Collides (d : KeyTables) (row : ApiKey) : Prop :=
  (d.apiKeys.get? row.id).isSome ∨ d.withHash row.hashedKey ≠ []

instance KeyTables.decidableCollides (d : KeyTables) (row : ApiKey) :
    Decidable (d.Collides row) := by
  unfold KeyTables.Collides
  infer_instance

/-- The flush of a new key. -/
def insertKey (row : ApiKey) : KeyProgram Unit := do
  let collides ← locking .keyInserted (fun _ => [.row row.id, .hashedKey row.hashedKey])
    fun d => decide (d.Collides row)
  ensure (collides = false) .integrity

/-- The flush of a key that the session holds: an UPDATE of what has changed. -/
def saveKey (loaded current : ApiKey) : KeyProgram Unit :=
  if current = loaded then pure ()
  else do
    let found ← locking .keyUpdated (fun _ => [.row loaded.id])
      fun d => (d.apiKeys.get? loaded.id).isSome
    ensure (found = true) .staleData

/-- The columns that a request may change. -/
def ApiKey.flushed (loaded current row : ApiKey) : ApiKey :=
  { row with
    scopes := RowTable.sentColumn loaded.scopes current.scopes row.scopes
    revoked := RowTable.sentColumn loaded.revoked current.revoked row.revoked
    expiresAt := RowTable.sentColumn loaded.expiresAt current.expiresAt row.expiresAt
    usageCount := RowTable.sentColumn loaded.usageCount current.usageCount row.usageCount }

theorem ApiKey.flushed_id (loaded current row : ApiKey) :
    (loaded.flushed current row).id = row.id := rfl

def KeyTables.addKey (d : KeyTables) (row : ApiKey) : KeyTables :=
  { d with apiKeys := d.apiKeys.insert row }

def KeyTables.storeKey (d : KeyTables) (loaded current : ApiKey) : KeyTables :=
  { d with
    apiKeys := d.apiKeys.update loaded.id (loaded.flushed current) (loaded.flushed_id current) }

def KeyTables.deleteKey (d : KeyTables) (id : ℕ) : KeyTables :=
  { d with apiKeys := d.apiKeys.delete id }

def ApiKey.revoke (key : ApiKey) : ApiKey := { key with revoked := true }

/-! ## The service -/

/-- What is drawn for a new key: its id and the random part of its text. -/
structure DrawnKey where
  id : ℕ
  token : String
deriving DecidableEq, Repr

structure ApiKeyCreate where
  name : String
  projectId : Option ℕ := none
  runtimeId : Option ℕ := none
  environment : String := "development"
  scopes : List String := ["read", "write"]
  allowedOrigins : List String := []
deriving DecidableEq, Repr

def prefixType (environment : String) : String :=
  if environment ∈ ["development", "staging", "test"] then "sk_test" else "sk_live"

def generateApiKey (keyPrefix token : String) : String := keyPrefix ++ "_" ++ token

/-- `raw_key[:16]`. -/
def shownPrefix (rawKey : String) : String := String.ofList (rawKey.toList.take 16)

structure ApiKeyRead where
  id : ℕ
  name : String
  keyPrefix : String
  runtimeId : Option ℕ
  projectId : Option ℕ
  environment : String
  allowedOrigins : List String
  scopes : List String
  revoked : Bool
  expiresAt : Option ℤ
  lastUsedAt : Option ℤ
  usageCount : ℤ
deriving DecidableEq, Repr

def ApiKey.read (key : ApiKey) : ApiKeyRead where
  id := key.id
  name := key.name
  keyPrefix := key.keyPrefix
  runtimeId := key.runtimeId
  projectId := key.projectId
  environment := key.environment
  allowedOrigins := key.allowedOrigins
  scopes := key.scopes
  revoked := key.revoked
  expiresAt := key.expiresAt
  lastUsedAt := key.lastUsedAt
  usageCount := key.usageCount

section Service

-- `hash_token` is SHA-256, in hexadecimal digits.
variable (hashToken : String → String)

/-- The row of `create_key`. -/
def ApiKeyCreate.key (data : ApiKeyCreate) (userId : ℕ) (organizationId : Option ℕ)
    (drawn : DrawnKey) : ApiKey :=
  let rawKey := generateApiKey (prefixType data.environment) drawn.token
  { id := drawn.id
    name := data.name
    hashedKey := hashToken rawKey
    keyPrefix := shownPrefix rawKey
    userId := some userId
    runtimeId := data.runtimeId
    projectId := data.projectId
    organizationId
    environment := if data.environment = "" then "development" else data.environment
    scopes := if data.scopes = [] then ["read", "write"] else data.scopes
    allowedOrigins := data.allowedOrigins }

def createKey (userId : ℕ) (data : ApiKeyCreate) (organizationId : Option ℕ) (drawn : DrawnKey) :
    KeyProgram (ApiKeyRead × String) := do
  let key := data.key hashToken userId organizationId drawn
  insertKey key
  write .committed fun d => d.addKey key
  pure (key.read, generateApiKey (prefixType data.environment) drawn.token)

/-- The row that takes the place of a rotated key. -/
def ApiKey.successor (oldKey : ApiKey) (drawn : DrawnKey) : ApiKey :=
  let rawKey := generateApiKey (prefixType oldKey.environment) drawn.token
  { id := drawn.id
    name := oldKey.name
    hashedKey := hashToken rawKey
    keyPrefix := shownPrefix rawKey
    userId := oldKey.userId
    runtimeId := oldKey.runtimeId
    projectId := oldKey.projectId
    organizationId := oldKey.organizationId
    environment := oldKey.environment
    scopes := oldKey.scopes
    allowedOrigins := oldKey.allowedOrigins }

/-- `rotate_key`; the session holds the key since it checked the access to it. -/
def rotateKey (oldKey : ApiKey) (drawn : DrawnKey) : KeyProgram (ApiKeyRead × String) := do
  ensure (oldKey.revoked = false) (.valueError "API key is already revoked")
  let newKey := oldKey.successor hashToken drawn
  insertKey newKey
  saveKey oldKey oldKey.revoke
  write .committed fun d => (d.addKey newKey).storeKey oldKey oldKey.revoke
  pure (newKey.read, generateApiKey (prefixType oldKey.environment) drawn.token)

end Service

/-- The flush of a changed key and the commit. -/
def commitKey (loaded current : ApiKey) : KeyProgram Unit := do
  saveKey loaded current
  write .committed fun d => d.storeKey loaded current

/-- `revoke_key`. -/
def revokeKey (key : ApiKey) : KeyProgram ApiKeyRead := do
  commitKey key key.revoke
  pure key.revoke.read

/-- `update_scopes`. -/
def updateScopes (key : ApiKey) (scopes : List String) : KeyProgram ApiKeyRead := do
  let current := { key with scopes }
  commitKey key current
  pure current.read

/-! ## The routes -/

def ApiKey.Allows (key : ApiKey) (user : ApiUser) : Prop :=
  user.isSuperuser = true ∨ (key.userId = some user.id) ∨
    (key.organizationId ≠ none ∧ key.organizationId = user.organizationId)

instance ApiKey.decidableAllows (key : ApiKey) (user : ApiUser) : Decidable (key.Allows user) := by
  unfold ApiKey.Allows
  infer_instance

/-- `require_api_key_access`. -/
def requireApiKeyAccess (keyId : ℕ) (user : ApiUser) : KeyProgram ApiKey := do
  let key ← query .keyLoaded fun d => d.apiKeys.get? keyId
  let key ← orRaise key (.http 404 "API key not found")
  ensure (key.Allows user) (.http 404 "API key not found")
  pure key

/-- `except ValueError` of the routes. -/
def badRequest : KeyError → KeyError
  | .valueError message => .http 400 message
  | e => e

def rotateApiKey (hashToken : String → String) (user : ApiUser) (keyId : ℕ) (drawn : DrawnKey) :
    KeyProgram (ApiKeyRead × String) :=
  (do
    let key ← requireApiKeyAccess keyId user
    rotateKey hashToken key drawn).catching fun e => .raise (badRequest e)

def revokeApiKey (user : ApiUser) (keyId : ℕ) : KeyProgram ApiKeyRead := do
  let key ← requireApiKeyAccess keyId user
  revokeKey key

def updateApiKeyScopes (user : ApiUser) (keyId : ℕ) (scopes : List String) :
    KeyProgram ApiKeyRead := do
  let key ← requireApiKeyAccess keyId user
  updateScopes key scopes

def expireApiKey (user : ApiUser) (keyId : ℕ) (expiresAt : Option ℤ) : KeyProgram ApiKeyRead := do
  let key ← requireApiKeyAccess keyId user
  let current := { key with expiresAt }
  (commitKey key current).catching fun e => .raise (.failed "Failed to expire API key" e)
  pure current.read

/-- `delete_api_key`; a row that is gone by then is no error. -/
def deleteApiKey (user : ApiUser) (keyId : ℕ) : KeyProgram Unit := do
  let key ← requireApiKeyAccess keyId user
  locking .keyDeleted (fun _ => [.row key.id]) fun _ => ()
  write .committed fun d => d.deleteKey key.id

/-- `admin_revoke_api_key`. -/
def adminRevokeApiKey (keyId : ℕ) : KeyProgram Unit := do
  let key ← query .keyLoaded fun d => d.apiKeys.get? keyId
  let key ← orRaise key (.http 404 "API key not found")
  commitKey key key.revoke

/-! ## Authentication -/

/-- The headers of a request, and the time at which it is looked at. -/
structure KeyRequest where
  authorization : Option String
  origin : Option String := none
  now : ℤ

/-- `rstrip("/")`. -/
def rstripSlash (s : String) : String :=
  String.ofList (s.toList.reverse.dropWhile (· = '/')).reverse

/-- The text after `Bearer `, if there is any. -/
def KeyRequest.rawKey (request : KeyRequest) : Option String :=
  match request.authorization with
  | none => none
  | some header =>
      if startsWith header "Bearer " then
        let rawKey := String.ofList (header.toList.drop 7)
        if rawKey = "" then none else some rawKey
      else none

def ApiKey.Expired (key : ApiKey) (now : ℤ) : Prop := ∃ t ∈ key.expiresAt, t ≤ now

instance ApiKey.decidableExpired (key : ApiKey) (now : ℤ) : Decidable (key.Expired now) := by
  unfold ApiKey.Expired
  infer_instance

/-- The user is active and still in the organization of the key. -/
def ApiKey.Holder (key : ApiKey) (user : ApiUser) : Prop :=
  user.isActive = true ∧ (key.organizationId = none ∨ key.organizationId = user.organizationId)

instance ApiKey.decidableHolder (key : ApiKey) (user : ApiUser) : Decidable (key.Holder user) := by
  unfold ApiKey.Holder
  infer_instance

/-- The request comes from a browser that the key was not made for. -/
def ApiKey.ForeignOrigin (key : ApiKey) (origin : Option String) : Prop :=
  ∃ o ∈ origin, o ≠ "" ∧ key.allowedOrigins ≠ [] ∧
    rstripSlash o ∉ key.allowedOrigins.map rstripSlash

instance ApiKey.decidableForeignOrigin (key : ApiKey) (origin : Option String) :
    Decidable (key.ForeignOrigin origin) := by
  unfold ApiKey.ForeignOrigin
  infer_instance

def foreignOrigin : KeyError := .http 403 "API key is not authorized for this application origin"

/-- `db.get(User, user_id)`. -/
def loadUser (userId : Option ℕ) : KeyProgram (Option ApiUser) :=
  query .userLoaded fun d => userId.bind d.users.get?

section Authentication

variable (hashToken : String → String)

/-- What a dependency hands to its route. -/
structure ActionAuthContext where
  user : ApiUser
  projectId : Option ℕ := none
  apiKey : Option ApiKey := none
deriving DecidableEq, Repr

/-- The use is counted and committed. -/
def countUse (key : ApiKey) : KeyProgram ApiKey := do
  let current := { key with usageCount := key.usageCount + 1 }
  commitKey key current
  pure current

/-- `get_api_key_user`, with what it leaves in the state of the request. -/
def getApiKeyUser (request : KeyRequest) : KeyProgram (ApiUser × ℕ × Option ℕ) := do
  let rawKey ← orRaise request.rawKey (.http 401 "Invalid API key")
  let rows ← query .keyLoaded fun d => d.withHash (hashToken rawKey)
  let apiKey ← scalarOneOrNone rows
  let apiKey ← orRaise apiKey (.http 401 "Invalid API key")
  ensure (apiKey.revoked = false) (.http 401 "Invalid API key")
  ensure (¬apiKey.Expired request.now) (.http 401 "API key expired")
  let user ← loadUser apiKey.userId
  let user ← orRaise user (.http 401 "Invalid API key")
  ensure (apiKey.Holder user) (.http 401 "Invalid API key")
  ensure (¬apiKey.ForeignOrigin request.origin) foreignOrigin
  let apiKey ← countUse apiKey
  pure (user, apiKey.id, apiKey.projectId)

/-- `_get_session_user`. -/
def getSessionUser (sessionToken : String) (now : ℤ) : KeyProgram (Option ApiUser) := do
  let rows ← query .sessionLoaded fun d =>
    d.sessions.filter (·.tokenHash = hashToken sessionToken)
  match ← scalarOneOrNone rows with
  | none => pure none
  | some session =>
      if session.revoked = true ∨ session.expiresAt ≤ now then pure none
      else do
        let user ← loadUser (some session.userId)
        pure (user.filter (·.isActive))

def notAuthenticated : KeyError := .http 401 "Not authenticated"

/-- The part of `get_action_auth` for the bearer of a key. -/
def getActionKey (request : KeyRequest) : KeyProgram ActionAuthContext :=
  match request.rawKey with
  | none => .raise notAuthenticated
  | some rawKey => do
      let rows ← query .keyLoaded fun d => d.withHash (hashToken rawKey)
      match ← scalarOneOrNone rows with
      | none => .raise notAuthenticated
      | some apiKey =>
          if apiKey.revoked = false ∧ ¬apiKey.Expired request.now then do
            match ← loadUser apiKey.userId with
            | none => .raise notAuthenticated
            | some user =>
                if apiKey.Holder user then do
                  ensure (¬apiKey.ForeignOrigin request.origin) foreignOrigin
                  let apiKey ← countUse apiKey
                  pure { user, projectId := apiKey.projectId, apiKey := some apiKey }
                else .raise notAuthenticated
          else .raise notAuthenticated

/-- `get_action_auth`: the session of a user goes before a key. -/
def getActionAuth (sessionToken : Option String) (request : KeyRequest) :
    KeyProgram ActionAuthContext :=
  match sessionToken with
  | none => getActionKey hashToken request
  | some token =>
      if token = "" then getActionKey hashToken request
      else do
        match ← getSessionUser hashToken token request.now with
        | some user => pure { user }
        | none => getActionKey hashToken request

end Authentication

end Zyntry.ApiKeys
