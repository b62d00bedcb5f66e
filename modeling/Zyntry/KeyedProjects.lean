import Zyntry.ProjectRuntimes

/-!
# Project creation with an idempotency key

The requests of one user with one idempotency key and one payload. Redis holds for them the
record of an answer and a lock, and every command to it is a statement of its own, as is the
commit of the project. The lock expires as a session of its own, at any time. A request that
finds no record takes the lock, or polls for the record until the lock is gone.
-/

namespace Zyntry

open Python SqlProgram

/-- What is stored under the cache key. -/
structure IdempotencyRecord where
  requestHash : String
  response : ProjectRow

/-- The database and the keys of Redis. `granted` holds the tokens whose `SET NX` has been
answered with OK. -/
structure KeyedDb where
  db : ProjectDb
  cache : Option IdempotencyRecord := none
  lock : Option ℕ := none
  granted : List ℕ := []

inductive KeyedStatement where
  | read
  | locked (token : ℕ)
  | created (id : ℕ)
  | cached
  | released
  | expired
deriving DecidableEq

/-- The answer to a request. An exception is kept for a process that stops. -/
abbrev ProjectAnswer := Except ProjectError ProjectRow

abbrev KeyedProgram := SqlProgram KeyedDb Unit KeyedStatement ProjectError

/-- What the requests have in common. -/
structure KeyedCall where
  user : ProjectUser
  key : String
  body : ProjectCreate

/-- What `uuid4` gives to a request, and what its commit fails with, if not by a constraint. -/
structure KeyedRequest where
  token : ℕ
  id : ℕ
  failure : Option String := none

def stillProcessing : ProjectError := .http 409 "Idempotent request is still processing"

def invalidKey : ProjectError := .http 400 "Invalid Idempotency-Key"

def missingOrganization : ProjectError := .http 400 "organization_id is required"

def foreignOrganization : ProjectError := .http 403 "Cannot create project in another organization"

def nameConflict : ProjectError := .http 409 "Project with this name already exists"

def multipleRows : ProjectError := .http 500 "Multiple rows were found"

def creationFailed (exc : String) : ProjectError := .http 500 s!"Failed to create project: {exc}"

def answerFrom (requestHash : String) (record : IdempotencyRecord) : ProjectAnswer :=
  if record.requestHash ≠ requestHash then
    .error (.http 409 "Idempotency-Key was already used with a different payload")
  else .ok record.response

def readKeyed {β : Type} (f : KeyedDb → β) : KeyedProgram β := query .read f

/-- `SET key token NX`. -/
def KeyedDb.setLock (token : ℕ) (d : KeyedDb) : KeyedDb :=
  match d.lock with
  | none => { d with lock := some token, granted := token :: d.granted }
  | some _ => d

/-- The script of `_release_idempotency_lock`. -/
def KeyedDb.releaseLock (token : ℕ) (d : KeyedDb) : KeyedDb :=
  if d.lock = some token then { d with lock := none } else d

def ProjectDb.named (d : ProjectDb) (organization : ℕ) (name : String) : List ProjectRow :=
  d.projects.rows.filter fun p => p.organizationId = organization ∧ p.name = name

/-- The insert, unless it breaks a unique constraint. -/
def ProjectDb.createProject (project : ProjectRow) (d : ProjectDb) : ProjectDb :=
  if d.projects.get? project.id = none ∧
      ¬d.SlugTaken project.id project.organizationId project.slug then
    { d with projects := d.projects.insert project }
  else d

def releaseIdempotencyLock (token : ℕ) : KeyedProgram Unit :=
  write .released (KeyedDb.releaseLock token)

def refuse (token : ℕ) (e : ProjectError) : KeyedProgram ProjectAnswer := do
  releaseIdempotencyLock token
  pure (.error e)

/-- The loop of a request that has not got the lock. -/
def pollCache (requestHash : String) : ℕ → KeyedProgram ProjectAnswer
  | 0 => pure (.error stillProcessing)
  | n + 1 => do
      match ← readKeyed (·.cache) with
      | some record => pure (answerFrom requestHash record)
      | none =>
          if ← readKeyed (·.lock.isSome) then pollCache requestHash n
          else pure (.error stillProcessing)

section Request

variable (hash : ProjectCreate → String) (c : KeyedCall) (r : KeyedRequest)

def KeyedCall.project (organization : ℕ) : ProjectRow where
  id := r.id
  organizationId := organization
  name := c.body.name
  slug := c.body.slug
  settings := Json.set "environment" (.str c.body.environment.value) c.body.settings

/-- The commit, the record of the answer and the release of the lock. -/
def commitProject (project : ProjectRow) : KeyedProgram ProjectAnswer := do
  write (.created r.id) fun d => { d with db := d.db.createProject project }
  if ← readKeyed fun d => (d.db.projects.get? r.id).isSome then
    write .cached fun d => { d with cache := some ⟨hash c.body, project⟩ }
    releaseIdempotencyLock r.token
    pure (.ok project)
  else refuse r.token slugConflict

/-- The request once it has the lock. -/
def createLocked : KeyedProgram ProjectAnswer :=
  match c.body.organizationId.or c.user.organizationId with
  | none => refuse r.token missingOrganization
  | some organization =>
      if c.user.organizationId ≠ some organization then refuse r.token foreignOrganization
      else do
        if organization ∉ (← readKeyed (·.db.organizations)) then
          refuse r.token (notFound "Organization not found")
        else
          match ← readKeyed (·.db.named organization c.body.name) with
          | _ :: _ :: _ => pure (.error multipleRows)
          | [_] => refuse r.token nameConflict
          | [] =>
              match r.failure with
              | some exc => refuse r.token (creationFailed exc)
              | none => commitProject hash c r (c.project r organization)

/-- The answer to `SET NX`. -/
def lockAnswered : KeyedProgram ProjectAnswer := do
  if r.token ∈ (← readKeyed (·.granted)) then createLocked hash c r
  else pollCache (hash c.body) 100

def acquireLock : KeyedProgram ProjectAnswer := do
  write (.locked r.token) (KeyedDb.setLock r.token)
  lockAnswered hash c r

/-- The first look for a record. -/
def lookForAnswer : KeyedProgram ProjectAnswer := do
  match ← readKeyed (·.cache) with
  | some record => pure (answerFrom (hash c.body) record)
  | none => acquireLock hash c r

/-- `create_project` with an idempotency key. -/
def createProjectKeyed : KeyedProgram ProjectAnswer :=
  if ¬(1 ≤ c.key.length ∧ c.key.length ≤ 255) then pure (.error invalidKey)
  else lookForAnswer hash c r

end Request

def expireLock : KeyedProgram ProjectAnswer :=
  .commit .expired (fun d => { d with lock := none }) (.raise .stopped)

/-! ## Sessions -/

/-- Any number of requests, each with a token and an id of its own; the other sessions stand
for the expiry of the lock. -/
structure KeyedRequests (S : Type) (d : ProjectDb) where
  request : S → Option KeyedRequest
  token_injective : ∀ s t r r', request s = some r → request t = some r' →
    r.token = r'.token → s = t
  id_fresh : ∀ s r, request s = some r → d.projects.get? r.id = none

def KeyedRequests.session {S : Type} {d : ProjectDb} (R : KeyedRequests S d)
    (hash : ProjectCreate → String) (c : KeyedCall) (s : S) : KeyedProgram ProjectAnswer :=
  match R.request s with
  | some r => createProjectKeyed hash c r
  | none => expireLock

abbrev KeyedWorld (S : Type) :=
  World S KeyedDb Unit KeyedStatement ProjectError ProjectAnswer

end Zyntry
