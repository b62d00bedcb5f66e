import Zyntry.SqlCommits
import Zyntry.RowTable

/-!
# The accounts of administrators

`AdminAuth` and the dependencies of the admin endpoints, as programs of statements on the
tables of administrators and their sessions. A signed token is given by its claims, and a
session row is found by the token whose hash it holds; anything that is not a signed token
is refused by `decode_token`. A label says what its commit writes.
-/

namespace Zyntry

open SqlProgram

/-! ## Tables -/

inductive AdminTokenType where
  | access
  | refresh
deriving DecidableEq, Repr

/-- The claims of a token; `jti` is random. -/
structure AdminToken where
  type : AdminTokenType
  adminId : ℕ
  userId : ℕ
  mfaVerified : Bool := false
  expiresAt : ℕ
  jti : String
deriving DecidableEq, Repr

structure AdminAccount where
  id : ℕ
  email : String
  hashedPassword : Option String
  isActive : Bool := true
deriving DecidableEq, Repr

/-- A row of `admin_users`. -/
structure AdminUserRow where
  id : ℕ
  userId : ℕ
  role : String
  isActive : Bool := true
  mfaEnabled : Bool := false
  mfaSecret : Option String := none
  mfaVerified : Bool := false
deriving DecidableEq, Repr

/-- A row of `admin_sessions`, for an access token or for a refresh token. -/
structure AdminSessionRow where
  token : AdminToken
  userId : ℕ
  adminUserId : ℕ
  expiresAt : ℕ
  revoked : Bool := false
  mfaVerified : Bool := false
deriving DecidableEq, Repr

abbrev AdminSessions := RowTable AdminToken AdminSessionRow AdminSessionRow.token

structure AdminDb where
  /-- What `datetime.now` reads. -/
  clock : ℕ := 0
  users : RowTable ℕ AdminAccount AdminAccount.id := default
  adminUsers : RowTable ℕ AdminUserRow AdminUserRow.id := default
  sessions : AdminSessions := default

namespace AdminSessions

def revoke (t : AdminSessions) (token : AdminToken) : AdminSessions :=
  t.update token (fun row => { row with revoked := true }) fun _ => rfl

def markVerified (t : AdminSessions) (tokens : List AdminToken) : AdminSessions :=
  tokens.foldl
    (fun t token => t.update token (fun row => { row with mfaVerified := true }) fun _ => rfl) t

def activeOf (t : AdminSessions) (adminId : ℕ) : List AdminToken :=
  (t.rows.filter fun row => row.adminUserId = adminId ∧ row.revoked = false).map
    AdminSessionRow.token

theorem get?_revoke (t : AdminSessions) (token k : AdminToken) :
    (revoke t token).get? k = (t.get? k).map fun row =>
      if k = token then { row with revoked := true } else row := by
  by_cases hk : k = token
  · subst hk
    simp only [revoke, RowTable.get?_update_self, if_true]
  · simp only [revoke, RowTable.get?_update_of_ne t hk, if_neg hk, Option.map_id']

theorem get?_markVerified (t : AdminSessions) (tokens : List AdminToken) (k : AdminToken) :
    (markVerified t tokens).get? k = (t.get? k).map fun row =>
      if k ∈ tokens then { row with mfaVerified := true } else row := by
  induction tokens generalizing t with
  | nil => simp [markVerified]
  | cons token tokens ih =>
      simp only [markVerified, List.foldl_cons] at ih ⊢
      rw [ih]
      by_cases hk : k = token
      · subst hk
        rw [RowTable.get?_update_self, Option.map_map]
        congr 1
        funext row
        by_cases hmem : k ∈ tokens <;> simp [hmem]
      · rw [RowTable.get?_update_of_ne t hk]
        simp [hk]

/-- The token has been revoked. -/
def Spent (t : AdminSessions) (token : AdminToken) : Prop :=
  ∃ row, t.get? token = some row ∧ row.revoked = true

theorem Spent.insert {t : AdminSessions} {token : AdminToken} (h : Spent t token)
    (row : AdminSessionRow) : Spent (RowTable.insert t row) token := by
  obtain ⟨stored, hget, hrevoked⟩ := h
  exact ⟨stored, RowTable.get?_insert_of_some hget, hrevoked⟩

theorem Spent.revoke {t : AdminSessions} {token : AdminToken} (h : Spent t token)
    (k : AdminToken) : Spent (AdminSessions.revoke t k) token := by
  obtain ⟨stored, hget, hrevoked⟩ := h
  refine ⟨_, by rw [get?_revoke, hget, Option.map_some], ?_⟩
  split_ifs
  · rfl
  · exact hrevoked

theorem Spent.markVerified {t : AdminSessions} {token : AdminToken} (h : Spent t token)
    (tokens : List AdminToken) : Spent (AdminSessions.markVerified t tokens) token := by
  obtain ⟨stored, hget, hrevoked⟩ := h
  refine ⟨_, by rw [get?_markVerified, hget, Option.map_some], ?_⟩
  split_ifs <;> exact hrevoked

end AdminSessions

/-! ## Commits -/

/-- What a statement commits; `read` stands for the statements that commit nothing. -/
inductive AdminStatement where
  | read
  | tick (seconds : ℕ)
  | login (access renewal : AdminSessionRow)
  | refresh (token : AdminToken) (access renewal : AdminSessionRow)
  | logout (token : AdminToken)
  | setupMfa (adminId : ℕ) (secret : String)
  | verifyMfa (token : AdminToken) (adminId : ℕ) (sessions : List AdminToken)
  | disableMfa (adminId : ℕ)
deriving DecidableEq, Repr

def AdminStatement.effect : AdminStatement → AdminDb → AdminDb
  | .read, d => d
  | .tick seconds, d => { d with clock := d.clock + seconds }
  | .login access renewal, d => { d with sessions := (d.sessions.insert access).insert renewal }
  | .refresh token access renewal, d =>
      { d with
        sessions := ((AdminSessions.revoke d.sessions token).insert access).insert renewal }
  | .logout token, d => { d with sessions := AdminSessions.revoke d.sessions token }
  | .setupMfa adminId secret, d =>
      { d with
        adminUsers := d.adminUsers.update adminId
          (fun admin => { admin with mfaEnabled := true, mfaSecret := some secret }) fun _ => rfl }
  | .verifyMfa _ adminId sessions, d =>
      { d with
        adminUsers := d.adminUsers.update adminId
          (fun admin => { admin with mfaVerified := true }) fun _ => rfl
        sessions := AdminSessions.markVerified d.sessions sessions }
  | .disableMfa adminId, d =>
      { d with
        adminUsers := d.adminUsers.update adminId
          (fun admin =>
            { admin with mfaEnabled := false, mfaSecret := none, mfaVerified := false })
          fun _ => rfl }

theorem AdminStatement.spent_effect {l : AdminStatement} {d : AdminDb} {token : AdminToken}
    (h : AdminSessions.Spent d.sessions token) :
    AdminSessions.Spent (l.effect d).sessions token := by
  cases l with
  | login access renewal => exact (h.insert access).insert renewal
  | refresh used access renewal => exact ((h.revoke used).insert access).insert renewal
  | logout used => exact h.revoke used
  | verifyMfa presented adminId sessions => exact h.markVerified sessions
  | _ => exact h

theorem AdminStatement.clock_le_effect (l : AdminStatement) (d : AdminDb) :
    d.clock ≤ (l.effect d).clock := by
  cases l with
  | tick seconds => exact Nat.le_add_right _ _
  | _ => exact le_rfl

/-- Rows of sessions are only added, revoked and marked. -/
theorem AdminStatement.sessions_later (l : AdminStatement) {d : AdminDb} {k : AdminToken}
    {row : AdminSessionRow} (h : d.sessions.get? k = some row) :
    ∃ row', (l.effect d).sessions.get? k = some row' ∧ row'.expiresAt = row.expiresAt ∧
      (row.revoked = true → row'.revoked = true) := by
  cases l with
  | login access renewal =>
      exact ⟨row, RowTable.get?_insert_of_some (RowTable.get?_insert_of_some h), rfl, id⟩
  | refresh used access renewal =>
      refine ⟨_, RowTable.get?_insert_of_some (RowTable.get?_insert_of_some
        (by rw [AdminSessions.get?_revoke, h, Option.map_some])), ?_⟩
      split_ifs <;> simp
  | logout used =>
      refine ⟨_, by rw [AdminStatement.effect, AdminSessions.get?_revoke, h, Option.map_some], ?_⟩
      split_ifs <;> simp
  | verifyMfa presented adminId sessions =>
      refine ⟨_, by
        rw [AdminStatement.effect, AdminSessions.get?_markVerified, h, Option.map_some], ?_⟩
      split_ifs <;> simp
  | _ => exact ⟨row, h, rfl, id⟩

/-! ## Programs -/

/-- The lock on the unique `token_hash` of a session. -/
structure AdminLock where
  token : AdminToken
deriving DecidableEq, Repr

inductive AdminError where
  | http (status : ℕ) (detail : String)
  | integrityError
  | valueError
deriving DecidableEq, Repr

abbrev AdminProgram := SqlProgram AdminDb AdminLock AdminStatement AdminError

structure AdminSettings where
  accessTokenTtl : ℕ := 30 * 60
  refreshTokenTtl : ℕ := 7 * 24 * 60 * 60

structure AdminCrypto where
  verifyPassword : String → String → Bool
  verifyTotp : String → String → ℕ → Bool

/-- Passwords are kept as they are and a code is the secret. -/
def plainAdminCrypto : AdminCrypto where
  verifyPassword := fun password hashed => password = hashed
  verifyTotp := fun secret code _ => secret = code

inductive AdminReply where
  | tokens (access refresh : AdminToken) (mfaVerified : Bool)
  | secret (secret : String)
  | message (text : String)
deriving DecidableEq, Repr

def adminRoles : List String :=
  ["super_admin", "security_analyst", "billing_admin", "runtime_operator", "viewer"]

def commitAdmin (l : AdminStatement) : AdminProgram Unit := SqlProgram.write l l.effect

def adminNow : AdminProgram ℕ := query .read AdminDb.clock

def insertSession (token : AdminToken) : AdminProgram Unit := do
  let taken ← locking .read (fun _ => [⟨token⟩]) fun d => (d.sessions.get? token).isSome
  ensure (taken = false) .integrityError

def notAuthenticated : AdminError := .http 401 "Not authenticated"

def sessionExpired : AdminError := .http 401 "Session expired or revoked"

/-- `decode_token` of a token that is signed, if it is one. -/
def decodeToken (presented : Option AdminToken) : AdminProgram AdminToken := do
  let token ← orRaise presented (.http 401 "Invalid token")
  let now ← adminNow
  ensure (now < token.expiresAt) (.http 401 "Token expired")
  pure token

/-- A session that is neither revoked nor expired. -/
def AdminSessionRow.Valid (row : AdminSessionRow) (now : ℕ) : Prop :=
  row.revoked = false ∧ now < row.expiresAt

instance AdminSessionRow.decidableValid (row : AdminSessionRow) (now : ℕ) : Decidable (row.Valid now) := by
  unfold AdminSessionRow.Valid
  infer_instance

/-- `_require_admin_session`. -/
def requireAdminSession (token : AdminToken) : AdminProgram AdminSessionRow := do
  ensure (token.type = .access) (.http 401 "Invalid token type")
  let row ← query .read fun d => d.sessions.get? token
  let row ← orRaise row sessionExpired
  let now ← adminNow
  ensure (row.Valid now ∧ row.adminUserId = token.adminId ∧ row.userId = token.userId)
    sessionExpired
  pure row

structure AdminContext where
  adminId : ℕ
  userId : ℕ
  role : String
  email : String
  mfaVerified : Bool
deriving DecidableEq, Repr

/-- `get_admin_context`, for a client whose address is allowed and not banned. Every role
has the permissions of `auth`, so that `require_permission` refuses nobody there. -/
def getAdminContext (presented : Option AdminToken) : AdminProgram AdminContext := do
  let token ← decodeToken presented
  let session ← requireAdminSession token
  let admin ← query .read fun d => d.adminUsers.get? token.adminId
  let admin ← orRaise admin (.http 401 "Admin user not found")
  ensure admin.isActive (.http 401 "Admin user not found")
  let user ← query .read fun d => d.users.get? token.userId
  let user ← orRaise user (.http 401 "Admin user inactive")
  ensure user.isActive (.http 401 "Admin user inactive")
  ensure (admin.role ∈ adminRoles) (.http 401 "Invalid admin role")
  ensure (admin.userId = token.userId) (.http 401 "Invalid admin token subject")
  pure {
    adminId := token.adminId
    userId := token.userId
    role := admin.role
    email := user.email
    mfaVerified := token.mfaVerified && admin.mfaVerified && session.mfaVerified }

def mfaRequired : AdminError := .http 401 "MFA verification required"

def getCurrentMfaVerified (presented : Option AdminToken) : AdminProgram AdminUserRow := do
  let token ← decodeToken presented
  ensure token.mfaVerified mfaRequired
  let session ← requireAdminSession token
  let admin ← query .read fun d => d.adminUsers.get? token.adminId
  let admin ← orRaise admin (.http 401 "Admin user not found")
  ensure admin.isActive (.http 401 "Admin user not found")
  ensure (admin.userId = token.userId ∧ admin.mfaVerified ∧ session.mfaVerified) mfaRequired
  pure admin

section Handlers

variable (settings : AdminSettings) (crypto : AdminCrypto)

/-- `create_access_token` with the row that represents it. -/
def accessSession (now : ℕ) (admin : AdminUserRow) (userId : ℕ) (claim : Bool) (jti : String) :
    AdminSessionRow where
  token := {
    type := .access
    adminId := admin.id
    userId
    mfaVerified := claim
    expiresAt := now + settings.accessTokenTtl
    jti }
  userId
  adminUserId := admin.id
  expiresAt := now + settings.accessTokenTtl
  mfaVerified := admin.mfaVerified

/-- `create_refresh_token` with the row that represents it. -/
def refreshSession (now : ℕ) (admin : AdminUserRow) (userId : ℕ) (jti : String) :
    AdminSessionRow where
  token := {
    type := .refresh
    adminId := admin.id
    userId
    expiresAt := now + settings.refreshTokenTtl
    jti }
  userId
  adminUserId := admin.id
  expiresAt := now + settings.refreshTokenTtl
  mfaVerified := admin.mfaVerified

structure AdminLoginRequest where
  email : String
  password : String
  accessJti : String
  refreshJti : String

/-- `AdminAuth.login`; the claim of the access token is the default one. -/
def adminLogin (r : AdminLoginRequest) : AdminProgram AdminReply := do
  let user ← query .read fun d => d.users.rows.find? fun user => user.email = r.email
  let user ← orRaise user (.http 401 "Invalid credentials")
  ensure user.isActive (.http 401 "Invalid credentials")
  ensure (user.hashedPassword.any (crypto.verifyPassword r.password))
    (.http 401 "Invalid credentials")
  let admin ← query .read fun d => d.adminUsers.rows.find? fun admin => admin.userId = user.id
  let admin ← orRaise admin (.http 403 "Not an admin user")
  ensure admin.isActive (.http 403 "Not an admin user")
  ensure (admin.role ∈ adminRoles) .valueError
  let now ← adminNow
  let access := accessSession settings now admin user.id false r.accessJti
  let refresh := refreshSession settings now admin user.id r.refreshJti
  insertSession access.token
  insertSession refresh.token
  commitAdmin (.login access refresh)
  pure (.tokens access.token refresh.token admin.mfaVerified)

structure AdminRefreshRequest where
  refreshToken : Option AdminToken
  accessJti : String
  refreshJti : String

def refreshSessionExpired : AdminError := .http 401 "Refresh session expired or revoked"

/-- `AdminAuth.refresh_access`. -/
def refreshAccess (r : AdminRefreshRequest) : AdminProgram AdminReply := do
  let token ← decodeToken r.refreshToken
  ensure (token.type = .refresh) (.http 401 "Invalid token type")
  let row ← query .read fun d => d.sessions.get? token
  let row ← orRaise row refreshSessionExpired
  let now ← adminNow
  ensure (row.Valid now ∧ row.adminUserId = token.adminId) refreshSessionExpired
  let admin ← query .read fun d => d.adminUsers.get? token.adminId
  let admin ← orRaise admin (.http 401 "Admin user not found")
  ensure admin.isActive (.http 401 "Admin user not found")
  ensure (admin.userId = token.userId) (.http 401 "Invalid refresh token subject")
  ensure (admin.role ∈ adminRoles) .valueError
  let now ← adminNow
  let access := accessSession settings now admin token.userId admin.mfaVerified r.accessJti
  let refresh := refreshSession settings now admin token.userId r.refreshJti
  locking .read (fun _ => [⟨token⟩]) fun _ => ()
  insertSession access.token
  insertSession refresh.token
  commitAdmin (.refresh token access refresh)
  pure (.tokens access.token refresh.token admin.mfaVerified)

/-- The endpoint of `AdminAuth.logout`. -/
def adminLogout (presented : Option AdminToken) : AdminProgram AdminReply := do
  let _ ← getAdminContext presented
  let token ← orRaise presented notAuthenticated
  let row ← query .read fun d => d.sessions.get? token
  if row.isSome then do
    locking .read (fun _ => [⟨token⟩]) fun _ => ()
    commitAdmin (.logout token)
    pure (.message "Logged out successfully")
  else pure (.message "Logged out successfully")

def adminUserNotFound : AdminError := .http 404 "Admin user not found"

/-- The endpoint of `AdminAuth.setup_mfa`; the secret is random. -/
def setupMfa (presented : Option AdminToken) (secret : String) : AdminProgram AdminReply := do
  let context ← getAdminContext presented
  let admin ← query .read fun d => d.adminUsers.get? context.adminId
  let admin ← orRaise admin adminUserNotFound
  commitAdmin (.setupMfa admin.id secret)
  pure (.secret secret)

/-- The endpoint of `AdminAuth.verify_mfa`. -/
def verifyMfa (presented : Option AdminToken) (code : String) : AdminProgram AdminReply := do
  let context ← getAdminContext presented
  let token ← orRaise presented notAuthenticated
  let admin ← query .read fun d => d.adminUsers.get? context.adminId
  let admin ← orRaise admin adminUserNotFound
  ensure (admin.mfaSecret.getD "" ≠ "") (.http 400 "MFA not set up")
  let now ← adminNow
  ensure (crypto.verifyTotp (admin.mfaSecret.getD "") code now) (.http 401 "Invalid MFA code")
  let sessions ← query .read fun d => AdminSessions.activeOf d.sessions context.adminId
  commitAdmin (.verifyMfa token admin.id sessions)
  pure (.message "MFA verified successfully")

/-- The endpoint of `AdminAuth.disable_mfa`. -/
def disableMfa (presented : Option AdminToken) : AdminProgram AdminReply := do
  let context ← getAdminContext presented
  let admin ← query .read fun d => d.adminUsers.get? context.adminId
  let admin ← orRaise admin adminUserNotFound
  commitAdmin (.disableMfa admin.id)
  pure (.message "MFA disabled successfully")

/-- The requests of any number of clients; `tick` lets time pass. -/
inductive AdminRequest where
  | tick (seconds : ℕ)
  | login (r : AdminLoginRequest)
  | refresh (r : AdminRefreshRequest)
  | logout (token : Option AdminToken)
  | setupMfa (token : Option AdminToken) (secret : String)
  | verifyMfa (token : Option AdminToken) (code : String)
  | disableMfa (token : Option AdminToken)

def AdminRequest.program : AdminRequest → AdminProgram AdminReply
  | .tick seconds => do
      commitAdmin (.tick seconds)
      pure (.message "")
  | .login r => adminLogin settings crypto r
  | .refresh r => refreshAccess settings r
  | .logout token => adminLogout token
  | .setupMfa token secret => Zyntry.setupMfa token secret
  | .verifyMfa token code => Zyntry.verifyMfa crypto token code
  | .disableMfa token => Zyntry.disableMfa token

end Handlers

/-! ## The commits of each handler -/

section Writes

variable (settings : AdminSettings) (crypto : AdminCrypto)
  {G : AdminStatement → AdminDb → AdminDb → Prop}

theorem writes_commitAdmin {l : AdminStatement} (h : ∀ d, G l d (l.effect d)) :
    (commitAdmin l).Writes G := writes_write.2 h

@[simp] theorem writes_adminNow : adminNow.Writes G := writes_query _ _

@[simp] theorem writes_insertSession (token : AdminToken) : (insertSession token).Writes G :=
  Writes.bind (writes_locking _ _ _) fun _ => writes_ensure

@[simp] theorem writes_decodeToken (presented : Option AdminToken) :
    (decodeToken presented).Writes G := by
  unfold decodeToken
  repeat' first | apply Writes.bind | intro _ | simp

@[simp] theorem writes_requireAdminSession (token : AdminToken) :
    (requireAdminSession token).Writes G := by
  unfold requireAdminSession
  repeat' first | apply Writes.bind | intro _ | simp

@[simp] theorem writes_getAdminContext (presented : Option AdminToken) :
    (getAdminContext presented).Writes G := by
  unfold getAdminContext
  repeat' first | apply Writes.bind | intro _ | simp

theorem writes_adminLogin (r : AdminLoginRequest)
    (h : ∀ now admin userId d,
      let access := accessSession settings now admin userId false r.accessJti
      let renewal := refreshSession settings now admin userId r.refreshJti
      G (.login access renewal) d ((AdminStatement.login access renewal).effect d)) :
    (adminLogin settings crypto r).Writes G := by
  unfold adminLogin
  repeat' first | apply Writes.bind | intro _ | exact writes_commitAdmin (h _ _ _) | simp

theorem writes_refreshAccess (r : AdminRefreshRequest)
    (h : ∀ k a t d, G (.refresh k a t) d ((AdminStatement.refresh k a t).effect d)) :
    (refreshAccess settings r).Writes G := by
  unfold refreshAccess
  repeat' first | apply Writes.bind | intro _ | exact writes_commitAdmin (h _ _ _) | simp

theorem writes_adminLogout (presented : Option AdminToken)
    (h : ∀ k d, G (.logout k) d ((AdminStatement.logout k).effect d)) :
    (adminLogout presented).Writes G := by
  unfold adminLogout
  repeat' first | apply Writes.bind | intro _ | split | exact writes_commitAdmin (h _) | simp

theorem writes_setupMfa (presented : Option AdminToken) (secret : String)
    (h : ∀ i k d, G (.setupMfa i k) d ((AdminStatement.setupMfa i k).effect d)) :
    (setupMfa presented secret).Writes G := by
  unfold setupMfa
  repeat' first | apply Writes.bind | intro _ | exact writes_commitAdmin (h _ _) | simp

theorem writes_verifyMfa (presented : Option AdminToken) (code : String)
    (h : ∀ t i ss d, G (.verifyMfa t i ss) d ((AdminStatement.verifyMfa t i ss).effect d)) :
    (verifyMfa crypto presented code).Writes G := by
  unfold verifyMfa
  repeat' first | apply Writes.bind | intro _ | exact writes_commitAdmin (h _ _ _) | simp

theorem writes_disableMfa (presented : Option AdminToken)
    (h : ∀ i d, G (.disableMfa i) d ((AdminStatement.disableMfa i).effect d)) :
    (disableMfa presented).Writes G := by
  unfold disableMfa
  repeat' first | apply Writes.bind | intro _ | exact writes_commitAdmin (h _) | simp

/-- Every commit writes what its label says. -/
theorem AdminRequest.writes_program (r : AdminRequest) :
    (r.program settings crypto).Writes fun l d d' => d' = l.effect d := by
  cases r with
  | tick seconds => exact (writes_commitAdmin fun _ => rfl).bind fun _ => writes_ret _
  | login r =>
      rw [AdminRequest.program]
      exact writes_adminLogin settings crypto r fun _ _ _ _ => rfl
  | refresh r =>
      rw [AdminRequest.program]
      exact writes_refreshAccess settings r fun _ _ _ _ => rfl
  | logout token =>
      rw [AdminRequest.program]
      exact writes_adminLogout token fun _ _ => rfl
  | setupMfa token secret =>
      rw [AdminRequest.program]
      exact writes_setupMfa token secret fun _ _ _ => rfl
  | verifyMfa token code =>
      rw [AdminRequest.program]
      exact writes_verifyMfa crypto token code fun _ _ _ _ => rfl
  | disableMfa token =>
      rw [AdminRequest.program]
      exact writes_disableMfa token fun _ _ => rfl

end Writes

/-! ## Serial spec lemmas -/

section Serial

variable {settings : AdminSettings} {crypto : AdminCrypto} {log : List AdminStatement}
  {d : AdminDb} {G : List AdminStatement → AdminStatement → AdminDb → AdminDb → Prop} {α : Type}

@[simp] theorem writesFrom_adminNow {k : ℕ → AdminProgram α} :
    (adminNow >>= k).WritesFrom G log d ↔ (k d.clock).WritesFrom G log d := writesFrom_query

@[simp] theorem writesFrom_commitAdmin {l : AdminStatement} {k : Unit → AdminProgram α} :
    (commitAdmin l >>= k).WritesFrom G log d ↔
      G log l d (l.effect d) ∧ (k ()).WritesFrom G (log ++ [l]) (l.effect d) := writesFrom_write

theorem decodeToken_spec {presented : Option AdminToken} {token : AdminToken}
    (h : ((decodeToken presented).exec d).1 = .ok token) : presented = some token := by
  have hkeeps : (decodeToken presented).Keeps (fun _ => True) d
      fun token _ => presented = some token := by
    unfold decodeToken adminNow
    simp only [keeps_bind, keeps_orRaise, keeps_query, keeps_ensure, keeps_ret, pure_eq]
    exact fun token htoken _ => htoken
  exact hkeeps.exec (Prod.ext h rfl)

theorem writesFrom_decodeToken {presented : Option AdminToken} {k : AdminToken → AdminProgram α}
    (h : ∀ token, presented = some token → (k token).WritesFrom G log d) :
    (decodeToken presented >>= k).WritesFrom G log d := by
  rw [writesFrom_bind_of_reads (writes_decodeToken _)]
  exact fun token htoken => h token (decodeToken_spec htoken)

/-- A refresh commits at most once, in exchange for a token whose row is valid. -/
theorem writesFrom_refreshAccess (r : AdminRefreshRequest)
    (h : ∀ token row admin now, r.refreshToken = some token → token.type = .refresh →
      d.sessions.get? token = some row → row.Valid d.clock →
      d.adminUsers.get? token.adminId = some admin →
      let access := accessSession settings now admin token.userId admin.mfaVerified r.accessJti
      let renewal := refreshSession settings now admin token.userId r.refreshJti
      G log (.refresh token access renewal) d
        ((AdminStatement.refresh token access renewal).effect d)) :
    (refreshAccess settings r).WritesFrom G log d := by
  unfold refreshAccess
  apply writesFrom_decodeToken
  simp only [writesFrom_ensure, writesFrom_query, writesFrom_orRaise, writesFrom_adminNow,
    writesFrom_locking]
  rintro token htoken htype row hrow ⟨hvalid, _⟩ admin hadmin _ _ _
  rw [writesFrom_bind_of_reads (writes_insertSession _)]
  intro _ _
  rw [writesFrom_bind_of_reads (writes_insertSession _)]
  intro _ _
  rw [writesFrom_commitAdmin]
  exact ⟨h token row admin _ htoken htype hrow hvalid hadmin, writesFrom_ret _⟩

/-- Granting a refresh takes a token whose row is valid. -/
theorem refreshAccess_granted {r : AdminRefreshRequest} {reply : AdminReply}
    (h : ((refreshAccess settings r).exec d).1 = .ok reply) :
    ∃ token row, r.refreshToken = some token ∧ d.sessions.get? token = some row ∧
      row.Valid d.clock := by
  have hkeeps : (refreshAccess settings r).Keeps (fun _ => True) d fun _ _ =>
      ∃ token row, r.refreshToken = some token ∧ d.sessions.get? token = some row ∧
        row.Valid d.clock := by
    unfold refreshAccess decodeToken adminNow
    simp only [keeps_bind, keeps_orRaise, keeps_query, keeps_ensure, keeps_locking, keeps_ret,
      pure_eq]
    rintro token htoken _ _ row hrow ⟨hvalid, _⟩ admin _ _ _ _
    exact (keeps_true _ _).mono fun _ _ _ =>
      (keeps_true _ _).mono fun _ _ _ =>
        (keeps_true _ _).mono fun _ _ _ => ⟨token, row, htoken, hrow, hvalid⟩
  exact hkeeps.exec (Prod.ext h rfl)

/-- What a granted context says about its token. -/
structure AdminContext.OfToken (context : AdminContext) (d : AdminDb) (token : AdminToken)
    (row : AdminSessionRow) (admin : AdminUserRow) : Prop where
  isAccess : token.type = .access
  stored : d.sessions.get? token = some row
  valid : row.Valid d.clock
  account : d.adminUsers.get? token.adminId = some admin
  adminId : context.adminId = token.adminId
  mfaVerified : context.mfaVerified = (token.mfaVerified && admin.mfaVerified && row.mfaVerified)

theorem getAdminContext_spec {presented : Option AdminToken} {context : AdminContext}
    (h : ((getAdminContext presented).exec d).1 = .ok context) :
    ∃ token row admin, presented = some token ∧ context.OfToken d token row admin := by
  have hkeeps : (getAdminContext presented).Keeps (fun _ => True) d fun context _ =>
      ∃ token row admin, presented = some token ∧ context.OfToken d token row admin := by
    unfold getAdminContext decodeToken requireAdminSession adminNow
    simp only [keeps_bind, keeps_orRaise, keeps_query, keeps_ensure, keeps_ret, pure_eq]
    rintro token htoken _ htype row hrow ⟨hvalid, _⟩ admin hadmin _ user _ _ _ _
    exact ⟨token, row, admin, htoken, htype, hrow, hvalid, hadmin, rfl, rfl⟩
  exact hkeeps.exec (Prod.ext h rfl)

theorem writesFrom_getAdminContext {presented : Option AdminToken}
    {k : AdminContext → AdminProgram α}
    (h : ∀ context token row admin, presented = some token →
      context.OfToken d token row admin → (k context).WritesFrom G log d) :
    (getAdminContext presented >>= k).WritesFrom G log d := by
  rw [writesFrom_bind_of_reads (writes_getAdminContext _)]
  intro context hcontext
  obtain ⟨token, row, admin, hpresented, hof⟩ := getAdminContext_spec hcontext
  exact h context token row admin hpresented hof

theorem writesFrom_adminLogout (presented : Option AdminToken)
    (h : ∀ token row, presented = some token → d.sessions.get? token = some row →
      G log (.logout token) d ((AdminStatement.logout token).effect d)) :
    (adminLogout presented).WritesFrom G log d := by
  unfold adminLogout
  apply writesFrom_getAdminContext
  intro context token row admin hpresented hof
  subst hpresented
  simp only [writesFrom_orRaise, writesFrom_query]
  intro _ htoken
  cases htoken
  simp only [hof.stored, Option.isSome_some, if_true, writesFrom_locking]
  rw [writesFrom_commitAdmin]
  exact ⟨h token row rfl hof.stored, writesFrom_ret _⟩

theorem writesFrom_verifyMfa (presented : Option AdminToken) (code : String)
    (h : ∀ token row adminId sessions, presented = some token → token.type = .access →
      d.sessions.get? token = some row →
      G log (.verifyMfa token adminId sessions) d
        ((AdminStatement.verifyMfa token adminId sessions).effect d)) :
    (verifyMfa crypto presented code).WritesFrom G log d := by
  unfold verifyMfa
  apply writesFrom_getAdminContext
  intro context token row admin hpresented hof
  subst hpresented
  simp only [writesFrom_orRaise, writesFrom_query, writesFrom_ensure, writesFrom_adminNow]
  intro _ htoken admin' _ _ _
  cases htoken
  rw [writesFrom_commitAdmin]
  exact ⟨h token row _ _ rfl hof.isAccess hof.stored, writesFrom_ret _⟩

end Serial

end Zyntry
