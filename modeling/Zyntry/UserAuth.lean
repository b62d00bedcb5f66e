import Zyntry.SqlCommits
import Zyntry.RowTable
import Zyntry.PythonText
import Mathlib.Data.List.MinMax

/-!
# The accounts of users

The handlers of `api/v1/auth` that open, continue and end the logins of users, as programs
of statements on the tables of users, sessions, refresh tokens and password reset tokens.
A label says what its commit writes. The time is part of the database and passes in steps of
its own. Raw tokens are random and are inputs of the requests that issue them.
-/

namespace Zyntry

open SqlProgram Python

/-! ## Tables -/

structure UserRow where
  id : ℕ
  email : String
  hashedPassword : Option String
  isActive : Bool := true
  twoFactorEnabled : Bool := false
  twoFactorSecret : Option String := none
deriving DecidableEq, Repr

/-- A row of `sessions` or of `refresh_tokens`, which have the same columns. -/
structure TokenRow where
  tokenHash : String
  userId : ℕ
  expiresAt : ℕ
  revoked : Bool := false
deriving DecidableEq, Repr

/-- A row of `password_reset_tokens`: a code from an e-mail, or a token that a code was
exchanged for. -/
structure ResetRow where
  tokenHash : String
  userId : ℕ
  createdAt : ℕ
  expiresAt : ℕ
  used : Bool := false
deriving DecidableEq, Repr

abbrev TokenTable := RowTable String TokenRow TokenRow.tokenHash

structure AuthDb where
  /-- What `now()` reads. -/
  clock : ℕ := 0
  users : RowTable ℕ UserRow UserRow.id := default
  sessions : TokenTable := default
  refreshTokens : TokenTable := default
  resetTokens : RowTable String ResetRow ResetRow.tokenHash := default

def TokenRow.Valid (row : TokenRow) (now : ℕ) : Prop := row.revoked = false ∧ now < row.expiresAt

instance TokenRow.decidableValid (row : TokenRow) (now : ℕ) : Decidable (row.Valid now) := by
  unfold TokenRow.Valid
  infer_instance

def ResetRow.Valid (row : ResetRow) (now : ℕ) : Prop := row.used = false ∧ now < row.expiresAt

instance ResetRow.decidableValid (row : ResetRow) (now : ℕ) : Decidable (row.Valid now) := by
  unfold ResetRow.Valid
  infer_instance

namespace TokenTable

def revoke (t : TokenTable) (tokenHash : String) : TokenTable :=
  t.update tokenHash (fun row => { row with revoked := true }) fun _ => rfl

def revokeAll (t : TokenTable) (tokenHashes : List String) : TokenTable :=
  tokenHashes.foldl revoke t

/-- The rows of a user that an UPDATE of `revoked` changes. -/
def unrevokedOf (t : TokenTable) (userId : ℕ) : List String :=
  (t.rows.filter fun row => row.userId = userId ∧ row.revoked = false).map TokenRow.tokenHash

theorem get?_revoke (t : TokenTable) (tokenHash k : String) :
    (revoke t tokenHash).get? k = (t.get? k).map fun row =>
      if k = tokenHash then { row with revoked := true } else row := by
  by_cases hk : k = tokenHash
  · subst hk
    simp only [revoke, RowTable.get?_update_self, if_true]
  · simp only [revoke, RowTable.get?_update_of_ne t hk, if_neg hk, Option.map_id']

theorem get?_revokeAll (t : TokenTable) (tokenHashes : List String) (k : String) :
    (revokeAll t tokenHashes).get? k = (t.get? k).map fun row =>
      if k ∈ tokenHashes then { row with revoked := true } else row := by
  induction tokenHashes generalizing t with
  | nil => simp [revokeAll]
  | cons tokenHash tokenHashes ih =>
      have hstep := ih (revoke t tokenHash)
      simp only [revokeAll, List.foldl_cons] at hstep ⊢
      rw [hstep, get?_revoke, Option.map_map]
      congr 1
      funext row
      by_cases hk : k = tokenHash <;> by_cases hmem : k ∈ tokenHashes <;> simp [hk, hmem]

/-- The token has been revoked. -/
def Spent (t : TokenTable) (tokenHash : String) : Prop :=
  ∃ row, t.get? tokenHash = some row ∧ row.revoked = true

theorem Spent.insert {t : TokenTable} {tokenHash : String} (h : Spent t tokenHash)
    (row : TokenRow) : Spent (RowTable.insert t row) tokenHash := by
  obtain ⟨stored, hget, hrevoked⟩ := h
  exact ⟨stored, RowTable.get?_insert_of_some hget, hrevoked⟩

theorem Spent.revoke {t : TokenTable} {tokenHash : String} (h : Spent t tokenHash) (k : String) :
    Spent (TokenTable.revoke t k) tokenHash := by
  obtain ⟨stored, hget, hrevoked⟩ := h
  refine ⟨_, by rw [get?_revoke, hget, Option.map_some], ?_⟩
  split_ifs
  · rfl
  · exact hrevoked

theorem Spent.revokeAll {t : TokenTable} {tokenHash : String} (h : Spent t tokenHash)
    (ks : List String) : Spent (TokenTable.revokeAll t ks) tokenHash := by
  obtain ⟨stored, hget, hrevoked⟩ := h
  refine ⟨_, by rw [get?_revokeAll, hget, Option.map_some], ?_⟩
  split_ifs
  · rfl
  · exact hrevoked

end TokenTable

/-! ## Commits -/

/-- What a statement commits; `read` stands for the statements that commit nothing. -/
inductive AuthStatement where
  | read
  | tick (seconds : ℕ)
  | login (userId : ℕ) (hashedPassword : String) (session refreshToken : TokenRow)
  | refresh (tokenHash : String) (session refreshToken : TokenRow)
  | logout (tokenHash : String)
  | forgotPassword (code : ResetRow)
  | verifyResetCode (codeHash : String) (token : ResetRow)
  | resetPassword (tokenHash : String) (userId : ℕ) (hashedPassword : String)
      (sessions refreshTokens : List String)
deriving DecidableEq, Repr

namespace AuthDb

def useReset (d : AuthDb) (tokenHash : String) : RowTable String ResetRow ResetRow.tokenHash :=
  d.resetTokens.update tokenHash (fun row => { row with used := true }) fun _ => rfl

def setPassword (d : AuthDb) (userId : ℕ) (hashedPassword : String) :
    RowTable ℕ UserRow UserRow.id :=
  d.users.update userId (fun user => { user with hashedPassword := some hashedPassword })
    fun _ => rfl

end AuthDb

def AuthStatement.effect : AuthStatement → AuthDb → AuthDb
  | .read, d => d
  | .tick seconds, d => { d with clock := d.clock + seconds }
  | .login _ _ session refreshToken, d =>
      { d with
        sessions := d.sessions.insert session
        refreshTokens := d.refreshTokens.insert refreshToken }
  | .refresh tokenHash session refreshToken, d =>
      { d with
        sessions := d.sessions.insert session
        refreshTokens := (TokenTable.revoke d.refreshTokens tokenHash).insert refreshToken }
  | .logout tokenHash, d => { d with sessions := TokenTable.revoke d.sessions tokenHash }
  | .forgotPassword code, d => { d with resetTokens := d.resetTokens.insert code }
  | .verifyResetCode codeHash token, d =>
      { d with resetTokens := (d.useReset codeHash).insert token }
  | .resetPassword tokenHash userId hashedPassword sessions refreshTokens, d =>
      { d with
        users := d.setPassword userId hashedPassword
        resetTokens := d.useReset tokenHash
        sessions := TokenTable.revokeAll d.sessions sessions
        refreshTokens := TokenTable.revokeAll d.refreshTokens refreshTokens }

theorem AuthStatement.spent_effect {l : AuthStatement} {d : AuthDb} {tokenHash : String}
    (h : TokenTable.Spent d.refreshTokens tokenHash) :
    TokenTable.Spent (l.effect d).refreshTokens tokenHash := by
  cases l with
  | login userId hashedPassword session refreshToken => exact h.insert refreshToken
  | refresh used session refreshToken => exact (h.revoke used).insert refreshToken
  | resetPassword used userId hashedPassword sessions refreshTokens =>
      exact h.revokeAll refreshTokens
  | _ => exact h

/-! ## Programs -/

inductive AuthLock where
  | user (id : ℕ)
  | session (tokenHash : String)
  | refreshToken (tokenHash : String)
  | resetToken (tokenHash : String)
deriving DecidableEq, Repr

inductive AuthError where
  | http (status : ℕ) (detail : String)
  | integrityError
  | multipleResultsFound
  | decryptionError
deriving DecidableEq, Repr

abbrev AuthProgram := SqlProgram AuthDb AuthLock AuthStatement AuthError

structure AuthSettings where
  sessionTokenTtl : ℕ := 60 * 60
  refreshTokenTtl : ℕ := 7 * 24 * 60 * 60
  passwordMinLength : ℕ := 8

/-- The functions of `core/security` and `services/encryption` that the handlers call. -/
structure AuthCrypto where
  hashToken : String → String
  verifyPassword : String → String → Bool
  verifyTotp : String → String → ℕ → Bool
  decryptValue : String → Option String
  isAlnum : String → Bool
  upper : String → String

/-- Hashes are the texts themselves and a code is the secret. -/
def plainCrypto : AuthCrypto where
  hashToken := id
  verifyPassword := fun password hashed => password = hashed
  verifyTotp := fun secret code _ => secret = code
  decryptValue := some
  isAlnum := fun s => s.toList.all Char.isAlphanum
  upper := fun s => s.map Char.toUpper

inductive AuthReply where
  | me (user : UserRow) (session refreshToken : String)
  | message (text : String)
  | resetToken (token : String)
deriving DecidableEq, Repr

/-- Write and commit. -/
def commitAuth (l : AuthStatement) : AuthProgram Unit := SqlProgram.write l l.effect

def clockNow : AuthProgram ℕ := query .read AuthDb.clock

/-- `_get_user_by_email`. -/
def getUserByEmail (email : String) : AuthProgram (Option UserRow) := do
  let users ← query .read fun d =>
    d.users.rows.filter fun user => lower user.email = lower (stripped email)
  ensure (users.length ≤ 1) .multipleResultsFound
  pure users.head?

/-- The insertion of rows whose `token_hash` is unique. -/
def insertUniqueRow (lock : AuthLock) (taken : AuthDb → Bool) : AuthProgram Unit := do
  let taken ← locking .read (fun _ => [lock]) taken
  ensure (taken = false) .integrityError

section Handlers

variable (settings : AuthSettings) (crypto : AuthCrypto)

/-- `_create_session`. -/
def createSession (token : String) (userId : ℕ) : AuthProgram TokenRow := do
  let now ← clockNow
  let tokenHash := crypto.hashToken token
  insertUniqueRow (.session tokenHash) fun d => (d.sessions.get? tokenHash).isSome
  pure { tokenHash, userId, expiresAt := now + settings.sessionTokenTtl }

/-- `_create_refresh_token`. -/
def createRefreshToken (token : String) (userId : ℕ) : AuthProgram TokenRow := do
  let now ← clockNow
  let tokenHash := crypto.hashToken token
  insertUniqueRow (.refreshToken tokenHash) fun d => (d.refreshTokens.get? tokenHash).isSome
  pure { tokenHash, userId, expiresAt := now + settings.refreshTokenTtl }

def invalidCredentials : AuthError := .http 401 "Invalid credentials"

def invalidAuthenticationCode : AuthError := .http 401 "Invalid authentication code"

def checkTwoFactor (user : UserRow) (code : Option String) : AuthProgram Unit :=
  if user.twoFactorEnabled then do
    let code := code.getD ""
    ensure (code ≠ "") (.http 428 "Authentication code required")
    let secret := user.twoFactorSecret.getD ""
    ensure (secret ≠ "") invalidAuthenticationCode
    let secret ← orRaise (crypto.decryptValue secret) .decryptionError
    let now ← clockNow
    ensure (crypto.verifyTotp secret (String.ofList ((stripped code).toList.filter (· ≠ ' '))) now)
      invalidAuthenticationCode
  else pure ()

structure LoginRequest where
  /-- The attempts of the last minute are used up. -/
  rateLimited : Bool := false
  email : String
  password : String
  twoFactorCode : Option String := none
  sessionToken : String
  refreshToken : String

def login (r : LoginRequest) : AuthProgram AuthReply := do
  ensure (r.rateLimited = false) (.http 429 "Too many login attempts")
  let user ← getUserByEmail r.email
  let user ← orRaise user invalidCredentials
  let hashedPassword ← orRaise user.hashedPassword invalidCredentials
  ensure (crypto.verifyPassword r.password hashedPassword) invalidCredentials
  checkTwoFactor crypto user r.twoFactorCode
  let session ← createSession settings crypto r.sessionToken user.id
  let refreshToken ← createRefreshToken settings crypto r.refreshToken user.id
  commitAuth (.login user.id hashedPassword session refreshToken)
  pure (.me user r.sessionToken r.refreshToken)

structure RefreshRequest where
  refreshToken : Option String
  newSessionToken : String
  newRefreshToken : String

def invalidRefreshToken : AuthError := .http 401 "Invalid refresh token"

def refresh (r : RefreshRequest) : AuthProgram AuthReply := do
  let token ← orRaise r.refreshToken (.http 401 "Refresh token missing")
  let tokenHash := crypto.hashToken token
  let row ← query .read fun d => d.refreshTokens.get? tokenHash
  let row ← orRaise row invalidRefreshToken
  let now ← clockNow
  ensure (row.Valid now) invalidRefreshToken
  let user ← query .read fun d => d.users.get? row.userId
  let user ← orRaise user invalidRefreshToken
  ensure user.isActive invalidRefreshToken
  -- the flush of the first new row updates the old one, too
  locking .read (fun _ => [.refreshToken tokenHash]) fun _ => ()
  let session ← createSession settings crypto r.newSessionToken user.id
  let refreshToken ← createRefreshToken settings crypto r.newRefreshToken user.id
  commitAuth (.refresh tokenHash session refreshToken)
  pure (.me user r.newSessionToken r.newRefreshToken)

def logout (sessionToken : Option String) : AuthProgram AuthReply :=
  match sessionToken with
  | none => pure (.message "Logged out")
  | some token => do
      let tokenHash := crypto.hashToken token
      let row ← query .read fun d => d.sessions.get? tokenHash
      if row.isSome then do
        locking .read (fun _ => [.session tokenHash]) fun _ => ()
        commitAuth (.logout tokenHash)
        pure (.message "Logged out")
      else pure (.message "Logged out")

def resetLinkSent : AuthReply :=
  .message "If an account exists with that email, a reset link has been sent."

def forgotPassword (email code : String) : AuthProgram AuthReply := do
  let user ← getUserByEmail email
  match user with
  | none => pure resetLinkSent
  | some user => do
      let now ← clockNow
      let tokenHash := crypto.hashToken code
      insertUniqueRow (.resetToken tokenHash) fun d => (d.resetTokens.get? tokenHash).isSome
      commitAuth (.forgotPassword
        { tokenHash, userId := user.id, createdAt := now, expiresAt := now + 15 * 60 })
      pure resetLinkSent

def invalidResetCode : AuthError := .http 400 "Invalid or expired reset code"

/-- `verification_token_candidates`. -/
def verificationTokenCandidates (token : String) : List String :=
  [stripped token, crypto.upper (stripped token)].dedup

def isResetCode (code : String) : Bool := code.length = 6 && crypto.isAlnum code

/-- The latest reset row of a user under one of the hashes. -/
def AuthDb.latestReset (d : AuthDb) (userId : ℕ) (tokenHashes : List String) : Option ResetRow :=
  (d.resetTokens.rows.filter fun row =>
    row.userId = userId ∧ row.tokenHash ∈ tokenHashes).argmax ResetRow.createdAt

def verifyResetCode (email code newToken : String) : AuthProgram AuthReply := do
  ensure (isResetCode crypto (stripped code)) invalidResetCode
  let user ← getUserByEmail email
  let user ← orRaise user invalidResetCode
  let codeHashes := (verificationTokenCandidates crypto (stripped code)).map crypto.hashToken
  let row ← query .read fun d => d.latestReset user.id codeHashes
  let row ← orRaise row invalidResetCode
  let now ← clockNow
  ensure (row.Valid now) invalidResetCode
  let now ← clockNow
  let rawResetToken := "rst_" ++ newToken
  let tokenHash := crypto.hashToken rawResetToken
  locking .read (fun _ => [.resetToken row.tokenHash]) fun _ => ()
  insertUniqueRow (.resetToken tokenHash) fun d => (d.resetTokens.get? tokenHash).isSome
  commitAuth (.verifyResetCode row.tokenHash
    { tokenHash, userId := user.id, createdAt := now, expiresAt := now + 10 * 60 })
  pure (.resetToken rawResetToken)

def invalidResetToken : AuthError := .http 400 "Invalid or expired reset token"

/-- `reset_password`; the new hash is salted and so an input. -/
def resetPassword (resetToken password newHash : String) : AuthProgram AuthReply := do
  ensure (settings.passwordMinLength ≤ password.length)
    (.http 422 s!"Password must be at least {settings.passwordMinLength} characters")
  ensure (startsWith resetToken "rst_" ∧ 32 ≤ resetToken.length) invalidResetToken
  let tokenHash := crypto.hashToken resetToken
  let row ← query .read fun d => d.resetTokens.get? tokenHash
  let row ← orRaise row invalidResetToken
  let now ← clockNow
  ensure (row.Valid now) invalidResetToken
  let user ← query .read fun d => d.users.get? row.userId
  let user ← orRaise user (.http 400 "Invalid reset token")
  let sessions ← query .read fun d => TokenTable.unrevokedOf d.sessions user.id
  let refreshTokens ← query .read fun d => TokenTable.unrevokedOf d.refreshTokens user.id
  locking .read (fun _ => [.user user.id, .resetToken tokenHash] ++
    sessions.map AuthLock.session ++ refreshTokens.map AuthLock.refreshToken) fun _ => ()
  commitAuth (.resetPassword tokenHash user.id newHash sessions refreshTokens)
  pure (.message "Password has been reset.")

/-- The requests of any number of clients; `tick` lets time pass. -/
inductive AuthRequest where
  | tick (seconds : ℕ)
  | login (r : LoginRequest)
  | refresh (r : RefreshRequest)
  | logout (sessionToken : Option String)
  | forgotPassword (email code : String)
  | verifyResetCode (email code newToken : String)
  | resetPassword (resetToken password newHash : String)

def AuthRequest.program : AuthRequest → AuthProgram AuthReply
  | .tick seconds => do
      commitAuth (.tick seconds)
      pure (.message "")
  | .login r => Zyntry.login settings crypto r
  | .refresh r => Zyntry.refresh settings crypto r
  | .logout sessionToken => Zyntry.logout crypto sessionToken
  | .forgotPassword email code => Zyntry.forgotPassword crypto email code
  | .verifyResetCode email code newToken => Zyntry.verifyResetCode crypto email code newToken
  | .resetPassword resetToken password newHash =>
      Zyntry.resetPassword settings crypto resetToken password newHash

end Handlers

/-! ## The commits of each handler -/

section Writes

variable (settings : AuthSettings) (crypto : AuthCrypto)
  {G : AuthStatement → AuthDb → AuthDb → Prop}

theorem writes_commitAuth {l : AuthStatement} (h : ∀ d, G l d (l.effect d)) :
    (commitAuth l).Writes G := writes_write.2 h

@[simp] theorem writes_clockNow : clockNow.Writes G := writes_query _ _

@[simp] theorem writes_getUserByEmail (email : String) : (getUserByEmail email).Writes G := by
  apply Writes.bind (writes_query _ _)
  intro users
  exact writes_ensure.bind fun _ => writes_ret _

@[simp] theorem writes_insertUniqueRow (lock : AuthLock) (taken : AuthDb → Bool) :
    (insertUniqueRow lock taken).Writes G :=
  Writes.bind (writes_locking _ _ _) fun _ => writes_ensure

@[simp] theorem writes_createSession (token : String) (userId : ℕ) :
    (createSession settings crypto token userId).Writes G := by
  apply Writes.bind writes_clockNow
  intro now
  exact (writes_insertUniqueRow _ _).bind fun _ => writes_ret _

@[simp] theorem writes_createRefreshToken (token : String) (userId : ℕ) :
    (createRefreshToken settings crypto token userId).Writes G := by
  apply Writes.bind writes_clockNow
  intro now
  exact (writes_insertUniqueRow _ _).bind fun _ => writes_ret _

@[simp] theorem writes_checkTwoFactor (user : UserRow) (code : Option String) :
    (checkTwoFactor crypto user code).Writes G := by
  unfold checkTwoFactor
  split
  · repeat' first | apply Writes.bind | intro _ | simp
  · exact writes_ret _

theorem writes_login (r : LoginRequest)
    (h : ∀ u p s t d, G (.login u p s t) d ((AuthStatement.login u p s t).effect d)) :
    (login settings crypto r).Writes G := by
  unfold login
  repeat' first | apply Writes.bind | intro _ | exact writes_commitAuth (h _ _ _ _) | simp

theorem writes_refresh (r : RefreshRequest)
    (h : ∀ k s t d, G (.refresh k s t) d ((AuthStatement.refresh k s t).effect d)) :
    (refresh settings crypto r).Writes G := by
  unfold refresh
  repeat' first | apply Writes.bind | intro _ | exact writes_commitAuth (h _ _ _) | simp

theorem writes_logout (sessionToken : Option String)
    (h : ∀ k d, G (.logout k) d ((AuthStatement.logout k).effect d)) :
    (logout crypto sessionToken).Writes G := by
  cases sessionToken with
  | none => exact writes_ret _
  | some token =>
      apply Writes.bind (writes_query _ _)
      intro row
      split
      · repeat' first | apply Writes.bind | intro _ | exact writes_commitAuth (h _) | simp
      · exact writes_ret _

theorem writes_forgotPassword (email code : String)
    (h : ∀ c d, G (.forgotPassword c) d ((AuthStatement.forgotPassword c).effect d)) :
    (forgotPassword crypto email code).Writes G := by
  unfold forgotPassword
  apply Writes.bind (writes_getUserByEmail email)
  intro user
  cases user with
  | none => exact writes_ret _
  | some user =>
      apply Writes.bind writes_clockNow
      intro now
      apply Writes.bind (writes_insertUniqueRow _ _)
      intro _
      exact (writes_commitAuth (h _)).bind fun _ => writes_ret _

theorem writes_verifyResetCode (email code newToken : String)
    (h : ∀ c t d, G (.verifyResetCode c t) d ((AuthStatement.verifyResetCode c t).effect d)) :
    (verifyResetCode crypto email code newToken).Writes G := by
  unfold verifyResetCode
  refine Writes.bind writes_ensure fun _ => ?_
  refine Writes.bind (writes_getUserByEmail email) fun user => ?_
  refine Writes.bind writes_orRaise fun user => ?_
  refine Writes.bind (writes_query _ _) fun row => ?_
  refine Writes.bind writes_orRaise fun row => ?_
  refine Writes.bind writes_clockNow fun _ => ?_
  refine Writes.bind writes_ensure fun _ => ?_
  refine Writes.bind writes_clockNow fun now => ?_
  refine Writes.bind (writes_locking _ _ _) fun _ => ?_
  refine Writes.bind (writes_insertUniqueRow _ _) fun _ => ?_
  refine Writes.bind (writes_commitAuth (h _ _)) fun _ => ?_
  exact writes_ret _

theorem writes_resetPassword (resetToken password newHash : String)
    (h : ∀ k u p ss ts d, G (.resetPassword k u p ss ts) d
      ((AuthStatement.resetPassword k u p ss ts).effect d)) :
    (resetPassword settings crypto resetToken password newHash).Writes G := by
  unfold resetPassword
  repeat' first
    | apply Writes.bind | intro _ | exact writes_commitAuth (h _ _ _ _ _) | simp

/-- Every commit writes what its label says. -/
theorem AuthRequest.writes_program (r : AuthRequest) :
    (r.program settings crypto).Writes fun l d d' => d' = l.effect d := by
  cases r with
  | tick seconds => exact (writes_commitAuth fun _ => rfl).bind fun _ => writes_ret _
  | login r =>
      rw [AuthRequest.program]
      exact writes_login settings crypto r fun _ _ _ _ _ => rfl
  | refresh r =>
      rw [AuthRequest.program]
      exact writes_refresh settings crypto r fun _ _ _ _ => rfl
  | logout sessionToken =>
      rw [AuthRequest.program]
      exact writes_logout crypto sessionToken fun _ _ => rfl
  | forgotPassword email code =>
      rw [AuthRequest.program]
      exact writes_forgotPassword crypto email code fun _ _ => rfl
  | verifyResetCode email code newToken =>
      rw [AuthRequest.program]
      exact writes_verifyResetCode crypto email code newToken fun _ _ _ => rfl
  | resetPassword resetToken password newHash =>
      rw [AuthRequest.program]
      exact writes_resetPassword settings crypto resetToken password newHash
        fun _ _ _ _ _ _ => rfl

end Writes

/-! ## What is accepted -/

namespace AuthDb

/-- `_get_session_user`. -/
def sessionUser (d : AuthDb) (tokenHash : String) : Option UserRow :=
  match d.sessions.get? tokenHash with
  | some row =>
      if row.Valid d.clock then (d.users.get? row.userId).filter UserRow.isActive else none
  | none => none

/-- A session gives access. -/
def AcceptsSession (d : AuthDb) (tokenHash : String) : Prop :=
  ∃ row, d.sessions.get? tokenHash = some row ∧ row.Valid d.clock ∧
    ∃ user, d.users.get? row.userId = some user ∧ user.isActive = true

/-- A refresh token passes the checks of `refresh`. -/
def AcceptsRefresh (d : AuthDb) (tokenHash : String) : Prop :=
  ∃ row, d.refreshTokens.get? tokenHash = some row ∧ row.Valid d.clock ∧
    ∃ user, d.users.get? row.userId = some user ∧ user.isActive = true

/-- A code or reset token passes the checks of the request it is presented in. -/
def AcceptsReset (d : AuthDb) (tokenHash : String) : Prop :=
  ∃ row, d.resetTokens.get? tokenHash = some row ∧ row.Valid d.clock

theorem acceptsSession_iff {d : AuthDb} {tokenHash : String} :
    d.AcceptsSession tokenHash ↔ ∃ user, d.sessionUser tokenHash = some user := by
  unfold AcceptsSession sessionUser
  cases d.sessions.get? tokenHash with
  | none => simp
  | some row =>
      by_cases hvalid : row.Valid d.clock
      · simp [hvalid, Option.filter_eq_some_iff]
      · simp [hvalid]

end AuthDb

/-! ## Serial spec lemmas -/

section Serial

variable {settings : AuthSettings} {crypto : AuthCrypto} {log : List AuthStatement} {d : AuthDb}
  {G : List AuthStatement → AuthStatement → AuthDb → AuthDb → Prop} {α : Type}

@[simp] theorem writesFrom_clockNow {k : ℕ → AuthProgram α} :
    (clockNow >>= k).WritesFrom G log d ↔ (k d.clock).WritesFrom G log d := writesFrom_query

@[simp] theorem writesFrom_commitAuth {l : AuthStatement} {k : Unit → AuthProgram α} :
    (commitAuth l >>= k).WritesFrom G log d ↔
      G log l d (l.effect d) ∧ (k ()).WritesFrom G (log ++ [l]) (l.effect d) := writesFrom_write

/-- A refresh commits at most once, in exchange for a token that is valid. -/
theorem writesFrom_refresh (r : RefreshRequest)
    (h : ∀ k s t, d.AcceptsRefresh k →
      G log (.refresh k s t) d ((AuthStatement.refresh k s t).effect d)) :
    (refresh settings crypto r).WritesFrom G log d := by
  unfold refresh
  simp only [writesFrom_orRaise, writesFrom_query, writesFrom_clockNow, writesFrom_ensure,
    writesFrom_locking]
  intro token _ row hrow hvalid user huser hactive
  rw [writesFrom_bind_of_reads (writes_createSession settings crypto _ _)]
  intro session _
  rw [writesFrom_bind_of_reads (writes_createRefreshToken settings crypto _ _)]
  intro refreshToken _
  rw [writesFrom_commitAuth]
  exact ⟨h _ _ _ ⟨row, hrow, hvalid, user, huser, hactive⟩, writesFrom_ret _⟩

/-- Granting a refresh takes a token that the state accepts. -/
theorem refresh_granted {r : RefreshRequest} {reply : AuthReply}
    (h : ((refresh settings crypto r).exec d).1 = .ok reply) :
    ∃ token, r.refreshToken = some token ∧ d.AcceptsRefresh (crypto.hashToken token) := by
  have hkeeps : (refresh settings crypto r).Keeps (fun _ => True) d fun _ _ =>
      ∃ token, r.refreshToken = some token ∧ d.AcceptsRefresh (crypto.hashToken token) := by
    unfold refresh clockNow
    simp only [keeps_bind, keeps_orRaise, keeps_query, keeps_ensure, keeps_locking]
    intro token htoken row hrow hvalid user huser hactive
    exact (keeps_true _ _).mono fun _ _ _ =>
      (keeps_true _ _).mono fun _ _ _ =>
        (keeps_true _ _).mono fun _ _ _ =>
          ⟨token, htoken, row, hrow, hvalid, user, huser, hactive⟩
  exact hkeeps.exec (Prod.ext h rfl)

theorem mem_of_latestReset {d : AuthDb} {userId : ℕ} {tokenHashes : List String} {row : ResetRow}
    (h : d.latestReset userId tokenHashes = some row) : d.resetTokens.get? row.tokenHash = some row :=
  RowTable.get?_of_mem (List.mem_of_mem_filter (List.argmax_mem (Option.mem_def.2 h)))

/-- A code is exchanged at most once by a request, while its row is valid. -/
theorem writesFrom_verifyResetCode (email code newToken : String)
    (h : ∀ k t, d.AcceptsReset k →
      G log (.verifyResetCode k t) d ((AuthStatement.verifyResetCode k t).effect d)) :
    (verifyResetCode crypto email code newToken).WritesFrom G log d := by
  unfold verifyResetCode
  simp only [writesFrom_ensure]
  intro _
  rw [writesFrom_bind_of_reads (writes_getUserByEmail email)]
  intro user _
  simp only [writesFrom_orRaise, writesFrom_query, writesFrom_clockNow, writesFrom_ensure,
    writesFrom_locking]
  intro user _ row hrow hvalid
  rw [writesFrom_bind_of_reads (writes_insertUniqueRow _ _)]
  intro _ _
  rw [writesFrom_commitAuth]
  exact ⟨h _ _ ⟨row, mem_of_latestReset hrow, hvalid⟩, writesFrom_ret _⟩

/-- A reset token is used at most once by a request, while its row is valid. -/
theorem writesFrom_resetPassword (resetToken password newHash : String)
    (h : ∀ k u ss ts, d.AcceptsReset k →
      G log (.resetPassword k u newHash ss ts) d
        ((AuthStatement.resetPassword k u newHash ss ts).effect d)) :
    (resetPassword settings crypto resetToken password newHash).WritesFrom G log d := by
  unfold resetPassword
  simp only [writesFrom_ensure, writesFrom_orRaise, writesFrom_query, writesFrom_clockNow,
    writesFrom_locking, writesFrom_commitAuth]
  intro _ _ row hrow hvalid user _
  exact ⟨h _ _ _ _ ⟨row, hrow, hvalid⟩, writesFrom_ret _⟩

theorem writesFrom_logout (sessionToken : Option String)
    (h : ∀ token, sessionToken = some token →
      (d.sessions.get? (crypto.hashToken token)).isSome = true →
        G log (.logout (crypto.hashToken token)) d
          ((AuthStatement.logout (crypto.hashToken token)).effect d)) :
    (logout crypto sessionToken).WritesFrom G log d := by
  cases sessionToken with
  | none => exact writesFrom_ret _
  | some token =>
      unfold logout
      simp only [writesFrom_query]
      split_ifs with hrow
      · rw [writesFrom_locking, writesFrom_commitAuth]
        exact ⟨h token rfl hrow, writesFrom_ret _⟩
      · exact writesFrom_ret _

end Serial

end Zyntry
