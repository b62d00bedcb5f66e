import Zyntry.Renewals
import Zyntry.UserAuth
import Zyntry.AdminAuth

/-!
# Logout and the chain of a login

A login issues an access token and a refresh token, and every refresh issues two more. A
logout revokes the one token it is made with, so it ends the login if no other token of the
chain is still valid by then.
-/

namespace Zyntry

open SqlProgram

/-! ## Users -/

inductive UserToken where
  | session (tokenHash : String)
  | refresh (tokenHash : String)
deriving DecidableEq, Repr

def userRenewals : Renewals AuthStatement UserToken where
  opened
    | .login _ _ session refreshToken =>
        [.session session.tokenHash, .refresh refreshToken.tokenHash]
    | _ => []
  renewed
    | .refresh used session refreshToken => some (.refresh used,
        [.session session.tokenHash, .refresh refreshToken.tokenHash])
    | _ => none
  ended
    | .logout tokenHash => some (.session tokenHash)
    | _ => none
  renewed_of_ended l t h := by
    cases l <;> simp at h ⊢

namespace AuthDb

/-- The row of the token is revoked or expired. -/
def Dead (d : AuthDb) : UserToken → Prop
  | .session tokenHash => ∃ row ∈ d.sessions.get? tokenHash, ¬row.Valid d.clock
  | .refresh tokenHash => ∃ row ∈ d.refreshTokens.get? tokenHash, ¬row.Valid d.clock

/-- A request with the token is granted. -/
def Accepts (settings : AuthSettings) (crypto : AuthCrypto) (d : AuthDb) : UserToken → Prop
  | .session tokenHash => ∃ user, d.sessionUser tokenHash = some user
  | .refresh tokenHash => ∃ r token reply, r.refreshToken = some token ∧
      crypto.hashToken token = tokenHash ∧
        ((Zyntry.refresh settings crypto r).exec d).1 = .ok reply

end AuthDb

/-- A table in which rows are only added and revoked. -/
structure TokenTable.Later (t t' : TokenTable) : Prop where
  kept : ∀ k row, t.get? k = some row → ∃ row', t'.get? k = some row' ∧
    row'.expiresAt = row.expiresAt ∧ (row.revoked = true → row'.revoked = true)

namespace TokenTable.Later

theorem refl (t : TokenTable) : Later t t := ⟨fun _ row h => ⟨row, h, rfl, id⟩⟩

theorem trans {t t' t'' : TokenTable} (h : Later t t') (h' : Later t' t'') : Later t t'' := by
  refine ⟨fun k row hget => ?_⟩
  obtain ⟨row', hget', hexpires, hrevoked⟩ := h.kept k row hget
  obtain ⟨row'', hget'', hexpires', hrevoked'⟩ := h'.kept k row' hget'
  exact ⟨row'', hget'', hexpires'.trans hexpires, fun hr => hrevoked' (hrevoked hr)⟩

theorem insert (t : TokenTable) (row : TokenRow) : Later t (RowTable.insert t row) :=
  ⟨fun _ row' h => ⟨row', RowTable.get?_insert_of_some h, rfl, id⟩⟩

theorem revoke (t : TokenTable) (tokenHash : String) : Later t (TokenTable.revoke t tokenHash) := by
  refine ⟨fun k row hget => ⟨_, by rw [get?_revoke, hget, Option.map_some], ?_⟩⟩
  split_ifs <;> simp

theorem revokeAll (t : TokenTable) (tokenHashes : List String) :
    Later t (TokenTable.revokeAll t tokenHashes) := by
  refine ⟨fun k row hget => ⟨_, by rw [get?_revokeAll, hget, Option.map_some], ?_⟩⟩
  split_ifs <;> simp

/-- A row that is not valid stays so. -/
theorem not_valid {t t' : TokenTable} (h : Later t t') {k : String} {now now' : ℕ}
    (hnow : now ≤ now') (hdead : ∃ row ∈ t.get? k, ¬row.Valid now) :
    ∃ row ∈ t'.get? k, ¬row.Valid now' := by
  obtain ⟨row, hget, hinvalid⟩ := hdead
  obtain ⟨row', hget', hexpires, hrevoked⟩ := h.kept k row hget
  refine ⟨row', hget', fun hvalid => hinvalid ⟨?_, ?_⟩⟩
  · by_contra hr
    have hlive := hvalid.1
    rw [hrevoked (by simpa using hr)] at hlive
    cases hlive
  · have := hvalid.2
    omega

end TokenTable.Later

theorem AuthStatement.clock_le_effect (l : AuthStatement) (d : AuthDb) :
    d.clock ≤ (l.effect d).clock := by
  cases l with
  | tick seconds => exact Nat.le_add_right _ _
  | _ => exact le_rfl

theorem AuthStatement.sessions_later (l : AuthStatement) (d : AuthDb) :
    TokenTable.Later d.sessions (l.effect d).sessions := by
  cases l with
  | login userId hashedPassword session refreshToken => exact .insert _ _
  | refresh used session refreshToken => exact .insert _ _
  | logout tokenHash => exact .revoke _ _
  | resetPassword used userId hashedPassword sessions refreshTokens => exact .revokeAll _ _
  | _ => exact .refl _

theorem AuthStatement.refreshTokens_later (l : AuthStatement) (d : AuthDb) :
    TokenTable.Later d.refreshTokens (l.effect d).refreshTokens := by
  cases l with
  | login userId hashedPassword session refreshToken => exact .insert _ _
  | refresh used session refreshToken => exact (TokenTable.Later.revoke _ _).trans (.insert _ _)
  | resetPassword used userId hashedPassword sessions refreshTokens => exact .revokeAll _ _
  | _ => exact .refl _

theorem AuthDb.Dead.effect {d : AuthDb} {t : UserToken} (h : d.Dead t) (l : AuthStatement) :
    (l.effect d).Dead t := by
  cases t with
  | session tokenHash => exact (l.sessions_later d).not_valid (l.clock_le_effect d) h
  | refresh tokenHash => exact (l.refreshTokens_later d).not_valid (l.clock_le_effect d) h

theorem AuthDb.Dead.not_accepts {settings : AuthSettings} {crypto : AuthCrypto} {d : AuthDb}
    {t : UserToken} (h : d.Dead t) : ¬d.Accepts settings crypto t := by
  cases t with
  | session tokenHash =>
      intro huser
      obtain ⟨row, hget, hinvalid⟩ := h
      obtain ⟨row', hget', hvalid, -⟩ := AuthDb.acceptsSession_iff.mpr huser
      obtain rfl : row = row' := Option.some.inj (Option.mem_def.1 hget ▸ hget')
      exact hinvalid hvalid
  | refresh tokenHash =>
      rintro ⟨r, token, reply, htoken, hhash, hexec⟩
      obtain ⟨row, hget, hinvalid⟩ := h
      obtain ⟨token', htoken', row', hget', hvalid, -⟩ := refresh_granted hexec
      obtain rfl : token = token' := Option.some.inj (htoken.symm.trans htoken')
      rw [hhash] at hget'
      obtain rfl : row = row' := Option.some.inj (Option.mem_def.1 hget ▸ hget')
      exact hinvalid hvalid

/-- Every other token of a login of the token is revoked or expired. -/
def LogoutLast (log : List AuthStatement) (d : AuthDb) (tokenHash : String) : Prop :=
  ∀ login, userRenewals.Descends log login (.session tokenHash) →
    ∀ t, userRenewals.Descends log login t → t ≠ .session tokenHash → d.Dead t

/-- A call of a serial run; a logout is made with the last valid token of its login. -/
def UserLogsOutLast (crypto : AuthCrypto) (log : List AuthStatement) (d : AuthDb)
    (r : AuthRequest) : Prop :=
  ∀ token, r = .logout (some token) → LogoutLast log d (crypto.hashToken token)

/-- What is known of a commit of such a run. -/
def UserSerial (log : List AuthStatement) (l : AuthStatement) (d d' : AuthDb) : Prop :=
  d' = l.effect d ∧
    match l with
    | .refresh used _ _ => ∃ row ∈ d.refreshTokens.get? used, row.Valid d.clock
    | .logout tokenHash => (d.sessions.get? tokenHash).isSome = true ∧ LogoutLast log d tokenHash
    | _ => True

theorem AuthRequest.writesFrom_program {settings : AuthSettings} {crypto : AuthCrypto}
    {log : List AuthStatement} {d : AuthDb} {r : AuthRequest}
    (h : UserLogsOutLast crypto log d r) :
    (r.program settings crypto).WritesFrom UserSerial log d := by
  cases r with
  | tick seconds =>
      exact Writes.writesFrom ((writes_commitAuth fun _ _ => ⟨rfl, trivial⟩).bind
        fun _ => writes_ret _) _ _
  | login r =>
      rw [AuthRequest.program]
      exact (writes_login settings crypto r fun _ _ _ _ _ _ => ⟨rfl, trivial⟩).writesFrom _ _
  | refresh r =>
      rw [AuthRequest.program]
      apply writesFrom_refresh
      intro used session renewal haccepts
      obtain ⟨row, hrow, hvalid, -⟩ := haccepts
      exact ⟨rfl, row, hrow, hvalid⟩
  | logout sessionToken =>
      rw [AuthRequest.program]
      apply writesFrom_logout
      rintro token rfl hrow
      exact ⟨rfl, hrow, h token rfl⟩
  | forgotPassword email code =>
      rw [AuthRequest.program]
      exact (writes_forgotPassword crypto email code fun _ _ _ => ⟨rfl, trivial⟩).writesFrom _ _
  | verifyResetCode email code newToken =>
      rw [AuthRequest.program]
      exact (writes_verifyResetCode crypto email code newToken
        fun _ _ _ _ => ⟨rfl, trivial⟩).writesFrom _ _
  | resetPassword resetToken password newHash =>
      rw [AuthRequest.program]
      exact (writes_resetPassword settings crypto resetToken password newHash
        fun _ _ _ _ _ _ _ => ⟨rfl, trivial⟩).writesFrom _ _

theorem UserSerial.not_dead_renewed {log : List AuthStatement} {l : AuthStatement} {d d' : AuthDb}
    (h : UserSerial log l d d') {p : UserToken} {issued : List UserToken}
    (hl : userRenewals.renewed l = some (p, issued)) : ¬d.Dead p := by
  cases l with
  | refresh used session refreshToken =>
      simp only [userRenewals, Option.some.injEq, Prod.mk.injEq] at hl
      obtain ⟨rfl, -⟩ := hl
      rintro ⟨row, hget, hinvalid⟩
      obtain ⟨row', hget', hvalid⟩ := h.2
      obtain rfl : row = row' := Option.some.inj (Option.mem_def.1 hget ▸ hget')
      exact hinvalid hvalid
  | _ => simp [userRenewals] at hl

theorem UserSerial.dead_of_ended {log : List AuthStatement} {l : AuthStatement} {d d' : AuthDb}
    (h : UserSerial log l d d') {t : UserToken} {login : AuthStatement}
    (hl : userRenewals.ended l = some t) (hlogin : userRenewals.Descends log login t) :
    ∀ t', userRenewals.Descends log login t' → d'.Dead t' := by
  intro t' ht'
  cases l with
  | logout tokenHash =>
      simp only [userRenewals, Option.some.injEq] at hl
      subst hl
      obtain ⟨rfl, hrow, hlast⟩ := h
      by_cases heq : t' = .session tokenHash
      · subst heq
        obtain ⟨row, hget⟩ := Option.isSome_iff_exists.1 hrow
        refine ⟨{ row with revoked := true }, ?_, fun hvalid => by cases hvalid.1⟩
        simp [AuthStatement.effect, TokenTable.get?_revoke, hget]
      · exact (hlast login hlogin t' ht' heq).effect _
  | _ => simp [userRenewals] at hl

theorem userLogout_ends {settings : AuthSettings} {crypto : AuthCrypto} {db d : AuthDb}
    {log : List AuthStatement}
    (h : SerialLog (AuthRequest.program settings crypto) (UserLogsOutLast crypto) db log d)
    {before later : List AuthStatement} {tokenHash : String} {login : AuthStatement}
    (hsplit : log = before ++ .logout tokenHash :: later)
    (hlogin : userRenewals.Descends before login (.session tokenHash)) (t : UserToken)
    (ht : userRenewals.Descends log login t) : ¬d.Accepts settings crypto t := by
  have hhistory := h.history fun log d r hr => AuthRequest.writesFrom_program hr
  apply AuthDb.Dead.not_accepts
  refine Renewals.dead_of_ended (ρ := userRenewals) (P := AuthDb.Dead) ?_ ?_ hhistory ?_
    (by simp) hsplit rfl hlogin t ht
  · rintro log l d d' ⟨rfl, -⟩ t hdead
    exact hdead.effect l
  · exact fun log l d d' hg p issued hl => hg.not_dead_renewed hl
  · exact fun log l d d' hg t login hl hdesc => hg.dead_of_ended hl hdesc

/-! ## Administrators -/

def adminRenewals : Renewals AdminStatement AdminToken where
  opened
    | .login access renewal => [access.token, renewal.token]
    | _ => []
  renewed
    | .refresh used access renewal => some (used, [access.token, renewal.token])
    | _ => none
  ended
    | .logout token => some token
    | _ => none
  renewed_of_ended l t h := by
    cases l <;> simp at h ⊢

namespace AdminDb

def Dead (d : AdminDb) (token : AdminToken) : Prop :=
  ∃ row ∈ d.sessions.get? token, ¬row.Valid d.clock

/-- A request with the token is granted. -/
def Accepts (settings : AdminSettings) (d : AdminDb) (token : AdminToken) : Prop :=
  (∃ context, ((getAdminContext (some token)).exec d).1 = .ok context) ∨
    ∃ r reply, r.refreshToken = some token ∧ ((refreshAccess settings r).exec d).1 = .ok reply

end AdminDb

theorem AdminDb.Dead.effect {d : AdminDb} {token : AdminToken} (h : d.Dead token)
    (l : AdminStatement) : (l.effect d).Dead token := by
  obtain ⟨row, hget, hinvalid⟩ := h
  obtain ⟨row', hget', hexpires, hrevoked⟩ := l.sessions_later (Option.mem_def.1 hget)
  refine ⟨row', hget', fun hvalid => hinvalid ⟨?_, ?_⟩⟩
  · by_contra hr
    have hlive := hvalid.1
    rw [hrevoked (by simpa using hr)] at hlive
    cases hlive
  · have hle := l.clock_le_effect d
    have := hvalid.2
    omega

theorem AdminDb.Dead.not_accepts {settings : AdminSettings} {d : AdminDb} {token : AdminToken}
    (h : d.Dead token) : ¬d.Accepts settings token := by
  obtain ⟨row, hget, hinvalid⟩ := h
  rintro (⟨context, hexec⟩ | ⟨r, reply, htoken, hexec⟩)
  · obtain ⟨token', row', admin, htoken, hof⟩ := getAdminContext_spec hexec
    cases htoken
    obtain rfl : row = row' := Option.some.inj (Option.mem_def.1 hget ▸ hof.stored)
    exact hinvalid hof.valid
  · obtain ⟨token', row', htoken', hget', hvalid⟩ := refreshAccess_granted hexec
    obtain rfl : token = token' := Option.some.inj (htoken.symm.trans htoken')
    obtain rfl : row = row' := Option.some.inj (Option.mem_def.1 hget ▸ hget')
    exact hinvalid hvalid

def AdminLogoutLast (log : List AdminStatement) (d : AdminDb) (token : AdminToken) : Prop :=
  ∀ login, adminRenewals.Descends log login token →
    ∀ t, adminRenewals.Descends log login t → t ≠ token → d.Dead t

def AdminLogsOutLast (log : List AdminStatement) (d : AdminDb) (r : AdminRequest) : Prop :=
  ∀ token, r = .logout (some token) → AdminLogoutLast log d token

def AdminSerial (log : List AdminStatement) (l : AdminStatement) (d d' : AdminDb) : Prop :=
  d' = l.effect d ∧
    match l with
    | .refresh used _ _ => ∃ row ∈ d.sessions.get? used, row.Valid d.clock
    | .logout token => (d.sessions.get? token).isSome = true ∧ AdminLogoutLast log d token
    | _ => True

theorem AdminRequest.writesFrom_program {settings : AdminSettings} {crypto : AdminCrypto}
    {log : List AdminStatement} {d : AdminDb} {r : AdminRequest} (h : AdminLogsOutLast log d r) :
    (r.program settings crypto).WritesFrom AdminSerial log d := by
  cases r with
  | tick seconds =>
      exact Writes.writesFrom ((writes_commitAdmin fun _ _ => ⟨rfl, trivial⟩).bind
        fun _ => writes_ret _) _ _
  | login r =>
      rw [AdminRequest.program]
      exact (writes_adminLogin settings crypto r fun _ _ _ _ _ => ⟨rfl, trivial⟩).writesFrom _ _
  | refresh r =>
      rw [AdminRequest.program]
      apply writesFrom_refreshAccess
      intro token row admin now _ _ hrow hvalid _
      exact ⟨rfl, row, hrow, hvalid⟩
  | logout token =>
      rw [AdminRequest.program]
      apply writesFrom_adminLogout
      rintro token row rfl hrow
      exact ⟨rfl, by simp [hrow], h token rfl⟩
  | setupMfa token secret =>
      rw [AdminRequest.program]
      exact (writes_setupMfa token secret fun _ _ _ _ => ⟨rfl, trivial⟩).writesFrom _ _
  | verifyMfa token code =>
      rw [AdminRequest.program]
      exact (writes_verifyMfa crypto token code fun _ _ _ _ _ => ⟨rfl, trivial⟩).writesFrom _ _
  | disableMfa token =>
      rw [AdminRequest.program]
      exact (writes_disableMfa token fun _ _ _ => ⟨rfl, trivial⟩).writesFrom _ _

theorem AdminSerial.not_dead_renewed {log : List AdminStatement} {l : AdminStatement}
    {d d' : AdminDb} (h : AdminSerial log l d d') {p : AdminToken} {issued : List AdminToken}
    (hl : adminRenewals.renewed l = some (p, issued)) : ¬d.Dead p := by
  cases l with
  | refresh used access renewal =>
      simp only [adminRenewals, Option.some.injEq, Prod.mk.injEq] at hl
      obtain ⟨rfl, -⟩ := hl
      rintro ⟨row, hget, hinvalid⟩
      obtain ⟨row', hget', hvalid⟩ := h.2
      obtain rfl : row = row' := Option.some.inj (Option.mem_def.1 hget ▸ hget')
      exact hinvalid hvalid
  | _ => simp [adminRenewals] at hl

theorem AdminSerial.dead_of_ended {log : List AdminStatement} {l : AdminStatement}
    {d d' : AdminDb} (h : AdminSerial log l d d') {t : AdminToken} {login : AdminStatement}
    (hl : adminRenewals.ended l = some t) (hlogin : adminRenewals.Descends log login t) :
    ∀ t', adminRenewals.Descends log login t' → d'.Dead t' := by
  intro t' ht'
  cases l with
  | logout token =>
      simp only [adminRenewals, Option.some.injEq] at hl
      subst hl
      obtain ⟨rfl, hrow, hlast⟩ := h
      by_cases heq : t' = token
      · subst heq
        obtain ⟨row, hget⟩ := Option.isSome_iff_exists.1 hrow
        refine ⟨{ row with revoked := true }, ?_, fun hvalid => by cases hvalid.1⟩
        simp [AdminStatement.effect, AdminSessions.get?_revoke, hget]
      · exact (hlast login hlogin t' ht' heq).effect _
  | _ => simp [adminRenewals] at hl

theorem adminLogout_ends {settings : AdminSettings} {crypto : AdminCrypto} {db d : AdminDb}
    {log : List AdminStatement}
    (h : SerialLog (AdminRequest.program settings crypto) AdminLogsOutLast db log d)
    {before later : List AdminStatement} {token : AdminToken} {login : AdminStatement}
    (hsplit : log = before ++ .logout token :: later)
    (hlogin : adminRenewals.Descends before login token) (t : AdminToken)
    (ht : adminRenewals.Descends log login t) : ¬d.Accepts settings t := by
  have hhistory := h.history fun log d r hr => AdminRequest.writesFrom_program hr
  apply AdminDb.Dead.not_accepts
  refine Renewals.dead_of_ended (ρ := adminRenewals) (P := AdminDb.Dead) ?_ ?_ hhistory ?_
    (by simp) hsplit rfl hlogin t ht
  · rintro log l d d' ⟨rfl, -⟩ t hdead
    exact hdead.effect l
  · exact fun log l d d' hg p issued hl => hg.not_dead_renewed hl
  · exact fun log l d d' hg t login hl hdesc => hg.dead_of_ended hl hdesc

/-! ## Both systems -/

instance AuthDb.Dead.decidable (d : AuthDb) : ∀ t, Decidable (d.Dead t)
  | .session _ => by unfold AuthDb.Dead; infer_instance
  | .refresh _ => by unfold AuthDb.Dead; infer_instance

instance AdminDb.Dead.decidable (d : AdminDb) (t : AdminToken) : Decidable (d.Dead t) := by
  unfold AdminDb.Dead
  infer_instance

def newUser : AuthDb where
  users := .single { id := 1, email := "user@example.com", hashedPassword := some "secret" }

def firstLogin : AuthRequest :=
  .login { email := "user@example.com", password := "secret", sessionToken := "s0",
           refreshToken := "r0" }

/-- What the first login commits. -/
def firstLoginCommit : AuthStatement :=
  .login 1 "secret" { tokenHash := "s0", userId := 1, expiresAt := 3600 }
    { tokenHash := "r0", userId := 1, expiresAt := 604800 }

def userRun (calls : List AuthRequest) : List AuthStatement × AuthDb :=
  execCalls (AuthRequest.program {} plainCrypto) calls ([], newUser)

/-- A logout after the refresh token of the login has expired. -/
def lateLogout : List AuthRequest := [firstLogin, .tick 700000, .logout (some "s0")]

theorem admitsCalls_lateLogout :
    AdmitsCalls (AuthRequest.program {} plainCrypto) (UserLogsOutLast plainCrypto) lateLogout
      ([], newUser) := by
  refine ⟨nofun, nofun, ?_, trivial⟩
  rintro token heq login _ t ht hne
  obtain ⟨hmem, ht⟩ := ht.mem_opened (by decide +kernel)
  have hdead : ∀ login ∈ (userRun (lateLogout.take 2)).1, ∀ t ∈ userRenewals.opened login,
      t ≠ .session "s0" → (userRun (lateLogout.take 2)).2.Dead t := by decide +kernel
  cases heq
  exact hdead login hmem t ht hne

def newAdmin : AdminDb where
  users := .single { id := 1, email := "admin@example.com", hashedPassword := some "secret" }
  adminUsers := .single { id := 1, userId := 1, role := "viewer" }

def firstAdminLogin : AdminRequest :=
  .login { email := "admin@example.com", password := "secret", accessJti := "a0",
           refreshJti := "r0" }

/-- Refresh tokens are only good for a moment. -/
def briefRefresh : AdminSettings where
  refreshTokenTtl := 0

def firstAccessToken : AdminToken :=
  { type := .access, adminId := 1, userId := 1, expiresAt := 1800, jti := "a0" }

def firstRenewalToken (settings : AdminSettings) : AdminToken :=
  { type := .refresh, adminId := 1, userId := 1, expiresAt := settings.refreshTokenTtl,
    jti := "r0" }

/-- What the first login of the administrator commits. -/
def firstAdminLoginCommit (settings : AdminSettings) : AdminStatement :=
  .login { token := firstAccessToken, userId := 1, adminUserId := 1, expiresAt := 1800 }
    { token := firstRenewalToken settings, userId := 1, adminUserId := 1,
      expiresAt := settings.refreshTokenTtl }

def adminRun (settings : AdminSettings) (calls : List AdminRequest) :
    List AdminStatement × AdminDb :=
  execCalls (AdminRequest.program settings plainAdminCrypto) calls ([], newAdmin)

def adminLogoutCalls : List AdminRequest := [firstAdminLogin, .logout (some firstAccessToken)]

theorem admitsCalls_adminLogoutCalls :
    AdmitsCalls (AdminRequest.program briefRefresh plainAdminCrypto) AdminLogsOutLast
      adminLogoutCalls ([], newAdmin) := by
  refine ⟨nofun, ?_, trivial⟩
  rintro token heq login _ t ht hne
  obtain ⟨hmem, ht⟩ := ht.mem_opened (by decide +kernel)
  have hdead : ∀ login ∈ (adminRun briefRefresh [firstAdminLogin]).1,
      ∀ t ∈ adminRenewals.opened login, t ≠ firstAccessToken →
        (adminRun briefRefresh [firstAdminLogin]).2.Dead t := by decide +kernel
  cases heq
  exact hdead login hmem t ht hne

/-- The refresh token of the login outlives the logout. -/
def refreshAfterLogout : List AuthRequest :=
  [firstLogin, .logout (some "s0"),
   .refresh { refreshToken := some "r0", newSessionToken := "s1", newRefreshToken := "r1" }]

def adminRefreshAfterLogout : List AdminRequest :=
  [firstAdminLogin, .logout (some firstAccessToken),
   .refresh { refreshToken := some (firstRenewalToken {}), accessJti := "a1", refreshJti := "r1" }]

theorem serialLog_userRun (calls : List AuthRequest) :
    SerialLog (AuthRequest.program {} plainCrypto) (fun _ _ _ => True) newUser (userRun calls).1
      (userRun calls).2 := serialLog_execCalls .nil (admitsCalls_true _ _ _)

theorem serialLog_adminRun (settings : AdminSettings) (calls : List AdminRequest) :
    SerialLog (AdminRequest.program settings plainAdminCrypto) (fun _ _ _ => True) newAdmin
      (adminRun settings calls).1 (adminRun settings calls).2 :=
  serialLog_execCalls .nil (admitsCalls_true _ _ _)

def secondAccessToken : AdminToken := { firstAccessToken with jti := "a1" }

def refreshCommit : AuthStatement :=
  .refresh "r0" { tokenHash := "s1", userId := 1, expiresAt := 3600 }
    { tokenHash := "r1", userId := 1, expiresAt := 604800 }

def adminRefreshCommit : AdminStatement :=
  .refresh (firstRenewalToken {})
    { token := secondAccessToken, userId := 1, adminUserId := 1, expiresAt := 1800 }
    { token := { firstRenewalToken {} with jti := "r1" }, userId := 1, adminUserId := 1,
      expiresAt := 604800 }

end Zyntry
