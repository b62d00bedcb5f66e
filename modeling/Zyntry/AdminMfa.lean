import Zyntry.LoginChains

/-!
# Provenance of the second factor

A token counts as verified if its claim, the administrator's row and its session say so. All
three are copied between logins: verifying marks the administrator and every open session,
and a refresh takes the administrator's mark over into the claim of the new token. The mark
of a token goes back to a verification in its own login if every refresh by a verified
administrator is made with a token of a login that was verified itself.
-/

namespace Zyntry

open SqlProgram

/-- The token descends from a login that was followed by a verification with one of its own
tokens. -/
def OwnVerification (log : List AdminStatement) (token : AdminToken) : Prop :=
  ∃ login before presented adminId sessions later,
    log = before ++ .verifyMfa presented adminId sessions :: later ∧
      adminRenewals.Descends before login presented ∧ adminRenewals.Descends log login token

theorem OwnVerification.append {log : List AdminStatement} {token : AdminToken}
    (h : OwnVerification log token) (l : AdminStatement) : OwnVerification (log ++ [l]) token := by
  obtain ⟨login, before, presented, adminId, sessions, later, rfl, hpresented, htoken⟩ := h
  exact ⟨login, before, presented, adminId, sessions, later ++ [l], by simp, hpresented,
    htoken.append [l]⟩

theorem OwnVerification.renewed {log : List AdminStatement} {used : AdminToken}
    (h : OwnVerification log used) (access renewal : AdminSessionRow) :
    OwnVerification (log ++ [.refresh used access renewal]) access.token := by
  obtain ⟨login, before, presented, adminId, sessions, later, rfl, hpresented, hused⟩ := h
  exact ⟨login, before, presented, adminId, sessions, later ++ [.refresh used access renewal],
    by simp, hpresented, .renewed (hused.append _)
      (List.mem_append_right _ (List.mem_singleton_self _)) rfl List.mem_cons_self⟩

/-- The administrator of a refresh is not marked as verified, or the login of the refresh
token was verified itself. -/
def RefreshVerified (log : List AdminStatement) (d : AdminDb) (r : AdminRequest) : Prop :=
  ∀ request token admin, r = .refresh request → request.refreshToken = some token →
    d.adminUsers.get? token.adminId = some admin → admin.mfaVerified = true →
      OwnVerification log token

/-- What is known of a commit in a run of such requests. -/
def MfaSerial (log : List AdminStatement) (l : AdminStatement) (d d' : AdminDb) : Prop :=
  d' = l.effect d ∧
    match l with
    | .login access renewal => access.token.mfaVerified = false ∧ renewal.token.mfaVerified = false
    | .refresh used access renewal => renewal.token.mfaVerified = false ∧
        (access.token.mfaVerified = true → OwnVerification log used)
    | _ => True

theorem AdminRequest.writesFrom_mfaSerial {settings : AdminSettings} {crypto : AdminCrypto}
    {log : List AdminStatement} {d : AdminDb} {r : AdminRequest} (h : RefreshVerified log d r) :
    (r.program settings crypto).WritesFrom MfaSerial log d := by
  cases r with
  | tick seconds =>
      exact Writes.writesFrom ((writes_commitAdmin fun _ _ => ⟨rfl, trivial⟩).bind
        fun _ => writes_ret _) _ _
  | login r =>
      rw [AdminRequest.program]
      exact (writes_adminLogin settings crypto r fun _ _ _ _ _ => ⟨rfl, rfl, rfl⟩).writesFrom _ _
  | refresh r =>
      rw [AdminRequest.program]
      apply writesFrom_refreshAccess
      intro token row admin now htoken _ _ _ hadmin
      exact ⟨rfl, rfl, fun hclaim => h r token admin rfl htoken hadmin hclaim⟩
  | logout token =>
      rw [AdminRequest.program]
      exact (writes_adminLogout token fun _ _ _ => ⟨rfl, trivial⟩).writesFrom _ _
  | setupMfa token secret =>
      rw [AdminRequest.program]
      exact (writes_setupMfa token secret fun _ _ _ _ => ⟨rfl, trivial⟩).writesFrom _ _
  | verifyMfa token code =>
      rw [AdminRequest.program]
      exact (writes_verifyMfa crypto token code fun _ _ _ _ _ => ⟨rfl, trivial⟩).writesFrom _ _
  | disableMfa token =>
      rw [AdminRequest.program]
      exact (writes_disableMfa token fun _ _ _ => ⟨rfl, trivial⟩).writesFrom _ _

/-! ## Stored tokens -/

def AdminStatement.issued : AdminStatement → List AdminToken
  | .login access renewal => [access.token, renewal.token]
  | .refresh _ access renewal => [access.token, renewal.token]
  | _ => []

/-- A token is stored only if it was before or is issued now. -/
theorem AdminStatement.stored_or_issued {l : AdminStatement} {d : AdminDb} {k : AdminToken}
    (h : (l.effect d).sessions.get? k ≠ none) :
    d.sessions.get? k ≠ none ∨ k ∈ l.issued := by
  by_contra hnot
  obtain ⟨hnone, hissued⟩ := not_or.1 hnot
  rw [not_not] at hnone
  apply h
  cases l with
  | login access renewal =>
      simp only [issued, List.mem_cons, List.not_mem_nil, or_false, not_or] at hissued
      rw [effect, RowTable.get?_insert_of_ne _ hissued.2, RowTable.get?_insert_of_ne _ hissued.1]
      exact hnone
  | refresh used access renewal =>
      simp only [issued, List.mem_cons, List.not_mem_nil, or_false, not_or] at hissued
      rw [effect, RowTable.get?_insert_of_ne _ hissued.2, RowTable.get?_insert_of_ne _ hissued.1,
        AdminSessions.get?_revoke, hnone, Option.map_none]
  | logout used => rw [effect, AdminSessions.get?_revoke, hnone, Option.map_none]
  | verifyMfa presented adminId sessions =>
      rw [effect, AdminSessions.get?_markVerified, hnone, Option.map_none]
  | _ => exact hnone

/-- The claim of every stored token goes back to a verification in its own login. -/
def ClaimsVerified (log : List AdminStatement) (d : AdminDb) : Prop :=
  ∀ token, d.sessions.get? token ≠ none → token.mfaVerified = true → OwnVerification log token

theorem ClaimsVerified.commit {log : List AdminStatement} {l : AdminStatement} {d d' : AdminDb}
    (h : ClaimsVerified log d) (hl : MfaSerial log l d d') : ClaimsVerified (log ++ [l]) d' := by
  intro token hstored hclaim
  obtain ⟨rfl, hl⟩ := hl
  rcases AdminStatement.stored_or_issued hstored with hold | hissued
  · exact (h token hold hclaim).append l
  · cases l with
    | login access renewal =>
        simp only [AdminStatement.issued, List.mem_cons, List.not_mem_nil, or_false] at hissued
        rcases hissued with rfl | rfl
        · rw [hl.1] at hclaim
          cases hclaim
        · rw [hl.2] at hclaim
          cases hclaim
    | refresh used access renewal =>
        simp only [AdminStatement.issued, List.mem_cons, List.not_mem_nil, or_false] at hissued
        rcases hissued with rfl | rfl
        · exact (hl.2 hclaim).renewed access renewal
        · rw [hl.1] at hclaim
          cases hclaim
    | _ => simp [AdminStatement.issued] at hissued

/-! ## Tokens that count as verified -/

/-- `get_admin_context` or `get_current_mfa_verified` takes the token as verified. -/
def AdminDb.TreatsAsVerified (d : AdminDb) (token : AdminToken) : Prop :=
  (∃ context, ((getAdminContext (some token)).exec d).1 = .ok context ∧
      context.mfaVerified = true) ∨
    ∃ admin, ((getCurrentMfaVerified (some token)).exec d).1 = .ok admin

theorem getCurrentMfaVerified_spec {d : AdminDb} {token : AdminToken} {admin : AdminUserRow}
    (h : ((getCurrentMfaVerified (some token)).exec d).1 = .ok admin) :
    token.mfaVerified = true ∧ d.sessions.get? token ≠ none := by
  have hkeeps : (getCurrentMfaVerified (some token)).Keeps (fun _ => True) d fun _ _ =>
      token.mfaVerified = true ∧ d.sessions.get? token ≠ none := by
    unfold getCurrentMfaVerified decodeToken requireAdminSession adminNow
    simp only [keeps_bind, keeps_orRaise, keeps_query, keeps_ensure, keeps_ret, pure_eq]
    rintro _ htoken _ hclaim _ row hrow _ _ _ _ _
    cases htoken
    exact ⟨hclaim, by simp [hrow]⟩
  exact hkeeps.exec (Prod.ext h rfl)

theorem AdminDb.TreatsAsVerified.claim {d : AdminDb} {token : AdminToken}
    (h : d.TreatsAsVerified token) : token.mfaVerified = true ∧ d.sessions.get? token ≠ none := by
  rcases h with ⟨context, hcontext, hverified⟩ | ⟨admin, hadmin⟩
  · obtain ⟨token', row, admin, htoken, hof⟩ := getAdminContext_spec hcontext
    cases htoken
    rw [hof.mfaVerified, Bool.and_eq_true, Bool.and_eq_true] at hverified
    exact ⟨hverified.1.1, by simp [hof.stored]⟩
  · exact getCurrentMfaVerified_spec hadmin

/-- If no verified administrator refreshes a login that was not verified itself, then every
token that counts as verified descends from a login that was verified with its own tokens. -/
theorem verified_ownVerification (settings : AdminSettings) (crypto : AdminCrypto) (db : AdminDb)
    (log : List AdminStatement) (d : AdminDb)
    (h : SerialLog (AdminRequest.program settings crypto) RefreshVerified
      { db with sessions := default } log d)
    (token : AdminToken) (hverified : d.TreatsAsVerified token) : OwnVerification log token := by
  have hhistory := h.history fun log d r hr => AdminRequest.writesFrom_mfaSerial hr
  have hclaims : ClaimsVerified log d :=
    hhistory.invariant (fun token hstored => absurd rfl hstored)
      fun log l d d' hd hl => hd.commit hl
  exact hclaims token hverified.claim.2 hverified.claim.1

/-! ## Two logins of one administrator -/

def setupCalls : List AdminRequest :=
  [firstAdminLogin, .setupMfa (some firstAccessToken) "totp",
   .verifyMfa (some firstAccessToken) "totp"]

def setupCommits : List AdminStatement :=
  [firstAdminLoginCommit {}, .setupMfa 1 "totp",
   .verifyMfa firstAccessToken 1 [firstAccessToken, firstRenewalToken {}]]

theorem adminRun_setupCalls : (adminRun {} setupCalls).1 = setupCommits := by decide +kernel

theorem ownVerification_setupCommits : OwnVerification setupCommits (firstRenewalToken {}) :=
  ⟨firstAdminLoginCommit {}, [firstAdminLoginCommit {}, .setupMfa 1 "totp"], firstAccessToken, 1,
    [firstAccessToken, firstRenewalToken {}], [], rfl, .opened (by decide) (by decide),
    .opened (by decide) (by decide)⟩

/-- The verified login goes on with its refresh token. -/
def ownRefresh : List AdminRequest :=
  setupCalls ++ [.refresh
    { refreshToken := some (firstRenewalToken {}), accessJti := "a1", refreshJti := "r1" }]

/-- The token of the refresh, whose claim says that it is verified. -/
def verifiedToken : AdminToken := { secondAccessToken with mfaVerified := true }

theorem admitsCalls_ownRefresh :
    AdmitsCalls (AdminRequest.program {} plainAdminCrypto) RefreshVerified ownRefresh
      ([], newAdmin) := by
  refine ⟨nofun, nofun, nofun, ?_, trivial⟩
  rintro request token admin heq htoken - -
  cases heq
  cases htoken
  have hown := ownVerification_setupCommits
  rw [← adminRun_setupCalls] at hown
  exact hown

theorem verified_ownVerification_ownRefresh :
    (adminRun {} ownRefresh).2.TreatsAsVerified verifiedToken ∧
      OwnVerification (adminRun {} ownRefresh).1 verifiedToken := by
  have hverified : (adminRun {} ownRefresh).2.TreatsAsVerified verifiedToken :=
    .inr (Python.exists_ok_iff.2 (by decide +kernel))
  exact ⟨hverified, verified_ownVerification {} plainAdminCrypto newAdmin _ _
    (serialLog_execCalls .nil admitsCalls_ownRefresh) verifiedToken hverified⟩

def laterRenewalToken : AdminToken := { firstRenewalToken {} with jti := "r2" }

/-- Somebody who only knows the password logs in later and refreshes. -/
def passwordOnly : List AdminRequest :=
  setupCalls ++
    [.login { email := "admin@example.com", password := "secret", accessJti := "a2",
              refreshJti := "r2" },
     .refresh { refreshToken := some laterRenewalToken, accessJti := "a3", refreshJti := "r3" }]

def passwordOnlyToken : AdminToken := { verifiedToken with jti := "a3" }

def passwordOnlyCommits : List AdminStatement :=
  setupCommits ++
    [.login
      { token := { firstAccessToken with jti := "a2" }, userId := 1, adminUserId := 1,
        expiresAt := 1800, mfaVerified := true }
      { token := laterRenewalToken, userId := 1, adminUserId := 1, expiresAt := 604800,
        mfaVerified := true },
     .refresh laterRenewalToken
      { token := passwordOnlyToken, userId := 1, adminUserId := 1, expiresAt := 1800,
        mfaVerified := true }
      { token := { firstRenewalToken {} with jti := "r3" }, userId := 1, adminUserId := 1,
        expiresAt := 604800, mfaVerified := true }]

theorem adminRun_passwordOnly : (adminRun {} passwordOnly).1 = passwordOnlyCommits := by
  decide +kernel

/-- The tokens of the two logins. -/
def chainOf (login : AdminStatement) : List AdminToken :=
  if login = firstAdminLoginCommit {} then [firstAccessToken, firstRenewalToken {}]
  else [{ firstAccessToken with jti := "a2" }, laterRenewalToken, passwordOnlyToken,
    { firstRenewalToken {} with jti := "r3" }]

theorem mem_chainOf {login : AdminStatement} {token : AdminToken}
    (h : adminRenewals.Descends (adminRun {} passwordOnly).1 login token) :
    token ∈ chainOf login := by
  refine h.of_closed ?_ ?_
  · have hopened : ∀ l ∈ (adminRun {} passwordOnly).1, ∀ t ∈ adminRenewals.opened l,
        t ∈ chainOf l := by decide +kernel
    exact hopened login h.login_mem
  · have hrenewed : ∀ l ∈ (adminRun {} passwordOnly).1, ∀ r ∈ adminRenewals.renewed l,
        r.1 ∈ chainOf login → ∀ t ∈ r.2, t ∈ chainOf login := by
      unfold chainOf
      split <;> decide +kernel
    exact fun l hl p issued hr => hrenewed l hl (p, issued) hr

/-- The refresh of a login without second factor is verified by the mark of an earlier one. -/
theorem verified_without_ownVerification :
    ∃ log d, SerialLog (AdminRequest.program {} plainAdminCrypto) (fun _ _ _ => True) newAdmin
        log d ∧
      d.TreatsAsVerified passwordOnlyToken ∧ ¬OwnVerification log passwordOnlyToken := by
  refine ⟨_, _, serialLog_adminRun {} passwordOnly, .inr (Python.exists_ok_iff.2
    (by decide +kernel)), ?_⟩
  rintro ⟨login, before, presented, adminId, sessions, later, hlog, hpresented, htoken⟩
  have hmem : AdminStatement.verifyMfa presented adminId sessions ∈ passwordOnlyCommits := by
    rw [← adminRun_passwordOnly, hlog]
    simp
  have hfirst : presented = firstAccessToken := by
    simp only [passwordOnlyCommits, setupCommits, firstAdminLoginCommit, List.cons_append,
      List.nil_append, List.mem_cons, reduceCtorEq, AdminStatement.verifyMfa.injEq,
      List.not_mem_nil, false_or, or_false] at hmem
    exact hmem.1
  have hpresented' : adminRenewals.Descends (adminRun {} passwordOnly).1 login presented := by
    rw [hlog]
    exact hpresented.append _
  have hleft := mem_chainOf hpresented'
  have hright := mem_chainOf htoken
  subst hfirst
  by_cases hlogin : login = firstAdminLoginCommit {}
  · rw [chainOf, if_pos hlogin] at hright
    exact absurd hright (by decide)
  · rw [chainOf, if_neg hlogin] at hleft
    exact absurd hleft (by decide)

end Zyntry
