import Zyntry.LoginChains
import Zyntry.RefreshRotation

/-!
# A password reset ends earlier access

A reset revokes the sessions and refresh tokens that it has read and leaves the other reset
codes and tokens of the user alone, while requests that read their credentials before it may
still commit after it. It ends all earlier access if at its commit nothing else of the user
is left to be accepted, and if every request still finds its credentials good when it commits.
-/

namespace Zyntry

open SqlProgram

/-- What is issued by one request and presented in another. -/
inductive AuthItem where
  | session (tokenHash : String)
  | refreshToken (tokenHash : String)
  /-- A reset code or a reset token. -/
  | reset (tokenHash : String)
deriving DecidableEq, Repr

namespace AuthStatement

def issues : AuthStatement → List AuthItem
  | .login _ _ session renewal => [.session session.tokenHash, .refreshToken renewal.tokenHash]
  | .refresh _ session renewal => [.session session.tokenHash, .refreshToken renewal.tokenHash]
  | .forgotPassword code => [.reset code.tokenHash]
  | .verifyResetCode _ token => [.reset token.tokenHash]
  | _ => []

/-- The item that a request is granted for. -/
def accepts : AuthStatement → Option AuthItem
  | .refresh used _ _ => some (.refreshToken used)
  | .verifyResetCode code _ => some (.reset code)
  | .resetPassword token _ _ _ _ => some (.reset token)
  | _ => none

/-- The statement sets the user's password. -/
def Sets (userId : ℕ) (hashedPassword : String) : AuthStatement → Prop
  | .resetPassword _ u p _ _ => u = userId ∧ p = hashedPassword
  | _ => False

end AuthStatement

/-- An item of the user was there when the reset in `d` committed, or it was issued after it
for such an item or for a password that neither this reset nor a later one has set. -/
inductive Stale (userId : ℕ) (newHash : String) (d : AuthDb) (later : List AuthStatement) :
    AuthItem → Prop
  | session {k : String} {row : TokenRow} : d.sessions.get? k = some row → row.userId = userId →
      Stale userId newHash d later (.session k)
  | refreshToken {k : String} {row : TokenRow} : d.refreshTokens.get? k = some row →
      row.userId = userId → Stale userId newHash d later (.refreshToken k)
  | reset {k : String} {row : ResetRow} : d.resetTokens.get? k = some row →
      row.userId = userId → Stale userId newHash d later (.reset k)
  | exchanged {l : AuthStatement} {item item' : AuthItem} : Stale userId newHash d later item →
      l ∈ later → l.accepts = some item → item' ∈ l.issues → Stale userId newHash d later item'
  | login {p : String} {session renewal : TokenRow} {item : AuthItem} :
      .login userId p session renewal ∈ later → p ≠ newHash → (∀ l ∈ later, ¬l.Sets userId p) →
      item ∈ (AuthStatement.login userId p session renewal).issues →
      Stale userId newHash d later item

/-- The item is accepted. -/
def AuthDb.Grants (settings : AuthSettings) (crypto : AuthCrypto) (d : AuthDb) :
    AuthItem → Prop
  | .session k => ∃ user, d.sessionUser k = some user
  | item => ∃ r : AuthRequest, ∃ l ∈ (r.program settings crypto).execLog d, l.accepts = some item

/-! ## The condition -/

/-- The other items of the user that are still accepted are exactly those that the reset
revokes. -/
structure ResetCovers (d : AuthDb) (tokenHash : String) (userId : ℕ)
    (sessions refreshTokens : List String) : Prop where
  token : ∃ row ∈ d.resetTokens.get? tokenHash, row.Valid d.clock
  sessions : ∀ row ∈ d.sessions.rows, row.userId = userId → row.revoked = false →
    row.tokenHash ∈ sessions
  refreshTokens : ∀ row ∈ d.refreshTokens.rows, row.userId = userId → row.revoked = false →
    row.tokenHash ∈ refreshTokens
  others : ∀ row ∈ d.resetTokens.rows, row.userId = userId → row.tokenHash ≠ tokenHash →
    ¬row.Valid d.clock

instance ResetCovers.decidable (d : AuthDb) (tokenHash : String) (userId : ℕ)
    (sessions refreshTokens : List String) :
    Decidable (ResetCovers d tokenHash userId sessions refreshTokens) :=
  decidable_of_iff
    ((∃ row ∈ d.resetTokens.get? tokenHash, row.Valid d.clock) ∧
      (∀ row ∈ d.sessions.rows, row.userId = userId → row.revoked = false →
        row.tokenHash ∈ sessions) ∧
      (∀ row ∈ d.refreshTokens.rows, row.userId = userId → row.revoked = false →
        row.tokenHash ∈ refreshTokens) ∧
      ∀ row ∈ d.resetTokens.rows, row.userId = userId → row.tokenHash ≠ tokenHash →
        ¬row.Valid d.clock)
    ⟨fun ⟨h₁, h₂, h₃, h₄⟩ => ⟨h₁, h₂, h₃, h₄⟩, fun ⟨h₁, h₂, h₃, h₄⟩ => ⟨h₁, h₂, h₃, h₄⟩⟩

/-- A commit finds what its request has checked as good as before. -/
def StillGood (_ : List AuthStatement) (l : AuthStatement) (d : AuthDb) : Prop :=
  match l with
  | .login userId p _ _ => ∃ user ∈ d.users.get? userId, user.hashedPassword = some p
  | .refresh used _ _ => ∃ row ∈ d.refreshTokens.get? used, row.revoked = false
  | .verifyResetCode code _ => ∃ row ∈ d.resetTokens.get? code, row.Valid d.clock
  | .resetPassword token userId _ sessions refreshTokens =>
      ResetCovers d token userId sessions refreshTokens
  | _ => True

instance StillGood.decidable (log : List AuthStatement) :
    (l : AuthStatement) → (d : AuthDb) → Decidable (StillGood log l d)
  | .login userId p _ _, d =>
      inferInstanceAs (Decidable (∃ user ∈ d.users.get? userId, user.hashedPassword = some p))
  | .refresh used _ _, d =>
      inferInstanceAs (Decidable (∃ row ∈ d.refreshTokens.get? used, row.revoked = false))
  | .verifyResetCode code _, d =>
      inferInstanceAs (Decidable (∃ row ∈ d.resetTokens.get? code, row.Valid d.clock))
  | .resetPassword token userId _ sessions refreshTokens, d =>
      inferInstanceAs (Decidable (ResetCovers d token userId sessions refreshTokens))
  | .read, _ | .tick _, _ | .logout _, _ | .forgotPassword _, _ => .isTrue trivial

/-- A commit of a run that meets the condition. -/
def GoodCommit (log : List AuthStatement) (l : AuthStatement) (d d' : AuthDb) : Prop :=
  StillGood log l d ∧ d' = l.effect d

/-! ## Items that are dead for good -/

/-- Rows of reset tokens are only added and marked as used. -/
theorem AuthStatement.resetTokens_later (l : AuthStatement) {d : AuthDb} {k : String}
    {row : ResetRow} (h : d.resetTokens.get? k = some row) :
    ∃ row', (l.effect d).resetTokens.get? k = some row' ∧ row'.expiresAt = row.expiresAt ∧
      (row.used = true → row'.used = true) := by
  have hused : ∀ k', ∃ row', (d.useReset k').get? k = some row' ∧
      row'.expiresAt = row.expiresAt ∧ (row.used = true → row'.used = true) := by
    intro k'
    by_cases hk : k = k'
    · subst hk
      refine ⟨{ row with used := true }, ?_, rfl, fun _ => rfl⟩
      rw [AuthDb.useReset, RowTable.get?_update_self, h, Option.map_some]
    · exact ⟨row, by rw [AuthDb.useReset, RowTable.get?_update_of_ne _ hk, h], rfl, id⟩
  cases l with
  | forgotPassword code => exact ⟨row, RowTable.get?_insert_of_some h, rfl, id⟩
  | verifyResetCode code token =>
      obtain ⟨row', hrow', hexpires, hmark⟩ := hused code
      exact ⟨row', RowTable.get?_insert_of_some hrow', hexpires, hmark⟩
  | resetPassword token userId p sessions refreshTokens => exact hused token
  | _ => exact ⟨row, h, rfl, id⟩

def AuthDb.ItemDead (d : AuthDb) : AuthItem → Prop
  | .session k => TokenTable.Spent d.sessions k
  | .refreshToken k => TokenTable.Spent d.refreshTokens k
  | .reset k => ∃ row ∈ d.resetTokens.get? k, ¬row.Valid d.clock

theorem TokenTable.Later.spent {t t' : TokenTable} (h : TokenTable.Later t t') {k : String}
    (hspent : TokenTable.Spent t k) : TokenTable.Spent t' k := by
  obtain ⟨row, hget, hrevoked⟩ := hspent
  obtain ⟨row', hget', -, hkept⟩ := h.kept k row hget
  exact ⟨row', hget', hkept hrevoked⟩

theorem AuthDb.ItemDead.effect {d : AuthDb} {item : AuthItem} (h : d.ItemDead item)
    (l : AuthStatement) : (l.effect d).ItemDead item := by
  cases item with
  | session k => exact (l.sessions_later d).spent h
  | refreshToken k => exact (l.refreshTokens_later d).spent h
  | reset k =>
      obtain ⟨row, hget, hinvalid⟩ := h
      obtain ⟨row', hget', hexpires, hused⟩ := l.resetTokens_later (Option.mem_def.1 hget)
      refine ⟨row', hget', fun hvalid => hinvalid ⟨?_, ?_⟩⟩
      · by_contra hu
        have hlive := hvalid.1
        rw [hused (by simpa using hu)] at hlive
        cases hlive
      · have hle := l.clock_le_effect d
        have := hvalid.2
        omega

theorem AuthDb.not_itemDead_refreshToken {d : AuthDb} {k : String}
    (h : ∃ row ∈ d.refreshTokens.get? k, row.revoked = false) : ¬d.ItemDead (.refreshToken k) := by
  obtain ⟨row, hget, hlive⟩ := h
  rintro ⟨row', hget', hrevoked⟩
  obtain rfl : row = row' := Option.mem_unique hget hget'
  rw [hlive] at hrevoked
  cases hrevoked

theorem AuthDb.not_itemDead_reset {d : AuthDb} {k : String}
    (h : ∃ row ∈ d.resetTokens.get? k, row.Valid d.clock) : ¬d.ItemDead (.reset k) := by
  obtain ⟨row, hget, hvalid⟩ := h
  rintro ⟨row', hget', hinvalid⟩
  obtain rfl : row = row' := Option.mem_unique hget hget'
  exact hinvalid hvalid

/-- A commit that meets the condition accepts no dead item. -/
theorem StillGood.not_dead {log : List AuthStatement} {l : AuthStatement} {d : AuthDb}
    (h : StillGood log l d) {item : AuthItem} (hl : l.accepts = some item) : ¬d.ItemDead item := by
  cases l with
  | refresh used session renewal =>
      cases hl
      exact AuthDb.not_itemDead_refreshToken h
  | verifyResetCode code token =>
      cases hl
      exact AuthDb.not_itemDead_reset h
  | resetPassword token userId p sessions refreshTokens =>
      cases hl
      exact AuthDb.not_itemDead_reset h.token
  | _ => cases hl

/-! ## Nothing dead is granted -/

/-- A request that runs alone accepts no dead item. -/
theorem AuthRequest.forall_execLog_not_dead (settings : AuthSettings) (crypto : AuthCrypto)
    (r : AuthRequest) (d : AuthDb) : ∀ l ∈ (r.program settings crypto).execLog d,
      ∀ item, l.accepts = some item → ¬d.ItemDead item := by
  suffices h : (r.program settings crypto).WritesFrom
      (fun _ l _ _ => ∀ item, l.accepts = some item → ¬d.ItemDead item) [] d from h.forall_execLog
  cases r with
  | tick seconds =>
      rw [AuthRequest.program, writesFrom_commitAuth]
      exact ⟨by rintro _ ⟨⟩, writesFrom_ret _⟩
  | login r =>
      rw [AuthRequest.program]
      exact (writes_login settings crypto r fun _ _ _ _ _ _ => by rintro _ ⟨⟩).writesFrom _ _
  | refresh r =>
      rw [AuthRequest.program]
      apply writesFrom_refresh
      intro k s t haccepts item hitem
      obtain ⟨row, hrow, hvalid, -⟩ := haccepts
      cases hitem
      exact AuthDb.not_itemDead_refreshToken ⟨row, hrow, hvalid.1⟩
  | logout sessionToken =>
      rw [AuthRequest.program]
      exact (writes_logout crypto sessionToken fun _ _ _ => by rintro _ ⟨⟩).writesFrom _ _
  | forgotPassword email code =>
      rw [AuthRequest.program]
      exact (writes_forgotPassword crypto email code fun _ _ _ => by rintro _ ⟨⟩).writesFrom _ _
  | verifyResetCode email code newToken =>
      rw [AuthRequest.program]
      apply writesFrom_verifyResetCode
      intro k t hrow item hitem
      cases hitem
      exact AuthDb.not_itemDead_reset hrow
  | resetPassword resetToken password newHash =>
      rw [AuthRequest.program]
      apply writesFrom_resetPassword
      intro k u ss ts hrow item hitem
      cases hitem
      exact AuthDb.not_itemDead_reset hrow

theorem AuthDb.ItemDead.not_grants {settings : AuthSettings} {crypto : AuthCrypto} {d : AuthDb}
    {item : AuthItem} (h : d.ItemDead item) : ¬d.Grants settings crypto item := by
  have hnone : ¬∃ r : AuthRequest, ∃ l ∈ (r.program settings crypto).execLog d,
      l.accepts = some item :=
    fun ⟨r, l, hl, hitem⟩ => r.forall_execLog_not_dead settings crypto d l hl item hitem h
  cases item with
  | session k =>
      intro huser
      obtain ⟨row, hget, hrevoked⟩ := h
      obtain ⟨row', hget', hvalid, -⟩ := acceptsSession_iff.mpr huser
      obtain rfl : row = row' := Option.some.inj (Option.mem_def.1 hget ▸ hget')
      exact Bool.false_ne_true (hvalid.1.symm.trans hrevoked)
  | refreshToken k => exact hnone
  | reset k => exact hnone

/-! ## Single use -/

theorem AuthStatement.reset_dies {log : List AuthStatement} {l : AuthStatement} {d : AuthDb}
    {k : String} (h : StillGood log l d) (hl : l.accepts = some (.reset k)) :
    (∃ row ∈ d.resetTokens.get? k, row.used = false) ∧
      ∃ row ∈ (l.effect d).resetTokens.get? k, row.used = true := by
  have hmark : (∃ row ∈ d.resetTokens.get? k, row.Valid d.clock) →
      (∃ row ∈ d.resetTokens.get? k, row.used = false) ∧
        ∃ row, (d.useReset k).get? k = some row ∧ row.used = true := by
    rintro ⟨row, hget, hvalid⟩
    refine ⟨⟨row, hget, hvalid.1⟩, { row with used := true }, ?_, rfl⟩
    rw [AuthDb.useReset, RowTable.get?_update_self, Option.mem_def.1 hget, Option.map_some]
  cases l with
  | verifyResetCode code token =>
      cases hl
      obtain ⟨hlive, row, hget, hused⟩ := hmark h
      exact ⟨hlive, row, RowTable.get?_insert_of_some hget, hused⟩
  | resetPassword token userId p sessions refreshTokens =>
      cases hl
      exact hmark h.token
  | _ => cases hl

theorem reset_acceptedOnce {d₀ d : AuthDb} {log : List AuthStatement}
    (h : History GoodCommit [] d₀ log d) (k : String) :
    log.countP (fun l => l.accepts = some (.reset k)) ≤ 1 := by
  apply h.countP_le_one (P := fun d => ¬∃ row ∈ d.resetTokens.get? k, row.used = true)
  · rintro log l d d' ⟨hgood, rfl⟩ hl
    obtain ⟨⟨row, hget, hlive⟩, hused⟩ := AuthStatement.reset_dies hgood (by simpa using hl)
    refine ⟨?_, not_not_intro hused⟩
    rintro ⟨row', hget', hused'⟩
    obtain rfl : row = row' := Option.mem_unique hget hget'
    rw [hlive] at hused'
    cases hused'
  · rintro log l d d' ⟨-, rfl⟩ hused
    obtain ⟨row, hget, hmark⟩ := not_not.1 hused
    obtain ⟨row', hget', -, hkept⟩ := l.resetTokens_later (Option.mem_def.1 hget)
    exact not_not_intro ⟨row', hget', hkept hmark⟩

/-! ## After a reset -/

/-- A reset that covers the user leaves no item of the user alive. -/
theorem Stale.dead_of_reset {tokenHash newHash : String} {userId : ℕ}
    {sessions refreshTokens : List String} {d : AuthDb} {item : AuthItem}
    (hcovers : ResetCovers d tokenHash userId sessions refreshTokens)
    (h : Stale userId newHash d [] item) :
    ((AuthStatement.resetPassword tokenHash userId newHash sessions refreshTokens).effect
      d).ItemDead item := by
  have htable : ∀ (t : TokenTable) (ks : List String) (k : String) (row : TokenRow),
      t.get? k = some row → (row.revoked = false → row.tokenHash ∈ ks) →
        TokenTable.Spent (TokenTable.revokeAll t ks) k := by
    intro t ks k row hget hcovered
    refine ⟨_, by rw [TokenTable.get?_revokeAll, hget, Option.map_some], ?_⟩
    split_ifs with hk
    · rfl
    · have hkey := RowTable.get?_some_key hget
      by_contra hlive
      exact hk (hkey ▸ hcovered (by simpa using hlive))
  cases h with
  | @session k row hget huser =>
      exact htable d.sessions sessions k row hget fun hlive =>
        hcovers.sessions row (RowTable.get?_some_mem hget) huser hlive
  | @refreshToken k row hget huser =>
      exact htable d.refreshTokens refreshTokens k row hget fun hlive =>
        hcovers.refreshTokens row (RowTable.get?_some_mem hget) huser hlive
  | @reset k row hget huser =>
      by_cases hk : k = tokenHash
      · subst hk
        refine ⟨{ row with used := true }, ?_, fun hvalid => by cases hvalid.1⟩
        show (d.useReset k).get? k = _
        rw [AuthDb.useReset, RowTable.get?_update_self, hget, Option.map_some]
      · refine ⟨row, ?_, hcovers.others row (RowTable.get?_some_mem hget) huser ?_⟩
        · show (d.useReset tokenHash).get? k = _
          rw [AuthDb.useReset, RowTable.get?_update_of_ne _ hk, hget]
        · rw [RowTable.get?_some_key hget]
          exact hk
  | exchanged _ hl _ _ => exact absurd hl List.not_mem_nil
  | login hl _ _ _ => exact absurd hl List.not_mem_nil

/-- What a history keeps after the reset: the user's password is one set since, the items
from before are dead and none of them has been accepted. -/
structure SinceReset (userId : ℕ) (newHash : String) (d₁ : AuthDb) (later : List AuthStatement)
    (d : AuthDb) : Prop where
  password : ∀ user ∈ d.users.get? userId, ∀ p, user.hashedPassword = some p →
    p = newHash ∨ ∃ l ∈ later, l.Sets userId p
  dead : ∀ item, Stale userId newHash d₁ later item → d.ItemDead item
  unaccepted : ∀ item, Stale userId newHash d₁ later item → ∀ l ∈ later, l.accepts ≠ some item

namespace SinceReset

variable {userId : ℕ} {newHash : String} {d₁ d : AuthDb} {later log : List AuthStatement}
  {l : AuthStatement}

/-- A commit that meets the condition issues nothing that is stale. -/
theorem stale_of_concat (h : SinceReset userId newHash d₁ later d) (hgood : StillGood log l d)
    {item : AuthItem} (hstale : Stale userId newHash d₁ (later ++ [l]) item) :
    Stale userId newHash d₁ later item := by
  induction hstale with
  | session hget huser => exact .session hget huser
  | refreshToken hget huser => exact .refreshToken hget huser
  | reset hget huser => exact .reset hget huser
  | exchanged _ hl hitem hissued ih =>
      rcases List.mem_append.1 hl with hl | hl
      · exact .exchanged ih hl hitem hissued
      · obtain rfl := List.mem_singleton.1 hl
        exact absurd (h.dead _ ih) (hgood.not_dead hitem)
  | login hl hp hsets hissued =>
      have hnone : ∀ l' ∈ later, ¬l'.Sets userId _ :=
        fun l' hl' => hsets l' (List.mem_append_left _ hl')
      rcases List.mem_append.1 hl with hl | hl
      · exact .login hl hp hnone hissued
      · obtain rfl := List.mem_singleton.1 hl
        obtain ⟨user, huser, hhash⟩ := hgood
        rcases h.password user huser _ hhash with heq | ⟨l', hl', hset⟩
        · exact absurd heq hp
        · exact absurd hset (hnone l' hl')

theorem password_effect (h : SinceReset userId newHash d₁ later d) :
    ∀ user ∈ (l.effect d).users.get? userId, ∀ p, user.hashedPassword = some p →
      p = newHash ∨ ∃ l' ∈ later ++ [l], l'.Sets userId p := by
  have hkept : ∀ user ∈ d.users.get? userId, ∀ p, user.hashedPassword = some p →
      p = newHash ∨ ∃ l' ∈ later ++ [l], l'.Sets userId p := by
    intro user huser p hp
    rcases h.password user huser p hp with heq | ⟨l', hl', hset⟩
    · exact .inl heq
    · exact .inr ⟨l', List.mem_append_left _ hl', hset⟩
  cases l with
  | resetPassword tokenHash u q sessions refreshTokens =>
      intro user huser p hp
      by_cases hu : userId = u
      · subst hu
        have hget : (d.setPassword userId q).get? userId = some user := huser
        rw [AuthDb.setPassword, RowTable.get?_update_self] at hget
        obtain ⟨user', -, rfl⟩ := Option.map_eq_some_iff.1 hget
        obtain rfl : q = p := Option.some.inj hp
        exact .inr ⟨_, List.mem_append_right _ (List.mem_singleton_self _), rfl, rfl⟩
      · have hget : (d.setPassword u q).get? userId = some user := huser
        rw [AuthDb.setPassword, RowTable.get?_update_of_ne _ hu] at hget
        exact hkept user hget p hp
  | _ => exact hkept

theorem commit (h : SinceReset userId newHash d₁ later d) (hgood : StillGood log l d) :
    SinceReset userId newHash d₁ (later ++ [l]) (l.effect d) := by
  refine ⟨h.password_effect, ?_, ?_⟩
  · intro item hstale
    exact (h.dead item (h.stale_of_concat hgood hstale)).effect l
  · intro item hstale l' hl' haccepts
    have hearlier := h.stale_of_concat hgood hstale
    rcases List.mem_append.1 hl' with hl' | hl'
    · exact h.unaccepted item hearlier l' hl' haccepts
    · obtain rfl := List.mem_singleton.1 hl'
      exact hgood.not_dead haccepts (h.dead item hearlier)

end SinceReset

/-- After a reset that covers the user. -/
theorem sinceReset_start {tokenHash newHash : String} {userId : ℕ}
    {sessions refreshTokens : List String} {d : AuthDb}
    (hcovers : ResetCovers d tokenHash userId sessions refreshTokens) :
    SinceReset userId newHash d []
      ((AuthStatement.resetPassword tokenHash userId newHash sessions refreshTokens).effect d) := by
  refine ⟨?_, fun item h => h.dead_of_reset hcovers, fun _ _ _ hl => absurd hl List.not_mem_nil⟩
  intro user huser p hp
  have hget : (d.setPassword userId newHash).get? userId = some user := huser
  rw [AuthDb.setPassword, RowTable.get?_update_self] at hget
  obtain ⟨user', -, rfl⟩ := Option.map_eq_some_iff.1 hget
  exact .inl (Option.some.inj hp).symm

theorem sinceReset_history {d₀ d : AuthDb} {log before later : List AuthStatement}
    {tokenHash newHash : String} {userId : ℕ} {sessions refreshTokens : List String}
    (h : History GoodCommit [] d₀ log d)
    (hsplit : log = before ++
      .resetPassword tokenHash userId newHash sessions refreshTokens :: later) :
    SinceReset userId newHash (History.replay AuthStatement.effect d₀ before) later d := by
  subst hsplit
  obtain ⟨d₁, d₂, hbefore, ⟨hcovers, rfl⟩, hlater⟩ := h.split
  obtain rfl := hbefore.eq_replay fun _ _ _ _ hg => hg.2
  have hinv := hlater.invariant
    (I := fun log d => ∃ later', log = (before ++ [_]) ++ later' ∧
      SinceReset userId newHash (History.replay AuthStatement.effect d₀ before) later' d)
    ⟨[], (List.append_nil _).symm, sinceReset_start hcovers⟩ ?_
  · obtain ⟨later', heq, hsince⟩ := hinv
    obtain rfl : later = later' := by simpa using heq
    exact hsince
  · rintro log l d d' ⟨later', rfl, hsince⟩ ⟨hgood, rfl⟩
    exact ⟨later' ++ [l], List.append_assoc _ _ _, hsince.commit hgood⟩

variable {S : Type} [DecidableEq S]

/-- In every interleaving whose commits all find their credentials still good and whose
resets cover their user, reset codes and tokens are accepted at most once, and after a reset
nothing from before it is granted or has been accepted since. -/
theorem resetPassword_endsAccess (settings : AuthSettings) (crypto : AuthCrypto) (db : AuthDb)
    (requests : S → AuthRequest) (w : World S AuthDb AuthLock AuthStatement AuthError AuthReply)
    (hrun : World.Run (World.Commits StillGood) (authStart settings crypto db requests) w) :
    (∀ k, w.log.countP (fun l => l.accepts = some (.reset k)) ≤ 1) ∧
      ∀ before later tokenHash userId newHash sessions refreshTokens,
        w.log = before ++
          .resetPassword tokenHash userId newHash sessions refreshTokens :: later →
        ∀ item, Stale userId newHash (History.replay AuthStatement.effect db before) later item →
          ¬w.db.Grants settings crypto item ∧ ∀ l ∈ later, l.accepts ≠ some item := by
  have hhistory := hrun.history fun s => AuthRequest.writes_program settings crypto (requests s)
  refine ⟨reset_acceptedOnce hhistory, ?_⟩
  intro before later tokenHash userId newHash sessions refreshTokens hsplit item hstale
  have hsince := sinceReset_history hhistory hsplit
  exact ⟨(hsince.dead item hstale).not_grants, hsince.unaccepted item hstale⟩

/-! ## Runs of one user -/

def resetTokenText : String := "rst_abcdefghijklmnopqrstuvwxyz0123"

/-- One user with a session, a refresh token and a reset token. -/
def oneResetToken : AuthDb :=
  { oneRefreshToken with
    sessions := .single { tokenHash := "s0", userId := 1, expiresAt := 600 }
    resetTokens :=
      .single { tokenHash := resetTokenText, userId := 1, createdAt := 0, expiresAt := 600 } }

def resetThenRefresh : Bool → AuthRequest
  | false => .resetPassword resetTokenText "new password" "new hash"
  | true => .refresh
      { refreshToken := some "r0", newSessionToken := "s1", newRefreshToken := "r1" }

theorem resetPassword_endsAccess_inTurn :
    let w := (authStart {} plainCrypto oneResetToken resetThenRefresh).play inTurn
    w.log = [.resetPassword resetTokenText 1 "new hash" ["s0"] ["r0"]] ∧
      w.log.countP (fun l => l.accepts = some (.reset resetTokenText)) ≤ 1 ∧
      ¬w.db.Grants {} plainCrypto (.session "s0") ∧
      ¬w.db.Grants {} plainCrypto (.refreshToken "r0") := by
  intro w
  have hrun : World.Run (World.Commits StillGood)
      (authStart {} plainCrypto oneResetToken resetThenRefresh) w :=
    World.Run.start.play (by decide +kernel)
  have hlog : w.log = [.resetPassword resetTokenText 1 "new hash" ["s0"] ["r0"]] := by
    decide +kernel
  obtain ⟨honce, hafter⟩ := resetPassword_endsAccess {} plainCrypto oneResetToken
    resetThenRefresh w hrun
  exact ⟨hlog, honce resetTokenText,
    (hafter [] [] _ _ _ _ _ hlog _ (.session (k := "s0") rfl rfl)).1,
    (hafter [] [] _ _ _ _ _ hlog _ (.refreshToken (k := "r0") rfl rfl)).1⟩

/-- Two codes are sent, one of them is used for a reset, and then the other is presented. -/
def twoCodes : Fin 5 → AuthRequest
  | 0 => .forgotPassword "user@example.com" "ABC123"
  | 1 => .forgotPassword "user@example.com" "XYZ789"
  | 2 => .verifyResetCode "user@example.com" "ABC123" "abcdefghijklmnopqrstuvwxyz0123"
  | 3 => .resetPassword resetTokenText "new password" "new hash"
  | 4 => .verifyResetCode "user@example.com" "XYZ789" "zyxwvutsrqponmlkjihgfedcba3210"

def twoCodesInTurn : World (Fin 5) AuthDb AuthLock AuthStatement AuthError AuthReply :=
  (authStart {} plainCrypto newUser twoCodes).play
    ((List.finRange 5).flatMap (List.replicate 12))

/-- One code is presented twice. -/
def codeTwice : Fin 3 → AuthRequest
  | 0 => .forgotPassword "user@example.com" "ABC123"
  | 1 => .verifyResetCode "user@example.com" "ABC123" "abcdefghijklmnopqrstuvwxyz0123"
  | 2 => .verifyResetCode "user@example.com" "ABC123" "zyxwvutsrqponmlkjihgfedcba3210"

/-- Both requests read the code before either of them commits. -/
def codeReadTwice : List (Fin 3) :=
  (List.finRange 3).flatMap (fun s => List.replicate (if s.val = 0 then 12 else 3) s) ++
    (List.finRange 3).tail.flatMap (List.replicate 12)

/-- A code from before a reset is accepted after it, and two requests can use one code. -/
theorem code_accepted_after_reset :
    (∃ w, World.Reachable (authStart {} plainCrypto newUser twoCodes) w ∧
      ∃ before later sessions refreshTokens, w.log = before ++
          .resetPassword resetTokenText 1 "new hash" sessions refreshTokens :: later ∧
        Stale 1 "new hash" (History.replay AuthStatement.effect newUser before) later
          (.reset "XYZ789") ∧
        ∃ l ∈ later, l.accepts = some (.reset "XYZ789")) ∧
    ∃ w, World.Reachable (authStart {} plainCrypto newUser codeTwice) w ∧
      w.log.countP (fun l => l.accepts = some (.reset "ABC123")) = 2 := by
  refine ⟨⟨twoCodesInTurn, World.play_reachable _ _, twoCodesInTurn.log.take 3,
      twoCodesInTurn.log.drop 4, [], [], by decide +kernel, ?_, by decide +kernel⟩,
    _, World.play_reachable _ codeReadTwice, by decide +kernel⟩
  obtain ⟨row, hrow, huser⟩ : ∃ row ∈ (History.replay AuthStatement.effect newUser
      (twoCodesInTurn.log.take 3)).resetTokens.get? "XYZ789", row.userId = 1 := by
    decide +kernel
  exact .reset hrow huser

end Zyntry
