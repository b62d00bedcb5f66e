import Zyntry.UserAuth
import Zyntry.AdminAuth

/-!
# One-time refresh tokens

A refresh reads the row of its token, checks it and marks it revoked without a lock or a
conditional update. The token is used once as long as each refresh still finds its row
unrevoked when it commits, for users and administrators alike.
-/

namespace Zyntry

open SqlProgram

variable {S : Type} [DecidableEq S]

/-- Any number of clients with one request each. -/
abbrev authStart (settings : AuthSettings) (crypto : AuthCrypto) (db : AuthDb)
    (requests : S → AuthRequest) : World S AuthDb AuthLock AuthStatement AuthError AuthReply :=
  World.start db fun s => (requests s).program settings crypto

abbrev adminStart (settings : AdminSettings) (crypto : AdminCrypto) (db : AdminDb)
    (requests : S → AdminRequest) :
    World S AdminDb AdminLock AdminStatement AdminError AdminReply :=
  World.start db fun s => (requests s).program settings crypto

/-! ## Users -/

/-- A new session and a new refresh token are committed in exchange for the token. -/
def AuthStatement.exchanges (tokenHash : String) : AuthStatement → Bool
  | .refresh used _ _ => used = tokenHash
  | _ => false

/-- A refresh commits only while its token is unrevoked. -/
def RefreshUnrevoked (_ : List AuthStatement) (l : AuthStatement) (d : AuthDb) : Prop :=
  match l with
  | .refresh used _ _ => ∃ row ∈ d.refreshTokens.get? used, row.revoked = false
  | _ => True

instance RefreshUnrevoked.decidable (log : List AuthStatement) (l : AuthStatement) (d : AuthDb) :
    Decidable (RefreshUnrevoked log l d) := by
  unfold RefreshUnrevoked
  split <;> infer_instance

theorem AuthStatement.spent_of_exchanges {log : List AuthStatement} {l : AuthStatement}
    {d : AuthDb} {tokenHash : String} (hown : RefreshUnrevoked log l d)
    (hl : l.exchanges tokenHash = true) :
    ¬TokenTable.Spent d.refreshTokens tokenHash ∧
      TokenTable.Spent (l.effect d).refreshTokens tokenHash := by
  cases l with
  | refresh used session refreshToken =>
      obtain rfl : used = tokenHash := by simpa [exchanges] using hl
      obtain ⟨row, hrow, hlive⟩ := hown
      have hget : d.refreshTokens.get? used = some row := hrow
      constructor
      · rintro ⟨row', hget', hrevoked⟩
        obtain rfl : row = row' := Option.some.inj (hget.symm.trans hget')
        exact absurd hrevoked (by simp [hlive])
      · have hspent : TokenTable.Spent (TokenTable.revoke d.refreshTokens used) used :=
          ⟨{ row with revoked := true }, by simp [TokenTable.get?_revoke, hget], rfl⟩
        exact hspent.insert refreshToken
  | _ => simp [exchanges] at hl

theorem userRefresh_once {settings : AuthSettings} {crypto : AuthCrypto} {db : AuthDb}
    {requests : S → AuthRequest} {w : World S AuthDb AuthLock AuthStatement AuthError AuthReply}
    (hrun : World.Run (World.Commits RefreshUnrevoked) (authStart settings crypto db requests) w)
    (tokenHash : String) : w.log.countP (AuthStatement.exchanges tokenHash) ≤ 1 := by
  have hhistory := hrun.history fun s => AuthRequest.writes_program settings crypto (requests s)
  refine hhistory.countP_le_one
    (P := fun d => ¬TokenTable.Spent d.refreshTokens tokenHash) ?_ ?_
  · rintro log l d d' ⟨hown, rfl⟩ hl
    obtain ⟨hlive, hspent⟩ := AuthStatement.spent_of_exchanges hown hl
    exact ⟨hlive, not_not_intro hspent⟩
  · rintro log l d d' ⟨-, rfl⟩ hspent
    exact not_not_intro (AuthStatement.spent_effect (not_not.1 hspent))

/-! ## Administrators -/

def AdminStatement.exchanges (token : AdminToken) : AdminStatement → Bool
  | .refresh used _ _ => used = token
  | _ => false

def AdminRefreshUnrevoked (_ : List AdminStatement) (l : AdminStatement) (d : AdminDb) : Prop :=
  match l with
  | .refresh used _ _ => ∃ row ∈ d.sessions.get? used, row.revoked = false
  | _ => True

instance AdminRefreshUnrevoked.decidable (log : List AdminStatement) (l : AdminStatement) (d : AdminDb) :
    Decidable (AdminRefreshUnrevoked log l d) := by
  unfold AdminRefreshUnrevoked
  split <;> infer_instance

theorem AdminStatement.spent_of_exchanges {log : List AdminStatement} {l : AdminStatement}
    {d : AdminDb} {token : AdminToken} (hown : AdminRefreshUnrevoked log l d)
    (hl : l.exchanges token = true) :
    ¬AdminSessions.Spent d.sessions token ∧
      AdminSessions.Spent (l.effect d).sessions token := by
  cases l with
  | refresh used access renewal =>
      obtain rfl : used = token := by simpa [exchanges] using hl
      obtain ⟨row, hrow, hlive⟩ := hown
      have hget : d.sessions.get? used = some row := hrow
      constructor
      · rintro ⟨row', hget', hrevoked⟩
        obtain rfl : row = row' := Option.some.inj (hget.symm.trans hget')
        exact absurd hrevoked (by simp [hlive])
      · have hspent : AdminSessions.Spent (AdminSessions.revoke d.sessions used) used :=
          ⟨{ row with revoked := true }, by simp [AdminSessions.get?_revoke, hget], rfl⟩
        exact (hspent.insert access).insert renewal
  | _ => simp [exchanges] at hl

theorem adminRefresh_once {settings : AdminSettings} {crypto : AdminCrypto} {db : AdminDb}
    {requests : S → AdminRequest}
    {w : World S AdminDb AdminLock AdminStatement AdminError AdminReply}
    (hrun : World.Run (World.Commits AdminRefreshUnrevoked)
      (adminStart settings crypto db requests) w)
    (token : AdminToken) : w.log.countP (AdminStatement.exchanges token) ≤ 1 := by
  have hhistory := hrun.history fun s => AdminRequest.writes_program settings crypto (requests s)
  refine hhistory.countP_le_one (P := fun d => ¬AdminSessions.Spent d.sessions token) ?_ ?_
  · rintro log l d d' ⟨hown, rfl⟩ hl
    obtain ⟨hlive, hspent⟩ := AdminStatement.spent_of_exchanges hown hl
    exact ⟨hlive, not_not_intro hspent⟩
  · rintro log l d d' ⟨-, rfl⟩ hspent
    exact not_not_intro (AdminStatement.spent_effect (not_not.1 hspent))

/-! ## Both systems -/

/-- In every interleaving in which each refresh commits while its token is unrevoked, at
most one new session and refresh token are issued for a refresh token. -/
theorem refreshToken_exchangedOnce (settings : AuthSettings) (crypto : AuthCrypto)
    (adminSettings : AdminSettings) (adminCrypto : AdminCrypto) :
    (∀ (db : AuthDb) (requests : S → AuthRequest)
      (w : World S AuthDb AuthLock AuthStatement AuthError AuthReply),
      World.Run (World.Commits RefreshUnrevoked) (authStart settings crypto db requests) w →
        ∀ tokenHash, w.log.countP (AuthStatement.exchanges tokenHash) ≤ 1) ∧
    ∀ (db : AdminDb) (requests : S → AdminRequest)
      (w : World S AdminDb AdminLock AdminStatement AdminError AdminReply),
      World.Run (World.Commits AdminRefreshUnrevoked)
          (adminStart adminSettings adminCrypto db requests) w →
        ∀ token, w.log.countP (AdminStatement.exchanges token) ≤ 1 :=
  ⟨fun _ _ _ hrun tokenHash => userRefresh_once hrun tokenHash,
    fun _ _ _ hrun token => adminRefresh_once hrun token⟩

/-! ## Two requests with one token -/

/-- One user with the refresh token `r0`. -/
def oneRefreshToken : AuthDb where
  users := .single { id := 1, email := "user@example.com", hashedPassword := some "secret" }
  refreshTokens := .single { tokenHash := "r0", userId := 1, expiresAt := 600 }

def twoRefreshes : Bool → AuthRequest
  | false => .refresh
      { refreshToken := some "r0", newSessionToken := "s1", newRefreshToken := "r1" }
  | true => .refresh
      { refreshToken := some "r0", newSessionToken := "s2", newRefreshToken := "r2" }

def adminRefreshToken : AdminToken where
  type := .refresh
  adminId := 1
  userId := 1
  expiresAt := 600
  jti := "r0"

/-- One administrator with a refresh token. -/
def oneAdminRefreshToken : AdminDb where
  users := .single { id := 1, email := "admin@example.com", hashedPassword := some "secret" }
  adminUsers := .single { id := 1, userId := 1, role := "viewer" }
  sessions := .single
    { token := adminRefreshToken, userId := 1, adminUserId := 1, expiresAt := 600 }

def twoAdminRefreshes : Bool → AdminRequest
  | false => .refresh
      { refreshToken := some adminRefreshToken, accessJti := "a1", refreshJti := "r1" }
  | true => .refresh
      { refreshToken := some adminRefreshToken, accessJti := "a2", refreshJti := "r2" }

/-- One request after the other. -/
def inTurn : List Bool := List.replicate 12 false ++ List.replicate 12 true

/-- Both requests read the row before either of them commits. -/
def bothRead : List Bool := List.replicate 4 false ++ List.replicate 4 true ++ inTurn

theorem refreshToken_exchangedOnce_inTurn :
    let w := (authStart {} plainCrypto oneRefreshToken twoRefreshes).play inTurn
    let w' := (adminStart {} plainAdminCrypto oneAdminRefreshToken twoAdminRefreshes).play inTurn
    (w.log.countP (AuthStatement.exchanges "r0") = 1 ∧
        w.log.countP (AuthStatement.exchanges "r0") ≤ 1) ∧
      w'.log.countP (AdminStatement.exchanges adminRefreshToken) = 1 ∧
        w'.log.countP (AdminStatement.exchanges adminRefreshToken) ≤ 1 :=
  ⟨⟨by decide +kernel,
      (refreshToken_exchangedOnce {} plainCrypto {} plainAdminCrypto).1 oneRefreshToken
        twoRefreshes _ (World.Run.start.play (by decide +kernel)) "r0"⟩,
    by decide +kernel,
    (refreshToken_exchangedOnce {} plainCrypto {} plainAdminCrypto).2 oneAdminRefreshToken
      twoAdminRefreshes _ (World.Run.start.play (by decide +kernel)) adminRefreshToken⟩

/-- Requests that read the row before the first one commits are all granted. -/
theorem refreshToken_exchangedTwice :
    (∃ w, World.Reachable (authStart {} plainCrypto oneRefreshToken twoRefreshes) w ∧
      w.log.countP (AuthStatement.exchanges "r0") = 2) ∧
    ∃ w, World.Reachable
        (adminStart {} plainAdminCrypto oneAdminRefreshToken twoAdminRefreshes) w ∧
      w.log.countP (AdminStatement.exchanges adminRefreshToken) = 2 :=
  ⟨⟨_, World.play_reachable _ bothRead, by decide +kernel⟩,
    ⟨_, World.play_reachable _ bothRead, by decide +kernel⟩⟩

end Zyntry
