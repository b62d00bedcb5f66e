import Zyntry.OAuthCallbacks

/-!
# The cache of connections

Lookups answer from a cache that revocations do not know of and whose entries have no age. If
a connection is only revoked while no entry holds it, and only cached while it is active,
then the cache holds active connections and nothing else is ever served.
-/

namespace Zyntry.OAuthService

open SqlProgram

variable {S : Type} [DecidableEq S]

namespace OAuthDb

def StatusIs (d : OAuthDb) (id : ℕ) (status : ConnectionStatus) : Prop :=
  ∃ row ∈ d.connections.get? id, row.status = status

instance StatusIs.decidable (d : OAuthDb) (id : ℕ) (status : ConnectionStatus) :
    Decidable (d.StatusIs id status) := by
  unfold StatusIs
  infer_instance

/-- What the cache holds is active. -/
def CacheActive (d : OAuthDb) : Prop := ∀ e ∈ d.cache.rows, d.StatusIs e.connection.id .active

end OAuthDb

/-- A revocation commits while no entry holds the connection, and an entry is made while its
connection is active. -/
def CacheKept (_ : List OAuthStatement) (l : OAuthStatement) (d : OAuthDb) : Prop :=
  match l with
  | .fill _ connection => d.StatusIs connection.id .active
  | .revoke id => ∀ e ∈ d.cache.rows, e.connection.id ≠ id
  | _ => True

instance CacheKept.decidable (log : List OAuthStatement) (l : OAuthStatement) (d : OAuthDb) :
    Decidable (CacheKept log l d) := by
  unfold CacheKept
  split <;> infer_instance

/-! ## Commits -/

theorem writes_commitOAuth {G : OAuthStatement → OAuthDb → OAuthDb → Prop} {l : OAuthStatement}
    (h : ∀ d, G l d (l.effect d)) : (commitOAuth l).Writes G := writes_write.2 h

theorem writes_oauthCallback (providerId : String → Option ℕ) (r : CallbackRequest) :
    (oauthCallback providerId r).Writes fun l d d' => d' = l.effect d := by
  unfold oauthCallback validateState oauthClock
  refine Writes.bind (.bind (writes_query _ _) fun _ => .bind (writes_locking _ _ _) fun _ =>
    writes_orRaise) fun state => ?_
  refine Writes.bind writes_ensure fun _ => .bind writes_ensure fun _ => ?_
  refine Writes.bind writes_orRaise fun providerId' => ?_
  cases r.answer with
  | error e => exact writes_raise e
  | ok tokens =>
      refine Writes.bind (writes_query _ _) fun now => .bind writes_orRaise fun userId => ?_
      refine Writes.bind writes_orRaise fun projectId => ?_
      refine Writes.bind (writes_commitOAuth fun _ => rfl) fun _ => ?_
      refine Writes.bind (writes_locking _ _ _) fun _ => ?_
      exact (writes_commitOAuth fun _ => rfl).bind fun _ => writes_ret _

theorem writes_getConnection (providerId : String → Option ℕ) (key : CacheKey) :
    (getConnection providerId key).Writes fun l d d' => d' = l.effect d := by
  unfold getConnection
  cases providerId key.provider with
  | none => exact writes_ret _
  | some id =>
      refine Writes.bind (writes_query _ _) fun entry => ?_
      cases entry with
      | some connection => exact writes_ret _
      | none =>
          refine Writes.bind (writes_query _ _) fun connection => ?_
          cases connection with
          | none => exact writes_ret _
          | some connection => exact (writes_commitOAuth fun _ => rfl).bind fun _ => writes_ret _

theorem writes_refreshToken (connectionId : ℕ) (provider : Option String)
    (answer : Except OAuthError TokenGrant) :
    (refreshToken connectionId provider answer).Writes fun l d d' => d' = l.effect d := by
  unfold refreshToken
  refine Writes.bind (writes_query _ _) fun row => .bind writes_orRaise fun row => ?_
  refine Writes.bind writes_orRaise fun name => .bind writes_orRaise fun oldToken => ?_
  refine Writes.bind (writes_commitOAuth fun _ => rfl) fun _ => ?_
  cases answer with
  | error e => exact writes_raise e
  | ok tokens =>
      refine Writes.bind (writes_query _ _) fun now => .bind (writes_locking _ _ _) fun _ => ?_
      exact (writes_commitOAuth fun _ => rfl).bind fun _ => writes_ret _

theorem OAuthRequest.writes_program (providerId : String → Option ℕ) (r : OAuthRequest) :
    (r.program providerId).Writes fun l d d' => d' = l.effect d := by
  cases r with
  | tick seconds => exact (writes_commitOAuth fun _ => rfl).bind fun _ => writes_ret _
  | authorize r =>
      rw [program, oauthAuthorize]
      refine Writes.bind writes_orRaise fun _ => .bind (writes_query _ _) fun now => ?_
      exact (writes_commitOAuth fun _ => rfl).bind fun _ => writes_ret _
  | callback r => exact writes_oauthCallback providerId r
  | lookup key => exact writes_getConnection providerId key
  | refresh connectionId provider answer => exact writes_refreshToken connectionId provider answer
  | revoke connectionId =>
      rw [program, OAuthService.revokeConnection]
      refine Writes.bind (writes_query _ _) fun row => .bind writes_orRaise fun _ => ?_
      refine Writes.bind (writes_locking _ _ _) fun _ => ?_
      exact (writes_commitOAuth fun _ => rfl).bind fun _ => writes_ret _

/-! ## What commits keep -/

namespace OAuthStatement

variable {l : OAuthStatement} {d : OAuthDb} {id : ℕ} {status : ConnectionStatus}

/-- Only a revocation changes the status of a connection that is there. -/
theorem statusIs_effect (h : d.StatusIs id status) (hl : l ≠ .revoke id) :
    (l.effect d).StatusIs id status := by
  obtain ⟨row, hrow, hstatus⟩ := h
  cases l with
  | connect stateId connection =>
      exact ⟨row, RowTable.get?_insert_of_some hrow, hstatus⟩
  | refresh k accessToken refreshToken expiresAt =>
      by_cases hk : id = k
      · subst hk
        refine ⟨{ row with accessToken, refreshToken, expiresAt }, ?_, hstatus⟩
        simp [effect, OAuthDb.setTokens, RowTable.get?_update_self, Option.mem_def.1 hrow]
      · refine ⟨row, ?_, hstatus⟩
        simpa [effect, OAuthDb.setTokens, RowTable.get?_update_of_ne _ hk] using hrow
  | revoke k =>
      have hk : id ≠ k := fun heq => hl (heq ▸ rfl)
      refine ⟨row, ?_, hstatus⟩
      simpa [effect, OAuthDb.setRevoked, RowTable.get?_update_of_ne _ hk] using hrow
  | _ => exact ⟨row, hrow, hstatus⟩

/-- A revoked connection stays revoked. -/
theorem revoked_effect (h : d.StatusIs id .revoked) : (l.effect d).StatusIs id .revoked := by
  by_cases hl : l = .revoke id
  · subst hl
    obtain ⟨row, hrow, -⟩ := h
    refine ⟨{ row with status := .revoked }, ?_, rfl⟩
    simp [effect, OAuthDb.setRevoked, RowTable.get?_update_self, Option.mem_def.1 hrow]
  · exact statusIs_effect h hl

theorem mem_cacheWithout {keys : List CacheKey} {e : CacheEntry}
    (h : e ∈ (d.cacheWithout keys).rows) : e ∈ d.cache.rows := by
  unfold OAuthDb.cacheWithout at h
  generalize d.cache = cache at h ⊢
  induction keys generalizing cache with
  | nil => exact h
  | cons key keys ih => exact RowTable.mem_rows_of_delete (ih _ h)

/-- An entry of the cache was there before or has just been made. -/
theorem mem_cache_effect {e : CacheEntry} (h : e ∈ (l.effect d).cache.rows) :
    e ∈ d.cache.rows ∨ ∃ key, l = .fill key e.connection := by
  cases l with
  | fill key connection =>
      rcases RowTable.mem_rows_insert h with hold | rfl
      · exact .inl (RowTable.mem_rows_of_delete hold)
      · exact .inr ⟨key, rfl⟩
  | drop keys => exact .inl (mem_cacheWithout h)
  | _ => exact .inl h

theorem cacheActive_effect {log : List OAuthStatement} (h : d.CacheActive)
    (hkept : CacheKept log l d) : (l.effect d).CacheActive := by
  intro e he
  rcases mem_cache_effect he with hold | ⟨key, rfl⟩
  · refine statusIs_effect (h e hold) ?_
    rintro rfl
    exact hkept e hold rfl
  · exact statusIs_effect hkept nofun

end OAuthStatement

/-! ## Runs -/

section Runs

variable {providerId : String → Option ℕ} {requests : S → OAuthRequest}
  {db : OAuthDb} {w w₁ : World S OAuthDb OAuthLock OAuthStatement OAuthError
    (Option OAuthConnection)}

theorem cacheActive_of_run (hcache : db.CacheActive)
    (h : World.Run (World.Commits CacheKept) (oauthStart providerId db requests) w) :
    w.db.CacheActive := by
  have hhistory := h.history fun s => (requests s).writes_program providerId
  refine hhistory.invariant (I := fun _ d => d.CacheActive) hcache ?_
  rintro log l d d' hactive ⟨hkept, rfl⟩
  exact OAuthStatement.cacheActive_effect hactive hkept

theorem revoked_of_run {id : ℕ}
    (h₁ : World.Run (World.Commits CacheKept) (oauthStart providerId db requests) w₁)
    (h : World.Run (World.Commits CacheKept) w₁ w) (hrevoked : w₁.db.StatusIs id .revoked) :
    w.db.StatusIs id .revoked := by
  have hwrites := h₁.writes fun s => (requests s).writes_program providerId
  refine (h.history hwrites).invariant (I := fun _ d => d.StatusIs id .revoked) hrevoked ?_
  rintro log l d d' hstatus ⟨-, rfl⟩
  exact OAuthStatement.revoked_effect hstatus

end Runs

theorem OAuthDb.StatusIs.unique {d : OAuthDb} {id : ℕ} {status status' : ConnectionStatus}
    (h : d.StatusIs id status) (h' : d.StatusIs id status') : status = status' := by
  obtain ⟨row, hrow, rfl⟩ := h
  obtain ⟨row', hrow', rfl⟩ := h'
  rw [Option.mem_unique hrow hrow']

/-- A lookup returns an entry of the cache or an active row. -/
theorem mayReturn_getConnection {providerId : String → Option ℕ} {key : CacheKey}
    {V : OAuthDb → Prop} {c : OAuthConnection}
    (h : (getConnection providerId key).MayReturn V (some c)) :
    ∃ d, V d ∧ ((∃ e ∈ d.cache.rows, e.connection = c) ∨ d.StatusIs c.id .active) := by
  unfold getConnection at h
  cases hprovider : providerId key.provider with
  | none => simp [hprovider] at h
  | some id =>
      rw [hprovider] at h
      dsimp only at h
      rw [getConnectionCached, mayReturn_query] at h
      obtain ⟨d, hd, h⟩ := h
      cases hentry : d.cached key with
      | some connection =>
          rw [hentry] at h
          obtain rfl : connection = c := Option.some.inj h
          obtain ⟨e, he, rfl⟩ := Option.map_eq_some_iff.1 hentry
          exact ⟨d, hd, .inl ⟨e, RowTable.get?_some_mem he, rfl⟩⟩
      | none =>
          rw [hentry] at h
          dsimp only at h
          rw [mayReturn_query] at h
          obtain ⟨d', hd', h⟩ := h
          cases hrow : (d'.activeConnections id key).head? with
          | none => simp [hrow] at h
          | some connection =>
              rw [hrow] at h
              obtain rfl : connection = c := Option.some.inj (mayReturn_write.1 h)
              obtain ⟨hmem, hactive⟩ := List.mem_filter.1 (List.mem_of_head? hrow)
              exact ⟨d', hd', .inr ⟨connection, RowTable.get?_of_mem hmem, by simp_all⟩⟩

def activeConnection (id : ℕ) : OAuthConnection where
  id := id
  userId := 1
  projectId := 2
  providerId := 1
  accessToken := "token"
  refreshToken := none
  expiresAt := none

def oneConnection : OAuthDb where
  connections := .single (activeConnection 5)

def githubOfUser : CacheKey := .user 1 "github"

/-- A lookup before the revocation and one after it. -/
def lookupsAndRevoke : Fin 3 → OAuthRequest
  | 0 => .lookup githubOfUser
  | 1 => .revoke 5
  | 2 => .lookup githubOfUser

def serveFirst : List (Fin 3) := List.replicate 6 0

end Zyntry.OAuthService
