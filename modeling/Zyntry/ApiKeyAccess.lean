import Zyntry.ApiKeys
import Zyntry.SqlAssertions
import Zyntry.UniqueRows

/-!
# Access by API keys

The two dependencies that admit the bearer of a key are the same program up to what they answer.
In every interleaving of requests the keys keep different hashes and serve those for whom they
were made, and a key that was revoked admits nobody.
-/

namespace Zyntry.ApiKeys

open SqlProgram RowTable Python

/-! ## Two dependencies -/

/-- `get_action_auth` answers every refusal of a key in one way. -/
def hideReason : KeyError → KeyError
  | .http 401 _ => notAuthenticated
  | e => e

/-- What is left of a request once a key is admitted fails for the key in no way. -/
theorem countUse_hideReason (key : ApiKey) {α : Type} (f : ApiKey → α) :
    ((countUse key >>= fun key => pure (f key)).catching fun e => .raise (hideReason e)) =
      countUse key >>= fun key => pure (f key) := by
  unfold countUse commitKey saveKey
  dsimp only
  split_ifs
  · rfl
  · refine congrArg (lock _ _) (funext fun d => ?_)
    dsimp only [andThen, catching, locking]
    cases (d.apiKeys.get? key.id).isSome <;> rfl

theorem ensure_bind {α : Type} (p : Prop) [Decidable p] (e : KeyError)
    (next : Unit → KeyProgram α) :
    (ensure p e >>= next) = if p then next () else .raise e := by
  unfold ensure
  split_ifs <;> rfl

/-- For a request without a session of its user, the dependency of the actions runs the
statements of the dependency of the API. It admits the same user for the same key and project,
and refuses the same requests, but hides why a key is refused. -/
theorem getActionAuth_eq_getApiKeyUser (hashToken : String → String) (request : KeyRequest) :
    (getActionAuth hashToken none request >>= fun context =>
      pure (context.user, context.apiKey.map ApiKey.id, context.projectId)) =
    ((getApiKeyUser hashToken request >>= fun (user, keyId, projectId) =>
      pure (user, some keyId, projectId)).catching fun e => .raise (hideReason e)) := by
  unfold getActionAuth getActionKey getApiKeyUser
  cases hraw : request.rawKey with
  | none => rfl
  | some rawKey =>
      refine congrArg (select _) (funext fun d => ?_)
      dsimp only [andThen, catching]
      generalize d.withHash (hashToken rawKey) = rows
      match rows with
      | [] => rfl
      | _ :: _ :: _ => rfl
      | [key] =>
          change ((scalarOneOrNone [key] >>= _) >>= _) =
            ((scalarOneOrNone [key] >>= _) >>= _).catching _
          simp only [scalarOneOrNone, pure_eq, ret_bind, orRaise, ensure_bind]
          by_cases hrevoked : key.revoked = false
          · by_cases hexpired : key.Expired request.now
            · rw [if_neg fun h => h.2 hexpired, if_pos hrevoked, if_neg (not_not_intro hexpired)]
              rfl
            · rw [if_pos ⟨hrevoked, hexpired⟩, if_pos hrevoked, if_pos hexpired]
              refine congrArg (select _) (funext fun d => ?_)
              dsimp only [andThen, catching]
              cases key.userId.bind d.users.get? with
              | none => rfl
              | some user =>
                  by_cases hholder : key.Holder user
                  · by_cases horigin : key.ForeignOrigin request.origin
                    · simp only [ret_bind, if_pos hholder, if_neg (not_not_intro horigin)]
                      rfl
                    · simp only [ret_bind, if_pos hholder, if_pos horigin]
                      have hcount := countUse_hideReason key fun key =>
                        (user, some key.id, key.projectId)
                      have hcatching := congrArg
                        (fun p : KeyProgram (ApiUser × Option ℕ × Option ℕ) =>
                          p.catching fun e => .raise (hideReason e))
                        (SqlProgram.bind_assoc (countUse key)
                          (fun key => ret (user, key.id, key.projectId))
                          fun (user, keyId, projectId) => ret (user, some keyId, projectId))
                      exact (SqlProgram.bind_assoc _ _ _).trans (hcount.symm.trans hcatching.symm)
                  · simp only [ret_bind, if_neg hholder]
                    rfl
          · rw [if_neg fun h => hrevoked h.1, if_neg hrevoked]
            rfl

/-! ## Requests -/

inductive KeyCall where
  | create (userId : ℕ) (data : ApiKeyCreate) (organizationId : Option ℕ) (drawn : DrawnKey)
  | rotate (user : ApiUser) (keyId : ℕ) (drawn : DrawnKey)
  | revoke (user : ApiUser) (keyId : ℕ)
  | adminRevoke (keyId : ℕ)
  | expire (user : ApiUser) (keyId : ℕ) (expiresAt : Option ℤ)
  | delete (user : ApiUser) (keyId : ℕ)
  | updateScopes (user : ApiUser) (keyId : ℕ) (scopes : List String)
  | apiKeyUser (request : KeyRequest)
  | actionAuth (sessionToken : Option String) (request : KeyRequest)

/-- The request makes a new key. -/
def KeyCall.Mints : KeyCall → Prop
  | .create .. => True
  | .rotate .. => True
  | _ => False

inductive KeyAnswer where
  | issued (apiKey : ApiKeyRead) (rawKey : String)
  | key (apiKey : ApiKeyRead)
  | done
  | user (user : ApiUser) (keyId : ℕ) (projectId : Option ℕ)
  | context (context : ActionAuthContext)
deriving DecidableEq, Repr

section Calls

variable (hashToken : String → String)

def KeyCall.program : KeyCall → KeyProgram KeyAnswer
  | .create userId data organizationId drawn => do
      let (apiKey, rawKey) ← createKey hashToken userId data organizationId drawn
      pure (.issued apiKey rawKey)
  | .rotate user keyId drawn => do
      let (apiKey, rawKey) ← rotateApiKey hashToken user keyId drawn
      pure (.issued apiKey rawKey)
  | .revoke user keyId => do
      let _ ← revokeApiKey user keyId
      pure .done
  | .adminRevoke keyId => do
      adminRevokeApiKey keyId
      pure .done
  | .expire user keyId expiresAt => do
      let apiKey ← expireApiKey user keyId expiresAt
      pure (.key apiKey)
  | .delete user keyId => do
      deleteApiKey user keyId
      pure .done
  | .updateScopes user keyId scopes => do
      let apiKey ← updateApiKeyScopes user keyId scopes
      pure (.key apiKey)
  | .apiKeyUser request => do
      let (user, keyId, projectId) ← getApiKeyUser hashToken request
      pure (.user user keyId projectId)
  | .actionAuth sessionToken request => do
      let context ← getActionAuth hashToken sessionToken request
      pure (.context context)

end Calls

/-! ## What a commit does to the keys -/

/-- A key stays, with its hash, and stays revoked once it is, or it is deleted. -/
def KeysLast (_ : KeyStatement) (d d' : KeyTables) : Prop :=
  ∀ id key, d.apiKeys.get? id = some key →
    d'.apiKeys.get? id = none ∨ ∃ key', d'.apiKeys.get? id = some key' ∧
      key'.hashedKey = key.hashedKey ∧ (key.revoked = true → key'.revoked = true)

theorem keysLast_addKey (l : KeyStatement) (d : KeyTables) (row : ApiKey) :
    KeysLast l d (d.addKey row) :=
  fun _ key hkey => .inr ⟨key, get?_insert_of_some hkey, rfl, fun h => h⟩

theorem keysLast_deleteKey (l : KeyStatement) (d : KeyTables) (keyId : ℕ) :
    KeysLast l d (d.deleteKey keyId) := by
  intro id key hkey
  cases hafter : (d.deleteKey keyId).apiKeys.get? id with
  | none => exact .inl rfl
  | some key' =>
      have hmem := mem_rows_of_delete (get?_some_mem hafter)
      have hsame := get?_of_mem hmem
      rw [get?_some_key hafter, hkey] at hsame
      cases hsame
      exact .inr ⟨key, rfl, rfl, fun h => h⟩

/-- A session that leaves a key revoked if it has loaded it so. -/
def StaysRevoked (loaded current : ApiKey) : Prop :=
  current.revoked = loaded.revoked ∨ current.revoked = true

theorem flushed_revoked {loaded current row : ApiKey} (h : StaysRevoked loaded current)
    (hrow : row.revoked = true) : (loaded.flushed current row).revoked = true := by
  dsimp only [ApiKey.flushed, sentColumn]
  split_ifs with hsame
  · exact hrow
  · exact h.resolve_left hsame

theorem keysLast_storeKey (l : KeyStatement) (d : KeyTables) {loaded current : ApiKey}
    (h : StaysRevoked loaded current) : KeysLast l d (d.storeKey loaded current) := by
  intro id key hkey
  right
  dsimp only [KeyTables.storeKey]
  by_cases hid : id = loaded.id
  · rw [hid] at hkey ⊢
    rw [get?_update_self, hkey]
    exact ⟨_, rfl, rfl, flushed_revoked h⟩
  · rw [get?_update_of_ne _ hid]
    exact ⟨key, hkey, rfl, fun hrevoked => hrevoked⟩

theorem keysLast_rotate (l : KeyStatement) (d : KeyTables) (oldKey newKey : ApiKey) :
    KeysLast l d ((d.addKey newKey).storeKey oldKey oldKey.revoke) := by
  intro id key hkey
  have hadded : (d.addKey newKey).apiKeys.get? id = some key := get?_insert_of_some hkey
  exact keysLast_storeKey l (d.addKey newKey) (.inr rfl) id key hadded

section Writes

variable {G : KeyStatement → KeyTables → KeyTables → Prop}

theorem writes_saveKey (loaded current : ApiKey) : (saveKey loaded current).Writes G := by
  unfold saveKey
  split_ifs
  · exact writes_ret _
  · exact (writes_locking _ _ _).bind fun _ => writes_ensure

theorem writes_commitKey {loaded current : ApiKey}
    (h : ∀ d, G .committed d (d.storeKey loaded current)) : (commitKey loaded current).Writes G :=
  (writes_saveKey loaded current).bind fun _ => writes_write.mpr h

theorem writes_requireApiKeyAccess (keyId : ℕ) (user : ApiUser) :
    (requireApiKeyAccess keyId user).Writes G :=
  (writes_query _ _).bind fun _ => writes_orRaise.bind fun _ => writes_ensure.bind fun _ =>
    writes_ret _

theorem writes_insertKey (row : ApiKey) : (insertKey row).Writes G :=
  (writes_locking _ _ _).bind fun _ => writes_ensure

theorem writes_scalarOneOrNone {α : Type} (rows : List α) : (scalarOneOrNone rows).Writes G := by
  match rows with
  | [] => exact writes_ret _
  | [_] => exact writes_ret _
  | _ :: _ :: _ => exact writes_raise _

theorem writes_getSessionUser (hashToken : String → String) (token : String) (now : ℤ) :
    (getSessionUser hashToken token now).Writes G := by
  refine (writes_query _ _).bind fun rows => ?_
  refine (writes_scalarOneOrNone rows).bind fun session => ?_
  cases session with
  | none => exact writes_ret _
  | some session =>
      dsimp only
      split_ifs
      · exact writes_ret _
      · exact (writes_query _ _).bind fun _ => writes_ret _

/-- The commits of a changed key satisfy `G`. -/
def AdmitsStores (G : KeyStatement → KeyTables → KeyTables → Prop) : Prop :=
  ∀ d loaded current, StaysRevoked loaded current → G .committed d (d.storeKey loaded current)

variable (hashToken : String → String) (hstores : AdmitsStores G)

include hstores

theorem writes_countUse (key : ApiKey) : (countUse key).Writes G := by
  refine Writes.bind ?_ fun _ => writes_ret _
  exact writes_commitKey fun d => hstores d _ _ (.inl rfl)

theorem writes_getApiKeyUser (request : KeyRequest) :
    (getApiKeyUser hashToken request).Writes G := by
  unfold getApiKeyUser
  refine writes_orRaise.bind fun rawKey => (writes_query _ _).bind fun rows => ?_
  refine (writes_scalarOneOrNone rows).bind fun key => writes_orRaise.bind fun key => ?_
  refine writes_ensure.bind fun _ => writes_ensure.bind fun _ => ?_
  refine (writes_query _ _).bind fun user => ?_
  refine writes_orRaise.bind fun user => writes_ensure.bind fun _ => writes_ensure.bind fun _ => ?_
  exact (writes_countUse hstores key).bind fun _ => writes_ret _

theorem writes_getActionKey (request : KeyRequest) :
    (getActionKey hashToken request).Writes G := by
  unfold getActionKey
  cases request.rawKey with
  | none => exact writes_raise _
  | some rawKey =>
      refine (writes_query _ _).bind fun rows => (writes_scalarOneOrNone rows).bind fun key => ?_
      cases key with
      | none => exact writes_raise _
      | some key =>
          dsimp only
          split_ifs
          · refine (writes_query _ _).bind fun user => ?_
            cases user with
            | none => exact writes_raise _
            | some user =>
                dsimp only
                split_ifs
                · refine writes_ensure.bind fun _ => ?_
                  exact (writes_countUse hstores key).bind fun _ => writes_ret _
                · exact writes_raise _
          · exact writes_raise _

theorem writes_getActionAuth (sessionToken : Option String) (request : KeyRequest) :
    (getActionAuth hashToken sessionToken request).Writes G := by
  unfold getActionAuth
  cases sessionToken with
  | none => exact writes_getActionKey hashToken hstores request
  | some token =>
      dsimp only
      split_ifs
      · exact writes_getActionKey hashToken hstores request
      · refine (writes_getSessionUser hashToken token _).bind fun user => ?_
        cases user with
        | none => exact writes_getActionKey hashToken hstores request
        | some user => exact writes_ret _

/-- A request that makes no new key commits a changed key, or the deletion of one. -/
theorem writes_program_of_not_mints (hdeletes : ∀ d keyId, G .committed d (d.deleteKey keyId))
    {call : KeyCall} (hcall : ¬call.Mints) : (call.program hashToken).Writes G := by
  cases call with
  | create userId data organizationId drawn => exact absurd trivial hcall
  | rotate user keyId drawn => exact absurd trivial hcall
  | revoke user keyId =>
      refine Writes.bind ?_ fun _ => writes_ret _
      refine (writes_requireApiKeyAccess keyId user).bind fun key => ?_
      refine Writes.bind ?_ fun _ => writes_ret _
      exact writes_commitKey fun d => hstores d _ _ (.inr rfl)
  | adminRevoke keyId =>
      refine Writes.bind ?_ fun _ => writes_ret _
      refine (writes_query _ _).bind fun _ => writes_orRaise.bind fun key => ?_
      exact writes_commitKey fun d => hstores d _ _ (.inr rfl)
  | expire user keyId expiresAt =>
      refine Writes.bind ?_ fun _ => writes_ret _
      refine (writes_requireApiKeyAccess keyId user).bind fun key => ?_
      refine Writes.bind ?_ fun _ => writes_ret _
      refine Writes.catching ?_ fun _ => writes_raise _
      exact writes_commitKey fun d => hstores d _ _ (.inl rfl)
  | delete user keyId =>
      refine Writes.bind ?_ fun _ => writes_ret _
      refine (writes_requireApiKeyAccess keyId user).bind fun key => ?_
      exact (writes_locking _ _ _).bind fun _ => writes_write.mpr fun d => hdeletes d _
  | updateScopes user keyId scopes =>
      refine Writes.bind ?_ fun _ => writes_ret _
      refine (writes_requireApiKeyAccess keyId user).bind fun key => ?_
      refine Writes.bind ?_ fun _ => writes_ret _
      exact writes_commitKey fun d => hstores d _ _ (.inl rfl)
  | apiKeyUser request =>
      exact (writes_getApiKeyUser hashToken hstores request).bind fun _ => writes_ret _
  | actionAuth sessionToken request =>
      exact (writes_getActionAuth hashToken hstores sessionToken request).bind fun _ => writes_ret _

/-- A request commits a changed key, the deletion of one, a new key, or the rotation of one. -/
theorem writes_program (hdeletes : ∀ d keyId, G .committed d (d.deleteKey keyId))
    (hadds : ∀ d row, G .committed d (d.addKey row))
    (hrotates : ∀ d oldKey newKey,
      G .committed d ((d.addKey newKey).storeKey oldKey oldKey.revoke)) (call : KeyCall) :
    (call.program hashToken).Writes G := by
  cases call with
  | create userId data organizationId drawn =>
      refine Writes.bind ?_ fun _ => writes_ret _
      refine (writes_insertKey _).bind fun _ => ?_
      exact (writes_write.mpr fun d => hadds d _).bind fun _ => writes_ret _
  | rotate user keyId drawn =>
      refine Writes.bind ?_ fun _ => writes_ret _
      refine Writes.catching ?_ fun _ => writes_raise _
      refine (writes_requireApiKeyAccess keyId user).bind fun key => writes_ensure.bind fun _ => ?_
      refine (writes_insertKey _).bind fun _ => (writes_saveKey key key.revoke).bind fun _ => ?_
      exact (writes_write.mpr fun d => hrotates d key _).bind fun _ => writes_ret _
  | _ => exact writes_program_of_not_mints hashToken hstores hdeletes fun h => h

omit hstores

/-- Whatever a request does, keys last and stay revoked. -/
theorem keysLast_program (call : KeyCall) : (call.program hashToken).Writes KeysLast :=
  writes_program hashToken (fun d _ _ h => keysLast_storeKey _ d h)
    (fun d keyId => keysLast_deleteKey _ d keyId) (fun d row => keysLast_addKey _ d row)
    (fun d oldKey newKey => keysLast_rotate _ d oldKey newKey) call

end Writes

/-! ## Keys and their owners -/

/-- For whom and for what a key was made. -/
structure KeyOwner where
  name : String
  userId : Option ℕ
  organizationId : Option ℕ
  projectId : Option ℕ
  runtimeId : Option ℕ
  environment : String
  allowedOrigins : List String
deriving DecidableEq, Repr

def ApiKey.owner (key : ApiKey) : KeyOwner where
  name := key.name
  userId := key.userId
  organizationId := key.organizationId
  projectId := key.projectId
  runtimeId := key.runtimeId
  environment := key.environment
  allowedOrigins := key.allowedOrigins

/-- The unique index of the hashes. -/
def KeyTables.UniqueHashes (d : KeyTables) : Prop :=
  Exclusive (fun key key' : ApiKey => key.hashedKey = key'.hashedKey) d.apiKeys

/-- Every row is an old one as far as its id, its hash and its owner go. -/
def KeysSifted (_ : KeyStatement) (d d' : KeyTables) : Prop :=
  ∀ key ∈ d'.apiKeys.rows, ∃ old ∈ d.apiKeys.rows,
    old.id = key.id ∧ old.hashedKey = key.hashedKey ∧ old.owner = key.owner

theorem keysSifted_storeKey (l : KeyStatement) (d : KeyTables) (loaded current : ApiKey) :
    KeysSifted l d (d.storeKey loaded current) := by
  intro key hkey
  rcases mem_rows_update (loaded.flushed_id current) hkey with ⟨hold, -⟩ | ⟨old, hold, rfl⟩
  · exact ⟨key, hold, rfl, rfl, rfl⟩
  · exact ⟨old, get?_some_mem hold, rfl, rfl, rfl⟩

theorem keysSifted_deleteKey (l : KeyStatement) (d : KeyTables) (keyId : ℕ) :
    KeysSifted l d (d.deleteKey keyId) :=
  fun key hkey => ⟨key, mem_rows_of_delete hkey, rfl, rfl, rfl⟩

theorem KeysSifted.trans {l : KeyStatement} {d d' d'' : KeyTables} (h : KeysSifted l d d')
    (h' : KeysSifted l d' d'') : KeysSifted l d d'' := by
  intro key hkey
  obtain ⟨key', hkey', hid, hhash, howner⟩ := h' key hkey
  obtain ⟨old, hold, hid', hhash', howner'⟩ := h key' hkey'
  exact ⟨old, hold, hid'.trans hid, hhash'.trans hhash, howner'.trans howner⟩

/-- What a table of keys is to be: its hashes are unique and its owners satisfy `P`. -/
def KeyTables.Sound (P : KeyOwner → Prop) (d : KeyTables) : Prop :=
  d.UniqueHashes ∧ ∀ key ∈ d.apiKeys.rows, P key.owner

theorem KeyTables.Sound.sifted {P : KeyOwner → Prop} {l : KeyStatement} {d d' : KeyTables}
    (h : d.Sound P) (hsifted : KeysSifted l d d') : d'.Sound P := by
  constructor
  · intro key hkey key' hkey' hsame
    obtain ⟨old, hold, hid, hhash, -⟩ := hsifted key hkey
    obtain ⟨old', hold', hid', hhash', -⟩ := hsifted key' hkey'
    rw [← hid, ← hid']
    exact h.1 old hold old' hold' ((hhash.trans hsame).trans hhash'.symm)
  · intro key hkey
    obtain ⟨old, hold, -, -, howner⟩ := hsifted key hkey
    exact howner ▸ h.2 old hold

theorem collides_iff {d : KeyTables} {row : ApiKey} : d.Collides row ↔
    ∃ key ∈ d.apiKeys.rows, key.id = row.id ∨ key.hashedKey = row.hashedKey := by
  constructor
  · rintro (hid | hhash)
    · obtain ⟨key, hkey⟩ := Option.isSome_iff_exists.mp hid
      exact ⟨key, get?_some_mem hkey, .inl (get?_some_key hkey)⟩
    · obtain ⟨key, hkey⟩ := List.exists_mem_of_ne_nil _ hhash
      obtain ⟨hmem, hsame⟩ := List.mem_filter.mp hkey
      exact ⟨key, hmem, .inr (of_decide_eq_true hsame)⟩
  · rintro ⟨key, hkey, hid | hhash⟩
    · exact .inl (hid ▸ Option.isSome_of_eq_some (get?_of_mem hkey))
    · exact .inr (List.ne_nil_of_mem (List.mem_filter.mpr ⟨hkey, decide_eq_true hhash⟩))

theorem KeyTables.Sound.addKey {P : KeyOwner → Prop} {d : KeyTables} (h : d.Sound P)
    {row : ApiKey} (hfree : ¬d.Collides row) (hP : P row.owner) : (d.addKey row).Sound P := by
  constructor
  · exact h.1.insert (fun _ _ => Eq.symm) fun key hkey hsame =>
      hfree (collides_iff.mpr ⟨key, hkey, .inr hsame⟩)
  · intro key hkey
    rcases mem_rows_insert hkey with hold | rfl
    · exact h.2 key hold
    · exact hP

/-! ## Interleavings -/

/-- A commit adds a row only under the locks of its id and of its hash. -/
def keyDiscipline (P : KeyOwner → Prop) : Discipline KeyTables KeyResource KeyStatement where
  inv d _ := d.Sound P
  guarantee H _ d d' := ∀ key ∈ d'.apiKeys.rows,
    (∃ old ∈ d.apiKeys.rows, old.id = key.id ∧ old.hashedKey = key.hashedKey) ∨
      (.row key.id ∈ H ∧ .hashedKey key.hashedKey ∈ H)
  own _ _ := True
  compatible _ _ := True

section Discipline

variable {P : KeyOwner → Prop} {H : Set KeyResource}

theorem keyDiscipline_of_sifted (H : Set KeyResource) (l : KeyStatement) (d d' : KeyTables)
    (log : List KeyStatement) (h : KeysSifted l d d') (hinv : (keyDiscipline P).inv d log)
    (_ : (keyDiscipline P).own l d) :
    (keyDiscipline P).guarantee H l d d' ∧ (keyDiscipline P).inv d' (log ++ [l]) := by
  refine ⟨fun key hkey => ?_, hinv.sifted h⟩
  obtain ⟨old, hold, hid, hhash, -⟩ := h key hkey
  exact .inl ⟨old, hold, hid, hhash⟩

/-- Under its locks a new row stays free of collisions. -/
theorem firm_not_collides {row : ApiKey} (hid : .row row.id ∈ H)
    (hhash : .hashedKey row.hashedKey ∈ H) :
    (keyDiscipline P).Firm H fun d => ¬d.Collides row := by
  intro m d d' log H' l hinv hdisjoint _ hguarantee hfree hcollides
  obtain ⟨key, hkey, hsame⟩ := collides_iff.mp hcollides
  rcases hguarantee key hkey with ⟨old, hold, hid', hhash'⟩ | ⟨hid', hhash'⟩
  · exact hfree (collides_iff.mpr ⟨old, hold, hsame.imp hid'.trans hhash'.trans⟩)
  · rcases hsame with hsame | hsame
    · exact hdisjoint _ hid' (hsame ▸ hid)
    · exact hdisjoint _ hhash' (hsame ▸ hhash)

theorem sat_insertKey {α : Type} {row : ApiKey} {next : Unit → KeyProgram α}
    {post : α → Set KeyResource → (KeyTables → Prop) → Prop}
    (h : ∀ H' : Set KeyResource, .row row.id ∈ H' → .hashedKey row.hashedKey ∈ H' →
      (keyDiscipline P).Sat (next ()) H' (fun d => ¬d.Collides row) post) :
    (keyDiscipline P).Sat (insertKey row >>= next) H (fun _ => True) post := by
  refine ⟨(keyDiscipline P).stable_true _ _, fun d log _ _ _ => ?_⟩
  by_cases hcollides : d.Collides row
  · refine ⟨fun _ => True, trivial, ?_⟩
    dsimp only [andThen]
    rw [decide_eq_true hcollides]
    trivial
  · refine ⟨fun d => ¬d.Collides row, hcollides, ?_⟩
    dsimp only [andThen]
    rw [decide_eq_false hcollides]
    exact h _ (.inr List.mem_cons_self) (.inr (List.mem_cons_of_mem _ List.mem_cons_self))

theorem guarantee_addKey {d : KeyTables} {row : ApiKey} (hid : .row row.id ∈ H)
    (hhash : .hashedKey row.hashedKey ∈ H) (l : KeyStatement) :
    (keyDiscipline P).guarantee H l d (d.addKey row) := by
  intro key hkey
  rcases mem_rows_insert hkey with hold | rfl
  · exact .inl ⟨key, hold, rfl, rfl⟩
  · exact .inr ⟨hid, hhash⟩

theorem sat_createKey {hashToken : String → String} {userId : ℕ} {data : ApiKeyCreate}
    {organizationId : Option ℕ} {drawn : DrawnKey}
    (hP : P (data.key hashToken userId organizationId drawn).owner) :
    (keyDiscipline P).Sat (createKey hashToken userId data organizationId drawn) H
      (fun _ => True) fun _ _ _ => True := by
  refine sat_insertKey fun H' hid hhash => ?_
  refine ⟨firm_not_collides hid hhash _, fun d log hinv _ hfree => ?_⟩
  exact ⟨guarantee_addKey hid hhash _, hinv.addKey hfree hP, fun _ => True, trivial, trivial⟩

theorem sat_saveKey {α : Type} {loaded current : ApiKey} {next : Unit → KeyProgram α}
    {Q : KeyTables → Prop} {post : α → Set KeyResource → (KeyTables → Prop) → Prop}
    (hQ : (keyDiscipline P).Firm H Q)
    (h : ∀ H', H ⊆ H' → (keyDiscipline P).Sat (next ()) H' Q post) :
    (keyDiscipline P).Sat (saveKey loaded current >>= next) H Q post := by
  unfold saveKey
  split_ifs
  · exact h H subset_rfl
  · refine ⟨hQ _, fun d log _ _ hq => ⟨Q, hq, ?_⟩⟩
    dsimp only [andThen]
    cases (d.apiKeys.get? loaded.id).isSome
    · trivial
    · exact h _ Set.subset_union_left

theorem sat_rotateKey {hashToken : String → String} {key : ApiKey} {drawn : DrawnKey}
    (hP : P key.owner) :
    (keyDiscipline P).Sat (rotateKey hashToken key drawn) H (fun _ => True)
      fun _ _ _ => True := by
  unfold rotateKey
  rw [ensure_bind]
  split_ifs
  · refine sat_insertKey fun H' hid hhash => ?_
    refine sat_saveKey (firm_not_collides hid hhash) fun H'' hsub => ?_
    have hfirm := firm_not_collides (P := P) (hsub hid) (hsub hhash)
    refine ⟨hfirm _, fun d log hinv _ hfree => ?_⟩
    have hadded : (d.addKey _).Sound P := hinv.addKey hfree hP
    have hsifted := keysSifted_storeKey .committed (d.addKey (key.successor hashToken drawn)) key
      key.revoke
    refine ⟨fun key' hkey' => ?_, hadded.sifted hsifted, fun _ => True, trivial, trivial⟩
    obtain ⟨new, hnew, hid', hhash', -⟩ := hsifted key' hkey'
    rw [← hid', ← hhash']
    exact guarantee_addKey (P := P) (hsub hid) (hsub hhash) .committed new hnew
  · trivial

theorem sat_rotateApiKey {hashToken : String → String} {user : ApiUser} {keyId : ℕ}
    {drawn : DrawnKey} :
    (keyDiscipline P).Sat (rotateApiKey hashToken user keyId drawn) H (fun _ => True)
      fun _ _ _ => True := by
  refine Discipline.Sat.catching_raise ?_ badRequest
  refine ⟨(keyDiscipline P).stable_true _ _, fun d log hinv _ _ => ⟨fun _ => True, trivial, ?_⟩⟩
  dsimp only [andThen]
  cases hkey : d.apiKeys.get? keyId with
  | none => trivial
  | some key =>
      by_cases hallows : key.Allows user
      · simp only [orRaise, ret_bind, ensure, if_pos hallows]
        exact sat_rotateKey (hinv.2 key (get?_some_mem hkey))
      · simp only [orRaise, ret_bind, ensure, if_neg hallows]
        trivial

/-- A request to create a key names an owner that is allowed. -/
def KeyCall.MakesFor (P : KeyOwner → Prop) (hashToken : String → String) : KeyCall → Prop
  | .create userId data organizationId drawn =>
      P (data.key hashToken userId organizationId drawn).owner
  | _ => True

theorem sat_program {hashToken : String → String} {call : KeyCall}
    (hcall : call.MakesFor P hashToken) :
    (keyDiscipline P).Sat (call.program hashToken) H (fun _ => True) fun _ _ _ => True := by
  cases call with
  | create userId data organizationId drawn =>
      refine Discipline.sat_bind _ _ _ _ _ _ ?_
      exact (sat_createKey hcall).mono fun _ _ _ _ => trivial
  | rotate user keyId drawn =>
      refine Discipline.sat_bind _ _ _ _ _ _ ?_
      exact sat_rotateApiKey.mono fun _ _ _ _ => trivial
  | _ =>
      refine Discipline.sat_of_writes _ keyDiscipline_of_sifted ?_ H
      apply writes_program_of_not_mints hashToken fun d loaded current _ =>
        keysSifted_storeKey _ d loaded current
      · exact fun d keyId => keysSifted_deleteKey _ d keyId
      · exact fun h => h

end Discipline

section Runs

abbrev KeyWorld (S : Type) := World S KeyTables KeyResource KeyStatement KeyError KeyAnswer

variable {S : Type} [DecidableEq S] {hashToken : String → String} {d : KeyTables}
  {calls : S → KeyCall} {w w' : KeyWorld S}

theorem sound_run {P : KeyOwner → Prop} (hd : d.Sound P)
    (hcalls : ∀ s, (calls s).MakesFor P hashToken)
    (hrun : World.Reachable (World.start d fun s => (calls s).program hashToken) w) :
    w.db.Sound P := by
  have hobeyed := Discipline.Obeyed.run (Δ := keyDiscipline P) hrun (fun _ _ _ =>
    ⟨fun _ _ => trivial, fun _ _ _ _ _ _ _ _ => trivial⟩)
    (Discipline.obeyed_start _ hd fun s => sat_program (hcalls s))
  exact hobeyed.1

theorem uniqueHashes_run (hd : d.UniqueHashes)
    (hrun : World.Reachable (World.start d fun s => (calls s).program hashToken) w) :
    w.db.UniqueHashes := by
  have hcalls : ∀ s, (calls s).MakesFor (fun _ => True) hashToken := by
    intro s
    cases calls s <;> trivial
  exact (sound_run ⟨hd, fun _ _ => trivial⟩ hcalls hrun).1

/-- Every key of the hash is revoked. -/
def KeyTables.Rejects (d : KeyTables) (hash : String) : Prop :=
  ∀ key ∈ d.withHash hash, key.revoked = true

/-- Along a run a revoked key is deleted or stays revoked. -/
theorem revoked_run (hwrites : ∀ s, (w.session s).Writes KeysLast)
    (hlater : World.Reachable w w') {key : ApiKey} (hkey : key ∈ w.db.apiKeys.rows)
    (hrevoked : key.revoked = true) :
    (∃ w₁, World.Reachable w w₁ ∧ World.Reachable w₁ w' ∧
      w₁.db.apiKeys.get? key.id = none) ∨
    ∃ key', w'.db.apiKeys.get? key.id = some key' ∧ key'.hashedKey = key.hashedKey ∧
      key'.revoked = true := by
  induction hlater with
  | start => exact .inr ⟨key, get?_of_mem hkey, rfl, hrevoked⟩
  | @step w' w'' s hrun hok hstep ih =>
      rcases ih with ⟨w₁, h₀, h₁, hnone⟩ | ⟨key', hkey', hhash, hrevoked'⟩
      · exact .inl ⟨w₁, h₀, h₁.step s hok hstep, hnone⟩
      · rcases World.writes_step_db hstep (hrun.writes hwrites s) with hsame | ⟨l, hlast⟩
        · rw [hsame]
          exact .inr ⟨key', hkey', hhash, hrevoked'⟩
        · rcases hlast key.id key' hkey' with hnone | ⟨key'', hkey'', hhash', hrevoked''⟩
          · exact .inl ⟨w'', hrun.step s hok hstep, .start, hnone⟩
          · exact .inr ⟨key'', hkey'', hhash'.trans hhash, hrevoked'' hrevoked'⟩
  | crash s e hrun ih =>
      rcases ih with ⟨w₁, h₀, h₁, hnone⟩ | hkept
      · exact .inl ⟨w₁, h₀, h₁.crash s e, hnone⟩
      · exact .inr hkept

theorem KeyTables.UniqueHashes.rejects (hd : d.UniqueHashes) {key : ApiKey} {id : ℕ}
    (hkey : d.apiKeys.get? id = some key) (hrevoked : key.revoked = true) :
    d.Rejects key.hashedKey := by
  intro key' hkey'
  obtain ⟨hmem, hhash⟩ := List.mem_filter.mp hkey'
  have hid := hd key' hmem key (get?_some_mem hkey) (of_decide_eq_true hhash)
  have hsame := get?_of_mem hmem
  rw [hid, get?_of_mem (get?_some_mem hkey)] at hsame
  cases hsame
  exact hrevoked

/-- The request bears a key and no session of its user. -/
def KeyCall.Bears (rawKey : String) : KeyCall → Prop
  | .apiKeyUser request => request.rawKey = some rawKey
  | .actionAuth sessionToken request =>
      sessionToken.getD "" = "" ∧ request.rawKey = some rawKey
  | _ => False

omit [DecidableEq S] in
theorem mayReturn_scalarOneOrNone {V : KeyTables → Prop} {α β : Type} {rows : List α}
    {next : Option α → KeyProgram β} {b : β}
    (h : (scalarOneOrNone rows >>= next).MayReturn V b) :
    ∃ row, (∀ r ∈ row, r ∈ rows) ∧ (next row).MayReturn V b := by
  match rows with
  | [] => exact ⟨none, by rintro r ⟨⟩, h⟩
  | [row] => exact ⟨some row, by rintro r ⟨⟩; exact List.mem_singleton_self _, h⟩
  | _ :: _ :: _ => exact h.elim

theorem not_mayReturn_getApiKeyUser {V : KeyTables → Prop} {request : KeyRequest}
    {rawKey : String} (hraw : request.rawKey = some rawKey)
    (hV : ∀ d, V d → d.Rejects (hashToken rawKey)) {α : Type}
    (f : ApiUser × ℕ × Option ℕ → KeyProgram α) (a : α) :
    ¬(getApiKeyUser hashToken request >>= f).MayReturn V a := by
  intro h
  obtain ⟨result, h, -⟩ := mayReturn_bind.mp h
  unfold getApiKeyUser at h
  rw [hraw] at h
  obtain ⟨d, hd, h⟩ := h
  obtain ⟨key, hkey, h⟩ := mayReturn_scalarOneOrNone h
  cases key with
  | none => exact h
  | some key =>
      have hrevoked := hV d hd key (hkey key rfl)
      simp only [orRaise, ret_bind, ensure_bind, hrevoked, Bool.true_eq_false, if_false] at h
      exact h

theorem not_mayReturn_getActionKey {V : KeyTables → Prop} {request : KeyRequest}
    {rawKey : String} (hraw : request.rawKey = some rawKey)
    (hV : ∀ d, V d → d.Rejects (hashToken rawKey)) (context : ActionAuthContext) :
    ¬(getActionKey hashToken request).MayReturn V context := by
  intro h
  unfold getActionKey at h
  rw [hraw] at h
  obtain ⟨d, hd, h⟩ := h
  obtain ⟨key, hkey, h⟩ := mayReturn_scalarOneOrNone h
  cases key with
  | none => exact h
  | some key =>
      have hrevoked := hV d hd key (hkey key rfl)
      simp only [hrevoked, Bool.true_eq_false, false_and, if_false] at h
      exact h

theorem not_mayReturn_of_bears {V : KeyTables → Prop} {call : KeyCall} {rawKey : String}
    (hbears : call.Bears rawKey) (hV : ∀ d, V d → d.Rejects (hashToken rawKey))
    (answer : KeyAnswer) : ¬(call.program hashToken).MayReturn V answer := by
  cases call with
  | apiKeyUser request => exact not_mayReturn_getApiKeyUser hbears hV _ answer
  | actionAuth sessionToken request =>
      obtain ⟨htoken, hraw⟩ := hbears
      have hsame : getActionAuth hashToken sessionToken request =
          getActionKey hashToken request := by
        cases sessionToken with
        | none => rfl
        | some token => exact if_pos htoken
      intro h
      obtain ⟨context, h, -⟩ := mayReturn_bind.mp h
      rw [hsame] at h
      exact not_mayReturn_getActionKey hraw hV context h
  | _ => exact hbears.elim

end Runs

/-! ## A key that is rotated and then used -/

def keyOwnerUser : ApiUser := { id := 1, organizationId := some 7 }

def rotatedKeys : KeyTables where
  apiKeys := .single
    { id := 1, name := "ci", hashedKey := "#secret", keyPrefix := "sk_test_", userId := some 1,
      organizationId := some 7, expiresAt := some 100 }
  users := .single keyOwnerUser

/-- One request rotates the key, the other one bears it. -/
def rotateAndUse (rotates : Bool) : KeyCall :=
  if rotates then .rotate keyOwnerUser 1 ⟨2, "fresh"⟩
  else .apiKeyUser { authorization := some "Bearer secret", now := 50 }

def rotatedWorld : KeyWorld Bool :=
  World.start rotatedKeys fun s => (rotateAndUse s).program ("#" ++ ·)

theorem rotatedKeys_unique : rotatedKeys.UniqueHashes := by
  intro key hkey key' hkey' _
  rw [List.mem_singleton.mp hkey, List.mem_singleton.mp hkey']

end Zyntry.ApiKeys
