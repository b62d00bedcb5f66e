import Zyntry.ApiKeyAccess
import Zyntry.SqlEndings

/-!
# What API keys grant

What the keys of a database are for is told by the grants of those that are not revoked. Each
request acts on the grants alone: it adds one, moves one to a new key, changes or withdraws one.
After any run of requests the bearer of a key is admitted exactly if the grants say so.
-/

namespace Zyntry.ApiKeys

open SqlProgram RowTable Python

/-! ## Grants -/

structure Grant where
  hashedKey : String
  owner : KeyOwner
  scopes : List String
  expiresAt : Option ℤ := none
deriving DecidableEq, Repr

def ApiKey.grant (key : ApiKey) : Grant where
  hashedKey := key.hashedKey
  owner := key.owner
  scopes := key.scopes
  expiresAt := key.expiresAt

/-- The grants, by the ids of their keys. -/
abbrev Grants := ℕ → Option Grant

def ApiKey.grant? (key : ApiKey) : Option Grant :=
  if key.revoked = true then none else some key.grant

/-- The grants of the keys that are not revoked. -/
def KeyTables.grants (d : KeyTables) : Grants := fun id => (d.apiKeys.get? id).bind ApiKey.grant?

/-- The user administers the grant. -/
def Grant.Allows (grant : Grant) (user : ApiUser) : Prop :=
  user.isSuperuser = true ∨ grant.owner.userId = some user.id ∨
    (grant.owner.organizationId ≠ none ∧ grant.owner.organizationId = user.organizationId)

instance Grant.decidableAllows (grant : Grant) (user : ApiUser) :
    Decidable (grant.Allows user) := by
  unfold Grant.Allows
  infer_instance

section Serve

variable (hashToken : String → String)

/-- The grant moves to a new key and has no end any more. -/
def Grant.moved (grant : Grant) (drawn : DrawnKey) : Grant :=
  { grant with
    hashedKey := hashToken (generateApiKey (prefixType grant.owner.environment) drawn.token)
    expiresAt := none }

/-- A user changes one grant. -/
def Grants.change (grants : Grants) (user : ApiUser) (id : ℕ) (f : Grant → Grants) : Grants :=
  match grants id with
  | none => grants
  | some grant => if grant.Allows user then f grant else grants

def Grants.serve (grants : Grants) : KeyCall → Grants
  | .create userId data organizationId drawn =>
      Function.update grants drawn.id (data.key hashToken userId organizationId drawn).grant
  | .rotate user id drawn => grants.change user id fun grant =>
      Function.update (Function.update grants id none) drawn.id (grant.moved hashToken drawn)
  | .revoke user id => grants.change user id fun _ => Function.update grants id none
  | .adminRevoke id => Function.update grants id none
  | .expire user id expiresAt => grants.change user id fun grant =>
      Function.update grants id (some { grant with expiresAt })
  | .delete user id => grants.change user id fun _ => Function.update grants id none
  | .updateScopes user id scopes => grants.change user id fun grant =>
      Function.update grants id (some { grant with scopes })
  | .apiKeyUser _ => grants
  | .actionAuth _ _ => grants

end Serve

/-! ## One request -/

theorem grants_of_get?_none {d : KeyTables} {id : ℕ} (h : d.apiKeys.get? id = none) :
    d.grants id = none := by
  rw [KeyTables.grants, h, Option.bind_none]

theorem grants_of_get? {d : KeyTables} {id : ℕ} {key : ApiKey}
    (h : d.apiKeys.get? id = some key) : d.grants id = key.grant? := by
  rw [KeyTables.grants, h, Option.bind_some]

theorem grants_addKey {d : KeyTables} {row : ApiKey} (hfree : d.apiKeys.get? row.id = none) :
    (d.addKey row).grants = Function.update d.grants row.id row.grant? := by
  funext id
  by_cases hid : id = row.id
  · rw [hid, Function.update_self]
    exact grants_of_get? (get?_insert_self hfree)
  · rw [Function.update_of_ne hid]
    exact congrArg (Option.bind · _) (get?_insert_of_ne _ hid)

theorem grants_deleteKey (d : KeyTables) (id : ℕ) :
    (d.deleteKey id).grants = Function.update d.grants id none := by
  funext id'
  rw [KeyTables.grants, KeyTables.deleteKey, get?_delete]
  by_cases hid : id' = id
  · rw [if_pos hid, hid, Function.update_self, Option.bind_none]
  · rw [if_neg hid, Function.update_of_ne hid]
    rfl

theorem flushed_loaded (key current : ApiKey) : key.flushed current key =
    { key with
      scopes := current.scopes
      revoked := current.revoked
      expiresAt := current.expiresAt
      usageCount := current.usageCount } := by
  simp only [ApiKey.flushed, sentColumn_loaded]

theorem grants_storeKey {d : KeyTables} {key current : ApiKey}
    (hkey : d.apiKeys.get? key.id = some key) :
    (d.storeKey key current).grants =
      Function.update d.grants key.id (key.flushed current key).grant? := by
  funext id
  by_cases hid : id = key.id
  · rw [hid, Function.update_self]
    apply grants_of_get?
    rw [KeyTables.storeKey, get?_update_self, hkey, Option.map_some]
  · rw [Function.update_of_ne hid]
    exact congrArg (Option.bind · _)
      (get?_update_of_ne _ hid _ (key.flushed_id current))

theorem exec_saveKey {d : KeyTables} {key : ApiKey} (hkey : d.apiKeys.get? key.id = some key)
    (current : ApiKey) : (saveKey key current).exec d = (.ok (), d) := by
  unfold saveKey
  split_ifs
  · rfl
  · have hfound := Option.isSome_of_eq_some hkey
    exact congrArg (fun found => (ensure (found = true) KeyError.staleData).exec d) hfound

theorem exec_commitKey {d : KeyTables} {key : ApiKey} (hkey : d.apiKeys.get? key.id = some key)
    (current : ApiKey) :
    (commitKey key current).exec d = (.ok (), d.storeKey key current) := by
  rw [commitKey, exec_bind, exec_saveKey hkey]
  rfl

/-- The access to a key is checked on its row, and changes nothing. -/
theorem exec_requireApiKeyAccess {α : Type} (d : KeyTables) (keyId : ℕ) (user : ApiUser)
    (next : ApiKey → KeyProgram α) :
    ((requireApiKeyAccess keyId user >>= next).exec d).2 =
      match d.apiKeys.get? keyId with
      | none => d
      | some key => if key.Allows user then ((next key).exec d).2 else d := by
  change (((orRaise (d.apiKeys.get? keyId) (.http 404 "API key not found") >>= fun key => do
    ensure (key.Allows user) (.http 404 "API key not found")
    pure key) >>= next).exec d).2 = _
  cases d.apiKeys.get? keyId with
  | none => rfl
  | some key =>
      by_cases hallows : key.Allows user
      · simp only [orRaise, ensure, ret_bind, pure_eq, if_pos hallows]
      · simp only [orRaise, ensure, ret_bind, raise_bind, if_neg hallows]
        rfl

theorem exec_bind_pure_snd {α β : Type} (p : KeyProgram α) (f : α → β) (d : KeyTables) :
    ((p >>= fun a => pure (f a)).exec d).2 = (p.exec d).2 := by
  rw [exec_bind]
  match p.exec d with
  | (.ok a, d') => rfl
  | (.error e, d') => rfl

/-- A handler that renames the exception leaves what is committed. -/
theorem exec_catching_raise_snd {α : Type} (p : KeyProgram α) (renamed : KeyError → KeyError)
    (d : KeyTables) :
    ((p.catching fun e => .raise (renamed e)).exec d).2 = (p.exec d).2 := by
  induction p generalizing d with
  | ret a => rfl
  | raise e => rfl
  | select l next ih => exact ih d d
  | lock l rows next ih => exact ih d d
  | commit l w next ih => exact ih (w d)

/-! ## Authentication -/

/-- Every commit leaves the grants alone. -/
abbrev KeepsGrants {α : Type} (d : KeyTables) (p : KeyProgram α) : Prop :=
  p.Keeps (fun d' => d'.grants = d.grants) d fun _ _ => True

theorem KeepsGrants.exec {α : Type} {d : KeyTables} {p : KeyProgram α} (h : KeepsGrants d p) :
    (p.exec d).2.grants = d.grants := by
  rcases List.mem_cons.mp (exec_snd_mem p d) with hsame | hmem
  · rw [hsame]
  · exact h.commits _ hmem

theorem keeps_scalarOneOrNone {I : KeyTables → Prop} {α : Type} {rows : List α} {d : KeyTables}
    {post : Option α → KeyTables → Prop} (hnone : post none d)
    (hsome : ∀ row ∈ rows, post (some row) d) : (scalarOneOrNone rows).Keeps I d post := by
  match rows with
  | [] => exact hnone
  | [row] => exact hsome row (List.mem_singleton_self row)
  | _ :: _ :: _ => exact trivial

/-- To count a use changes no grant. -/
theorem keepsGrants_countUse {d : KeyTables} {key : ApiKey} (hkey : key ∈ d.apiKeys.rows) :
    KeepsGrants d (countUse key) := by
  have hstored := get?_of_mem hkey
  have hgrants : (d.storeKey key { key with usageCount := key.usageCount + 1 }).grants =
      d.grants := by
    rw [grants_storeKey hstored, flushed_loaded, Function.update_eq_self_iff,
      grants_of_get? hstored]
    rfl
  unfold countUse commitKey saveKey KeepsGrants
  dsimp only
  split_ifs
  · exact ⟨hgrants, trivial⟩
  · simp only [keeps_bind, keeps_locking, keeps_ensure, keeps_write]
    exact fun _ => ⟨hgrants, trivial⟩

section Dependencies

variable {hashToken : String → String} {d : KeyTables}

theorem mem_rows_of_withHash {hash : String} {key : ApiKey} (h : key ∈ d.withHash hash) :
    key ∈ d.apiKeys.rows := (List.mem_filter.mp h).1

theorem keepsGrants_getApiKeyUser (request : KeyRequest) :
    KeepsGrants d (getApiKeyUser hashToken request) := by
  unfold getApiKeyUser loadUser KeepsGrants
  simp only [keeps_bind, keeps_orRaise, keeps_query, keeps_ensure]
  intro rawKey _
  refine keeps_scalarOneOrNone (by rintro key ⟨⟩) fun row hrow key hkey => ?_
  cases hkey
  intro _ _ user _ _ _
  exact (keepsGrants_countUse (mem_rows_of_withHash hrow)).mono fun _ _ _ => trivial

theorem keepsGrants_getActionKey (request : KeyRequest) :
    KeepsGrants d (getActionKey hashToken request) := by
  unfold getActionKey loadUser KeepsGrants
  cases request.rawKey with
  | none => exact trivial
  | some rawKey =>
      simp only [keeps_bind, keeps_query]
      refine keeps_scalarOneOrNone trivial fun key hkey => ?_
      dsimp only
      split_ifs
      · simp only [keeps_bind, keeps_query]
        cases key.userId.bind d.users.get? with
        | none => exact trivial
        | some user =>
            dsimp only
            split_ifs
            · simp only [keeps_bind, keeps_ensure]
              intro _
              exact (keepsGrants_countUse (mem_rows_of_withHash hkey)).mono fun _ _ _ => trivial
            · exact trivial
      · exact trivial

theorem keepsGrants_getActionAuth (sessionToken : Option String) (request : KeyRequest) :
    KeepsGrants d (getActionAuth hashToken sessionToken request) := by
  have hkey : KeepsGrants d (getActionKey hashToken request) := keepsGrants_getActionKey request
  unfold getActionAuth
  cases sessionToken with
  | none => exact hkey
  | some token =>
      dsimp only
      split_ifs
      · exact hkey
      · unfold getSessionUser loadUser KeepsGrants
        simp only [keeps_bind, keeps_query]
        refine keeps_scalarOneOrNone hkey fun session _ => ?_
        dsimp only
        split_ifs
        · exact hkey
        · simp only [keeps_bind, keeps_query]
          cases (((some session.userId).bind d.users.get?).filter (·.isActive)) with
          | none => exact hkey
          | some user => exact trivial

end Dependencies

/-! ## Requests of users -/

section Requests

variable {hashToken : String → String} {d : KeyTables}

/-- The rows of new keys collide with none. -/
def KeyTables.Fresh (hashToken : String → String) (d : KeyTables) : KeyCall → Prop
  | .create userId data organizationId drawn =>
      ¬d.Collides (data.key hashToken userId organizationId drawn)
  | .rotate _ id drawn => ∀ key ∈ d.apiKeys.get? id, ¬d.Collides (key.successor hashToken drawn)
  | _ => True

/-- What a user makes of a key that is administered acts on its grant. -/
theorem grants_requireApiKeyAccess {α : Type} (keyId : ℕ) (user : ApiUser)
    (next : ApiKey → KeyProgram α) (f : Grant → Grants)
    (hlive : ∀ key, d.apiKeys.get? keyId = some key → key.revoked = false →
      ((next key).exec d).2.grants = f key.grant)
    (hrevoked : ∀ key, d.apiKeys.get? keyId = some key → key.revoked = true →
      ((next key).exec d).2.grants = d.grants) :
    ((requireApiKeyAccess keyId user >>= next).exec d).2.grants = d.grants.change user keyId f := by
  rw [exec_requireApiKeyAccess]
  cases hkey : d.apiKeys.get? keyId with
  | none => rw [Grants.change, grants_of_get?_none hkey]
  | some key =>
      have hgrants := grants_of_get? hkey
      dsimp only
      by_cases hstate : key.revoked = true
      · rw [ApiKey.grant?, if_pos hstate] at hgrants
        rw [Grants.change, hgrants]
        split_ifs
        · exact hrevoked key hkey hstate
        · rfl
      · rw [ApiKey.grant?, if_neg hstate] at hgrants
        rw [Grants.change, hgrants]
        by_cases hallows : key.Allows user
        · have hgrant : key.grant.Allows user := hallows
          rw [if_pos hallows]
          exact (hlive key hkey (Bool.eq_false_iff.mpr hstate)).trans (if_pos hgrant).symm
        · have hgrant : ¬key.grant.Allows user := hallows
          rw [if_neg hallows]
          exact (if_neg hgrant).symm

/-- A key that the session holds as it is stored is replaced as the session has changed it. -/
theorem grants_commitKey {key current : ApiKey} {keyId : ℕ}
    (hkey : d.apiKeys.get? keyId = some key)
    (hcurrent : key.flushed current key = current) :
    ((commitKey key current).exec d).2.grants =
      Function.update d.grants keyId current.grant? := by
  have hid := get?_some_key hkey
  rw [← hid] at hkey ⊢
  rw [exec_commitKey hkey, grants_storeKey hkey, hcurrent]

/-- A change of a revoked key leaves the grants alone. -/
theorem update_grants_of_revoked {key current : ApiKey} {keyId : ℕ}
    (hkey : d.apiKeys.get? keyId = some key) (hrevoked : key.revoked = true)
    (hcurrent : current.revoked = true) :
    Function.update d.grants keyId current.grant? = d.grants := by
  rw [ApiKey.grant?, if_pos hcurrent, Function.update_eq_self_iff, grants_of_get? hkey,
    ApiKey.grant?, if_pos hrevoked]

theorem grant?_of_live {key : ApiKey} (h : key.revoked = false) : key.grant? = some key.grant := by
  rw [ApiKey.grant?, h, if_neg Bool.false_ne_true]

theorem get?_of_not_collides {row : ApiKey} (h : ¬d.Collides row) :
    d.apiKeys.get? row.id = none :=
  Option.not_isSome_iff_eq_none.mp fun hsome => h (.inl hsome)

theorem exec_createKey {userId : ℕ} {data : ApiKeyCreate} {organizationId : Option ℕ}
    {drawn : DrawnKey} (hfree : ¬d.Collides (data.key hashToken userId organizationId drawn)) :
    ((createKey hashToken userId data organizationId drawn).exec d).2 =
      d.addKey (data.key hashToken userId organizationId drawn) := by
  change (((ensure (decide (d.Collides _) = false) KeyError.integrity) >>= _).exec d).2 = _
  rw [decide_eq_false hfree]
  rfl

theorem exec_rotateKey {key : ApiKey} {drawn : DrawnKey}
    (hkey : d.apiKeys.get? key.id = some key) (hlive : key.revoked = false)
    (hfree : ¬d.Collides (key.successor hashToken drawn)) :
    ((rotateKey hashToken key drawn).exec d).2 =
      (d.addKey (key.successor hashToken drawn)).storeKey key key.revoke := by
  rw [rotateKey, ensure_bind, if_pos hlive]
  change (((ensure (decide (d.Collides _) = false) KeyError.integrity) >>= _).exec d).2 = _
  rw [decide_eq_false hfree]
  change ((saveKey key key.revoke >>= _).exec d).2 = _
  rw [exec_bind, exec_saveKey hkey]
  rfl

theorem grants_rotateKey {key : ApiKey} {keyId : ℕ} {drawn : DrawnKey}
    (hkey : d.apiKeys.get? keyId = some key) (hlive : key.revoked = false)
    (hfree : ¬d.Collides (key.successor hashToken drawn)) :
    ((rotateKey hashToken key drawn).exec d).2.grants =
      Function.update (Function.update d.grants keyId none) drawn.id
        (key.grant.moved hashToken drawn) := by
  have hid := get?_some_key hkey
  rw [← hid] at hkey ⊢
  have hnew := get?_of_not_collides hfree
  have hne : drawn.id ≠ key.id := by
    intro heq
    have hsome := hnew.symm.trans ((congrArg d.apiKeys.get? heq).trans hkey)
    cases hsome
  have hstored : (d.addKey (key.successor hashToken drawn)).apiKeys.get? key.id = some key :=
    get?_insert_of_some hkey
  rw [exec_rotateKey hkey hlive hfree, grants_storeKey hstored, grants_addKey hnew,
    flushed_loaded]
  exact Function.update_comm hne _ _ _

/-- A request does to the grants what it is for. -/
theorem grants_program {call : KeyCall} (hfresh : d.Fresh hashToken call) :
    ((call.program hashToken).exec d).2.grants = d.grants.serve hashToken call := by
  cases call with
  | create userId data organizationId drawn =>
      rw [KeyCall.program, exec_bind_pure_snd, exec_createKey hfresh,
        grants_addKey (get?_of_not_collides hfresh)]
      rfl
  | rotate user id drawn =>
      rw [KeyCall.program, exec_bind_pure_snd, rotateApiKey, exec_catching_raise_snd]
      refine grants_requireApiKeyAccess id user _ _ (fun key hkey hlive => ?_) ?_
      · exact grants_rotateKey hkey hlive (hfresh key hkey)
      · intro key hkey hrevoked
        rw [rotateKey, ensure_bind, if_neg (by rw [hrevoked]; exact Bool.noConfusion)]
        rfl
  | revoke user id =>
      rw [KeyCall.program, exec_bind_pure_snd]
      refine grants_requireApiKeyAccess id user _ _ (fun key hkey hlive => ?_) ?_
      · rw [revokeKey, exec_bind_pure_snd, grants_commitKey hkey (flushed_loaded _ _)]
        rfl
      · intro key hkey hrevoked
        rw [revokeKey, exec_bind_pure_snd, grants_commitKey hkey (flushed_loaded _ _)]
        exact update_grants_of_revoked hkey hrevoked rfl
  | adminRevoke id =>
      rw [KeyCall.program, exec_bind_pure_snd]
      change ((orRaise (d.apiKeys.get? id) _ >>= _).exec d).2.grants = Function.update _ _ _
      cases hkey : d.apiKeys.get? id with
      | none =>
          rw [← grants_of_get?_none hkey, Function.update_eq_self]
          rfl
      | some key => exact grants_commitKey hkey (flushed_loaded key key.revoke)
  | expire user id expiresAt =>
      rw [KeyCall.program, exec_bind_pure_snd]
      refine grants_requireApiKeyAccess id user _ _ (fun key hkey hlive => ?_) ?_
      · dsimp only
        rw [exec_bind_pure_snd, exec_catching_raise_snd, grants_commitKey hkey (flushed_loaded _ _)]
        exact congrArg (Function.update _ _) (grant?_of_live hlive)
      · intro key hkey hrevoked
        dsimp only
        rw [exec_bind_pure_snd, exec_catching_raise_snd, grants_commitKey hkey (flushed_loaded _ _)]
        exact update_grants_of_revoked hkey hrevoked hrevoked
  | delete user id =>
      rw [KeyCall.program, exec_bind_pure_snd]
      refine grants_requireApiKeyAccess id user _ _ (fun key hkey hlive => ?_) ?_
      · rw [← get?_some_key hkey]
        exact grants_deleteKey d key.id
      · intro key hkey hrevoked
        have hid := get?_some_key hkey
        refine (grants_deleteKey d key.id).trans ?_
        rw [Function.update_eq_self_iff, hid, grants_of_get? hkey, ApiKey.grant?, if_pos hrevoked]
  | updateScopes user id scopes =>
      rw [KeyCall.program, exec_bind_pure_snd]
      refine grants_requireApiKeyAccess id user _ _ (fun key hkey hlive => ?_) ?_
      · rw [updateScopes, exec_bind_pure_snd, grants_commitKey hkey (flushed_loaded _ _)]
        exact congrArg (Function.update _ _) (grant?_of_live hlive)
      · intro key hkey hrevoked
        rw [updateScopes, exec_bind_pure_snd, grants_commitKey hkey (flushed_loaded _ _)]
        exact update_grants_of_revoked hkey hrevoked hrevoked
  | apiKeyUser request =>
      rw [KeyCall.program, exec_bind_pure_snd]
      exact (keepsGrants_getApiKeyUser request).exec
  | actionAuth sessionToken request =>
      rw [KeyCall.program, exec_bind_pure_snd]
      exact (keepsGrants_getActionAuth sessionToken request).exec

end Requests

/-! ## Admission -/

/-- The grants admit the bearer of a key, as a user and for a project. -/
def Grants.Admits (grants : Grants) (hashToken : String → String)
    (users : RowTable ℕ ApiUser ApiUser.id) (request : KeyRequest) (user : ApiUser) (id : ℕ)
    (projectId : Option ℕ) : Prop :=
  ∃ rawKey grant, request.rawKey = some rawKey ∧ grants id = some grant ∧
    grant.hashedKey = hashToken rawKey ∧ (∀ t ∈ grant.expiresAt, request.now < t) ∧
    grant.owner.userId.bind users.get? = some user ∧ user.isActive = true ∧
    (grant.owner.organizationId = none ∨ grant.owner.organizationId = user.organizationId) ∧
    (∀ origin ∈ request.origin, origin ≠ "" → grant.owner.allowedOrigins ≠ [] →
      rstripSlash origin ∈ grant.owner.allowedOrigins.map rstripSlash) ∧
    projectId = grant.owner.projectId

section Admission

variable {hashToken : String → String} {d : KeyTables}

theorem KeyTables.UniqueHashes.withHash_eq (hd : d.UniqueHashes) {key : ApiKey}
    (hkey : key ∈ d.apiKeys.rows) : d.withHash key.hashedKey = [key] := by
  have hmem : key ∈ d.withHash key.hashedKey :=
    List.mem_filter.mpr ⟨hkey, decide_eq_true rfl⟩
  have hnodup : ((d.withHash key.hashedKey).map ApiKey.id).Nodup :=
    d.apiKeys.nodup.sublist (List.filter_sublist.map _)
  match hrows : d.withHash key.hashedKey with
  | [] => rw [hrows] at hmem; cases hmem
  | [row] => rw [hrows] at hmem; rw [List.mem_singleton.mp hmem]
  | row :: row' :: rows =>
      have hrow : row ∈ d.withHash key.hashedKey := hrows ▸ List.mem_cons_self
      have hrow' : row' ∈ d.withHash key.hashedKey :=
        hrows ▸ List.mem_cons_of_mem _ List.mem_cons_self
      obtain ⟨hin, hhash⟩ := List.mem_filter.mp hrow
      obtain ⟨hin', hhash'⟩ := List.mem_filter.mp hrow'
      have hsame := hd row hin row' hin'
        ((of_decide_eq_true hhash).trans (of_decide_eq_true hhash').symm)
      rw [hrows, List.map_cons, List.map_cons, List.nodup_cons, hsame] at hnodup
      exact absurd List.mem_cons_self hnodup.1

theorem keeps_countUse_id (key : ApiKey) : (countUse key).Keeps (fun _ => True) d
    fun counted _ => counted.id = key.id ∧ counted.projectId = key.projectId := by
  unfold countUse
  rw [keeps_bind]
  exact (keeps_true _ _).mono fun _ _ _ => ⟨rfl, rfl⟩

theorem notForeignOrigin_iff {key : ApiKey} {origin : Option String} :
    ¬key.ForeignOrigin origin ↔ ∀ o ∈ origin, o ≠ "" → key.allowedOrigins ≠ [] →
      rstripSlash o ∈ key.allowedOrigins.map rstripSlash := by
  simp only [ApiKey.ForeignOrigin, not_exists, not_and, not_not]

theorem notExpired_iff {key : ApiKey} {now : ℤ} :
    ¬key.Expired now ↔ ∀ t ∈ key.expiresAt, now < t := by
  simp only [ApiKey.Expired, not_exists, not_and, not_le]

theorem admits_of_getApiKeyUser {request : KeyRequest} :
    (getApiKeyUser hashToken request).Keeps (fun _ => True) d fun (user, id, projectId) _ =>
      d.grants.Admits hashToken d.users request user id projectId := by
  unfold getApiKeyUser loadUser
  simp only [keeps_bind, keeps_orRaise, keeps_query, keeps_ensure]
  intro rawKey hraw
  refine keeps_scalarOneOrNone (by rintro key ⟨⟩) fun key hkey _ hsame => ?_
  cases hsame
  intro hlive hexpired user huser hholder horigin
  obtain ⟨hmem, hhash⟩ := List.mem_filter.mp hkey
  have hgrant : d.grants key.id = some key.grant :=
    (grants_of_get? (get?_of_mem hmem)).trans (grant?_of_live hlive)
  refine (keeps_countUse_id key).mono fun counted _ hcounted => ?_
  rw [hcounted.1, hcounted.2]
  exact ⟨rawKey, key.grant, hraw, hgrant, of_decide_eq_true hhash, notExpired_iff.mp hexpired,
    huser, hholder.1, hholder.2, notForeignOrigin_iff.mp horigin, rfl⟩

theorem exec_countUse {key : ApiKey} (hkey : d.apiKeys.get? key.id = some key) :
    (countUse key).exec d = (.ok { key with usageCount := key.usageCount + 1 },
      d.storeKey key { key with usageCount := key.usageCount + 1 }) := by
  rw [countUse, exec_bind, exec_commitKey hkey]
  rfl

theorem getApiKeyUser_of_admits (hd : d.UniqueHashes) {request : KeyRequest} {user : ApiUser}
    {id : ℕ} {projectId : Option ℕ}
    (h : d.grants.Admits hashToken d.users request user id projectId) :
    ((getApiKeyUser hashToken request).exec d).1 = .ok (user, id, projectId) := by
  obtain ⟨rawKey, grant, hraw, hgrant, hhash, hexpired, huser, hactive, horganization, horigin,
    rfl⟩ := h
  obtain ⟨key, hkey, hlive⟩ := Option.bind_eq_some_iff.mp hgrant
  unfold ApiKey.grant? at hlive
  split_ifs at hlive with hrevoked
  cases hlive
  have hid := get?_some_key hkey
  have hrows := hd.withHash_eq (get?_some_mem hkey)
  have hholder : key.Holder user := ⟨hactive, horganization⟩
  have hcount := exec_countUse (hid.symm ▸ hkey : d.apiKeys.get? key.id = some key)
  unfold getApiKeyUser
  rw [hraw]
  change (((scalarOneOrNone (d.withHash (hashToken rawKey))) >>= _).exec d).1 = _
  rw [← hhash, show key.grant.hashedKey = key.hashedKey from rfl, hrows]
  simp only [scalarOneOrNone, pure_eq, ret_bind, orRaise, ensure_bind,
    if_pos (Bool.eq_false_iff.mpr hrevoked), if_pos (notExpired_iff.mpr hexpired)]
  change ((orRaise (key.userId.bind d.users.get?) _ >>= _).exec d).1 = _
  rw [show key.userId.bind d.users.get? = some user from huser]
  simp only [orRaise, ret_bind, if_pos hholder, if_pos (notForeignOrigin_iff.mpr horigin)]
  rw [exec_bind, hcount, ← hid]
  rfl

/-- A key is admitted exactly if its grant is. -/
theorem getApiKeyUser_eq_ok_iff (hd : d.UniqueHashes) (request : KeyRequest) (user : ApiUser)
    (id : ℕ) (projectId : Option ℕ) :
    ((getApiKeyUser hashToken request).exec d).1 = .ok (user, id, projectId) ↔
      d.grants.Admits hashToken d.users request user id projectId := by
  refine ⟨fun h => ?_, getApiKeyUser_of_admits hd⟩
  exact admits_of_getApiKeyUser.exec (Prod.ext h rfl)

end Admission

/-! ## Runs -/

section Runs

variable {hashToken : String → String} {d : KeyTables}

theorem users_program (call : KeyCall) : ((call.program hashToken).exec d).2.users = d.users := by
  have hwrites : (call.program hashToken).Writes fun _ d d' => d'.users = d.users :=
    writes_program hashToken (fun _ _ _ _ => rfl) (fun _ _ => rfl) (fun _ _ => rfl)
      (fun _ _ _ => rfl) call
  exact hwrites.ends (fun _ => rfl) fun _ _ _ h h' => h'.trans h

theorem uniqueHashes_program (hd : d.UniqueHashes) (call : KeyCall) :
    ((call.program hashToken).exec d).2.UniqueHashes := by
  let w : KeyWorld Unit := World.start d fun _ => call.program hashToken
  obtain ⟨n, hdb, -⟩ := World.play_alone (call.program hashToken) () w rfl fun _ => .inl rfl
  have hunique : (w.play (List.replicate n ())).db.UniqueHashes :=
    uniqueHashes_run hd (World.play_reachable w _)
  rw [hdb] at hunique
  exact hunique

/-- After any run of requests whose new keys collide with none, a key is admitted exactly if the
run of the same requests on the grants admits it: with its user, under its id and for its
project. -/
theorem execAll_admits_iff (hashToken : String → String) (d : KeyTables) (hd : d.UniqueHashes)
    (calls : List KeyCall)
    (hfresh : Admits (KeyCall.program hashToken) (KeyTables.Fresh hashToken) calls d)
    (request : KeyRequest) (user : ApiUser) (id : ℕ) (projectId : Option ℕ) :
    ((getApiKeyUser hashToken request).exec
        (execAll (KeyCall.program hashToken) calls d)).1 = .ok (user, id, projectId) ↔
      (calls.foldl (Grants.serve hashToken) d.grants).Admits hashToken d.users request user id
        projectId := by
  induction calls generalizing d with
  | nil => exact getApiKeyUser_eq_ok_iff hd request user id projectId
  | cons call calls ih =>
      have hrest := ih _ (uniqueHashes_program hd call) hfresh.2
      rw [grants_program hfresh.1, users_program] at hrest
      exact hrest

instance KeyTables.decidableFresh (hashToken : String → String) (d : KeyTables) (call : KeyCall) :
    Decidable (d.Fresh hashToken call) := by
  cases call <;> unfold KeyTables.Fresh <;> infer_instance

def freshRequest : KeyRequest :=
  { authorization := some "Bearer sk_test_fresh", now := 500 }

/-- A key with an end is rotated, and the new one is admitted after that end. -/
theorem execAll_admits_iff_rotated :
    ((getApiKeyUser ("#" ++ ·) freshRequest).exec
        (execAll (KeyCall.program ("#" ++ ·)) [.rotate keyOwnerUser 1 ⟨2, "fresh"⟩]
          rotatedKeys)).1 = .ok (keyOwnerUser, 2, none) ∧
      (rotatedKeys.grants.serve ("#" ++ ·) (.rotate keyOwnerUser 1 ⟨2, "fresh"⟩)).Admits
        ("#" ++ ·) rotatedKeys.users freshRequest keyOwnerUser 2 none := by
  have hiff := execAll_admits_iff ("#" ++ ·) rotatedKeys rotatedKeys_unique
    [.rotate keyOwnerUser 1 ⟨2, "fresh"⟩] (by decide +kernel) freshRequest keyOwnerUser 2 none
  have hok := congrArg Prod.fst (exec_of_toOption (p := getApiKeyUser ("#" ++ ·) freshRequest)
    (d := execAll (KeyCall.program ("#" ++ ·)) [.rotate keyOwnerUser 1 ⟨2, "fresh"⟩] rotatedKeys)
    (a := (keyOwnerUser, 2, none)) (by decide +kernel))
  exact ⟨hok, hiff.mp hok⟩

end Runs

end Zyntry.ApiKeys
