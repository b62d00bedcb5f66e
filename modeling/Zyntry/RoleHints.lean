import Zyntry.PythonCase

/-!
# Access policies and role hints

A runtime's access policy gives each role its permissions. A request is authorised by the
entry of one role: the owner's, the role in the user's settings, or the role that a scope
of the API key hints at. A hint is meant to narrow the permissions; it does so exactly if
the policy grants the hinted role no more than the user's own.
-/

namespace Python

/-- `str` and `str.lower` on all of Unicode, with what is used of them here. -/
structure TextMethods where
  str : Json → String
  lower : String → String
  str_str : ∀ s, str (.str s) = s
  lower_lower : ∀ s, lower (lower s) = lower s
  lower_letters : ∀ s : String, (∀ c ∈ s.toList, 'a' ≤ c ∧ c ≤ 'z') → lower s = s

end Python

namespace Zyntry

open Python

inductive AccessError where
  | typeError
  | permissionError (message : String)
deriving DecidableEq, Repr

/-! ## Policies -/

/-- The values of `ROLE_DEFAULTS`. -/
structure RoleDefaults where
  canInvoke : Bool
  canReadSources : Bool
  canUseTools : Bool
  canWrite : Bool
deriving DecidableEq, Repr

structure RoleCapabilities extends RoleDefaults where
  allowedSources : List String
deriving DecidableEq, Repr

/-- The entry of `ROLE_DEFAULTS` for roles without one of their own. -/
def readonlyDefaults : RoleDefaults := ⟨true, true, false, false⟩

def roleDefaults : List (String × RoleDefaults) :=
  [("owner", ⟨true, true, true, true⟩),
   ("admin", ⟨true, true, true, true⟩),
   ("developer", ⟨true, true, true, false⟩),
   ("support", ⟨true, true, false, false⟩),
   ("instructor", ⟨true, true, true, false⟩),
   ("student", ⟨true, true, false, false⟩),
   ("readonly", readonlyDefaults)]

/-- The dict `policy["roles"]`; no entry is ever removed from the default one. -/
structure PolicyRoles where
  entries : AList fun _ : String => RoleCapabilities
  developer_mem : "developer" ∈ entries

namespace PolicyRoles

def insert (roles : PolicyRoles) (role : String) (entry : RoleCapabilities) : PolicyRoles where
  entries := roles.entries.insert role entry
  developer_mem := (AList.mem_insert _).2 (Or.inr roles.developer_mem)

def get? (roles : PolicyRoles) (role : String) : Option RoleCapabilities :=
  roles.entries.lookup role

end PolicyRoles

structure AccessPolicy where
  enabled : Bool
  defaultRole : String
  roles : PolicyRoles
  default_mem : defaultRole ∈ roles.entries

/-- `policy["roles"].get(role) or policy["roles"][policy["default_role"]]`. -/
def AccessPolicy.rolePolicy (policy : AccessPolicy) (role : String) : RoleCapabilities :=
  (policy.roles.get? role).getD
    ((policy.roles.get? policy.defaultRole).get (AList.lookup_isSome.2 policy.default_mem))

def defaultRoleEntries : List (Sigma fun _ : String => RoleCapabilities) :=
  roleDefaults.map fun (role, values) => ⟨role, { values with allowedSources := [] }⟩

theorem developer_mem_defaultRoleEntries : "developer" ∈ defaultRoleEntries.toAList :=
  AList.lookup_isSome.1 (by rw [AList.lookup_to_alist]; rfl)

/-- The roles of `default_access_policy`. -/
def defaultAccessPolicyRoles : PolicyRoles where
  entries := defaultRoleEntries.toAList
  developer_mem := developer_mem_defaultRoleEntries

/-- The items of an iterable value. -/
def iterate : Json → Except AccessError (List Json)
  | .arr items => .ok items
  | .obj fields => .ok (fields.map fun field => .str field.1)
  | .str s => .ok (s.toList.map fun c => .str c.toString)
  | _ => .error .typeError

section Normalization

variable (T : TextMethods)

def allowedSources (items : List Json) : List String :=
  ((items.filter fun item => stripped (T.str item) ≠ "").map
    fun item => T.lower (stripped (T.str item))).dedup.mergeSort (· ≤ ·)

def roleSetting (settings : List (String × Json)) (key : String) (value : Bool) : Bool :=
  ((Json.lookup key settings).map Json.truthy).getD value

def normalizeRole (roleName : String) (settings : List (String × Json)) :
    Except AccessError RoleCapabilities := do
  let defaults := (roleDefaults.lookup roleName).getD readonlyDefaults
  let items ← iterate ((Json.lookup "allowed_sources" settings).getD (.arr []))
  pure {
    canInvoke := roleSetting settings "can_invoke" defaults.canInvoke
    canReadSources := roleSetting settings "can_read_sources" defaults.canReadSources
    canUseTools := roleSetting settings "can_use_tools" defaults.canUseTools
    canWrite := roleSetting settings "can_write" defaults.canWrite
    allowedSources := allowedSources T items }

/-- One turn of the loop over the configured roles. -/
def configureRole (roles : PolicyRoles) : String × Json → Except AccessError PolicyRoles
  | (role, .obj settings) =>
      if T.lower (stripped role) = "" then .ok roles
      else do
        let entry ← normalizeRole T (T.lower (stripped role)) settings
        pure (roles.insert (T.lower (stripped role)) entry)
  | (_, _) => .ok roles

def configureRoles : Option Json → Except AccessError PolicyRoles
  | some (.obj fields) => fields.foldlM (configureRole T) defaultAccessPolicyRoles
  | _ => .ok defaultAccessPolicyRoles

/-- `str(value or default).strip().lower()`. -/
def normalizedText (value : Option Json) (default : String) : String :=
  match value with
  | some v => T.lower (stripped (if v.truthy then T.str v else default))
  | none => T.lower (stripped default)

/-- The policy whose default role is one of its roles. -/
def accessPolicy (enabled : Bool) (defaultRole : String) (roles : PolicyRoles) : AccessPolicy :=
  if h : defaultRole ∈ roles.entries then ⟨enabled, defaultRole, roles, h⟩
  else ⟨enabled, "developer", roles, roles.developer_mem⟩

def normalizeAccessPolicy (raw : Json) : Except AccessError AccessPolicy :=
  match raw with
  | .obj fields => do
      let roles ← configureRoles T (Json.lookup "roles" fields)
      pure (accessPolicy (roleSetting fields "enabled" true)
        (normalizedText T (Json.lookup "default_role" fields) "developer") roles)
  | _ => .ok (accessPolicy true "developer" defaultAccessPolicyRoles)

end Normalization

/-! ## Roles of a request -/

structure AccessUser where
  id : ℕ
  isSuperuser : Bool
  settings : Json

structure AccessRuntime where
  userId : ℕ
  config : Json

/-- The access policy in a runtime's configuration, `null` if there is none. -/
def AccessRuntime.accessControl (runtime : AccessRuntime) : Json :=
  (runtime.config.get? "access_control").getD .null

def rank (role : String) (default : ℤ) : ℤ :=
  ([("readonly", 0), ("student", 0), ("support", 1), ("developer", 2), ("instructor", 2),
    ("admin", 3), ("owner", 4)].lookup role).getD default

/-- `a or b` for values that may be missing. -/
def firstTruthy : List (Option Json) → Option Json
  | [] => none
  | some v :: rest => if v.truthy then some v else firstTruthy rest
  | none :: rest => firstTruthy rest

section Authorization

variable (T : TextMethods)

/-- The role of a user's settings. -/
def settingsRole (user : AccessUser) : String :=
  match firstTruthy [user.settings.get? "role", user.settings.get? "organization_role"] with
  | some role => T.lower (stripped (T.str role))
  | none => "developer"

/-- `item[5:]` of a scope that starts with `role:`. -/
def scopeRole (scope : String) : String := String.ofList (scope.toList.drop 5)

def isRoleHint (scope : String) : Bool := startsWith scope "role:"

/-- The first role that a scope hints at, in the order the set of scopes is gone through. -/
def roleScope (scopes : List String) : Option String :=
  (scopes.find? fun scope => isRoleHint scope && stripped (scopeRole scope) ≠ "").map
    fun scope => T.lower (stripped (scopeRole scope))

def resolveRole (user : AccessUser) (scopes : List String) : String :=
  if user.isSuperuser then "owner"
  else
    match roleScope T scopes with
    | some hint =>
        if hint ≠ "" ∧ rank hint (-1) ≤ rank (settingsRole T user) 2 then hint
        else settingsRole T user
    | none => settingsRole T user

/-- What the entry of a role says about a request. -/
def checkRole (role : String) (rolePolicy : RoleCapabilities) (requiresWrite : Bool)
    (sources : List String) : Except AccessError Unit := do
  raiseIf (rolePolicy.canInvoke = false)
    (.permissionError s!"Role '{role}' cannot invoke this runtime")
  raiseIf (requiresWrite = true ∧ rolePolicy.canWrite = false)
    (.permissionError s!"Role '{role}' cannot perform write operations")
  raiseIf (sources ≠ [] ∧ rolePolicy.canReadSources = false)
    (.permissionError s!"Role '{role}' cannot read runtime sources")
  raiseIf (sources ≠ [] ∧ rolePolicy.allowedSources ≠ [] ∧
      ¬sources.map T.lower ⊆ rolePolicy.allowedSources)
    (.permissionError "One or more requested sources are not allowed for this role")

def requestRole (runtime : AccessRuntime) (user : AccessUser) (scopes : List String) : String :=
  if runtime.userId = user.id then "owner" else resolveRole T user scopes

/-- `authorize_runtime_request`; no sources and no scopes are given by empty lists. -/
def authorizeRuntimeRequest (runtime : AccessRuntime) (user : AccessUser) (scopes : List String)
    (requiresWrite : Bool) (sources : List String) :
    Except AccessError (String × AccessPolicy) := do
  let policy ← normalizeAccessPolicy T runtime.accessControl
  let role := requestRole T runtime user scopes
  if runtime.accessControl.truthy = false ∨ policy.enabled = false then pure (role, policy)
  else do
    checkRole T role (policy.rolePolicy role) requiresWrite sources
    pure (role, policy)

end Authorization

/-! ## What an entry admits -/

section Entries

variable (T : TextMethods)

/-- The requests that an entry lets through. -/
structure RoleCapabilities.Admits (entry : RoleCapabilities) (requiresWrite : Bool)
    (sources : List String) : Prop where
  invoke : entry.canInvoke = true
  write : requiresWrite = true → entry.canWrite = true
  read : sources ≠ [] → entry.canReadSources = true
  allowed : sources ≠ [] → entry.allowedSources ≠ [] →
    sources.map T.lower ⊆ entry.allowedSources

theorem checkRole_eq_ok {role : String} {entry : RoleCapabilities} {requiresWrite : Bool}
    {sources : List String} :
    checkRole T role entry requiresWrite sources = .ok () ↔
      entry.Admits T requiresWrite sources := by
  simp only [checkRole, bind_eq_ok, raiseIf_eq_ok, exists_and_left, exists_const]
  constructor
  · rintro ⟨hinvoke, hwrite, hread, hallowed⟩
    refine ⟨by simpa using hinvoke, fun hw => ?_, fun hs => ?_, fun hs ha => ?_⟩
    · by_contra hcan
      exact hwrite ⟨hw, by simpa using hcan⟩
    · by_contra hcan
      exact hread ⟨hs, by simpa using hcan⟩
    · by_contra hsubset
      exact hallowed ⟨hs, ha, hsubset⟩
  · intro h
    refine ⟨by simp [h.invoke], ?_, ?_, ?_⟩
    · rintro ⟨hw, hcan⟩
      simp [h.write hw] at hcan
    · rintro ⟨hs, hcan⟩
      simp [h.read hs] at hcan
    · rintro ⟨hs, ha, hsubset⟩
      exact hsubset (h.allowed hs ha)

/-- Whatever an entry permits, the other one permits as well. -/
structure RoleCapabilities.Within (entry other : RoleCapabilities) : Prop where
  invoke : entry.canInvoke = true → other.canInvoke = true
  write : entry.canInvoke = true → entry.canWrite = true → other.canWrite = true
  read : entry.canInvoke = true → entry.canReadSources = true → other.canReadSources = true
  allowed : entry.canInvoke = true → entry.canReadSources = true → other.allowedSources ≠ [] →
    entry.allowedSources ≠ [] ∧ entry.allowedSources ⊆ other.allowedSources

theorem RoleCapabilities.Within.refl (entry : RoleCapabilities) : entry.Within entry :=
  ⟨id, fun _ => id, fun _ => id, fun _ _ h => ⟨h, List.Subset.refl _⟩⟩

theorem RoleCapabilities.Admits.mono {entry other : RoleCapabilities} {requiresWrite : Bool}
    {sources : List String} (h : entry.Within other) (ha : entry.Admits T requiresWrite sources) :
    other.Admits T requiresWrite sources where
  invoke := h.invoke ha.invoke
  write hw := h.write ha.invoke (ha.write hw)
  read hs := h.read ha.invoke (ha.read hs)
  allowed hs hother := by
    obtain ⟨hallowed, hsubset⟩ := h.allowed ha.invoke (ha.read hs) hother
    exact List.Subset.trans (ha.allowed hs hallowed) hsubset

/-- Some lower-case text is not in a list. -/
theorem exists_lower_notMem (l : List String) : ∃ s, T.lower s = s ∧ s ∉ l := by
  let letters : ℕ → String := fun n => String.ofList (List.replicate n 'a')
  have hinj : Function.Injective letters := by
    intro m n hmn
    simpa [letters] using congrArg (fun s => s.toList.length) hmn
  obtain ⟨n, hn⟩ := Infinite.exists_notMem_finset (l.toFinset.preimage letters hinj.injOn)
  refine ⟨letters n, T.lower_letters _ ?_, ?_⟩
  · intro c hc
    obtain rfl : c = 'a' := by
      simpa [letters] using (List.mem_replicate.1 (by simpa [letters] using hc)).2
    decide
  · simpa [Finset.mem_preimage] using hn

/-- An entry whose sources are in lower case admits no more requests than another one
exactly if it is within it. -/
theorem RoleCapabilities.forall_admits_iff {entry other : RoleCapabilities}
    (hlower : ∀ s ∈ entry.allowedSources, T.lower s = s) :
    (∀ requiresWrite sources, entry.Admits T requiresWrite sources →
      other.Admits T requiresWrite sources) ↔ entry.Within other := by
  constructor
  · intro h
    have hplain : entry.canInvoke = true → entry.Admits T false [] := fun hi =>
      ⟨hi, nofun, fun hs => absurd rfl hs, fun hs => absurd rfl hs⟩
    -- a source that the entry lets its role read
    have hone : ∀ s, entry.canInvoke = true → entry.canReadSources = true → T.lower s = s →
        (entry.allowedSources ≠ [] → s ∈ entry.allowedSources) → other.Admits T false [s] := by
      intro s hi hr hs hmem
      apply h
      refine ⟨hi, nofun, fun _ => hr, fun _ ha => ?_⟩
      simpa [hs] using hmem ha
    refine ⟨fun hi => (h _ _ (hplain hi)).invoke, fun hi hw => ?_, fun hi hr => ?_,
      fun hi hr hother => ?_⟩
    · have hwrite : entry.Admits T true [] :=
        ⟨hi, fun _ => hw, fun hs => absurd rfl hs, fun hs => absurd rfl hs⟩
      exact (h _ _ hwrite).write rfl
    · cases hallowed : entry.allowedSources with
      | nil =>
          have hempty : T.lower "" = "" := T.lower_letters _ (by simp)
          exact (hone "" hi hr hempty (by simp [hallowed])).read (by simp)
      | cons s rest =>
          have hs : s ∈ entry.allowedSources := by simp [hallowed]
          exact (hone s hi hr (hlower s hs) fun _ => hs).read (by simp)
    · have hsubset : entry.allowedSources ⊆ other.allowedSources := by
        intro s hs
        simpa [hlower s hs] using (hone s hi hr (hlower s hs) fun _ => hs).allowed (by simp) hother
      refine ⟨fun hnil => ?_, hsubset⟩
      obtain ⟨s, hs, hnot⟩ := exists_lower_notMem T other.allowedSources
      have hmem := (hone s hi hr hs fun hne => absurd hnil hne).allowed (by simp) hother
      exact hnot (by simpa [hs] using hmem)
  · intro h _ _ ha
    exact ha.mono T h

end Entries

/-! ## Sources of a normalised policy -/

section Lower

variable (T : TextMethods)

/-- A text after `.strip().lower()`. -/
def IsNormalised (s : String) : Prop := ∃ text, T.lower (stripped text) = s

/-- The sources of every role are normalised. -/
def PolicyRoles.Normalised (roles : PolicyRoles) : Prop :=
  ∀ role entry, roles.get? role = some entry → ∀ s ∈ entry.allowedSources, IsNormalised T s

theorem isNormalised_allowedSources {items : List Json} {s : String}
    (hs : s ∈ allowedSources T items) : IsNormalised T s := by
  simp only [allowedSources, List.mem_mergeSort, List.mem_dedup, List.mem_map] at hs
  obtain ⟨item, -, rfl⟩ := hs
  exact ⟨T.str item, rfl⟩

theorem normalizeRole_allowedSources {roleName : String} {settings : List (String × Json)}
    {entry : RoleCapabilities} (h : normalizeRole T roleName settings = .ok entry) :
    ∃ items, entry.allowedSources = allowedSources T items := by
  unfold normalizeRole at h
  obtain ⟨items, -, h⟩ := bind_eq_ok.1 h
  cases h
  exact ⟨items, rfl⟩

theorem PolicyRoles.Normalised.insert {roles : PolicyRoles} (h : roles.Normalised T)
    {role : String} {entry : RoleCapabilities}
    (hentry : ∀ s ∈ entry.allowedSources, IsNormalised T s) :
    (roles.insert role entry).Normalised T := by
  intro role' entry' hget
  by_cases hrole : role' = role
  · subst hrole
    simp only [get?, PolicyRoles.insert, AList.lookup_insert, Option.some.injEq] at hget
    exact hget ▸ hentry
  · simp only [get?, PolicyRoles.insert, AList.lookup_insert_ne hrole] at hget
    exact h role' entry' hget

theorem normalised_defaultAccessPolicyRoles : defaultAccessPolicyRoles.Normalised T := by
  intro role entry hget s hs
  have hnone : ∀ e ∈ defaultRoleEntries, e.2.allowedSources = [] := by decide
  simp only [PolicyRoles.get?, defaultAccessPolicyRoles, AList.lookup_to_alist] at hget
  have hmem := List.of_mem_dlookup hget
  rw [hnone _ hmem] at hs
  exact absurd hs List.not_mem_nil

theorem PolicyRoles.Normalised.configureRole {roles roles' : PolicyRoles}
    (h : roles.Normalised T) {field : String × Json}
    (hstep : configureRole T roles field = .ok roles') : roles'.Normalised T := by
  obtain ⟨role, value⟩ := field
  cases value with
  | obj settings =>
      simp only [Zyntry.configureRole] at hstep
      split_ifs at hstep with hempty
      · cases hstep
        exact h
      · obtain ⟨entry, hentry, hstep⟩ := bind_eq_ok.1 hstep
        cases hstep
        obtain ⟨items, hitems⟩ := normalizeRole_allowedSources T hentry
        exact h.insert T fun s hs => isNormalised_allowedSources T (hitems ▸ hs)
  | _ =>
      cases hstep
      exact h

theorem normalised_configureRoles {value : Option Json} {roles : PolicyRoles}
    (h : configureRoles T value = .ok roles) : roles.Normalised T := by
  have hfold : ∀ (fields : List (String × Json)) (start : PolicyRoles), start.Normalised T →
      fields.foldlM (configureRole T) start = .ok roles → roles.Normalised T := by
    intro fields
    induction fields with
    | nil =>
        intro start hstart h
        cases h
        exact hstart
    | cons field fields ih =>
        intro start hstart h
        rw [List.foldlM_cons] at h
        obtain ⟨next, hnext, h⟩ := bind_eq_ok.1 h
        exact ih next (hstart.configureRole T hnext) h
  unfold configureRoles at h
  split at h
  · exact hfold _ _ (normalised_defaultAccessPolicyRoles T) h
  · cases h
    exact normalised_defaultAccessPolicyRoles T

theorem accessPolicy_roles (enabled : Bool) (defaultRole : String) (roles : PolicyRoles) :
    (accessPolicy enabled defaultRole roles).roles = roles := by
  unfold accessPolicy
  split <;> rfl

theorem normalised_normalizeAccessPolicy {raw : Json} {policy : AccessPolicy}
    (h : normalizeAccessPolicy T raw = .ok policy) : policy.roles.Normalised T := by
  cases raw with
  | obj fields =>
      obtain ⟨roles, hroles, h⟩ := bind_eq_ok.1 h
      cases h
      rw [accessPolicy_roles]
      exact normalised_configureRoles T hroles
  | _ =>
      cases h
      rw [accessPolicy_roles]
      exact normalised_defaultAccessPolicyRoles T

/-- The entry that decides about a role is one of the policy's. -/
theorem AccessPolicy.exists_get?_eq_rolePolicy (policy : AccessPolicy) (role : String) :
    ∃ role', policy.roles.get? role' = some (policy.rolePolicy role) := by
  unfold AccessPolicy.rolePolicy
  cases hget : policy.roles.get? role with
  | some entry => exact ⟨role, by simpa using hget⟩
  | none => exact ⟨policy.defaultRole, (Option.some_get _).symm⟩

theorem normalised_rolePolicy {raw : Json} {policy : AccessPolicy}
    (h : normalizeAccessPolicy T raw = .ok policy) (role : String) :
    ∀ s ∈ (policy.rolePolicy role).allowedSources, IsNormalised T s := by
  obtain ⟨role', hget⟩ := policy.exists_get?_eq_rolePolicy role
  exact normalised_normalizeAccessPolicy T h role' _ hget

theorem lower_rolePolicy {raw : Json} {policy : AccessPolicy}
    (h : normalizeAccessPolicy T raw = .ok policy) (role : String) :
    ∀ s ∈ (policy.rolePolicy role).allowedSources, T.lower s = s := by
  intro s hs
  obtain ⟨text, rfl⟩ := normalised_rolePolicy T h role s hs
  exact T.lower_lower _

end Lower

/-! ## Hints -/

section Hints

variable (T : TextMethods)

/-- The request is let through. -/
def Permits (runtime : AccessRuntime) (user : AccessUser) (scopes : List String)
    (requiresWrite : Bool) (sources : List String) : Prop :=
  ∃ result, authorizeRuntimeRequest T runtime user scopes requiresWrite sources = .ok result

def AccessPolicy.Enforced (policy : AccessPolicy) (raw : Json) : Prop :=
  raw.truthy = true ∧ policy.enabled = true

theorem permits_iff {runtime : AccessRuntime} {user : AccessUser} {scopes : List String}
    {requiresWrite : Bool} {sources : List String} :
    Permits T runtime user scopes requiresWrite sources ↔
      ∃ policy, normalizeAccessPolicy T runtime.accessControl = .ok policy ∧
        (policy.Enforced runtime.accessControl →
          (policy.rolePolicy (requestRole T runtime user scopes)).Admits T requiresWrite
            sources) := by
  simp only [Permits, authorizeRuntimeRequest, bind_eq_ok]
  constructor
  · rintro ⟨result, policy, hpolicy, h⟩
    refine ⟨policy, hpolicy, fun ⟨hraw, henabled⟩ => ?_⟩
    rw [if_neg (by simp [hraw, henabled])] at h
    obtain ⟨_, hcheck, -⟩ := bind_eq_ok.1 h
    exact (checkRole_eq_ok T).1 hcheck
  · rintro ⟨policy, hpolicy, h⟩
    by_cases henforced : policy.Enforced runtime.accessControl
    · refine ⟨(requestRole T runtime user scopes, policy), policy, hpolicy, ?_⟩
      rw [if_neg (by simp [henforced.1, henforced.2]), bind_eq_ok]
      exact ⟨(), (checkRole_eq_ok T).2 (h henforced), rfl⟩
    · refine ⟨(requestRole T runtime user scopes, policy), policy, hpolicy, ?_⟩
      rw [if_pos (by simpa [AccessPolicy.Enforced, or_iff_not_imp_left] using henforced)]
      rfl

def withoutRoleHints (scopes : List String) : List String :=
  scopes.filter fun scope => !isRoleHint scope

theorem roleScope_withoutRoleHints (scopes : List String) :
    roleScope T (withoutRoleHints scopes) = none := by
  unfold roleScope
  rw [Option.map_eq_none_iff, List.find?_eq_none]
  intro scope hscope
  have hhint := (List.mem_filter.1 hscope).2
  simp only [Bool.not_eq_true'] at hhint
  simp [hhint]

/-- Where a request takes the role that its scopes hint at, the policy grants this role no
more than the one of the user's settings. -/
def HintNarrows (runtime : AccessRuntime) (user : AccessUser) (scopes : List String) : Prop :=
  runtime.userId ≠ user.id → user.isSuperuser = false →
    ∀ policy, normalizeAccessPolicy T runtime.accessControl = .ok policy →
      policy.Enforced runtime.accessControl →
        ∀ hint, roleScope T scopes = some hint → hint ≠ "" →
          rank hint (-1) ≤ rank (settingsRole T user) 2 →
            (policy.rolePolicy hint).Within (policy.rolePolicy (settingsRole T user))

theorem forall_permits_iff (runtime : AccessRuntime) (user : AccessUser)
    (scopes scopes' : List String) :
    (∀ requiresWrite sources, Permits T runtime user scopes requiresWrite sources →
      Permits T runtime user scopes' requiresWrite sources) ↔
    ∀ policy, normalizeAccessPolicy T runtime.accessControl = .ok policy →
      policy.Enforced runtime.accessControl →
        (policy.rolePolicy (requestRole T runtime user scopes)).Within
          (policy.rolePolicy (requestRole T runtime user scopes')) := by
  constructor
  · intro h policy hpolicy henforced
    rw [← RoleCapabilities.forall_admits_iff T (lower_rolePolicy T hpolicy _)]
    intro requiresWrite sources hadmits
    have hpermits := h requiresWrite sources ((permits_iff T).2 ⟨policy, hpolicy, fun _ => hadmits⟩)
    obtain ⟨policy', hpolicy', h'⟩ := (permits_iff T).1 hpermits
    obtain rfl : policy = policy' := Except.ok.inj (hpolicy.symm.trans hpolicy')
    exact h' henforced
  · intro h requiresWrite sources hpermits
    obtain ⟨policy, hpolicy, hadmits⟩ := (permits_iff T).1 hpermits
    refine (permits_iff T).2 ⟨policy, hpolicy, fun henforced => ?_⟩
    exact (hadmits henforced).mono T (h policy hpolicy henforced)

/-- Role hints never let a request through that is refused without them, exactly if the
policy's entry for the hinted role is within the one for the user's role. -/
theorem permits_withoutRoleHints_iff (runtime : AccessRuntime) (user : AccessUser)
    (scopes : List String) :
    (∀ requiresWrite sources, Permits T runtime user scopes requiresWrite sources →
      Permits T runtime user (withoutRoleHints scopes) requiresWrite sources) ↔
    HintNarrows T runtime user scopes := by
  rw [forall_permits_iff]
  have hown : runtime.userId ≠ user.id → user.isSuperuser = false →
      requestRole T runtime user (withoutRoleHints scopes) = settingsRole T user := by
    intro howner hsuper
    simp [requestRole, howner, resolveRole, hsuper, roleScope_withoutRoleHints]
  constructor
  · intro h howner hsuper policy hpolicy henforced hint hscope hne hrank
    have hrole : requestRole T runtime user scopes = hint := by
      simp [requestRole, howner, resolveRole, hsuper, hscope, hne, hrank]
    simpa only [hrole, hown howner hsuper] using h policy hpolicy henforced
  · intro h policy hpolicy henforced
    by_cases howner : runtime.userId = user.id
    · simp only [requestRole, if_pos howner]
      exact .refl _
    · cases hsuper : user.isSuperuser with
      | true =>
          simp only [requestRole, if_neg howner, resolveRole, hsuper, if_pos]
          exact .refl _
      | false =>
          rw [hown howner hsuper]
          have hrole : requestRole T runtime user scopes = resolveRole T user scopes := by
            simp [requestRole, howner]
          rw [hrole]
          unfold resolveRole
          rw [if_neg (by simp [hsuper])]
          cases hscope : roleScope T scopes with
          | none => exact .refl _
          | some hint =>
              dsimp only
              split_ifs with hadopted
              · exact h howner hsuper policy hpolicy henforced hint hscope hadopted.1 hadopted.2
              · exact .refl _

end Hints

/-! ## A custom role -/

/-- Text in which only ASCII letters have two cases, and `str` of the values that policies
are made of. -/
def asciiText : TextMethods where
  str
    | .str s => s
    | .null => "None"
    | .bool true => "True"
    | .bool false => "False"
    | .int n => toString n
    | _ => ""
  lower := lower
  str_str _ := rfl
  lower_lower := lower_lower
  lower_letters _ h := lower_of_letters h

/-- The role `publisher` may write, and the role of the user may not. -/
def publisherRuntime : AccessRuntime where
  userId := 1
  config := .obj [("access_control",
    .obj [("roles", .obj [("publisher", .obj [("can_write", .bool true)])])])]

def readonlyUser : AccessUser where
  id := 2
  isSuperuser := false
  settings := .obj [("role", .str "readonly")]

/-- A role without a rank is taken from a hint whatever the policy grants it. -/
theorem role_hint_elevates :
    Permits asciiText publisherRuntime readonlyUser ["role:publisher"] true [] ∧
      ¬Permits asciiText publisherRuntime readonlyUser (withoutRoleHints ["role:publisher"])
        true [] :=
  ⟨exists_ok_iff.2 (by decide +kernel), fun h =>
    absurd (exists_ok_iff.1 h) (by decide +kernel)⟩

end Zyntry
