import Zyntry.CredentialIsolation
import Zyntry.RuntimePolicies

/-!
# What a call does to the rows of a runtime

Each call that changes integrations or connections either materializes policies, edits a row,
switches its mode, links it to a managed connection, or revokes a connection. What a call
will do is read off its arguments and the tables, without running it.
-/

namespace Zyntry

open Python

/-! ## Calls -/

inductive RuntimeOperation where
  | call (call : IntegrationCall)
  | reconcile (runtimeId : Uuid) (config : Fields) (policies : List Json)
      (canonicalizeSlugs : Bool)

section

variable (registry : IntegrationRegistry) (tenancy : Tenancy)

/-- A call that fails is rolled back. -/
def playRuntimeOperation (s : IntegrationStore) : RuntimeOperation → IntegrationStore
  | .call call => playIntegrationCall registry tenancy s call
  | .reconcile runtimeId config policies canonicalizeSlugs =>
      match reconcileRuntimePolicies registry tenancy s runtimeId config policies
        canonicalizeSlugs with
      | .ok (s', _) => s'
      | .error _ => s

/-! ## What a call is about to do -/

/-- The policy of an enabling call that passes the checks. -/
def RuntimeIntegrationCreate.policy (data : RuntimeIntegrationCreate) : Option RuntimePolicy :=
  match registry.get data.integrationSlug with
  | none => none
  | some definition =>
      let enabledCapabilities :=
        if data.enabledCapabilities = [] then definition.readCapabilities
        else data.enabledCapabilities
      if definition.status ∈ ["available", "beta"] ∧
          definition.invalidCapabilities enabledCapabilities = [] then
        match resolveConnectionMode registry definition.slug data.connectionMode with
        | .error _ => none
        | .ok (mode, _) => some
            { integrationSlug := data.integrationSlug
              requestedConnectionMode := data.connectionMode
              connectionMode := mode.getD "zyntry_managed"
              enabledCapabilities
              config := data.config }
      else none

def RuntimeIntegrationCreate.materialized (data : RuntimeIntegrationCreate) :
    Option MaterializedPolicy :=
  (data.policy registry).bind fun policy =>
    (readPolicy registry .null false (.obj policy.fields)).toOption.join

/-- The policies that a call writes to rows of a runtime. -/
def RuntimeOperation.materialized : RuntimeOperation → List (Uuid × MaterializedPolicy)
  | .call (.enable _ runtimeId data) =>
      if (tenancy.runtimes runtimeId).isSome then
        ((data.materialized registry).map fun policy => (runtimeId, policy)).toList
      else []
  | .reconcile runtimeId config policies canonicalizeSlugs =>
      match tenancy.runtimes runtimeId,
          policies.mapM (readPolicy registry (defaultConnectionMode config) canonicalizeSlugs) with
      | some _, .ok read => read.reduceOption.map fun policy => (runtimeId, policy)
      | _, _ => []
  | _ => []

/-- The mode that a row has after an update that passes the checks. -/
def RuntimeIntegrationUpdate.nextMode (data : RuntimeIntegrationUpdate)
    (existing : RuntimeIntegration) : Option String :=
  let invalid := (registry.get existing.integrationSlug).elim [] fun definition =>
    definition.invalidCapabilities (data.enabledCapabilities.getD [])
  if invalid ≠ [] then none
  else
    match data.connectionMode with
    | none => some existing.connectionMode
    | some mode =>
        if (registry.get existing.integrationSlug).isNone then none
        else nextConnectionMode registry existing.integrationSlug mode

/-- The row that an authorization links to a connection that exists. -/
def IntegrationStore.authorizedLink (s : IntegrationStore) (query : FirstRow) (caller : Uuid)
    (slug : String) (data : ConnectionAuthorizeRequest) : Option (Uuid × String) :=
  match registry.get slug, s.authorizedRow slug data with
  | some definition, .ok (_, some row) =>
      if "oauth2" ∈ definition.authMethods ∧ data.connectionMode ∈ definition.connectionModes ∧
          data.connectionMode = "zyntry_managed" ∧
          (s.getZyntryManaged query caller slug).isSome then some row.key
      else none
  | _, _ => none

instance IntegrationStore.decidableAcceptsCallback (s : IntegrationStore) (now : ℤ) (newId : Uuid)
    (exchanged : Except IntegrationError TokenData) (slug : String) (expectedUserId : Option Uuid)
    (pending : OAuthState) : Decidable (s.AcceptsCallback registry tenancy now newId exchanged slug
      expectedUserId pending) := by
  unfold IntegrationStore.AcceptsCallback
  infer_instance

/-- The row that a callback links to the connection that it makes. -/
def IntegrationStore.callbackLink (s : IntegrationStore) (caller : Option Uuid) (now : ℤ)
    (newId : Uuid) (exchanged : Except IntegrationError TokenData) (slug state : String) :
    Option (Uuid × String) :=
  (s.oauthStates.get? state).bind fun pending =>
    if s.AcceptsCallback registry tenancy now newId exchanged slug caller pending ∧
        pending.mode = "zyntry_managed" then
      pending.runtimeId.map fun runtimeId => (runtimeId, slug)
    else none

/-- The row that a direct connection is linked to. -/
def IntegrationStore.directLink (s : IntegrationStore) (newId : Uuid)
    (data : ConnectionDirectCreate) : Option (Uuid × String) :=
  match registry.get data.integrationSlug, runtimeUuid data.runtimeId with
  | some definition, some (some runtimeId) =>
      if data.connectionMode = "zyntry_managed" ∧ (s.connections.get? newId).isNone then
        ((s.requestedIntegration runtimeId data.integrationSlug definition.slug).filter
          RuntimeIntegration.isEnabled).map RuntimeIntegration.key
      else none
  | _, _ => none

/-- The id of the connection that a call makes. -/
def RuntimeOperation.newId : RuntimeOperation → Option Uuid
  | .call (.callback _ _ newId _ _ _) => some newId
  | .call (.createDirect _ newId _) => some newId
  | _ => none

/-- The row that a call links to a managed connection. -/
def RuntimeOperation.link (s : IntegrationStore) : RuntimeOperation → Option (Uuid × String)
  | .call (.authorize caller query _ _ slug data) =>
      s.authorizedLink registry query caller slug data
  | .call (.callback caller now newId exchanged slug state) =>
      s.callbackLink registry tenancy caller now newId exchanged slug state
  | .call (.createDirect _ newId data) => s.directLink registry newId data
  | _ => none

end

/-! ## What it does to a row -/

/-- The connection of the row is an active one of its mode and slug. -/
def IntegrationStore.UsesActive (s : IntegrationStore) (row : RuntimeIntegration) : Prop :=
  ∃ id c, row.connectionId = some id ∧ s.connections.get? id = some c ∧ c.status = "active" ∧
    c.connectionMode = row.connectionMode ∧ c.integrationSlug = row.integrationSlug

/-- The row is connected by an active connection, or it has none. -/
def IntegrationStore.Attached (s : IntegrationStore) (row : RuntimeIntegration) : Prop :=
  (row.connectionStatus = "connected" ∧ s.UsesActive row) ∨
    (row.connectionStatus ≠ "connected" ∧ row.connectionId = none)

/-- The row with the values of an update, the mode apart. -/
def RuntimeIntegrationUpdate.edit (data : RuntimeIntegrationUpdate) (row : RuntimeIntegration) :
    RuntimeIntegration :=
  { row with
    enabledCapabilities := data.enabledCapabilities.getD row.enabledCapabilities
    isEnabled := data.isEnabled.getD row.isEnabled
    config := data.config.getD row.config }

/-- What a call that takes `s` to `s'` makes of the row of a runtime and an integration. -/
inductive RowStep (registry : IntegrationRegistry) (tenancy : Tenancy) (op : RuntimeOperation)
    (s s' : IntegrationStore) : Option RuntimeIntegration → RuntimeIntegration → Prop
  | kept (row) : RowStep registry tenancy op s s' (some row) row
  | materialized {old row policy} :
      (row.runtimeId, policy) ∈ op.materialized registry tenancy →
      row.integrationSlug = policy.storageSlug → row.connectionMode = policy.mode →
      row.config = policy.rowConfig → s'.Attached row →
      RowStep registry tenancy op s s' old row
  | edited {caller row} {data : RuntimeIntegrationUpdate} :
      op = .call (.update caller row.runtimeId row.integrationSlug data) →
      data.nextMode registry row = some row.connectionMode →
      RowStep registry tenancy op s s' (some row) (data.edit row)
  | switched {caller row data mode nextMode resolution} :
      op = .call (.update caller row.runtimeId row.integrationSlug data) →
      data.nextMode registry row = some nextMode → nextMode ≠ row.connectionMode →
      RowStep registry tenancy op s s' (some row) (data.edit (row.switchMode
        (s.restoredConnection row.config nextMode) mode nextMode resolution))
  | linked {row required c} :
      op.link registry tenancy s = some row.key → s'.connections.get? c.id = some c →
      c.status = "active" → c.connectionMode = "zyntry_managed" →
      c.integrationSlug = row.integrationSlug →
      RowStep registry tenancy op s s' (some row)
        { row with
          connectionId := some c.id
          connectionRequired := required
          connectionStatus := "connected" }

theorem get?_saveIntegration (s : IntegrationStore) (row : RuntimeIntegration)
    (key : Uuid × String) :
    (s.saveIntegration row).integrations.get? key =
      if key = row.key then (s.integrations.get? key).map fun _ => row
      else s.integrations.get? key := by
  let save := fun r : RuntimeIntegration =>
    { row with runtimeId := r.runtimeId, integrationSlug := r.integrationSlug }
  split_ifs with hkey
  · subst hkey
    have hself : (s.saveIntegration row).integrations.get? row.key =
        (s.integrations.get? row.key).map save :=
      RowTable.get?_update_self s.integrations row.key save fun _ => rfl
    rw [hself]
    cases hget : s.integrations.get? row.key with
    | none => rfl
    | some existing =>
        obtain ⟨hruntime, hslug⟩ := columns_of_get? hget
        simp [save, hruntime, hslug]
  · exact RowTable.get?_update_of_ne s.integrations hkey save fun _ => rfl

theorem get?_writeIntegration (s : IntegrationStore) (row : RuntimeIntegration)
    (key : Uuid × String) :
    (s.writeIntegration row).integrations.get? key =
      if key = row.key then some row else s.integrations.get? key := by
  unfold IntegrationStore.writeIntegration
  split
  · rename_i existing hget
    rw [get?_saveIntegration]
    split_ifs with hkey
    · rw [hkey, hget]
      rfl
    · rfl
  · rename_i hget
    split_ifs with hkey
    · rw [hkey]
      exact RowTable.get?_insert_self hget
    · exact RowTable.get?_insert_of_ne _ hkey

theorem writeIntegration_connections (s : IntegrationStore) (row : RuntimeIntegration) :
    (s.writeIntegration row).connections = s.connections := by
  unfold IntegrationStore.writeIntegration
  split <;> rfl

/-! ## Materialized policies -/

theorem linkedConnection_valid {s : IntegrationStore} {runtimeId : Uuid} {slug mode : String}
    {c : IntegrationConnection} (h : s.linkedConnection runtimeId slug mode = some c) :
    c.status = "active" ∧ c.integrationSlug = slug ∧ c.connectionMode = mode := by
  simpa using (Option.filter_eq_some_iff.mp h).2

theorem attached_congr {s s' : IntegrationStore} (h : s'.connections = s.connections)
    (row : RuntimeIntegration) : s'.Attached row ↔ s.Attached row := by
  unfold IntegrationStore.Attached IntegrationStore.UsesActive
  rw [h]

/-- The row of a policy keeps its connection only if that is a valid one. -/
theorem attached_materializedRow (s : IntegrationStore) (runtimeId : Uuid)
    (policy : MaterializedPolicy) : s.Attached (s.materializedRow runtimeId policy) := by
  unfold IntegrationStore.materializedRow
  cases hc : s.linkedConnection runtimeId policy.storageSlug policy.mode with
  | some c =>
      obtain ⟨hactive, hslug, hmode⟩ := linkedConnection_valid hc
      exact .inl ⟨rfl, c.id, c, rfl, (linkedConnection_spec hc).2.1, hactive, hmode, hslug⟩
  | none =>
      refine .inr ⟨?_, rfl⟩
      simp only [MaterializedPolicy.row, Option.isSome_none, Bool.false_eq_true, if_false]
      split_ifs <;> decide

/-- What a row is after policies have been written to rows of a runtime. -/
structure WrittenPolicy (s : IntegrationStore) (runtimeId : Uuid) (policy : MaterializedPolicy)
    (row : RuntimeIntegration) : Prop where
  runtime : row.runtimeId = runtimeId
  slug : row.integrationSlug = policy.storageSlug
  mode : row.connectionMode = policy.mode
  config : row.config = policy.rowConfig
  attached : s.Attached row

theorem materialize_connections (s : IntegrationStore) (runtimeId : Uuid)
    (policy : MaterializedPolicy) : (s.materialize runtimeId policy).connections = s.connections :=
  writeIntegration_connections s _

theorem materializeAll_spec (runtimeId : Uuid) (policies : List MaterializedPolicy)
    (s : IntegrationStore) :
    (policies.foldl (fun s policy => s.materialize runtimeId policy) s).connections =
        s.connections ∧
      ∀ key row, (policies.foldl (fun s policy => s.materialize runtimeId policy)
          s).integrations.get? key = some row →
        s.integrations.get? key = some row ∨
          ∃ policy ∈ policies, WrittenPolicy s runtimeId policy row := by
  induction policies generalizing s with
  | nil => exact ⟨rfl, fun _ _ h => .inl h⟩
  | cons policy policies ih =>
      have hconnections := materialize_connections s runtimeId policy
      obtain ⟨hkept, hrows⟩ := ih (s.materialize runtimeId policy)
      refine ⟨hkept.trans hconnections, fun key row h => ?_⟩
      rcases hrows key row h with hfirst | ⟨later, hlater, hwritten⟩
      · rw [IntegrationStore.materialize, get?_writeIntegration] at hfirst
        split_ifs at hfirst with hkey
        · obtain rfl := Option.some.inj hfirst
          exact .inr ⟨policy, List.mem_cons_self, rfl, rfl, rfl, rfl,
            attached_materializedRow s runtimeId policy⟩
        · exact .inl hfirst
      · refine .inr ⟨later, List.mem_cons_of_mem _ hlater, hwritten.runtime, hwritten.slug,
          hwritten.mode, hwritten.config, ?_⟩
        exact (attached_congr hconnections row).1 hwritten.attached

/-- The policies that a call reads are written in their order. -/
theorem reconcileRuntimePolicies_spec {registry : IntegrationRegistry} {tenancy : Tenancy}
    {s s' : IntegrationStore} {runtimeId : Uuid} {config : Fields} {policies : List Json}
    {canonicalizeSlugs : Bool} {rows : List RuntimeIntegration}
    (h : reconcileRuntimePolicies registry tenancy s runtimeId config policies
      canonicalizeSlugs = .ok (s', rows)) :
    (tenancy.runtimes runtimeId).isSome ∧ ∃ read,
      policies.mapM (readPolicy registry (defaultConnectionMode config) canonicalizeSlugs) =
        .ok read ∧
      s' = read.reduceOption.foldl (fun s policy => s.materialize runtimeId policy) s := by
  unfold reconcileRuntimePolicies at h
  split at h
  · cases h
  · rename_i runtime hruntime
    refine ⟨by rw [hruntime]; rfl, ?_⟩
    generalize hstart : (s, ([] : List RuntimeIntegration)) = start at h
    obtain rfl : start.1 = s := by rw [← hstart]
    clear hstart
    induction policies generalizing start with
    | nil =>
        obtain ⟨rfl, -⟩ := Prod.mk.inj (Except.ok.inj h)
        exact ⟨[], rfl, rfl⟩
    | cons rawPolicy policies ih =>
        rw [List.foldlM_cons] at h
        obtain ⟨next, hfirst, h⟩ := bind_eq_ok.mp h
        obtain ⟨policy, hread, hfirst⟩ := bind_eq_ok.mp hfirst
        obtain ⟨read, hrest, rfl⟩ := ih next h
        refine ⟨policy :: read, ?_, ?_⟩
        · rw [List.mapM_cons, hread, hrest]
          rfl
        · cases policy with
          | none =>
              obtain rfl := Except.ok.inj hfirst
              rfl
          | some policy =>
              obtain rfl := Except.ok.inj hfirst
              rfl

theorem resolvedMode_ne_empty {registry : IntegrationRegistry} {slug requestedMode : String}
    {mode : Option String} {modeResolution : String}
    (h : resolveConnectionMode registry slug requestedMode = .ok (mode, modeResolution)) :
    mode.getD "zyntry_managed" ≠ "" := by
  unfold resolveConnectionMode at h
  split_ifs at h with hempty
  · obtain ⟨rfl, -⟩ := Prod.mk.inj (Except.ok.inj h)
    decide
  · split at h
    · obtain ⟨rfl, -⟩ := Prod.mk.inj (Except.ok.inj h)
      exact hempty
    · split_ifs at h
      · obtain ⟨rfl, -⟩ := Prod.mk.inj (Except.ok.inj h)
        decide
      · obtain ⟨rfl, -⟩ := Prod.mk.inj (Except.ok.inj h)
        exact hempty

theorem readPolicy_of_reconcileRuntimePolicy {registry : IntegrationRegistry}
    {s s' : IntegrationStore} {runtimeId : Uuid} {policy : RuntimePolicy}
    {row : RuntimeIntegration} (hmode : policy.connectionMode ≠ "")
    (h : reconcileRuntimePolicy registry s runtimeId policy = .ok (some (s', row))) :
    ∃ p, readPolicy registry .null false (.obj policy.fields) = .ok (some p) ∧
      s' = s.materialize runtimeId p := by
  have hread := reconcileRuntimePolicy_eq policy registry s runtimeId .null hmode
  rw [h] at hread
  obtain ⟨read, hread, hwritten⟩ := map_eq_ok.mp hread.symm
  obtain ⟨p, rfl, hp⟩ := Option.map_eq_some_iff.mp hwritten
  exact ⟨p, hread, (Prod.mk.inj hp).1.symm⟩

/-- An enabling call that succeeds writes its policy. -/
theorem enableRuntimeIntegration_policy {registry : IntegrationRegistry} {tenancy : Tenancy}
    {s s' : IntegrationStore} {runtimeId : Uuid} {data : RuntimeIntegrationCreate}
    {userId : Option Uuid} {row : RuntimeIntegration}
    (h : enableRuntimeIntegration registry tenancy s runtimeId data userId = .ok (s', row)) :
    (tenancy.runtimes runtimeId).isSome ∧
      ∃ policy, data.materialized registry = some policy ∧
        s' = s.materialize runtimeId policy := by
  unfold enableRuntimeIntegration at h
  split at h
  · cases h
  · rename_i runtime hruntime
    refine ⟨by rw [hruntime]; rfl, ?_⟩
    obtain ⟨-, -, h⟩ := bind_eq_ok.mp h
    split at h
    · cases h
    · rename_i definition hdefinition
      obtain ⟨_, hstatus, h⟩ := bind_eq_ok.mp h
      obtain ⟨_, hvalid, h⟩ := bind_eq_ok.mp h
      obtain ⟨⟨mode, modeResolution⟩, hresolved, h⟩ := bind_eq_ok.mp h
      obtain ⟨created, hcreated, h⟩ := bind_eq_ok.mp h
      split at h
      · obtain rfl := Except.ok.inj h
        obtain ⟨p, hread, rfl⟩ :=
          readPolicy_of_reconcileRuntimePolicy (resolvedMode_ne_empty hresolved) hcreated
        refine ⟨p, ?_, rfl⟩
        have hpolicy : data.policy registry = some
            { integrationSlug := data.integrationSlug
              requestedConnectionMode := data.connectionMode
              connectionMode := mode.getD "zyntry_managed"
              enabledCapabilities := if data.enabledCapabilities = [] then
                  definition.readCapabilities else data.enabledCapabilities
              config := data.config } := by
          have hchecks : definition.status ∈ ["available", "beta"] ∧
              definition.invalidCapabilities (if data.enabledCapabilities = [] then
                definition.readCapabilities else data.enabledCapabilities) = [] :=
            ⟨not_not.mp (raiseIf_eq_ok.mp hstatus), not_not.mp (raiseIf_eq_ok.mp hvalid)⟩
          simp only [RuntimeIntegrationCreate.policy, hdefinition, if_pos hchecks, hresolved]
        rw [RuntimeIntegrationCreate.materialized, hpolicy, Option.bind_some, hread]
        rfl
      · cases h

/-! ## Updates and links -/

/-- An update that succeeds edits its row, after a switch of the mode or without one. -/
theorem updateRuntimeIntegration_row {registry : IntegrationRegistry} {s s' : IntegrationStore}
    {runtimeId : Uuid} {slug : String} {data : RuntimeIntegrationUpdate}
    {row : RuntimeIntegration}
    (h : updateRuntimeIntegration registry s runtimeId slug data = .ok (s', row)) :
    ∃ existing nextMode, s.integrations.get? (runtimeId, slug) = some existing ∧
      data.nextMode registry existing = some nextMode ∧ s' = s.saveIntegration row ∧
      ((nextMode = existing.connectionMode ∧ row = data.edit existing) ∨
        (nextMode ≠ existing.connectionMode ∧ ∃ mode resolution, row =
          data.edit (existing.switchMode (s.restoredConnection existing.config nextMode) mode
            nextMode resolution))) := by
  unfold updateRuntimeIntegration at h
  split at h
  · cases h
  · rename_i existing hexisting
    obtain ⟨switched, hswitched, h⟩ := bind_eq_ok.mp h
    obtain ⟨_, hvalid, h⟩ := bind_eq_ok.mp h
    obtain ⟨rfl, rfl⟩ := Prod.mk.inj (Except.ok.inj h)
    have hslug := (columns_of_get? hexisting).2
    have hvalid : ((registry.get existing.integrationSlug).elim [] fun definition =>
        definition.invalidCapabilities (data.enabledCapabilities.getD [])) = [] :=
      hslug ▸ not_not.mp (raiseIf_eq_ok.mp hvalid)
    unfold RuntimeIntegration.requestMode at hswitched
    cases hmode : data.connectionMode with
    | none =>
        rw [hmode] at hswitched
        obtain rfl := Except.ok.inj hswitched
        refine ⟨existing, existing.connectionMode, hexisting, ?_, rfl, .inl ⟨rfl, rfl⟩⟩
        simp only [RuntimeIntegrationUpdate.nextMode, hvalid, hmode, ne_eq, not_true_eq_false,
          if_false]
    | some mode =>
        rw [hmode] at hswitched
        obtain ⟨_, hknown, hswitched⟩ := bind_eq_ok.mp hswitched
        obtain ⟨⟨next, resolution⟩, hresolved, hswitched⟩ := bind_eq_ok.mp hswitched
        have hnext : nextConnectionMode registry existing.integrationSlug mode =
            some (next.getD "zyntry_managed") := by
          rw [nextConnectionMode, hresolved]
          rfl
        refine ⟨existing, next.getD "zyntry_managed", hexisting, ?_, rfl, ?_⟩
        · simp only [RuntimeIntegrationUpdate.nextMode, hvalid, hmode, ne_eq, not_true_eq_false,
            if_false]
          rw [if_neg (raiseIf_eq_ok.mp hknown), hnext]
        · dsimp only at hswitched
          split_ifs at hswitched with hsame
          · obtain rfl := Except.ok.inj hswitched
            exact .inl ⟨hsame, rfl⟩
          · obtain rfl := Except.ok.inj hswitched
            exact .inr ⟨hsame, mode, resolution, rfl⟩

theorem get?_linkManaged (s : IntegrationStore) (c : IntegrationConnection)
    {key : Uuid × String} {row : RuntimeIntegration}
    (h : (s.linkManaged c).integrations.get? key = some row) :
    s.integrations.get? key = some row ∨
      (c.connectionMode = "zyntry_managed" ∧ c.runtimeId = some key.1 ∧
        c.integrationSlug = key.2 ∧ ∃ existing, s.integrations.get? key = some existing ∧
          row = { existing with
            connectionId := some c.id
            connectionStatus := "connected" }) := by
  unfold IntegrationStore.linkManaged at h
  split at h
  · rename_i existing hexisting
    obtain ⟨runtimeId, hruntime, hget⟩ := Option.bind_eq_some_iff.mp hexisting
    have hkey : existing.key = (runtimeId, c.integrationSlug) := RowTable.get?_some_key hget
    split_ifs at h with hmode
    · rw [get?_saveIntegration] at h
      split_ifs at h with hsame
      · obtain ⟨r, hr, rfl⟩ := Option.map_eq_some_iff.mp h
        have hsame : key = (runtimeId, c.integrationSlug) := hsame.trans hkey
        subst hsame
        exact .inr ⟨hmode, hruntime, rfl, existing, hget, rfl⟩
      · exact .inl h
    · exact .inl h
  · exact .inl h

theorem linkManaged_connections (s : IntegrationStore) (c : IntegrationConnection) :
    (s.linkManaged c).connections = s.connections := by
  unfold IntegrationStore.linkManaged
  split
  · split_ifs <;> rfl
  · rfl

/-! ## Steps -/

section

variable {registry : IntegrationRegistry} {tenancy : Tenancy} {s s' : IntegrationStore}
  {key : Uuid × String} {row : RuntimeIntegration}

theorem rowStep_kept {op : RuntimeOperation} (h : s'.integrations.get? key = some row)
    (hkept : s'.integrations = s.integrations) :
    RowStep registry tenancy op s s' (s.integrations.get? key) row := by
  rw [← hkept, h]
  exact .kept row

theorem rowStep_update {caller runtimeId : Uuid} {slug : String}
    {data : RuntimeIntegrationUpdate} {updated : RuntimeIntegration}
    (h : updateRuntimeIntegration registry s runtimeId slug data = .ok (s', updated))
    (hrow : s'.integrations.get? key = some row) :
    RowStep registry tenancy (.call (.update caller runtimeId slug data)) s s'
      (s.integrations.get? key) row := by
  obtain ⟨existing, nextMode, hexisting, hnext, rfl, hupdated⟩ := updateRuntimeIntegration_row h
  obtain ⟨rfl, rfl⟩ := columns_of_get? hexisting
  have hkey : updated.key = existing.key := by
    rcases hupdated with ⟨-, rfl⟩ | ⟨-, mode, resolution, rfl⟩
    · rfl
    · unfold RuntimeIntegration.switchMode
      split <;> rfl
  rw [get?_saveIntegration, hkey] at hrow
  split_ifs at hrow with hsame
  · subst hsame
    rw [RuntimeIntegration.key, hexisting] at hrow ⊢
    obtain rfl := Option.some.inj hrow
    rcases hupdated with ⟨rfl, rfl⟩ | ⟨hne, mode, resolution, rfl⟩
    · exact .edited rfl hnext
    · exact .switched rfl hnext hne
  · rw [hrow]
    exact .kept row

theorem rowStep_materialized {op : RuntimeOperation} {runtimeId : Uuid}
    {policies : List MaterializedPolicy}
    (hop : ∀ policy ∈ policies, (runtimeId, policy) ∈ op.materialized registry tenancy)
    (hrow : (policies.foldl (fun s policy => s.materialize runtimeId policy)
      s).integrations.get? key = some row) :
    RowStep registry tenancy op s
      (policies.foldl (fun s policy => s.materialize runtimeId policy) s)
      (s.integrations.get? key) row := by
  obtain ⟨hconnections, hrows⟩ := materializeAll_spec runtimeId policies s
  rcases hrows key row hrow with hkept | ⟨policy, hpolicy, hwritten⟩
  · rw [hkept]
    exact .kept row
  · refine .materialized (hwritten.runtime ▸ hop policy hpolicy) hwritten.slug hwritten.mode
      hwritten.config ?_
    exact (attached_congr hconnections row).2 hwritten.attached

theorem rowStep_authorize {caller : Uuid} {query : FirstRow} {now : ℤ} {flow : Option String}
    {slug : String} {data : ConnectionAuthorizeRequest} {response : ConnectionAuthorizeResponse}
    (h : authorize registry s query now flow slug (some caller) data = .ok (s', response))
    (hrow : s'.integrations.get? key = some row) :
    RowStep registry tenancy (.call (.authorize caller query now flow slug data)) s s'
      (s.integrations.get? key) row := by
  rcases authorize_spec h with ⟨hkept, -⟩ |
    ⟨definition, existing, u, c, hdefinition, hoauth, hmodes, hmode, hauthorized, hu, hc, rfl⟩
  · exact rowStep_kept hrow hkept
  · obtain rfl := Option.some.inj hu
    obtain ⟨-, -, hexisting⟩ := authorizedRow_spec hauthorized
    obtain ⟨hget, -, hcslug, hcmode, hactive⟩ := getZyntryManaged_spec hc
    obtain rfl : existing.integrationSlug = slug := (columns_of_get? hexisting).2
    rw [IntegrationStore.linkExisting, if_pos rfl] at hrow ⊢
    rw [get?_saveIntegration] at hrow
    split_ifs at hrow with hsame
    · subst hsame
      have hexisting : s.integrations.get? existing.key = some existing := hexisting
      change (s.integrations.get? existing.key).map _ = _ at hrow
      change RowStep _ _ _ _ _ (s.integrations.get? existing.key) _
      rw [hexisting] at hrow ⊢
      obtain rfl := Option.some.inj hrow
      refine .linked ?_ hget hactive hcmode hcslug
      simp only [RuntimeOperation.link, IntegrationStore.authorizedLink, hdefinition, hauthorized]
      rw [if_pos ⟨hoauth, hmodes, hmode, by rw [hc]; rfl⟩]
    · rw [hrow]
      exact .kept row

/-- A connection that is made and linked changes no other row than the one that the call is
about to link. -/
theorem rowStep_created {op : RuntimeOperation} {s₁ : IntegrationStore}
    {c : IntegrationConnection} (hcreated : s.createConnection c = .ok s₁)
    (hactive : c.status = "active") (hintegrations : s'.integrations = (s₁.linkManaged c).integrations)
    (hconnections : s'.connections = s₁.connections)
    (hlink : c.connectionMode = "zyntry_managed" → c.runtimeId = some key.1 →
      c.integrationSlug = key.2 → op.link registry tenancy s = some key)
    (hrow : s'.integrations.get? key = some row) :
    RowStep registry tenancy op s s' (s.integrations.get? key) row := by
  obtain ⟨hfree, rfl⟩ := createConnection_ok_iff.mp hcreated
  rw [hintegrations] at hrow
  rcases get?_linkManaged _ c hrow with hkept | ⟨hmode, hruntime, hslug, existing, hexisting, rfl⟩
  · have hkept : s.integrations.get? key = some row := hkept
    rw [hkept]
    exact .kept row
  · have hexisting : s.integrations.get? key = some existing := hexisting
    obtain rfl : existing.key = key := RowTable.get?_some_key hexisting
    rw [hexisting]
    refine .linked (hlink hmode hruntime hslug) ?_ hactive hmode hslug
    rw [hconnections]
    exact RowTable.get?_insert_self hfree

theorem rowStep_callback {caller : Option Uuid} {now : ℤ} {newId : Uuid}
    {exchanged : Except IntegrationError TokenData} {slug state : String}
    {c : IntegrationConnection}
    (h : handleCallback registry tenancy s now newId exchanged slug state caller = .ok (s', c))
    (hrow : s'.integrations.get? key = some row) :
    RowStep registry tenancy (.call (.callback caller now newId exchanged slug state)) s s'
      (s.integrations.get? key) row := by
  obtain ⟨pending, s₁, hpending, haccepts, -, hruntime, hslug, hmode, hactive, hcreated, rfl⟩ :=
    handleCallback_spec h
  refine rowStep_created hcreated hactive rfl (linkManaged_connections s₁ c) ?_ hrow
  intro hmanaged hkey hkeySlug
  rw [RuntimeOperation.link, IntegrationStore.callbackLink, hpending, Option.bind_some,
    if_pos ⟨haccepts, hmode.symm.trans hmanaged⟩, ← hruntime, hkey, ← hslug, hkeySlug]
  rfl

theorem requestedIntegration_runtimeId {runtimeId : Uuid} {requestedSlug canonicalSlug : String}
    (h : s.requestedIntegration runtimeId requestedSlug canonicalSlug = some row) :
    row.runtimeId = runtimeId := by
  unfold IntegrationStore.requestedIntegration at h
  split at h
  · rename_i hget
    obtain rfl := Option.some.inj h
    exact (columns_of_get? hget).1
  · exact (columns_of_get? h).1

theorem rowStep_createDirect {caller newId : Uuid} {data : ConnectionDirectCreate}
    {c : IntegrationConnection}
    (h : createDirectConnection registry s newId (some caller) data = .ok (s', c))
    (hrow : s'.integrations.get? key = some row) :
    RowStep registry tenancy (.call (.createDirect caller newId data)) s s'
      (s.integrations.get? key) row := by
  obtain ⟨definition, runtimeId, s₁, hdefinition, hid, hrequested, hnew, hruntime, hmode, hactive,
    hcreated, rfl⟩ := createDirectConnection_spec h
  refine rowStep_created hcreated hactive rfl (linkManaged_connections s₁ c) ?_ hrow
  intro hmanaged hkey hkeySlug
  rw [hkey] at hruntime
  obtain ⟨requested, hget, henabled, hslug⟩ := hrequested key.1 hruntime.symm
  have hfree := (createConnection_ok_iff.mp hcreated).1
  rw [hnew] at hfree
  simp only [RuntimeOperation.link, IntegrationStore.directLink, hdefinition, hid, ← hruntime]
  rw [if_pos ⟨hmode.symm.trans hmanaged, by rw [hfree]; rfl⟩, hget, Option.filter_some,
    if_pos henabled, Option.map_some, RuntimeIntegration.key, requestedIntegration_runtimeId hget,
    ← hslug, hkeySlug]

theorem rowStep_refl {op : RuntimeOperation} (hrow : s.integrations.get? key = some row) :
    RowStep registry tenancy op s s (s.integrations.get? key) row :=
  rowStep_kept hrow rfl

/-- What a call can do to a row. -/
theorem playRuntimeOperation_row (op : RuntimeOperation)
    (hrow : (playRuntimeOperation registry tenancy s op).integrations.get? key = some row) :
    RowStep registry tenancy op s (playRuntimeOperation registry tenancy s op)
      (s.integrations.get? key) row := by
  cases op with
  | reconcile runtimeId config policies canonicalizeSlugs =>
      simp only [playRuntimeOperation] at hrow ⊢
      split at hrow
      · rename_i s' rows h
        obtain ⟨hruntime, read, hread, rfl⟩ := reconcileRuntimePolicies_spec h
        obtain ⟨runtime, hruntime⟩ := Option.isSome_iff_exists.mp hruntime
        refine rowStep_materialized ?_ hrow
        intro policy hpolicy
        rw [RuntimeOperation.materialized, hruntime, hread]
        exact List.mem_map_of_mem hpolicy
      · exact rowStep_refl hrow
  | call call =>
      simp only [playRuntimeOperation, playIntegrationCall] at hrow ⊢
      split at hrow
      · rename_i s' h
        cases call with
        | enable caller runtimeId data =>
            obtain ⟨⟨s₁, created⟩, hcall, rfl⟩ := map_eq_ok.mp h
            obtain ⟨hruntime, policy, hpolicy, hs⟩ := enableRuntimeIntegration_policy hcall
            obtain rfl : s₁ = _ := hs
            have hwritten : ([policy].foldl (fun s policy => s.materialize runtimeId policy)
                s).integrations.get? key = some row := hrow
            refine rowStep_materialized ?_ hwritten
            intro p hp
            obtain rfl := List.mem_singleton.mp hp
            simp [RuntimeOperation.materialized, hruntime, hpolicy]
        | update caller runtimeId slug data =>
            obtain ⟨⟨s₁, updated⟩, hcall, rfl⟩ := map_eq_ok.mp h
            exact rowStep_update hcall hrow
        | authorize caller query now flow slug data =>
            obtain ⟨⟨s₁, response⟩, hcall, rfl⟩ := map_eq_ok.mp h
            exact rowStep_authorize hcall hrow
        | callback caller now newId exchanged slug state =>
            obtain ⟨⟨s₁, c⟩, hcall, rfl⟩ := map_eq_ok.mp h
            exact rowStep_callback hcall hrow
        | createDirect caller newId data =>
            obtain ⟨⟨s₁, c⟩, hcall, rfl⟩ := map_eq_ok.mp h
            exact rowStep_createDirect hcall hrow
        | revoke id =>
            have hkept : s'.integrations = s.integrations := by
              simp only [IntegrationCall.run, revokeConnection] at h
              split at h
              · cases h
              · rw [← Except.ok.inj h]
            exact rowStep_kept hrow hkept
      · exact rowStep_refl hrow

def IntegrationConnection.revoked (c : IntegrationConnection) : IntegrationConnection :=
  { c with
    status := "revoked"
    credentials := none }

/-- What a call can do to a connection: it makes it or revokes it. -/
structure ConnectionStep (op : RuntimeOperation) (s s' : IntegrationStore) : Prop where
  step : ∀ id, s'.connections.get? id = s.connections.get? id ∨
    (s.connections.get? id = none ∧ op.newId = some id) ∨
    (op = .call (.revoke id) ∧ ∃ c, s.connections.get? id = some c ∧
      s'.connections.get? id = some c.revoked)

theorem connectionStep_kept {op : RuntimeOperation} (h : s'.connections = s.connections) :
    ConnectionStep op s s' :=
  ⟨fun id => .inl (by rw [h])⟩

theorem connectionStep_created {op : RuntimeOperation} {s₁ : IntegrationStore}
    {c : IntegrationConnection} (hcreated : s.createConnection c = .ok s₁)
    (hnew : op.newId = some c.id) (h : s'.connections = s₁.connections) :
    ConnectionStep op s s' := by
  obtain ⟨hfree, rfl⟩ := createConnection_ok_iff.mp hcreated
  refine ⟨fun id => ?_⟩
  rw [h]
  by_cases hid : id = c.id
  · exact .inr (.inl ⟨hid ▸ hfree, hid ▸ hnew⟩)
  · exact .inl (RowTable.get?_insert_of_ne s.connections hid)

theorem connectionStep_revoke {id : Uuid} (h : revokeConnection s id = .ok s') :
    ConnectionStep (.call (.revoke id)) s s' := by
  unfold revokeConnection at h
  split at h
  · cases h
  · rename_i c hc
    obtain rfl := Except.ok.inj h
    refine ⟨fun id' => ?_⟩
    by_cases hid : id' = id
    · subst hid
      refine .inr (.inr ⟨rfl, c, hc, ?_⟩)
      have hget := RowTable.get?_update_self s.connections id' IntegrationConnection.revoked
        fun _ => rfl
      rw [hc] at hget
      exact hget
    · exact .inl (RowTable.get?_update_of_ne s.connections hid IntegrationConnection.revoked
        fun _ => rfl)

theorem playRuntimeOperation_connection (op : RuntimeOperation) :
    ConnectionStep op s (playRuntimeOperation registry tenancy s op) := by
  cases op with
  | reconcile runtimeId config policies canonicalizeSlugs =>
      simp only [playRuntimeOperation]
      split
      · rename_i s' rows h
        obtain ⟨-, read, -, rfl⟩ := reconcileRuntimePolicies_spec h
        exact connectionStep_kept (materializeAll_spec runtimeId _ s).1
      · exact connectionStep_kept rfl
  | call call =>
      simp only [playRuntimeOperation, playIntegrationCall]
      split
      · rename_i s' h
        cases call with
        | enable caller runtimeId data =>
            obtain ⟨⟨s₁, created⟩, hcall, rfl⟩ := map_eq_ok.mp h
            obtain ⟨-, policy, -, hs⟩ := enableRuntimeIntegration_policy hcall
            obtain rfl : s₁ = _ := hs
            exact connectionStep_kept (materialize_connections s runtimeId policy)
        | update caller runtimeId slug data =>
            obtain ⟨⟨s₁, updated⟩, hcall, rfl⟩ := map_eq_ok.mp h
            obtain ⟨-, -, -, -, rfl, -⟩ := updateRuntimeIntegration_row hcall
            exact connectionStep_kept rfl
        | authorize caller query now flow slug data =>
            obtain ⟨⟨s₁, response⟩, hcall, rfl⟩ := map_eq_ok.mp h
            rcases authorize_spec hcall with ⟨-, hkept⟩ | ⟨-, row, u, c, -, -, -, -, -, -, -, rfl⟩
            · exact connectionStep_kept hkept
            · exact connectionStep_kept rfl
        | callback caller now newId exchanged slug state =>
            obtain ⟨⟨s₁, c⟩, hcall, rfl⟩ := map_eq_ok.mp h
            obtain ⟨-, s₂, -, -, rfl, -, -, -, -, hcreated, rfl⟩ := handleCallback_spec hcall
            exact connectionStep_created hcreated rfl (linkManaged_connections s₂ c)
        | createDirect caller newId data =>
            obtain ⟨⟨s₁, c⟩, hcall, rfl⟩ := map_eq_ok.mp h
            obtain ⟨-, -, s₂, -, -, -, rfl, -, -, -, hcreated, rfl⟩ :=
              createDirectConnection_spec hcall
            exact connectionStep_created hcreated rfl (linkManaged_connections s₂ c)
        | revoke id => exact connectionStep_revoke h
      · exact connectionStep_kept rfl

end

end Zyntry
