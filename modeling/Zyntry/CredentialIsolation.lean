import Zyntry.Connections
import Zyntry.RowReferences
import Zyntry.StepRuns

/-!
# Whose credentials an action runs with

Calls by any users on their own runtimes keep every row linked to a connection of its own
integration that was made for its runtime or by the owner of it, as long as no switch of
the mode goes back to a foreign connection. The connection to go back to is named by the
configuration of the row, which callers replace at will.
-/

namespace Zyntry

open Python

/-! ## Calls -/

inductive IntegrationCall where
  | enable (caller runtimeId : Uuid) (data : RuntimeIntegrationCreate)
  | update (caller runtimeId : Uuid) (slug : String) (data : RuntimeIntegrationUpdate)
  | authorize (caller : Uuid) (query : FirstRow) (now : ℤ) (flow : Option String)
      (slug : String) (data : ConnectionAuthorizeRequest)
  | callback (caller : Option Uuid) (now : ℤ) (newId : Uuid)
      (exchanged : Except IntegrationError TokenData) (slug state : String)
  | createDirect (caller newId : Uuid) (data : ConnectionDirectCreate)
  | revoke (connectionId : Uuid)

section

variable (registry : IntegrationRegistry) (tenancy : Tenancy)

def IntegrationCall.run (s : IntegrationStore) :
    IntegrationCall → Except IntegrationError IntegrationStore
  | .enable _ runtimeId data =>
      Prod.fst <$> enableRuntimeIntegration registry tenancy s runtimeId data none
  | .update _ runtimeId slug data =>
      Prod.fst <$> updateRuntimeIntegration registry s runtimeId slug data
  | .authorize caller query now flow slug data =>
      Prod.fst <$> Zyntry.authorize registry s query now flow slug (some caller) data
  | .callback caller now newId exchanged slug state =>
      Prod.fst <$> handleCallback registry tenancy s now newId exchanged slug state caller
  | .createDirect caller newId data =>
      Prod.fst <$> createDirectConnection registry s newId (some caller) data
  | .revoke connectionId => revokeConnection s connectionId

/-- A call that fails is rolled back. -/
def playIntegrationCall (s : IntegrationStore) (call : IntegrationCall) : IntegrationStore :=
  match call.run registry tenancy s with
  | .ok s' => s'
  | .error _ => s

/-- The caller owns the runtime, if the call names one. The callback takes its runtime from
the state of the flow, and a revocation has none. -/
def IntegrationCall.OnOwnRuntime : IntegrationCall → Prop
  | .enable caller runtimeId _ => ∃ runtime ∈ tenancy.runtimes runtimeId, runtime.userId = caller
  | .update caller runtimeId _ _ =>
      ∃ runtime ∈ tenancy.runtimes runtimeId, runtime.userId = caller
  | .authorize caller _ _ _ _ data => ∀ id ∈ runtimeUuid data.runtimeId, ∀ runtimeId ∈ id,
      ∃ runtime ∈ tenancy.runtimes runtimeId, runtime.userId = caller
  | .createDirect caller _ data => ∀ id ∈ runtimeUuid data.runtimeId, ∀ runtimeId ∈ id,
      ∃ runtime ∈ tenancy.runtimes runtimeId, runtime.userId = caller
  | .callback .. => True
  | .revoke _ => True

/-- The connection was created for the runtime or by its owner. -/
def Tenancy.CreatedFor (runtimeId : Uuid) (c : IntegrationConnection) : Prop :=
  c.runtimeId = some runtimeId ∨
    ∃ runtime ∈ tenancy.runtimes runtimeId, c.userId = some runtime.userId

/-- The mode that a row gets when a mode is requested. -/
def nextConnectionMode (slug requestedMode : String) : Option String :=
  (resolveConnectionMode registry slug requestedMode).toOption.map fun resolved =>
    resolved.1.getD "zyntry_managed"

/-- A switch to another mode than `end_user_oauth` goes back to no connection but one of the
integration that was created for the runtime or by its owner. -/
def IntegrationCall.RestoresOwn (s : IntegrationStore) : IntegrationCall → Prop
  | .update _ runtimeId slug data =>
      ∀ row ∈ s.integrations.get? (runtimeId, slug), ∀ mode ∈ data.connectionMode,
        ∀ nextMode ∈ nextConnectionMode registry row.integrationSlug mode,
          nextMode ≠ row.connectionMode → nextMode ≠ "end_user_oauth" →
            ∀ c ∈ s.restoredConnection row.config nextMode,
              c.integrationSlug = slug ∧ tenancy.CreatedFor runtimeId c
  | _ => True

instance (runtimeId : Uuid) (c : IntegrationConnection) :
    Decidable (tenancy.CreatedFor runtimeId c) :=
  inferInstanceAs (Decidable (_ ∨ _))

instance : (call : IntegrationCall) → Decidable (call.OnOwnRuntime tenancy)
  | .enable _ runtimeId _ => inferInstanceAs (Decidable (∃ _ ∈ tenancy.runtimes runtimeId, _))
  | .update _ runtimeId _ _ => inferInstanceAs (Decidable (∃ _ ∈ tenancy.runtimes runtimeId, _))
  | .authorize _ _ _ _ _ data =>
      inferInstanceAs (Decidable (∀ id ∈ runtimeUuid data.runtimeId, ∀ _ ∈ id, _))
  | .createDirect _ _ data =>
      inferInstanceAs (Decidable (∀ id ∈ runtimeUuid data.runtimeId, ∀ _ ∈ id, _))
  | .callback .. => .isTrue trivial
  | .revoke _ => .isTrue trivial

instance (s : IntegrationStore) :
    (call : IntegrationCall) → Decidable (call.RestoresOwn registry tenancy s)
  | .update _ runtimeId slug _ =>
      inferInstanceAs (Decidable (∀ _ ∈ s.integrations.get? (runtimeId, slug), _))
  | .enable .. => .isTrue trivial
  | .authorize .. => .isTrue trivial
  | .createDirect .. => .isTrue trivial
  | .callback .. => .isTrue trivial
  | .revoke _ => .isTrue trivial

/-! ## Links to own connections -/

/-- What a row is linked to: a connection that was created for it, or one of end users, which
the mode of the row never uses. -/
def Tenancy.Linked (row : RuntimeIntegration) (c : IntegrationConnection) : Prop :=
  (c.integrationSlug = row.integrationSlug ∧ tenancy.CreatedFor row.runtimeId c) ∨
    (row.connectionMode = "end_user_oauth" ∧ c.connectionMode = "end_user_oauth")

def IntegrationStore.LinksOwn (s : IntegrationStore) : Prop :=
  s.integrations.Refers RuntimeIntegration.connectionId tenancy.Linked s.connections

variable {registry tenancy} {s s' : IntegrationStore} {row : RuntimeIntegration}
  {c : IntegrationConnection}

theorem linksOwn_saveIntegration (hs : s.LinksOwn tenancy)
    (hrow : ∀ id, row.connectionId = some id →
      ∃ c, s.connections.get? id = some c ∧ tenancy.Linked row c) :
    (s.saveIntegration row).LinksOwn tenancy := by
  unfold IntegrationStore.LinksOwn IntegrationStore.saveIntegration
  refine RowTable.Refers.update_row hs ?_ ?_
  · exact fun _ => rfl
  · intro existing hexisting
    obtain ⟨hruntime, hslug⟩ := columns_of_get? hexisting
    simpa only [hruntime, hslug] using hrow

theorem linksOwn_writeIntegration (hs : s.LinksOwn tenancy)
    (hrow : ∀ id, row.connectionId = some id →
      ∃ c, s.connections.get? id = some c ∧ tenancy.Linked row c) :
    (s.writeIntegration row).LinksOwn tenancy := by
  unfold IntegrationStore.writeIntegration
  split
  · exact linksOwn_saveIntegration hs hrow
  · exact RowTable.Refers.insert_row hs hrow

theorem linksOwn_createConnection (hs : s.LinksOwn tenancy) (h : s.createConnection c = .ok s') :
    s'.LinksOwn tenancy ∧ s'.connections.get? c.id = some c := by
  obtain ⟨hfree, rfl⟩ := createConnection_ok_iff.mp h
  exact ⟨RowTable.Refers.insert_target hs c, RowTable.get?_insert_self hfree⟩

theorem linksOwn_linkManaged (hs : s.LinksOwn tenancy) (hc : s.connections.get? c.id = some c) :
    (s.linkManaged c).LinksOwn tenancy := by
  unfold IntegrationStore.linkManaged
  split
  · rename_i row hrow
    split_ifs with hmode
    · obtain ⟨r, hr, hrow⟩ := Option.bind_eq_some_iff.mp hrow
      obtain ⟨rfl, hslug⟩ := columns_of_get? hrow
      refine linksOwn_saveIntegration hs ?_
      intro id hid
      obtain rfl := Option.some.inj hid
      exact ⟨c, hc, .inl ⟨hslug.symm, .inl hr⟩⟩
    · exact hs
  · exact hs

theorem linksOwn_revokeConnection {id : Uuid} (hs : s.LinksOwn tenancy)
    (h : revokeConnection s id = .ok s') : s'.LinksOwn tenancy := by
  unfold revokeConnection at h
  split at h
  · cases h
  · obtain rfl := Except.ok.inj h
    unfold IntegrationStore.LinksOwn
    refine RowTable.Refers.update_target hs ?_ ?_
    · exact fun _ => rfl
    · exact fun _ _ hlinked => hlinked

theorem linksOwn_enableRuntimeIntegration {runtimeId : Uuid} {data : RuntimeIntegrationCreate}
    {userId : Option Uuid} (hs : s.LinksOwn tenancy)
    (h : enableRuntimeIntegration registry tenancy s runtimeId data userId = .ok (s', row)) :
    s'.LinksOwn tenancy := by
  obtain ⟨policy, h⟩ := enableRuntimeIntegration_spec h
  obtain ⟨rfl, hconnection⟩ := reconcileRuntimePolicy_spec h
  refine linksOwn_writeIntegration hs ?_
  intro id hid
  rw [hconnection] at hid
  obtain ⟨c, hc, rfl⟩ := Option.map_eq_some_iff.mp hid
  obtain ⟨hmode, hget, existing, hexisting, hlink⟩ := linkedConnection_spec hc
  obtain ⟨hruntime, hslug⟩ := columns_of_get? hexisting
  obtain ⟨c', hget', hlinked⟩ := hs _ existing hexisting c.id hlink
  obtain rfl : c = c' := Option.some.inj (hget.symm.trans hget')
  refine ⟨c, hget, ?_⟩
  -- A foreign connection stays linked only under the mode of end users.
  rcases hlinked with ⟨hcslug, hfor⟩ | ⟨-, hend⟩
  · exact .inl ⟨hcslug.trans hslug, hruntime ▸ hfor⟩
  · exact .inr ⟨hmode.symm.trans hend, hend⟩

theorem linksOwn_updateRuntimeIntegration {caller runtimeId : Uuid} {slug : String}
    {data : RuntimeIntegrationUpdate} (hs : s.LinksOwn tenancy)
    (hown : (IntegrationCall.update caller runtimeId slug data).RestoresOwn registry tenancy s)
    (h : updateRuntimeIntegration registry s runtimeId slug data = .ok (s', row)) :
    s'.LinksOwn tenancy := by
  obtain ⟨existing, switched, hexisting, hswitched, rfl, hkey, hmode, hconnection⟩ :=
    updateRuntimeIntegration_spec h
  obtain ⟨hkey', hcases⟩ := requestMode_spec hswitched
  obtain ⟨hruntime, hslug⟩ := Prod.mk.inj (hkey.trans hkey')
  obtain ⟨hruntime', hslug'⟩ := columns_of_get? hexisting
  refine linksOwn_saveIntegration hs ?_
  intro id hid
  rw [hconnection] at hid
  rcases hcases with rfl | hnone | ⟨mode, hdata, resolved, hresolved, hnext, hne, c, hc, hlink⟩
  · obtain ⟨c, hc, hlinked⟩ := hs _ _ hexisting id hid
    exact ⟨c, hc, by simpa only [Tenancy.Linked, hruntime, hslug, hmode] using hlinked⟩
  · cases hnone.symm.trans hid
  · obtain rfl := Option.some.inj (hlink.symm.trans hid)
    obtain ⟨hget, hcmode⟩ := restoredConnection_spec hc
    refine ⟨c, hget, ?_⟩
    by_cases hend : switched.connectionMode = "end_user_oauth"
    · exact .inr ⟨hmode.trans hend, hcmode.trans hend⟩
    · have hnextMode : nextConnectionMode registry existing.integrationSlug mode =
          some switched.connectionMode := by
        simp [nextConnectionMode, hresolved, Except.toOption, hnext]
      obtain ⟨hcslug, hfor⟩ :=
        hown existing hexisting mode hdata _ hnextMode hne hend c hc
      exact .inl ⟨hcslug.trans (hslug.trans hslug').symm,
        (hruntime.trans hruntime').symm ▸ hfor⟩

theorem linksOwn_authorize {caller : Uuid} {query : FirstRow} {now : ℤ} {flow : Option String}
    {slug : String} {data : ConnectionAuthorizeRequest} {response : ConnectionAuthorizeResponse}
    (hs : s.LinksOwn tenancy)
    (hown : (IntegrationCall.authorize caller query now flow slug data).OnOwnRuntime tenancy)
    (h : authorize registry s query now flow slug (some caller) data = .ok (s', response)) :
    s'.LinksOwn tenancy := by
  rcases authorize_spec h with ⟨hintegrations, hconnections⟩ |
    ⟨-, row, u, c, -, -, -, -, hauthorized, hu, hc, rfl⟩
  · rw [IntegrationStore.LinksOwn, hintegrations, hconnections]
    exact hs
  · obtain ⟨-, hid, hrow⟩ := authorizedRow_spec hauthorized
    obtain rfl := Option.some.inj hu
    obtain ⟨hget, huser, hcslug, -⟩ := getZyntryManaged_spec hc
    obtain ⟨runtime, hruntime, rfl⟩ := hown _ hid _ rfl
    have hslug : row.integrationSlug = slug := (columns_of_get? hrow).2
    rw [IntegrationStore.linkExisting, if_pos rfl]
    refine linksOwn_saveIntegration hs ?_
    intro id hid'
    obtain rfl := Option.some.inj hid'
    exact ⟨c, hget, .inl ⟨hcslug.trans hslug.symm, .inr ⟨runtime, hruntime, huser⟩⟩⟩

/-- One call on an own runtime keeps the links, unless it restores a foreign connection. -/
theorem linksOwn_playIntegrationCall {call : IntegrationCall} (hs : s.LinksOwn tenancy)
    (hown : call.OnOwnRuntime tenancy) (hrestores : call.RestoresOwn registry tenancy s) :
    (playIntegrationCall registry tenancy s call).LinksOwn tenancy := by
  unfold playIntegrationCall
  split
  · rename_i s' h
    cases call with
    | enable caller runtimeId data =>
        obtain ⟨⟨s₁, row⟩, hcall, rfl⟩ := map_eq_ok.mp h
        exact linksOwn_enableRuntimeIntegration hs hcall
    | update caller runtimeId slug data =>
        obtain ⟨⟨s₁, row⟩, hcall, rfl⟩ := map_eq_ok.mp h
        exact linksOwn_updateRuntimeIntegration hs hrestores hcall
    | authorize caller query now flow slug data =>
        obtain ⟨⟨s₁, response⟩, hcall, rfl⟩ := map_eq_ok.mp h
        exact linksOwn_authorize hs hown hcall
    | callback caller now newId exchanged slug state =>
        obtain ⟨⟨s₁, c⟩, hcall, rfl⟩ := map_eq_ok.mp h
        obtain ⟨-, s₂, -, -, -, -, -, -, -, hcreated, rfl⟩ := handleCallback_spec hcall
        obtain ⟨hs₂, hget⟩ := linksOwn_createConnection hs hcreated
        exact linksOwn_linkManaged hs₂ hget
    | createDirect caller newId data =>
        obtain ⟨⟨s₁, c⟩, hcall, rfl⟩ := map_eq_ok.mp h
        obtain ⟨-, -, s₂, -, -, -, -, -, -, -, hcreated, rfl⟩ := createDirectConnection_spec hcall
        obtain ⟨hs₂, hget⟩ := linksOwn_createConnection hs hcreated
        exact linksOwn_linkManaged hs₂ hget
    | revoke id => exact linksOwn_revokeConnection hs h
  · exact hs

/-! ## Isolation -/

/-- The credentials are those of an active, unexpired connection of the integration that was
created for the runtime or by its owner, and in end-user mode for the end user. -/
def Tenancy.Isolated (tenancy : Tenancy) (s : IntegrationStore) (now : ℤ) (runtimeId : Uuid)
    (slug : String) (endUserId : Option String) (out : ExecutionConnection) : Prop :=
  ∃ row c, s.integrations.get? (runtimeId, slug) = some row ∧
    s.connections.get? out.connectionId = some c ∧ out.credentials = c.credentials.getD [] ∧
    c.status = "active" ∧ (∀ t ∈ c.expiresAt, now < t) ∧ c.integrationSlug = slug ∧
    tenancy.CreatedFor runtimeId c ∧
    (row.connectionMode = "end_user_oauth" →
      c.runtimeId = some runtimeId ∧ endUserId.isSome ∧ c.endUserId = endUserId)

theorem isolated_of_linksOwn {query : FirstRow} {now : ℤ} {runtimeId : Uuid} {slug : String}
    {endUserId : Option String} {out : ExecutionConnection} (hs : s.LinksOwn tenancy)
    (h : getConnectionForExecution registry tenancy s query now runtimeId slug endUserId =
      .ok out) : tenancy.Isolated s now runtimeId slug endUserId out := by
  obtain ⟨row, c, hrow, hc, hactive, hexpiry, hid, hcredentials⟩ :=
    getConnectionForExecution_spec h
  obtain ⟨rfl, rfl⟩ := columns_of_get? hrow
  refine ⟨row, c, hrow, ?_⟩
  rw [hid]
  unfold IntegrationStore.connectionOf at hc
  split_ifs at hc with hmode
  · split at hc
    · cases hc
    · rename_i endUser hend
      obtain ⟨hget, hruntime, hcslug, hcend, -⟩ := getForEndUser_spec (Except.ok.inj hc)
      obtain rfl := (Option.filter_eq_some_iff.mp hend).1
      exact ⟨hget, hcredentials, hactive, hexpiry, hcslug, .inl hruntime,
        fun _ => ⟨hruntime, rfl, hcend⟩⟩
  · split at hc
    · rename_i c' hlink
      obtain rfl := Option.some.inj (Except.ok.inj hc)
      obtain ⟨id, hlink, hget⟩ := Option.bind_eq_some_iff.mp hlink
      obtain ⟨c'', hget', hlinked⟩ := hs _ row hrow id hlink
      obtain rfl : c' = c'' := Option.some.inj (hget.symm.trans hget')
      obtain ⟨hcslug, hfor⟩ := hlinked.resolve_right fun hend => hmode hend.1
      obtain rfl : c'.id = id := RowTable.get?_some_key hget
      exact ⟨hget, hcredentials, hactive, hexpiry, hcslug, hfor, fun hend => absurd hend hmode⟩
    · obtain ⟨runtime, hruntime, hmanaged⟩ := Option.bind_eq_some_iff.mp (Except.ok.inj hc)
      obtain ⟨hget, huser, hcslug, -⟩ := getZyntryManaged_spec hmanaged
      exact ⟨hget, hcredentials, hactive, hexpiry, hcslug, .inr ⟨runtime, hruntime, huser⟩,
        fun hend => absurd hend hmode⟩

end

/-- In every run of calls by users on their own runtimes that restore own connections only,
credentials are isolated. -/
theorem credentials_isolated (registry : IntegrationRegistry) (tenancy : Tenancy)
    {calls : List IntegrationCall}
    (hrun : StepRuns.Along (playIntegrationCall registry tenancy)
      (fun s call => call.OnOwnRuntime tenancy ∧ call.RestoresOwn registry tenancy s) {} calls)
    {query : FirstRow} {now : ℤ} {runtimeId : Uuid} {slug : String} {endUserId : Option String}
    {out : ExecutionConnection}
    (h : getConnectionForExecution registry tenancy
      (calls.foldl (playIntegrationCall registry tenancy) {}) query now runtimeId slug endUserId =
        .ok out) :
    tenancy.Isolated (calls.foldl (playIntegrationCall registry tenancy) {}) now runtimeId slug
      endUserId out :=
  isolated_of_linksOwn
    (hrun.invariant (fun _ _ hs hcall => linksOwn_playIntegrationCall hs hcall.1 hcall.2)
      RowTable.Refers.empty) h

/-! ## Two users -/

/-- A part of the registry. -/
def notionRegistry : IntegrationRegistry where
  definitions :=
    [("notion",
      { id := "int_notion"
        slug := "notion"
        name := "Notion"
        authMethods := ["oauth2", "internal_integration_token"]
        scopes := ["read_content", "update_content", "insert_content"]
        capabilities :=
          [{ slug := "search_pages", requiredScopes := ["read_content"] },
           { slug := "create_pages", isWrite := true, requiredScopes := ["insert_content"] }] })]
  aliases := []

def firstRuntime : Uuid := ⟨"00000000-0000-0000-0000-000000000001"⟩

def secondRuntime : Uuid := ⟨"00000000-0000-0000-0000-000000000002"⟩

def notionConnection : Uuid := ⟨"00000000-0000-0000-0000-000000000003"⟩

/-- Each of two users has a runtime. -/
def twoTenants : Tenancy where
  runtimes := fun id =>
    if id = firstRuntime then some ⟨⟨"u1"⟩, none⟩
    else if id = secondRuntime then some ⟨⟨"u2"⟩, none⟩
    else none
  users := fun _ => some none
  projects := fun _ => none

def connectNotion (runtimeId : Option String) : IntegrationCall :=
  .createDirect ⟨"u1"⟩ notionConnection
    { integrationSlug := "notion"
      runtimeId
      authMethod := "internal_integration_token"
      credentials := [("token", .str "secret")] }

/-- The user `u1` connects a runtime, leaves the managed mode, and comes back to it. -/
def ownRestore : List IntegrationCall :=
  [.enable ⟨"u1"⟩ firstRuntime { integrationSlug := "notion" },
   connectNotion (some firstRuntime.str),
   .update ⟨"u1"⟩ firstRuntime "notion" { connectionMode := some "end_user_oauth" },
   .update ⟨"u1"⟩ firstRuntime "notion" { connectionMode := some "zyntry_managed" }]

def playTwoTenants (calls : List IntegrationCall) : IntegrationStore :=
  calls.foldl (playIntegrationCall notionRegistry twoTenants) {}

theorem credentials_isolated_ownRestore :
    ∃ out, getConnectionForExecution notionRegistry twoTenants (playTwoTenants ownRestore) .head 0
        firstRuntime "notion" none = .ok out ∧
      twoTenants.Isolated (playTwoTenants ownRestore) 0 firstRuntime "notion" none out := by
  obtain ⟨out, hout⟩ : ∃ out, getConnectionForExecution notionRegistry twoTenants
      (playTwoTenants ownRestore) .head 0 firstRuntime "notion" none = .ok out :=
    exists_ok_iff.mpr (by decide +kernel)
  exact ⟨out, hout, credentials_isolated _ _ (by decide +kernel) hout⟩

/-- The user `u2` names the connection of the account `u1` in a configuration. -/
def foreignRestore : List IntegrationCall :=
  [connectNotion none,
   .enable ⟨"u2"⟩ secondRuntime
    { integrationSlug := "notion"
      connectionMode := "end_user_oauth"
      config := [("previous_connection_mode", .str "zyntry_managed"),
        ("previous_connection_id", .str notionConnection.str)] },
   .update ⟨"u2"⟩ secondRuntime "notion" { connectionMode := some "zyntry_managed" }]

theorem foreign_credentials_returned :
    StepRuns.Along (playIntegrationCall notionRegistry twoTenants)
        (fun _ call => call.OnOwnRuntime twoTenants) {} foreignRestore ∧
      ∃ out, getConnectionForExecution notionRegistry twoTenants (playTwoTenants foreignRestore) .head 0
          secondRuntime "notion" none = .ok out ∧
        ¬ twoTenants.Isolated (playTwoTenants foreignRestore) 0 secondRuntime "notion" none out := by
  refine ⟨by decide +kernel, ?_⟩
  obtain ⟨out, hout⟩ : ∃ out, getConnectionForExecution notionRegistry twoTenants
      (playTwoTenants foreignRestore) .head 0 secondRuntime "notion" none = .ok out :=
    exists_ok_iff.mpr (by decide +kernel)
  refine ⟨out, hout, ?_⟩
  rintro ⟨row, c, -, hc, -, -, -, -, hfor, -⟩
  have hforeign : ∀ c ∈ (playTwoTenants foreignRestore).connections.rows,
      ¬ twoTenants.CreatedFor secondRuntime c := by decide +kernel
  exact hforeign c (RowTable.get?_some_mem hc) hfor

end Zyntry
