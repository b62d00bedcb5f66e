import Zyntry.IntegrationRows

/-!
# Connected rows and switches of their modes

A row says in four places how it is connected, and seven calls write some of them. The places
agree, and a switch of the mode can be taken back, in runs in which no call revokes a connection
in use, links a row of another mode, restores a connection without its list of modes, or
overwrites what another mode will go back to.
-/

namespace Zyntry

open Python

/-! ## Consistent rows -/

def ListsModes (config : Fields) (mode : String) : Prop :=
  Json.lookup "allowed_connection_modes" config = some (allowedConnectionModes mode)

/-- A row is connected if and only if it refers to an active connection of its mode and slug,
and its configuration lists the modes that belong to its mode. -/
structure IntegrationStore.RowsConsistent (s : IntegrationStore) : Prop where
  connected : ∀ row ∈ s.integrations.rows, row.connectionStatus = "connected" ↔ s.UsesActive row
  modes : ∀ row ∈ s.integrations.rows, ListsModes row.config row.connectionMode

def RuntimeOperation.Updates (op : RuntimeOperation) (runtimeId : Uuid) (slug : String) : Prop :=
  ∃ caller data, op = .call (.update caller runtimeId slug data)

section

variable (registry : IntegrationRegistry) (tenancy : Tenancy)

/-- The tables after a run that starts without rows. -/
def afterOperations (ops : List RuntimeOperation) : IntegrationStore :=
  ops.foldl (playRuntimeOperation registry tenancy) {}

/-- If the last call takes a row back to the mode that an update took it away from, then the row
has the connection that was in use before, unless that is no longer active. -/
def RestoresOnReturn (ops : List RuntimeOperation) : Prop :=
  ∀ before away between back runtimeId slug row row' id,
    ops = before ++ away :: between ++ [back] →
    away.Updates runtimeId slug → back.Updates runtimeId slug →
    (afterOperations registry tenancy before).integrations.get? (runtimeId, slug) = some row →
    (afterOperations registry tenancy before).UsesActive row → row.connectionId = some id →
    (∀ part, part <+: between → ∃ r, (afterOperations registry tenancy
      (before ++ away :: part)).integrations.get? (runtimeId, slug) = some r ∧
        r.connectionMode ≠ row.connectionMode) →
    (∃ c, (afterOperations registry tenancy (before ++ away :: between)).connections.get? id =
      some c ∧ c.status = "active") →
    (afterOperations registry tenancy ops).integrations.get? (runtimeId, slug) = some row' →
    row'.connectionMode = row.connectionMode → row'.connectionId = some id

end

/-! ## The condition on a call -/

namespace IntegrationStore

variable (s : IntegrationStore)

/-- The active connection of the mode and slug of the row that the row refers to. -/
def inUse (row : RuntimeIntegration) : Option IntegrationConnection :=
  s.linkedConnection row.runtimeId row.integrationSlug row.connectionMode

/-- The active connection that the row goes back to when it goes back to another mode. -/
def remembered (row : RuntimeIntegration) : Option IntegrationConnection :=
  match Json.lookup "previous_connection_mode" row.config with
  | some (.str mode) =>
      if mode = row.connectionMode then none else s.restoredConnection row.config mode
  | _ => none

/-- With the configuration, the mode goes back to the connection. -/
def GoesBack (config : Fields) (mode : String) (c : IntegrationConnection) : Prop :=
  (s.restoredConnection config mode).map IntegrationConnection.id = some c.id

/-- What the row remembers for a third mode is also in the new configuration. -/
def KeepsRemembered (row : RuntimeIntegration) (nextMode : String) (config : Fields) : Prop :=
  ∀ c ∈ s.remembered row, c.connectionMode ≠ nextMode → s.GoesBack config c.connectionMode c

end IntegrationStore

/-- The update lists the modes of the mode that it leaves the row in, restores no connection of
another integration, and keeps what the row remembers. -/
def RuntimeIntegrationUpdate.Sound (data : RuntimeIntegrationUpdate) (s : IntegrationStore)
    (row : RuntimeIntegration) (nextMode : String) : Prop :=
  match data.config with
  | some config =>
      ListsModes config nextMode ∧ s.KeepsRemembered row nextMode config ∧
        (nextMode ≠ row.connectionMode →
          (∀ c ∈ s.restoredConnection row.config nextMode,
            c.integrationSlug = row.integrationSlug) ∧
          ∀ c ∈ s.inUse row, s.GoesBack config row.connectionMode c)
  | none =>
      nextMode ≠ row.connectionMode →
        (s.restoredConnection row.config nextMode).isNone ∧ (s.remembered row).isNone

section

variable (registry : IntegrationRegistry) (tenancy : Tenancy)

/-- The call keeps rows consistent: it revokes no connection of a row, makes a sound update,
links a managed connection to a row of that mode only, and writes no policy over what a row
remembers for a third mode. -/
def RuntimeOperation.Sound (s : IntegrationStore) : RuntimeOperation → Prop
  | .call (.revoke id) => ∀ row ∈ s.integrations.rows, row.connectionId ≠ some id
  | .call (.update _ runtimeId slug data) =>
      ∀ row ∈ s.integrations.get? (runtimeId, slug), ∀ nextMode ∈ data.nextMode registry row,
        data.Sound s row nextMode
  | op =>
      (∀ key ∈ op.link registry tenancy s, ∀ row ∈ s.integrations.get? key,
        row.connectionMode = "zyntry_managed") ∧
      ∀ written ∈ op.materialized registry tenancy,
        ∀ row ∈ s.integrations.get? (written.1, written.2.storageSlug),
          s.KeepsRemembered row written.2.mode written.2.config

/-- The text is the one that `str` gives for the id. -/
def Uuid.IsUuid (id : Uuid) : Prop := uuid id.str = some id.str

def RuntimeOperation.MakesUuid (op : RuntimeOperation) : Prop := ∀ id ∈ op.newId, id.IsUuid

end

/-! ## What is remembered -/

section

variable {registry : IntegrationRegistry} {tenancy : Tenancy} {s s' : IntegrationStore}
  {op : RuntimeOperation} {row row' : RuntimeIntegration} {config : Fields} {mode : String}
  {c : IntegrationConnection} {id : Uuid} {key : Uuid × String}

theorem restoredConnection_active (h : s.restoredConnection config mode = some c) :
    c.status = "active" := by
  unfold IntegrationStore.restoredConnection at h
  split at h
  · split_ifs at h
    have hc : c.status = "active" ∧ c.connectionMode = mode := by
      simpa using (Option.filter_eq_some_iff.mp h).2
    exact hc.1
  · cases h

/-- A configuration goes back to the same connection as long as that is active. -/
theorem restoredConnection_mono (h : s.restoredConnection config mode = some c)
    (hget : s'.connections.get? c.id = some c) : s'.restoredConnection config mode = some c := by
  unfold IntegrationStore.restoredConnection at h ⊢
  split at h
  · split_ifs at h ⊢ with hmode
    · obtain ⟨hbind, hc⟩ := Option.filter_eq_some_iff.mp h
      obtain ⟨id, hid, hold⟩ := Option.bind_eq_some_iff.mp hbind
      obtain rfl : c.id = id := RowTable.get?_some_key hold
      exact Option.filter_eq_some_iff.mpr
        ⟨Option.bind_eq_some_iff.mpr ⟨c.id, hid, hget⟩, hc⟩
  · cases h

theorem goesBack_iff (hget : s.connections.get? c.id = some c) :
    s.GoesBack config mode c ↔ s.restoredConnection config mode = some c := by
  unfold IntegrationStore.GoesBack
  constructor
  · intro h
    obtain ⟨c', hc', hid⟩ := Option.map_eq_some_iff.mp h
    have hget' := (restoredConnection_spec hc').1
    rw [hid, hget] at hget'
    rw [hc', Option.some.inj hget']
  · intro h
    rw [h]
    rfl

theorem remembered_of_restored (h : s.restoredConnection row.config mode = some c)
    (hne : mode ≠ row.connectionMode) : s.remembered row = some c := by
  have hlookup : Json.lookup "previous_connection_mode" row.config = some (.str mode) := by
    unfold IntegrationStore.restoredConnection at h
    split at h
    · rename_i previousMode previousId hmode hid
      split_ifs at h with hsame
      rw [hmode, hsame.1]
    · cases h
  unfold IntegrationStore.remembered
  rw [hlookup]
  dsimp only
  rw [if_neg hne]
  exact h

/-- A configuration that keeps what is remembered for a third mode goes back to it. -/
theorem restored_of_keepsRemembered {nextMode : String}
    (hkeeps : s.KeepsRemembered row nextMode config)
    (h : s.restoredConnection row.config mode = some c) (hne : mode ≠ row.connectionMode)
    (hnext : mode ≠ nextMode) : s.restoredConnection config mode = some c := by
  obtain ⟨hget, rfl⟩ := restoredConnection_spec h
  exact (goesBack_iff hget).1 (hkeeps c (remembered_of_restored h hne) hnext)

theorem restoredConnection_congr {config' : Fields}
    (hmode : Json.lookup "previous_connection_mode" config' =
      Json.lookup "previous_connection_mode" config)
    (hid : Json.lookup "previous_connection_id" config' =
      Json.lookup "previous_connection_id" config) :
    s.restoredConnection config' mode = s.restoredConnection config mode := by
  unfold IntegrationStore.restoredConnection
  rw [hmode, hid]

theorem restoredConnection_rowConfig (policy : MaterializedPolicy) :
    s.restoredConnection policy.rowConfig mode = s.restoredConnection policy.config mode :=
  restoredConnection_congr (Json.lookup_update_of_notMem (by simp [Json.keys]) _)
    (Json.lookup_update_of_notMem (by simp [Json.keys]) _)

theorem inUse_eq_some (hrow : s.integrations.get? row.key = some row) (hid : row.connectionId = some c.id)
    (hget : s.connections.get? c.id = some c) (hactive : c.status = "active")
    (hmode : c.connectionMode = row.connectionMode)
    (hslug : c.integrationSlug = row.integrationSlug) : s.inUse row = some c := by
  unfold IntegrationStore.inUse IntegrationStore.linkedConnection
  have hrow : s.integrations.get? (row.runtimeId, row.integrationSlug) = some row := hrow
  rw [hrow, Option.bind_some, hid, Option.bind_some, hget, Option.filter_some, if_pos]
  simpa using ⟨hactive, hslug, hmode⟩

/-! ## One call -/

/-- Every row is attached and lists its modes, and ids are what `str` gives. -/
structure RowInvariant (s : IntegrationStore) : Prop where
  attached : ∀ key row, s.integrations.get? key = some row → s.Attached row
  modes : ∀ key row, s.integrations.get? key = some row → ListsModes row.config row.connectionMode
  ids : ∀ id c, s.connections.get? id = some c → id.IsUuid

theorem connections_kept (hstep : ConnectionStep op s s') (hnew : op.newId = none)
    (hrevoke : ∀ id, op ≠ .call (.revoke id)) (id : Uuid) :
    s'.connections.get? id = s.connections.get? id := by
  rcases hstep.step id with hkept | ⟨-, hid⟩ | ⟨hop, -⟩
  · exact hkept
  · cases hnew.symm.trans hid
  · exact absurd hop (hrevoke id)

/-- A row stays attached as long as its connection is not revoked. -/
theorem attached_step (hstep : ConnectionStep op s s')
    (hrevoke : ∀ id, op = .call (.revoke id) → row.connectionId ≠ some id)
    (h : s.Attached row) : s'.Attached row := by
  rcases h with ⟨hstatus, id, c, hid, hget, hc⟩ | hnone
  · refine .inl ⟨hstatus, id, c, hid, ?_, hc⟩
    rcases hstep.step id with hkept | ⟨hfree, -⟩ | ⟨hop, -⟩
    · exact hkept.trans hget
    · cases hfree.symm.trans hget
    · exact absurd hid (hrevoke id hop)
  · exact .inr hnone

theorem attached_edit (data : RuntimeIntegrationUpdate) :
    s.Attached (data.edit row) ↔ s.Attached row := Iff.rfl

/-- After a switch the row is connected by the connection that it goes back to, if that is one
of its integration, or it is not connected. -/
theorem attached_switchMode {requested nextMode resolution : String}
    (hslug : ∀ c ∈ s.restoredConnection row.config nextMode,
      c.integrationSlug = row.integrationSlug) :
    s.Attached (row.switchMode (s.restoredConnection row.config nextMode) requested nextMode
      resolution) := by
  cases hc : s.restoredConnection row.config nextMode with
  | some c =>
      obtain ⟨hget, hmode⟩ := restoredConnection_spec hc
      exact .inl ⟨rfl, c.id, c, rfl, hget, restoredConnection_active hc, hmode, hslug c hc⟩
  | none =>
      refine .inr ⟨?_, rfl⟩
      simp only [RuntimeIntegration.switchMode]
      split_ifs <;> decide

theorem RuntimeOperation.Sound.update {caller runtimeId : Uuid} {slug nextMode : String}
    {data : RuntimeIntegrationUpdate}
    (h : (RuntimeOperation.call (.update caller runtimeId slug data)).Sound registry tenancy s)
    (hrow : s.integrations.get? (runtimeId, slug) = some row)
    (hnext : data.nextMode registry row = some nextMode) : data.Sound s row nextMode :=
  h row hrow nextMode hnext

theorem RuntimeOperation.Sound.revoke (h : (RuntimeOperation.call (.revoke id)).Sound registry tenancy s)
    (hrow : s.integrations.get? key = some row) : row.connectionId ≠ some id :=
  h row (RowTable.get?_some_mem hrow)

theorem RuntimeOperation.Sound.link (h : op.Sound registry tenancy s) (hlink : op.link registry tenancy s = some key)
    (hrow : s.integrations.get? key = some row) : row.connectionMode = "zyntry_managed" := by
  unfold RuntimeOperation.Sound at h
  split at h
  · cases hlink
  · cases hlink
  · exact h.1 key hlink row hrow

theorem RuntimeOperation.Sound.materialized {runtimeId : Uuid} {policy : MaterializedPolicy}
    (h : op.Sound registry tenancy s)
    (hpolicy : (runtimeId, policy) ∈ op.materialized registry tenancy)
    (hrow : s.integrations.get? (runtimeId, policy.storageSlug) = some row) :
    s.KeepsRemembered row policy.mode policy.config := by
  unfold RuntimeOperation.Sound at h
  split at h
  · cases hpolicy
  · cases hpolicy
  · exact h.2 _ hpolicy row hrow

theorem listsModes_switchMode {requested nextMode resolution : String} :
    ListsModes (row.switchMode none requested nextMode resolution).config nextMode := by
  simp [ListsModes, RuntimeIntegration.switchMode, Json.update, Json.lookup_set]

theorem listsModes_rowConfig (policy : MaterializedPolicy) :
    ListsModes policy.rowConfig policy.mode := by
  simp [ListsModes, MaterializedPolicy.rowConfig, Json.update, Json.lookup_set]

theorem switchMode_mode {restored : Option IntegrationConnection}
    {requested nextMode resolution : String} :
    (row.switchMode restored requested nextMode resolution).connectionMode = nextMode := by
  cases restored <;> rfl

/-- A row that a sound call has written is attached and lists its modes. -/
theorem rowStep_consistent (h : RowInvariant s) (hsound : op.Sound registry tenancy s)
    (hconnections : ConnectionStep op s s')
    (hstep : RowStep registry tenancy op s s' (s.integrations.get? key) row) :
    s'.Attached row ∧ ListsModes row.config row.connectionMode := by
  generalize hold : s.integrations.get? key = old at hstep
  cases hstep with
  | kept =>
      refine ⟨attached_step hconnections ?_ (h.attached key row hold), h.modes key row hold⟩
      rintro id rfl
      exact hsound.revoke hold
  | materialized hpolicy hslug hmode hconfig hattached =>
      refine ⟨hattached, ?_⟩
      rw [hconfig, hmode]
      exact listsModes_rowConfig _
  | edited hop hnext =>
      rename_i caller existing data
      subst hop
      obtain rfl : existing.key = key := RowTable.get?_some_key hold
      have hdata := hsound.update hold hnext
      refine ⟨attached_step hconnections (fun _ => nofun) (h.attached _ existing hold), ?_⟩
      cases hconfig : data.config with
      | some config =>
          rw [RuntimeIntegrationUpdate.Sound, hconfig] at hdata
          simpa only [RuntimeIntegrationUpdate.edit, hconfig, Option.getD_some] using hdata.1
      | none =>
          simpa only [RuntimeIntegrationUpdate.edit, hconfig, Option.getD_none] using
            h.modes _ existing hold
  | switched hop hnext hne =>
      rename_i caller existing data requested nextMode resolution
      subst hop
      obtain rfl : existing.key = key := RowTable.get?_some_key hold
      have hdata := hsound.update hold hnext
      rw [RuntimeIntegrationUpdate.Sound] at hdata
      cases hconfig : data.config with
      | some config =>
          rw [hconfig] at hdata
          obtain ⟨hlists, -, hswitch⟩ := hdata
          refine ⟨attached_step hconnections (fun _ => nofun) ?_, ?_⟩
          · exact attached_switchMode (hswitch hne).1
          · simpa only [RuntimeIntegrationUpdate.edit, hconfig, switchMode_mode,
              Option.getD_some] using hlists
      | none =>
          rw [hconfig] at hdata
          have hnone := Option.isNone_iff_eq_none.mp (hdata hne).1
          rw [hnone]
          refine ⟨attached_step hconnections (fun _ => nofun) ?_, ?_⟩
          · rw [attached_edit, ← hnone]
            exact attached_switchMode (by simp [hnone])
          · simpa only [RuntimeIntegrationUpdate.edit, hconfig, switchMode_mode,
              Option.getD_none] using listsModes_switchMode
  | linked hlink hget hactive hmode hslug =>
      rename_i existing required c
      obtain rfl : existing.key = key := RowTable.get?_some_key hold
      have hmanaged := hsound.link hlink hold
      exact ⟨.inl ⟨rfl, c.id, c, rfl, hget, hactive, hmode.trans hmanaged.symm, hslug⟩,
        h.modes _ existing hold⟩

theorem rowInvariant_step (h : RowInvariant s) (huuid : op.MakesUuid)
    (hsound : op.Sound registry tenancy s) :
    RowInvariant (playRuntimeOperation registry tenancy s op) := by
  have hconnections : ConnectionStep op s (playRuntimeOperation registry tenancy s op) :=
    playRuntimeOperation_connection op
  have hrows : ∀ key row,
      (playRuntimeOperation registry tenancy s op).integrations.get? key = some row →
        (playRuntimeOperation registry tenancy s op).Attached row ∧
          ListsModes row.config row.connectionMode :=
    fun key row hrow => rowStep_consistent h hsound hconnections (playRuntimeOperation_row op hrow)
  refine ⟨fun key row hrow => (hrows key row hrow).1, fun key row hrow => (hrows key row hrow).2,
    fun id c hc => ?_⟩
  rcases hconnections.step id with hkept | ⟨-, hnew⟩ | ⟨-, c', hc', -⟩
  · exact h.ids id c (hkept.symm.trans hc)
  · exact huuid id hnew
  · exact h.ids id c' hc'

theorem rowsConsistent_of_invariant (h : RowInvariant s) : s.RowsConsistent := by
  refine ⟨fun row hrow => ?_, fun row hrow => h.modes _ row (RowTable.get?_of_mem hrow)⟩
  rcases h.attached _ row (RowTable.get?_of_mem hrow) with ⟨hstatus, huses⟩ | ⟨hstatus, hnone⟩
  · exact iff_of_true hstatus huses
  · refine iff_of_false hstatus ?_
    rintro ⟨id, c, hid, -⟩
    cases hnone.symm.trans hid

/-! ## Away and back -/

/-- The row goes back to the connection with its mode, unless that is no longer active. -/
def IntegrationStore.Remembers (s : IntegrationStore) (row : RuntimeIntegration) (mode : String)
    (id : Uuid) : Prop :=
  ∀ c, s.connections.get? id = some c → c.status = "active" →
    s.restoredConnection row.config mode = some c

/-- An update changes the mode of a row by a switch only. -/
theorem rowStep_switched {caller runtimeId : Uuid} {slug : String}
    {data : RuntimeIntegrationUpdate}
    (hstep : RowStep registry tenancy (.call (.update caller runtimeId slug data)) s s' (some row)
      row') (hne : row'.connectionMode ≠ row.connectionMode) :
    data.nextMode registry row = some row'.connectionMode ∧ ∃ requested resolution,
      row' = data.edit (row.switchMode (s.restoredConnection row.config row'.connectionMode)
        requested row'.connectionMode resolution) := by
  cases hstep with
  | kept => exact absurd rfl hne
  | materialized hpolicy => cases hpolicy
  | edited => exact absurd rfl hne
  | switched hop hnext hchange =>
      rename_i caller' data' requested nextMode resolution
      obtain ⟨-, -, -, rfl⟩ := IntegrationCall.update.inj (RuntimeOperation.call.inj hop)
      have hmode : (data.edit (row.switchMode (s.restoredConnection row.config nextMode) requested
          nextMode resolution)).connectionMode = nextMode := switchMode_mode
      rw [hmode]
      exact ⟨hnext, requested, resolution, rfl⟩
  | linked => exact absurd rfl hne

/-- The id that a switch writes down is read back. -/
theorem restored_switchMode {requested nextMode resolution : String} (huuid : c.id.IsUuid)
    (hid : row.connectionId = some c.id) (hget : s.connections.get? c.id = some c)
    (hactive : c.status = "active") (hmode : c.connectionMode = row.connectionMode) :
    s.restoredConnection (row.switchMode none requested nextMode resolution).config
      row.connectionMode = some c := by
  have hlookupMode : Json.lookup "previous_connection_mode"
      (row.switchMode none requested nextMode resolution).config =
        some (.str row.connectionMode) := by
    simp [RuntimeIntegration.switchMode, Json.update, Json.lookup_set]
  have hlookupId : Json.lookup "previous_connection_id"
      (row.switchMode none requested nextMode resolution).config = some (.str c.id.str) := by
    simp [RuntimeIntegration.switchMode, Json.update, Json.lookup_set, hid]
  have htext : c.id.str ≠ "" := by
    intro hempty
    rw [Uuid.IsUuid, hempty] at huuid
    exact absurd huuid (by decide +kernel)
  have hread : Uuid.ofJson (.str c.id.str) = some c.id := by
    rw [Uuid.ofJson, huuid]
    rfl
  unfold IntegrationStore.restoredConnection
  rw [hlookupMode, hlookupId]
  dsimp only
  rw [if_pos ⟨rfl, by simpa [Json.truthy] using htext⟩, hread, Option.bind_some, hget,
    Option.filter_some, if_pos]
  simpa using ⟨hactive, hmode⟩

/-- A sound update that takes a row away from its mode writes down the connection in use. -/
theorem remembers_away {runtimeId : Uuid} {slug : String} (hinv : RowInvariant s)
    (hop : op.Updates runtimeId slug) (hsound : op.Sound registry tenancy s)
    (hconnections : ConnectionStep op s s')
    (hrow : s.integrations.get? (runtimeId, slug) = some row) (huses : s.UsesActive row)
    (hid : row.connectionId = some id)
    (hstep : RowStep registry tenancy op s s' (some row) row')
    (hne : row'.connectionMode ≠ row.connectionMode) :
    s'.Remembers row' row.connectionMode id := by
  obtain ⟨caller, data, rfl⟩ := hop
  obtain ⟨hnext, requested, resolution, hswitched⟩ := rowStep_switched hstep hne
  obtain ⟨id', c, hid', hget, hactive, hmode, hslug⟩ := huses
  obtain rfl := Option.some.inj (hid.symm.trans hid')
  obtain rfl : c.id = id := RowTable.get?_some_key hget
  have hdata := hsound.update hrow hnext
  rw [RuntimeIntegrationUpdate.Sound] at hdata
  have hkept := connections_kept hconnections rfl (fun _ => nofun) c.id
  intro c' hc' _
  obtain rfl : c = c' := Option.some.inj (hget.symm.trans (hkept.symm.trans hc'))
  suffices hback : s.restoredConnection row'.config row.connectionMode = some c from
    restoredConnection_mono hback hc'
  rw [hswitched]
  cases hconfig : data.config with
  | some config =>
      rw [hconfig] at hdata
      have hrow : s.integrations.get? row.key = some row := by
        rw [RowTable.get?_some_key hrow]
        exact hrow
      have hin := inUse_eq_some hrow hid hget hactive hmode hslug
      have hback := (hdata.2.2 hne).2 c hin
      simpa only [RuntimeIntegrationUpdate.edit, hconfig, Option.getD_some] using
        (goesBack_iff hget).1 hback
  | none =>
      rw [hconfig] at hdata
      rw [Option.isNone_iff_eq_none.mp (hdata hne).1]
      simpa only [RuntimeIntegrationUpdate.edit, hconfig, Option.getD_none] using
        restored_switchMode (hinv.ids c.id c hget) hid hget hactive hmode

/-- A sound call that leaves a row in another mode keeps what it goes back to. -/
theorem remembers_step (hsound : op.Sound registry tenancy s)
    (hconnections : ConnectionStep op s s')
    (hrow : s.integrations.get? row.key = some row) (hkey : row'.key = row.key)
    (hne : row.connectionMode ≠ mode) (hsome : (s.connections.get? id).isSome) (h : s.Remembers row mode id)
    (hstep : RowStep registry tenancy op s s' (some row) row')
    (hne' : row'.connectionMode ≠ mode) : s'.Remembers row' mode id := by
  intro c hc hactive
  have hget : s.connections.get? id = some c := by
    rcases hconnections.step id with hkept | ⟨hfree, -⟩ | ⟨-, c', -, hrevoked⟩
    · exact hkept.symm.trans hc
    · simp [hfree] at hsome
    · rw [hrevoked] at hc
      obtain rfl := Option.some.inj hc
      exact absurd (show "revoked" = "active" from hactive) (by decide)
  obtain rfl : c.id = id := RowTable.get?_some_key hget
  have hback := h c hget hactive
  suffices hkept : s.restoredConnection row'.config mode = some c from
    restoredConnection_mono hkept hc
  cases hstep with
  | kept => exact hback
  | materialized hpolicy hslug hmode hconfig _ =>
      have hwritten : s.integrations.get? (row'.runtimeId, row'.integrationSlug) = some row := by
        rw [← hrow, ← hkey]
        rfl
      have hkeeps := hsound.materialized hpolicy (hslug ▸ hwritten)
      rw [hconfig, restoredConnection_rowConfig]
      exact restored_of_keepsRemembered hkeeps hback hne.symm (hmode ▸ hne'.symm)
  | edited hop hnext =>
      rename_i caller data
      subst hop
      have hdata := hsound.update hrow hnext
      rw [RuntimeIntegrationUpdate.Sound] at hdata
      cases hconfig : data.config with
      | some config =>
          rw [hconfig] at hdata
          simpa only [RuntimeIntegrationUpdate.edit, hconfig, Option.getD_some] using
            restored_of_keepsRemembered hdata.2.1 hback hne.symm hne.symm
      | none => simpa only [RuntimeIntegrationUpdate.edit, hconfig, Option.getD_none] using hback
  | switched hop hnext hchange =>
      rename_i caller data requested nextMode resolution
      subst hop
      have hdata := hsound.update hrow hnext
      rw [RuntimeIntegrationUpdate.Sound] at hdata
      have hother : mode ≠ nextMode := by
        rintro rfl
        exact hne' switchMode_mode
      cases hconfig : data.config with
      | some config =>
          rw [hconfig] at hdata
          simpa only [RuntimeIntegrationUpdate.edit, hconfig, Option.getD_some] using
            restored_of_keepsRemembered hdata.2.1 hback hne.symm hother
      | none =>
          -- Without a configuration a switch would overwrite what is remembered.
          rw [hconfig] at hdata
          have hforgotten := Option.isNone_iff_eq_none.mp (hdata hchange).2
          cases hforgotten.symm.trans (remembered_of_restored hback hne.symm)
  | linked => exact hback

theorem isSome_step (hconnections : ConnectionStep op s s')
    (hsome : (s.connections.get? id).isSome) : (s'.connections.get? id).isSome := by
  rcases hconnections.step id with hkept | ⟨hfree, -⟩ | ⟨-, c', -, hrevoked⟩
  · rw [hkept]
    exact hsome
  · simp [hfree] at hsome
  · rw [hrevoked]
    rfl

/-- As long as a row is in other modes, sound calls keep what it goes back to. -/
theorem remembers_between {between : List RuntimeOperation}
    (hrun : StepRuns.Along (playRuntimeOperation registry tenancy)
      (fun s op => op.MakesUuid ∧ op.Sound registry tenancy s) s between)
    (hrow : s.integrations.get? key = some row) (hne : row.connectionMode ≠ mode)
    (hsome : (s.connections.get? id).isSome) (h : s.Remembers row mode id)
    (hother : ∀ part, part <+: between → ∃ r,
      (part.foldl (playRuntimeOperation registry tenancy) s).integrations.get? key = some r ∧
        r.connectionMode ≠ mode) :
    ∃ r, (between.foldl (playRuntimeOperation registry tenancy) s).integrations.get? key =
        some r ∧ r.connectionMode ≠ mode ∧
      (between.foldl (playRuntimeOperation registry tenancy) s).Remembers r mode id := by
  induction between generalizing s row with
  | nil => exact ⟨row, hrow, hne, h⟩
  | cons op between ih =>
      obtain ⟨⟨-, hsound⟩, hrest⟩ := hrun
      obtain ⟨r, hr, hr'⟩ := hother [op] (by simp)
      have hr : (playRuntimeOperation registry tenancy s op).integrations.get? key = some r := hr
      have hconnections : ConnectionStep op s (playRuntimeOperation registry tenancy s op) :=
        playRuntimeOperation_connection op
      have hkey : row.key = key := RowTable.get?_some_key hrow
      have hstep := playRuntimeOperation_row op hr
      rw [hrow] at hstep
      refine ih hrest hr hr' (isSome_step hconnections hsome) ?_ ?_
      · exact remembers_step hsound hconnections (hkey ▸ hrow)
          ((RowTable.get?_some_key hr).trans hkey.symm) hne hsome h hstep hr'
      · intro part hpart
        exact hother (op :: part) (List.cons_prefix_cons.2 ⟨rfl, hpart⟩)

/-- An update that takes a row back to a mode takes it back to what it remembers. -/
theorem connectionId_back {runtimeId : Uuid} {slug : String} (hop : op.Updates runtimeId slug)
    (hget : s.connections.get? id = some c) (hactive : c.status = "active")
    (h : s.Remembers row mode id) (hne : row.connectionMode ≠ mode)
    (hstep : RowStep registry tenancy op s s' (some row) row')
    (hmode : row'.connectionMode = mode) : row'.connectionId = some id := by
  obtain ⟨caller, data, rfl⟩ := hop
  subst hmode
  obtain ⟨-, requested, resolution, hswitched⟩ := rowStep_switched hstep hne.symm
  obtain rfl : c.id = id := RowTable.get?_some_key hget
  rw [h c hget hactive] at hswitched
  rw [hswitched]
  rfl

/-- From a state in which the connection is in use, sound calls take the row away and back to
it. -/
theorem connectionId_return {runtimeId : Uuid} {slug : String} {away back : RuntimeOperation}
    {between : List RuntimeOperation} (hinv : RowInvariant s)
    (hrun : StepRuns.Along (playRuntimeOperation registry tenancy)
      (fun s op => op.MakesUuid ∧ op.Sound registry tenancy s) s (away :: between))
    (haway : away.Updates runtimeId slug) (hback : back.Updates runtimeId slug)
    (hrow : s.integrations.get? (runtimeId, slug) = some row) (huses : s.UsesActive row)
    (hid : row.connectionId = some id)
    (hother : ∀ part, part <+: between → ∃ r,
      ((away :: part).foldl (playRuntimeOperation registry tenancy) s).integrations.get?
        (runtimeId, slug) = some r ∧ r.connectionMode ≠ row.connectionMode)
    (hactive : ∃ c, ((away :: between).foldl (playRuntimeOperation registry tenancy)
      s).connections.get? id = some c ∧ c.status = "active")
    (hrow' : (playRuntimeOperation registry tenancy ((away :: between).foldl
      (playRuntimeOperation registry tenancy) s) back).integrations.get? (runtimeId, slug) =
        some row')
    (hmode : row'.connectionMode = row.connectionMode) : row'.connectionId = some id := by
  obtain ⟨⟨-, hsound⟩, hbetween⟩ := hrun
  have hconnections : ConnectionStep away s (playRuntimeOperation registry tenancy s away) :=
    playRuntimeOperation_connection away
  have hsome : (s.connections.get? id).isSome := by
    obtain ⟨id', c, hid', hget, -⟩ := huses
    obtain rfl := Option.some.inj (hid.symm.trans hid')
    rw [hget]
    rfl
  obtain ⟨first, hfirst, hleft⟩ := hother [] List.nil_prefix
  have hstep := playRuntimeOperation_row away hfirst
  rw [hrow] at hstep
  have hremembers := remembers_away hinv haway hsound hconnections hrow huses hid hstep hleft
  obtain ⟨last, hlast, hlastMode, hkept⟩ := remembers_between hbetween hfirst hleft
    (isSome_step hconnections hsome) hremembers hother
  obtain ⟨c, hget, hstill⟩ := hactive
  have hreturn := playRuntimeOperation_row back hrow'
  rw [List.foldl_cons, hlast] at hreturn
  exact connectionId_back hback hget hstill hkept hlastMode hreturn hmode

end

theorem afterOperations_append (registry : IntegrationRegistry) (tenancy : Tenancy)
    (ops ops' : List RuntimeOperation) :
    afterOperations registry tenancy (ops ++ ops') =
      ops'.foldl (playRuntimeOperation registry tenancy) (afterOperations registry tenancy ops) :=
  List.foldl_append

theorem rowInvariant_run {registry : IntegrationRegistry} {tenancy : Tenancy}
    {ops : List RuntimeOperation}
    (hrun : StepRuns.Along (playRuntimeOperation registry tenancy)
      (fun s op => op.MakesUuid ∧ op.Sound registry tenancy s) {} ops) :
    RowInvariant (afterOperations registry tenancy ops) := by
  refine hrun.invariant (fun s op h hop => rowInvariant_step h hop.1 hop.2) ?_
  refine ⟨?_, ?_, ?_⟩
  · intro key row h
    cases h
  · intro key row h
    cases h
  · intro id c h
    cases h

/-- In every run of calls that keep rows consistent, they are consistent at the end, and a
row that comes back to a mode has the connection that was in use, if that is still active. -/
theorem integrationRows_consistent (registry : IntegrationRegistry) (tenancy : Tenancy)
    {ops : List RuntimeOperation}
    (hrun : StepRuns.Along (playRuntimeOperation registry tenancy)
      (fun s op => op.MakesUuid ∧ op.Sound registry tenancy s) {} ops) :
    (afterOperations registry tenancy ops).RowsConsistent ∧
      RestoresOnReturn registry tenancy ops := by
  refine ⟨rowsConsistent_of_invariant (rowInvariant_run hrun), ?_⟩
  intro before away between back runtimeId slug row row' id hops haway hback hrow huses hid hother
    hactive hrow' hmode
  subst hops
  rw [List.append_assoc, List.cons_append] at hrun hrow'
  obtain ⟨hbefore, hrest⟩ := StepRuns.along_append.1 hrun
  rw [← List.cons_append] at hrest
  obtain ⟨hswitched, -⟩ := StepRuns.along_append.1 hrest
  simp only [afterOperations_append] at hother hactive
  rw [afterOperations_append, ← List.cons_append, List.foldl_append] at hrow'
  exact connectionId_return (rowInvariant_run hbefore) hswitched haway hback hrow huses hid hother
    hactive hrow' hmode

/-! ## Runs of one row -/

/-- The values are the texts. -/
def areTexts : List Json → List String → Bool
  | [], [] => true
  | .str s :: items, t :: texts => s = t && areTexts items texts
  | _, _ => false

theorem areTexts_iff {items : List Json} {texts : List String} :
    areTexts items texts = true ↔ items = texts.map .str := by
  fun_induction areTexts items texts with
  | case1 => simp
  | case2 s items t texts ih => simp [ih]
  | case3 items texts hnil hstr =>
      simp only [Bool.false_eq_true, false_iff]
      rintro rfl
      cases texts with
      | nil => exact hnil rfl rfl
      | cons t texts => exact hstr t _ t texts rfl rfl

instance ListsModes.decidable (config : Fields) (mode : String) :
    Decidable (ListsModes config mode) :=
  decidable_of_iff (((Json.lookup "allowed_connection_modes" config).any fun
      | .arr items => areTexts items
          (if mode = "hybrid" then ["zyntry_managed", "end_user_oauth"] else [mode])
      | _ => false) = true) (by
    unfold ListsModes allowedConnectionModes
    cases Json.lookup "allowed_connection_modes" config with
    | none => simp
    | some value =>
        cases value with
        | arr items =>
            rw [Option.any_some, areTexts_iff]
            split_ifs <;> simp
        | _ => simp)

instance IntegrationStore.decidableKeepsRemembered (s : IntegrationStore)
    (row : RuntimeIntegration) (nextMode : String) (config : Fields) :
    Decidable (s.KeepsRemembered row nextMode config) := by
  unfold IntegrationStore.KeepsRemembered IntegrationStore.GoesBack
  infer_instance

instance RuntimeIntegrationUpdate.decidableSound (data : RuntimeIntegrationUpdate)
    (s : IntegrationStore) (row : RuntimeIntegration) (nextMode : String) :
    Decidable (data.Sound s row nextMode) := by
  unfold RuntimeIntegrationUpdate.Sound IntegrationStore.GoesBack
  split <;> infer_instance

instance RuntimeOperation.decidableSound (registry : IntegrationRegistry) (tenancy : Tenancy)
    (s : IntegrationStore) (op : RuntimeOperation) : Decidable (op.Sound registry tenancy s) := by
  unfold RuntimeOperation.Sound
  split <;> infer_instance

instance RuntimeOperation.decidableMakesUuid (op : RuntimeOperation) : Decidable op.MakesUuid := by
  unfold RuntimeOperation.MakesUuid Uuid.IsUuid
  infer_instance

def afterCalls (calls : List IntegrationCall) : IntegrationStore :=
  afterOperations notionRegistry twoTenants (calls.map .call)

def connectOwn : List IntegrationCall :=
  [.enable ⟨"u1"⟩ firstRuntime { integrationSlug := "notion" },
   connectNotion (some firstRuntime.str)]

def switchTo (mode : String) (config : Option Fields) : IntegrationCall :=
  .update ⟨"u1"⟩ firstRuntime "notion"
    { connectionMode := some mode
      config }

/-- The caller names the modes of the mode that the row comes back to. -/
def switchAndReturn : List IntegrationCall :=
  connectOwn ++
    [switchTo "end_user_oauth" none,
     switchTo "zyntry_managed"
      (some [("allowed_connection_modes", .arr [.str "zyntry_managed"])])]

theorem integrationRows_consistent_switchAndReturn :
    (afterCalls switchAndReturn).RowsConsistent ∧
      ∃ row ∈ (afterCalls switchAndReturn).integrations.rows,
        row.connectionStatus = "connected" ∧ row.connectionId = some notionConnection := by
  obtain ⟨hrun, hrow⟩ : StepRuns.Along (playRuntimeOperation notionRegistry twoTenants)
      (fun s op => op.MakesUuid ∧ op.Sound notionRegistry twoTenants s) {}
      (switchAndReturn.map .call) ∧
        ∃ row ∈ (afterCalls switchAndReturn).integrations.rows,
          row.connectionStatus = "connected" ∧ row.connectionId = some notionConnection := by
    decide +kernel
  exact ⟨(integrationRows_consistent notionRegistry twoTenants hrun).1, hrow⟩

theorem usesActive_iff {s : IntegrationStore} {row : RuntimeIntegration} :
    s.UsesActive row ↔ ∃ id ∈ row.connectionId, ∃ c ∈ s.connections.get? id,
      c.status = "active" ∧ c.connectionMode = row.connectionMode ∧
        c.integrationSlug = row.integrationSlug := by
  constructor
  · rintro ⟨id, c, hid, hget, hc⟩
    exact ⟨id, hid, c, hget, hc⟩
  · rintro ⟨id, hid, c, hget, hc⟩
    exact ⟨id, c, hid, hget, hc⟩

instance IntegrationStore.decidableUsesActive (s : IntegrationStore) (row : RuntimeIntegration) :
    Decidable (s.UsesActive row) := decidable_of_iff _ usesActive_iff.symm

/-- A managed connection is made for a row of end users. -/
def connectEndUsers : List IntegrationCall :=
  [.enable ⟨"u1"⟩ firstRuntime
    { integrationSlug := "notion"
      connectionMode := "end_user_oauth" },
   connectNotion (some firstRuntime.str)]

/-- A third mode lies between the switch away and the switch back. -/
def returnFromThird : List IntegrationCall :=
  connectOwn ++ [switchTo "end_user_oauth" none, switchTo "hybrid" none,
    switchTo "zyntry_managed" none]

/-- What the row and its connection are along that run. -/
theorem returnFromThird_rows :
    (∃ row ∈ (afterCalls connectOwn).integrations.get? (firstRuntime, "notion"),
      (afterCalls connectOwn).UsesActive row ∧ row.connectionId = some notionConnection ∧
        row.connectionMode = "zyntry_managed") ∧
    (∃ row ∈ (afterCalls (connectOwn ++
        [switchTo "end_user_oauth" none])).integrations.get? (firstRuntime, "notion"),
      row.connectionMode ≠ "zyntry_managed") ∧
    (∃ row ∈ (afterCalls (connectOwn ++ [switchTo "end_user_oauth" none,
        switchTo "hybrid" none])).integrations.get? (firstRuntime, "notion"),
      row.connectionMode ≠ "zyntry_managed") ∧
    (∃ c ∈ (afterCalls (connectOwn ++ [switchTo "end_user_oauth" none,
        switchTo "hybrid" none])).connections.get? notionConnection, c.status = "active") ∧
    ∃ row ∈ (afterCalls returnFromThird).integrations.get? (firstRuntime, "notion"),
      row.connectionId = none ∧ row.connectionMode = "zyntry_managed" := by
  decide +kernel

theorem connection_lostByThird :
    ¬ RestoresOnReturn notionRegistry twoTenants (returnFromThird.map .call) := by
  intro h
  obtain ⟨⟨row, hrow, huses, hid, hmode⟩, hfirst, hsecond, hactive, row', hrow', hid', hmode'⟩ :=
    returnFromThird_rows
  have hlost := h (connectOwn.map .call) (.call (switchTo "end_user_oauth" none))
    [.call (switchTo "hybrid" none)] (.call (switchTo "zyntry_managed" none)) firstRuntime
    "notion" row row' notionConnection rfl ⟨_, _, rfl⟩ ⟨_, _, rfl⟩ hrow huses hid ?_ hactive hrow'
    (hmode'.trans hmode.symm)
  · cases hid'.symm.trans hlost
  · intro part hpart
    rw [hmode]
    have hparts : part = [] ∨ part = [.call (switchTo "hybrid" none)] := by
      cases part with
      | nil => exact .inl rfl
      | cons op part =>
          obtain ⟨rfl, hrest⟩ := List.cons_prefix_cons.1 hpart
          exact .inr (by rw [List.prefix_nil.1 hrest])
    rcases hparts with rfl | rfl
    · exact hfirst
    · exact hsecond

/-- A revoked connection leaves its row connected, a switch back leaves the list of the mode
that it comes from, a row of end users is linked to a managed connection, and a third mode
makes a row forget its connection. -/
theorem integrationRows_inconsistent :
    ¬ (afterCalls (connectOwn ++ [.revoke notionConnection])).RowsConsistent ∧
    ¬ (afterCalls (connectOwn ++
        [switchTo "end_user_oauth" none, switchTo "zyntry_managed" none])).RowsConsistent ∧
    ¬ (afterCalls connectEndUsers).RowsConsistent ∧
    ¬ RestoresOnReturn notionRegistry twoTenants (returnFromThird.map .call) := by
  obtain ⟨⟨row₁, hrow₁, hrevoked⟩, ⟨row₂, hrow₂, hlist⟩, row₃, hrow₃, hother⟩ :
      (∃ row ∈ (afterCalls (connectOwn ++ [.revoke notionConnection])).integrations.rows,
        ¬(row.connectionStatus = "connected" ↔
          (afterCalls (connectOwn ++ [.revoke notionConnection])).UsesActive row)) ∧
      (∃ row ∈ (afterCalls (connectOwn ++ [switchTo "end_user_oauth" none,
          switchTo "zyntry_managed" none])).integrations.rows,
        ¬ListsModes row.config row.connectionMode) ∧
      ∃ row ∈ (afterCalls connectEndUsers).integrations.rows,
        ¬(row.connectionStatus = "connected" ↔ (afterCalls connectEndUsers).UsesActive row) := by
    decide +kernel
  exact ⟨fun h => hrevoked (h.connected row₁ hrow₁), fun h => hlist (h.modes row₂ hrow₂),
    fun h => hother (h.connected row₃ hrow₃), connection_lostByThird⟩

end Zyntry
