import Zyntry.IntegrationRows
import Zyntry.PythonCase

/-!
# Reconciling the policies of a runtime again

A list of policies is written row by row, and a row keeps the connection that it holds if
every policy written to it finds that valid. So a list that is written twice makes the same
rows as before. An alias of an integration, however, is a slug of its own unless slugs are
made canonical, and a row of the mode `hybrid` never keeps its connection, which is of one of
the two modes that `hybrid` permits.
-/

namespace Zyntry

open Python

/-! ## A registry with aliases -/

/-- A registry that files each definition under its slug, in lower case, and in which no slug
is an alias. -/
structure CanonicalRegistry extends IntegrationRegistry where
  filed : ∀ entry ∈ definitions, entry.1 = entry.2.slug
  distinct : (definitions.map Prod.fst).Nodup
  lowercase : ∀ entry ∈ definitions, stripped (lower entry.1) = entry.1
  unaliased : ∀ entry ∈ definitions, aliases.lookup entry.1 = none

theorem lookup_of_mem_nodup {α : Type} {entries : List (String × α)} {entry : String × α}
    (hdistinct : (entries.map Prod.fst).Nodup) (h : entry ∈ entries) :
    entries.lookup entry.1 = some entry.2 := by
  induction entries with
  | nil => cases h
  | cons first entries ih =>
      obtain ⟨hfirst, hdistinct⟩ := List.nodup_cons.mp hdistinct
      rcases List.mem_cons.mp h with rfl | h
      · rcases entry with ⟨key, value⟩
        simp
      · have hne : entry.1 ≠ first.1 := by
          rintro heq
          exact hfirst (heq ▸ List.mem_map_of_mem h)
        have htest : (entry.1 == first.1) = false := beq_eq_false_iff_ne.mpr hne
        simpa only [List.lookup, htest] using ih hdistinct h

/-- A definition is found under its own slug. -/
theorem CanonicalRegistry.get_slug (registry : CanonicalRegistry)
    {definition : IntegrationDefinition}
    (h : definition ∈ registry.definitions.map Prod.snd) :
    registry.get definition.slug = some definition := by
  obtain ⟨entry, hentry, rfl⟩ := List.mem_map.mp h
  simp only [← registry.filed entry hentry, IntegrationRegistry.get]
  rw [registry.lowercase entry hentry, registry.unaliased entry hentry, Option.getD_none,
    lookup_of_mem_nodup registry.distinct hentry]

/-! ## The rows that are written -/

namespace IntegrationStore

/-- The connection that a row names. -/
def heldConnection (s : IntegrationStore) (runtimeId : Uuid) (slug : String) :
    Option IntegrationConnection :=
  (s.integrations.get? (runtimeId, slug)).bind fun existing =>
    existing.connectionId.bind s.connections.get?

/-- The policies are written in their order. -/
def materializeAll (s : IntegrationStore) (runtimeId : Uuid)
    (policies : List MaterializedPolicy) : IntegrationStore :=
  policies.foldl (fun s policy => s.materialize runtimeId policy) s

end IntegrationStore

/-- The connection is one that the row of the policy may keep. -/
def MaterializedPolicy.Keeps (policy : MaterializedPolicy) (c : IntegrationConnection) : Prop :=
  c.status = "active" ∧ c.integrationSlug = policy.storageSlug ∧ c.connectionMode = policy.mode

instance (policy : MaterializedPolicy) (c : IntegrationConnection) : Decidable (policy.Keeps c) :=
  inferInstanceAs (Decidable (_ ∧ _ ∧ _))

/-- The policies that are written to the row of a slug. -/
def policiesFor (policies : List MaterializedPolicy) (slug : String) : List MaterializedPolicy :=
  policies.filter fun policy => policy.storageSlug = slug

section

variable (s : IntegrationStore) (runtimeId : Uuid)

theorem filter_eq_self {α : Type} {o : Option α} {p : α → Bool} (h : ∀ a ∈ o, p a = true) :
    o.filter p = o := by
  cases o with
  | none => rfl
  | some a => exact Option.filter_some_pos (h a rfl)

theorem linkedConnection_eq (policy : MaterializedPolicy) :
    s.linkedConnection runtimeId policy.storageSlug policy.mode =
      (s.heldConnection runtimeId policy.storageSlug).filter fun c => policy.Keeps c :=
  rfl

theorem get?_materialize (policy : MaterializedPolicy) (key : Uuid × String) :
    (s.materialize runtimeId policy).integrations.get? key =
      if key = (runtimeId, policy.storageSlug) then
        some (s.materializedRow runtimeId policy)
      else s.integrations.get? key :=
  get?_writeIntegration s _ key

/-- A connection that is kept is the one that the row names. -/
theorem heldConnection_get? {slug : String} {c : IntegrationConnection}
    (h : s.heldConnection runtimeId slug = some c) : s.connections.get? c.id = some c := by
  obtain ⟨existing, -, hc⟩ := Option.bind_eq_some_iff.mp h
  obtain ⟨id, -, hget⟩ := Option.bind_eq_some_iff.mp hc
  obtain rfl : c.id = id := RowTable.get?_some_key hget
  exact hget

theorem heldConnection_materialize (policy : MaterializedPolicy) (slug : String) :
    (s.materialize runtimeId policy).heldConnection runtimeId slug =
      (s.heldConnection runtimeId slug).filter fun c =>
        policy.storageSlug = slug → policy.Keeps c := by
  by_cases hslug : policy.storageSlug = slug
  · subst hslug
    have hrow : (s.materialize runtimeId policy).heldConnection runtimeId policy.storageSlug =
        (s.materializedRow runtimeId policy).connectionId.bind s.connections.get? := by
      rw [IntegrationStore.heldConnection, get?_materialize, if_pos rfl, Option.bind_some,
        materialize_connections]
    have hkept : (s.materializedRow runtimeId policy).connectionId =
        ((s.heldConnection runtimeId policy.storageSlug).filter fun c => policy.Keeps c).map
          IntegrationConnection.id := rfl
    rw [hrow, hkept]
    simp only [true_imp_iff]
    cases hc : (s.heldConnection runtimeId policy.storageSlug).filter
        fun c => policy.Keeps c with
    | none => rfl
    | some c =>
        exact heldConnection_get? s runtimeId (Option.filter_eq_some_iff.mp hc).1
  · have hother : ((runtimeId, slug) : Uuid × String) ≠ (runtimeId, policy.storageSlug) := by
      rintro heq
      exact hslug (Prod.mk.inj heq).2.symm
    have hsame : (s.materialize runtimeId policy).heldConnection runtimeId slug =
        s.heldConnection runtimeId slug := by
      rw [IntegrationStore.heldConnection, get?_materialize, if_neg hother,
        materialize_connections]
      rfl
    rw [hsame, filter_eq_self]
    simp [hslug]

/-- A connection is kept by all the policies that are written to its row, or by none. -/
theorem heldConnection_materializeAll (policies : List MaterializedPolicy) (slug : String) :
    (s.materializeAll runtimeId policies).heldConnection runtimeId slug =
      (s.heldConnection runtimeId slug).filter fun c =>
        ∀ policy ∈ policiesFor policies slug, policy.Keeps c := by
  induction policies generalizing s with
  | nil =>
      rw [filter_eq_self (by simp [policiesFor])]
      rfl
  | cons policy policies ih =>
      have hstep : s.materializeAll runtimeId (policy :: policies) =
          (s.materialize runtimeId policy).materializeAll runtimeId policies := rfl
      rw [hstep, ih, heldConnection_materialize, Option.filter_filter]
      congr 1
      funext c
      by_cases hslug : policy.storageSlug = slug
      · simp [policiesFor, hslug]
      · simp [policiesFor, hslug]

/-- The last policy that is written to a row makes it, but for the connection. -/
theorem get?_materializeAll (policies : List MaterializedPolicy) (slug : String) :
    (s.materializeAll runtimeId policies).integrations.get? (runtimeId, slug) =
      match (policiesFor policies slug).getLast? with
      | none => s.integrations.get? (runtimeId, slug)
      | some last =>
          some (last.row runtimeId
            ((s.materializeAll runtimeId policies).heldConnection runtimeId slug)) := by
  induction policies using List.reverseRecOn with
  | nil => rfl
  | append_singleton policies policy ih =>
      have hstep : s.materializeAll runtimeId (policies ++ [policy]) =
          (s.materializeAll runtimeId policies).materialize runtimeId policy := by
        simp [IntegrationStore.materializeAll]
      rw [hstep, get?_materialize]
      by_cases hslug : policy.storageSlug = slug
      · subst hslug
        rw [if_pos rfl, heldConnection_materialize]
        simp [policiesFor, IntegrationStore.materializedRow, linkedConnection_eq]
      · have hother : ((runtimeId, slug) : Uuid × String) ≠ (runtimeId, policy.storageSlug) := by
          rintro heq
          exact hslug (Prod.mk.inj heq).2.symm
        have hfor : policiesFor (policies ++ [policy]) slug = policiesFor policies slug := by
          simp [policiesFor, hslug]
        have hheld : ((s.materializeAll runtimeId policies).materialize runtimeId
            policy).heldConnection runtimeId slug =
              (s.materializeAll runtimeId policies).heldConnection runtimeId slug := by
          rw [heldConnection_materialize, filter_eq_self]
          simp [hslug]
        rw [if_neg hother, ih, hfor, hheld]

/-- The rows of the other runtimes are left alone. -/
theorem get?_materializeAll_of_ne (policies : List MaterializedPolicy) {key : Uuid × String}
    (h : key.1 ≠ runtimeId) :
    (s.materializeAll runtimeId policies).integrations.get? key = s.integrations.get? key := by
  induction policies generalizing s with
  | nil => rfl
  | cons policy policies ih =>
      refine (ih (s.materialize runtimeId policy)).trans ?_
      rw [get?_materialize, if_neg]
      rintro rfl
      exact h rfl

/-- Writing the policies once more changes no row. -/
theorem get?_materializeAll_twice (policies : List MaterializedPolicy) (key : Uuid × String) :
    ((s.materializeAll runtimeId policies).materializeAll runtimeId policies).integrations.get?
        key = (s.materializeAll runtimeId policies).integrations.get? key := by
  by_cases hruntime : key.1 = runtimeId
  · obtain ⟨runtimeId, slug⟩ := key
    obtain rfl := hruntime
    have hheld : ((s.materializeAll runtimeId policies).materializeAll runtimeId
        policies).heldConnection runtimeId slug =
          (s.materializeAll runtimeId policies).heldConnection runtimeId slug := by
      rw [heldConnection_materializeAll, heldConnection_materializeAll, Option.filter_filter]
      simp only [Bool.and_self]
    rw [get?_materializeAll, hheld, get?_materializeAll]
    cases (policiesFor policies slug).getLast? <;> rfl
  · exact get?_materializeAll_of_ne _ _ _ hruntime

end

/-! ## Reading the policies -/

theorem IntegrationRegistry.get_lower (registry : IntegrationRegistry) (slug : String) :
    registry.get (lower slug) = registry.get slug := by
  simp only [IntegrationRegistry.get, lower_lower]

/-- The policy under the slug of its definition. -/
def MaterializedPolicy.canonical (registry : IntegrationRegistry) (policy : MaterializedPolicy) :
    MaterializedPolicy :=
  { policy with
    storageSlug := ((registry.get policy.storageSlug).map IntegrationDefinition.slug).getD
      policy.storageSlug }

/-- What a list of policies writes for a runtime; nothing if it is refused. -/
def readPolicies (registry : IntegrationRegistry) (tenancy : Tenancy) (runtimeId : Uuid)
    (config : Fields) (policies : List Json) (canonicalizeSlugs : Bool) :
    List MaterializedPolicy :=
  match tenancy.runtimes runtimeId,
      policies.mapM (readPolicy registry (defaultConnectionMode config) canonicalizeSlugs) with
  | some _, .ok read => read.reduceOption
  | _, _ => []

section

variable (registry : IntegrationRegistry) (tenancy : Tenancy) (runtimeId : Uuid)
  (config : Fields) (policies : List Json)

theorem materialized_storageSlug (definition : IntegrationDefinition) (slug slug' : String)
    (rawPolicy : Fields) (defaultMode : Json) :
    definition.materialized registry slug' rawPolicy defaultMode =
      (definition.materialized registry slug rawPolicy defaultMode).map fun policy =>
        { policy with storageSlug := slug' } := by
  unfold IntegrationDefinition.materialized
  dsimp only
  generalize resolveConnectionMode registry definition.slug (policyMode rawPolicy defaultMode) =
    resolved
  generalize policyCapabilities definition rawPolicy = capabilities
  cases resolved with
  | error e => rfl
  | ok resolved =>
      cases capabilities with
      | error e => rfl
      | ok capabilities => rfl

/-- With canonical slugs a policy is read as without them, but under the slug of its
definition. -/
theorem readPolicy_canonical (defaultMode rawPolicy : Json) :
    readPolicy registry defaultMode true rawPolicy =
      (readPolicy registry defaultMode false rawPolicy).map
        (Option.map (MaterializedPolicy.canonical registry)) := by
  cases rawPolicy with
  | obj fields =>
      simp only [readPolicy, if_true, Bool.false_eq_true, if_false]
      cases nonBlank (orValue (Json.lookup "integration_slug" fields)
          (Json.lookup "slug" fields)) with
      | none => rfl
      | some requestedSlug =>
          dsimp only
          cases hdefinition : registry.materializable (stripped requestedSlug) with
          | none => rfl
          | some definition =>
              have hget : registry.get (lower (stripped requestedSlug)) = some definition :=
                (registry.get_lower _).trans (Option.filter_eq_some_iff.mp hdefinition).1
              dsimp only
              rw [materialized_storageSlug registry definition (lower (stripped requestedSlug))
                definition.slug]
              cases hread : definition.materialized registry (lower (stripped requestedSlug))
                  fields defaultMode with
              | error e => rfl
              | ok policy =>
                  have hslug : policy.storageSlug = lower (stripped requestedSlug) := by
                    obtain ⟨resolved, -, hread⟩ := bind_eq_ok.mp hread
                    obtain ⟨capabilities, -, hread⟩ := bind_eq_ok.mp hread
                    obtain rfl := Except.ok.inj hread
                    rfl
                  have hcanonical : policy.canonical registry =
                      { policy with storageSlug := definition.slug } := by
                    rw [MaterializedPolicy.canonical, hslug, hget]
                    rfl
                  simp only [Except.map, Functor.map, Option.map_some, hcanonical]
  | _ => rfl

theorem mapM_map {ε α β γ : Type} {read : α → Except ε β} {f : β → γ}
    {read' : α → Except ε γ} (h : ∀ a, read' a = (read a).map f) (items : List α) :
    items.mapM read' = (items.mapM read).map (List.map f) := by
  induction items with
  | nil => rfl
  | cons a items ih =>
      rw [List.mapM_cons, List.mapM_cons, h, ih]
      cases read a with
      | error e => rfl
      | ok b =>
          cases items.mapM read with
          | error e => rfl
          | ok bs => rfl

theorem readPolicies_canonical :
    readPolicies registry tenancy runtimeId config policies true =
      (readPolicies registry tenancy runtimeId config policies false).map
        (MaterializedPolicy.canonical registry) := by
  unfold readPolicies
  rw [mapM_map (readPolicy_canonical registry (defaultConnectionMode config)) policies]
  cases tenancy.runtimes runtimeId with
  | none => rfl
  | some runtime =>
      cases policies.mapM (readPolicy registry (defaultConnectionMode config) false) with
      | error e => rfl
      | ok read =>
          simp [Except.map, List.reduceOption, List.filterMap_map, List.map_filterMap]

/-- A list of policies that is read is written. -/
theorem reconcileRuntimePolicies_ok {runtime : RuntimeOwner}
    {read : List (Option MaterializedPolicy)}
    {canonicalizeSlugs : Bool} (hruntime : tenancy.runtimes runtimeId = some runtime)
    (hread : policies.mapM (readPolicy registry (defaultConnectionMode config)
      canonicalizeSlugs) = .ok read) (s : IntegrationStore) :
    ∃ rows, reconcileRuntimePolicies registry tenancy s runtimeId config policies
      canonicalizeSlugs = .ok (s.materializeAll runtimeId read.reduceOption, rows) := by
  unfold reconcileRuntimePolicies
  rw [hruntime]
  dsimp only
  generalize hstart : (s, ([] : List RuntimeIntegration)) = start
  obtain rfl : start.1 = s := by rw [← hstart]
  clear hstart
  induction policies generalizing start read with
  | nil =>
      obtain rfl := Except.ok.inj hread
      exact ⟨start.2, rfl⟩
  | cons rawPolicy policies ih =>
      rw [List.mapM_cons] at hread
      obtain ⟨policy, hfirst, hread⟩ := bind_eq_ok.mp hread
      obtain ⟨rest, hrest, hread⟩ := bind_eq_ok.mp hread
      obtain rfl := Except.ok.inj hread
      rw [List.foldlM_cons, hfirst]
      cases policy with
      | none => exact ih hrest start
      | some policy => exact ih hrest (start.1.materialize runtimeId policy, _)

/-- A call writes what it reads. -/
theorem playRuntimeOperation_reconcile (canonicalizeSlugs : Bool) (s : IntegrationStore) :
    playRuntimeOperation registry tenancy s
        (.reconcile runtimeId config policies canonicalizeSlugs) =
      s.materializeAll runtimeId
        (readPolicies registry tenancy runtimeId config policies canonicalizeSlugs) := by
  simp only [playRuntimeOperation]
  cases hcall : reconcileRuntimePolicies registry tenancy s runtimeId config policies
      canonicalizeSlugs with
  | ok result =>
      obtain ⟨hruntime, read, hread, hwritten⟩ := reconcileRuntimePolicies_spec hcall
      obtain ⟨runtime, hruntime⟩ := Option.isSome_iff_exists.mp hruntime
      simp only [readPolicies, hruntime, hread]
      exact hwritten
  | error e =>
      have hnone : readPolicies registry tenancy runtimeId config policies
          canonicalizeSlugs = [] := by
        unfold readPolicies
        cases hruntime : tenancy.runtimes runtimeId with
        | none => rfl
        | some runtime =>
            cases hread : policies.mapM (readPolicy registry (defaultConnectionMode config)
                canonicalizeSlugs) with
            | error e => rfl
            | ok read =>
                obtain ⟨rows, hok⟩ := reconcileRuntimePolicies_ok registry tenancy runtimeId
                  config policies hruntime hread s
                rw [hcall] at hok
                cases hok
      rw [hnone]
      rfl

end

/-! ## Safe to repeat -/

/-- The modes of the connections that a row of a mode may use. -/
def permittedModes (mode : String) : List String :=
  if mode = "hybrid" then ["zyntry_managed", "end_user_oauth"] else [mode]

/-- The modes written into a row are the permitted ones. -/
theorem allowedConnectionModes_eq (mode : String) :
    allowedConnectionModes mode = .arr ((permittedModes mode).map .str) := by
  unfold allowedConnectionModes permittedModes
  split_ifs <;> rfl

/-- The row is connected through an active connection that its mode permits. -/
structure IntegrationStore.ConnectedBy (s : IntegrationStore) (row : RuntimeIntegration)
    (c : IntegrationConnection) : Prop where
  connected : row.connectionStatus = "connected"
  named : row.connectionId = some c.id
  stored : s.connections.get? c.id = some c
  active : c.status = "active"
  permitted : c.connectionMode ∈ permittedModes row.connectionMode

def IntegrationStore.OneRowPerDefinition (registry : IntegrationRegistry)
    (s : IntegrationStore) : Prop :=
  ∀ row ∈ s.integrations.rows, ∀ row' ∈ s.integrations.rows, row.runtimeId = row'.runtimeId →
    ∀ definition, registry.get row.integrationSlug = some definition →
      registry.get row'.integrationSlug = some definition → row = row'

section

variable (registry : IntegrationRegistry) (tenancy : Tenancy) (runtimeId : Uuid)
  (config : Fields) (policies : List Json) (s : IntegrationStore)

/-- The tables after the policies of a runtime are reconciled. -/
def reconciled (canonicalizeSlugs : Bool) : IntegrationStore :=
  playRuntimeOperation registry tenancy s (.reconcile runtimeId config policies canonicalizeSlugs)

/-- Reconciling again changes no row, there is one row for each definition, and a row whose
mode permits its connection, as it was and as it is, stays connected. -/
structure SafeToRepeat : Prop where
  again : ∀ canonicalizeSlugs key,
    (reconciled registry tenancy runtimeId config policies
        (reconciled registry tenancy runtimeId config policies s canonicalizeSlugs)
        canonicalizeSlugs).integrations.get? key =
      (reconciled registry tenancy runtimeId config policies s
        canonicalizeSlugs).integrations.get? key
  canonicalized : ∀ canonicalizeSlugs key,
    (reconciled registry tenancy runtimeId config policies
        (reconciled registry tenancy runtimeId config policies s false)
        true).integrations.get? key =
      (reconciled registry tenancy runtimeId config policies s
        canonicalizeSlugs).integrations.get? key
  single : ∀ canonicalizeSlugs,
    (reconciled registry tenancy runtimeId config policies s
      canonicalizeSlugs).OneRowPerDefinition registry
  connected : ∀ canonicalizeSlugs, ∀ row ∈ s.integrations.rows, ∀ c, s.ConnectedBy row c →
    ∃ row', (reconciled registry tenancy runtimeId config policies s
        canonicalizeSlugs).integrations.get? row.key = some row' ∧
      (c.connectionMode ∈ permittedModes row'.connectionMode →
        (reconciled registry tenancy runtimeId config policies s
          canonicalizeSlugs).ConnectedBy row' c)

/-- The policies go to rows that are filed under the slugs of the registry and that hold no
connection but such as all of them find valid. -/
structure ReconcilablePolicies (read : List MaterializedPolicy) : Prop where
  single : s.OneRowPerDefinition registry
  canonical : ∀ policy ∈ read, ∀ definition,
    registry.get policy.storageSlug = some definition → policy.storageSlug = definition.slug
  filed : ∀ policy ∈ read, ∀ row ∈ s.integrations.rows, row.runtimeId = runtimeId →
    ∀ definition, registry.get policy.storageSlug = some definition →
      registry.get row.integrationSlug = some definition →
        row.integrationSlug = policy.storageSlug
  modes : ∀ row ∈ s.integrations.rows, row.runtimeId = runtimeId → ∀ c, s.ConnectedBy row c →
    ∀ last ∈ (policiesFor read row.integrationSlug).getLast?,
      c.connectionMode ∈ permittedModes last.mode →
        ∀ policy ∈ policiesFor read row.integrationSlug,
          c.integrationSlug = row.integrationSlug ∧ c.connectionMode = policy.mode

end

section

variable {registry : IntegrationRegistry} {runtimeId : Uuid} {s : IntegrationStore}
  {read : List MaterializedPolicy}

theorem isSome_get?_materializeAll (key : Uuid × String) :
    ((s.materializeAll runtimeId read).integrations.get? key).isSome ↔
      (s.integrations.get? key).isSome ∨
        (key.1 = runtimeId ∧ ∃ policy ∈ read, policy.storageSlug = key.2) := by
  by_cases hruntime : key.1 = runtimeId
  · obtain ⟨runtimeId, slug⟩ := key
    obtain rfl := hruntime
    rw [get?_materializeAll]
    cases hlast : (policiesFor read slug).getLast? with
    | none =>
        have hnone : policiesFor read slug = [] := List.getLast?_eq_none_iff.mp hlast
        have hother : ∀ policy ∈ read, policy.storageSlug ≠ slug := by
          simpa [policiesFor] using hnone
        refine ⟨.inl, ?_⟩
        rintro (hrow | ⟨-, policy, hpolicy, hslug⟩)
        · exact hrow
        · exact absurd hslug (hother policy hpolicy)
    | some last =>
        have hmem : last ∈ policiesFor read slug := List.mem_of_getLast? hlast
        simp only [policiesFor, List.mem_filter, decide_eq_true_eq] at hmem
        simp only [Option.isSome_some, true_iff]
        exact .inr ⟨trivial, last, hmem⟩
  · rw [get?_materializeAll_of_ne s runtimeId read hruntime]
    simp [hruntime]

/-- The row of a key that is in use. -/
theorem exists_row {t : IntegrationStore} {key : Uuid × String}
    (h : (t.integrations.get? key).isSome) : ∃ row ∈ t.integrations.rows, row.key = key := by
  obtain ⟨row, hrow⟩ := Option.isSome_iff_exists.mp h
  exact ⟨row, RowTable.get?_some_mem hrow, RowTable.get?_some_key hrow⟩

theorem isSome_get?_of_mem {t : IntegrationStore} {row : RuntimeIntegration}
    (h : row ∈ t.integrations.rows) : (t.integrations.get? row.key).isSome := by
  rw [RowTable.get?_of_mem h]
  rfl

theorem oneRowPerDefinition_iff {t : IntegrationStore} :
    t.OneRowPerDefinition registry ↔
      ∀ owner slug slug', (t.integrations.get? (owner, slug)).isSome →
        (t.integrations.get? (owner, slug')).isSome →
          ∀ definition, registry.get slug = some definition →
            registry.get slug' = some definition → slug = slug' := by
  constructor
  · intro h owner slug slug' hslug hslug' definition hget hget'
    obtain ⟨row, hrow, hkey⟩ := exists_row hslug
    obtain ⟨row', hrow', hkey'⟩ := exists_row hslug'
    obtain ⟨rfl, rfl⟩ := Prod.mk.inj hkey
    obtain ⟨howner, rfl⟩ := Prod.mk.inj hkey'
    rw [h row hrow row' hrow' howner.symm definition hget hget']
  · intro h row hrow row' hrow' howner definition hget hget'
    have hslug := h row.runtimeId row.integrationSlug row'.integrationSlug
      (isSome_get?_of_mem hrow) (howner ▸ isSome_get?_of_mem hrow') definition hget hget'
    have hkey : row.key = row'.key := Prod.ext howner hslug
    have hsame := RowTable.get?_of_mem hrow
    rw [hkey, RowTable.get?_of_mem hrow'] at hsame
    exact (Option.some.inj hsame).symm

/-- The rows that are written are one for each definition if so are those before, and no policy
names an integration by another slug than its row. -/
theorem oneRowPerDefinition_materializeAll :
    (s.materializeAll runtimeId read).OneRowPerDefinition registry ↔
      s.OneRowPerDefinition registry ∧
        (∀ policy ∈ read, ∀ row ∈ s.integrations.rows, row.runtimeId = runtimeId →
          ∀ definition, registry.get policy.storageSlug = some definition →
            registry.get row.integrationSlug = some definition →
              row.integrationSlug = policy.storageSlug) ∧
        ∀ policy ∈ read, ∀ policy' ∈ read, ∀ definition,
          registry.get policy.storageSlug = some definition →
            registry.get policy'.storageSlug = some definition →
              policy.storageSlug = policy'.storageSlug := by
  simp only [oneRowPerDefinition_iff, isSome_get?_materializeAll]
  constructor
  · intro h
    refine ⟨?_, ?_, ?_⟩
    · intro owner slug slug' hslug hslug'
      exact h owner slug slug' (.inl hslug) (.inl hslug')
    · intro policy hpolicy row hrow howner definition hget hget'
      exact h runtimeId row.integrationSlug policy.storageSlug
        (.inl (howner ▸ isSome_get?_of_mem hrow)) (.inr ⟨rfl, policy, hpolicy, rfl⟩) definition
        hget' hget
    · intro policy hpolicy policy' hpolicy' definition hget hget'
      exact h runtimeId policy.storageSlug policy'.storageSlug
        (.inr ⟨rfl, policy, hpolicy, rfl⟩) (.inr ⟨rfl, policy', hpolicy', rfl⟩) definition
        hget hget'
  · rintro ⟨hrows, hmixed, hpolicies⟩ owner slug slug' hslug hslug' definition hget hget'
    rcases hslug with hslug | ⟨howner, policy, hpolicy, rfl⟩
    · rcases hslug' with hslug' | ⟨howner', policy', hpolicy', rfl⟩
      · exact hrows owner slug slug' hslug hslug' definition hget hget'
      · obtain ⟨row, hrow, hkey⟩ := exists_row hslug
        obtain ⟨rfl, rfl⟩ := Prod.mk.inj hkey
        exact hmixed policy' hpolicy' row hrow howner' definition hget' hget
    · rcases hslug' with hslug' | ⟨-, policy', hpolicy', rfl⟩
      · obtain ⟨row, hrow, hkey⟩ := exists_row hslug'
        obtain ⟨rfl, rfl⟩ := Prod.mk.inj hkey
        exact (hmixed policy hpolicy row hrow howner definition hget hget').symm
      · exact hpolicies policy hpolicy policy' hpolicy' definition hget hget'

theorem mem_policiesFor {slug : String} {policy : MaterializedPolicy} :
    policy ∈ policiesFor read slug ↔ policy ∈ read ∧ policy.storageSlug = slug := by
  simp [policiesFor]

theorem heldConnection_of_connectedBy {row : RuntimeIntegration} {c : IntegrationConnection}
    (hrow : row ∈ s.integrations.rows) (hc : s.ConnectedBy row c) :
    s.heldConnection row.runtimeId row.integrationSlug = some c := by
  have hget : s.integrations.get? (row.runtimeId, row.integrationSlug) = some row :=
    RowTable.get?_of_mem hrow
  rw [IntegrationStore.heldConnection, hget, Option.bind_some, hc.named, Option.bind_some]
  exact hc.stored

/-- A row stays connected, unless it changes to a mode that does not permit its connection,
exactly if each policy that is written to it finds the connection valid. -/
theorem connected_materializeAll {row : RuntimeIntegration} {c : IntegrationConnection}
    (hrow : row ∈ s.integrations.rows) (howner : row.runtimeId = runtimeId)
    (hc : s.ConnectedBy row c) :
    (∃ row', (s.materializeAll runtimeId read).integrations.get? row.key = some row' ∧
      (c.connectionMode ∈ permittedModes row'.connectionMode →
        (s.materializeAll runtimeId read).ConnectedBy row' c)) ↔
      ∀ last ∈ (policiesFor read row.integrationSlug).getLast?,
        c.connectionMode ∈ permittedModes last.mode →
          ∀ policy ∈ policiesFor read row.integrationSlug,
            c.integrationSlug = row.integrationSlug ∧ c.connectionMode = policy.mode := by
  subst howner
  have hconnections : (s.materializeAll row.runtimeId read).connections = s.connections :=
    (materializeAll_spec row.runtimeId read s).1
  have hget := get?_materializeAll s row.runtimeId read row.integrationSlug
  rw [heldConnection_materializeAll, heldConnection_of_connectedBy hrow hc] at hget
  change (s.materializeAll row.runtimeId read).integrations.get? row.key = _ at hget
  rw [hget]
  cases hlast : (policiesFor read row.integrationSlug).getLast? with
  | none =>
      refine iff_of_true ⟨row, RowTable.get?_of_mem hrow, fun _ => ?_⟩ (by simp)
      exact ⟨hc.connected, hc.named, hconnections ▸ hc.stored, hc.active, hc.permitted⟩
  | some last =>
      simp only [Option.some.injEq, exists_eq_left', Option.mem_def, forall_eq']
      by_cases hkeeps : ∀ policy ∈ policiesFor read row.integrationSlug, policy.Keeps c
      · rw [Option.filter_some_pos (by simpa using hkeeps)]
        refine iff_of_true ?_ ?_
        · intro hpermitted
          exact ⟨rfl, rfl, hconnections ▸ hc.stored, hc.active, hpermitted⟩
        · intro _ policy hpolicy
          obtain ⟨-, hslug, hmode⟩ := hkeeps policy hpolicy
          exact ⟨hslug.trans (mem_policiesFor.mp hpolicy).2, hmode⟩
      · rw [Option.filter_some_neg (by simpa using hkeeps)]
        apply imp_congr_right
        intro _
        refine iff_of_false ?_ ?_
        · intro hconnected
          have hnamed : (none : Option Uuid) = some c.id := hconnected.named
          cases hnamed
        · intro hvalid
          apply hkeeps
          intro policy hpolicy
          obtain ⟨hslug, hmode⟩ := hvalid policy hpolicy
          exact ⟨hc.active, hslug.trans (mem_policiesFor.mp hpolicy).2.symm, hmode⟩

theorem connected_materializeAll_of_ne {row : RuntimeIntegration} {c : IntegrationConnection}
    (hrow : row ∈ s.integrations.rows) (howner : row.runtimeId ≠ runtimeId)
    (hc : s.ConnectedBy row c) :
    ∃ row', (s.materializeAll runtimeId read).integrations.get? row.key = some row' ∧
      (c.connectionMode ∈ permittedModes row'.connectionMode →
        (s.materializeAll runtimeId read).ConnectedBy row' c) := by
  have hconnections : (s.materializeAll runtimeId read).connections = s.connections :=
    (materializeAll_spec runtimeId read s).1
  refine ⟨row, ?_, fun _ => ?_⟩
  · rw [get?_materializeAll_of_ne s runtimeId read howner]
    exact RowTable.get?_of_mem hrow
  · exact ⟨hc.connected, hc.named, hconnections ▸ hc.stored, hc.active, hc.permitted⟩

end

section

variable (registry : CanonicalRegistry) (tenancy : Tenancy) (runtimeId : Uuid)
  (config : Fields) (policies : List Json) (s : IntegrationStore)

/-- Policies that name integrations by their own slugs are read alike under both flags. -/
theorem readPolicies_of_canonical {read : List MaterializedPolicy}
    (hread : readPolicies registry.toIntegrationRegistry tenancy runtimeId config policies false =
      read)
    (hcanonical : ∀ policy ∈ read, ∀ definition,
      registry.get policy.storageSlug = some definition →
        policy.storageSlug = definition.slug) (canonicalizeSlugs : Bool) :
    readPolicies registry.toIntegrationRegistry tenancy runtimeId config policies
      canonicalizeSlugs = read := by
  cases canonicalizeSlugs with
  | false => exact hread
  | true =>
      have hsame : ∀ policy ∈ read, policy.canonical registry.toIntegrationRegistry = policy := by
        intro policy hpolicy
        unfold MaterializedPolicy.canonical
        cases hget : registry.get policy.storageSlug with
        | none => rfl
        | some definition =>
            rw [Option.map_some, Option.getD_some, ← hcanonical policy hpolicy definition hget]
      rw [readPolicies_canonical, hread, List.map_congr_left hsame, List.map_id']

/-- A second pass that makes the slugs canonical makes a row under the canonical slug. If the
first one has that row too, it is the row of the policy itself. -/
theorem canonical_of_single {read : List MaterializedPolicy}
    (hsingle : (s.materializeAll runtimeId read).OneRowPerDefinition
      registry.toIntegrationRegistry)
    {policy : MaterializedPolicy} (hpolicy : policy ∈ read) {definition : IntegrationDefinition}
    (hget : registry.get policy.storageSlug = some definition)
    (hagain : (((s.materializeAll runtimeId read).materializeAll runtimeId
        (read.map (MaterializedPolicy.canonical registry.toIntegrationRegistry))).integrations.get?
          (runtimeId, definition.slug)) =
      (s.materializeAll runtimeId read).integrations.get? (runtimeId, definition.slug)) :
    policy.storageSlug = definition.slug := by
  have hslug : (policy.canonical registry.toIntegrationRegistry).storageSlug =
      definition.slug := by
    rw [MaterializedPolicy.canonical, hget]
    rfl
  have hrow : ((s.materializeAll runtimeId read).integrations.get?
      (runtimeId, definition.slug)).isSome := by
    rw [← hagain, isSome_get?_materializeAll]
    exact .inr ⟨rfl, _, List.mem_map_of_mem hpolicy, hslug⟩
  have halias : ((s.materializeAll runtimeId read).integrations.get?
      (runtimeId, policy.storageSlug)).isSome := by
    rw [isSome_get?_materializeAll]
    exact .inr ⟨rfl, policy, hpolicy, rfl⟩
  exact oneRowPerDefinition_iff.mp hsingle runtimeId policy.storageSlug definition.slug
    halias hrow definition hget (registry.get_slug (IntegrationRegistry.mem_of_get hget))

/-- Reconciling policies is safe to repeat exactly if they name integrations by the slugs of
the registry, as the rows do, and if no row has a connection that one of them finds invalid. -/
theorem safeToRepeat_iff :
    SafeToRepeat registry.toIntegrationRegistry tenancy runtimeId config policies s ↔
      ReconcilablePolicies registry.toIntegrationRegistry runtimeId s
        (readPolicies registry.toIntegrationRegistry tenancy runtimeId config policies false) := by
  generalize hread : readPolicies registry.toIntegrationRegistry tenancy runtimeId config
    policies false = read
  constructor
  · intro h
    have hsingle := h.single false
    rw [reconciled, playRuntimeOperation_reconcile, hread] at hsingle
    obtain ⟨hrows, hfiled, -⟩ := oneRowPerDefinition_materializeAll.mp hsingle
    refine ⟨hrows, ?_, hfiled, ?_⟩
    · intro policy hpolicy definition hget
      have hagain := h.canonicalized false (runtimeId, definition.slug)
      simp only [reconciled, playRuntimeOperation_reconcile, hread, readPolicies_canonical]
        at hagain
      exact canonical_of_single registry runtimeId s hsingle hpolicy hget hagain
    · intro row hrow howner c hc
      apply (connected_materializeAll hrow howner hc).mp
      have hconnected := h.connected false row hrow c hc
      rw [reconciled, playRuntimeOperation_reconcile, hread] at hconnected
      exact hconnected
  · intro h
    have hboth := readPolicies_of_canonical registry tenancy runtimeId config policies hread
      h.canonical
    have hwritten : ∀ (t : IntegrationStore) canonicalizeSlugs,
        reconciled registry.toIntegrationRegistry tenancy runtimeId config policies t
          canonicalizeSlugs = t.materializeAll runtimeId read := by
      intro t canonicalizeSlugs
      rw [reconciled, playRuntimeOperation_reconcile, hboth canonicalizeSlugs]
    refine ⟨?_, ?_, ?_, ?_⟩
    · intro canonicalizeSlugs key
      simp only [hwritten]
      exact get?_materializeAll_twice s runtimeId read key
    · intro canonicalizeSlugs key
      simp only [hwritten]
      exact get?_materializeAll_twice s runtimeId read key
    · intro canonicalizeSlugs
      rw [hwritten, oneRowPerDefinition_materializeAll]
      refine ⟨h.single, h.filed, ?_⟩
      intro policy hpolicy policy' hpolicy' definition hget hget'
      rw [h.canonical policy hpolicy definition hget, h.canonical policy' hpolicy' definition hget']
    · intro canonicalizeSlugs row hrow c hc
      rw [hwritten]
      by_cases howner : row.runtimeId = runtimeId
      · exact (connected_materializeAll hrow howner hc).mpr (h.modes row hrow howner c hc)
      · exact connected_materializeAll_of_ne hrow howner hc

end

/-! ## Aliases and hybrid rows -/

/-- A part of the registry, with an alias. -/
def postgresRegistry : CanonicalRegistry where
  definitions :=
    notionRegistry.definitions ++
      [("postgresql",
        { id := "int_postgresql"
          slug := "postgresql"
          name := "PostgreSQL"
          connectionModes := ["zyntry_managed"]
          authMethods := ["connection_string", "database_credentials"]
          capabilities :=
            [{ slug := "query" }, { slug := "schema_inspection" },
             { slug := "structured_retrieval" }] })]
  aliases := [("postgres", "postgresql")]
  filed := by decide +kernel
  distinct := by decide +kernel
  lowercase := by decide +kernel
  unaliased := by decide +kernel

/-- A hybrid row is connected to the account of the user. -/
def hybridStore : IntegrationStore :=
  [.enable ⟨"u1"⟩ firstRuntime { integrationSlug := "notion", connectionMode := "hybrid" },
    connectNotion (some firstRuntime.str)].foldl
      (playIntegrationCall postgresRegistry.toIntegrationRegistry twoTenants) {}

/-- An alias makes a second row, and a hybrid row loses its connection. -/
theorem reconciling_unsafe :
    ¬ SafeToRepeat postgresRegistry.toIntegrationRegistry twoTenants firstRuntime []
        [.obj [("integration_slug", .str "postgres")]] {} ∧
      ¬ SafeToRepeat postgresRegistry.toIntegrationRegistry twoTenants firstRuntime []
        [.obj [("integration_slug", .str "notion"), ("connection_mode", .str "hybrid")]]
        hybridStore := by
  refine ⟨fun h => ?_, fun h => ?_⟩
  · have hrows := congrArg Option.isSome
      (h.canonicalized false (firstRuntime, "postgresql"))
    revert hrows
    decide +kernel
  · have hrow : (hybridStore.integrations.get? (firstRuntime, "notion")).map (fun row =>
        (row.connectionStatus, row.connectionId, row.connectionMode)) =
          some ("connected", some notionConnection, "hybrid") := by decide +kernel
    have hc : (hybridStore.connections.get? notionConnection).map (fun c =>
        (c.status, c.connectionMode)) = some ("active", "zyntry_managed") := by decide +kernel
    obtain ⟨row, hget, hcolumns⟩ := Option.map_eq_some_iff.mp hrow
    obtain ⟨c, hstored, hstate⟩ := Option.map_eq_some_iff.mp hc
    simp only [Prod.mk.injEq] at hcolumns hstate
    have hid : c.id = notionConnection := RowTable.get?_some_key hstored
    have hconnected : hybridStore.ConnectedBy row c :=
      ⟨hcolumns.1, by rw [hid, hcolumns.2.1], by rw [hid, hstored], hstate.1,
        by rw [hstate.2, hcolumns.2.2]; decide⟩
    obtain ⟨row', hget', hkept⟩ := h.connected true row (RowTable.get?_some_mem hget) c hconnected
    have hrow' : ((reconciled postgresRegistry.toIntegrationRegistry twoTenants firstRuntime []
        [.obj [("integration_slug", .str "notion"), ("connection_mode", .str "hybrid")]]
        hybridStore true).integrations.get? (firstRuntime, "notion")).map (fun row =>
          (row.connectionStatus, row.connectionMode)) =
            some ("connection_required", "hybrid") := by decide +kernel
    have hkey : row.key = (firstRuntime, "notion") := RowTable.get?_some_key hget
    rw [hkey] at hget'
    rw [hget', Option.map_some, Option.some.injEq, Prod.mk.injEq] at hrow'
    have hstatus := (hkept (by rw [hstate.2, hrow'.2]; decide)).connected
    rw [hrow'.1] at hstatus
    revert hstatus
    decide

end Zyntry
