import Zyntry.Integrations

/-!
# Policies of a runtime

`reconcile_runtime_policies` as a project bind and the onboarding call it: with the policies
that a configuration holds, which may be any values. A policy is first read, without a look at
the tables, and then written to its row.
-/

namespace Zyntry

open Python

/-! ## Reading a policy -/

/-- `a or b` for two values; `none` is `None`. -/
def orValue (a b : Option Json) : Option Json := if a.any Json.truthy then a else b

/-- The text that a value is, unless it is blank. -/
def nonBlank : Option Json → Option String
  | some (.str s) => if stripped s = "" then none else some s
  | _ => none

inductive PolicyError where
  | integration (e : IntegrationError)
  | typeError (message : String)
deriving DecidableEq

/-- The type of a value that is no key of a dict. -/
def unhashable : Json → Option String
  | .arr _ => some "list"
  | .obj _ => some "dict"
  | _ => none

def strings (items : List Json) : List String :=
  items.filterMap fun
    | .str s => some s
    | _ => none

/-- The texts of `list(dict.fromkeys(items))`; the other values are never capabilities. -/
def fromKeys (items : List Json) : Except PolicyError (List String) :=
  match items.findSome? unhashable with
  | some type => .error (.typeError s!"unhashable type: '{type}'")
  | none => .ok (strings items).eraseDups

/-- What is written of a policy. -/
structure MaterializedPolicy where
  storageSlug : String
  requestedMode : String
  mode : String
  modeResolution : String
  enabledCapabilities : List String
  config : Fields

/-- The requested mode of a policy. -/
def policyMode (rawPolicy : Fields) (defaultMode : Json) : String :=
  (nonBlank (orValue (Json.lookup "requested_connection_mode" rawPolicy)
    (orValue (Json.lookup "connection_mode" rawPolicy) defaultMode))).getD "zyntry_managed"

/-- The capabilities of a policy, or those that read if there is no list of any. -/
def policyCapabilities (definition : IntegrationDefinition) (rawPolicy : Fields) :
    Except PolicyError (List String) :=
  match Json.lookup "enabled_capabilities" rawPolicy with
  | some (.arr items) => if items = [] then .ok definition.readCapabilities else fromKeys items
  | _ => .ok definition.readCapabilities

def policyConfig (rawPolicy : Fields) : Fields :=
  match Json.lookup "config" rawPolicy with
  | some (.obj fields) => fields
  | _ => []

/-- The definition of an integration that can have a row: it is no kind of document. -/
def IntegrationRegistry.materializable (registry : IntegrationRegistry) (slug : String) :
    Option IntegrationDefinition :=
  (registry.get slug).filter fun definition => definition.enabled ∧
    definition.status ∈ ["available", "beta"] ∧ definition.slug ∉ resourceOnlySlugs

/-- What is written of a policy for an integration. -/
def IntegrationDefinition.materialized (registry : IntegrationRegistry)
    (definition : IntegrationDefinition) (storageSlug : String) (rawPolicy : Fields)
    (defaultMode : Json) : Except PolicyError MaterializedPolicy := do
  let requestedMode := policyMode rawPolicy defaultMode
  let (mode, modeResolution) ←
    (resolveConnectionMode registry definition.slug requestedMode).mapError .integration
  let enabledCapabilities ← policyCapabilities definition rawPolicy
  pure
    { storageSlug
      requestedMode
      mode := mode.getD "zyntry_managed"
      modeResolution
      enabledCapabilities := enabledCapabilities.filter fun c =>
        c ∈ definition.capabilities.map IntegrationCapability.slug
      config := policyConfig rawPolicy }

/-- The reading half of a round of the loop; `none` if the policy is skipped. -/
def readPolicy (registry : IntegrationRegistry) (defaultMode : Json) (canonicalizeSlugs : Bool) :
    Json → Except PolicyError (Option MaterializedPolicy)
  | .obj rawPolicy =>
      match nonBlank (orValue (Json.lookup "integration_slug" rawPolicy)
        (Json.lookup "slug" rawPolicy)) with
      | none => .ok none
      | some requestedSlug =>
          match registry.materializable (stripped requestedSlug) with
          | none => .ok none
          | some definition =>
              some <$> definition.materialized registry
                (if canonicalizeSlugs then definition.slug else lower (stripped requestedSlug))
                rawPolicy defaultMode
  | _ => .ok none

/-! ## Writing it -/

def MaterializedPolicy.rowConfig (policy : MaterializedPolicy) : Fields :=
  Json.update policy.config
    [("allowed_connection_modes", allowedConnectionModes policy.mode),
     ("requested_connection_mode", .str policy.requestedMode),
     ("mode_resolution", .str policy.modeResolution)]

/-- The row of a policy, with the connection that it keeps. -/
def MaterializedPolicy.row (policy : MaterializedPolicy) (runtimeId : Uuid)
    (linked : Option IntegrationConnection) : RuntimeIntegration where
  runtimeId := runtimeId
  integrationSlug := policy.storageSlug
  connectionMode := policy.mode
  enabledCapabilities := policy.enabledCapabilities
  isEnabled := true
  connectionId := linked.map IntegrationConnection.id
  connectionRequired := linked.isNone && policy.mode ∈ ["zyntry_managed", "hybrid"]
  connectionStatus :=
    if linked.isSome then "connected"
    else if policy.mode = "end_user_oauth" then "ready_for_end_users"
    else "connection_required"
  config := policy.rowConfig

/-- The row that a policy is written to, as it is afterwards. -/
def IntegrationStore.materializedRow (s : IntegrationStore) (runtimeId : Uuid)
    (policy : MaterializedPolicy) : RuntimeIntegration :=
  policy.row runtimeId (s.linkedConnection runtimeId policy.storageSlug policy.mode)

def IntegrationStore.materialize (s : IntegrationStore) (runtimeId : Uuid)
    (policy : MaterializedPolicy) : IntegrationStore :=
  s.writeIntegration (s.materializedRow runtimeId policy)

/-- The mode of the policies of a runtime that do not request one. -/
def defaultConnectionMode (config : Fields) : Json :=
  ((Json.lookup "integration_mode" config).filter Json.truthy).getD (.str "zyntry_managed")

/-- `reconcile_runtime_policies` for a runtime with the configuration `config`. -/
def reconcileRuntimePolicies (registry : IntegrationRegistry) (tenancy : Tenancy)
    (s : IntegrationStore) (runtimeId : Uuid) (config : Fields) (policies : List Json)
    (canonicalizeSlugs : Bool) : Except PolicyError (IntegrationStore × List RuntimeIntegration) :=
  match tenancy.runtimes runtimeId with
  | none => .error (.integration (.valueError s!"Runtime '{runtimeId.str}' not found"))
  | some _ =>
      policies.foldlM (fun (s, rows) rawPolicy => do
        match ← readPolicy registry (defaultConnectionMode config) canonicalizeSlugs
          rawPolicy with
        | none => pure (s, rows)
        | some policy =>
            pure (s.materialize runtimeId policy, rows ++ [s.materializedRow runtimeId policy]))
        (s, [])

/-! ## Policies of `enable_runtime_integration` -/

/-- The dict that `enable_runtime_integration` passes on. -/
def RuntimePolicy.fields (policy : RuntimePolicy) : Fields :=
  [("integration_slug", .str policy.integrationSlug),
   ("requested_connection_mode", .str policy.requestedConnectionMode),
   ("connection_mode", .str policy.connectionMode),
   ("enabled_capabilities", .arr (policy.enabledCapabilities.map .str)),
   ("config", .obj policy.config)]

theorem fromKeys_str (items : List String) : fromKeys (items.map .str) = .ok items.eraseDups := by
  have hhashable : (items.map Json.str).findSome? unhashable = none := by
    simp [List.findSome?_eq_none_iff, unhashable]
  have hstrings : strings (items.map Json.str) = items := by
    simp [strings, List.filterMap_map]
  rw [fromKeys, hhashable, hstrings]

section

variable (policy : RuntimePolicy)

theorem policyMode_fields (defaultMode : Json) (hmode : policy.connectionMode ≠ "") :
    policyMode policy.fields defaultMode = policy.requestedMode := by
  by_cases hrequested : policy.requestedConnectionMode = ""
  · simp [policyMode, RuntimePolicy.fields, Json.lookup, orValue, Json.truthy, hrequested, hmode,
      RuntimePolicy.requestedMode, orElse, nonBlank]
    split_ifs <;> rfl
  · simp [policyMode, RuntimePolicy.fields, Json.lookup, orValue, Json.truthy, hrequested,
      RuntimePolicy.requestedMode, orElse, nonBlank]
    split_ifs <;> rfl

theorem requestedSlug_fields :
    nonBlank (orValue (Json.lookup "integration_slug" policy.fields)
      (Json.lookup "slug" policy.fields)) =
        if stripped policy.integrationSlug = "" then none else some policy.integrationSlug := by
  by_cases hempty : policy.integrationSlug = ""
  · simp [RuntimePolicy.fields, Json.lookup, orValue, Json.truthy, hempty, nonBlank, stripped,
      strip]
  · simp [RuntimePolicy.fields, Json.lookup, orValue, Json.truthy, hempty, nonBlank]

theorem policyCapabilities_fields (definition : IntegrationDefinition) :
    policyCapabilities definition policy.fields =
      .ok (if policy.enabledCapabilities = [] then definition.readCapabilities
        else policy.enabledCapabilities.eraseDups) := by
  have hlookup : Json.lookup "enabled_capabilities" policy.fields =
      some (.arr (policy.enabledCapabilities.map .str)) := by
    simp [RuntimePolicy.fields, Json.lookup]
  rw [policyCapabilities, hlookup]
  simp only [List.map_eq_nil_iff]
  split_ifs
  · rfl
  · exact fromKeys_str policy.enabledCapabilities

theorem policyConfig_fields : policyConfig policy.fields = policy.config := by
  simp [policyConfig, RuntimePolicy.fields, Json.lookup]

/-- A policy of `enable_runtime_integration` is read and written as any other one. -/
theorem reconcileRuntimePolicy_eq (registry : IntegrationRegistry) (s : IntegrationStore)
    (runtimeId : Uuid) (defaultMode : Json) (hmode : policy.connectionMode ≠ "") :
    (reconcileRuntimePolicy registry s runtimeId policy).mapError .integration =
      (readPolicy registry defaultMode false (.obj policy.fields)).map
        (Option.map fun p => (s.materialize runtimeId p, s.materializedRow runtimeId p)) := by
  simp only [readPolicy, requestedSlug_fields, reconcileRuntimePolicy]
  by_cases hblank : stripped policy.integrationSlug = ""
  · rw [if_pos hblank]
    cases registry.get (stripped policy.integrationSlug) with
    | none => rfl
    | some definition => simp [hblank, Except.mapError, Except.map]
  · rw [if_neg hblank]
    dsimp only
    rw [IntegrationRegistry.materializable]
    cases hget : registry.get (stripped policy.integrationSlug) with
    | none => rfl
    | some definition =>
        rw [Option.filter_some]
        dsimp only
        have hskip : (stripped policy.integrationSlug = "" ∨ !definition.enabled ∨
            definition.status ∉ ["available", "beta"] ∨ definition.slug ∈ resourceOnlySlugs) ↔
            ¬(definition.enabled ∧ definition.status ∈ ["available", "beta"] ∧
              definition.slug ∉ resourceOnlySlugs) := by
          simp only [hblank, false_or, Bool.not_eq_true']
          grind
        by_cases hok : definition.enabled ∧ definition.status ∈ ["available", "beta"] ∧
            definition.slug ∉ resourceOnlySlugs
        · rw [if_neg (fun h => hskip.1 h hok), if_pos (by simpa using hok)]
          simp only [IntegrationDefinition.materialized,
            policyMode_fields policy defaultMode hmode, policyCapabilities_fields, policyConfig_fields]
          cases resolveConnectionMode registry definition.slug policy.requestedMode with
          | error e => rfl
          | ok resolved =>
              simp only [Except.mapError, Except.map, bind, Except.bind, pure, Except.pure,
                Functor.map, Option.map_some, Bool.false_eq_true, if_false,
                IntegrationStore.materialize, IntegrationStore.materializedRow,
                MaterializedPolicy.row, MaterializedPolicy.rowConfig, RuntimePolicy.row]
        · rw [if_pos (hskip.2 hok), if_neg (by simpa using hok)]
          rfl

end

end Zyntry
