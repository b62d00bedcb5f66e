import Zyntry.OnboardingTransitions
import Zyntry.StepRuns

/-!
# Integrations of an onboarding plan

The draft of a session is meant to hold registered integrations, capabilities of their
definitions and a known mode. The validated path keeps that. The branches that copy what a
model proposes keep it exactly if the proposal is within the registry itself.
-/

namespace Zyntry

open Python

/-! ## Plans -/

/-- What a draft says of its integrations. -/
structure OnboardingPlan where
  integrations : Json
  capabilities : Json
  mode : Json

def planKeys : List String := ["integrations", "capabilities", "integration_mode"]

def onboardingPlan (config : Fields) : OnboardingPlan where
  integrations := (Json.lookup "integrations" config).getD (.arr [])
  capabilities := (Json.lookup "capabilities" config).getD (.obj [])
  mode := (Json.lookup "integration_mode" config).getD .null

namespace OnboardingPlan

def set (key : String) (value : Json) (plan : OnboardingPlan) : OnboardingPlan :=
  if key = "integrations" then { plan with integrations := value }
  else if key = "capabilities" then { plan with capabilities := value }
  else if key = "integration_mode" then { plan with mode := value }
  else plan

def setSome (key : String) (value : Option Json) (plan : OnboardingPlan) : OnboardingPlan :=
  match value with
  | some v => plan.set key v
  | none => plan

theorem set_of_notMem {key : String} (value : Json) (plan : OnboardingPlan)
    (h : key ∉ planKeys) : plan.set key value = plan := by
  simp only [planKeys, List.mem_cons, List.not_mem_nil, or_false, not_or] at h
  rw [set, if_neg h.1, if_neg h.2.1, if_neg h.2.2]

theorem setSome_of_notMem (key : String) (value : Option Json) (plan : OnboardingPlan)
    (h : key ∉ planKeys) : plan.setSome key value = plan := by
  cases value with
  | none => rfl
  | some v => exact set_of_notMem v plan h

theorem setSome_integrations (value : Option Json) (plan : OnboardingPlan) :
    plan.setSome "integrations" value =
      { plan with integrations := value.getD plan.integrations } := by
  cases value with
  | none => rfl
  | some v => rfl

theorem setSome_capabilities (value : Option Json) (plan : OnboardingPlan) :
    plan.setSome "capabilities" value =
      { plan with capabilities := value.getD plan.capabilities } := by
  cases value with
  | none => rfl
  | some v => simp [setSome, set]

theorem setSome_mode (value : Option Json) (plan : OnboardingPlan) :
    plan.setSome "integration_mode" value = { plan with mode := value.getD plan.mode } := by
  cases value with
  | none => rfl
  | some v => simp [setSome, set]

end OnboardingPlan

theorem onboardingPlan_set (key : String) (value : Json) (config : Fields) :
    onboardingPlan (Json.set key value config) = (onboardingPlan config).set key value := by
  unfold onboardingPlan OnboardingPlan.set
  simp only [Json.lookup_set]
  by_cases hintegrations : key = "integrations"
  · subst hintegrations
    simp
  by_cases hcapabilities : key = "capabilities"
  · subst hcapabilities
    simp
  by_cases hmode : key = "integration_mode"
  · subst hmode
    simp
  · simp [hintegrations, hcapabilities, hmode, eq_comm (b := key)]

theorem onboardingPlan_erase {key : String} (h : key ∉ planKeys) (config : Fields) :
    onboardingPlan (Json.erase key config) = onboardingPlan config := by
  simp only [planKeys, List.mem_cons, List.not_mem_nil, or_false, not_or] at h
  simp only [onboardingPlan, Json.lookup_erase_of_ne (Ne.symm h.1),
    Json.lookup_erase_of_ne (Ne.symm h.2.1), Json.lookup_erase_of_ne (Ne.symm h.2.2)]

/-! ## The registry's bounds -/

/-- A value that records capabilities of a registered integration. -/
def IntegrationRegistry.Records (registry : IntegrationRegistry) (slug : String) (entry : Json) :
    Prop :=
  ∃ definition ∈ registry.definitions.map Prod.snd, definition.slug = slug ∧
    ∃ capabilities : List String, entry = .arr (capabilities.map .str) ∧
      capabilities ⊆ definition.capabilities.map IntegrationCapability.slug

/-- Selected integrations are registered, and what is recorded for one are capabilities of
its definition. -/
structure SelectionWithin (registry : IntegrationRegistry) (slugs : List String)
    (recorded : Fields) : Prop where
  registered : ∀ slug ∈ slugs,
    ∃ definition ∈ registry.definitions.map Prod.snd, definition.slug = slug
  records : ∀ slug ∈ slugs, ∀ entry, Json.lookup slug recorded = some entry →
    registry.Records slug entry

structure OnboardingPlan.Within (registry : IntegrationRegistry) (plan : OnboardingPlan) :
    Prop where
  selection : ∃ (slugs : List String) (recorded : Fields),
    plan.integrations = .arr (slugs.map .str) ∧ plan.capabilities = .obj recorded ∧
      SelectionWithin registry slugs recorded
  mode : plan.mode = .null ∨ ∃ mode ∈ OnboardingEngine.connectionModes, plan.mode = .str mode

theorem SelectionWithin.empty (registry : IntegrationRegistry) (recorded : Fields) :
    SelectionWithin registry [] recorded :=
  ⟨fun _ h => absurd h List.not_mem_nil, fun _ h => absurd h List.not_mem_nil⟩

theorem OnboardingPlan.within_start (registry : IntegrationRegistry) :
    (onboardingPlan []).Within registry :=
  ⟨⟨[], [], rfl, rfl, SelectionWithin.empty registry []⟩, Or.inl rfl⟩

/-- An integration joins the selection with capabilities of its definition. -/
theorem SelectionWithin.record {registry : IntegrationRegistry} {slugs capabilities : List String}
    {recorded : Fields} {definition : IntegrationDefinition}
    (h : SelectionWithin registry slugs recorded)
    (hdefinition : definition ∈ registry.definitions.map Prod.snd)
    (hcapabilities : capabilities ⊆ definition.capabilities.map IntegrationCapability.slug)
    {slugs' : List String} (hslugs : ∀ slug ∈ slugs', slug ∈ slugs ∨ slug = definition.slug) :
    SelectionWithin registry slugs'
      (Json.set definition.slug (.arr (capabilities.map .str)) recorded) := by
  refine ⟨fun slug hslug => ?_, fun slug hslug entry hentry => ?_⟩
  · rcases hslugs slug hslug with hold | rfl
    · exact h.registered slug hold
    · exact ⟨definition, hdefinition, rfl⟩
  · rw [Json.lookup_set] at hentry
    split_ifs at hentry with hkey
    · obtain rfl := Option.some.inj hentry
      exact ⟨definition, hdefinition, hkey.symm, capabilities, rfl, hcapabilities⟩
    · exact h.records slug ((hslugs slug hslug).resolve_right hkey) entry hentry

theorem SelectionWithin.mono {registry : IntegrationRegistry} {slugs slugs' : List String}
    {recorded : Fields} (h : SelectionWithin registry slugs recorded) (hsub : slugs' ⊆ slugs) :
    SelectionWithin registry slugs' recorded :=
  ⟨fun slug hslug => h.registered slug (hsub hslug),
    fun slug hslug => h.records slug (hsub hslug)⟩

theorem containsText_str (text : String) (slugs : List String) :
    containsText text (slugs.map .str) = decide (text ∈ slugs) := by
  induction slugs with
  | nil => rfl
  | cons slug slugs ih =>
      rw [containsText, List.map_cons, List.any_cons]
      rw [containsText] at ih
      simp [ih, isText, eq_comm]

/-- The selection after a slug is appended that it may have already. -/
theorem exists_appended (slug : String) (slugs : List String) :
    ∃ slugs' : List String,
      (if containsText slug (slugs.map .str) then slugs.map Json.str
        else slugs.map .str ++ [.str slug]) = slugs'.map .str ∧
      ∀ s ∈ slugs', s ∈ slugs ∨ s = slug := by
  rw [containsText_str]
  by_cases hmem : slug ∈ slugs
  · exact ⟨slugs, by simp [hmem], fun s hs => Or.inl hs⟩
  · refine ⟨slugs ++ [slug], by simp [hmem], fun s hs => ?_⟩
    simpa using hs

/-! ## What the copies do to a plan -/

section

variable {key : String} (data : ProposedData) (config : Fields)

theorem onboardingPlan_copyPresent : onboardingPlan (copyPresent key data config) =
    (onboardingPlan config).setSome key (data.get? key) := by
  unfold copyPresent
  cases data.get? key with
  | none => rfl
  | some value => exact onboardingPlan_set key value config

theorem onboardingPlan_copyTruthy : onboardingPlan (copyTruthy key data config) =
    (onboardingPlan config).setSome key ((data.get? key).filter Json.truthy) := by
  unfold copyTruthy
  cases (data.get? key).filter Json.truthy with
  | none => rfl
  | some value => exact onboardingPlan_set key value config

theorem onboardingPlan_copyNotNone : onboardingPlan (copyNotNone data config key) =
    (onboardingPlan config).setSome key ((data.get? key).filter fun value => !isNull value) := by
  unfold copyNotNone
  cases (data.get? key).filter fun value => !isNull value with
  | none => rfl
  | some value => exact onboardingPlan_set key value config

theorem onboardingPlan_copyDefault (value : String) (h : key ∉ planKeys) :
    onboardingPlan (copyDefault key data config value) = onboardingPlan config := by
  rw [copyDefault, onboardingPlan_set, OnboardingPlan.set_of_notMem _ _ h]

theorem lookup_copyItems (keep : String × Json → Bool) (k : String) :
    Json.lookup k (copyItems keep data config) =
      ((data.get? k).filter fun value => keep (k, value)).or (Json.lookup k config) := by
  have hnodup : (Json.keys (data.fields.filter keep)).Nodup :=
    data.nodup_keys.sublist ((List.filter_sublist (l := data.fields)).map Prod.fst)
  have hdict : Json.asDict (data.fields.filter keep) = data.fields.filter keep :=
    Json.update_of_nodup (by simpa using hnodup)
  rw [copyItems, Json.lookup_update, hdict, Json.lookup_filter keep data.nodup_keys]
  rfl

end

def isKnownMode : Json → Bool
  | .str mode => mode ∈ OnboardingEngine.connectionModes
  | _ => false

theorem onboardingPlan_copyKnownMode (data : ProposedData) (config : Fields) :
    onboardingPlan (OnboardingEngine.copyKnownMode data config) =
      (onboardingPlan config).setSome "integration_mode"
        ((data.get? "integration_mode").filter isKnownMode) := by
  unfold OnboardingEngine.copyKnownMode
  cases data.get? "integration_mode" with
  | none => rfl
  | some value =>
      cases value with
      | str mode =>
          by_cases hmode : mode ∈ OnboardingEngine.connectionModes
          · simp only [hmode, if_true, Option.filter, isKnownMode, decide_true]
            exact onboardingPlan_set _ _ _
          · simp [hmode, Option.filter, isKnownMode, OnboardingPlan.setSome]
      | _ => rfl

/-! ## What a proposal is copied as -/

section

variable (intent : OnboardingIntent) (data : ProposedData)

/-- The integrations that a branch takes from the data as they are. -/
def copiedIntegrations : Option Json :=
  match intent with
  | .setUseCase => (data.get? "integrations").filter Json.truthy
  | .setUseCaseAndMode => (data.get? "integrations").filter Json.truthy
  | .setApplicationType => (data.get? "integrations").filter Json.truthy
  | _ => none

def copiedCapabilities : Option Json :=
  match intent with
  | .setUseCaseAndMode => (data.get? "capabilities").filter Json.truthy
  | .setApplicationType => (data.get? "capabilities").filter Json.truthy
  | _ => none

def copiedMode : Option Json :=
  match intent with
  | .requirementsReady => (data.get? "integration_mode").filter fun value => !isNull value
  | .setUseCaseAndMode => (data.get? "integration_mode").filter Json.truthy
  | .setApplicationType => (data.get? "integration_mode").filter isKnownMode
  | .selectIntegrations => data.get? "integration_mode"
  | .confirmConfiguration => (data.get? "integration_mode").filter fun value => !isNull value
  | .general => data.get? "integration_mode"
  | _ => none

/-- The branches that end in `_validate_integrations_and_transition`. -/
def OnboardingIntent.validates : Bool :=
  match intent with
  | .requirementsReady => true
  | .selectIntegrations => true
  | .confirmConfiguration => true
  | _ => false

/-- The plan without connectors, if the data clears them. -/
def OnboardingPlan.clear (plan : OnboardingPlan) : OnboardingPlan :=
  if data.clearsConnectors then { plan with integrations := .arr [], capabilities := .obj [] }
  else plan

/-- The plan with what the branch of an intent copies from the data as it is. -/
def OnboardingPlan.copy (plan : OnboardingPlan) : OnboardingPlan where
  integrations := (copiedIntegrations intent data).getD plan.integrations
  capabilities := (copiedCapabilities intent data).getD plan.capabilities
  mode := (copiedMode intent data).getD plan.mode

end

/-- Without copied integrations and capabilities the plan gets a mode at most. -/
theorem OnboardingPlan.copy_of_validates {intent : OnboardingIntent} (h : intent.validates = true)
    (data : ProposedData) (plan : OnboardingPlan) :
    plan.copy intent data =
      plan.setSome "integration_mode" (copiedMode intent data) := by
  cases intent with
  | requirementsReady | selectIntegrations | confirmConfiguration =>
      exact (OnboardingPlan.setSome_mode _ plan).symm
  | _ => simp [OnboardingIntent.validates] at h

namespace OnboardingEngine

variable {engine : OnboardingEngine} {data : ProposedData} {config config' : Fields}

theorem onboardingPlan_acceptRequirements
    (h : engine.acceptRequirements data config = .ok config') :
    onboardingPlan config' = onboardingPlan config := by
  unfold acceptRequirements at h
  split at h
  · rw [Except.ok.inj h]
  · split at h
    · cases h
    · rw [← Except.ok.inj h, onboardingPlan_set, OnboardingPlan.set_of_notMem]
      decide

theorem onboardingPlan_clearConnectors (data : ProposedData) (config : Fields) :
    onboardingPlan (clearConnectors data config) = (onboardingPlan config).clear data := by
  unfold clearConnectors OnboardingPlan.clear
  split_ifs
  · rw [onboardingPlan_set, onboardingPlan_set]
    rfl
  · rfl

theorem onboardingPlan_acceptRuntimeName (data : ProposedData) (config : Fields) :
    onboardingPlan (engine.acceptRuntimeName data config) = onboardingPlan config := by
  unfold acceptRuntimeName
  split
  · rfl
  · rw [onboardingPlan_set, OnboardingPlan.set_of_notMem]
    decide

theorem onboardingPlan_acceptPending {key : String} (write : Json → Json) (data : ProposedData)
    (config : Fields) (hkey : key ∉ planKeys) :
    onboardingPlan (acceptPending key write data config) = onboardingPlan config := by
  unfold acceptPending
  split
  · rfl
  · split_ifs
    · rw [onboardingPlan_set, OnboardingPlan.set_of_notMem _ _ hkey]
    · exact onboardingPlan_erase hkey config

theorem onboardingPlan_acceptQuestions (h : engine.acceptQuestions data config = .ok config') :
    onboardingPlan config' = onboardingPlan config := by
  unfold acceptQuestions at h
  split at h
  · rw [Except.ok.inj h]
  · obtain ⟨items, -, hset⟩ := bind_eq_ok.1 h
    rw [← Except.ok.inj hset, onboardingPlan_set, OnboardingPlan.set_of_notMem]
    decide

theorem onboardingPlan_acceptExploration (data : ProposedData) (config : Fields) :
    onboardingPlan (acceptExploration data config) = onboardingPlan config := by
  unfold acceptExploration
  split
  · rfl
  · rw [onboardingPlan_set, OnboardingPlan.set_of_notMem]
    decide

/-- Before the intent is looked at, a plan is cleared at most. -/
theorem onboardingPlan_acceptFacts (h : engine.acceptFacts data config = .ok config') :
    onboardingPlan config' = (onboardingPlan config).clear data := by
  obtain ⟨accepted, hrequirements, hrest⟩ := bind_eq_ok.1 h
  obtain ⟨asked, hquestions, hexploration⟩ := bind_eq_ok.1 hrest
  rw [← Except.ok.inj hexploration, onboardingPlan_acceptExploration,
    onboardingPlan_acceptQuestions hquestions, onboardingPlan_acceptPending,
    onboardingPlan_acceptPending, onboardingPlan_acceptRuntimeName,
    onboardingPlan_clearConnectors, onboardingPlan_acceptRequirements hrequirements]
  · decide
  · decide

/-- The draft that a validating branch hands to the validation. -/
def copiedDraft (intent : OnboardingIntent) (data : ProposedData) (config : Fields) : Fields :=
  match intent with
  | .requirementsReady => copyItems (fun item => item.1 ∈ readyKeys && !isNull item.2) data config
  | .selectIntegrations =>
      copyTruthy "runtime_name" data (copyPresent "integration_mode" data
        (copyPresent "application_type" data (copyPresent "use_case" data config)))
  | _ =>
      ["use_case", "application_type", "integration_mode"].foldl (copyNotNone data)
        (copyTruthy "runtime_name" data config)

theorem onboardingPlan_copiedDraft {intent : OnboardingIntent} (h : intent.validates = true)
    (data : ProposedData) (config : Fields) :
    onboardingPlan (copiedDraft intent data config) = (onboardingPlan config).copy intent data := by
  rw [OnboardingPlan.copy_of_validates h]
  cases intent with
  | requirementsReady =>
      rw [OnboardingPlan.setSome_mode]
      simp only [copiedDraft, onboardingPlan, lookup_copyItems]
      simp [readyKeys, copiedMode]
  | selectIntegrations =>
      rw [copiedDraft, onboardingPlan_copyTruthy, OnboardingPlan.setSome_of_notMem "runtime_name",
        onboardingPlan_copyPresent, onboardingPlan_copyPresent,
        OnboardingPlan.setSome_of_notMem "application_type",
        onboardingPlan_copyPresent, OnboardingPlan.setSome_of_notMem "use_case"]
      · rfl
      all_goals decide
  | confirmConfiguration =>
      simp only [copiedDraft, List.foldl_cons, List.foldl_nil]
      rw [onboardingPlan_copyNotNone, onboardingPlan_copyNotNone,
        OnboardingPlan.setSome_of_notMem "application_type",
        onboardingPlan_copyNotNone, OnboardingPlan.setSome_of_notMem "use_case",
        onboardingPlan_copyTruthy, OnboardingPlan.setSome_of_notMem "runtime_name"]
      · rfl
      all_goals decide
  | _ => simp [OnboardingIntent.validates] at h

/-- A branch without validation leaves the plan with what it copied. -/
theorem onboardingPlan_of_not_validates {currentState state : String} {intent : Option String}
    (h : engine.authorizeAndTransition currentState config intent data = .ok (config', state))
    (hintent : (OnboardingIntent.ofName intent).validates = false) :
    onboardingPlan config' =
      ((onboardingPlan config).clear data).copy (OnboardingIntent.ofName intent) data := by
  obtain ⟨accepted, hfacts, hbranch⟩ := bind_eq_ok.1 h
  rw [← onboardingPlan_acceptFacts hfacts]
  generalize OnboardingIntent.ofName intent = branch at hbranch hintent ⊢
  cases branch with
  | clarifyRequirements =>
      obtain ⟨rfl, -⟩ := Prod.mk.inj (Except.ok.inj hbranch)
      rfl
  | setUseCase =>
      obtain ⟨rfl, -⟩ := Prod.mk.inj (Except.ok.inj hbranch)
      rw [onboardingPlan_copyTruthy, OnboardingPlan.setSome_integrations,
        onboardingPlan_copyTruthy, OnboardingPlan.setSome_of_notMem "runtime_name",
        onboardingPlan_copyDefault]
      · rfl
      all_goals decide
  | setUseCaseAndMode =>
      obtain ⟨rfl, -⟩ := Prod.mk.inj (Except.ok.inj hbranch)
      rw [onboardingPlan_copyTruthy, OnboardingPlan.setSome_capabilities,
        onboardingPlan_copyTruthy, OnboardingPlan.setSome_integrations,
        onboardingPlan_copyTruthy, OnboardingPlan.setSome_of_notMem "runtime_name",
        onboardingPlan_copyTruthy, OnboardingPlan.setSome_mode,
        onboardingPlan_copyDefault, onboardingPlan_copyDefault]
      · rfl
      all_goals decide
  | setApplicationType =>
      obtain ⟨rfl, -⟩ := Prod.mk.inj (Except.ok.inj hbranch)
      rw [onboardingPlan_copyTruthy, OnboardingPlan.setSome_capabilities,
        onboardingPlan_copyTruthy, OnboardingPlan.setSome_integrations,
        onboardingPlan_copyTruthy, OnboardingPlan.setSome_of_notMem "runtime_name",
        onboardingPlan_copyKnownMode, OnboardingPlan.setSome_mode,
        onboardingPlan_copyDefault]
      · rfl
      all_goals decide
  | modifySettings =>
      obtain ⟨rfl, -⟩ := Prod.mk.inj (Except.ok.inj hbranch)
      rfl
  | general =>
      obtain ⟨rfl, -⟩ := Prod.mk.inj (Except.ok.inj hbranch)
      have hall : (data.get? "integration_mode").filter (fun _ => true) =
          data.get? "integration_mode" := by
        cases data.get? "integration_mode" with
        | none => rfl
        | some mode => rfl
      simp only [onboardingPlan, lookup_copyItems]
      simp [generalKeys, OnboardingPlan.copy, copiedIntegrations, copiedCapabilities, copiedMode,
        hall]
  | _ => simp [OnboardingIntent.validates] at hintent

/-- A validating branch leaves the plan of the validated draft. -/
theorem exists_validated {currentState state : String} {intent : Option String}
    (h : engine.authorizeAndTransition currentState config intent data = .ok (config', state))
    (hintent : (OnboardingIntent.ofName intent).validates = true) :
    ∃ (draft validated : Fields) (next : String),
      onboardingPlan draft =
        ((onboardingPlan config).clear data).copy (OnboardingIntent.ofName intent) data ∧
      engine.validateIntegrationsAndTransition draft data = .ok (validated, next) ∧
      onboardingPlan config' = onboardingPlan validated := by
  obtain ⟨accepted, hfacts, hbranch⟩ := bind_eq_ok.1 h
  rw [← onboardingPlan_acceptFacts hfacts]
  generalize OnboardingIntent.ofName intent = branch at hbranch hintent ⊢
  have hdraft := onboardingPlan_copiedDraft hintent data accepted
  cases branch with
  | requirementsReady => exact ⟨_, config', state, hdraft, hbranch, rfl⟩
  | selectIntegrations => exact ⟨_, config', state, hdraft, hbranch, rfl⟩
  | confirmConfiguration =>
      obtain ⟨⟨validated, next⟩, hvalid, hdefaults⟩ := bind_eq_ok.1 hbranch
      obtain ⟨rfl, -⟩ := Prod.mk.inj (Except.ok.inj hdefaults)
      refine ⟨_, validated, next, hdraft, hvalid, ?_⟩
      rw [onboardingPlan_copyDefault, onboardingPlan_copyDefault,
        onboardingPlan_copyDefault, onboardingPlan_copyDefault]
      all_goals decide
  | _ => simp [OnboardingIntent.validates] at hintent

/-! ## The validation keeps the registry's bounds -/

theorem validCapabilities_subset {definition : IntegrationDefinition} {requested : Option Json}
    {capabilities : List String} (h : validCapabilities definition requested = .ok capabilities) :
    capabilities ⊆ definition.capabilities.map IntegrationCapability.slug := by
  unfold validCapabilities at h
  split at h
  · obtain ⟨items, -, hfilter⟩ := bind_eq_ok.1 h
    obtain rfl := Except.ok.inj hfilter
    intro capability hmem
    exact of_decide_eq_true (List.mem_filter.1 hmem).2
  · obtain rfl := Except.ok.inj h
    exact (List.filter_sublist.map IntegrationCapability.slug).subset

/-- One turn of the loop keeps the selection within the registry. -/
theorem validateIntegration_within {selection selection' : List Json × Fields} {slug : Json}
    (hbefore : ∃ slugs : List String, selection.1 = slugs.map .str ∧
      SelectionWithin engine.registry slugs selection.2)
    (h : engine.validateIntegration data selection slug = .ok selection') :
    ∃ slugs : List String, selection'.1 = slugs.map .str ∧
      SelectionWithin engine.registry slugs selection'.2 := by
  unfold validateIntegration at h
  split at h
  · rename_i text
    split at h
    · obtain rfl := Except.ok.inj h
      exact hbefore
    · rename_i definition hget
      obtain ⟨requested, -, hrest⟩ := bind_eq_ok.1 h
      obtain ⟨capabilities, hvalid, hselection⟩ := bind_eq_ok.1 hrest
      obtain ⟨slugs, hslugs, hwithin⟩ := hbefore
      obtain ⟨slugs', hslugs', hmem⟩ := exists_appended definition.slug slugs
      obtain rfl := Except.ok.inj hselection
      refine ⟨slugs', ?_, ?_⟩
      · rw [hslugs]
        exact hslugs'
      · exact hwithin.record (IntegrationRegistry.mem_of_get hget)
          (validCapabilities_subset hvalid) hmem
  · cases h

theorem validateIntegrationsAndTransition_within {state : String}
    (hbefore : ∃ (slugs : List String) (recorded : Fields),
      (onboardingPlan config).integrations = .arr (slugs.map .str) ∧
      (onboardingPlan config).capabilities = .obj recorded ∧
      SelectionWithin engine.registry slugs recorded)
    (h : engine.validateIntegrationsAndTransition config data = .ok (config', state)) :
    (∃ (slugs : List String) (recorded : Fields),
      (onboardingPlan config').integrations = .arr (slugs.map .str) ∧
      (onboardingPlan config').capabilities = .obj recorded ∧
      SelectionWithin engine.registry slugs recorded) ∧
    (onboardingPlan config').mode = (onboardingPlan config).mode := by
  obtain ⟨slugs, recorded, hslugs, hrecorded, hwithin⟩ := hbefore
  obtain ⟨existing, hexisting, hrest⟩ := bind_eq_ok.1 h
  obtain ⟨capabilities, hcapabilities, hrest⟩ := bind_eq_ok.1 hrest
  obtain ⟨raw, -, hrest⟩ := bind_eq_ok.1 hrest
  obtain ⟨selection, hloop, hresult⟩ := bind_eq_ok.1 hrest
  obtain ⟨rfl, -⟩ := Prod.mk.inj (Except.ok.inj hresult)
  have hitems : existing = slugs.map .str := by
    change itemsOf (onboardingPlan config).integrations = _ at hexisting
    rw [hslugs] at hexisting
    exact (Except.ok.inj hexisting).symm
  have hfields : capabilities = recorded := by
    change dictOfValue engine.str (onboardingPlan config).capabilities = _ at hcapabilities
    rw [hrecorded] at hcapabilities
    exact (Except.ok.inj hcapabilities).symm
  obtain ⟨slugs', hslugs', hwithin'⟩ := foldlM_invariant
    (I := fun selection => ∃ slugs : List String, selection.1 = slugs.map .str ∧
      SelectionWithin engine.registry slugs selection.2)
    (fun b a b' hb hstep => validateIntegration_within hb hstep)
    ⟨slugs, hitems, hfields ▸ hwithin⟩ hloop
  rw [onboardingPlan_set, onboardingPlan_set]
  refine ⟨⟨slugs', selection.2, ?_, ?_, hwithin'⟩, ?_⟩
  · simp [OnboardingPlan.set, hslugs']
  · simp [OnboardingPlan.set]
  · simp [OnboardingPlan.set]

theorem clear_within {registry : IntegrationRegistry} {plan : OnboardingPlan}
    (h : plan.Within registry) (data : ProposedData) : (plan.clear data).Within registry := by
  unfold OnboardingPlan.clear
  split_ifs
  · exact ⟨⟨[], [], rfl, rfl, SelectionWithin.empty registry []⟩, h.mode⟩
  · exact h

/-- A transition keeps a plan within the registry exactly if what its branch copies from the
data is within it. -/
theorem authorizeAndTransition_within_iff {currentState state : String} {intent : Option String}
    (hbefore : (onboardingPlan config).Within engine.registry)
    (h : engine.authorizeAndTransition currentState config intent data = .ok (config', state)) :
    (onboardingPlan config').Within engine.registry ↔
      (((onboardingPlan config).clear data).copy (OnboardingIntent.ofName intent) data).Within
        engine.registry := by
  by_cases hvalidates : (OnboardingIntent.ofName intent).validates = true
  · obtain ⟨draft, validated, next, hdraft, hvalid, hplan⟩ := exists_validated h hvalidates
    have hselection := (clear_within hbefore data).selection
    have hcopy := OnboardingPlan.copy_of_validates hvalidates data
      ((onboardingPlan config).clear data)
    rw [OnboardingPlan.setSome_mode] at hcopy
    rw [hcopy] at hdraft
    obtain ⟨hafter, hmode⟩ :=
      validateIntegrationsAndTransition_within (by rw [hdraft]; exact hselection) hvalid
    rw [hplan, hcopy]
    constructor
    · intro hwithin
      exact ⟨hselection, by simpa only [hmode, hdraft] using hwithin.mode⟩
    · intro hwithin
      exact ⟨hafter, by simpa only [hmode, hdraft] using hwithin.mode⟩
  · rw [onboardingPlan_of_not_validates h (by simpa using hvalidates)]

end OnboardingEngine

end Zyntry
