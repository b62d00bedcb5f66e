import Zyntry.OnboardingPlans

/-!
# Runs of an onboarding session

A session takes transitions in any order. Between them the runtime plan is attached and
other keys of the configuration are written. The plan stays within the registry as long as
nothing is copied into it from outside of the registry.
-/

namespace Zyntry

open Python

/-! ## Attaching a plan -/

namespace OnboardingEngine

variable {engine : OnboardingEngine} {config config' : Fields}

/-- The requirements of a draft ask registered integrations for their own capabilities. -/
def AttachesRegistered (engine : OnboardingEngine) (config : Fields) : Prop :=
  ∀ value requirements,
    (Json.lookup "application_requirements" config).filter Json.truthy = some value →
    engine.modelValidate value = some requirements →
    ∀ integration ∈ requirements.plannedIntegrations, ∀ definition,
      engine.registry.get integration.slug = some definition →
      integration.capabilities ⊆ definition.capabilities.map IntegrationCapability.slug

theorem enabledCapabilities_subset {definition : IntegrationDefinition} {mode : Option String}
    {integration : ApplicationIntegrationRequirement}
    (h : integration.capabilities ⊆ definition.capabilities.map IntegrationCapability.slug) :
    (policyOf definition mode integration).enabledCapabilities ⊆
      definition.capabilities.map IntegrationCapability.slug := by
  intro capability hmem
  rcases List.mem_append.1 (List.mem_eraseDups.1 hmem) with hread | hasked
  · exact (List.filter_sublist.map IntegrationCapability.slug).subset hread
  · exact h hasked

/-- A policy belongs to a planned integration that is registered. -/
theorem exists_definition_of_policy {requirements : ApplicationRequirements}
    {policies : List IntegrationPolicy}
    (h : engine.integrationPolicies requirements = .ok policies) {policy : IntegrationPolicy}
    (hpolicy : policy ∈ policies) :
    ∃ integration ∈ requirements.plannedIntegrations, ∃ definition mode,
      engine.registry.get integration.slug = some definition ∧
        policy = policyOf definition mode integration := by
  obtain ⟨results, hmap, hfilter⟩ := bind_eq_ok.1 h
  obtain rfl := Except.ok.inj hfilter
  obtain ⟨result, hresult, hsome⟩ := List.mem_filterMap.1 hpolicy
  obtain rfl : result = some policy := hsome
  obtain ⟨integration, hplanned, hone⟩ := exists_mem_of_mapM hmap hresult
  unfold integrationPolicy at hone
  split at hone
  · cases Except.ok.inj hone
  · rename_i definition hget
    obtain ⟨mode, -, hpure⟩ := bind_eq_ok.1 hone
    exact ⟨integration, hplanned, definition, mode, hget,
      (Option.some.inj (Except.ok.inj hpure)).symm⟩

theorem withoutResources_str {slugs : List String} {items : List Json}
    (h : withoutResources (slugs.map .str) = .ok items) :
    items = (slugs.filter fun slug => slug ∉ resourceOnlySlugs).map .str := by
  induction slugs generalizing items with
  | nil => exact (Except.ok.inj h).symm
  | cons slug slugs ih =>
      obtain ⟨keep, hkeep, hrest⟩ := bind_eq_ok.1 h
      obtain ⟨kept, hkept, hitems⟩ := bind_eq_ok.1 hrest
      obtain rfl := Except.ok.inj hkeep
      obtain rfl := Except.ok.inj hitems
      rw [ih hkept]
      by_cases hslug : slug ∈ resourceOnlySlugs
      · simp [hslug]
      · simp [hslug]

/-- One turn of the loop over the policies keeps the selection within the registry. -/
theorem recordPolicy_within {selection : List Json × Fields × Fields} {policy : IntegrationPolicy}
    {definition : IntegrationDefinition}
    (hdefinition : definition ∈ engine.registry.definitions.map Prod.snd)
    (hslug : policy.integrationSlug = definition.slug)
    (hcapabilities : policy.enabledCapabilities ⊆
      definition.capabilities.map IntegrationCapability.slug)
    (h : ∃ slugs : List String, selection.1 = slugs.map .str ∧
      SelectionWithin engine.registry slugs selection.2.1) :
    ∃ slugs : List String, (recordPolicy selection policy).1 = slugs.map .str ∧
      SelectionWithin engine.registry slugs (recordPolicy selection policy).2.1 := by
  obtain ⟨slugs, hslugs, hwithin⟩ := h
  obtain ⟨slugs', hslugs', hmem⟩ := exists_appended definition.slug slugs
  refine ⟨slugs', ?_, ?_⟩
  · rw [recordPolicy, hslug, hslugs]
    exact hslugs'
  · rw [recordPolicy, hslug]
    exact hwithin.record hdefinition hcapabilities hmem

theorem foldl_recordPolicy_within {policies : List IntegrationPolicy}
    (hpolicies : ∀ policy ∈ policies, ∃ definition ∈ engine.registry.definitions.map Prod.snd,
      policy.integrationSlug = definition.slug ∧
        policy.enabledCapabilities ⊆ definition.capabilities.map IntegrationCapability.slug)
    (selection : List Json × Fields × Fields)
    (h : ∃ slugs : List String, selection.1 = slugs.map .str ∧
      SelectionWithin engine.registry slugs selection.2.1) :
    ∃ slugs : List String, (policies.foldl recordPolicy selection).1 = slugs.map .str ∧
      SelectionWithin engine.registry slugs (policies.foldl recordPolicy selection).2.1 := by
  induction policies generalizing selection with
  | nil => exact h
  | cons policy policies ih =>
      obtain ⟨definition, hdefinition, hslug, hcapabilities⟩ :=
        hpolicies policy List.mem_cons_self
      exact ih (fun p hp => hpolicies p (List.mem_cons_of_mem _ hp)) _
        (recordPolicy_within hdefinition hslug hcapabilities h)

/-- Attaching a plan keeps a draft within the registry if its requirements are. -/
theorem attachRuntimePlan_within {previousPlan : Option Json}
    (hbefore : (onboardingPlan config).Within engine.registry)
    (hasked : engine.AttachesRegistered config)
    (h : engine.attachRuntimePlan config previousPlan = .ok config') :
    (onboardingPlan config').Within engine.registry := by
  unfold attachRuntimePlan at h
  split at h
  · rwa [← Except.ok.inj h]
  rename_i value hvalue
  split at h
  · rwa [← Except.ok.inj h]
  rename_i requirements hrequirements
  obtain ⟨policies, hpolicies, h⟩ := bind_eq_ok.1 h
  obtain ⟨plan, -, h⟩ := bind_eq_ok.1 h
  obtain ⟨items, hitems, h⟩ := bind_eq_ok.1 h
  obtain ⟨integrations, hkept, h⟩ := bind_eq_ok.1 h
  obtain ⟨capabilities, hcapabilities, h⟩ := bind_eq_ok.1 h
  obtain ⟨modes, -, h⟩ := bind_eq_ok.1 h
  obtain rfl := Except.ok.inj h
  obtain ⟨slugs, recorded, hslugs, hrecorded, hwithin⟩ := hbefore.selection
  have hresult : onboardingPlan (Json.set "runtime_plan" plan config) = onboardingPlan config := by
    rw [onboardingPlan_set, OnboardingPlan.set_of_notMem]
    decide
  have hread : items = slugs.map .str := by
    change itemsOf (onboardingPlan (Json.set "runtime_plan" plan config)).integrations = _ at hitems
    rw [hresult, hslugs] at hitems
    exact (Except.ok.inj hitems).symm
  have hfields : capabilities = recorded := by
    change dictOfValue engine.str
      (onboardingPlan (Json.set "runtime_plan" plan config)).capabilities = _ at hcapabilities
    rw [hresult, hrecorded] at hcapabilities
    exact (Except.ok.inj hcapabilities).symm
  rw [hread] at hkept
  obtain ⟨slugs', hslugs', hwithin'⟩ := foldl_recordPolicy_within
    (fun policy hpolicy => by
      obtain ⟨integration, hplanned, definition, mode, hget, rfl⟩ :=
        exists_definition_of_policy hpolicies hpolicy
      exact ⟨definition, IntegrationRegistry.mem_of_get hget, rfl, enabledCapabilities_subset
        (hasked value requirements hvalue hrequirements integration hplanned definition hget)⟩)
    (integrations, capabilities, modes)
    ⟨slugs.filter fun slug => slug ∉ resourceOnlySlugs, withoutResources_str hkept,
      hfields ▸ hwithin.mono (List.filter_sublist).subset⟩
  have hmodes : "integration_modes" ∉ planKeys := by decide
  rw [onboardingPlan_set, onboardingPlan_set, onboardingPlan_set, hresult,
    OnboardingPlan.set_of_notMem _ _ hmodes]
  refine ⟨⟨slugs', _, ?_, ?_, hwithin'⟩, ?_⟩
  · simp [OnboardingPlan.set, hslugs']
  · simp [OnboardingPlan.set]
  · simpa [OnboardingPlan.set] using hbefore.mode

end OnboardingEngine

/-! ## Runs -/

/-- A session in the part that its transitions read. -/
structure OnboardingDraft where
  state : String
  configuration : Fields

def OnboardingDraft.start : OnboardingDraft := ⟨"onboarding_started", []⟩

inductive OnboardingEvent where
  | transition (proposedIntent : Option String) (data : ProposedData)
  | attachPlan (previousPlan : Option Json)
  /-- Another key of the configuration is written: a name, an id, a question, an error. -/
  | write (key : String) (value : Json) (other : key ∉ planKeys)
  | drop (key : String) (other : key ∉ planKeys)

namespace OnboardingEngine

/-- One event; what raises leaves the session as it was stored. -/
def play (engine : OnboardingEngine) (draft : OnboardingDraft) : OnboardingEvent → OnboardingDraft
  | .transition intent data =>
      match engine.authorizeAndTransition draft.state draft.configuration intent data with
      | .ok (config, state) => ⟨state, config⟩
      | .error _ => draft
  | .attachPlan previousPlan =>
      match engine.attachRuntimePlan draft.configuration previousPlan with
      | .ok config => { draft with configuration := config }
      | .error _ => draft
  | .write key value _ => { draft with configuration := Json.set key value draft.configuration }
  | .drop key _ => { draft with configuration := Json.erase key draft.configuration }

/-- What a branch copies from the data as it is, and what the requirements ask for, is within
the registry. -/
def ProposesRegistered (engine : OnboardingEngine) (draft : OnboardingDraft) :
    OnboardingEvent → Prop
  | .transition intent data =>
      (((onboardingPlan draft.configuration).clear data).copy (OnboardingIntent.ofName intent)
        data).Within engine.registry
  | .attachPlan _ => engine.AttachesRegistered draft.configuration
  | .write _ _ _ => True
  | .drop _ _ => True

variable {engine : OnboardingEngine}

theorem play_within (draft : OnboardingDraft) (event : OnboardingEvent)
    (hbefore : (onboardingPlan draft.configuration).Within engine.registry)
    (hevent : engine.ProposesRegistered draft event) :
    (onboardingPlan (engine.play draft event).configuration).Within engine.registry := by
  cases event with
  | transition intent data =>
      rw [play]
      split
      · rename_i config state hok
        exact (authorizeAndTransition_within_iff hbefore hok).2 hevent
      · exact hbefore
  | attachPlan previousPlan =>
      rw [play]
      split
      · rename_i config hok
        exact attachRuntimePlan_within hbefore hevent hok
      · exact hbefore
  | write key value other =>
      simpa only [play, onboardingPlan_set, OnboardingPlan.set_of_notMem _ _ other] using hbefore
  | drop key other =>
      simpa only [play, onboardingPlan_erase other] using hbefore

theorem run_within {events : List OnboardingEvent}
    (h : StepRuns.Along engine.play engine.ProposesRegistered OnboardingDraft.start events) :
    (onboardingPlan (events.foldl engine.play OnboardingDraft.start).configuration).Within
      engine.registry :=
  h.invariant play_within (OnboardingPlan.within_start engine.registry)

/-- In a run of such events the plan is within the registry after each of them, and the next
transition keeps it there exactly if it meets the condition itself. -/
theorem onboardingPlan_within_registry (engine : OnboardingEngine)
    (events : List OnboardingEvent)
    (h : StepRuns.Along engine.play engine.ProposesRegistered OnboardingDraft.start events) :
    let draft := events.foldl engine.play OnboardingDraft.start
    (onboardingPlan draft.configuration).Within engine.registry ∧
      ∀ intent data config state,
        engine.authorizeAndTransition draft.state draft.configuration intent data =
          .ok (config, state) →
        ((onboardingPlan config).Within engine.registry ↔
          engine.ProposesRegistered draft (.transition intent data)) := by
  intro draft
  have hdraft := run_within h
  refine ⟨hdraft, fun intent data config state hok => ?_⟩
  exact authorizeAndTransition_within_iff hdraft hok

end OnboardingEngine

/-! ## Proposals from outside of the registry -/

def githubRegistry : IntegrationRegistry where
  definitions :=
    [("github",
      { id := "int_github"
        slug := "github"
        name := "GitHub"
        connectionModes := ["zyntry_managed", "end_user_oauth", "api_key"]
        authMethods := ["oauth2", "github_app", "personal_access_token"]
        capabilities := [{ slug := "commits" }, { slug := "issues" }] })]
  aliases := []

/-- Requirements that ask GitHub for a capability which it does not have. -/
def deletingRequirements : ApplicationRequirements where
  integrations := [{ slug := "github", capabilities := ["delete_everything"] }]
  modelDump := .obj [("integrations", .arr [.obj [("slug", .str "github"),
    ("capabilities", .arr [.str "delete_everything"])]])]

def githubEngine : OnboardingEngine where
  registry := githubRegistry
  str := fun
    | .str s => s
    | _ => ""
  modelValidate := fun _ => some deletingRequirements
  planDocument := fun _ _ _ _ => .ok (.obj [])

/-- GitHub with one capability that it has and one that it does not have. -/
def githubProposal : ProposedData where
  fields := [("integrations", .arr [.str "github"]),
    ("capabilities", .obj [("github", .arr [.str "commits", .str "delete_everything"])]),
    ("integration_mode", .str "zyntry_managed")]
  nodup_keys := by decide

def modeProposal : ProposedData where
  fields := [("integration_mode", .str "root_access")]
  nodup_keys := by decide

def unknownProposal : ProposedData where
  fields := [("integrations", .arr [.str "unknown_tool"])]
  nodup_keys := by decide

def requirementsProposal : ProposedData where
  fields := [("application_requirements", deletingRequirements.modelDump)]
  nodup_keys := by decide

def emptyProposal : ProposedData where
  fields := []
  nodup_keys := by decide

example : (onboardingPlan (githubEngine.play OnboardingDraft.start
    (.transition (some "confirm_configuration") githubProposal)).configuration) =
    ⟨.arr [.str "github"], .obj [("github", .arr [.str "commits"])], .str "zyntry_managed"⟩ := by
  rfl

/-- The validated path drops the capability that is not GitHub's. -/
theorem githubProposal_within :
    (onboardingPlan ([OnboardingEvent.transition (some "confirm_configuration")
      githubProposal].foldl githubEngine.play OnboardingDraft.start).configuration).Within
        githubRegistry :=
  (OnboardingEngine.onboardingPlan_within_registry githubEngine
    [.transition (some "confirm_configuration") githubProposal]
    ⟨⟨⟨[], [], rfl, rfl, SelectionWithin.empty githubRegistry []⟩,
      Or.inr ⟨"zyntry_managed", by decide, rfl⟩⟩, trivial⟩).1

theorem not_within_of_integrations {registry : IntegrationRegistry} {plan : OnboardingPlan}
    (slug : String) (hplan : plan.integrations = .arr [.str slug])
    (hslug : ∀ definition ∈ registry.definitions.map Prod.snd, definition.slug ≠ slug) :
    ¬plan.Within registry := by
  intro h
  obtain ⟨slugs, recorded, hslugs, -, hwithin⟩ := h.selection
  rw [hplan] at hslugs
  have hmem : Json.str slug ∈ slugs.map Json.str := by
    rw [← Json.arr.inj hslugs]
    exact List.mem_singleton_self _
  obtain ⟨s, hs, heq⟩ := List.mem_map.1 hmem
  obtain ⟨definition, hdefinition, hname⟩ := hwithin.registered s hs
  exact hslug definition hdefinition (hname.trans (Json.str.inj heq))

theorem not_within_of_mode {registry : IntegrationRegistry} {plan : OnboardingPlan}
    (mode : String) (hplan : plan.mode = .str mode)
    (hmode : mode ∉ OnboardingEngine.connectionModes) : ¬plan.Within registry := by
  intro h
  rcases h.mode with hnull | ⟨known, hknown, heq⟩
  · cases hplan.symm.trans hnull
  · obtain rfl := Json.str.inj (hplan.symm.trans heq)
    exact hmode hknown

theorem not_within_of_capability {registry : IntegrationRegistry} {plan : OnboardingPlan}
    (slug capability : String) (capabilities : List String) {recorded : Fields}
    (hintegrations : plan.integrations = .arr [.str slug])
    (hplan : plan.capabilities = .obj recorded)
    (hrecorded : Json.lookup slug recorded = some (.arr (capabilities.map .str)))
    (hmem : capability ∈ capabilities)
    (hcapability : ∀ definition ∈ registry.definitions.map Prod.snd,
      capability ∉ definition.capabilities.map IntegrationCapability.slug) :
    ¬plan.Within registry := by
  intro h
  obtain ⟨slugs, recorded', hslugs, hrecorded', hwithin⟩ := h.selection
  have hselected : slugs.map Json.str = [.str slug] :=
    (Json.arr.inj (hintegrations.symm.trans hslugs)).symm
  obtain rfl := Json.obj.inj (hplan.symm.trans hrecorded')
  have hslug : slug ∈ slugs := by
    have hstr : Json.str slug ∈ slugs.map Json.str := hselected ▸ List.mem_singleton_self _
    obtain ⟨s, hs, heq⟩ := List.mem_map.1 hstr
    exact Json.str.inj heq ▸ hs
  obtain ⟨definition, hdefinition, -, capabilities', heq, hsubset⟩ :=
    hwithin.records slug hslug _ hrecorded
  have hsame : capabilities = capabilities' :=
    List.map_injective_iff.2 (fun a b hab => Json.str.inj hab) (Json.arr.inj heq)
  exact hcapability definition hdefinition (hsubset (hsame ▸ hmem))

/-- An unknown integration, an unknown mode and an unknown capability are stored. -/
theorem unregistered_proposals_stored :
    ¬(onboardingPlan ([OnboardingEvent.transition (some "set_use_case")
      unknownProposal].foldl githubEngine.play OnboardingDraft.start).configuration).Within
        githubRegistry ∧
    ¬(onboardingPlan ([OnboardingEvent.transition (some "confirm_configuration")
      modeProposal].foldl githubEngine.play OnboardingDraft.start).configuration).Within
        githubRegistry ∧
    ¬(onboardingPlan ([OnboardingEvent.transition (some "clarify_requirements")
      requirementsProposal, .attachPlan none, .transition (some "clarify_requirements")
      emptyProposal].foldl githubEngine.play OnboardingDraft.start).configuration).Within
        githubRegistry := by
  refine ⟨?_, ?_, ?_⟩
  · exact not_within_of_integrations "unknown_tool" rfl (by decide)
  · exact not_within_of_mode "root_access" rfl (by decide)
  · exact not_within_of_capability "github" "delete_everything"
      ["commits", "issues", "delete_everything"] rfl rfl rfl (by decide) (by decide)

end Zyntry
