import Zyntry.RoleHints
import Zyntry.RuntimePolicies

/-!
# Transitions of an onboarding session

A session keeps a draft of the runtime in its configuration. `_authorize_and_transition`
merges the data that a model proposes into the draft and gives the next state, and
`_attach_runtime_plan` writes the integrations of the application's requirements into it.
-/

namespace Zyntry

open Python

inductive OnboardingError where
  /-- The requirements are not those of an application. -/
  | validationError
  | typeError
  | valueError
  | attributeError
  | indexError
deriving DecidableEq, Repr

/-! ## The requirements of an application -/

inductive ConnectionOwnership where
  | company
  | endUser
  | hybrid
deriving DecidableEq, Repr

/-- The entry of `ownership_modes`. -/
def ConnectionOwnership.mode : ConnectionOwnership → String
  | .company => "zyntry_managed"
  | .endUser => "end_user_oauth"
  | .hybrid => "hybrid"

structure ApplicationIntegrationRequirement where
  slug : String
  purpose : String := ""
  ownership : Option ConnectionOwnership := none
  capabilities : List String := []
  writeAccess : Bool := false
  required : Bool := true

/-- Requirements as they were validated, with the document that `model_dump` makes of all
their fields. -/
structure ApplicationRequirements where
  integrations : List ApplicationIntegrationRequirement := []
  requiresDocuments : Option Bool := none
  connectionOwnership : Option ConnectionOwnership := none
  modelDump : Json

structure IntegrationPolicy where
  integrationSlug : String
  connectionMode : Option String
  enabledCapabilities : List String
  readCapabilities : List String
  writeCapabilities : List String
  requiresConfirmation : Bool
  writeAccess : Bool
  required : Bool
  purpose : String

/-- The registry and what the engine takes from elsewhere: Python's `str`, the validation of
requirements, and the document of a plan, which may fail. -/
structure OnboardingEngine where
  registry : IntegrationRegistry
  str : Json → String
  modelValidate : Json → Option ApplicationRequirements
  planDocument : ApplicationRequirements → Fields → Option Json → List IntegrationPolicy →
    Except OnboardingError Json

/-- Data that a model proposes: a dict, so that no key is there twice. -/
structure ProposedData where
  fields : Fields
  nodup_keys : (Json.keys fields).Nodup

def ProposedData.get? (data : ProposedData) (key : String) : Option Json :=
  Json.lookup key data.fields

/-! ## Reading values -/

def itemsOf (value : Json) : Except OnboardingError (List Json) :=
  (iterate value).mapError fun _ => .typeError

section

variable (str : Json → String)

/-- A key of a dict as its JSON document has it. -/
def jsonKey : Json → Except OnboardingError String
  | .null => .ok "null"
  | .bool b => .ok (if b then "true" else "false")
  | .str s => .ok s
  | .int n => .ok (str (.int n))
  | .float q => .ok (str (.float q))
  | .arr _ => .error .typeError
  | .obj _ => .error .typeError

/-- An element of the sequence that `dict` is given. -/
def dictEntry (item : Json) : Except OnboardingError (String × Json) := do
  match ← itemsOf item with
  | [key, value] => pure (← jsonKey str key, value)
  | _ => .error .valueError

/-- `dict(value)`. -/
def dictOfValue : Json → Except OnboardingError Fields
  | .obj fields => .ok fields
  | value => do pure (Json.update [] (← (← itemsOf value).mapM (dictEntry str)))

end

def isText (text : String) : Json → Bool
  | .str s => s = text
  | _ => false

/-- `text in items`. -/
def containsText (text : String) (items : List Json) : Bool := items.any (isText text)

/-! ## Merging proposed values -/

section

variable (key : String) (data : ProposedData) (config : Fields)

/-- `if key in data: config[key] = data[key]`. -/
def copyPresent : Fields :=
  match data.get? key with
  | some value => Json.set key value config
  | none => config

/-- `if data.get(key): config[key] = data[key]`. -/
def copyTruthy : Fields :=
  match (data.get? key).filter Json.truthy with
  | some value => Json.set key value config
  | none => config

/-- `config[key] = data.get(key, default)`. -/
def copyDefault (value : String) : Fields :=
  Json.set key ((data.get? key).getD (.str value)) config

end

def isNull : Json → Bool
  | .null => true
  | _ => false

/-- `if data.get(key) is not None: config[key] = data[key]`. -/
def copyNotNone (data : ProposedData) (config : Fields) (key : String) : Fields :=
  match (data.get? key).filter fun value => !isNull value with
  | some value => Json.set key value config
  | none => config

/-- The draft with the items of the data that are kept. -/
def copyItems (keep : String × Json → Bool) (data : ProposedData) (config : Fields) : Fields :=
  Json.update config (data.fields.filter keep)

inductive OnboardingIntent where
  | clarifyRequirements
  | requirementsReady
  | setUseCase
  | setUseCaseAndMode
  | setApplicationType
  | selectIntegrations
  | confirmConfiguration
  | modifySettings
  | general
deriving DecidableEq, Repr

def OnboardingIntent.ofName : Option String → OnboardingIntent
  | some "clarify_requirements" => .clarifyRequirements
  | some "requirements_ready" => .requirementsReady
  | some "set_use_case" => .setUseCase
  | some "set_use_case_and_mode" => .setUseCaseAndMode
  | some "set_application_type" => .setApplicationType
  | some "select_integrations" => .selectIntegrations
  | some "quick_bootstrap" => .selectIntegrations
  | some "set_application_type_and_integrations" => .selectIntegrations
  | some "confirm_configuration" => .confirmConfiguration
  | some "modify_settings" => .modifySettings
  | _ => .general

/-- The data disables tools and has an empty list of integrations. -/
def ProposedData.clearsConnectors (data : ProposedData) : Bool :=
  match data.get? "integrations", data.get? "requires_tools" with
  | some (.arr []), some (.bool false) => true
  | _, _ => false

namespace OnboardingEngine

variable (engine : OnboardingEngine)

/-! ## What every transition does first -/

def acceptRequirements (data : ProposedData) (config : Fields) : Except OnboardingError Fields :=
  match (data.get? "application_requirements").filter Json.truthy with
  | none => .ok config
  | some value =>
      match engine.modelValidate value with
      | none => .error .validationError
      | some requirements =>
          .ok (Json.set "application_requirements" requirements.modelDump config)

def clearConnectors (data : ProposedData) (config : Fields) : Fields :=
  if data.clearsConnectors then
    Json.set "capabilities" (.obj []) (Json.set "integrations" (.arr []) config)
  else config

def acceptRuntimeName (data : ProposedData) (config : Fields) : Fields :=
  match (data.get? "runtime_name").filter Json.truthy with
  | none => config
  | some name =>
      let name := String.ofList ((stripped (engine.str name)).toList.take 255)
      Json.set "runtime_name" (.str name) config

/-- A value that is set if it is truthy and removed if it is there and is not. -/
def acceptPending (key : String) (write : Json → Json) (data : ProposedData) (config : Fields) :
    Fields :=
  match data.get? key with
  | none => config
  | some value =>
      if value.truthy then Json.set key (write value) config else Json.erase key config

def acceptQuestions (data : ProposedData) (config : Fields) : Except OnboardingError Fields :=
  match data.get? "onboarding_questions_asked" with
  | none => .ok config
  | some value => do
      let items ← itemsOf value
      let asked := ((items.filter Json.truthy).map engine.str).eraseDups
      pure (Json.set "onboarding_questions_asked" (.arr (asked.map .str)) config)

def acceptExploration (data : ProposedData) (config : Fields) : Fields :=
  match data.get? "onboarding_exploration_complete" with
  | none => config
  | some value => Json.set "onboarding_exploration_complete" (.bool value.truthy) config

/-- The part of a transition before the intent is looked at. -/
def acceptFacts (data : ProposedData) (config : Fields) : Except OnboardingError Fields := do
  let config ← engine.acceptRequirements data config
  let config := clearConnectors data config
  let config := engine.acceptRuntimeName data config
  let config := acceptPending "pending_requirement" id data config
  let config :=
    acceptPending "onboarding_pending_question" (fun value => .str (engine.str value)) data config
  let config ← engine.acceptQuestions data config
  pure (acceptExploration data config)

/-! ## The validated path -/

/-- `proposed_data.get("capabilities", {}).get(slug)`. -/
def requestedCapabilities (data : ProposedData) (slug : String) :
    Except OnboardingError (Option Json) :=
  match (data.get? "capabilities").getD (.obj []) with
  | .obj fields => .ok (Json.lookup slug fields)
  | _ => .error .attributeError

def validCapabilities (definition : IntegrationDefinition) (requested : Option Json) :
    Except OnboardingError (List String) :=
  match requested.filter Json.truthy with
  | some value => do
      let items ← itemsOf value
      pure ((strings items).filter
        (· ∈ definition.capabilities.map IntegrationCapability.slug))
  | none => .ok definition.readCapabilities

/-- One turn of the loop over the proposed integrations. -/
def validateIntegration (data : ProposedData) (selection : List Json × Fields) :
    Json → Except OnboardingError (List Json × Fields)
  | .str slug =>
      match engine.registry.get slug with
      | none => .ok selection
      | some definition => do
          let requested ← requestedCapabilities data definition.slug
          let capabilities ← validCapabilities definition requested
          let integrations :=
            if containsText definition.slug selection.1 then selection.1
            else selection.1 ++ [.str definition.slug]
          pure (integrations,
            Json.set definition.slug (.arr (capabilities.map .str)) selection.2)
  | _ => .error .attributeError

def validateIntegrationsAndTransition (config : Fields) (data : ProposedData) :
    Except OnboardingError (Fields × String) := do
  let existing ← itemsOf ((Json.lookup "integrations" config).getD (.arr []))
  let capabilities ← dictOfValue engine.str ((Json.lookup "capabilities" config).getD (.obj []))
  let raw ← itemsOf ((data.get? "integrations").getD (.arr []))
  let selection ← raw.foldlM (engine.validateIntegration data) (existing, capabilities)
  let config := Json.set "integrations" (.arr selection.1) config
  pure (Json.set "capabilities" (.obj selection.2) config, "configuring_runtime")

/-! ## The transition -/

def readyKeys : List String := ["use_case", "application_type", "integration_mode", "runtime_name"]

def generalKeys : List String :=
  ["use_case", "application_type", "integration_mode", "runtime_name", "model", "provider",
   "routing_strategy"]

def connectionModes : List String := ["zyntry_managed", "end_user_oauth", "hybrid"]

/-- The mode is copied if it is one of the known ones. -/
def copyKnownMode (data : ProposedData) (config : Fields) : Fields :=
  match data.get? "integration_mode" with
  | some (.str mode) =>
      if mode ∈ connectionModes then Json.set "integration_mode" (.str mode) config else config
  | _ => config

def authorizeAndTransition (currentState : String) (currentConfig : Fields)
    (proposedIntent : Option String) (data : ProposedData) :
    Except OnboardingError (Fields × String) := do
  let config ← engine.acceptFacts data currentConfig
  match OnboardingIntent.ofName proposedIntent with
  | .clarifyRequirements => pure (config, "clarifying_requirements")
  | .requirementsReady =>
      let config :=
        copyItems (fun item => item.1 ∈ readyKeys && !isNull item.2) data config
      engine.validateIntegrationsAndTransition config data
  | .setUseCase =>
      let config := copyDefault "use_case" data config "general_ai_application"
      let config := copyTruthy "runtime_name" data config
      let config := copyTruthy "integrations" data config
      pure (config, "discovering_application_type")
  | .setUseCaseAndMode =>
      let config := copyDefault "use_case" data config "general_ai_application"
      let config := copyDefault "application_type" data config "customer_facing_ai_app"
      let config := copyTruthy "integration_mode" data config
      let config := copyTruthy "runtime_name" data config
      let config := copyTruthy "integrations" data config
      let config := copyTruthy "capabilities" data config
      pure (config, "selecting_integrations")
  | .setApplicationType =>
      let config := copyDefault "application_type" data config "customer_facing_ai_app"
      let config := copyKnownMode data config
      let config := copyTruthy "runtime_name" data config
      let config := copyTruthy "integrations" data config
      let config := copyTruthy "capabilities" data config
      pure (config, "selecting_integrations")
  | .selectIntegrations =>
      let config := copyPresent "use_case" data config
      let config := copyPresent "application_type" data config
      let config := copyPresent "integration_mode" data config
      let config := copyTruthy "runtime_name" data config
      engine.validateIntegrationsAndTransition config data
  | .confirmConfiguration =>
      let config := copyTruthy "runtime_name" data config
      let config :=
        ["use_case", "application_type", "integration_mode"].foldl (copyNotNone data) config
      let (config, _) ← engine.validateIntegrationsAndTransition config data
      let config := copyDefault "model" data config "automatic"
      let config := copyDefault "provider" data config "automatic"
      let config := copyDefault "routing_strategy" data config "balanced"
      let config := copyDefault "environment" data config "development"
      pure (config, "confirming_configuration")
  | .modifySettings => pure (config, "configuring_runtime")
  | .general => pure (copyItems (fun item => item.1 ∈ generalKeys) data config, currentState)

end OnboardingEngine

/-! ## The runtime plan -/

/-- The mode that a policy has: one that the definition supports, if there is any. -/
def policyConnectionMode (definition : IntegrationDefinition)
    (ownership : Option ConnectionOwnership) : Except OnboardingError (Option String) :=
  match ownership.map ConnectionOwnership.mode with
  | none => .ok none
  | some mode =>
      if mode = "hybrid" then
        .ok (some (if definition.supportsHybrid then "hybrid" else "zyntry_managed"))
      else if mode ∈ definition.connectionModes then .ok (some mode)
      else
        match definition.connectionModes with
        | [] => .error .indexError
        | supported :: _ => .ok (some supported)

def policyOf (definition : IntegrationDefinition) (mode : Option String)
    (integration : ApplicationIntegrationRequirement) : IntegrationPolicy :=
  let capabilities := (definition.readCapabilities ++ integration.capabilities).eraseDups
  let writes := (definition.capabilities.filter IntegrationCapability.isWrite).map
    IntegrationCapability.slug
  { integrationSlug := definition.slug
    connectionMode := mode
    enabledCapabilities := capabilities
    readCapabilities := capabilities.filter (· ∉ writes)
    writeCapabilities := capabilities.filter (· ∈ writes)
    requiresConfirmation := capabilities.any (· ∈ writes)
    writeAccess := integration.writeAccess
    required := integration.required
    purpose := integration.purpose }

/-- The integrations that a plan is made for. -/
def ApplicationRequirements.plannedIntegrations (requirements : ApplicationRequirements) :
    List ApplicationIntegrationRequirement :=
  let planned := requirements.integrations.filter fun item => item.slug ∉ resourceOnlySlugs
  if planned.isEmpty ∧ requirements.requiresDocuments = some true then
    [{ slug := "document_storage"
       purpose := "Accept and index application documents"
       ownership := some .company }]
  else planned

namespace OnboardingEngine

variable (engine : OnboardingEngine)

/-- The policy of a planned integration; one that is not registered has none. -/
def integrationPolicy (requirements : ApplicationRequirements)
    (integration : ApplicationIntegrationRequirement) :
    Except OnboardingError (Option IntegrationPolicy) :=
  match engine.registry.get integration.slug with
  | none => .ok none
  | some definition => do
      let mode ← policyConnectionMode definition
        (integration.ownership.or requirements.connectionOwnership)
      pure (some (policyOf definition mode integration))

def integrationPolicies (requirements : ApplicationRequirements) :
    Except OnboardingError (List IntegrationPolicy) := do
  let policies ← requirements.plannedIntegrations.mapM (engine.integrationPolicy requirements)
  pure (policies.filterMap id)

/-- `slug not in document_resource_slugs`; values that are no keys raise. -/
def keepSlug (slug : Json) : Except OnboardingError Bool :=
  match slug with
  | .str s => .ok (s ∉ resourceOnlySlugs)
  | value => if (unhashable value).isSome then .error .typeError else .ok true

def withoutResources : List Json → Except OnboardingError (List Json)
  | [] => .ok []
  | slug :: slugs => do
      let keep ← keepSlug slug
      let kept ← withoutResources slugs
      pure (if keep then slug :: kept else kept)

/-- One turn of the loop over the policies of a plan. -/
def recordPolicy (selection : List Json × Fields × Fields) (policy : IntegrationPolicy) :
    List Json × Fields × Fields :=
  let slug := policy.integrationSlug
  (if containsText slug selection.1 then selection.1 else selection.1 ++ [.str slug],
   Json.set slug (.arr (policy.enabledCapabilities.map .str)) selection.2.1,
   Json.set slug ((policy.connectionMode.map Json.str).getD .null) selection.2.2)

def attachRuntimePlan (configuration : Fields) (previousPlan : Option Json) :
    Except OnboardingError Fields :=
  match (Json.lookup "application_requirements" configuration).filter Json.truthy with
  | none => .ok configuration
  | some value =>
      match engine.modelValidate value with
      | none => .ok configuration
      | some requirements => do
          let policies ← engine.integrationPolicies requirements
          let plan ← engine.planDocument requirements configuration previousPlan policies
          let result := Json.set "runtime_plan" plan configuration
          let items ← itemsOf ((Json.lookup "integrations" result).getD (.arr []))
          let integrations ← withoutResources items
          let capabilities ←
            dictOfValue engine.str ((Json.lookup "capabilities" result).getD (.obj []))
          let modes ←
            dictOfValue engine.str ((Json.lookup "integration_modes" result).getD (.obj []))
          let selection := policies.foldl recordPolicy (integrations, capabilities, modes)
          pure (Json.set "integration_modes" (.obj selection.2.2)
            (Json.set "capabilities" (.obj selection.2.1)
              (Json.set "integrations" (.arr selection.1) result)))

end OnboardingEngine

end Zyntry
