import Zyntry.RegisteredModels
import Mathlib.Data.List.Sort

/-!
# Providers of the onboarding

Onboarding falls over from the preferred provider to every other provider that has a key. The
configured model is kept for another provider whenever the registry resolves it there, and the
last stage of that lookup knows the identifiers of all providers.
-/

namespace Zyntry

open Python

/-! ## The registry, as candidates are chosen from it -/

structure GenerationMetadata extends ModelMetadata where
  supportsEmbeddings : Bool
  latencyTier : String
deriving DecidableEq

/-- The latency tiers of `_MODELS`. -/
def registeredLatencyTiers : List String := [
  "medium", "low", "medium", "low", "low", "low", "medium", "low", "medium", "medium", "low",
  "low", "medium", "medium", "low"]

/-- `_MODELS`, none of which supports embeddings. -/
def generationRegistry : List (RegistryEntry GenerationMetadata) :=
  List.zipWith (fun item latencyTier =>
    ⟨item.id, item.provider, { item.metadata with supportsEmbeddings := false, latencyTier }⟩)
    modelRegistry registeredLatencyTiers

/-- `list_registered_models`, over any registry. -/
def listRegisteredModels {M : Type} (models : List (RegistryEntry M)) (provider : Option String) :
    List (RegistryEntry M) :=
  let normalized := (nonEmpty provider).map fun p => lower (stripped p)
  models.filter fun item => normalized.all (· = item.provider)

namespace GenerationMetadata

variable (m : GenerationMetadata)

def generates : Bool := !m.supportsEmbeddings && 0 < m.maxOutputTokens

/-- `item.input_price_per_1k or 999.0`. -/
def sortPrice : ℚ := if m.rates.inputPricePer1k = 0 then 999 else m.rates.inputPricePer1k

/-- The order of the sort key: low latency first, then the price. -/
def sortsBefore (m' : GenerationMetadata) : Bool :=
  if (m.latencyTier = "low") = (m'.latencyTier = "low") then m.sortPrice ≤ m'.sortPrice
  else m.latencyTier = "low"

end GenerationMetadata

/-! ## Candidates -/

/-- The settings of the onboarding, each API key under the name of its setting. -/
structure OnboardingSettings where
  onboardingProvider : String
  onboardingModel : String
  openrouterFallbackModel : String
  apiKey : String → String

structure OnboardingProviderCandidate where
  provider : String
  model : String
  apiKey : String
deriving DecidableEq

/-- `_PROVIDER_KEYS`. -/
def providerKeys : List (String × String) := [
  ("openai", "OPENAI_API_KEY"), ("google", "GOOGLE_API_KEY"),
  ("anthropic", "ANTHROPIC_API_KEY"), ("deepseek", "DEEPSEEK_API_KEY"),
  ("groq", "GROQ_API_KEY"), ("mistral", "MISTRAL_API_KEY"),
  ("openrouter", "OPENROUTER_API_KEY")]

/-- `_DEFAULT_MODELS`. -/
def defaultModels : List (String × String) := [
  ("google", "gemini-2.5-flash"), ("openai", "gpt-4o-mini"),
  ("anthropic", "claude-3-5-haiku-latest"), ("deepseek", "deepseek-chat"),
  ("groq", "llama-3.3-70b-versatile"), ("mistral", "mistral-large-latest")]

/-- The keys of `PROVIDER_REGISTRY`. -/
def adaptedProviders : List String :=
  ["openai", "anthropic", "google", "deepseek", "groq", "openrouter", "mistral", "meta", "bedrock"]

def automaticWords : List String := ["auto", "automatic", "dynamic", "routing"]

/-- The model of a provider for which none was asked that it has. -/
def fallbackModel (models : List (RegistryEntry GenerationMetadata)) (provider requested : String) :
    String :=
  let generation := (listRegisteredModels models (some provider)).filter fun item =>
    item.metadata.generates
  match generation.insertionSort (fun a b => a.metadata.sortsBefore b.metadata) with
  | item :: _ => item.id
  | [] => (defaultModels.lookup provider).getD requested

namespace OnboardingSettings

variable (settings : OnboardingSettings)

/-- `_model_for`. -/
def modelFor (provider preferredProvider configuredModel : String) : String :=
  let requested := stripped configuredModel
  if provider = "openrouter" ∧ lower requested ∈ "" :: automaticWords then
    orElse (stripped (orElse settings.openrouterFallbackModel "openai/gpt-4o-mini"))
      "openai/gpt-4o-mini"
  else if requested ≠ "" ∧ lower requested ∉ automaticWords then
    if provider = preferredProvider then requested
    else if (resolveModel generationRegistry (some provider) (some requested)).isSome then requested
    else fallbackModel generationRegistry provider requested
  else fallbackModel generationRegistry provider requested

def preferred : String :=
  let preferred := lower (stripped (orElse settings.onboardingProvider "auto"))
  if preferred = "gemini" then "google" else preferred

def configuredModel : String := orElse settings.onboardingModel "auto"

/-- The providers that have a key, with it. -/
def available : List (String × String) :=
  providerKeys.filterMap fun entry =>
    (nonEmpty (some (stripped (settings.apiKey entry.2)))).map fun key => (entry.1, key)

def order : List String :=
  if settings.preferred ∈ automaticWords then providerKeys.map Prod.fst
  else settings.preferred :: (providerKeys.map Prod.fst).filter (· ≠ settings.preferred)

def candidates : List OnboardingProviderCandidate :=
  settings.order.filterMap fun provider =>
    ((settings.available.lookup provider).filter fun _ => provider ∈ adaptedProviders).map
      fun apiKey =>
        ⟨provider, settings.modelFor provider settings.preferred settings.configuredModel, apiKey⟩

/-- `build_onboarding_provider`: the candidates of the routed provider, and the model shown. -/
def buildOnboardingProvider : Option (List OnboardingProviderCandidate) × String :=
  match settings.candidates with
  | [] => (none, settings.configuredModel)
  | candidate :: rest => (some (candidate :: rest), candidate.model)

end OnboardingSettings

/-- The registry lists the identifier for the provider, up to case. -/
def ListsModel {M : Type} (models : List (RegistryEntry M)) (provider model : String) : Prop :=
  ∃ item ∈ listRegisteredModels models (some provider), lower item.id = normalizedModel model

instance {M : Type} (models : List (RegistryEntry M)) (provider model : String) :
    Decidable (ListsModel models provider model) :=
  inferInstanceAs (Decidable (∃ item ∈ listRegisteredModels models (some provider),
    lower item.id = normalizedModel model))

/-- Every candidate that is neither the aggregator nor preferred has a model of its own provider. -/
def SendsOwnModels (settings : OnboardingSettings) : Prop :=
  ∀ candidates ∈ settings.buildOnboardingProvider.1, ∀ candidate ∈ candidates,
    candidate.provider ≠ "openrouter" → candidate.provider ≠ settings.preferred →
      ListsModel generationRegistry candidate.provider candidate.model ∨
        defaultModels.lookup candidate.provider = some candidate.model

/-- No model is asked for, or one that the provider has, or one that contains no registered
identifier. -/
def OnboardingSettings.Suits (settings : OnboardingSettings) (provider : String) : Prop :=
  let requested := stripped settings.configuredModel
  (requested = "" ∨ lower requested ∈ automaticWords) ∨
    ListsModel generationRegistry provider requested ∨
      matchesOf generationRegistry requested = []

example :
    (OnboardingSettings.buildOnboardingProvider
      ⟨"gemini", "auto", "", fun s => if s = "OPENAI_API_KEY" then " k" else ""⟩) =
        (some [⟨"openai", "gpt-4o-mini", "k"⟩], "gpt-4o-mini") := by
  decide +kernel

/-! ## The model that a candidate carries -/

section

attribute [local irreducible] lower stripped startsWith isInfix generationRegistry

/-- A name is resolved if and only if some registered identifier is in it. -/
theorem isSome_resolveModel {M : Type} (models : List (RegistryEntry M)) (provider : Option String)
    {model : String} (h : model ≠ "") :
    (resolveModel models provider (some model)).isSome ↔ matchesOf models model ≠ [] := by
  have hmetadata := congrArg Option.isSome (resolveModel_metadata models provider h)
  rw [Option.isSome_map, Option.isSome_map] at hmetadata
  rw [hmetadata, List.isSome_head?]
  constructor
  · intro htried
    obtain ⟨item, hitem⟩ := List.exists_mem_of_ne_nil _ htried
    exact List.ne_nil_of_mem (mem_matchesOf_of_tried hitem)
  · intro hmatches htried
    simp [triedEntries, hmatches] at htried

/-- The model that is chosen by the registry is one of the provider, or its default. -/
theorem fallbackModel_listed (models : List (RegistryEntry GenerationMetadata)) {provider : String}
    (requested : String) (hdefault : (defaultModels.lookup provider).isSome)
    (hids : ∀ item ∈ models, normalizedModel item.id = lower item.id) :
    ListsModel models provider (fallbackModel models provider requested) ∨
      defaultModels.lookup provider = some (fallbackModel models provider requested) := by
  simp only [fallbackModel]
  cases hsorted : ((listRegisteredModels models (some provider)).filter fun item =>
      item.metadata.generates).insertionSort
        (fun a b => a.metadata.sortsBefore b.metadata = true) with
  | nil =>
      obtain ⟨model, hmodel⟩ := Option.isSome_iff_exists.mp hdefault
      rw [hmodel]
      exact .inr rfl
  | cons item rest =>
      have hitem : item ∈ item :: rest := List.mem_cons_self
      rw [← hsorted, List.mem_insertionSort] at hitem
      have hlisted := (List.mem_filter.mp hitem).1
      exact .inl ⟨item, hlisted, (hids item (List.mem_filter.mp hlisted).1).symm⟩

/-- What is sent to a provider that is not preferred. -/
theorem OnboardingSettings.modelFor_of_ne (settings : OnboardingSettings)
    {provider preferredProvider : String} (configuredModel : String)
    (hrouter : provider ≠ "openrouter") (hpreferred : provider ≠ preferredProvider) :
    settings.modelFor provider preferredProvider configuredModel =
      if (stripped configuredModel ≠ "" ∧ lower (stripped configuredModel) ∉ automaticWords) ∧
          matchesOf generationRegistry (stripped configuredModel) ≠ []
      then stripped configuredModel
      else fallbackModel generationRegistry provider (stripped configuredModel) := by
  simp only [modelFor, hrouter, false_and, if_false, hpreferred]
  by_cases hrequested : stripped configuredModel ≠ "" ∧
      lower (stripped configuredModel) ∉ automaticWords
  · rw [if_pos hrequested]
    simp only [hrequested, isSome_resolveModel _ _ hrequested.1, true_and, ne_eq,
      not_false_eq_true]
  · rw [if_neg hrequested, if_neg fun h => hrequested h.1]

/-! ## The candidates -/

namespace OnboardingSettings

variable {settings : OnboardingSettings}

theorem mem_providerKeys_of_lookup {provider apiKey : String}
    (h : settings.available.lookup provider = some apiKey) :
    provider ∈ providerKeys.map Prod.fst := by
  obtain ⟨before, after, havailable, _⟩ := List.lookup_eq_some_iff.mp h
  have hmem : (provider, apiKey) ∈ settings.available := by
    rw [havailable]
    exact List.mem_append_right _ List.mem_cons_self
  obtain ⟨entry, hentry, hkey⟩ := List.mem_filterMap.mp hmem
  obtain ⟨key, _, heq⟩ := Option.map_eq_some_iff.mp hkey
  obtain rfl : entry.1 = provider := congrArg Prod.fst heq
  exact List.mem_map_of_mem hentry

/-- Every provider with a key is tried. -/
theorem mem_order {provider : String} (h : provider ∈ providerKeys.map Prod.fst) :
    provider ∈ settings.order := by
  unfold order
  split_ifs
  · exact h
  · by_cases hpreferred : provider = settings.preferred
    · exact List.mem_cons.mpr (.inl hpreferred)
    · exact List.mem_cons_of_mem _ (List.mem_filter.mpr ⟨h, by simpa using hpreferred⟩)

theorem mem_adaptedProviders {provider : String} (h : provider ∈ providerKeys.map Prod.fst) :
    provider ∈ adaptedProviders :=
  (by decide : ∀ p ∈ providerKeys.map Prod.fst, p ∈ adaptedProviders) provider h

theorem mem_candidates {candidate : OnboardingProviderCandidate} :
    candidate ∈ settings.candidates ↔
      settings.available.lookup candidate.provider = some candidate.apiKey ∧
        candidate.model =
          settings.modelFor candidate.provider settings.preferred settings.configuredModel := by
  unfold candidates
  rw [List.mem_filterMap]
  constructor
  · intro ⟨provider, _, hcandidate⟩
    obtain ⟨apiKey, hkey, rfl⟩ := Option.map_eq_some_iff.mp hcandidate
    exact ⟨(Option.filter_eq_some_iff.mp hkey).1, rfl⟩
  · intro ⟨hkey, hmodel⟩
    have hprovider := mem_providerKeys_of_lookup hkey
    refine ⟨candidate.provider, mem_order hprovider, ?_⟩
    simp only [hkey, mem_adaptedProviders hprovider, decide_true, Option.filter_some, if_true,
      Option.map_some, ← hmodel]

theorem mem_buildOnboardingProvider {candidate : OnboardingProviderCandidate} :
    (∃ candidates ∈ settings.buildOnboardingProvider.1, candidate ∈ candidates) ↔
      candidate ∈ settings.candidates := by
  unfold buildOnboardingProvider
  cases settings.candidates with
  | nil => simp
  | cons first rest => simp

end OnboardingSettings

/-! ## Models of other providers -/

theorem normalizedModel_generationRegistry :
    ∀ item ∈ generationRegistry, normalizedModel item.id = lower item.id := by
  decide +kernel

theorem isSome_lookup_defaultModels {provider : String}
    (hprovider : provider ∈ providerKeys.map Prod.fst) (hrouter : provider ≠ "openrouter") :
    (defaultModels.lookup provider).isSome :=
  (by decide : ∀ p ∈ providerKeys.map Prod.fst, p ≠ "openrouter" →
    (defaultModels.lookup p).isSome) provider hprovider hrouter

/-- The default models are in the registry. -/
theorem listsModel_of_default {provider model : String}
    (h : defaultModels.lookup provider = some model) :
    ListsModel generationRegistry provider model := by
  have hlisted : ∀ e ∈ defaultModels, ListsModel generationRegistry e.1 e.2 := by
    decide +kernel
  obtain ⟨before, after, hmodels, _⟩ := List.lookup_eq_some_iff.mp h
  refine hlisted (provider, model) ?_
  rw [hmodels]
  exact List.mem_append_right _ List.mem_cons_self

/-- Each provider that failover can reach has a model of its own if and only if the configured
model suits each of them. -/
theorem sendsOwnModels_iff (settings : OnboardingSettings) :
    SendsOwnModels settings ↔
      ∀ provider, (settings.available.lookup provider).isSome → provider ≠ "openrouter" →
        provider ≠ settings.preferred → settings.Suits provider := by
  constructor
  · intro h provider hkey hrouter hpreferred
    obtain ⟨apiKey, hkey⟩ := Option.isSome_iff_exists.mp hkey
    have hmodel := settings.modelFor_of_ne settings.configuredModel hrouter hpreferred
    have hcandidate : ⟨provider, settings.modelFor provider settings.preferred
        settings.configuredModel, apiKey⟩ ∈ settings.candidates :=
      OnboardingSettings.mem_candidates.mpr ⟨hkey, rfl⟩
    obtain ⟨candidates, hcandidates, hmem⟩ :=
      OnboardingSettings.mem_buildOnboardingProvider.mpr hcandidate
    have hlisted := (h candidates hcandidates _ hmem hrouter hpreferred).elim id
      listsModel_of_default
    unfold OnboardingSettings.Suits
    by_cases hsent : (stripped settings.configuredModel ≠ "" ∧
        lower (stripped settings.configuredModel) ∉ automaticWords) ∧
        matchesOf generationRegistry (stripped settings.configuredModel) ≠ []
    · rw [if_pos hsent] at hmodel
      rw [hmodel] at hlisted
      exact .inr (.inl hlisted)
    · tauto
  · intro h candidates hcandidates candidate hmem hrouter hpreferred
    obtain ⟨hkey, hmodel⟩ := OnboardingSettings.mem_candidates.mp
      (OnboardingSettings.mem_buildOnboardingProvider.mp ⟨candidates, hcandidates, hmem⟩)
    have hsuits := h candidate.provider (Option.isSome_iff_exists.mpr ⟨_, hkey⟩) hrouter hpreferred
    rw [settings.modelFor_of_ne _ hrouter hpreferred] at hmodel
    rw [hmodel]
    split_ifs with hsent
    · unfold OnboardingSettings.Suits at hsuits
      exact .inl (by tauto)
    · exact fallbackModel_listed _ _ (isSome_lookup_defaultModels
        (OnboardingSettings.mem_providerKeys_of_lookup hkey) hrouter)
        normalizedModel_generationRegistry

end

/-- A model of the preferred provider goes to another one: its identifier is in the registry. -/
theorem sendsOwnModels_fails_at_gpt4o :
    ¬ SendsOwnModels ⟨"openai", "gpt-4o", "openai/gpt-4o-mini",
      fun s => if s = "OPENAI_API_KEY" ∨ s = "ANTHROPIC_API_KEY" then "key" else ""⟩ := by
  intro h
  have hcandidate : ∃ candidates ∈ (OnboardingSettings.buildOnboardingProvider ⟨"openai", "gpt-4o",
      "openai/gpt-4o-mini", fun s =>
        if s = "OPENAI_API_KEY" ∨ s = "ANTHROPIC_API_KEY" then "key" else ""⟩).1,
      ⟨"anthropic", "gpt-4o", "key"⟩ ∈ candidates := by
    decide +kernel
  obtain ⟨candidates, hcandidates, hmem⟩ := hcandidate
  have hforeign : ¬ ListsModel generationRegistry "anthropic" "gpt-4o" ∧
      defaultModels.lookup "anthropic" ≠ some "gpt-4o" := by
    decide +kernel
  exact (h candidates hcandidates _ hmem (by decide) (by decide +kernel)).elim
    hforeign.1 hforeign.2

end Zyntry
