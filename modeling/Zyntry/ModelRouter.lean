import Zyntry.Pricing
import Zyntry.PythonJson

/-!
# Calling a model

A router object tries candidates in order until one answers. It keeps the attempts
of its current call, and of the candidate that answered last it keeps the catalogue
entry, from which the invocation is priced when the pricing rules give nothing.
What a provider does when it is called is an input of the model.
-/

namespace Zyntry

open Python

/-! ## Providers and models -/

/-- The keys of `PROVIDER_REGISTRY`. -/
inductive Provider where
  | openai
  | anthropic
  | google
  | deepseek
  | groq
  | openrouter
  | mistral
  | metaAi
  | bedrock
deriving DecidableEq, Repr

def Provider.value : Provider → String
  | .openai => "openai"
  | .anthropic => "anthropic"
  | .google => "google"
  | .deepseek => "deepseek"
  | .groq => "groq"
  | .openrouter => "openrouter"
  | .mistral => "mistral"
  | .metaAi => "meta"
  | .bedrock => "bedrock"

/-- A model identifier: not blank, and without blanks around it. -/
@[ext] structure ModelName where
  value : String
  stripped : strip value.toList = value.toList
  nonempty : value.toList ≠ []
deriving DecidableEq

/-- `item.strip()` for a model name out of a list, which drops blank names. -/
def ModelName.ofString (s : String) : Option ModelName :=
  if h : strip s.toList = [] then none
  else some ⟨String.ofList (strip s.toList), by simp [strip_strip], by simpa using h⟩

@[simp] theorem ModelName.ofString_value (m : ModelName) :
    ModelName.ofString m.value = some m := by
  unfold ModelName.ofString
  rw [dif_neg fun h => m.nonempty (m.stripped ▸ h)]
  simp only [m.stripped, String.ofList_toList]

/-- The part of `ModelInfo` that prices a call; a candidate carries it along. -/
structure Candidate where
  provider : Provider
  model : ModelName
  rates : Rates
deriving DecidableEq

/-- `model_info_for`: the registry of public model data. -/
abbrev Catalogue := Provider → ModelName → Rates

def Catalogue.candidate (catalogue : Catalogue) (provider : Provider) (model : ModelName) :
    Candidate := ⟨provider, model, catalogue provider model⟩

/-! ## Usage -/

/-- The usage of one call after `TokenEngine.normalize_usage`. -/
structure CompletionUsage where
  inputTokens : ℕ
  outputTokens : ℕ
  cachedTokens : ℕ := 0
  source : String := "estimated"
deriving DecidableEq, Repr

/-- `TokenEngine.aggregate`. -/
def aggregate (usages : List CompletionUsage) : CompletionUsage where
  inputTokens := (usages.map CompletionUsage.inputTokens).sum
  outputTokens := (usages.map CompletionUsage.outputTokens).sum
  cachedTokens := (usages.map CompletionUsage.cachedTokens).sum
  source :=
    match (usages.map CompletionUsage.source).dedup with
    | [] => "estimated"
    | [source] => source
    | _ => "mixed"

/-! ## The router -/

/-- What a provider call comes to. An exception is `recorded` if it is raised
after the router has noted the candidate, and `streamed` if text was sent on
before it. -/
inductive CallOutcome where
  | completed (text : String) (usage : CompletionUsage)
  | failed (recorded streamed : Bool) (error : String)
deriving DecidableEq, Repr

structure Attempt where
  candidate : Candidate
  outcome : CallOutcome
deriving DecidableEq

def Attempt.usage (a : Attempt) : Option CompletionUsage :=
  match a.outcome with
  | .completed _ usage => some usage
  | .failed _ _ _ => none

structure Router where
  lastInvokedCandidate : Option Candidate := none
  lastUsage : Option CompletionUsage := none
  lastAttempts : List Attempt := []

def Router.record (r : Router) (c : Candidate) (outcome : CallOutcome) : Router :=
  match outcome with
  | .completed _ usage =>
      { lastInvokedCandidate := some c
        lastUsage := some usage
        lastAttempts := r.lastAttempts ++ [⟨c, outcome⟩] }
  | .failed recorded _ _ =>
      { r with
        lastInvokedCandidate := if recorded then some c else r.lastInvokedCandidate
        lastAttempts := r.lastAttempts ++ [⟨c, outcome⟩] }

/-- The text and the error of a call, and the candidate that answered. -/
structure Reply where
  text : String
  answered : Option Candidate
  error : String

/-- The loop over the candidates, where `respond n` is what the `n`-th call comes
to and `exhausted` words the error when none of them has answered. -/
def tryCandidates (respond : ℕ → CallOutcome) (exhausted : String → String) :
    ℕ → String → List Candidate → Router → Router × Reply
  | _, lastError, [], r => (r, ⟨"", none, exhausted lastError⟩)
  | n, _, c :: cs, r =>
      match respond n with
      | .completed text _ => (r.record c (respond n), ⟨text, some c, ""⟩)
      | .failed _ streamed error =>
          -- a second answer must not follow the visible part of the first
          if streamed then (r.record c (respond n), ⟨"", none, error⟩)
          else tryCandidates respond exhausted (n + 1) error cs (r.record c (respond n))

/-- `_invoke_with_fallback`, from the candidates that are eligible. -/
def invokeWithFallback (candidates : List Candidate) (respond : ℕ → CallOutcome) :
    Router × Reply :=
  if candidates = [] then
    ({}, ⟨"", none, "No healthy provider is currently available for this request"⟩)
  else tryCandidates respond id 0 "" candidates {}

/-- `invoke_fixed`. -/
def invokeFixed (catalogue : Catalogue) (hasKey : Provider → Bool) (provider : Provider)
    (models : List String) (respond : ℕ → CallOutcome) : Router × Reply :=
  if hasKey provider then
    tryCandidates respond
      (fun lastError => if lastError = "" then "No configured model was available" else lastError)
      0 "" ((models.filterMap ModelName.ofString).map (catalogue.candidate provider)) {}
  else
    ({}, ⟨"", none, "No credentials are configured for provider '" ++ provider.value ++ "'"⟩)

end Zyntry
