import Zyntry.CallCosts
import Zyntry.Redaction
import Mathlib.Data.List.MinMax

/-!
# The provider of a chat completion

The endpoint decides under which provider and model a chat completion is priced, from
the request and from the router. Which adapter is called is decided in the retrieval
pipeline, from the adapter the endpoint selected, the runtime and the platform keys.
What an adapter answers is an input of the model.
-/

namespace Zyntry

open Python

/-! ## Adapters and platform keys -/

/-- The adapters of the retrieval pipeline. -/
inductive LlmProvider where
  | openai
  | anthropic
deriving DecidableEq, Repr

def LlmProvider.name : LlmProvider → String
  | .openai => "openai"
  | .anthropic => "anthropic"

/-- `get_llm_provider`, which raises for every other name. -/
def getLlmProvider (providerName : String) : Option LlmProvider :=
  if lower providerName = "openai" then some .openai
  else if lower providerName = "anthropic" then some .anthropic
  else none

/-- The keys of the platform. -/
structure Settings where
  openaiApiKey : String := ""
  anthropicApiKey : String := ""
  googleApiKey : String := ""
  deepseekApiKey : String := ""
  openrouterApiKey : String := ""
  groqApiKey : String := ""
  azureOpenaiKey : String := ""

def Settings.getApiKey (s : Settings) (providerName : String) : Option String :=
  [("openai", s.openaiApiKey), ("anthropic", s.anthropicApiKey), ("google", s.googleApiKey),
   ("deepseek", s.deepseekApiKey), ("openrouter", s.openrouterApiKey), ("groq", s.groqApiKey),
   ("azure_openai", s.azureOpenaiKey)].lookup (lower providerName)

/-- `_resolve_llm_provider`, from the provider of a runtime. -/
def Settings.resolveLlmProvider (s : Settings) (providerName : String) : Option LlmProvider :=
  if providerName = "" then none
  else if (s.getApiKey providerName).getD "" = "" then none
  else getLlmProvider providerName

/-- `_resolve_llm_provider_from_settings`. -/
def Settings.defaultLlmProvider (s : Settings) : Option LlmProvider :=
  if s.openaiApiKey ≠ "" then some .openai
  else if s.anthropicApiKey ≠ "" then some .anthropic
  else none

def Settings.platformKey (s : Settings) : LlmProvider → String
  | .openai => s.openaiApiKey
  | .anthropic => s.anthropicApiKey

theorem getLlmProvider_eq_some_iff (providerName : String) (p : LlmProvider) :
    getLlmProvider providerName = some p ↔ lower providerName = p.name := by
  unfold getLlmProvider
  split_ifs with hopenai hanthropic
  · rw [hopenai]
    cases p <;> decide
  · rw [hanthropic]
    cases p <;> decide
  · cases p
    · simpa [LlmProvider.name] using hopenai
    · simpa [LlmProvider.name] using hanthropic

theorem Settings.resolveLlmProvider_eq_some_iff (s : Settings) (providerName : String)
    (p : LlmProvider) : s.resolveLlmProvider providerName = some p ↔
      lower providerName = p.name ∧ s.platformKey p ≠ "" := by
  have hkey : lower providerName = p.name →
      (s.getApiKey providerName).getD "" = s.platformKey p := by
    intro h
    cases p <;>
      simp [Settings.getApiKey, Settings.platformKey, h, LlmProvider.name, List.lookup_cons]
  unfold Settings.resolveLlmProvider
  constructor
  · intro h
    split_ifs at h with hempty hset
    have hname := (getLlmProvider_eq_some_iff providerName p).mp h
    exact ⟨hname, fun hp => hset ((hkey hname).trans hp)⟩
  · rintro ⟨hname, hset⟩
    have hempty : providerName ≠ "" := by
      rintro rfl
      revert hname
      cases p <;> decide
    rw [if_neg hempty, if_neg fun hp => hset ((hkey hname).symm.trans hp)]
    exact (getLlmProvider_eq_some_iff providerName p).mpr hname

/-! ## Tokens and priced calls -/

/-- `TokenEngine.estimate_text`. -/
def estimateText (text : String) : ℕ :=
  if text = "" then 0 else max 1 ((text.length + 3) / 4)

theorem estimateText_pos {text : String} (h : text ≠ "") : 0 < estimateText text := by
  rw [estimateText, if_neg h]
  exact lt_of_lt_of_le Nat.one_pos (le_max_left _ _)

/-- `TokenEngine.normalize_usage` of a usage that the pipeline has normalised before. -/
def CompletionUsage.normalize (reported : CompletionUsage) (input output : ℕ) :
    CompletionUsage :=
  { reported with
    inputTokens := if reported.inputTokens = 0 then input else reported.inputTokens
    outputTokens := if reported.outputTokens = 0 then output else reported.outputTokens }

/-- The arguments of one call of `calculate_cost`. -/
structure PricingCall where
  provider : String
  model : String
  quantities : Quantities
deriving DecidableEq, Repr

def PricingCall.cost (k : PricingCall) (d : Db) (now : ℕ) : ℤ :=
  (d.calculate k.provider (some k.model) k.quantities now).amount

/-- What the output tokens add to the cost. -/
def PricingCall.outputCost (k : PricingCall) (d : Db) (now : ℕ) : ℤ :=
  d.operationCost k.provider (some k.model) "output_tokens" k.quantities.outputTokens now

/-- The output tokens are charged for separately. -/
theorem PricingCall.cost_eq_outputCost_add (k : PricingCall) (d : Db) (now : ℕ) :
    k.cost d now = k.outputCost d now +
      PricingCall.cost { k with quantities := { k.quantities with outputTokens := 0 } } d now := by
  unfold PricingCall.cost PricingCall.outputCost
  rw [Db.calculate_amount, Db.calculate_amount]
  simp only [Quantities.operations, List.map_cons, List.map_nil, List.sum_cons, List.sum_nil,
    Db.operationCost_zero]
  ring

/-- A rule that charges one credit for every output token. -/
def outputTokenRule : PricingRule where
  id := ⟨"price-1"⟩
  provider := "*"
  operation := "output_tokens"
  model := none
  pricePerUnit := 1
  markup := 0
  effectiveFrom := 0
  effectiveUntil := none
  version := 1
  active := true
  createdAt := 0

theorem operationCost_outputTokenRule (provider model : String) (quantity now : ℕ) :
    Db.operationCost { pricingRules := [outputTokenRule] } provider (some model) "output_tokens"
      quantity now = quantity * 10000 := by
  have hrule : Db.priceRule { pricingRules := [outputTokenRule] } provider (some model)
      "output_tokens" now = some outputTokenRule := by
    simp [Db.priceRule, Db.rules, outputTokenRule, PricingRule.inEffect]
  have hmoney : money (quantity : ℚ) = quantity * 10000 := by
    have hdecimal : toDecimal (quantity * 10000) = (quantity : ℚ) := by
      simp [toDecimal]
    rw [← hdecimal, money_toDecimal]
  rw [Db.operationCost, hrule, Option.map_some, Option.getD_some, PricingRule.customerCost]
  simp [outputTokenRule, hmoney, toDecimal]

/-! ## The request -/

structure ChatRuntime where
  provider : String
  model : String
  routingStrategy : String := ""
  config : Json := .obj []
  piiRedaction : Bool := true

/-- `ChatCompletionRequest`, with the text of its last message. -/
structure ChatRequest where
  provider : String := "openai"
  model : String
  question : String
  stream : Bool := false
  topK : ℕ := 5

/-- A model that a provider lists, with its score for the request. -/
structure ScoredModel where
  id : String
  score : ℚ

/-- `redact_pii`, which puts marks in the place of some parts of a text. -/
structure PiiRedaction where
  apply : String → String
  apply_ne_empty : ∀ {s : String}, s ≠ "" → apply s ≠ ""

/-- A chat completion that is answered: `runtime` is the one of its `runtime_id`, and
`projectRuntime` the first one of its project. -/
structure ChatCompletion where
  request : ChatRequest
  runtime : Option ChatRuntime
  projectRuntime : Option ChatRuntime
  settings : Settings
  providerKey : LlmProvider → Option String
  models : LlmProvider → List ScoredModel
  reply : LlmProvider → String → String × CompletionUsage
  outputViolations : String → List String
  redactPii : PiiRedaction

namespace ChatCompletion

variable (c : ChatCompletion)

/-! ## The effective pair -/

/-- The runtime, if `dynamic_chat_routing` holds. -/
def dynamicRuntime : Option ChatRuntime :=
  c.runtime.filter fun r => dynamicRoutingEnabled r.config &&
    decide (lower (String.ofList (strip c.request.model.toList)) ∈
      ["auto", "automatic", "dynamic"])

/-- `provider_keys`, where the empty key stands for a provider without a key. -/
def routingKey (p : LlmProvider) : String :=
  orElse ((c.providerKey p).getD "") (c.settings.platformKey p)

/-- The order in which the routing goal tries the providers. -/
def orderedProviders (r : ChatRuntime) : List LlmProvider :=
  let strategy := lower (String.ofList (strip (orElse r.routingStrategy "balanced").toList))
  if strategy = "quality_optimized" then [.anthropic, .openai] else [.openai, .anthropic]

/-- `ModelRouter.route`: the first of the candidates with the highest score. -/
def route (r : ChatRuntime) : Option (LlmProvider × ScoredModel) :=
  let available := (orderedProviders r).filter fun p => c.routingKey p ≠ ""
  (available.flatMap fun p => (c.models p).map fun m => (p, m)).argmax fun m => m.2.score

/-- `effective_provider` and `effective_model`. -/
def effective : String × String :=
  match c.dynamicRuntime with
  | none => (c.request.provider, c.request.model)
  | some r =>
      match c.route r with
      | some m => (m.1.name, m.2.id)
      | none => (orElse r.provider (orElse c.request.provider "openai"), orElse r.model "gpt-4o")

/-- `selected_llm_provider`. -/
def selectedLlmProvider : Option LlmProvider := do
  let r ← c.dynamicRuntime
  let m ← c.route r
  if c.routingKey m.1 = "" then none else getLlmProvider m.1.name

/-! ## `RAGPipeline.query` -/

def pipelineRuntime : Option ChatRuntime := c.runtime.or c.projectRuntime

def llmProvider : Option LlmProvider :=
  c.selectedLlmProvider.or
    ((c.pipelineRuntime.bind fun r => c.settings.resolveLlmProvider r.provider).or
      c.settings.defaultLlmProvider)

def modelName : String :=
  orElse c.effective.2 ((c.pipelineRuntime.map ChatRuntime.model).getD "gpt-4o")

/-- The adapter that is called, and the model it is called with. -/
def called : Option (LlmProvider × String) := c.llmProvider.map fun p => (p, c.modelName)

def unconfiguredAnswer : String :=
  "No LLM provider configured. Please configure an LLM provider in your runtime settings."

/-- The answer of the pipeline and its usage. It has no search service, so that an answer has
neither sources nor reranked items. -/
def response : String × CompletionUsage :=
  match c.called with
  | some (p, model) => c.reply p model
  | none => (unconfiguredAnswer, { inputTokens := 0, outputTokens := 0, source := "unavailable" })

/-! ## What is priced -/

/-- `GuardrailService.enforce`; a streamed answer is sent before it could be checked. -/
def enforced (answer : String) : String :=
  if c.request.stream ∨ c.outputViolations answer = [] then answer
  else "[GUARDRAIL VIOLATIONS: " ++ ", ".intercalate (c.outputViolations answer) ++ "]\n\n" ++
    answer

def answerText : String :=
  if (c.runtime.map ChatRuntime.piiRedaction).getD false then
    c.redactPii.apply (c.enforced c.response.1)
  else c.enforced c.response.1

def usage : CompletionUsage :=
  c.response.2.normalize (estimateText c.request.question) (estimateText c.answerText)

/-- How the estimate is priced, which is reserved before the pipeline runs. -/
def reservation : PricingCall where
  provider := c.effective.1
  model := c.effective.2
  quantities :=
    { inputTokens := estimateText c.request.question
      outputTokens := 2048
      vectorSearches := max 1 c.request.topK
      requests := 1 }

/-- How the answer is priced. -/
def settlement : PricingCall where
  provider := c.effective.1
  model := c.effective.2
  quantities :=
    { inputTokens := c.usage.inputTokens
      outputTokens := c.usage.outputTokens
      vectorSearches := 0
      reranks := 0
      requests := 1 }

/-- Both prices are those of the adapter and the model that were called, and output tokens
cost nothing, at whatever prices, if there was no call. -/
def BillsCalled : Prop :=
  match c.called with
  | some (p, model) =>
      ∀ k ∈ [c.reservation, c.settlement], k.provider = p.name ∧ k.model = model
  | none => ∀ (d : Db) (now : ℕ), c.settlement.outputCost d now = 0

end ChatCompletion

end Zyntry
