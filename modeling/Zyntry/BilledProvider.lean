import Zyntry.ChatPricing

/-!
# Billing the provider that answers

The endpoint and the pipeline name the same provider and model if the router has found a
model, or else if the platform keys and the runtime lead to the provider that the request
names. In no other case is the answer billed as it should be.
-/

namespace Zyntry

open Python

/-- The adapter that the pipeline finds by itself for a provider: the runtime's own one, or
that of the first platform key. -/
def Settings.PlatformChoice (s : Settings) (runtimeProvider : Option String) (provider : String) :
    Prop :=
  (provider = "openai" ∧ s.openaiApiKey ≠ "" ∧
    ¬(runtimeProvider.map lower = some "anthropic" ∧ s.anthropicApiKey ≠ "")) ∨
  (provider = "anthropic" ∧ s.anthropicApiKey ≠ "" ∧
    (runtimeProvider.map lower = some "anthropic" ∨ s.openaiApiKey = ""))

theorem Settings.platformChoice_iff (s : Settings) (runtimeProvider : Option String)
    (provider : String) : s.PlatformChoice runtimeProvider provider ↔
      ∃ p, (runtimeProvider.bind s.resolveLlmProvider).or s.defaultLlmProvider = some p ∧
        provider = p.name := by
  -- the runtime's provider counts only if it is an adapter's and has a key
  have hbind : ∀ p, runtimeProvider.bind s.resolveLlmProvider = some p ↔
      runtimeProvider.map lower = some p.name ∧ s.platformKey p ≠ "" := by
    intro p
    cases runtimeProvider with
    | none => simp
    | some providerName => simp [s.resolveLlmProvider_eq_some_iff providerName p]
  have hopenai := hbind .openai
  have hanthropic := hbind .anthropic
  simp only [LlmProvider.name, Settings.platformKey] at hopenai hanthropic
  unfold Settings.PlatformChoice
  cases hown : runtimeProvider.bind s.resolveLlmProvider with
  | none =>
      rw [hown] at hopenai hanthropic
      simp only [reduceCtorEq, false_iff, not_and, not_not] at hopenai hanthropic
      rw [Option.none_or, Settings.defaultLlmProvider]
      split_ifs with hopenaiKey hanthropicKey
      · simp only [Option.some.injEq, exists_eq_left', LlmProvider.name]
        tauto
      · simp only [Option.some.injEq, exists_eq_left', LlmProvider.name]
        tauto
      · simp only [false_and, exists_false, iff_false]
        tauto
  | some p =>
      rw [hown] at hopenai hanthropic
      simp only [Option.some_or, Option.some.injEq, exists_eq_left']
      cases p with
      | openai =>
          obtain ⟨hlower, hkey⟩ := hopenai.mp rfl
          simp only [hlower, LlmProvider.name]
          simp [hkey]
      | anthropic =>
          obtain ⟨hlower, hkey⟩ := hanthropic.mp rfl
          simp only [hlower, LlmProvider.name]
          simp [hkey]

namespace ChatCompletion

variable (c : ChatCompletion)

theorem route_routingKey {r : ChatRuntime} {m : LlmProvider × ScoredModel}
    (h : c.route r = some m) : c.routingKey m.1 ≠ "" := by
  have hmem := List.argmax_mem (Option.mem_def.mpr h)
  obtain ⟨p, hp, hm⟩ := List.mem_flatMap.mp hmem
  obtain ⟨model, -, rfl⟩ := List.mem_map.mp hm
  simpa using (List.mem_filter.mp hp).2

/-- The adapter of the model that the router has found is handed to the pipeline. -/
theorem selectedLlmProvider_eq {r : ChatRuntime} (hr : c.dynamicRuntime = some r) :
    c.selectedLlmProvider = (c.route r).map Prod.fst := by
  cases hm : c.route r with
  | none => simp [selectedLlmProvider, hr, hm]
  | some m =>
      have hkey := c.route_routingKey hm
      have hname : getLlmProvider m.1.name = some m.1 :=
        (getLlmProvider_eq_some_iff m.1.name m.1).mpr (by cases m.1 <;> decide)
      simp [selectedLlmProvider, hr, hm, hkey, hname]

theorem enforced_ne_empty {answer : String} (h : answer ≠ "") : c.enforced answer ≠ "" := by
  by_cases hkept : c.request.stream ∨ c.outputViolations answer = []
  · rw [enforced, if_pos hkept]
    exact h
  · rw [enforced, if_neg hkept, Ne, String.append_eq_empty_iff]
    exact fun hempty => h hempty.2

theorem answerText_ne_empty (h : c.response.1 ≠ "") : c.answerText ≠ "" := by
  unfold answerText
  split_ifs
  · exact c.redactPii.apply_ne_empty (c.enforced_ne_empty h)
  · exact c.enforced_ne_empty h

/-- The text that stands for an answer is priced like one. -/
theorem outputTokens_pos_of_not_called (h : c.called = none) :
    0 < c.settlement.quantities.outputTokens := by
  have hresponse : c.response =
      (unconfiguredAnswer, { inputTokens := 0, outputTokens := 0, source := "unavailable" }) := by
    unfold response
    rw [h]
  have htext : c.answerText ≠ "" := c.answerText_ne_empty (by rw [hresponse]; decide)
  have htokens : c.settlement.quantities.outputTokens = estimateText c.answerText := by
    simp [settlement, usage, CompletionUsage.normalize, hresponse]
  rw [htokens]
  exact estimateText_pos htext

theorem not_billsCalled_of_not_called (h : c.called = none) : ¬c.BillsCalled := by
  intro hbills
  unfold BillsCalled at hbills
  rw [h] at hbills
  have hcost := hbills { pricingRules := [outputTokenRule] } 0
  rw [PricingCall.outputCost, operationCost_outputTokenRule] at hcost
  have hpos := c.outputTokens_pos_of_not_called h
  omega

/-- Both prices are those of the effective pair. -/
theorem billsCalled_iff_effective :
    c.BillsCalled ↔ ∃ p, c.llmProvider = some p ∧ c.effective = (p.name, c.modelName) := by
  cases hp : c.llmProvider with
  | none =>
      have hcalled : c.called = none := by rw [called, hp, Option.map_none]
      simp [c.not_billsCalled_of_not_called hcalled]
  | some p =>
      have hcalled : c.called = some (p, c.modelName) := by rw [called, hp, Option.map_some]
      unfold BillsCalled
      rw [hcalled]
      simp [reservation, settlement, Prod.ext_iff]

/-- The condition under which the billed pair is the called one. -/
def Agreed : Prop :=
  match c.dynamicRuntime with
  | none =>
      c.settings.PlatformChoice (c.pipelineRuntime.map ChatRuntime.provider) c.request.provider ∧
        (c.request.model ≠ "" ∨ ∃ r, c.pipelineRuntime = some r ∧ r.model = "")
  | some r =>
      match c.route r with
      | some m => m.2.id ≠ "" ∨ r.model = ""
      | none => c.settings.PlatformChoice (some r.provider)
          (orElse r.provider (orElse c.request.provider "openai"))

theorem effective_of_routed {r : ChatRuntime} {m : LlmProvider × ScoredModel}
    (hr : c.dynamicRuntime = some r) (hm : c.route r = some m) :
    c.effective = (m.1.name, m.2.id) := by
  simp only [effective, hr, hm]

theorem effective_of_unrouted {r : ChatRuntime} (hr : c.dynamicRuntime = some r)
    (hm : c.route r = none) : c.effective =
      (orElse r.provider (orElse c.request.provider "openai"), orElse r.model "gpt-4o") := by
  simp only [effective, hr, hm]

theorem pipelineRuntime_of_dynamic {r : ChatRuntime} (hr : c.dynamicRuntime = some r) :
    c.pipelineRuntime = some r := by
  have hruntime : c.runtime = some r := (Option.filter_eq_some_iff.mp hr).1
  rw [pipelineRuntime, hruntime, Option.some_or]

theorem llmProvider_of_unselected (h : c.selectedLlmProvider = none) (provider : String) :
    c.settings.PlatformChoice (c.pipelineRuntime.map ChatRuntime.provider) provider ↔
      ∃ p, c.llmProvider = some p ∧ provider = p.name := by
  rw [Settings.platformChoice_iff, llmProvider, h, Option.none_or, Option.bind_map]
  rfl

theorem billsCalled_iff_agreed : c.BillsCalled ↔ c.Agreed := by
  rw [c.billsCalled_iff_effective]
  cases hr : c.dynamicRuntime with
  | none =>
      have heffective : c.effective = (c.request.provider, c.request.model) := by
        simp only [effective, hr]
      have hselected : c.selectedLlmProvider = none := by
        simp [selectedLlmProvider, hr]
      have hmodel : c.request.model = c.modelName ↔
          c.request.model ≠ "" ∨ ∃ r, c.pipelineRuntime = some r ∧ r.model = "" := by
        rw [modelName, heffective, orElse_eq_self_iff]
        cases c.pipelineRuntime <;> simp
      simp only [Agreed, hr]
      rw [c.llmProvider_of_unselected hselected, ← hmodel, heffective]
      simp only [Prod.mk.injEq, ← and_assoc, exists_and_right]
  | some r =>
      have hruntime := c.pipelineRuntime_of_dynamic hr
      have hselected := c.selectedLlmProvider_eq hr
      cases hm : c.route r with
      | some m =>
          have hprovider : c.llmProvider = some m.1 := by
            rw [llmProvider, hselected, hm, Option.map_some, Option.some_or]
          have hmodel : m.2.id = c.modelName ↔ m.2.id ≠ "" ∨ r.model = "" := by
            rw [modelName, c.effective_of_routed hr hm, hruntime, orElse_eq_self_iff]
            rfl
          simp only [Agreed, hr, hm]
          rw [hprovider, c.effective_of_routed hr hm, ← hmodel]
          simp
      | none =>
          have hunselected : c.selectedLlmProvider = none := by rw [hselected, hm, Option.map_none]
          have hmodel : orElse r.model "gpt-4o" = c.modelName := by
            rw [modelName, c.effective_of_unrouted hr hm, orElse_eq_self_iff]
            exact Or.inl (orElse_ne_empty (Or.inr (by decide)))
          have hchoice := c.llmProvider_of_unselected hunselected
            (orElse r.provider (orElse c.request.provider "openai"))
          rw [hruntime, Option.map_some] at hchoice
          simp only [Agreed, hr, hm]
          rw [hchoice, c.effective_of_unrouted hr hm, ← hmodel]
          simp only [Prod.mk.injEq, and_true]

end ChatCompletion

/-! ## The other provider's key -/

/-- The request names Anthropic, and the platform has a key for OpenAI only. -/
def anthropicWithoutKey : ChatCompletion where
  request := { provider := "anthropic", model := "claude-3-5-sonnet", question := "Hi" }
  runtime := none
  projectRuntime := none
  settings := { openaiApiKey := "sk-platform" }
  providerKey := fun _ => none
  models := fun _ => []
  reply := fun _ _ => ("Hello.", { inputTokens := 1, outputTokens := 2, source := "provider" })
  outputViolations := fun _ => []
  redactPii := ⟨id, id⟩

theorem openai_billed_as_anthropic :
    anthropicWithoutKey.called = some (.openai, "claude-3-5-sonnet") ∧
      anthropicWithoutKey.settlement.provider = "anthropic" ∧
      ¬anthropicWithoutKey.BillsCalled := by
  have hcalled : anthropicWithoutKey.called = some (.openai, "claude-3-5-sonnet") := by
    decide +kernel
  refine ⟨hcalled, rfl, fun hbills => ?_⟩
  unfold ChatCompletion.BillsCalled at hbills
  rw [hcalled] at hbills
  have hsettled := hbills anthropicWithoutKey.settlement (by simp)
  exact absurd hsettled.1 (by decide +kernel)

end Zyntry
