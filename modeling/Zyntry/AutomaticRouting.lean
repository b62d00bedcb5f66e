import Zyntry.CandidateStreams
import Zyntry.ContextTermination
import Zyntry.TextPieces
import Mathlib.Data.List.Sort

/-!
# Automatic routing

A model is routed to only if its context holds the messages as they came in, the output that is
asked for and 4096 tokens more. The messages that are sent have been fitted to another model, the
configured one; fitting never makes them longer.
-/

namespace Zyntry

open Python TokenEngine

/-! ## Models for text -/

/-- The letter that a cased letter of an ASCII pattern stands for with `re.IGNORECASE`. -/
def foldLetter (c : Char) : Char :=
  if c = '\u0130' ∨ c = '\u0131' then 'i'
  else if c = '\u017F' then 's'
  else if c = '\u212A' then 'k'
  else c.toLower

def isNameSeparator (c : Char) : Bool := c ∈ ['/', '_', '.', ':', '-']

/-- The alternatives of `_NON_GENERATION_MODEL`. -/
def nonGenerationWords : List Regex :=
  let dash := Regex.optional (· ∈ ['-', '_'])
  (["embedding", "embed", "rerank", "reranker", "moderation", "moderator"].map
      fun word => Regex.word word.toList) ++
    [.word "prompt".toList ++ dash ++ .word "guard".toList,
      .word "safe".toList ++ dash ++ .word "guard".toList] ++
    (["classifier", "classification", "detector", "whisper", "transcribe", "transcription"].map
      fun word => Regex.word word.toList) ++
    [.word "text".toList ++ dash ++ .word "to".toList ++ dash ++ .word "speech".toList,
      .word "tts".toList]

/-- The text after each separator. -/
def afterSeparators : List Char → List (List Char)
  | [] => []
  | c :: cs => if isNameSeparator c then cs :: afterSeparators cs else afterSeparators cs

/-- `_NON_GENERATION_MODEL.search`. -/
def searchNonGeneration (identifier : String) : Bool :=
  let cs := identifier.toList.map foldLetter
  (cs :: afterSeparators cs).any fun start =>
    nonGenerationWords.any fun word =>
      (word.ways ⟨none, start⟩).any fun pl =>
        pl.rest = [] ∨ pl.rest = ['\n'] ∨ pl.rest.head?.any isNameSeparator

def isGenerationModel (model : ModelInfo) : Bool :=
  !(model.supportsEmbeddings || model.maxOutputTokens ≤ 0) &&
    !searchNonGeneration (model.provider ++ "/" ++ model.id)

example :
    searchNonGeneration "openai/text-embedding-3-small" ∧ searchNonGeneration "groq/Whisper-v3" ∧
      ¬ searchNonGeneration "openai/embeddings" := by
  decide +kernel

/-! ## Candidates -/

inductive RoutingGoal where
  | fastest
  | cheapest
  | balanced
  | reasoning
  | coding
  | vision
  | longContext
deriving DecidableEq, Repr

/-- `PROVIDER_PRIORITY`. -/
def providerPriority : RoutingGoal → List String
  | .coding => ["anthropic", "openai", "deepseek", "groq"]
  | .fastest => ["groq", "deepseek", "openrouter", "openai"]
  | .cheapest => ["deepseek", "groq", "openrouter", "mistral"]
  | .reasoning => ["anthropic", "openai", "deepseek"]
  | .balanced => ["openai", "anthropic", "groq", "deepseek"]
  | .vision => ["openai", "anthropic", "google"]
  | .longContext => ["anthropic", "openai", "deepseek"]

/-- The part of a preference that decides which models are candidates. -/
structure RoutingPreference where
  goal : RoutingGoal := .balanced
  excludedProviders : List String := []
  minContext : Option ℤ := none
  requiredContextTokens : Option ℤ := none
  requiresVision : Bool := false
  requiresTools : Bool := false
  requiresStreaming : Bool := false
  failoverEnabled : Bool := true

/-- What a provider's `list_models` comes to, and what is raised when its failure is noted. -/
structure ModelDiscovery where
  models : Except Raised (List ModelInfo)
  noteFailure : Option Raised := none

/-- The surroundings of the router. -/
structure RoutingEnvironment where
  /-- The providers with their API keys. -/
  availableProviders : List (String × String)
  discovery : String → ModelDiscovery
  /-- The registry of public models. -/
  registry : List ModelInfo
  scoreModel : ModelInfo → RoutingPreference → String → ℚ
  /-- The providers that are available. -/
  healthy : String → Bool

namespace RoutingPreference

variable (preference : RoutingPreference)

def orderedProviders (available : List String) : List String :=
  let prioritized := (providerPriority preference.goal).filter fun p =>
    p ∈ available ∧ p ∉ preference.excludedProviders
  prioritized ++ (available.filter fun p =>
    p ∉ prioritized ∧ p ∉ preference.excludedProviders).insertionSort (· ≤ ·)

/-- `required_context_tokens or min_context`, which is 0 if neither is given. -/
def requiredContext : ℤ :=
  intOr preference.requiredContextTokens (intOr preference.minContext 0)

def admits (model : ModelInfo) : Bool :=
  isGenerationModel model && (!preference.requiresVision || model.supportsVision) &&
    (!preference.requiresTools || model.supportsTools) &&
    (!preference.requiresStreaming || model.supportsStreaming) &&
    (preference.requiredContext = 0 || preference.requiredContext ≤ model.maxContext)

end RoutingPreference

namespace RoutingEnvironment

variable (env : RoutingEnvironment) (registered : String → Bool)
  (preference : RoutingPreference)

/-- `list_registered_models`. -/
def listRegisteredModels (provider : String) : List ModelInfo :=
  if provider = "" then env.registry
  else env.registry.filter fun model => model.provider = lower (stripped provider)

/-- The models of a provider, from the registry if it names none. -/
def modelsOf (providerName : String) (discovered : List ModelInfo) : List ModelInfo :=
  if discovered = [] then env.listRegisteredModels providerName else discovered

def candidatesOf (providerName : String) (models : List ModelInfo) : List ModelCandidate :=
  (models.filter preference.admits).map fun model =>
    ⟨model, providerName, env.scoreModel model preference providerName⟩

/-- The loop over the providers; a provider whose models cannot be listed is passed over. -/
def buildFrom : List String → Except Raised (List ModelCandidate)
  | [] => .ok []
  | providerName :: providers =>
      let apiKey := (env.availableProviders.lookup providerName).getD ""
      if apiKey = "" ∨ ¬ registered (lower providerName) then buildFrom providers
      else
        match (env.discovery providerName).models with
        | .ok discovered => do
            let candidates ← buildFrom providers
            return env.candidatesOf preference providerName (env.modelsOf providerName discovered) ++
              candidates
        | .error .cancelled => .error .cancelled
        | .error (.exception _) =>
            match (env.discovery providerName).noteFailure with
            | some raised => .error raised
            | none => buildFrom providers

/-- `_build_candidates`. -/
def buildCandidates : Except Raised (List ModelCandidate) :=
  env.buildFrom registered preference
    (preference.orderedProviders (env.availableProviders.map Prod.fst))

/-- `route_with_fallback`. -/
def routeWithFallback : Except Raised (List ModelCandidate) := do
  let candidates ← env.buildCandidates registered preference
  let ranked := candidates.insertionSort fun c c' => c'.score ≤ c.score
  return if preference.failoverEnabled then ranked else ranked.take 1

def eligible (candidates : List ModelCandidate) : List ModelCandidate :=
  candidates.filter fun candidate => env.healthy (lower (stripped candidate.providerName))

end RoutingEnvironment

/-- `_invoke_with_fallback`. -/
def RouterCall.invokeWithFallback (x : RouterCall) (env : RoutingEnvironment)
    (preference : RoutingPreference) : RouterRun :=
  match env.routeWithFallback x.registered preference with
  | .error raised => ⟨[], [], .error raised⟩
  | .ok candidates => x.invokeEligible (env.eligible candidates)

/-! ## The invocation -/

/-- A message as `invoke` has it, with or without a content. -/
structure InvokeMessage where
  role : Json
  content : Option Json

def InvokeMessage.raw (m : InvokeMessage) : RawMessage := ⟨m.role, m.content.getD .null⟩

/-- `str(value)`, where `str` is for values that are not text. -/
def textOf (str : Json → String) : Json → String
  | .str s => s
  | value => str value

/-- `estimate_messages`, of messages that have not been fitted. -/
def estimateRaw (str : Json → String) (messages : List InvokeMessage) : ℕ :=
  (messages.map fun m =>
    TokenEngine.estimateText (m.content.elim "" (textOf str)) + messageOverhead).sum

/-- What `invoke` routes automatically, and what the router finds. -/
structure AutomaticInvoke where
  str : Json → String
  messages : List InvokeMessage
  /-- The configured model. -/
  provider : String
  model : String
  requestedOutputTokens : ℤ
  preference : RoutingPreference
  env : RoutingEnvironment
  streaming : Bool
  registered : String → Bool
  behaviour : ℕ → ProviderBehaviour

namespace AutomaticInvoke

variable (x : AutomaticInvoke)

def assembleCall : AssembleCall where
  messages := x.messages.map InvokeMessage.raw
  provider := some x.provider
  model := some x.model
  requestedOutputTokens := some x.requestedOutputTokens

def preflightRequiredContext : ℤ :=
  estimateRaw x.str x.messages + x.requestedOutputTokens + 4096

/-- The call of the router, with an assembly for the configured model. -/
def run (assembly : ContextAssembly) : RouterRun :=
  RouterCall.invokeWithFallback
    { messages := assembly.messages
      maxTokens := assembly.budget.reservedOutput
      streaming := x.streaming
      registered := x.registered
      behaviour := x.behaviour }
    x.env { x.preference with requiredContextTokens := some x.preflightRequiredContext }

end AutomaticInvoke

/-! ## Which calls are made -/

theorem RouterCall.mem_tryInTurn_calls {x : RouterCall} {passedOver : ModelCandidate → Bool}
    {cutOff exhausted : String → RouterReply} {candidates : List (ModelCandidate × ℕ)}
    {lastError : String} {call : SentCall}
    (h : call ∈ (x.tryInTurn passedOver cutOff exhausted lastError candidates).calls) :
    call.candidate ∈ candidates.map Prod.fst ∧ call.messages = x.messages ∧
      call.maxTokens ≤ x.maxTokens := by
  induction candidates generalizing lastError with
  | nil => cases h
  | cons p candidates ih =>
      obtain ⟨candidate, i⟩ := p
      have hcall : ∀ attempt, call ∈ x.sentCalls candidate attempt →
          call.candidate ∈ ((candidate, i) :: candidates).map Prod.fst ∧
            call.messages = x.messages ∧ call.maxTokens ≤ x.maxTokens := by
        intro attempt hcall
        unfold sentCalls at hcall
        split_ifs at hcall
        · rw [List.mem_singleton.mp hcall]
          exact ⟨List.mem_cons_self, rfl, min_le_left _ _⟩
        · cases hcall
      have hlater : call.candidate ∈ candidates.map Prod.fst ∧ call.messages = x.messages ∧
          call.maxTokens ≤ x.maxTokens →
          call.candidate ∈ ((candidate, i) :: candidates).map Prod.fst ∧
            call.messages = x.messages ∧ call.maxTokens ≤ x.maxTokens :=
        fun hlater => ⟨List.mem_cons_of_mem _ hlater.1, hlater.2⟩
      rw [tryInTurn] at h
      split_ifs at h with hpassed
      · exact hlater (ih h)
      · dsimp only at h
        cases hresult : ((x.behaviour i).attempt x.streaming).result with
        | ok text => exact hcall _ (by simpa only [hresult] using h)
        | error raised =>
            cases raised with
            | cancelled => exact hcall _ (by simpa only [hresult] using h)
            | exception error =>
                cases hnote : (x.behaviour i).noteFailure with
                | some raised => exact hcall _ (by simpa only [hresult, hnote] using h)
                | none =>
                    simp only [hresult, hnote] at h
                    split_ifs at h
                    · exact hcall _ h
                    · obtain h | h := List.mem_append.mp h
                      · exact hcall _ h
                      · exact hlater (ih h)

theorem RoutingEnvironment.admits_of_mem_buildFrom {env : RoutingEnvironment}
    {registered : String → Bool} {preference : RoutingPreference} {providers : List String}
    {candidates : List ModelCandidate}
    (h : env.buildFrom registered preference providers = .ok candidates) :
    ∀ candidate ∈ candidates, preference.admits candidate.modelInfo = true := by
  induction providers generalizing candidates with
  | nil =>
      obtain rfl := Except.ok.inj h
      intro candidate hcandidate
      cases hcandidate
  | cons providerName providers ih =>
      rw [buildFrom] at h
      split_ifs at h
      · exact ih h
      · cases hmodels : (env.discovery providerName).models with
        | error raised =>
            cases raised with
            | cancelled => simp [hmodels] at h
            | exception error =>
                cases hnote : (env.discovery providerName).noteFailure with
                | some raised => simp [hmodels, hnote] at h
                | none => exact ih (by simpa only [hmodels, hnote] using h)
        | ok discovered =>
            simp only [hmodels] at h
            obtain ⟨later, hlater, hcandidates⟩ := bind_eq_ok.mp h
            obtain rfl := Except.ok.inj hcandidates
            intro candidate hcandidate
            obtain hcandidate | hcandidate := List.mem_append.mp hcandidate
            · obtain ⟨model, hmodel, rfl⟩ := List.mem_map.mp hcandidate
              exact (List.mem_filter.mp hmodel).2
            · exact ih hlater candidate hcandidate

namespace RoutingEnvironment

variable {env : RoutingEnvironment} {registered : String → Bool} {preference : RoutingPreference}
  {candidates : List ModelCandidate}

/-- Ranking, failover and health leave some of the candidates that have been built. -/
theorem admits_of_mem_eligible
    (h : env.routeWithFallback registered preference = .ok candidates) :
    ∀ candidate ∈ env.eligible candidates, preference.admits candidate.modelInfo = true := by
  obtain ⟨built, hbuilt, hranked⟩ := bind_eq_ok.mp h
  obtain rfl := Except.ok.inj hranked
  intro candidate hcandidate
  apply admits_of_mem_buildFrom hbuilt
  have hmem := (List.mem_filter.mp hcandidate).1
  split_ifs at hmem
  · exact (List.mem_insertionSort _).mp hmem
  · exact (List.mem_insertionSort _).mp (List.mem_of_mem_take hmem)

end RoutingEnvironment

theorem RoutingPreference.requiredContext_le_of_admits {preference : RoutingPreference}
    {model : ModelInfo} (h : preference.admits model = true)
    (hrequired : 0 < preference.requiredContext) :
    preference.requiredContext ≤ model.maxContext := by
  unfold admits at h
  simp only [Bool.and_eq_true, Bool.or_eq_true, decide_eq_true_eq] at h
  exact h.2.resolve_left hrequired.ne'

theorem RouterCall.invokeWithFallback_calls {x : RouterCall} {env : RoutingEnvironment}
    {preference : RoutingPreference} {call : SentCall}
    (h : call ∈ (x.invokeWithFallback env preference).calls) :
    preference.admits call.candidate.modelInfo = true ∧ call.messages = x.messages ∧
      call.maxTokens ≤ x.maxTokens := by
  unfold invokeWithFallback at h
  cases hroute : env.routeWithFallback x.registered preference with
  | error raised => simp [hroute] at h
  | ok candidates =>
      simp only [hroute, invokeEligible] at h
      split_ifs at h
      · cases h
      · obtain ⟨hcandidate, hrest⟩ := mem_tryInTurn_calls h
        rw [List.zipIdx_map_fst] at hcandidate
        exact ⟨RoutingEnvironment.admits_of_mem_eligible hroute _ hcandidate, hrest⟩

/-! ## What fitting leaves of an estimate -/

theorem estimateText_textOr_le (str : Json → String) (value : Json) :
    TokenEngine.estimateText (textOr str value "") ≤
      TokenEngine.estimateText (textOf str value) := by
  unfold textOr
  split_ifs with htruthy
  · cases value <;> exact le_rfl
  · exact Nat.zero_le _

/-- Normalizing drops messages, and turns contents into nothing. -/
theorem estimateMessages_normalized_le (str : Json → String) (messages : List InvokeMessage) :
    estimateMessages (normalized str (messages.map InvokeMessage.raw)) ≤
      estimateRaw str messages := by
  induction messages with
  | nil => exact le_rfl
  | cons m messages ih =>
      have htail : estimateRaw str (m :: messages) =
          TokenEngine.estimateText (m.content.elim "" (textOf str)) + messageOverhead +
            estimateRaw str messages := rfl
      rw [htail, List.map_cons]
      by_cases hnull : m.raw.content = .null
      · rw [normalized_cons_of_null str hnull]
        omega
      · have hcontent : m.content = some m.raw.content := by
          cases hcontent : m.content with
          | none => exact absurd (by rw [InvokeMessage.raw, hcontent]; rfl) hnull
          | some value => rw [InvokeMessage.raw, hcontent, Option.getD_some]
        have hestimate := estimateText_textOr_le str m.raw.content
        have hcons : estimateMessages
            (normalized str (m.raw :: messages.map InvokeMessage.raw)) =
              TokenEngine.estimateText (textOr str m.raw.content "") + messageOverhead +
                estimateMessages (normalized str (messages.map InvokeMessage.raw)) := by
          rw [normalized_cons_of_ne_null str hnull]
          rfl
        rw [hcons, hcontent, Option.elim_some]
        omega

/-- A message without content is estimated at least. -/
theorem AllShortened.estimateMessages_le {ms ms' : List Message} (h : AllShortened ms ms')
    (hempty : ∀ m ∈ ms', ¬ m.isSystem → m.content = "") :
    estimateMessages ms' ≤ estimateMessages ms := by
  induction h with
  | nil => exact le_rfl
  | @cons m m' ms ms' hm _ ih =>
      have htail := ih fun m hmem => hempty m (List.mem_cons_of_mem _ hmem)
      have hhead : TokenEngine.estimateText m'.content ≤ TokenEngine.estimateText m.content := by
        by_cases hsystem : m.isSystem
        · rw [hm.2 hsystem]
        · rw [hempty m' List.mem_cons_self (hm.isSystem_eq ▸ hsystem)]
          exact Nat.zero_le _
      unfold estimateMessages at htail ⊢
      rw [List.map_cons, List.map_cons, List.sum_cons, List.sum_cons]
      omega

/-- The messages of an assembly are estimated at no more than the messages it was made from: they
are within a budget that these exceed, or they have not been changed after some were dropped. -/
theorem estimateMessages_assembled_le {str : Json → String} {c : AssembleCall}
    {a : ContextAssembly} (h : Returns str c a) :
    estimateMessages a.messages ≤ estimateMessages (normalized str c.messages) := by
  obtain ⟨t, s, htrimmed, hshortened, hchanged, hend, -, hassembly⟩ := exists_of_returns h
  have hmessages : a.messages = s.selected := by
    rw [hassembly]
    rfl
  have hdropped : estimateMessages t.selected ≤ estimateMessages (normalized str c.messages) := by
    obtain ⟨kept, hkept, hmap⟩ := htrimmed.kept
    rw [hmap]
    apply estimateMessages_le_of_sublist
    conv_rhs => rw [← List.map_get_finRange (normalized str c.messages)]
    exact hkept.ascending.map _
  rw [hmessages]
  refine le_trans ?_ hdropped
  obtain hwithin | ⟨hempty, -⟩ := hend
  · obtain hover | heq := hchanged
    · unfold OverBudget at hover hwithin
      omega
    · rw [heq]
  · exact hshortened.estimateMessages_le hempty

/-- The floor of 256 tokens is the only reason to reserve more output than is asked for. -/
theorem ContextManager.reservedOutput_le {manager : ContextManager} {provider model : Option String}
    {requested : ℤ} {contextOverride : Option ℤ} {budget : ContextBudget}
    (h : manager.budgetFor provider model (some requested) contextOverride = .ok budget)
    (hrequested : requested ≠ 0) : budget.reservedOutput ≤ max 256 requested := by
  unfold budgetFor at h
  dsimp only at h
  cases hscaled : scaled (max 1 (intOr contextOverride
      (modelInfoFor provider model (intOr contextOverride 128000)).maxContext))
      manager.safetyRatio with
  | error e => simp [hscaled] at h
  | ok margin =>
      simp only [hscaled, Except.ok.injEq] at h
      subst h
      have hintOr := intOr_some hrequested manager.defaultOutputTokens
      dsimp only
      omega

/-! ## The calls that are made -/

namespace AutomaticInvoke

/-- Every call fits the model that it goes to. -/
theorem routed_calls_fit (x : AutomaticInvoke) (hrequested : 1 ≤ x.requestedOutputTokens)
    {a : ContextAssembly} (ha : Returns x.str x.assembleCall a) :
    ∀ call ∈ (x.run a).calls,
      estimateMessages call.messages + call.maxTokens ≤ call.candidate.modelInfo.maxContext := by
  intro call hcall
  obtain ⟨hadmits, hmessages, hmaxTokens⟩ := RouterCall.invokeWithFallback_calls hcall
  dsimp only at hmessages hmaxTokens
  have hestimate : estimateMessages a.messages ≤ estimateRaw x.str x.messages :=
    (estimateMessages_assembled_le ha).trans (estimateMessages_normalized_le _ _)
  have hreserved : a.budget.reservedOutput ≤ max 256 x.requestedOutputTokens := by
    obtain ⟨-, -, -, -, -, -, hbudget, -⟩ := exists_of_returns ha
    exact ContextManager.reservedOutput_le hbudget (by omega)
  have hpreflight : x.preflightRequiredContext =
      estimateRaw x.str x.messages + x.requestedOutputTokens + 4096 := rfl
  have hrequired : RoutingPreference.requiredContext
      { x.preference with requiredContextTokens := some x.preflightRequiredContext } =
        x.preflightRequiredContext :=
    intOr_some (by omega) _
  have hcontext := RoutingPreference.requiredContext_le_of_admits hadmits (by omega)
  rw [hmessages]
  omega

/-- A short question for the configured model, with a key for a provider that lists nothing. -/
def shortQuestion : AutomaticInvoke where
  str := fun _ => ""
  messages := [⟨.str "user", some (.str "hello")⟩, ⟨.str "assistant", some .null⟩]
  provider := "openai"
  model := "gpt-4o"
  requestedOutputTokens := 100
  preference := {}
  env :=
    { availableProviders := [("openai", ""), ("groq", "key")]
      discovery := fun _ => { models := .ok [] }
      registry :=
        [⟨"gpt-4o", "openai", 128000, 16384, true, true, true, false⟩,
          ⟨"llama-3", "groq", 8192, 4096, false, true, true, false⟩,
          ⟨"gemma", "groq", 4096, 1024, false, true, true, false⟩]
      scoreModel := fun _ _ _ => 50
      healthy := fun _ => true }
  streaming := false
  registered := fun _ => true
  behaviour := fun _ => { response := .ok "hi" }

def shortAssembly : ContextAssembly where
  messages := [⟨"user", "hello"⟩]
  budget := ⟨128000, 256, 10240, 117504, by decide⟩
  estimatedInputTokens := 6
  breakdown := { currentRequest := 6 }
  droppedMessages := 0
  compressedMessages := 0
  warnings := []

theorem routed_calls_fit_shortQuestion :
    (shortQuestion.run shortAssembly).calls.map (fun call => call.candidate.modelInfo.id) =
        ["llama-3"] ∧
      ∀ call ∈ (shortQuestion.run shortAssembly).calls,
        estimateMessages call.messages + call.maxTokens ≤ call.candidate.modelInfo.maxContext :=
  ⟨by decide +kernel,
    routed_calls_fit shortQuestion (by decide) ⟨1, by decide +kernel⟩⟩

end AutomaticInvoke

end Zyntry
