import Zyntry.PythonDict
import Zyntry.PythonText

/-!
# Updating a runtime

The configuration columns of a runtime and the update through which all of them are
written. An update is refused if the name of the model says that it belongs to another
provider. How an address rule is read is a parameter (`ipRule`).
-/

namespace Zyntry

open Python

/-- The fields of a dict. -/
abbrev Fields := List (String × Json)

/-- How a tool fails; an error whose text depends on the printed form of a value is
`other`. -/
inductive ToolError where
  | valueError (message : String)
  | other
deriving DecidableEq, Repr

/-! ## Providers and model names -/

def modelPrefixes : List (String × List String) :=
  [("google", ["gemini", "gemma"]),
   ("openai", ["gpt-", "o1", "o3", "o4", "chatgpt"]),
   ("anthropic", ["claude"]),
   ("deepseek", ["deepseek"]),
   ("mistral", ["mistral", "mixtral", "codestral", "pixtral"]),
   ("meta", ["llama", "meta-llama"]),
   ("bedrock", ["anthropic.", "amazon.", "meta.", "mistral."])]

def aggregators : List String := ["groq", "openrouter"]

/-- `infer_provider_for_model`. -/
def inferProviderForModel (model : String) : Option String :=
  let normalized := lower (stripped model)
  (modelPrefixes.find? fun entry => entry.2.any (startsWith normalized)).map Prod.fst

/-- `provider_model_mismatch`. -/
def providerModelMismatch (provider model : String) : Option String :=
  let normalizedProvider := lower (stripped provider)
  if provider = "" ∨ model = "" then none
  else if normalizedProvider ∈ aggregators then none
  else
    match inferProviderForModel model with
    | none => none
    | some inferred =>
        if inferred = normalizedProvider then none
        else some (s!"Model '{model}' belongs to provider '{inferred}', but provider " ++
          s!"'{provider}' is configured. Choose a compatible {provider} model " ++
          "or change the provider and model together.")

/-! ## Security policies -/

def defaultRuntimeSecurityPolicy : Fields :=
  [("enabled", .bool true), ("block_suspicious_requests", .bool true),
   ("prompt_injection_protection", .bool true), ("pii_redaction", .bool true),
   ("max_input_chars", .int 10000), ("rate_limit_per_minute", .int 120),
   ("ip_ban_enabled", .bool true), ("violation_threshold", .int 3),
   ("ban_duration_seconds", .int 900), ("allowed_ips", .arr []), ("blocked_ips", .arr []),
   ("redis_failure_mode", .str "fail_closed")]

/-- One of the integer limits; what is no number is put back to its default. -/
def clampLimit (key : String) (minimum maximum default_ : ℤ) (merged : Fields) : Fields :=
  let limit :=
    match int ((Json.lookup key merged).getD .null) with
    | .ok n => max minimum (min maximum n)
    | .error _ => default_
  Json.set key (.int limit) merged

def clampFlag (merged : Fields) (key : String) : Fields :=
  Json.set key (.bool ((Json.lookup key merged).getD .null).truthy) merged

/-- `_normalize_ip_rules`; only text can be the rule of an address. -/
def normalizeIpRules (ipRule : String → Option String) : Json → Except ToolError (List String)
  | .null => .ok []
  | .arr items =>
      items.foldlM (fun normalized raw =>
        match raw with
        | .str s =>
            let item := stripped s
            if item = "" then .ok normalized
            else
              match ipRule item with
              | none => .error (.valueError s!"Invalid IP address or CIDR rule: {item}")
              | some rule =>
                  .ok (if rule ∈ normalized then normalized else normalized ++ [rule])
        | _ => .error .other) []
  | _ => .error (.valueError "IP allow/block lists must be arrays")

/-- `normalize_runtime_security_policy`. -/
def normalizeRuntimeSecurityPolicy (ipRule : String → Option String) (policy : Fields) :
    Except ToolError Fields := do
  let merged := Json.update defaultRuntimeSecurityPolicy policy
  let merged := clampLimit "max_input_chars" 1000 1000000 10000 merged
  let merged := clampLimit "rate_limit_per_minute" 1 100000 120 merged
  let merged := clampLimit "violation_threshold" 1 100 3 merged
  let merged := clampLimit "ban_duration_seconds" 60 86400 900 merged
  let merged := ["enabled", "block_suspicious_requests", "prompt_injection_protection",
    "pii_redaction"].foldl clampFlag merged
  let merged :=
    if "prompt_injection_protection" ∈ Json.keys policy then
      Json.set "block_suspicious_requests"
        ((Json.lookup "prompt_injection_protection" merged).getD .null) merged
    else merged
  let merged := clampFlag merged "ip_ban_enabled"
  let allowed ← normalizeIpRules ipRule ((Json.lookup "allowed_ips" merged).getD .null)
  let blocked ← normalizeIpRules ipRule ((Json.lookup "blocked_ips" merged).getD .null)
  let merged := Json.set "blocked_ips" (.arr (blocked.map .str))
    (Json.set "allowed_ips" (.arr (allowed.map .str)) merged)
  let failureMode :=
    match Json.lookup "redis_failure_mode" merged with
    | some (.str s) => if lower (stripped s) = "fail_open" then "fail_open" else "fail_closed"
    | _ => "fail_closed"
  pure (Json.set "redis_failure_mode" (.str failureMode) merged)

/-! ## The update -/

/-- The columns of a runtime that its configuration is made of. -/
structure StoredRuntime where
  name : String := "Default Runtime"
  environment : String := "development"
  provider : String := "openai"
  model : String := "gpt-4o"
  fallbackModels : List String := []
  routingStrategy : String := "balanced"
  embeddingModel : String := "text-embedding-3-small"
  vectorStore : String := "pgvector"
  chunkSize : ℤ := 512
  chunkOverlap : ℤ := 64
  systemInstructions : Option String := none
  securityPolicies : Fields := []
  config : Fields := []

/-- `RuntimeUpdate`, without the project; a field that is not set is `none`. -/
structure RuntimeUpdate where
  name : Option String := none
  environment : Option String := none
  provider : Option String := none
  model : Option String := none
  fallbackModels : Option (List String) := none
  routingStrategy : Option String := none
  embeddingModel : Option String := none
  vectorStore : Option String := none
  chunkSize : Option ℤ := none
  chunkOverlap : Option ℤ := none
  systemInstructions : Option String := none
  securityPolicies : Option Fields := none
  config : Option Fields := none

/-- The provider that an update writes: naming a model may imply another provider. -/
def RuntimeUpdate.effectiveProvider (data : RuntimeUpdate) (r : StoredRuntime) : Option String :=
  match data.provider, data.model with
  | none, some model =>
      (inferProviderForModel model).filter fun inferred => inferred ≠ lower r.provider
  | provider, _ => provider

def RuntimeUpdate.effectivePolicies (ipRule : String → Option String) (data : RuntimeUpdate)
    (r : StoredRuntime) : Except ToolError Fields :=
  match data.securityPolicies with
  | none => .ok r.securityPolicies
  | some policy => normalizeRuntimeSecurityPolicy ipRule policy

/-- `RuntimeService.update`. -/
def StoredRuntime.update (ipRule : String → Option String) (r : StoredRuntime)
    (data : RuntimeUpdate) : Except ToolError StoredRuntime := do
  let securityPolicies ← data.effectivePolicies ipRule r
  let provider := (data.effectiveProvider r).getD r.provider
  match providerModelMismatch provider (data.model.getD r.model) with
  | some mismatch => .error (.valueError mismatch)
  | none =>
      pure
        { name := data.name.getD r.name
          environment := data.environment.getD r.environment
          provider
          model := data.model.getD r.model
          fallbackModels := data.fallbackModels.getD r.fallbackModels
          routingStrategy := data.routingStrategy.getD r.routingStrategy
          embeddingModel := data.embeddingModel.getD r.embeddingModel
          vectorStore := data.vectorStore.getD r.vectorStore
          chunkSize := data.chunkSize.getD r.chunkSize
          chunkOverlap := data.chunkOverlap.getD r.chunkOverlap
          systemInstructions := data.systemInstructions.or r.systemInstructions
          securityPolicies
          config := data.config.getD r.config }

/-- An update writes the configuration that it is given, or leaves it alone. -/
theorem StoredRuntime.update_config {ipRule : String → Option String} {r r' : StoredRuntime}
    {data : RuntimeUpdate} (h : r.update ipRule data = .ok r') :
    r'.config = data.config.getD r.config := by
  obtain ⟨securityPolicies, -, h⟩ := bind_eq_ok.mp h
  dsimp only at h
  split at h
  · simp at h
  · obtain rfl := Except.ok.inj h
    rfl

end Zyntry
