import Zyntry.RuntimeUpdate

/-!
# Configuration changes

The changes that the assistant may make to a runtime, checked and brought into one form
before they are stored or applied. A field or setting that is not in the lists is refused.
-/

namespace Zyntry

open Python

def configKeys : List String :=
  ["temperature", "max_tokens", "dynamic_routing_enabled", "cache_enabled", "cache_ttl_seconds",
   "top_p", "frequency_penalty", "presence_penalty"]

def updateFields : List String :=
  ["name", "environment", "provider", "model", "fallback_models", "routing_strategy",
   "embedding_model", "vector_store", "chunk_size", "chunk_overlap", "system_instructions",
   "security_policies", "config"]

def environmentAliases : List (String × String) :=
  [("dev", "development"), ("development", "development"), ("stage", "staging"),
   ("staging", "staging"), ("prod", "production"), ("production", "production")]

def routingStrategies : List String := ["latency_optimized", "quality_optimized", "balanced"]

/-! ## Values -/

/-- `_clean_text`. -/
def cleanText (field : String) (maxLength : ℕ) : Json → Except ToolError String
  | .str s =>
      let cleaned := stripChars ['"', '\'', '\u0060', ' '] (stripped s)
      if cleaned = "" then .error (.valueError s!"{field} cannot be empty")
      else if maxLength < cleaned.length then .error (.valueError s!"{field} is too long")
      else .ok cleaned
  | _ => .error (.valueError s!"{field} must be a string")

/-- `_number(value, field, integer=True)`. -/
def integer (field : String) (value : Json) : Except ToolError ℤ :=
  match value with
  | .bool _ => .error (.valueError s!"{field} must be a number")
  | _ =>
      match int value with
      | .ok n => .ok n
      | .error _ => .error (.valueError s!"{field} must be a number")

/-- `_number(value, field)`; `none` is a float that is not finite. -/
def number (field : String) (value : Json) : Except ToolError (Option ℚ) :=
  match value with
  | .bool _ => .error (.valueError s!"{field} must be a number")
  | _ =>
      match float value with
      | .ok q => .ok q
      | .error .overflowError => .error .other
      | .error _ => .error (.valueError s!"{field} must be a number")

/-- `_boolean`. -/
def boolean (field : String) : Json → Except ToolError Bool
  | .bool b => .ok b
  | .str s =>
      let lowered := lower (stripped s)
      if lowered ∈ ["true", "yes", "on", "enabled", "enable"] then .ok true
      else if lowered ∈ ["false", "no", "off", "disabled", "disable"] then .ok false
      else .error (.valueError s!"{field} must be true or false")
  | _ => .error (.valueError s!"{field} must be true or false")

/-- A number between two bounds, stored as a float. -/
def numberWithin (field : String) (minimum maximum : ℚ) (range : String) (value : Json) :
    Except ToolError Json := do
  match ← number field value with
  | some q =>
      if minimum ≤ q ∧ q ≤ maximum then .ok (.float q)
      else .error (.valueError s!"{field} must be between {range}")
  | none => .error (.valueError s!"{field} must be between {range}")

def integerWithin (field : String) (minimum maximum : ℤ) (range : String) (value : Json) :
    Except ToolError Json := do
  let n ← integer field value
  if minimum ≤ n ∧ n ≤ maximum then .ok (.int n)
  else .error (.valueError s!"{field} must be between {range}")

/-! ## Settings of `config` -/

def settingAliases : List (String × String) :=
  [("max_token", "max_tokens"), ("max_output_tokens", "max_tokens"),
   ("dynamic_routing", "dynamic_routing_enabled"), ("cache", "cache_enabled"),
   ("cache_ttl", "cache_ttl_seconds")]

/-- The value of a setting of `CONFIG_KEYS`. -/
def normalizeSetting (key : String) (value : Json) : Except ToolError Json :=
  if key = "temperature" then numberWithin key 0 2 "0 and 2" value
  else if key = "max_tokens" then integerWithin key 1 100000 "1 and 100000" value
  else if key = "dynamic_routing_enabled" then (boolean key value).map .bool
  else if key = "cache_enabled" then (boolean key value).map .bool
  else if key = "cache_ttl_seconds" then integerWithin key 0 86400 "0 and 86400" value
  else if key = "top_p" then numberWithin key 0 1 "0 and 1" value
  else numberWithin key (-2) 2 "-2 and 2" value

/-- One step of `_normalize_config`. -/
def normalizeConfigEntry (normalized : Fields) (entry : String × Json) :
    Except ToolError Fields := do
  let rawKey := lower (stripped entry.1)
  let key := (settingAliases.lookup rawKey).getD rawKey
  if key ∈ configKeys then
    let value ← normalizeSetting key entry.2
    .ok (Json.set key value normalized)
  else .error (.valueError s!"Unsupported runtime config setting: {entry.1}")

/-- `_normalize_config`. -/
def normalizeConfig (config : Fields) : Except ToolError Fields :=
  if config = [] then .error (.valueError "config must contain at least one supported setting")
  else config.foldlM normalizeConfigEntry []

/-! ## Fields of the runtime -/

def normalizeFallbackModels (value : Json) : Except ToolError Json := do
  let values : List Json :=
    match value with
    | .str s => (splitOn ',' s).map .str
    | .arr items => items
    | _ => []
  if values = [] then .error (.valueError "fallback_models must contain at least one model")
  else
    let models ← values.mapM (cleanText "fallback_models entry" 255)
    .ok (.arr (models.map .str))

def normalizeEnvironment (key : String) (value : Json) : Except ToolError Json := do
  let environment ← cleanText key 255 value
  match environmentAliases.lookup (lower environment) with
  | some canonical => .ok (.str canonical)
  | none => .error (.valueError "environment must be development, staging, or production")

/-- The value of a field that is written to a column of its own. -/
def normalizeField (key : String) (value : Json) : Except ToolError Json :=
  if key = "environment" then normalizeEnvironment key value
  else if key = "chunk_size" then integerWithin key 64 4096 "64 and 4096" value
  else if key = "chunk_overlap" then integerWithin key 0 512 "0 and 512" value
  else if key = "fallback_models" then normalizeFallbackModels value
  else if key = "security_policies" then
    match value with
    | .obj policies => .ok (.obj policies)
    | _ => .error (.valueError "security_policies must be an object")
  else (cleanText key (if key = "system_instructions" then 20000 else 255) value).map .str

def automaticStrategies : List String :=
  ["automatic", "automatic_model_routing", "dynamic", "dynamic_routing"]

def routingStrategy (value : Json) : Except ToolError String :=
  (cleanText "routing_strategy" 255 value).map fun strategy =>
    replaceChars ['-', ' '] '_' (lower strategy)

/-- The payload and the updates of `config` that have been collected. -/
structure Collected where
  payload : Fields := []
  configUpdates : Fields := []

/-- One step of `normalize_configuration_changes`. Automatic routing is a setting of
`config`, not a strategy. -/
def normalizeChange (acc : Collected) (change : String × Json) : Except ToolError Collected := do
  let key := lower (stripped change.1)
  if key = "config" then
    match change.2 with
    | .obj config => do
        let updates ← normalizeConfig config
        .ok { acc with configUpdates := Json.update acc.configUpdates updates }
    | _ => .error (.valueError "config must be an object")
  else if key ∉ updateFields then
    .error (.valueError s!"Unsupported runtime configuration field: {change.1}")
  else if key = "routing_strategy" then do
    let strategy ← routingStrategy change.2
    if strategy ∈ automaticStrategies then
      .ok { acc with
        configUpdates := Json.set "dynamic_routing_enabled" (.bool true) acc.configUpdates }
    else if strategy ∈ routingStrategies then
      .ok { acc with payload := Json.set key (.str strategy) acc.payload }
    else .error (.valueError
      "routing_strategy must be latency_optimized, quality_optimized, or balanced")
  else do
    let value ← normalizeField key change.2
    .ok { acc with payload := Json.set key value acc.payload }

def Collected.changes (acc : Collected) : Fields :=
  if acc.configUpdates = [] then acc.payload
  else Json.set "config" (.obj acc.configUpdates) acc.payload

/-- The last check: an overlap must be smaller than the chunks. -/
def chunksFit (changes : Fields) : Bool :=
  match Json.lookup "chunk_overlap" changes with
  | some (.int overlap) =>
      match Json.lookup "chunk_size" changes with
      | some (.int size) => overlap < size
      | _ => overlap < 512
  | _ => true

/-- `normalize_configuration_changes`. -/
def normalizeConfigurationChanges (changes : Fields) : Except ToolError Fields := do
  if changes = [] then
    .error (.valueError "At least one runtime configuration change is required")
  else
    let acc ← changes.foldlM normalizeChange {}
    if acc.changes = [] then
      .error (.valueError "At least one runtime configuration change is required")
    else if chunksFit acc.changes then .ok acc.changes
    else .error (.valueError "chunk_overlap must be smaller than chunk_size")

end Zyntry
