import Zyntry.ConfigurationChanges
import Zyntry.Redaction
import Mathlib.Dynamics.PeriodicPts.Defs

/-!
# The assistant's configuration tools

A tool reads the runtime through the redacted projection that is also shown to users,
edits the configuration in it and writes it back as a whole. What the projection has
hidden is lost for good, whatever setting the tool was asked to change.
-/

namespace Zyntry

open Python

/-! ## The tools -/

inductive ConfigurationTool where
  | enableDynamicRouting
  | disableDynamicRouting
  | changeTemperature (temperature : Json)
  | changeMaxTokens (maxTokens : Json)
  | updateRuntimeConfiguration (changes : Json)

/-- The configuration of `RuntimeService._to_read`. -/
def StoredRuntime.readConfig (r : StoredRuntime) : Fields := redactFields r.config

def textField (changes : Fields) (key : String) : Option String :=
  match Json.lookup key changes with
  | some (.str s) => some s
  | _ => none

def integerField (changes : Fields) (key : String) : Option ℤ :=
  match Json.lookup key changes with
  | some (.int n) => some n
  | _ => none

def objectField (changes : Fields) (key : String) : Option Fields :=
  match Json.lookup key changes with
  | some (.obj fields) => some fields
  | _ => none

def modelsField (changes : Fields) (key : String) : Option (List String) :=
  match Json.lookup key changes with
  | some (.arr items) => some (items.filterMap fun item =>
      match item with
      | .str s => some s
      | _ => none)
  | _ => none

/-- `RuntimeUpdate(**normalized)`, for changes in their normal form. -/
def RuntimeUpdate.ofChanges (changes : Fields) : RuntimeUpdate where
  name := textField changes "name"
  environment := textField changes "environment"
  provider := textField changes "provider"
  model := textField changes "model"
  fallbackModels := modelsField changes "fallback_models"
  routingStrategy := textField changes "routing_strategy"
  embeddingModel := textField changes "embedding_model"
  vectorStore := textField changes "vector_store"
  chunkSize := integerField changes "chunk_size"
  chunkOverlap := integerField changes "chunk_overlap"
  systemInstructions := textField changes "system_instructions"
  securityPolicies := objectField changes "security_policies"
  config := objectField changes "config"

/-- `normalize_configuration_changes` of the argument of the tool. -/
def normalizedChanges : Json → Except ToolError Fields
  | .obj changes => normalizeConfigurationChanges changes
  | _ => .error (.valueError "At least one runtime configuration change is required")

/-- The settings of `config` that a tool writes. -/
def ConfigurationTool.configUpdates : ConfigurationTool → Fields
  | .enableDynamicRouting => [("dynamic_routing_enabled", .bool true)]
  | .disableDynamicRouting => [("dynamic_routing_enabled", .bool false)]
  | .changeTemperature temperature => [("temperature", temperature)]
  | .changeMaxTokens maxTokens => [("max_tokens", maxTokens)]
  | .updateRuntimeConfiguration changes =>
      match normalizedChanges changes with
      | .ok normalized => (objectField normalized "config").getD []
      | .error _ => []

/-- The entries that a tool names. -/
def ConfigurationTool.names (t : ConfigurationTool) : List String := Json.keys t.configUpdates

section

variable (ipRule : String → Option String)

/-- `config[key] = value`, and the update that writes the edited configuration. -/
def StoredRuntime.writeSetting (r : StoredRuntime) (key : String) (value : Json) :
    Except ToolError StoredRuntime :=
  r.update ipRule { config := some (Json.set key value r.readConfig) }

/-- `_update_runtime_configuration`. -/
def StoredRuntime.updateConfiguration (r : StoredRuntime) (changes : Json) :
    Except ToolError StoredRuntime := do
  let normalized ← normalizedChanges changes
  let configUpdates := (objectField normalized "config").getD []
  let config := if configUpdates = [] then none else some (Json.update r.readConfig configUpdates)
  let data : RuntimeUpdate := { RuntimeUpdate.ofChanges normalized with config }
  if data.chunkSize.getD r.chunkSize ≤ data.chunkOverlap.getD r.chunkOverlap then
    .error (.valueError "chunk_overlap must be smaller than chunk_size")
  else r.update ipRule data

def ConfigurationTool.apply (r : StoredRuntime) : ConfigurationTool → Except ToolError StoredRuntime
  | .enableDynamicRouting => r.writeSetting ipRule "dynamic_routing_enabled" (.bool true)
  | .disableDynamicRouting => r.writeSetting ipRule "dynamic_routing_enabled" (.bool false)
  | .changeTemperature temperature => r.writeSetting ipRule "temperature" temperature
  | .changeMaxTokens maxTokens => r.writeSetting ipRule "max_tokens" maxTokens
  | .updateRuntimeConfiguration changes => r.updateConfiguration ipRule changes

/-- The runtime after a tool; one that fails has written nothing. -/
def StoredRuntime.afterTool (r : StoredRuntime) (t : ConfigurationTool) : StoredRuntime :=
  match t.apply ipRule r with
  | .ok r' => r'
  | .error _ => r

def StoredRuntime.afterTools (r : StoredRuntime) (tools : List ConfigurationTool) :
    StoredRuntime := tools.foldl (StoredRuntime.afterTool ipRule) r

/-- The tool is accepted and has a setting to write. -/
def ConfigurationTool.writesConfig (r : StoredRuntime) (t : ConfigurationTool) : Bool :=
  (t.apply ipRule r).toOption.isSome && decide (t.configUpdates ≠ [])

/-- How often a sequence of tools writes the configuration. -/
def configWrites (r : StoredRuntime) : List ConfigurationTool → ℕ
  | [] => 0
  | t :: tools =>
      (if t.writesConfig ipRule r then 1 else 0) + configWrites (r.afterTool ipRule t) tools

/-! ## One tool -/

theorem apply_config {r r' : StoredRuntime} {t : ConfigurationTool} (h : t.apply ipRule r = .ok r') :
    r'.config = if t.configUpdates = [] then r.config
      else Json.update r.readConfig t.configUpdates := by
  have hset : ∀ {key value}, r.writeSetting ipRule key value = .ok r' →
      r'.config = Json.update r.readConfig [(key, value)] :=
    fun hwrite => StoredRuntime.update_config hwrite
  cases t with
  | enableDynamicRouting => exact hset h
  | disableDynamicRouting => exact hset h
  | changeTemperature temperature => exact hset h
  | changeMaxTokens maxTokens => exact hset h
  | updateRuntimeConfiguration changes =>
      obtain ⟨normalized, hnormalized, h⟩ := bind_eq_ok.mp h
      dsimp only at h
      have hupdates : (ConfigurationTool.updateRuntimeConfiguration changes).configUpdates =
          (objectField normalized "config").getD [] := by
        simp only [ConfigurationTool.configUpdates, hnormalized]
      rw [hupdates]
      split at h
      · simp at h
      · have hconfig := StoredRuntime.update_config h
        split_ifs at hconfig ⊢ with hempty
        · exact hconfig
        · exact hconfig

/-- What an entry is read as: the pattern of sensitive keys counts, then the value. -/
def readEntry (key : String) (v : Json) : Json :=
  if isSensitive key then redactedMark else redact v

/-- A tool that writes the configuration puts every other entry through the projection. -/
theorem lookup_afterTool {r : StoredRuntime} {t : ConfigurationTool} {key : String}
    (hkey : key ∉ t.names) : Json.lookup key (r.afterTool ipRule t).config =
      (Json.lookup key r.config).map
        (readEntry key)^[if t.writesConfig ipRule r then 1 else 0] := by
  unfold StoredRuntime.afterTool ConfigurationTool.writesConfig
  cases h : t.apply ipRule r with
  | error e => simp [Except.toOption]
  | ok r' =>
      dsimp only
      rw [apply_config ipRule h]
      by_cases hempty : t.configUpdates = []
      · simp [hempty]
      · rw [if_neg hempty, Json.lookup_update_of_notMem hkey, StoredRuntime.readConfig,
          lookup_redactFields]
        simp only [Except.toOption, Option.isSome_some, Bool.true_and, decide_eq_true_eq]
        rw [if_pos hempty, Function.iterate_one]
        rfl

/-! ## A sequence of tools -/

theorem lookup_afterTools {r : StoredRuntime} {tools : List ConfigurationTool} {key : String}
    (hkey : ∀ t ∈ tools, key ∉ t.names) : Json.lookup key (r.afterTools ipRule tools).config =
      (Json.lookup key r.config).map (readEntry key)^[configWrites ipRule r tools] := by
  induction tools generalizing r with
  | nil => simp [StoredRuntime.afterTools, configWrites]
  | cons t tools ih =>
      have hrest := ih (r := r.afterTool ipRule t) fun t' ht' =>
        hkey t' (List.mem_cons_of_mem t ht')
      rw [StoredRuntime.afterTools, List.foldl_cons]
      refine hrest.trans ?_
      rw [lookup_afterTool ipRule (hkey t List.mem_cons_self), Option.map_map,
        ← Function.iterate_add, configWrites, Nat.add_comm]

end

/-! ## Repeated redaction -/

theorem redactString_toList {s : String} (h : startsLikeSecret s = true) :
    (redactString s).toList = s.toList.take 7 ++ "...[REDACTED]".toList := by
  rw [redactString, if_pos h]
  simp

theorem startsLikeSecret_redactString {s : String} (h : startsLikeSecret s = true) :
    startsLikeSecret (redactString s) = true := by
  have hshort : ∀ start ∈ secretPrefixes, start.toList.length ≤ 7 := by decide
  obtain ⟨start, hstart, hstarts⟩ := List.any_eq_true.mp h
  refine List.any_eq_true.mpr ⟨start, hstart, ?_⟩
  rw [List.isPrefixOf_iff_prefix] at hstarts ⊢
  rw [redactString_toList h]
  exact (List.prefix_take_iff.mpr ⟨hstarts, hshort start hstart⟩).trans (List.prefix_append _ _)

/-- A text that is too short to be shortened grows once more, and then stays. -/
theorem redactString_redactString_redactString (s : String) :
    redactString (redactString (redactString s)) = redactString (redactString s) := by
  by_cases hsecret : startsLikeSecret s = true
  · have hsecret₁ := startsLikeSecret_redactString hsecret
    have hsecret₂ := startsLikeSecret_redactString hsecret₁
    have hlong : 7 ≤ (redactString s).toList.length := by
      rw [redactString_toList hsecret, List.length_append]
      exact le_trans (by decide) (Nat.le_add_left _ _)
    refine String.toList_inj.mp ?_
    rw [redactString_toList hsecret₂, redactString_toList hsecret₁, List.take_append_of_le_length,
      List.take_take, Nat.min_self]
    rw [List.length_take]
    omega
  · have hself : redactString s = s := by rw [redactString, if_neg hsecret]
    simp only [hself]

mutual
theorem redact_redact_redact : ∀ v : Json, redact (redact (redact v)) = redact (redact v)
  | .obj fields => by simp only [redact, redactFields_redactFields_redactFields fields]
  | .arr items => by simp only [redact, redactItems_redactItems_redactItems items]
  | .str s => by simp only [redact, redactString_redactString_redactString s]
  | .null => rfl
  | .bool _ => rfl
  | .int _ => rfl
  | .float _ => rfl

theorem redactItems_redactItems_redactItems : ∀ items : List Json,
    redactItems (redactItems (redactItems items)) = redactItems (redactItems items)
  | [] => rfl
  | v :: items => by
      simp only [redactItems, redact_redact_redact v, redactItems_redactItems_redactItems items]

theorem redactFields_redactFields_redactFields : ∀ fields : Fields,
    redactFields (redactFields (redactFields fields)) = redactFields (redactFields fields)
  | [] => rfl
  | (k, v) :: fields => by
      simp only [redactFields, redactFields_redactFields_redactFields fields]
      split_ifs
      · rfl
      · rw [redact_redact_redact v]
end

theorem readEntry_iterate (key : String) (n : ℕ) :
    (readEntry key)^[n + 2] = (readEntry key)^[2] := by
  have hthird : ∀ v, readEntry key (readEntry key (readEntry key v)) =
      readEntry key (readEntry key v) := by
    intro v
    unfold readEntry
    split_ifs
    · rfl
    · exact redact_redact_redact v
  induction n with
  | zero => rfl
  | succ n ih =>
      rw [Nat.add_right_comm, Function.iterate_succ', ih]
      exact funext hthird

/-- An entry that comes back after some writes has never changed. -/
theorem readEntry_eq_self_of_iterate {key : String} {n : ℕ} {v : Json} (hn : n ≠ 0)
    (h : (readEntry key)^[n] v = v) : readEntry key v = v := by
  have hperiod : Function.IsPeriodicPt (readEntry key) (2 * n) v :=
    Function.IsPeriodicPt.const_mul h 2
  have htwice : (readEntry key)^[2] v = v := by
    obtain ⟨m, hm⟩ := Nat.exists_eq_add_of_le' (show 2 ≤ 2 * n by omega)
    rw [← readEntry_iterate key m, ← hm]
    exact hperiod
  calc readEntry key v = readEntry key ((readEntry key)^[2] v) := by rw [htwice]
    _ = (readEntry key)^[1 + 2] v := (Function.iterate_succ_apply' (readEntry key) 2 v).symm
    _ = v := by rw [readEntry_iterate, htwice]

theorem readEntry_eq_self_iff (key : String) (v : Json) :
    readEntry key v = v ↔ if isSensitive key then v = redactedMark else Clean v := by
  unfold readEntry
  split_ifs
  · exact eq_comm
  · exact redact_eq_self_iff v

/-! ## The frame of a sequence -/

/-- Every entry that no tool names is after the sequence what it was before. -/
def ConfigFramed (ipRule : String → Option String) (r : StoredRuntime)
    (tools : List ConfigurationTool) : Prop :=
  ∀ key, (∀ t ∈ tools, key ∉ t.names) →
    Json.lookup key (r.afterTools ipRule tools).config = Json.lookup key r.config

/-- No entry that the tools leave alone has anything that is redacted. -/
def Lossless (r : StoredRuntime) (tools : List ConfigurationTool) : Prop :=
  ∀ key v, (∀ t ∈ tools, key ∉ t.names) → Json.lookup key r.config = some v →
    if isSensitive key then v = redactedMark else Clean v

theorem configFramed_iff (ipRule : String → Option String) (r : StoredRuntime)
    (tools : List ConfigurationTool) :
    ConfigFramed ipRule r tools ↔ configWrites ipRule r tools = 0 ∨ Lossless r tools := by
  constructor
  · intro hframed
    refine or_iff_not_imp_left.mpr fun hwrites key v hkey hv => ?_
    have hlookup := hframed key hkey
    rw [lookup_afterTools ipRule hkey, hv, Option.map_some, Option.some.injEq] at hlookup
    exact (readEntry_eq_self_iff key v).mp (readEntry_eq_self_of_iterate hwrites hlookup)
  · intro hcondition key hkey
    rw [lookup_afterTools ipRule hkey]
    rcases hcondition with hwrites | hlossless
    · rw [hwrites, Function.iterate_zero, Option.map_id, id_eq]
    · cases hv : Json.lookup key r.config with
      | none => rfl
      | some v =>
          have hself := (readEntry_eq_self_iff key v).mpr (hlossless key v hkey hv)
          rw [Option.map_some, Function.iterate_fixed hself]

/-- A stored limit of tokens, and a tool that switches routing on. -/
def tokenLimitRuntime : StoredRuntime where
  config := [("max_tokens", .int 4096)]

theorem maxTokens_lost_by_enableDynamicRouting :
    ¬ConfigFramed (fun _ => none) tokenLimitRuntime [.enableDynamicRouting] := by
  have hwrites : configWrites (fun _ => none) tokenLimitRuntime [.enableDynamicRouting] = 1 := by
    decide +kernel
  have hsensitive : isSensitive "max_tokens" = true := by decide
  intro hframed
  have hkept := hframed "max_tokens" (by decide)
  rw [lookup_afterTools _ (by decide), hwrites] at hkept
  simp [tokenLimitRuntime, Json.lookup, readEntry, hsensitive, redactedMark] at hkept

end Zyntry
