import Zyntry.PythonJson

/-!
# Redaction of a runtime configuration

`invoke` shows a redacted copy of the stored configuration to its caller and
reads its execution settings from the same copy. This module settles which
settings survive: those whose key does not match the pattern of sensitive keys
and whose value contains nothing to redact.
-/

namespace Zyntry

open Python

/-! ## The redactor -/

def separator : Atom := .optional ['_', '-']

/-- `_SENSITIVE_KEYS_RE`. -/
def sensitiveKeys : List (List Atom) :=
  [word "password", word "secret", word "token",
   word "api" ++ separator :: word "key",
   word "access" ++ separator :: word "token",
   word "refresh" ++ separator :: word "token",
   word "credential", word "authorization", word "auth_code", word "private_key"]

def isSensitive (key : String) : Bool := search sensitiveKeys key.toList

def redactedMark : Json := .str "[REDACTED]"

def secretPrefixes : List String := ["sk_", "ghp_", "xoxb-"]

def startsLikeSecret (s : String) : Bool :=
  secretPrefixes.any (fun start => start.toList.isPrefixOf s.toList)

def redactString (s : String) : String :=
  if startsLikeSecret s then String.ofList (s.toList.take 7) ++ "..." ++ "[REDACTED]" else s

mutual
/-- `SecretManager.redact`. -/
def redact : Json → Json
  | .obj fields => .obj (redactFields fields)
  | .arr items => .arr (redactItems items)
  | .str s => .str (redactString s)
  | .null => .null
  | .bool b => .bool b
  | .int n => .int n
  | .float q => .float q

def redactItems : List Json → List Json
  | [] => []
  | v :: items => redact v :: redactItems items

def redactFields : List (String × Json) → List (String × Json)
  | [] => []
  | (k, v) :: fields =>
      (k, if isSensitive k then redactedMark else redact v) :: redactFields fields
end

/-! ## What redaction leaves alone -/

mutual
/-- Nothing in the value is redacted, or it already looks as after redaction. -/
def Clean : Json → Prop
  | .obj fields => CleanFields fields
  | .arr items => CleanItems items
  | .str s => startsLikeSecret s = true → s.toList = s.toList.take 7 ++ "...[REDACTED]".toList
  | .null => True
  | .bool _ => True
  | .int _ => True
  | .float _ => True

def CleanItems : List Json → Prop
  | [] => True
  | v :: items => Clean v ∧ CleanItems items

def CleanFields : List (String × Json) → Prop
  | [] => True
  | (k, v) :: fields =>
      (if isSensitive k then v = redactedMark else Clean v) ∧ CleanFields fields
end

theorem redactString_eq_self_iff (s : String) :
    redactString s = s ↔
      (startsLikeSecret s = true → s.toList = s.toList.take 7 ++ "...[REDACTED]".toList) := by
  unfold redactString
  split_ifs with hsecret
  · rw [← String.toList_inj]
    simp [hsecret, eq_comm]
  · simp [hsecret]

mutual
theorem redact_eq_self_iff : ∀ v : Json, redact v = v ↔ Clean v
  | .obj fields => by simp only [redact, Clean, Json.obj.injEq, redactFields_eq_self_iff fields]
  | .arr items => by simp only [redact, Clean, Json.arr.injEq, redactItems_eq_self_iff items]
  | .str s => by simp only [redact, Clean, Json.str.injEq, redactString_eq_self_iff s]
  | .null => by simp only [redact, Clean]
  | .bool b => by simp only [redact, Clean]
  | .int n => by simp only [redact, Clean]
  | .float q => by simp only [redact, Clean]

theorem redactItems_eq_self_iff : ∀ items : List Json, redactItems items = items ↔ CleanItems items
  | [] => by simp only [redactItems, CleanItems]
  | v :: items => by
      simp only [redactItems, CleanItems, List.cons.injEq, redact_eq_self_iff v,
        redactItems_eq_self_iff items]

theorem redactFields_eq_self_iff : ∀ fields : List (String × Json),
    redactFields fields = fields ↔ CleanFields fields
  | [] => by simp only [redactFields, CleanFields]
  | (k, v) :: fields => by
      simp only [redactFields, CleanFields, List.cons.injEq, Prod.mk.injEq, true_and,
        redactFields_eq_self_iff fields]
      split_ifs
      · simp only [eq_comm]
      · simp only [redact_eq_self_iff v]
end

/-- A lookup in the redacted copy depends on the pattern only through its own key. -/
theorem lookup_redactFields (key : String) (fields : List (String × Json)) :
    Json.lookup key (redactFields fields) = (Json.lookup key fields).map
      (fun v => if isSensitive key then redactedMark else redact v) := by
  induction fields with
  | nil => rfl
  | cons field fields ih =>
      obtain ⟨k, v⟩ := field
      simp only [redactFields, Json.lookup]
      by_cases hk : k = key
      · subst hk
        simp only [if_true, Option.map_some]
      · simpa only [if_neg hk] using ih

/-! ## Execution settings -/

/-- `max_tokens` of the request body, whose field admits 1 to 131072. -/
abbrev MaxTokens := {n : ℤ // 1 ≤ n ∧ n ≤ 131072}

/-- `runtime_data["config"]`. -/
def runtimeConfig (stored : List (String × Json)) : Json := redact (.obj stored)

/-- `int(body.max_tokens or config.get("max_tokens") or 2_048)`. -/
def requestedOutputTokens (bodyMaxTokens : Option MaxTokens) (config : Json) :
    Except IntError ℤ :=
  match bodyMaxTokens with
  | some n => .ok n
  | none =>
      match config.get? "max_tokens" with
      | some v => if v.truthy then int v else .ok 2048
      | none => .ok 2048

/-- `bool(config.get("dynamic_routing_enabled"))`. -/
def dynamicRoutingEnabled (config : Json) : Bool :=
  ((config.get? "dynamic_routing_enabled").map Json.truthy).getD false

/-- `bool(config.get("autonomous_tool_loop", True))`. -/
def autonomousToolLoop (config : Json) : Bool :=
  ((config.get? "autonomous_tool_loop").map Json.truthy).getD true

/-- `min(3, max(0, int(config.get("max_tool_steps", 3))))`, or 1 if `int` fails. -/
def maxToolSteps (config : Json) : ℕ :=
  match int ((config.get? "max_tool_steps").getD (.int 3)) with
  | .ok n => (min 3 (max 0 n)).toNat
  | .error _ => 1

/-- What `invoke` reads from the configuration to execute a request. -/
def settingKeys : List String :=
  ["max_tokens", "dynamic_routing_enabled", "autonomous_tool_loop", "max_tool_steps"]

/-- The settings of the redacted copy are the stored ones, and the number of
output tokens can be computed. -/
def SettingsKept (bodyMaxTokens : Option MaxTokens) (stored : List (String × Json)) : Prop :=
  (∀ key ∈ settingKeys, (runtimeConfig stored).get? key = (Json.obj stored).get? key) ∧
    ∃ n, requestedOutputTokens bodyMaxTokens (runtimeConfig stored) = .ok n

/-- `max_tokens` is the one setting whose key the pattern matches. -/
theorem isSensitive_settingKeys : settingKeys.map isSensitive = [true, false, false, false] := by
  decide +kernel

/-- Either no `max_tokens` is stored, or the redaction mark itself is and the
request brings its own limit; the values of the other settings are clean. -/
structure SettingsUntouched (bodyMaxTokens : Option MaxTokens) (stored : List (String × Json)) :
    Prop where
  maxTokens : ∀ v ∈ Json.lookup "max_tokens" stored, v = redactedMark ∧ bodyMaxTokens.isSome
  others : ∀ key ∈ settingKeys, key ≠ "max_tokens" → ∀ v ∈ Json.lookup key stored, Clean v

theorem get?_runtimeConfig (stored : List (String × Json)) (key : String) :
    (runtimeConfig stored).get? key = (Json.lookup key stored).map
      (fun v => if isSensitive key then redactedMark else redact v) := by
  simp only [runtimeConfig, redact, Json.get?, lookup_redactFields]

/-- A stored value comes back unchanged from the redacted copy. -/
theorem get?_runtimeConfig_eq_iff (stored : List (String × Json)) (key : String) :
    (runtimeConfig stored).get? key = (Json.obj stored).get? key ↔
      ∀ v ∈ Json.lookup key stored, if isSensitive key then v = redactedMark else Clean v := by
  rw [get?_runtimeConfig]
  simp only [Json.get?]
  cases Json.lookup key stored with
  | none => simp
  | some v =>
      simp only [Option.map_some, Option.some.injEq, Option.mem_def, forall_eq']
      split_ifs
      · exact eq_comm
      · exact redact_eq_self_iff v

theorem requestedOutputTokens_ok_iff (bodyMaxTokens : Option MaxTokens)
    (stored : List (String × Json)) :
    (∃ n, requestedOutputTokens bodyMaxTokens (runtimeConfig stored) = .ok n) ↔
      ∀ v ∈ Json.lookup "max_tokens" stored, bodyMaxTokens.isSome := by
  have hsensitive : isSensitive "max_tokens" = true := by decide +kernel
  have hmark : ¬ ∃ n, int redactedMark = .ok n := by
    have herror : int redactedMark = .error .valueError := by decide +kernel
    simp [herror]
  have htruthy : redactedMark.truthy = true := by decide +kernel
  cases bodyMaxTokens with
  | some n => simp [requestedOutputTokens]
  | none =>
      simp only [requestedOutputTokens, get?_runtimeConfig, hsensitive, if_true]
      cases Json.lookup "max_tokens" stored with
      | none => simp
      | some v => simpa [htruthy] using hmark

theorem settingsKept_iff (bodyMaxTokens : Option MaxTokens) (stored : List (String × Json)) :
    SettingsKept bodyMaxTokens stored ↔ SettingsUntouched bodyMaxTokens stored := by
  have hkeys := isSensitive_settingKeys
  simp only [settingKeys, List.map_cons, List.map_nil, List.cons.injEq, and_true] at hkeys
  obtain ⟨htokens, hrouting, hloop, hsteps⟩ := hkeys
  rw [SettingsKept, requestedOutputTokens_ok_iff]
  simp only [get?_runtimeConfig_eq_iff, settingKeys, List.forall_mem_cons, htokens, hrouting, hloop,
    hsteps, if_true]
  constructor
  · rintro ⟨⟨hmark, hrouting, hloop, hsteps, _⟩, hbody⟩
    refine ⟨fun v hv => ⟨hmark v hv, hbody v hv⟩, ?_⟩
    simp only [settingKeys, List.forall_mem_cons]
    exact ⟨fun h => absurd rfl h, fun _ => hrouting, fun _ => hloop, fun _ => hsteps, by simp⟩
  · rintro ⟨hmax, hothers⟩
    simp only [settingKeys, List.forall_mem_cons] at hothers
    obtain ⟨_, hrouting, hloop, hsteps, _⟩ := hothers
    exact ⟨⟨fun v hv => (hmax v hv).1, hrouting (by decide), hloop (by decide), hsteps (by decide),
      by simp⟩, fun v hv => (hmax v hv).2⟩

/-- A stored limit of 1024 output tokens makes `int` fail. -/
theorem settings_lost_at_maxTokens :
    ¬ ∀ (bodyMaxTokens : Option MaxTokens) (stored : List (String × Json)),
      SettingsKept bodyMaxTokens stored := by
  intro h
  have hfails : requestedOutputTokens none (runtimeConfig [("max_tokens", .int 1024)]) =
      .error .valueError := by decide +kernel
  obtain ⟨n, hn⟩ := (h none [("max_tokens", .int 1024)]).2
  rw [hfails] at hn
  cases hn

end Zyntry
