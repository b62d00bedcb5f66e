import Zyntry.AddressTexts
import Zyntry.RuntimeSettings

/-!
# Normalising a security policy twice

The normalisation of a policy merges defaults, clamps limits and rewrites the rules for
addresses. All of it leaves a normalised policy alone, but for one flag: the block of suspicious
requests follows the protection against injections if that key is given, and after the first
pass it always is.
-/

namespace Zyntry

open Python

/-- The integer limits, with their least and greatest values. -/
def securityLimits : List (String × ℤ × ℤ) :=
  [("max_input_chars", 1000, 1000000), ("rate_limit_per_minute", 1, 100000),
    ("violation_threshold", 1, 100), ("ban_duration_seconds", 60, 86400)]

def securityFlags : List String :=
  ["enabled", "block_suspicious_requests", "prompt_injection_protection", "pii_redaction",
    "ip_ban_enabled"]

/-- Distinct rules, each in its canonical form. -/
def CanonicalRules (dotted : Bool) (rules : List String) : Prop :=
  rules.Nodup ∧ ∀ rule ∈ rules,
    stripped rule = rule ∧ rule ≠ "" ∧ ipRuleText dotted rule = some rule

/-- What the normalisation establishes. -/
structure NormalisedPolicy (dotted : Bool) (m : Fields) : Prop where
  keys_prefix : Json.keys defaultRuntimeSecurityPolicy <+: Json.keys m
  nodup : (Json.keys m).Nodup
  limits : ∀ limit ∈ securityLimits, ∃ n,
    Json.lookup limit.1 m = some (.int n) ∧ limit.2.1 ≤ n ∧ n ≤ limit.2.2
  flags : ∀ key ∈ securityFlags, ∃ b, Json.lookup key m = some (.bool b)
  rules : ∀ key ∈ ["allowed_ips", "blocked_ips"], ∃ rules,
    Json.lookup key m = some (.arr (rules.map .str)) ∧ CanonicalRules dotted rules
  failureMode : Json.lookup "redis_failure_mode" m = some (.str "fail_open") ∨
    Json.lookup "redis_failure_mode" m = some (.str "fail_closed")

/-! ## Rules for addresses -/

/-- One round of the loop over the rules. -/
def addIpRule (ipRule : String → Option String) (normalized : List String) :
    Json → Except ToolError (List String)
  | .str s =>
      let item := stripped s
      if item = "" then .ok normalized
      else
        match ipRule item with
        | none => .error (.valueError s!"Invalid IP address or CIDR rule: {item}")
        | some rule => .ok (if rule ∈ normalized then normalized else normalized ++ [rule])
  | _ => .error .other

theorem normalizeIpRules_arr (ipRule : String → Option String) (items : List Json) :
    normalizeIpRules ipRule (.arr items) = items.foldlM (addIpRule ipRule) [] := rfl

section Rules

variable {dotted : Bool}

theorem canonicalRules_nil : CanonicalRules dotted [] := ⟨List.nodup_nil, nofun⟩

theorem CanonicalRules.add {normalized normalized' : List String}
    (h : CanonicalRules dotted normalized) {raw : Json}
    (hraw : addIpRule (ipRuleText dotted) normalized raw = .ok normalized') :
    CanonicalRules dotted normalized' := by
  unfold addIpRule at hraw
  split at hraw
  · next s =>
      dsimp only at hraw
      split_ifs at hraw with hblank
      · cases hraw
        exact h
      · split at hraw
        · cases hraw
        · next rule hrule =>
            obtain ⟨htrim, hne⟩ := stripped_of_ipRuleText (stripped_stripped s) hrule
            have hagain := ipRuleText_again hrule
            split_ifs at hraw with hmem
            · cases hraw
              exact h
            · cases hraw
              refine ⟨List.nodup_append.mpr ⟨h.1, List.nodup_singleton _, ?_⟩, ?_⟩
              · intro a ha b hb heq
                rw [List.mem_singleton.mp hb] at heq
                exact hmem (heq ▸ ha)
              · intro r hr
                rcases List.mem_append.mp hr with hr | hr
                · exact h.2 r hr
                · rw [List.mem_singleton.mp hr]
                  exact ⟨htrim, hne, hagain⟩
  · cases hraw

theorem canonicalRules_normalizeIpRules {value : Json} {rules : List String}
    (h : normalizeIpRules (ipRuleText dotted) value = .ok rules) : CanonicalRules dotted rules := by
  cases value with
  | null =>
      cases h
      exact canonicalRules_nil
  | arr items =>
      rw [normalizeIpRules_arr] at h
      exact foldlM_invariant (fun _ _ _ hb hraw => CanonicalRules.add hb hraw)
        canonicalRules_nil h
  | bool b => cases h
  | int n => cases h
  | float q => cases h
  | str s => cases h
  | obj fields => cases h

theorem foldlM_addIpRule {normalized rules : List String}
    (hnodup : (normalized ++ rules).Nodup) (hrules : CanonicalRules dotted rules) :
    (rules.map Json.str).foldlM (addIpRule (ipRuleText dotted)) normalized =
      .ok (normalized ++ rules) := by
  induction rules generalizing normalized with
  | nil => exact congrArg Except.ok (List.append_nil _).symm
  | cons rule rules ih =>
      obtain ⟨htrim, hne, hrule⟩ := hrules.2 rule List.mem_cons_self
      have hnew : rule ∉ normalized := fun hmem =>
        (List.nodup_append.mp hnodup).2.2 rule hmem rule List.mem_cons_self rfl
      have hadd : addIpRule (ipRuleText dotted) normalized (.str rule) =
          .ok (normalized ++ [rule]) := by
        rw [addIpRule, htrim, if_neg hne, hrule]
        dsimp only
        rw [if_neg hnew]
      have hrest := @ih (normalized ++ [rule]) (by simpa using hnodup)
        ⟨(List.nodup_cons.mp hrules.1).2, fun r hr => hrules.2 r (List.mem_cons_of_mem _ hr)⟩
      rw [List.append_assoc, List.singleton_append] at hrest
      rw [List.map_cons, List.foldlM_cons, hadd]
      exact hrest

theorem normalizeIpRules_of_canonical {rules : List String} (h : CanonicalRules dotted rules) :
    normalizeIpRules (ipRuleText dotted) (.arr (rules.map .str)) = .ok rules := by
  have hloop := @foldlM_addIpRule dotted [] rules (by simpa using h.1) h
  rw [normalizeIpRules_arr, hloop, List.nil_append]

end Rules

/-- The key of the console is given, or the flag of the gateway is not switched off. -/
def KeepsProtection (policy : Fields) : Prop :=
  "prompt_injection_protection" ∈ Json.keys policy ∨
    ((Json.lookup "block_suspicious_requests"
      (Json.update defaultRuntimeSecurityPolicy policy)).getD .null).truthy = true

/-! ## The steps of a pass -/

def clampLimits (merged : Fields) : Fields :=
  clampLimit "ban_duration_seconds" 60 86400 900
    (clampLimit "violation_threshold" 1 100 3
      (clampLimit "rate_limit_per_minute" 1 100000 120
        (clampLimit "max_input_chars" 1000 1000000 10000 merged)))

def clampFlags (merged : Fields) : Fields :=
  ["enabled", "block_suspicious_requests", "prompt_injection_protection",
    "pii_redaction"].foldl clampFlag merged

/-- The flag of the gateway follows the one of the console, if that is supplied. -/
def alignFlags (policy merged : Fields) : Fields :=
  if "prompt_injection_protection" ∈ Json.keys policy then
    Json.set "block_suspicious_requests"
      ((Json.lookup "prompt_injection_protection" merged).getD .null) merged
  else merged

def failureModeOf (merged : Fields) : String :=
  match Json.lookup "redis_failure_mode" merged with
  | some (.str s) => if lower (stripped s) = "fail_open" then "fail_open" else "fail_closed"
  | _ => "fail_closed"

/-- The policy before its rules are read. -/
def clamped (policy : Fields) : Fields :=
  clampFlag (alignFlags policy
    (clampFlags (clampLimits (Json.update defaultRuntimeSecurityPolicy policy)))) "ip_ban_enabled"

def withRules (allowed blocked : List String) (merged : Fields) : Fields :=
  Json.set "blocked_ips" (.arr (blocked.map .str))
    (Json.set "allowed_ips" (.arr (allowed.map .str)) merged)

def withFailureMode (merged : Fields) : Fields :=
  Json.set "redis_failure_mode" (.str (failureModeOf merged)) merged

theorem normalizeRuntimeSecurityPolicy_eq (ipRule : String → Option String) (policy : Fields) :
    normalizeRuntimeSecurityPolicy ipRule policy = (do
      let merged := clamped policy
      let allowed ← normalizeIpRules ipRule ((Json.lookup "allowed_ips" merged).getD .null)
      let blocked ← normalizeIpRules ipRule ((Json.lookup "blocked_ips" merged).getD .null)
      pure (withFailureMode (withRules allowed blocked merged))) := by
  unfold normalizeRuntimeSecurityPolicy withFailureMode failureModeOf withRules clamped alignFlags
    clampFlags clampLimits
  rfl

/-! ## The first pass -/

/-- A dict with the keys of the default policy at its front. -/
def HasDefaults (m : Fields) : Prop :=
  Json.keys defaultRuntimeSecurityPolicy <+: Json.keys m ∧ (Json.keys m).Nodup

theorem HasDefaults.set {m : Fields} (h : HasDefaults m) (key : String) (value : Json) :
    HasDefaults (Json.set key value m) :=
  ⟨h.1.trans (Json.keys_prefix_set key value m), Json.nodup_keys_set h.2 key value⟩

theorem hasDefaults_update (policy : Fields) :
    HasDefaults (Json.update defaultRuntimeSecurityPolicy policy) :=
  ⟨Json.keys_prefix_update _ _, Json.nodup_keys_update (by decide) policy⟩

theorem hasDefaults_clamped (policy : Fields) : HasDefaults (clamped policy) := by
  have hflags : HasDefaults
      (clampFlags (clampLimits (Json.update defaultRuntimeSecurityPolicy policy))) :=
    ((((((((hasDefaults_update policy).set _ _).set _ _).set _ _).set _ _).set _ _).set _ _).set
      _ _).set _ _
  unfold clamped alignFlags
  split_ifs
  · exact (hflags.set _ _).set _ _
  · exact hflags.set _ _

theorem lookup_clampLimit (key : String) {minimum maximum default_ : ℤ}
    (hdefault : minimum ≤ default_ ∧ default_ ≤ maximum) (merged : Fields) :
    ∃ n, Json.lookup key (clampLimit key minimum maximum default_ merged) = some (.int n) ∧
      minimum ≤ n ∧ n ≤ maximum := by
  unfold clampLimit
  refine ⟨_, Json.lookup_set_self _ _ _, ?_⟩
  cases int ((Json.lookup key merged).getD .null) with
  | ok n => exact ⟨le_max_left _ _, max_le (hdefault.1.trans hdefault.2) (min_le_left _ _)⟩
  | error e => exact hdefault

theorem lookup_clampLimit_of_ne {key k : String} (h : k ≠ key) (minimum maximum default_ : ℤ)
    (merged : Fields) :
    Json.lookup k (clampLimit key minimum maximum default_ merged) = Json.lookup k merged :=
  Json.lookup_set_of_ne h _ _

theorem lookup_clampFlag_of_ne {key k : String} (h : k ≠ key) (merged : Fields) :
    Json.lookup k (clampFlag merged key) = Json.lookup k merged :=
  Json.lookup_set_of_ne h _ _

theorem lookup_clampFlag (key : String) (merged : Fields) :
    Json.lookup key (clampFlag merged key) =
      some (.bool ((Json.lookup key merged).getD .null).truthy) :=
  Json.lookup_set_self _ _ _

theorem lookup_alignFlags_of_ne {k : String} (h : k ≠ "block_suspicious_requests")
    (policy merged : Fields) : Json.lookup k (alignFlags policy merged) = Json.lookup k merged := by
  unfold alignFlags
  split_ifs
  · exact Json.lookup_set_of_ne h _ _
  · rfl

/-- The flags are clamped apart from the rest. -/
theorem lookup_clamped_of_notMem {k : String} (h : k ∉ securityFlags) (policy : Fields) :
    Json.lookup k (clamped policy) =
      Json.lookup k (clampLimits (Json.update defaultRuntimeSecurityPolicy policy)) := by
  simp only [securityFlags, List.mem_cons, List.not_mem_nil, or_false, not_or] at h
  obtain ⟨henabled, hblock, hprotection, hredaction, hban⟩ := h
  rw [clamped, lookup_clampFlag_of_ne hban, lookup_alignFlags_of_ne hblock]
  simp only [clampFlags, List.foldl_cons, List.foldl_nil]
  rw [lookup_clampFlag_of_ne hredaction, lookup_clampFlag_of_ne hprotection,
    lookup_clampFlag_of_ne hblock, lookup_clampFlag_of_ne henabled]

/-- The limits of a policy that is clamped. -/
theorem limits_clamped (policy : Fields) : ∀ limit ∈ securityLimits, ∃ n,
    Json.lookup limit.1 (clamped policy) = some (.int n) ∧ limit.2.1 ≤ n ∧ n ≤ limit.2.2 := by
  intro limit hlimit
  simp only [securityLimits, List.mem_cons, List.not_mem_nil, or_false] at hlimit
  rcases hlimit with rfl | rfl | rfl | rfl
  · rw [lookup_clamped_of_notMem (by decide), clampLimits, lookup_clampLimit_of_ne (by decide),
      lookup_clampLimit_of_ne (by decide), lookup_clampLimit_of_ne (by decide)]
    exact lookup_clampLimit _ (by decide) _
  · rw [lookup_clamped_of_notMem (by decide), clampLimits, lookup_clampLimit_of_ne (by decide),
      lookup_clampLimit_of_ne (by decide)]
    exact lookup_clampLimit _ (by decide) _
  · rw [lookup_clamped_of_notMem (by decide), clampLimits, lookup_clampLimit_of_ne (by decide)]
    exact lookup_clampLimit _ (by decide) _
  · rw [lookup_clamped_of_notMem (by decide), clampLimits]
    exact lookup_clampLimit _ (by decide) _

/-- The flags before the two of them are aligned. -/
theorem lookup_clampFlags {k : String} (h : k ∈ ["enabled", "block_suspicious_requests",
    "prompt_injection_protection", "pii_redaction"]) (merged : Fields) :
    Json.lookup k (clampFlags merged) =
      some (.bool ((Json.lookup k merged).getD .null).truthy) := by
  simp only [List.mem_cons, List.not_mem_nil, or_false] at h
  simp only [clampFlags, List.foldl_cons, List.foldl_nil]
  rcases h with rfl | rfl | rfl | rfl
  · rw [lookup_clampFlag_of_ne (by decide), lookup_clampFlag_of_ne (by decide),
      lookup_clampFlag_of_ne (by decide), lookup_clampFlag]
  · rw [lookup_clampFlag_of_ne (by decide), lookup_clampFlag_of_ne (by decide), lookup_clampFlag,
      lookup_clampFlag_of_ne (by decide)]
  · rw [lookup_clampFlag_of_ne (by decide), lookup_clampFlag, lookup_clampFlag_of_ne (by decide),
      lookup_clampFlag_of_ne (by decide)]
  · rw [lookup_clampFlag, lookup_clampFlag_of_ne (by decide), lookup_clampFlag_of_ne (by decide),
      lookup_clampFlag_of_ne (by decide)]

theorem lookup_clampLimits_of_notMem {k : String} (h : k ∉ securityLimits.map Prod.fst)
    (merged : Fields) : Json.lookup k (clampLimits merged) = Json.lookup k merged := by
  simp only [securityLimits, List.map_cons, List.map_nil, List.mem_cons, List.not_mem_nil,
    or_false, not_or] at h
  obtain ⟨hinput, hrate, hviolation, hban⟩ := h
  rw [clampLimits, lookup_clampLimit_of_ne hban, lookup_clampLimit_of_ne hviolation,
    lookup_clampLimit_of_ne hrate, lookup_clampLimit_of_ne hinput]

/-- The flags of a policy that is clamped are truth values. -/
theorem flags_clamped (policy : Fields) :
    ∀ key ∈ securityFlags, ∃ b, Json.lookup key (clamped policy) = some (.bool b) := by
  intro key hkey
  by_cases hban : key = "ip_ban_enabled"
  · rw [hban]
    exact ⟨_, lookup_clampFlag _ _⟩
  · rw [clamped, lookup_clampFlag_of_ne hban]
    by_cases hblock : key = "block_suspicious_requests"
    · subst hblock
      unfold alignFlags
      split_ifs
      · rw [Json.lookup_set_self, lookup_clampFlags (by decide)]
        exact ⟨_, rfl⟩
      · rw [lookup_clampFlags (by decide)]
        exact ⟨_, rfl⟩
    · rw [lookup_alignFlags_of_ne hblock, lookup_clampFlags]
      · exact ⟨_, rfl⟩
      · simp only [securityFlags, List.mem_cons, List.not_mem_nil, or_false] at hkey ⊢
        tauto

theorem lookup_passed_of_notMem {k : String} (h : k ∉ ["redis_failure_mode", "blocked_ips",
    "allowed_ips"]) (allowed blocked : List String) (merged : Fields) :
    Json.lookup k (withFailureMode (withRules allowed blocked merged)) = Json.lookup k merged := by
  simp only [List.mem_cons, List.not_mem_nil, or_false, not_or] at h
  rw [withFailureMode, Json.lookup_set_of_ne h.1, withRules, Json.lookup_set_of_ne h.2.1,
    Json.lookup_set_of_ne h.2.2]

theorem failureModeOf_cases (merged : Fields) :
    failureModeOf merged = "fail_open" ∨ failureModeOf merged = "fail_closed" := by
  unfold failureModeOf
  split
  · split_ifs
    · exact .inl rfl
    · exact .inr rfl
  · exact .inr rfl

/-- What a pass returns is normalised, and has the flags of the clamped policy. -/
theorem normalisedPolicy_of_normalize {dotted : Bool} {policy m : Fields}
    (h : normalizeRuntimeSecurityPolicy (ipRuleText dotted) policy = .ok m) :
    NormalisedPolicy dotted m ∧
      ∀ key ∈ securityFlags, Json.lookup key m = Json.lookup key (clamped policy) := by
  rw [normalizeRuntimeSecurityPolicy_eq] at h
  obtain ⟨allowed, hallowed, h⟩ := bind_eq_ok.mp h
  obtain ⟨blocked, hblocked, h⟩ := bind_eq_ok.mp h
  have hdefaults := hasDefaults_clamped policy
  have hsame : ∀ k ∉ ["redis_failure_mode", "blocked_ips", "allowed_ips"],
      Json.lookup k m = Json.lookup k (clamped policy) := by
    intro k hk
    rw [← Except.ok.inj h]
    exact lookup_passed_of_notMem hk allowed blocked (clamped policy)
  have hflags : ∀ key ∈ securityFlags, Json.lookup key m = Json.lookup key (clamped policy) :=
    fun key hkey => hsame key (by revert key; decide)
  have hall : HasDefaults m := by
    rw [← Except.ok.inj h]
    exact ((hdefaults.set _ _).set _ _).set _ _
  refine ⟨⟨hall.1, hall.2, ?_, ?_, ?_, ?_⟩, hflags⟩
  · intro limit hlimit
    rw [hsame limit.1 (by revert limit; decide)]
    exact limits_clamped policy limit hlimit
  · intro key hkey
    rw [hflags key hkey]
    exact flags_clamped policy key hkey
  · intro key hkey
    rw [← Except.ok.inj h, withFailureMode]
    rcases List.mem_cons.mp hkey with rfl | hkey
    · refine ⟨allowed, ?_, canonicalRules_normalizeIpRules hallowed⟩
      rw [Json.lookup_set_of_ne (by decide), withRules, Json.lookup_set_of_ne (by decide),
        Json.lookup_set_self]
    · obtain rfl := List.mem_singleton.mp hkey
      refine ⟨blocked, ?_, canonicalRules_normalizeIpRules hblocked⟩
      rw [Json.lookup_set_of_ne (by decide), withRules, Json.lookup_set_self]
  · rw [← Except.ok.inj h, withFailureMode, Json.lookup_set_self]
    exact (failureModeOf_cases _).imp (congrArg fun mode => some (Json.str mode))
      (congrArg fun mode => some (Json.str mode))

/-! ## The second pass -/

namespace NormalisedPolicy

variable {dotted : Bool} {m : Fields}

theorem clampLimit_eq (h : NormalisedPolicy dotted m) {limit : String × ℤ × ℤ}
    (hlimit : limit ∈ securityLimits) (default_ : ℤ) :
    clampLimit limit.1 limit.2.1 limit.2.2 default_ m = m := by
  obtain ⟨n, hn, hlow, hhigh⟩ := h.limits limit hlimit
  apply Json.set_eq_self
  rw [hn]
  simp only [Option.getD_some, int]
  rw [min_eq_right hhigh, max_eq_right hlow]

theorem clampFlag_eq (h : NormalisedPolicy dotted m) {key : String} (hkey : key ∈ securityFlags) :
    clampFlag m key = m := by
  obtain ⟨b, hb⟩ := h.flags key hkey
  apply Json.set_eq_self
  rw [hb]
  rfl

theorem clampLimits_eq (h : NormalisedPolicy dotted m) : clampLimits m = m := by
  have hinput := h.clampLimit_eq
    (show ("max_input_chars", (1000 : ℤ), (1000000 : ℤ)) ∈ securityLimits by decide) 10000
  have hrate := h.clampLimit_eq
    (show ("rate_limit_per_minute", (1 : ℤ), (100000 : ℤ)) ∈ securityLimits by decide) 120
  have hviolation := h.clampLimit_eq
    (show ("violation_threshold", (1 : ℤ), (100 : ℤ)) ∈ securityLimits by decide) 3
  have hban := h.clampLimit_eq
    (show ("ban_duration_seconds", (60 : ℤ), (86400 : ℤ)) ∈ securityLimits by decide) 900
  dsimp only at hinput hrate hviolation hban
  rw [clampLimits, hinput, hrate, hviolation, hban]

theorem clampFlags_eq (h : NormalisedPolicy dotted m) : clampFlags m = m := by
  simp only [clampFlags, List.foldl_cons, List.foldl_nil]
  rw [h.clampFlag_eq (by decide), h.clampFlag_eq (by decide), h.clampFlag_eq (by decide),
    h.clampFlag_eq (by decide)]

/-- A flag of a normalised policy may be set. -/
theorem setFlag (h : NormalisedPolicy dotted m) (flag : String) (hflag : flag ∈ securityFlags)
    (b : Bool) : NormalisedPolicy dotted (Json.set flag (.bool b) m) := by
  have hlimits : ∀ limit ∈ securityLimits, limit.1 ∉ securityFlags := by decide
  have hrules : ∀ key ∈ ["allowed_ips", "blocked_ips"], key ∉ securityFlags := by decide
  have hmode : "redis_failure_mode" ∉ securityFlags := by decide
  have hdefaults := HasDefaults.set ⟨h.keys_prefix, h.nodup⟩ flag (.bool b)
  refine ⟨hdefaults.1, hdefaults.2, ?_, ?_, ?_, ?_⟩
  · intro limit hlimit
    rw [Json.lookup_set_of_ne]
    · exact h.limits limit hlimit
    · rintro rfl
      exact hlimits limit hlimit hflag
  · intro key hkey
    rw [Json.lookup_set]
    split_ifs
    · exact ⟨b, rfl⟩
    · exact h.flags key hkey
  · intro key hkey
    rw [Json.lookup_set_of_ne]
    · exact h.rules key hkey
    · rintro rfl
      exact hrules key hkey hflag
  · rw [Json.lookup_set_of_ne]
    · exact h.failureMode
    · rintro rfl
      exact hmode hflag

theorem withFailureMode_eq (h : NormalisedPolicy dotted m) : withFailureMode m = m := by
  apply Json.set_eq_self
  unfold failureModeOf
  rcases h.failureMode with hmode | hmode
  · rw [hmode]
    rfl
  · rw [hmode]
    rfl

/-- A second pass does no more than to align the two flags. -/
theorem normalize_eq (h : NormalisedPolicy dotted m) {b : Bool}
    (hb : Json.lookup "prompt_injection_protection" m = some (.bool b)) :
    normalizeRuntimeSecurityPolicy (ipRuleText dotted) m =
      .ok (Json.set "block_suspicious_requests" (.bool b) m) := by
  have hupdate : Json.update defaultRuntimeSecurityPolicy m = m :=
    Json.update_eq_of_keys_prefix h.keys_prefix h.nodup
  have hkey : "prompt_injection_protection" ∈ Json.keys m := h.keys_prefix.subset (by decide)
  have haligned := h.setFlag "block_suspicious_requests" (by decide) b
  have hclamped : clamped m = Json.set "block_suspicious_requests" (.bool b) m := by
    rw [clamped, hupdate, h.clampLimits_eq, h.clampFlags_eq, alignFlags, if_pos hkey, hb,
      Option.getD_some, haligned.clampFlag_eq (by decide)]
  generalize Json.set "block_suspicious_requests" (.bool b) m = m' at haligned hclamped ⊢
  obtain ⟨allowed, hallowed, hcanonical⟩ := haligned.rules "allowed_ips" (by decide)
  obtain ⟨blocked, hblocked, hcanonical'⟩ := haligned.rules "blocked_ips" (by decide)
  have hrules : withRules allowed blocked m' = m' := by
    rw [withRules, Json.set_eq_self hallowed, Json.set_eq_self hblocked]
  rw [normalizeRuntimeSecurityPolicy_eq, hclamped]
  dsimp only
  rw [hallowed, hblocked, Option.getD_some, Option.getD_some, normalizeIpRules_of_canonical hcanonical,
    normalizeIpRules_of_canonical hcanonical']
  exact congrArg Except.ok (by rw [hrules, haligned.withFailureMode_eq])

end NormalisedPolicy

/-- The two flags agree after the first pass exactly if the input keeps them together. -/
theorem lookup_clamped_eq_iff (policy : Fields) :
    Json.lookup "block_suspicious_requests" (clamped policy) =
        Json.lookup "prompt_injection_protection" (clamped policy) ↔ KeepsProtection policy := by
  have hblock : ∀ merged, Json.lookup "block_suspicious_requests" (clampFlags merged) =
      some (.bool ((Json.lookup "block_suspicious_requests" merged).getD .null).truthy) :=
    lookup_clampFlags (by decide)
  have hprotection : ∀ merged, Json.lookup "prompt_injection_protection" (clampFlags merged) =
      some (.bool ((Json.lookup "prompt_injection_protection" merged).getD .null).truthy) :=
    lookup_clampFlags (by decide)
  rw [clamped, lookup_clampFlag_of_ne (by decide), lookup_clampFlag_of_ne (by decide),
    lookup_alignFlags_of_ne (k := "prompt_injection_protection") (by decide)]
  unfold alignFlags KeepsProtection
  split_ifs with hkey
  · rw [Json.lookup_set_self, hprotection]
    simp [hkey]
  · have hdefault : Json.lookup "prompt_injection_protection"
        (Json.update defaultRuntimeSecurityPolicy policy) = some (.bool true) := by
      rw [Json.lookup_update_of_notMem hkey]
      rfl
    rw [hblock, hprotection, lookup_clampLimits_of_notMem (by decide),
      lookup_clampLimits_of_notMem (by decide), hdefault]
    simp [hkey, Json.truthy]

/-- What `enforce` reads of a runtime. -/
def enforcedPolicy (ipRule : String → Option String) (r : StoredRuntime) :
    Except ToolError Fields :=
  normalizeRuntimeSecurityPolicy ipRule r.securityPolicies

theorem normalize_again_iff {dotted : Bool} {policy m : Fields}
    (h : normalizeRuntimeSecurityPolicy (ipRuleText dotted) policy = .ok m) :
    normalizeRuntimeSecurityPolicy (ipRuleText dotted) m = .ok m ↔ KeepsProtection policy := by
  obtain ⟨hm, hflags⟩ := normalisedPolicy_of_normalize h
  obtain ⟨b, hb⟩ := hm.flags "prompt_injection_protection" (by decide)
  rw [hm.normalize_eq hb, ← lookup_clamped_eq_iff, ← hflags _ (by decide), ← hflags _ (by decide),
    hb]
  constructor
  · intro hsame
    rw [← Except.ok.inj hsame, Json.lookup_set_self]
  · intro hblock
    rw [Json.set_eq_self hblock]

/-- A policy is left alone by a second pass, and so is enforced as it was stored, exactly if the
key of the console is given or the flag of the gateway is not switched off. -/
theorem normalize_idempotent_iff (dotted : Bool) {policy m : Fields}
    (h : normalizeRuntimeSecurityPolicy (ipRuleText dotted) policy = .ok m) :
    (normalizeRuntimeSecurityPolicy (ipRuleText dotted) m = .ok m ↔ KeepsProtection policy) ∧
      ∀ (r r' : StoredRuntime) (data : RuntimePatch),
        data.securityPolicies = some (some policy) →
        updateRuntime (ipRuleText dotted) r data = .ok r' →
          r'.securityPolicies = m ∧
            (enforcedPolicy (ipRuleText dotted) r' = .ok r'.securityPolicies ↔
              KeepsProtection policy) := by
  refine ⟨normalize_again_iff h, ?_⟩
  intro r r' data hdata hupdate
  obtain ⟨policies, hpolicies, hupdate⟩ := bind_eq_ok.mp hupdate
  rw [RuntimePatch.effectivePolicies, hdata] at hpolicies
  dsimp only at hpolicies
  rw [Option.getD_some, h] at hpolicies
  split at hupdate
  · cases hupdate
  · obtain ⟨updated, hassign, hflush⟩ := bind_eq_ok.mp hupdate
    obtain rfl := StoredRuntime.flush_eq_ok hflush
    obtain ⟨-, -, -, -, hstored, -, -⟩ := RuntimePatch.assign_eq_ok hassign
    have hm : r'.securityPolicies = m := hstored.trans (Except.ok.inj hpolicies).symm
    refine ⟨hm, ?_⟩
    rw [enforcedPolicy, hm]
    exact normalize_again_iff h

/-- The gateway's flag alone is switched off. -/
def gatewayFlagOff : Fields := [("block_suspicious_requests", .bool false)]

/-- The first pass leaves the flag off and the second one switches it on. -/
theorem gatewayFlagOff_not_idempotent : ∃ m m',
    normalizeRuntimeSecurityPolicy (ipRuleText true) gatewayFlagOff = .ok m ∧
      normalizeRuntimeSecurityPolicy (ipRuleText true) m = .ok m' ∧ m ≠ m' := by
  refine ⟨_, _, rfl, rfl, ?_⟩
  intro heq
  have hflag : some (Json.bool false) = some (Json.bool true) :=
    congrArg (Json.lookup "block_suspicious_requests") heq
  cases hflag

/-- The policy of a runtime that sets nothing is the default one. -/
theorem normalize_idempotent_default :
    (normalizeRuntimeSecurityPolicy (ipRuleText true) defaultRuntimeSecurityPolicy =
        .ok defaultRuntimeSecurityPolicy ↔ KeepsProtection []) ∧
      ∀ (r r' : StoredRuntime) (data : RuntimePatch),
        data.securityPolicies = some (some []) →
        updateRuntime (ipRuleText true) r data = .ok r' →
          r'.securityPolicies = defaultRuntimeSecurityPolicy ∧
            (enforcedPolicy (ipRuleText true) r' = .ok r'.securityPolicies ↔ KeepsProtection []) :=
  normalize_idempotent_iff true rfl

end Zyntry
