import Zyntry.SecurityPolicies
import Zyntry.Chunking
import Zyntry.SensitiveText

/-!
# Filtering requests by a security policy

A request that is not turned away for its address or its rate is judged by its prompt: first by
its length, then by the patterns of an injection. The second judge has a limit of its own for
the length. What Redis answers is an input; an exception of Redis is no answer.
-/

namespace Zyntry

open Python

/-! ## Prompts -/

/-- A fixed text with `re.IGNORECASE`. -/
def ignoringCase : List Char → Regex
  | [] => .chars (fun _ => false) 0 none
  | c :: cs => .one (fun d => fold d = c) ++ ignoringCase cs

/-- Words with `\s+` between them. -/
def phrase : List String → Regex
  | [] => ignoringCase []
  | [word] => ignoringCase word.toList
  | word :: words => ignoringCase word.toList ++ (spaces ++ phrase words)

section Prompts

variable (isAlnum : Char → Bool)

/-- `(a|an)\s+\w+` -/
def someone : Regex :=
  ignoringCase ['a'] ++ .opt (ignoringCase ['n']) ++ spaces ++ .chars (isWord isAlnum) 1 none

/-- The patterns of an injection, with an entry for each alternative. -/
def injectionPatterns : List Regex :=
  (["ignore", "forget"].flatMap fun verb =>
    [phrase [verb] ++ spaces ++ .opt (phrase ["all"] ++ spaces) ++
        phrase ["previous", "instructions"],
      phrase [verb, "the", "above"]]) ++
  ([["you", "are", "now"], ["pretend", "you", "are"], ["act", "as"], ["roleplay", "as"],
    ["simulate", "being"]].map fun words => phrase words ++ spaces ++ someone isAlnum) ++
  [phrase ["new", "instruction"] ++ .opt (phrase ["s"]) ++ .chars isSpace 0 none ++ .lit ':',
    phrase ["system"] ++ .chars isSpace 0 none ++ .lit ':' ++ .chars isSpace 0 none ++
      phrase ["you", "are"]] ++
  (["[system]", "[user]", "[assistant]", "<|im_start|>", "<|im_end|>"].map fun mark =>
    phrase [mark]) ++
  (["instruction", "system", "prompt"].map fun word =>
    phrase ["###"] ++ .chars isSpace 0 none ++ phrase [word]) ++
  (["override", "disregard", "bypass"].flatMap fun verb => ["your", "all"].flatMap fun whose =>
    ["instructions", "rules", "guidelines"].map fun what => phrase [verb, whose, what])

/-- One of the patterns is found. -/
def looksInjected (prompt : String) : Bool :=
  (injectionPatterns isAlnum).any fun pattern => pattern.search none prompt.toList

/-- `GuardrailService.validate_prompt`. -/
def validatePrompt (prompt : String) : Bool × Option String :=
  if prompt = "" ∨ stripped prompt = "" then (false, some "Prompt cannot be empty")
  else if 10000 < prompt.length then
    (false, some "Prompt exceeds maximum length of 10000 characters")
  else if looksInjected isAlnum prompt then (false, some "Potentially unsafe prompt detected")
  else (true, none)

end Prompts

/-! ## Enforcing a policy -/

structure RuntimeSecurityViolation where
  statusCode : ℕ
  code : String
  message : String
deriving DecidableEq, Repr

/-- What the commands to Redis answer. -/
structure SecurityReplies where
  /-- Whether there is a key that blocks the client. -/
  blocked : Option Bool
  /-- The count of the rate limit. -/
  count : Option ℤ
  /-- Whether the commands of `_record_violation` are answered. -/
  recorded : Bool
deriving DecidableEq, Repr

/-- The check that turns a request away. -/
inductive SecurityCheck where
  | address
  | ban
  | rate
  | size
  | content
deriving DecidableEq, Repr

inductive Enforcement where
  | unchecked
  | passed (clientIp : String) (suspicious : Bool)
  | rejected (check : SecurityCheck) (violation : RuntimeSecurityViolation)
deriving DecidableEq, Repr

/-- The result of a request, and whether `_record_violation` was called. -/
structure Enforced where
  result : Enforcement
  recorded : Bool
deriving DecidableEq, Repr

section Policies

variable (m : Fields)

def policyFlag (key : String) : Bool := ((Json.lookup key m).getD .null).truthy

def policyLimit (key : String) : ℤ :=
  match Json.lookup key m with
  | some (.int n) => n
  | _ => 0

def policyRules (key : String) : List String :=
  match Json.lookup key m with
  | some (.arr rules) => rules.filterMap fun
      | .str rule => some rule
      | _ => none
  | _ => []

/-- `_ip_matches_rules`. -/
def ipMatchesRules (clientIp : String) (rules : List String) : Bool :=
  (parseAddress clientIp.toList).any fun address =>
    rules.any fun rule => address.inNetwork rule.toList

def securityUnavailable : RuntimeSecurityViolation where
  statusCode := 503
  code := "security_unavailable"
  message := "Runtime security controls are temporarily unavailable. Please retry shortly."

/-- An exception of Redis, by the failure mode of the policy. -/
def redisRaises : Option RuntimeSecurityViolation :=
  match Json.lookup "redis_failure_mode" m with
  | some (.str mode) => if mode = "fail_closed" then some securityUnavailable else none
  | _ => none

/-- `_is_blocked`, with the rejection that follows. -/
def banViolation (blocked : Option Bool) : Option RuntimeSecurityViolation :=
  match blocked with
  | some true =>
      some ⟨403, "ip_blocked",
        "This client is temporarily blocked by the runtime security policy."⟩
  | some false => none
  | none => redisRaises m

/-- `_enforce_rate_limit`. -/
def rateViolation (count : Option ℤ) : Option RuntimeSecurityViolation :=
  match count with
  | some count =>
      if policyLimit m "rate_limit_per_minute" < count then
        some ⟨429, "runtime_rate_limited",
          "This runtime has reached its request rate limit. Try again shortly."⟩
      else none
  | none => redisRaises m

def addressViolation (clientIp : String) : Option RuntimeSecurityViolation :=
  if ipMatchesRules clientIp (policyRules m "blocked_ips") then
    some ⟨403, "ip_blocked", "This client IP is blocked by the runtime security policy."⟩
  else if policyRules m "allowed_ips" ≠ [] ∧
      !ipMatchesRules clientIp (policyRules m "allowed_ips") then
    some ⟨403, "ip_not_allowlisted", "This client IP is not on the runtime allowlist."⟩
  else none

/-- The checks before the prompt is looked at. -/
def admission (clientIp : String) (replies : SecurityReplies) :
    Option (SecurityCheck × RuntimeSecurityViolation) :=
  ((addressViolation m clientIp).map (.address, ·)).or
    (((banViolation m replies.blocked).map (.ban, ·)).or
      ((rateViolation m replies.count).map (.rate, ·)))

/-- `_record_violation`: what it raises in place of the violation. -/
def recordViolation (replies : SecurityReplies) : Option RuntimeSecurityViolation :=
  if policyFlag m "ip_ban_enabled" ∧ !replies.recorded then redisRaises m else none

/-- A violation that is recorded. -/
def recordedRejection (replies : SecurityReplies) (check : SecurityCheck)
    (violation : RuntimeSecurityViolation) : Enforced where
  result := .rejected check ((recordViolation m replies).getD violation)
  recorded := true

def enforce (isAlnum : Char → Bool) (clientIp : String) (replies : SecurityReplies)
    (prompt : String) : Enforced :=
  if !policyFlag m "enabled" then ⟨.unchecked, false⟩
  else
    match admission m clientIp replies with
    | some (check, violation) => ⟨.rejected check violation, false⟩
    | none =>
        if policyLimit m "max_input_chars" < prompt.length then
          recordedRejection m replies .size
            ⟨413, "input_too_large", "Input exceeds this runtime's security limit of " ++
              toString (policyLimit m "max_input_chars") ++ " characters."⟩
        else
          let (valid, reason) := validatePrompt isAlnum prompt
          if !valid ∧ policyFlag m "block_suspicious_requests" then
            recordedRejection m replies .content
              ⟨403, "suspicious_request", reason.getD "Potentially unsafe prompt detected."⟩
          else ⟨.passed clientIp (!valid), false⟩

end Policies

def Enforced.rejectedFor (e : Enforced) (check : SecurityCheck) : Prop :=
  ∃ violation, e.result = .rejected check violation

/-- The policy's own limit and the patterns decide, the limit first. -/
structure FollowsPolicy (m : Fields) (isAlnum : Char → Bool) (prompt : String) (e : Enforced) :
    Prop where
  size : e.rejectedFor .size ↔ policyLimit m "max_input_chars" < prompt.length
  content : e.rejectedFor .content ↔ prompt.length ≤ policyLimit m "max_input_chars" ∧
    policyFlag m "block_suspicious_requests" ∧ looksInjected isAlnum prompt
  recorded : e.recorded ↔ policyLimit m "max_input_chars" < prompt.length ∨
    policyFlag m "block_suspicious_requests" ∧ looksInjected isAlnum prompt

/-- The prompt exceeds the second limit only, and nothing in it is suspicious. -/
def LongWithinPolicy (m : Fields) (isAlnum : Char → Bool) (prompt : String) : Prop :=
  10000 < prompt.length ∧ prompt.length ≤ policyLimit m "max_input_chars" ∧
    policyFlag m "block_suspicious_requests" ∧ ¬looksInjected isAlnum prompt

/-- The second judge of a prompt finds fault with a long one, and with an injection. -/
theorem validatePrompt_fst (isAlnum : Char → Bool) {prompt : String}
    (hblank : stripped prompt ≠ "") : (validatePrompt isAlnum prompt).1 = false ↔
      10000 < prompt.length ∨ looksInjected isAlnum prompt := by
  have hne : prompt ≠ "" := by
    rintro rfl
    exact hblank rfl
  unfold validatePrompt
  rw [if_neg (by simp [hne, hblank])]
  split_ifs with hlong hinjected
  · simp [hlong]
  · simp [hinjected]
  · simp [hlong, hinjected]

section Enforcing

variable {m : Fields} {isAlnum : Char → Bool} {clientIp prompt : String}
  {replies : SecurityReplies}

theorem recordedRejection_rejectedFor (check check' : SecurityCheck)
    (violation : RuntimeSecurityViolation) :
    (recordedRejection m replies check violation).rejectedFor check' ↔ check' = check := by
  constructor
  · rintro ⟨violation', h⟩
    cases h
    rfl
  · rintro rfl
    exact ⟨_, rfl⟩

/-- The violation is the one of its check, or a failure to record it. -/
theorem recordedRejection_result (check : SecurityCheck) (violation : RuntimeSecurityViolation) :
    (recordedRejection m replies check violation).result = .rejected check violation ∨
      (recordedRejection m replies check violation).result =
        .rejected check securityUnavailable := by
  have hraises : redisRaises m = none ∨ redisRaises m = some securityUnavailable := by
    unfold redisRaises
    split
    · split_ifs <;> simp
    · exact .inl rfl
  unfold recordedRejection recordViolation
  split_ifs
  · rcases hraises with h | h <;> rw [h] <;> simp
  · exact .inl rfl

section

variable (henabled : policyFlag m "enabled" = true)
  (hadmitted : admission m clientIp replies = none)

include henabled hadmitted

theorem enforce_of_long (h : policyLimit m "max_input_chars" < prompt.length) :
    enforce m isAlnum clientIp replies prompt = recordedRejection m replies .size
      ⟨413, "input_too_large", "Input exceeds this runtime's security limit of " ++
        toString (policyLimit m "max_input_chars") ++ " characters."⟩ := by
  unfold enforce
  rw [henabled, hadmitted]
  simp only [Bool.not_true, Bool.false_eq_true, if_false, if_pos h]

theorem enforce_of_short (h : prompt.length ≤ policyLimit m "max_input_chars") :
    enforce m isAlnum clientIp replies prompt =
      if !(validatePrompt isAlnum prompt).1 ∧ policyFlag m "block_suspicious_requests" then
        recordedRejection m replies .content ⟨403, "suspicious_request",
          (validatePrompt isAlnum prompt).2.getD "Potentially unsafe prompt detected."⟩
      else ⟨.passed clientIp (!(validatePrompt isAlnum prompt).1), false⟩ := by
  unfold enforce
  rw [henabled, hadmitted]
  simp only [Bool.not_true, Bool.false_eq_true, if_false, if_neg (not_lt.mpr h)]

theorem followsPolicy_of_long (h : policyLimit m "max_input_chars" < prompt.length) :
    FollowsPolicy m isAlnum prompt (enforce m isAlnum clientIp replies prompt) := by
  rw [enforce_of_long henabled hadmitted h]
  constructor
  · simp [recordedRejection_rejectedFor, h]
  · simp [recordedRejection_rejectedFor, not_le.mpr h]
  · simp [recordedRejection, h]

/-- Within the limit of the policy, the request is turned away for its content alone. -/
theorem followsPolicy_iff_of_short (h : prompt.length ≤ policyLimit m "max_input_chars") :
    FollowsPolicy m isAlnum prompt (enforce m isAlnum clientIp replies prompt) ↔
      (((validatePrompt isAlnum prompt).1 = false ∧ policyFlag m "block_suspicious_requests") ↔
        (policyFlag m "block_suspicious_requests" ∧ looksInjected isAlnum prompt)) := by
  have hlimit := not_lt.mpr h
  rw [enforce_of_short henabled hadmitted h]
  by_cases hjudged : (validatePrompt isAlnum prompt).1 = false ∧
      policyFlag m "block_suspicious_requests"
  · rw [if_pos (by simpa using hjudged), iff_true_left hjudged]
    constructor
    · intro hfollows
      exact (hfollows.content.mp ((recordedRejection_rejectedFor _ _ _).mpr rfl)).2
    · intro hinjected
      constructor
      · simp [recordedRejection_rejectedFor, hlimit]
      · simp [recordedRejection_rejectedFor, h, hinjected]
      · simp [recordedRejection, hinjected]
  · rw [if_neg (by simpa using hjudged), iff_false_left hjudged]
    constructor
    · intro hfollows hinjected
      exact absurd (hfollows.recorded.mpr (.inr hinjected)) (by simp)
    · intro hclean
      constructor
      · simp [Enforced.rejectedFor, hlimit]
      · simp [Enforced.rejectedFor, hclean]
      · simp [hlimit, hclean]

end

/-- A request that is let in follows its policy but for a prompt that is longer than the second
limit only. -/
theorem enforce_followsPolicy_iff (henabled : policyFlag m "enabled" = true)
    (hadmitted : admission m clientIp replies = none) (hblank : stripped prompt ≠ "") :
    FollowsPolicy m isAlnum prompt (enforce m isAlnum clientIp replies prompt) ↔
      ¬LongWithinPolicy m isAlnum prompt := by
  by_cases hlong : policyLimit m "max_input_chars" < prompt.length
  · exact iff_of_true (followsPolicy_of_long henabled hadmitted hlong)
      fun h => absurd h.2.1 (not_le.mpr hlong)
  · have hlimit := not_lt.mp hlong
    rw [followsPolicy_iff_of_short henabled hadmitted hlimit, validatePrompt_fst isAlnum hblank]
    constructor
    · rintro hsame ⟨hlong', -, hflag, hclean⟩
      exact hclean (hsame.mp ⟨.inl hlong', hflag⟩).2
    · intro hwithin
      constructor
      · rintro ⟨hlong' | hinjected, hflag⟩
        · exact ⟨hflag, by_contra fun hclean => hwithin ⟨hlong', hlimit, hflag, hclean⟩⟩
        · exact ⟨hflag, hinjected⟩
      · rintro ⟨hflag, hinjected⟩
        exact ⟨.inr hinjected, hflag⟩

end Enforcing

/-! ## Policies with a higher limit -/

/-- A prompt of one word. -/
def longWord (n : ℕ) : String := String.ofList (List.replicate n 'x')

theorem length_longWord (n : ℕ) : (longWord n).length = n := by
  rw [longWord, String.length_ofList, List.length_replicate]

theorem stripped_longWord (n : ℕ) : stripped (longWord n) = longWord n := by
  have hnot : ∀ c ∈ List.replicate n 'x', isSpace c = false := by
    intro c hc
    rw [List.eq_of_mem_replicate hc]
    rfl
  rw [stripped, longWord, String.toList_ofList, strip_eq_self]
  · exact fun c hc => hnot c (List.mem_of_mem_head? hc)
  · exact fun c hc => hnot c (List.mem_of_mem_getLast? hc)

theorem longWord_ne_empty {n : ℕ} (h : 0 < n) : stripped (longWord n) ≠ "" := by
  rw [stripped_longWord]
  intro hblank
  have hlength := length_longWord n
  rw [hblank] at hlength
  exact h.ne hlength

theorem not_looksInjected_longWord (isAlnum : Char → Bool) (n : ℕ) :
    looksInjected isAlnum (longWord n) = false := by
  have hrefuses : ((injectionPatterns isAlnum).all fun pattern => pattern.refuses 'x') = true :=
    rfl
  rw [looksInjected, longWord, String.toList_ofList, List.any_eq_false]
  intro pattern hpattern
  rw [Regex.search_eq_false_of_refuses (List.all_eq_true.mp hrefuses _ hpattern) none
    fun d hd => List.eq_of_mem_replicate hd]
  exact Bool.false_ne_true

/-- A policy that allows more than the second judge. -/
def longInputs : Fields := [("max_input_chars", .int 20000)]

/-- What Redis answers to the first request of a client. -/
def firstRequest : SecurityReplies := ⟨some false, some 1, true⟩

/-- A prompt of 10001 characters without any pattern is rejected as suspicious. -/
theorem enforce_longWord_not_followsPolicy : ∃ m,
    normalizeRuntimeSecurityPolicy (ipRuleText true) longInputs = .ok m ∧
      policyFlag m "enabled" = true ∧ admission m "10.0.0.7" firstRequest = none ∧
      stripped (longWord 10001) ≠ "" ∧
      ¬FollowsPolicy m Char.isAlphanum (longWord 10001)
        (enforce m Char.isAlphanum "10.0.0.7" firstRequest (longWord 10001)) := by
  have hblank : stripped (longWord 10001) ≠ "" := longWord_ne_empty (by norm_num)
  have hlength : ((longWord 10001).length : ℤ) ≤ 20000 := by
    rw [length_longWord]
    norm_num
  refine ⟨_, rfl, rfl, rfl, hblank, fun hfollows => ?_⟩
  rw [followsPolicy_iff_of_short, validatePrompt_fst _ hblank, length_longWord,
    not_looksInjected_longWord] at hfollows
  · exact Bool.false_ne_true (hfollows.mp ⟨.inl (by norm_num), rfl⟩).2
  · rfl
  · rfl
  · exact hlength

/-- A greeting under the default policy. -/
theorem enforce_followsPolicy_default : ∃ m,
    normalizeRuntimeSecurityPolicy (ipRuleText true) [] = .ok m ∧
      (FollowsPolicy m Char.isAlphanum "Hello"
          (enforce m Char.isAlphanum "10.0.0.7" firstRequest "Hello") ↔
        ¬LongWithinPolicy m Char.isAlphanum "Hello") :=
  ⟨_, rfl, enforce_followsPolicy_iff rfl rfl (by decide)⟩

end Zyntry
