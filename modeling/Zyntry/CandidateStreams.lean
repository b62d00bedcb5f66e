import Zyntry.ContextManager

/-!
# Streams of several candidates

The router tries candidates until one of them completes. The tokens of a stream go to a callback
one by one, which may raise as well, and a candidate that has sent a token is the last one that
is tried. What the providers and the callback do is an input of the model, attempt by attempt.
-/

namespace Zyntry

open Python

/-! ## Candidates -/

/-- The part of `ModelInfo` that routing looks at. -/
structure ModelInfo where
  id : String
  provider : String
  maxContext : ℤ
  maxOutputTokens : ℤ
  supportsVision : Bool
  supportsTools : Bool
  supportsStreaming : Bool
  supportsEmbeddings : Bool
deriving DecidableEq, Repr

structure ModelCandidate where
  modelInfo : ModelInfo
  providerName : String
  score : ℚ := 0
deriving DecidableEq, Repr

/-! ## Attempts -/

/-- What is raised: an exception that the router handles, or one that leaves it, as the
cancellation of a task does. -/
inductive Raised where
  | exception (message : String)
  | cancelled
deriving DecidableEq, Repr

/-- A chunk of a stream, and what `on_token` raises for it. -/
structure StreamedChunk where
  text : String
  onToken : Option Raised := none
deriving DecidableEq, Repr

structure ProviderBehaviour where
  /-- Raised before the provider is called. -/
  setup : Option Raised := none
  /-- `chat_completion`. -/
  response : Except Raised String := .ok ""
  /-- `chat_completion_stream`, and what it raises after the last of its chunks. -/
  chunks : List StreamedChunk := []
  ending : Option Raised := none
  /-- Raised between the end of a completion and the return of its text. -/
  afterwards : Option Raised := none
  /-- Raised when the failure of the provider is noted. -/
  noteFailure : Option Raised := none

/-- The loop over the chunks: the tokens that are passed on, and what is raised. -/
def forward (ending : Option Raised) : List StreamedChunk → List String × Option Raised
  | [] => ([], ending)
  | chunk :: chunks =>
      if chunk.text = "" then forward ending chunks
      else
        match chunk.onToken with
        | some raised => ([chunk.text], some raised)
        | none => (chunk.text :: (forward ending chunks).1, (forward ending chunks).2)

structure AttemptResult where
  called : Bool
  tokens : List String
  result : Except Raised String
deriving Repr

def raisedOr (raised : Option Raised) (text : String) : Except Raised String :=
  raised.elim (.ok text) .error

/-- An attempt with or without a callback for tokens. -/
def ProviderBehaviour.attempt (b : ProviderBehaviour) (streaming : Bool) : AttemptResult :=
  match b.setup with
  | some raised => ⟨false, [], .error raised⟩
  | none =>
      if streaming then
        let (tokens, raised) := forward b.ending b.chunks
        ⟨true, tokens, raisedOr (raised.or b.afterwards) (String.join tokens)⟩
      else ⟨true, [], b.response.bind (raisedOr b.afterwards)⟩

/-! ## The loop over the candidates -/

/-- What the router returns. -/
structure RouterReply where
  text : Option String
  model : String
  provider : String
  error : String
deriving DecidableEq, Repr

/-- A call of a provider. -/
structure SentCall where
  candidate : ModelCandidate
  messages : List Message
  maxTokens : ℤ
deriving DecidableEq, Repr

structure RouterRun where
  calls : List SentCall
  /-- The tokens, with the numbers of the attempts that they come from. -/
  tokens : List (ℕ × String)
  outcome : Except Raised RouterReply

def RouterRun.after (run : RouterRun) (calls : List SentCall) : RouterRun :=
  { run with calls := calls ++ run.calls }

/-- The arguments of the router, and what its environment does. -/
structure RouterCall where
  messages : List Message
  maxTokens : ℤ
  streaming : Bool
  /-- The keys of `PROVIDER_REGISTRY`. -/
  registered : String → Bool
  behaviour : ℕ → ProviderBehaviour

namespace RouterCall

variable (x : RouterCall)

/-- The tokens that a candidate is asked for. -/
def outputTokens (candidate : ModelCandidate) : ℤ :=
  min x.maxTokens (intOr (some candidate.modelInfo.maxOutputTokens) x.maxTokens)

/-- The call that is made in an attempt. -/
def sentCalls (candidate : ModelCandidate) (attempt : AttemptResult) : List SentCall :=
  if attempt.called then [⟨candidate, x.messages, x.outputTokens candidate⟩] else []

/-- The candidates are tried in turn, each with the number of its attempt, unless they are passed
over; the other functions are the replies when a stream has been cut off and when no candidate is
left. -/
def tryInTurn (passedOver : ModelCandidate → Bool) (cutOff exhausted : String → RouterReply) :
    String → List (ModelCandidate × ℕ) → RouterRun
  | lastError, [] => ⟨[], [], .ok (exhausted lastError)⟩
  | lastError, (candidate, i) :: candidates =>
      if passedOver candidate then tryInTurn passedOver cutOff exhausted lastError candidates
      else
        let attempt := (x.behaviour i).attempt x.streaming
        let calls := x.sentCalls candidate attempt
        let tokens := attempt.tokens.map fun token => (i, token)
        match attempt.result with
        | .ok text =>
            ⟨calls, tokens, .ok ⟨some text, candidate.modelInfo.id, candidate.providerName, ""⟩⟩
        | .error .cancelled => ⟨calls, tokens, .error .cancelled⟩
        | .error (.exception error) =>
            match (x.behaviour i).noteFailure with
            | some raised => ⟨calls, tokens, .error raised⟩
            | none =>
                -- another answer must not follow the part of this one that has been seen
                if attempt.tokens ≠ [] then ⟨calls, tokens, .ok (cutOff error)⟩
                else (tryInTurn passedOver cutOff exhausted error candidates).after calls

/-- `_invoke_with_fallback`, from the candidates that are eligible. -/
def invokeEligible (candidates : List ModelCandidate) : RouterRun :=
  if candidates = [] then
    ⟨[], [], .ok
      ⟨none, "", "", "No healthy provider is currently available for this request"⟩⟩
  else
    x.tryInTurn (fun candidate => !x.registered (lower candidate.providerName))
      (fun error => ⟨none, "", "", error⟩) (fun lastError => ⟨none, "", "", lastError⟩) ""
      candidates.zipIdx

/-- The models that `invoke_fixed` tries; the catalogue is `model_info_for`. -/
def configuredCandidates (catalogue : String → String → ModelInfo) (providerKey : String)
    (modelNames : List String) : List ModelCandidate :=
  ((modelNames.map stripped).filter (· ≠ "")).map fun modelName =>
    { modelInfo := { catalogue providerKey modelName with id := modelName }
      providerName := providerKey }

/-- `invoke_fixed`. -/
def invokeConfigured (hasKey : String → Bool) (catalogue : String → String → ModelInfo)
    (providerName : String) (modelNames : List String) : RouterRun :=
  let providerKey := lower (stripped providerName)
  let failed (error : String) : RouterReply := ⟨some "", "", providerKey, error⟩
  if !hasKey providerKey then
    ⟨[], [], .ok (failed ("No credentials are configured for provider '" ++ providerKey ++ "'"))⟩
  else if !x.registered providerKey then
    ⟨[], [], .ok (failed ("Provider '" ++ providerKey ++ "' is not supported"))⟩
  else
    x.tryInTurn (fun _ => false) failed
      (fun lastError =>
        failed (if lastError = "" then "No configured model was available" else lastError))
      "" (configuredCandidates catalogue providerKey modelNames).zipIdx

/-! ## Where tokens come from -/

/-- The tokens are the first ones of one attempt. -/
def FromAttempt (i : ℕ) (tokens : List (ℕ × String)) : Prop :=
  (∀ t ∈ tokens, t.1 = i) ∧ tokens.map Prod.snd <+:
    ((x.behaviour i).chunks.map StreamedChunk.text).filter (· ≠ "")

theorem fromAttempt_nil (i : ℕ) : x.FromAttempt i [] :=
  ⟨fun _ ht => absurd ht List.not_mem_nil, List.nil_prefix⟩

end RouterCall

theorem forward_prefix (ending : Option Raised) (chunks : List StreamedChunk) :
    (forward ending chunks).1 <+: (chunks.map StreamedChunk.text).filter (· ≠ "") := by
  induction chunks with
  | nil => exact List.prefix_rfl
  | cons chunk chunks ih =>
      unfold forward
      by_cases htext : chunk.text = ""
      · simpa [htext] using ih
      · rw [if_neg htext, List.map_cons, List.filter_cons_of_pos (by simpa using htext)]
        cases chunk.onToken with
        | some raised => simp
        | none => exact List.prefix_cons_inj _ |>.mpr ih

theorem ProviderBehaviour.attempt_tokens (b : ProviderBehaviour) (streaming : Bool) :
    (b.attempt streaming).tokens <+: (b.chunks.map StreamedChunk.text).filter (· ≠ "") := by
  unfold attempt
  cases b.setup with
  | some raised => exact List.nil_prefix
  | none =>
      cases streaming with
      | true => exact forward_prefix b.ending b.chunks
      | false => exact List.nil_prefix

/-- The text of a completed stream is made of its tokens. -/
theorem ProviderBehaviour.attempt_text {b : ProviderBehaviour} {text : String}
    (h : (b.attempt true).result = .ok text) : String.join (b.attempt true).tokens = text := by
  unfold attempt at h ⊢
  cases hsetup : b.setup with
  | some raised => simp [hsetup] at h
  | none =>
      simp only [hsetup, if_true] at h ⊢
      cases hraised : (forward b.ending b.chunks).2.or b.afterwards with
      | some raised => simp [hraised, raisedOr] at h
      | none => simpa [hraised, raisedOr] using h

namespace RouterCall

variable {x : RouterCall} {passedOver : ModelCandidate → Bool}
  {cutOff exhausted : String → RouterReply}

theorem fromAttempt_attempt (i : ℕ) : x.FromAttempt i
    (((x.behaviour i).attempt x.streaming).tokens.map fun token => (i, token)) := by
  constructor
  · intro t ht
    obtain ⟨token, -, rfl⟩ := List.mem_map.mp ht
    rfl
  · have htokens := (x.behaviour i).attempt_tokens x.streaming
    simpa [List.map_map, Function.comp_def] using htokens

/-- What is known of a run over some candidates. -/
structure RunsOne (x : RouterCall) (cutOff exhausted : String → RouterReply)
    (candidates : List (ModelCandidate × ℕ)) (run : RouterRun) : Prop where
  one : ∃ i, x.FromAttempt i run.tokens
  answered : ∀ reply, run.outcome = .ok reply →
    (∃ error, reply = cutOff error ∨ reply = exhausted error) ∨
      ∃ p ∈ candidates, x.FromAttempt p.2 run.tokens ∧
        ∃ text, (x.streaming = true → text = String.join (run.tokens.map Prod.snd)) ∧
          reply = ⟨some text, p.1.modelInfo.id, p.1.providerName, ""⟩

theorem RunsOne.mono {candidates candidates' : List (ModelCandidate × ℕ)} {run : RouterRun}
    (h : RunsOne x cutOff exhausted candidates run) (hsub : candidates ⊆ candidates') :
    RunsOne x cutOff exhausted candidates' run where
  one := h.one
  answered reply hreply := by
    obtain hfailed | ⟨p, hp, hrest⟩ := h.answered reply hreply
    · exact .inl hfailed
    · exact .inr ⟨p, hsub hp, hrest⟩

theorem RunsOne.after {candidates : List (ModelCandidate × ℕ)} {run : RouterRun}
    (h : RunsOne x cutOff exhausted candidates run) (calls : List SentCall) :
    RunsOne x cutOff exhausted candidates (run.after calls) := ⟨h.one, h.answered⟩

theorem tryInTurn_runsOne (candidates : List (ModelCandidate × ℕ)) (lastError : String) :
    RunsOne x cutOff exhausted candidates
      (x.tryInTurn passedOver cutOff exhausted lastError candidates) := by
  induction candidates generalizing lastError with
  | nil =>
      refine ⟨⟨0, x.fromAttempt_nil 0⟩, ?_⟩
      intro reply hreply
      exact .inl ⟨lastError, .inr (Except.ok.inj hreply).symm⟩
  | cons p candidates ih =>
      obtain ⟨candidate, i⟩ := p
      have hfrom := fromAttempt_attempt (x := x) i
      rw [tryInTurn]
      split_ifs with hpassed
      · exact (ih lastError).mono (List.subset_cons_self _ _)
      · dsimp only
        cases hresult : ((x.behaviour i).attempt x.streaming).result with
        | ok text =>
            refine ⟨⟨i, hfrom⟩, ?_⟩
            intro reply hreply
            refine .inr ⟨(candidate, i), List.mem_cons_self, hfrom, text, ?_,
              (Except.ok.inj hreply).symm⟩
            intro hstreaming
            rw [hstreaming] at hresult
            simp [hstreaming, List.map_map, Function.comp_def,
              ProviderBehaviour.attempt_text hresult]
        | error raised =>
            cases raised with
            | cancelled => exact ⟨⟨i, hfrom⟩, fun reply hreply => by cases hreply⟩
            | exception error =>
                dsimp only
                cases (x.behaviour i).noteFailure with
                | some raised => exact ⟨⟨i, hfrom⟩, fun reply hreply => by cases hreply⟩
                | none =>
                    dsimp only
                    split_ifs with htokens
                    · refine ⟨⟨i, hfrom⟩, ?_⟩
                      intro reply hreply
                      exact .inl ⟨error, .inl (Except.ok.inj hreply).symm⟩
                    · exact ((ih error).mono (List.subset_cons_self _ _)).after _

/-- All tokens come from one candidate; if a text is returned it is made of them, and the names
that are returned are those of the candidate. -/
structure NeverMixes (x : RouterCall) (candidates : List ModelCandidate)
    (returned : RouterReply → Prop) (run : RouterRun) : Prop where
  one : ∃ i, x.FromAttempt i run.tokens
  answered : ∀ reply, run.outcome = .ok reply → returned reply →
    ∃ i candidate, candidates[i]? = some candidate ∧ x.FromAttempt i run.tokens ∧
      reply.text = some (String.join (run.tokens.map Prod.snd)) ∧
      reply.model = candidate.modelInfo.id ∧ reply.provider = candidate.providerName

theorem RunsOne.neverMixes {candidates : List ModelCandidate} {run : RouterRun}
    (h : RunsOne x cutOff exhausted candidates.zipIdx run) (hstreaming : x.streaming = true)
    {returned : RouterReply → Prop}
    (hfailed : ∀ error, ¬ returned (cutOff error) ∧ ¬ returned (exhausted error)) :
    NeverMixes x candidates returned run where
  one := h.one
  answered reply hreply hreturned := by
    obtain ⟨error, rfl | rfl⟩ | ⟨⟨candidate, i⟩, hp, hfrom, text, htext, rfl⟩ :=
      h.answered reply hreply
    · exact absurd hreturned (hfailed error).1
    · exact absurd hreturned (hfailed error).2
    · exact ⟨i, candidate, List.mem_zipIdx_iff_getElem?.mp hp, hfrom,
        congrArg some (htext hstreaming), rfl, rfl⟩

theorem neverMixes_of_failed {candidates : List ModelCandidate} {returned : RouterReply → Prop}
    {reply : RouterReply} (h : ¬ returned reply) :
    NeverMixes x candidates returned ⟨[], [], .ok reply⟩ where
  one := ⟨0, x.fromAttempt_nil 0⟩
  answered reply' hreply hreturned := by
    obtain rfl := Except.ok.inj hreply
    exact absurd hreturned h

/-- However the providers and the callback fail, neither loop mixes two streams. -/
theorem streams_never_mix (x : RouterCall) (hstreaming : x.streaming = true) :
    (∀ candidates, NeverMixes x candidates (fun reply => reply.text ≠ none)
      (x.invokeEligible candidates)) ∧
    ∀ hasKey catalogue providerName modelNames,
      NeverMixes x (configuredCandidates catalogue (lower (stripped providerName)) modelNames)
        (fun reply => reply.text ≠ some "" ∨ reply.model ≠ "")
        (x.invokeConfigured hasKey catalogue providerName modelNames) := by
  constructor
  · intro candidates
    unfold invokeEligible
    split_ifs
    · exact neverMixes_of_failed (by simp)
    · exact (tryInTurn_runsOne _ _).neverMixes hstreaming (by simp)
  · intro hasKey catalogue providerName modelNames
    unfold invokeConfigured
    dsimp only
    split_ifs
    · exact neverMixes_of_failed (by simp)
    · exact neverMixes_of_failed (by simp)
    · exact (tryInTurn_runsOne _ _).neverMixes hstreaming (by simp)

/-- The first provider fails before it has sent anything, the second one sends two tokens. -/
def twoAttempts : RouterCall where
  messages := [⟨"user", "hi"⟩]
  maxTokens := 256
  streaming := true
  registered := fun _ => true
  behaviour i :=
    if i = 0 then { ending := some (.exception "timeout") }
    else { chunks := [⟨"Hel", none⟩, ⟨"", none⟩, ⟨"lo", none⟩] }

def chatModel (provider id : String) : ModelCandidate where
  modelInfo := ⟨id, provider, 128000, 4096, false, true, true, false⟩
  providerName := provider

theorem streams_never_mix_twoAttempts :
    ∃ i candidate, [chatModel "openai" "gpt-4o", chatModel "groq" "llama-3"][i]? = some candidate ∧
      (∀ t ∈ [(1, "Hel"), (1, "lo")], t.1 = i) ∧ candidate.providerName = "groq" := by
  have hmixes := (streams_never_mix twoAttempts rfl).1
    [chatModel "openai" "gpt-4o", chatModel "groq" "llama-3"]
  have htokens : (twoAttempts.invokeEligible
      [chatModel "openai" "gpt-4o", chatModel "groq" "llama-3"]).tokens =
        [(1, "Hel"), (1, "lo")] := by
    decide +kernel
  have houtcome : (twoAttempts.invokeEligible
      [chatModel "openai" "gpt-4o", chatModel "groq" "llama-3"]).outcome.toOption =
        some ⟨some "Hello", "llama-3", "groq", ""⟩ := by
    decide +kernel
  cases hreply : (twoAttempts.invokeEligible
      [chatModel "openai" "gpt-4o", chatModel "groq" "llama-3"]).outcome with
  | error raised => simp [hreply, Except.toOption] at houtcome
  | ok reply =>
      rw [hreply] at houtcome
      obtain rfl := Option.some.inj houtcome
      obtain ⟨i, candidate, hcandidate, hfrom, -, -, hprovider⟩ :=
        hmixes.answered _ hreply (by simp)
      rw [htokens] at hfrom
      exact ⟨i, candidate, hcandidate, hfrom.1, hprovider.symm⟩

end RouterCall

end Zyntry
