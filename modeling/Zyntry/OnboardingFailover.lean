import Zyntry.OnboardingProviders
import Zyntry.ProviderHealth

/-!
# Failover of the onboarding

The candidates are tried in turn, up to a limit, except those that are cooled down for the session
or not available when their turn comes. What the surroundings do in the turn of a candidate is an
input of the model: the times that are read, the answer of Redis, what the adapter does, and what
other requests do to the cooldowns and to the health of the providers, which all requests share.
-/

namespace Zyntry

open Python

/-! ## Cooldowns of a session -/

/-- `_SESSION_PROVIDER_COOLDOWNS`, by session and provider. -/
abbrev SessionCooldowns := String × String → Option ℚ≥0

namespace SessionCooldowns

variable (cooldowns : SessionCooldowns) (session : Option String) (provider : String)

/-- `_provider_is_session_cooled_down`, where a deadline that is over is removed. -/
def isCooledDown (now : ℚ≥0) : SessionCooldowns × Bool :=
  match session with
  | none => (cooldowns, false)
  | some s =>
      match cooldowns (s, provider) with
      | none => (cooldowns, false)
      | some expiry =>
          if expiry ≤ now then (Function.update cooldowns (s, provider) none, false)
          else (cooldowns, true)

/-- `_cool_down_provider_for_session`. -/
def coolDown (seconds : ℤ) (now : ℚ≥0) : SessionCooldowns :=
  match session with
  | none => cooldowns
  | some s => Function.update cooldowns (s, provider) (some (now + (max 1 seconds).toNat))

end SessionCooldowns

/-! ## Attempts -/

/-- An exception of an adapter; the status is that of an `httpx.HTTPStatusError`. -/
structure ProviderException where
  name : String
  text : String
  isTypeError : Bool
  statusCode : Option ℤ
deriving DecidableEq

def ProviderException.rateLimited (e : ProviderException) : Bool := e.statusCode = some 429

/-- The adapter does not know the keyword. -/
def ProviderException.rejectsSchema (e : ProviderException) : Bool :=
  e.isTypeError && isInfix "response_schema" e.text

/-- What a call of an adapter comes to. A cancellation is no exception that the loop handles. -/
inductive AdapterOutcome where
  | returned (content : String) (usage : ℤ)
  | raised (e : ProviderException)
  | cancelled
deriving DecidableEq

def AdapterOutcome.rateLimited : AdapterOutcome → Bool
  | .raised e => e.rateLimited
  | _ => false

/-- The attributes of the adapter after its calls. -/
structure CallReport where
  statusCode : Option ℤ
  finishReason : Option String
  responseSchemaApplied : Bool
  schemaHasRefs : Bool
  errorMetadata : Option (List (String × String))

/-- What all requests share. -/
structure SharedState where
  cooldowns : SessionCooldowns
  health : ProviderHealth

/-- What happens in the turn of a candidate. `blocked` is the answer of Redis, if there is one. The
other requests run before the checks and during the calls. -/
structure FailoverTurn where
  othersBefore : SharedState → SharedState
  othersDuringCalls : SharedState → SharedState
  cooldownCheckedAt : ℚ≥0
  availabilityCheckedAt : ℚ≥0
  blocked : Option Bool
  schemaCall : AdapterOutcome
  plainCall : AdapterOutcome
  report : CallReport
  cooledDownAt : ℚ≥0
  failureRecordedAt : ℚ≥0

/-- The calls of an attempt. -/
def FailoverTurn.outcome (turn : FailoverTurn) (responseSchema : Bool) : AdapterOutcome :=
  if responseSchema then
    match turn.schemaCall with
    | .raised e => if e.rejectsSchema then turn.plainCall else .raised e
    | outcome => outcome
  else turn.plainCall

/-! ## The loop -/

structure AttemptNote where
  provider : String
  model : String
  status : String
  error : Option String := none
deriving DecidableEq

/-- The attributes of the routed provider. -/
structure LastCall where
  provider : Option String := none
  model : Option String := none
  statusCode : Option ℤ := none
  finishReason : Option String := none
  responseSchemaApplied : Bool := false
  schemaHasRefs : Bool := false
  errorMetadata : List (String × String) := []
  attempts : List AttemptNote := []

structure FailedAttempt where
  exception : ProviderException
  provider : String
  model : String
  statusCode : Option ℤ
  errorMetadata : List (String × String)

/-- A candidate that has had its turn, with what was shared when its turn came. -/
structure Visit where
  candidate : OnboardingProviderCandidate
  turn : FailoverTurn
  shared : SharedState
  attempted : Bool

/-- `is_available_async`, whose local part creates the state of a provider. -/
def Visit.availability (v : Visit) : ProviderHealth × Bool :=
  let healthy := v.shared.health.isAvailable v.candidate.provider v.turn.availabilityCheckedAt
  (healthy.1, healthy.2 && !v.turn.blocked.getD false)

/-- The arguments and settings of a call. -/
structure FailoverCall where
  model : String
  responseSchema : Bool
  session : Option String
  configuredLimit : ℤ
  cooldownSeconds : ℤ

structure FailoverRun where
  shared : SharedState
  last : LastCall := {}
  errors : List FailedAttempt := []
  attemptsStarted : ℕ := 0
  visits : List Visit := []

def LastCall.note (last : LastCall) (note : AttemptNote) : LastCall :=
  { last with attempts := last.attempts ++ [note] }

def LastCall.report (last : LastCall) (report : CallReport)
    (errorMetadata : List (String × String)) : LastCall :=
  { last with
    statusCode := report.statusCode
    finishReason := report.finishReason
    responseSchemaApplied := report.responseSchemaApplied
    schemaHasRefs := report.schemaHasRefs
    errorMetadata := errorMetadata }

def FailoverRun.log (run : FailoverRun) (visit : Visit) : FailoverRun :=
  { run with visits := run.visits ++ [visit] }

inductive LoopEnd where
  | exhausted
  | returned (content : String) (usage : ℤ)
  | cancelled
deriving DecidableEq

namespace FailoverCall

variable (call : FailoverCall)

def maxAttempts : ℕ := (max 1 call.configuredLimit).toNat

def selectedModel (candidate : OnboardingProviderCandidate) : String :=
  orElse candidate.model call.model

/-- The check of the cooldown. -/
def cooldown (v : Visit) : SessionCooldowns × Bool :=
  v.shared.cooldowns.isCooledDown call.session v.candidate.provider v.turn.cooldownCheckedAt

def outcome (v : Visit) : AdapterOutcome := v.turn.outcome call.responseSchema

/-- The body of `try` with its handler, after the attempt has been counted. -/
def attempt (run : FailoverRun) (candidate : OnboardingProviderCandidate) (turn : FailoverTurn) :
    FailoverRun × Option LoopEnd :=
  let model := call.selectedModel candidate
  let metadata := turn.report.errorMetadata.getD []
  let last : LastCall := { run.last with provider := some candidate.provider, model := some model }
  let shared := turn.othersDuringCalls run.shared
  match turn.outcome call.responseSchema with
  | .returned content usage =>
      ({ run with
        shared := { shared with health := shared.health.recordSuccess candidate.provider none }
        last := (last.report turn.report []).note ⟨candidate.provider, model, "completed", none⟩ },
        some (.returned content usage))
  | .raised e =>
      let failed : FailedAttempt :=
        ⟨e, candidate.provider, model, turn.report.statusCode, metadata⟩
      ({ run with
        shared :=
          { cooldowns :=
              if e.rateLimited then
                shared.cooldowns.coolDown call.session candidate.provider call.cooldownSeconds
                  turn.cooledDownAt
              else shared.cooldowns
            health :=
              shared.health.recordFailure candidate.provider e.name turn.failureRecordedAt }
        last := (last.report turn.report metadata).note
          ⟨candidate.provider, model, "failed", some e.name⟩
        errors := run.errors ++ [failed] }, none)
  | .cancelled =>
      ({ run with
        shared
        last := last.note ⟨candidate.provider, model, "started", none⟩ }, some .cancelled)

/-- One turn of the loop. -/
def visit (run : FailoverRun) (candidate : OnboardingProviderCandidate) (turn : FailoverTurn) :
    FailoverRun × Option LoopEnd :=
  let shared := turn.othersBefore run.shared
  let seen : Visit := { candidate, turn, shared, attempted := false }
  let shared := { shared with cooldowns := (call.cooldown seen).1 }
  if (call.cooldown seen).2 then ({ run with shared }.log seen, none)
  else
    let shared := { shared with health := seen.availability.1 }
    if !seen.availability.2 then ({ run with shared }.log seen, none)
    else if call.maxAttempts ≤ run.attemptsStarted then
      ({ run with shared }.log seen, some .exhausted)
    else
      call.attempt
        ({ run with shared, attemptsStarted := run.attemptsStarted + 1 }.log
          { seen with attempted := true }) candidate turn

def tryCandidates : FailoverRun → List (OnboardingProviderCandidate × FailoverTurn) →
    FailoverRun × LoopEnd
  | run, [] => (run, .exhausted)
  | run, (candidate, turn) :: rest =>
      match call.visit run candidate turn with
      | (run, some ending) => (run, ending)
      | (run, none) => tryCandidates run rest

/-- The error that is reported. -/
def selectedError (errors : List FailedAttempt) : Option FailedAttempt :=
  (errors.filter fun f => !f.exception.rateLimited).getLast?.or errors.getLast?

end FailoverCall

inductive FailoverError where
  | provider (e : ProviderException)
  | cancelled
  | noneAvailable
deriving DecidableEq

structure FailoverResult where
  run : FailoverRun
  outcome : Except FailoverError (String × ℤ)

/-- `RoutedOnboardingLLMProvider.generate`. -/
def FailoverCall.generate (call : FailoverCall) (shared : SharedState)
    (turns : List (OnboardingProviderCandidate × FailoverTurn)) : FailoverResult :=
  let (run, ending) := call.tryCandidates { shared } turns
  match ending with
  | .returned content usage => ⟨run, .ok (content, usage)⟩
  | .cancelled => ⟨run, .error .cancelled⟩
  | .exhausted =>
      match FailoverCall.selectedError run.errors with
      | some f =>
          ⟨{ run with last := { run.last with
            provider := some f.provider
            model := some f.model
            statusCode := f.statusCode
            errorMetadata := f.errorMetadata } }, .error (.provider f.exception)⟩
      | none => ⟨run, .error .noneAvailable⟩

/-! ## The law of the failover -/

def FailoverRun.attempts (run : FailoverRun) : List Visit := run.visits.filter Visit.attempted

/-- What a call promises for a list of candidates. -/
structure FailsOver (call : FailoverCall) (candidates : List OnboardingProviderCandidate)
    (result : FailoverResult) : Prop where
  /-- Each position has at most one turn, and the turns follow the list. -/
  visited : result.run.visits.map Visit.candidate <+: candidates
  limit : result.run.attempts.length ≤ call.maxAttempts
  allowed : ∀ v ∈ result.run.attempts, (call.cooldown v).2 = false ∧ v.availability.2 = true
  returned : ∀ v ∈ result.run.attempts, ∀ content usage,
    call.outcome v = .returned content usage →
      result.run.visits.getLast? = some v ∧ result.outcome = .ok (content, usage) ∧
        result.run.last.provider = some v.candidate.provider ∧
        result.run.last.model = some (call.selectedModel v.candidate)
  raised : result.run.attempts ≠ [] →
    (∀ v ∈ result.run.attempts, ∃ e, call.outcome v = .raised e) →
      ∃ before v after e, result.run.attempts = before ++ v :: after ∧
        call.outcome v = .raised e ∧
        ((e.rateLimited = false ∧ ∀ w ∈ after, (call.outcome w).rateLimited) ∨
          (after = [] ∧ ∀ w ∈ result.run.attempts, (call.outcome w).rateLimited)) ∧
        result.outcome = .error (.provider e) ∧
        result.run.last.provider = some v.candidate.provider ∧
        result.run.last.model = some (call.selectedModel v.candidate) ∧
        result.run.last.statusCode = v.turn.report.statusCode

namespace FailoverCall

variable (call : FailoverCall)

/-- The entry of `errors` for an attempt. -/
def failure (v : Visit) : Option FailedAttempt :=
  match call.outcome v with
  | .raised e => some ⟨e, v.candidate.provider, call.selectedModel v.candidate,
      v.turn.report.statusCode, v.turn.report.errorMetadata.getD []⟩
  | _ => none

/-- Whether an attempt ends the loop. -/
def ending (v : Visit) : Option LoopEnd :=
  match call.outcome v with
  | .returned content usage => some (.returned content usage)
  | .raised _ => none
  | .cancelled => some .cancelled

/-- A candidate is passed over. -/
structure PassesOver (run next : FailoverRun) (v : Visit) : Prop where
  attempted : v.attempted = false
  visits : next.visits = run.visits ++ [v]
  errors : next.errors = run.errors
  attemptsStarted : next.attemptsStarted = run.attemptsStarted

/-- A candidate is attempted. -/
structure Attempts (run next : FailoverRun) (v : Visit) : Prop where
  attempted : v.attempted = true
  below : run.attemptsStarted < call.maxAttempts
  allowed : (call.cooldown v).2 = false ∧ v.availability.2 = true
  visits : next.visits = run.visits ++ [v]
  errors : next.errors = run.errors ++ (call.failure v).toList
  attemptsStarted : next.attemptsStarted = run.attemptsStarted + 1
  provider : next.last.provider = some v.candidate.provider
  model : next.last.model = some (call.selectedModel v.candidate)

/-- What a turn of the loop can do. -/
theorem visit_cases (run : FailoverRun) (candidate : OnboardingProviderCandidate)
    (turn : FailoverTurn) : ∃ v : Visit, v.candidate = candidate ∧
      ((PassesOver run (call.visit run candidate turn).1 v ∧
          ((call.visit run candidate turn).2 = none ∨
            (call.visit run candidate turn).2 = some .exhausted)) ∨
        (call.Attempts run (call.visit run candidate turn).1 v ∧
          (call.visit run candidate turn).2 = call.ending v)) := by
  let seen : Visit :=
    { candidate, turn, shared := turn.othersBefore run.shared, attempted := false }
  by_cases hc : (call.cooldown seen).2
  · refine ⟨seen, rfl, .inl ?_⟩
    rw [show call.visit run candidate turn = _ from if_pos hc]
    exact ⟨⟨rfl, rfl, rfl, rfl⟩, .inl rfl⟩
  rw [show call.visit run candidate turn = _ from if_neg hc]
  by_cases ha : seen.availability.2
  · rw [if_neg (by simp only [ha, Bool.not_true, Bool.false_eq_true, not_false_eq_true] :
      ¬(!seen.availability.2) = true)]
    by_cases hm : call.maxAttempts ≤ run.attemptsStarted
    · refine ⟨seen, rfl, .inl ?_⟩
      rw [if_pos hm]
      exact ⟨⟨rfl, rfl, rfl, rfl⟩, .inr rfl⟩
    · refine ⟨{ seen with attempted := true }, rfl, .inr ?_⟩
      rw [if_neg hm]
      have below : run.attemptsStarted < call.maxAttempts := Nat.lt_of_not_le hm
      have allowed : (call.cooldown seen).2 = false := Bool.eq_false_iff.mpr hc
      cases ho : turn.outcome call.responseSchema <;>
        simp only [attempt, ho]
      all_goals
        refine ⟨⟨rfl, below, ⟨allowed, ha⟩, rfl, ?_, rfl, rfl, rfl⟩, ?_⟩
        all_goals simp [failure, ending, outcome, ho, seen, FailoverRun.log]
  · refine ⟨seen, rfl, .inl ?_⟩
    rw [if_pos (by simpa using ha)]
    exact ⟨⟨rfl, rfl, rfl, rfl⟩, .inl rfl⟩

/-! ### The invariant of the loop -/

/-- The counter and the errors are those of the attempts, and every attempt was allowed. -/
structure Tracks (run : FailoverRun) : Prop where
  started : run.attemptsStarted = run.attempts.length
  limit : run.attempts.length ≤ call.maxAttempts
  allowed : ∀ v ∈ run.attempts, (call.cooldown v).2 = false ∧ v.availability.2 = true
  errors : run.errors = run.attempts.filterMap call.failure

theorem tracks_start (shared : SharedState) : call.Tracks { shared } :=
  ⟨rfl, Nat.zero_le _, List.forall_mem_nil _, rfl⟩

def AllRaised (visits : List Visit) : Prop := ∀ v ∈ visits, ∃ e, call.outcome v = .raised e

/-- What an ended loop has attempted. -/
def Settles (run : FailoverRun) (ending : LoopEnd) : Prop :=
  (ending = .exhausted ∧ call.AllRaised run.attempts) ∨
    ∃ before v, run.attempts = before ++ [v] ∧ run.visits.getLast? = some v ∧
      call.AllRaised before ∧ call.ending v = some ending ∧
      run.last.provider = some v.candidate.provider ∧
      run.last.model = some (call.selectedModel v.candidate)

variable {call} {run next : FailoverRun} {v : Visit}

theorem PassesOver.attempts_eq (h : PassesOver run next v) : next.attempts = run.attempts := by
  rw [FailoverRun.attempts, FailoverRun.attempts, h.visits, List.filter_append,
    List.filter_cons_of_neg (by simp only [h.attempted, Bool.false_eq_true, not_false_eq_true]),
    List.filter_nil, List.append_nil]

theorem Attempts.attempts_eq (h : call.Attempts run next v) :
    next.attempts = run.attempts ++ [v] := by
  rw [FailoverRun.attempts, FailoverRun.attempts, h.visits, List.filter_append,
    List.filter_cons_of_pos h.attempted, List.filter_nil]

theorem Tracks.passesOver (tracked : call.Tracks run) (h : PassesOver run next v) :
    call.Tracks next where
  started := by rw [h.attemptsStarted, h.attempts_eq, tracked.started]
  limit := by rw [h.attempts_eq]; exact tracked.limit
  allowed := by rw [h.attempts_eq]; exact tracked.allowed
  errors := by rw [h.errors, h.attempts_eq, tracked.errors]

theorem Tracks.attempts (tracked : call.Tracks run) (h : call.Attempts run next v) :
    call.Tracks next where
  started := by rw [h.attemptsStarted, h.attempts_eq, tracked.started, List.length_append,
    List.length_singleton]
  limit := by
    have below := h.below
    rw [tracked.started] at below
    rw [h.attempts_eq, List.length_append, List.length_singleton]
    omega
  allowed := by
    rw [h.attempts_eq]
    exact List.forall_mem_append.mpr
      ⟨tracked.allowed, List.forall_mem_singleton.mpr h.allowed⟩
  errors := by
    rw [h.errors, h.attempts_eq, tracked.errors, List.filterMap_append]
    cases hf : call.failure v <;> simp [hf]

theorem ending_eq_none (h : call.ending v = none) : ∃ e, call.outcome v = .raised e := by
  cases ho : call.outcome v with
  | raised e => exact ⟨e, rfl⟩
  | returned content usage => simp [ending, ho] at h
  | cancelled => simp [ending, ho] at h

/-- The loop ends with every attempt accounted for, and only an attempt that has not raised is
followed by nothing. -/
theorem tryCandidates_settles (turns : List (OnboardingProviderCandidate × FailoverTurn)) :
    ∀ run, call.Tracks run → call.AllRaised run.attempts →
      ∃ seen, (call.tryCandidates run turns).1.visits = run.visits ++ seen ∧
        seen.map Visit.candidate <+: turns.map Prod.fst ∧
        call.Tracks (call.tryCandidates run turns).1 ∧
        call.Settles (call.tryCandidates run turns).1 (call.tryCandidates run turns).2 := by
  induction turns with
  | nil =>
      intro run tracked raised
      exact ⟨[], (List.append_nil _).symm, List.nil_prefix, tracked, .inl ⟨rfl, raised⟩⟩
  | cons head rest ih =>
      intro run tracked raised
      obtain ⟨candidate, turn⟩ := head
      obtain ⟨v, hv, step⟩ := call.visit_cases run candidate turn
      rw [tryCandidates]
      generalize call.visit run candidate turn = stepped at step
      obtain ⟨next, ending⟩ := stepped
      -- the turns that are left see the visit of this turn before their own
      have continues : next.visits = run.visits ++ [v] → call.Tracks next →
          call.AllRaised next.attempts → ∃ seen,
            (call.tryCandidates next rest).1.visits = run.visits ++ seen ∧
            seen.map Visit.candidate <+: candidate :: rest.map Prod.fst ∧
            call.Tracks (call.tryCandidates next rest).1 ∧
            call.Settles (call.tryCandidates next rest).1 (call.tryCandidates next rest).2 := by
        intro visits tracked raised
        obtain ⟨seen, hseen, horder, htracks, hsettles⟩ := ih next tracked raised
        refine ⟨v :: seen, ?_, ?_, htracks, hsettles⟩
        · rw [hseen, visits, List.append_assoc, List.singleton_append]
        · rw [List.map_cons, hv]
          exact List.cons_prefix_cons.mpr ⟨rfl, horder⟩
      have stops : [v].map Visit.candidate <+: candidate :: rest.map Prod.fst := by
        rw [List.map_singleton, hv]
        exact List.cons_prefix_cons.mpr ⟨rfl, List.nil_prefix⟩
      obtain ⟨passed, hend | hend⟩ | ⟨attempted, hend⟩ := step
      · change ending = _ at hend
        subst hend
        refine continues passed.visits (tracked.passesOver passed) ?_
        rw [passed.attempts_eq]
        exact raised
      · change ending = _ at hend
        subst hend
        refine ⟨[v], passed.visits, stops, tracked.passesOver passed, .inl ⟨rfl, ?_⟩⟩
        rw [passed.attempts_eq]
        exact raised
      · change ending = _ at hend
        subst hend
        cases he : call.ending v with
        | none =>
            refine continues attempted.visits (tracked.attempts attempted) ?_
            rw [attempted.attempts_eq]
            exact List.forall_mem_append.mpr
              ⟨raised, List.forall_mem_singleton.mpr (ending_eq_none he)⟩
        | some ending =>
            refine ⟨[v], attempted.visits, stops, tracked.attempts attempted,
              .inr ⟨run.attempts, v, attempted.attempts_eq, ?_, raised, he, attempted.provider,
                attempted.model⟩⟩
            rw [attempted.visits, List.getLast?_concat]

/-! ### The error that is reported -/

theorem selectedError_eq_some {errors : List FailedAttempt} {f : FailedAttempt}
    (h : selectedError errors = some f) : ∃ before after, errors = before ++ f :: after ∧
      ((f.exception.rateLimited = false ∧ ∀ g ∈ after, g.exception.rateLimited = true) ∨
        (after = [] ∧ ∀ g ∈ errors, g.exception.rateLimited = true)) := by
  rw [selectedError, Option.or_eq_some_iff] at h
  obtain h | ⟨none, h⟩ := h
  · obtain ⟨others, h⟩ := List.getLast?_eq_some_iff.mp h
    obtain ⟨start, rest, rfl, -, hrest⟩ := List.filter_eq_append_iff.mp h
    obtain ⟨before, after, rfl, -, hf, hafter⟩ := List.filter_eq_cons_iff.mp hrest
    refine ⟨start ++ before, after, (List.append_assoc ..).symm, .inl ⟨?_, ?_⟩⟩
    · simpa using hf
    · intro g hg
      simpa using List.filter_eq_nil_iff.mp hafter g hg
  · obtain ⟨before, h⟩ := List.getLast?_eq_some_iff.mp h
    refine ⟨before, [], h, .inr ⟨rfl, ?_⟩⟩
    intro g hg
    simpa using List.filter_eq_nil_iff.mp (List.getLast?_eq_none_iff.mp none) g hg

theorem selectedError_isSome {errors : List FailedAttempt} (h : errors ≠ []) :
    ∃ f, selectedError errors = some f := by
  cases hs : selectedError errors with
  | some f => exact ⟨f, rfl⟩
  | none =>
      rw [selectedError, Option.or_eq_none_iff, List.getLast?_eq_none_iff] at hs
      exact absurd (List.getLast?_eq_none_iff.mp hs.2) h

theorem failure_eq_some {f : FailedAttempt} (h : call.failure v = some f) :
    call.outcome v = .raised f.exception ∧ f.provider = v.candidate.provider ∧
      f.model = call.selectedModel v.candidate ∧ f.statusCode = v.turn.report.statusCode := by
  cases ho : call.outcome v with
  | raised e =>
      simp only [failure, ho, Option.some.injEq] at h
      subst h
      exact ⟨rfl, rfl, rfl, rfl⟩
  | returned content usage => simp [failure, ho] at h
  | cancelled => simp [failure, ho] at h

theorem failure_of_raised {e : ProviderException} (h : call.outcome v = .raised e) :
    ∃ f, call.failure v = some f ∧ f.exception = e := by
  rw [failure, h]
  exact ⟨_, rfl, rfl⟩

/-- The error that is reported comes from an attempt of its own. -/
theorem Tracks.selectedError (tracked : call.Tracks run) (raised : call.AllRaised run.attempts)
    {f : FailedAttempt} (h : selectedError run.errors = some f) :
    ∃ before v after, run.attempts = before ++ v :: after ∧ call.failure v = some f ∧
      ((f.exception.rateLimited = false ∧ ∀ w ∈ after, (call.outcome w).rateLimited) ∨
        (after = [] ∧ ∀ w ∈ run.attempts, (call.outcome w).rateLimited)) := by
  obtain ⟨before, after, herrors, hlast⟩ := selectedError_eq_some h
  rw [tracked.errors] at herrors
  obtain ⟨start, rest, hattempts, hstart, hrest⟩ := List.filterMap_eq_append_iff.mp herrors
  obtain ⟨skipped, v, later, rfl, hskipped, hv, hlater⟩ := List.filterMap_eq_cons_iff.mp hrest
  -- an attempt whose entry is a 429 has raised one
  have limited : ∀ w ∈ run.attempts, (∀ g, call.failure w = some g → g.exception.rateLimited) →
      (call.outcome w).rateLimited := by
    intro w hw hg
    obtain ⟨e, he⟩ := raised w hw
    obtain ⟨g, hfail, rfl⟩ := failure_of_raised he
    rw [he]
    exact hg g hfail
  have inAttempts : ∀ w ∈ later, w ∈ run.attempts := by
    intro w hw
    rw [hattempts]
    exact List.mem_append_right _ (List.mem_append_right _ (List.mem_cons_of_mem _ hw))
  refine ⟨start ++ skipped, v, later, by rw [hattempts, List.append_assoc], hv, ?_⟩
  obtain ⟨other, hafter⟩ | ⟨rfl, hall⟩ := hlast
  · refine .inl ⟨other, ?_⟩
    intro w hw
    exact limited w (inAttempts w hw) fun g hg =>
      hafter g (hlater ▸ List.mem_filterMap.mpr ⟨w, hw, hg⟩)
  · refine .inr ⟨?_, ?_⟩
    · -- an attempt after this one would have an entry
      refine List.eq_nil_iff_forall_not_mem.mpr ?_
      intro w hw
      obtain ⟨e, he⟩ := raised w (inAttempts w hw)
      obtain ⟨g, hg, -⟩ := failure_of_raised he
      have entry := List.mem_filterMap.mpr ⟨w, hw, hg⟩
      rw [hlater] at entry
      exact List.not_mem_nil entry
    · intro w hw
      refine limited w hw ?_
      intro g hg
      exact hall g (tracked.errors ▸ List.mem_filterMap.mpr ⟨w, hw, hg⟩)

/-- A loop in which every attempt has raised has an error to report. -/
theorem Tracks.selectedError_isSome (tracked : call.Tracks run)
    (raised : call.AllRaised run.attempts) (attempted : run.attempts ≠ []) :
    ∃ f, FailoverCall.selectedError run.errors = some f := by
  obtain ⟨v, hv⟩ := List.exists_mem_of_ne_nil _ attempted
  obtain ⟨e, he⟩ := raised v hv
  obtain ⟨f, hf, -⟩ := failure_of_raised he
  have entry : f ∈ run.errors := tracked.errors ▸ List.mem_filterMap.mpr ⟨v, hv, hf⟩
  exact FailoverCall.selectedError_isSome (List.ne_nil_of_mem entry)

variable {visits before : List Visit} {w : Visit}

theorem AllRaised.ne_returned (raised : call.AllRaised visits) (hv : v ∈ visits)
    (content : String) (usage : ℤ) : call.outcome v ≠ .returned content usage := by
  intro h
  obtain ⟨e, he⟩ := raised v hv
  rw [he] at h
  exact AdapterOutcome.noConfusion h

theorem AllRaised.eq_last (raised : call.AllRaised before) (hw : w ∈ before ++ [v])
    (h : ∀ e, call.outcome w ≠ .raised e) : w = v := by
  rw [List.mem_append, List.mem_singleton] at hw
  obtain hw | rfl := hw
  · obtain ⟨e, he⟩ := raised w hw
    exact absurd he (h e)
  · rfl

end FailoverCall

end Zyntry
