import Zyntry.OnboardingCompletion

/-!
# Messages of an onboarding session

`process_message` appends a turn to the messages of its session: what the user asks, and what the
assistant answers or the error of the provider. A request with the key of a turn that failed cuts
the messages at that turn before it is processed again.
-/

namespace Zyntry

open Python

/-! ## Turns -/

structure OnboardingMessageRequest where
  message : String
  idempotencyKey : Option String := none

/-- What `complete_onboarding` commits. -/
structure CommittedCompletion where
  runtimeId : Uuid
  configuration : Fields
  completedAt : ℤ

/-- What the providers and the later steps make of a turn. -/
inductive TurnOutcome where
  /-- The provider's error is stored with the turn, unless the write fails. -/
  | providerError (publicMessage code : String) (retryable stored : Bool)
  /-- An error is raised, possibly after a completion. -/
  | raised (completion : Option CommittedCompletion)
  | confirmed (message : String) (completion : CommittedCompletion)
  | answered (text : String) (proposedIntent : Json) (error : Option Json) (state : String)
      (configuration : Fields)

inductive TurnResult where
  | notFound
  | alreadyCompleted
  | replayed (content : Option Json)
  | providerError (code : String)
  | raised
  | answered (text state : String) (configuration : Fields)

/-- What the scan for a key has found. -/
inductive StoredTurn where
  | absent
  | failed (index : ℕ)
  | answered (following : Fields)

/-- `item.get(name) == text`. -/
def fieldIs (name text : String) (item : Fields) : Bool :=
  match Json.lookup name item with
  | some (.str s) => s = text
  | _ => false

/-- A message of the user with the key. -/
def asksWith (key : String) (item : Fields) : Bool :=
  fieldIs "role" "user" item && fieldIs "idempotency_key" key item

def isAssistant (item : Fields) : Bool := fieldIs "role" "assistant" item

def hasError (item : Fields) : Bool := (Json.lookup "error" item).any Json.truthy

/-- The scan of the messages below an index, from the last one. -/
def findTurn (messages : List Fields) (key : String) : ℕ → StoredTurn
  | 0 => .absent
  | index + 1 =>
      if (messages[index]?).any (asksWith key) then
        match messages[index + 1]? with
        | some following =>
            if isAssistant following then
              if hasError following then .failed index else .answered following
            else .absent
        | none => .absent
      else findTurn messages key index

def storedTurn (messages : List Fields) (req : OnboardingMessageRequest) : StoredTurn :=
  match req.idempotencyKey.filter (· ≠ "") with
  | some key => findTurn messages key messages.length
  | none => .absent

/-- The messages that a turn is appended to. -/
def StoredTurn.kept (messages : List Fields) : StoredTurn → List Fields
  | .failed index => messages.take index
  | _ => messages

def userMessage (req : OnboardingMessageRequest) (timestamp : String) : Fields :=
  [("role", .str "user"), ("content", .str req.message), ("timestamp", .str timestamp),
    ("idempotency_key", (req.idempotencyKey.map Json.str).getD .null)]

def modelError (code : String) (retryable : Bool) : Json :=
  .obj [("code", .str code), ("retryable", .bool retryable)]

/-- The answer of the assistant, or the marker of a failed turn. -/
def assistantMessage (timestamp : String) : TurnOutcome → Fields
  | .providerError publicMessage code retryable _ =>
      [("role", .str "assistant"), ("content", .str publicMessage), ("timestamp", .str timestamp),
        ("error", modelError code retryable)]
  | .confirmed message _ =>
      [("role", .str "assistant"), ("content", .str message), ("timestamp", .str timestamp),
        ("proposed_intent", .str "completed")]
  | .answered text proposedIntent error _ _ =>
      [("role", .str "assistant"), ("content", .str text), ("timestamp", .str timestamp),
        ("proposed_intent", proposedIntent)] ++
        match error.filter Json.truthy with
        | some error => [("error", error)]
        | none => []
  | .raised _ => []

/-- Nothing of the turn is stored. -/
def TurnOutcome.unstored : TurnOutcome → Bool
  | .providerError _ _ _ stored => !stored
  | .raised _ => true
  | .confirmed _ _ => false
  | .answered _ _ _ _ _ => false

def CommittedCompletion.apply (completion : CommittedCompletion) (session : OnboardingSession) :
    OnboardingSession :=
  CompletionEngine.completed session completion.runtimeId completion.configuration
    completion.completedAt

/-- The session with the turn's messages. -/
def storeTurn (session : OnboardingSession) (messages : List Fields) :
    TurnOutcome → TurnResult × OnboardingSession
  | .providerError _ code retryable stored =>
      (.providerError code, if stored then
        { session with
          messages := messages
          configuration := Json.update session.configuration
            [("onboarding_model_error", modelError code retryable)] }
      else session)
  | .raised completion => (.raised, (completion.map (·.apply session)).getD session)
  | .confirmed message completion =>
      (.answered message "completed" completion.configuration,
        { completion.apply session with messages := messages })
  | .answered text _ _ state configuration =>
      (.answered text state configuration,
        { session with
          state := state
          messages := messages
          configuration := configuration })

/-- `process_message`, with the times of its two messages. -/
def processMessage (session : OnboardingSession) (userId : Uuid) (req : OnboardingMessageRequest)
    (askedAt answeredAt : String) (outcome : TurnOutcome) : TurnResult × OnboardingSession :=
  if session.userId ≠ userId then (.notFound, session)
  else if session.state = "completed" then (.alreadyCompleted, session)
  else
    match storedTurn session.messages req with
    | .answered following => (.replayed (Json.lookup "content" following), session)
    | turn =>
        storeTurn session (turn.kept session.messages ++
          [userMessage req askedAt, assistantMessage answeredAt outcome]) outcome

/-! ## The turn that is retried -/

/-- A turn with the key failed at an index. -/
def FailedTurn (messages : List Fields) (key : String) (i : ℕ) : Prop :=
  ∃ asked answered, messages[i]? = some asked ∧ messages[i + 1]? = some answered ∧
    asksWith key asked = true ∧ isAssistant answered = true ∧ hasError answered = true

def withoutTurn (messages : List Fields) (i : ℕ) : List Fields :=
  messages.take i ++ messages.drop (i + 2)

/-- At most one failed turn with the key is removed, and the messages after it stay. -/
def KeepsOthers (key : Option String) (messages stored : List Fields) : Prop :=
  ∃ kept, (kept = messages ∨ ∃ k ∈ key, ∃ i, FailedTurn messages k i ∧
    kept = withoutTurn messages i) ∧ kept <+: stored

/-- The index at which a request cuts the messages of a session. -/
def retriedAt (session : OnboardingSession) (userId : Uuid) (req : OnboardingMessageRequest) :
    Option ℕ :=
  if session.userId ≠ userId ∨ session.state = "completed" then none
  else
    match storedTurn session.messages req with
    | .failed index => some index
    | _ => none

variable {messages : List Fields} {key : String} {index : ℕ}

theorem findTurn_failed {n : ℕ} (h : findTurn messages key n = .failed index) :
    FailedTurn messages key index ∧
      ∀ j item, index < j → j < n → messages[j]? = some item → asksWith key item = false := by
  induction n with
  | zero => cases h
  | succ n ih =>
      rw [findTurn] at h
      split_ifs at h with hasks
      · obtain ⟨asked, hasked, hkey⟩ := (Option.any_eq_true _ _).mp hasks
        cases hnext : messages[n + 1]? with
        | none =>
            rw [hnext] at h
            cases h
        | some following =>
            rw [hnext] at h
            dsimp only at h
            split_ifs at h with hassistant herror
            obtain rfl := StoredTurn.failed.inj h
            refine ⟨⟨asked, following, hasked, hnext, hkey, hassistant, herror⟩, ?_⟩
            intro j item hlow hhigh
            omega
      · obtain ⟨hturn, hlater⟩ := ih h
        refine ⟨hturn, ?_⟩
        intro j item hlow hhigh hitem
        obtain hlt | rfl := Nat.lt_succ_iff_lt_or_eq.mp hhigh
        · exact hlater j item hlow hlt hitem
        · rw [hitem, Option.any_some] at hasks
          simpa using hasks

theorem storedTurn_failed {req : OnboardingMessageRequest}
    (h : storedTurn messages req = .failed index) : ∃ key ∈ req.idempotencyKey,
      FailedTurn messages key index ∧
        ∀ j item, index < j → messages[j]? = some item → asksWith key item = false := by
  unfold storedTurn at h
  cases hkey : req.idempotencyKey.filter (· ≠ "") with
  | none =>
      rw [hkey] at h
      cases h
  | some key =>
      rw [hkey] at h
      obtain ⟨hturn, hlater⟩ := findTurn_failed h
      refine ⟨key, (Option.filter_eq_some_iff.mp hkey).1, hturn, ?_⟩
      intro j item hlow hitem
      obtain ⟨hhigh, -⟩ := List.getElem?_eq_some_iff.mp hitem
      exact hlater j item hlow hhigh hitem

theorem asksWith_userMessage {req : OnboardingMessageRequest} (h : key ∈ req.idempotencyKey)
    (timestamp : String) : asksWith key (userMessage req timestamp) = true := by
  simp [asksWith, fieldIs, userMessage, Json.lookup, Option.mem_def.mp h]

theorem getElem?_withoutTurn {i j : ℕ} (hj : j ≤ i) (hi : i ≤ messages.length) :
    (withoutTurn messages j)[i]? = messages[i + 2]? := by
  have hlength : (messages.take j).length = j := by
    rw [List.length_take]
    omega
  rw [withoutTurn, List.getElem?_append_right (by omega), hlength, List.getElem?_drop]
  congr 1
  omega

/-- If messages come after a failed turn, a turn in its place keeps too few. -/
theorem not_keepsOthers_of_cut {req : OnboardingMessageRequest} {timestamp : String}
    {answered : Fields} (h : storedTurn messages req = .failed index)
    (hlater : index + 2 ≠ messages.length) :
    ¬KeepsOthers req.idempotencyKey messages
      (messages.take index ++ [userMessage req timestamp, answered]) := by
  obtain ⟨key, hkey, ⟨asked, following, hasked, hfollowing, -⟩, hlast⟩ := storedTurn_failed h
  obtain ⟨hshort, -⟩ := List.getElem?_eq_some_iff.mp hfollowing
  have htake : (messages.take index).length = index := by
    rw [List.length_take]
    omega
  rintro ⟨kept, hkept, hprefix⟩
  have hlength := hprefix.length_le
  rw [List.length_append, htake] at hlength
  simp only [List.length_cons, List.length_nil] at hlength
  obtain rfl | ⟨key', hkey', j, ⟨asked', -, hasked', -, hasks, -⟩, rfl⟩ := hkept
  · omega
  · obtain rfl := Option.mem_unique hkey' hkey
    have hj : j ≤ index := by
      by_contra hafter
      rw [hlast j asked' (by omega) hasked'] at hasks
      cases hasks
    -- the message that takes the place of the new question comes after the failed turn
    obtain ⟨more, hmore⟩ := hprefix
    have hplace : messages[index + 2]? = some (userMessage req timestamp) := by
      have hcut : index < (withoutTurn messages j).length := by
        rw [withoutTurn, List.length_append, List.length_take, List.length_drop]
        omega
      rw [← getElem?_withoutTurn hj (by omega), ← List.getElem?_append_left hcut, hmore,
        List.getElem?_append_right htake.le, htake, Nat.sub_self]
      rfl
    have hnone := hlast (index + 2) _ (by omega) hplace
    rw [asksWith_userMessage hkey timestamp] at hnone
    cases hnone

theorem storeTurn_messages (session : OnboardingSession) (messages : List Fields)
    (outcome : TurnOutcome) : (storeTurn session messages outcome).2.messages =
      if outcome.unstored then session.messages else messages := by
  cases outcome with
  | providerError publicMessage code retryable stored => cases stored <;> rfl
  | raised completion => cases completion <;> rfl
  | confirmed message completion => rfl
  | answered text proposedIntent error state configuration => rfl

/-- A request keeps the messages of the other turns exactly if the failed turn with its key is the
last one, or nothing of its turn is stored. -/
theorem processMessage_keepsOthers_iff (session : OnboardingSession) (userId : Uuid)
    (req : OnboardingMessageRequest) (askedAt answeredAt : String) (outcome : TurnOutcome) :
    KeepsOthers req.idempotencyKey session.messages
        (processMessage session userId req askedAt answeredAt outcome).2.messages ↔
      (∀ index ∈ retriedAt session userId req, index + 2 = session.messages.length) ∨
        outcome.unstored = true := by
  have hall : KeepsOthers req.idempotencyKey session.messages session.messages :=
    ⟨session.messages, .inl rfl, List.prefix_rfl⟩
  unfold processMessage retriedAt
  by_cases huser : session.userId ≠ userId
  · rw [if_pos huser, if_pos (.inl huser)]
    exact iff_of_true hall (.inl (by simp))
  by_cases hstate : session.state = "completed"
  · rw [if_neg huser, if_pos hstate, if_pos (.inr hstate)]
    exact iff_of_true hall (.inl (by simp))
  rw [if_neg huser, if_neg hstate, if_neg (by tauto)]
  cases hturn : storedTurn session.messages req with
  | answered following => exact iff_of_true hall (.inl (by simp))
  | absent =>
      dsimp only
      refine iff_of_true ?_ (.inl (by simp))
      rw [storeTurn_messages]
      split_ifs
      · exact hall
      · exact ⟨session.messages, .inl rfl, List.prefix_append _ _⟩
  | failed index =>
      dsimp only
      rw [storeTurn_messages]
      split_ifs with hstored
      · exact iff_of_true hall (.inr hstored)
      · simp only [Option.mem_some_iff, forall_eq', hstored, Bool.false_eq_true, or_false]
        constructor
        · intro hkeeps
          by_contra hlater
          exact not_keepsOthers_of_cut hturn hlater hkeeps
        · intro hlast
          obtain ⟨key, hkey, hfailed, -⟩ := storedTurn_failed hturn
          refine ⟨withoutTurn session.messages index, .inr ⟨key, hkey, index, hfailed, rfl⟩, ?_⟩
          rw [withoutTurn, hlast, List.drop_length, List.append_nil]
          exact List.prefix_append _ _

/-- A session in which a turn failed and the next one succeeded. -/
def sessionAfterFailure : OnboardingSession where
  id := ⟨"session"⟩
  userId := ⟨"user"⟩
  state := "clarifying_requirements"
  messages :=
    [[("role", .str "user"), ("content", .str "Hello"), ("idempotency_key", .str "turn-0001")],
      [("role", .str "assistant"), ("content", .str "Please try again."),
        ("error", modelError "onboarding_model_unavailable" true)],
      [("role", .str "user"), ("content", .str "A support bot"),
        ("idempotency_key", .str "turn-0002")],
      [("role", .str "assistant"), ("content", .str "For which documents?")]]

def retryRequest : OnboardingMessageRequest := ⟨"Hello", some "turn-0001"⟩

theorem storedTurn_sessionAfterFailure :
    storedTurn sessionAfterFailure.messages retryRequest = .failed 0 := rfl

/-- The retry of the first turn removes the second one. -/
theorem retry_drops_later_turn :
    ¬KeepsOthers retryRequest.idempotencyKey sessionAfterFailure.messages
      (processMessage sessionAfterFailure ⟨"user"⟩ retryRequest "10:00" "10:01"
        (.answered "Hi" (.str "greet") none "clarifying_requirements" [])).2.messages :=
  not_keepsOthers_of_cut storedTurn_sessionAfterFailure (by decide)

end Zyntry
