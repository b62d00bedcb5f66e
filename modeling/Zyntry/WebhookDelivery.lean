import Mathlib.Data.Rat.Floor
import Mathlib.Data.List.Basic
import Mathlib.Logic.Function.Basic

/-!
# Delivering a webhook

One delivery is a chain of task executions, each of which may schedule the next. An execution
records its event, posts to the subscriber and records how that has ended. The callers give
the id of an event or leave it out; an execution without it draws a fresh one.
-/

namespace Zyntry

inductive WebhookStatus where
  | processing
  | processed
  | failed
deriving DecidableEq, Repr

structure ProcessedEventRow where
  status : WebhookStatus
  error : Option String := none
  receivedAt : ℚ
deriving DecidableEq, Repr

structure WebhookDelivery where
  responseStatus : ℕ
  responseBody : Option String
  attempts : ℕ
deriving DecidableEq, Repr

/-- The committed rows; an event id has one row at most. -/
structure WebhookTables where
  events : String → Option ProcessedEventRow := fun _ => none
  deliveries : List WebhookDelivery := []

/-- How the block that posts the request ends; a URL that is refused is not asked. -/
inductive PostOutcome where
  | response (status : ℕ) (body : Option String)
  | raised (message : String)
  | refused (message : String)
deriving DecidableEq, Repr

/-- What an execution meets. -/
structure WebhookExecution where
  subscriptionActive : Bool := true
  now : ℚ
  freshId : String
  outcome : PostOutcome
deriving DecidableEq, Repr

inductive ExecutionEnd where
  | skipped
  | deduplicated
  | inProgress
  | backoff
  | integrityError
  | delivered
  /-- Scheduled again, in so many seconds. -/
  | retry (countdown : ℤ)
  /-- The exception of the last attempt, once no retry is left. -/
  | raised (message : String)
deriving DecidableEq, Repr

structure ExecutionReport where
  ending : ExecutionEnd
  /-- A request was sent. -/
  attempted : Bool
deriving DecidableEq, Repr

def webhookMaxRetries : ℕ := 7

/-- `_exponential_backoff`; a delay is a multiple of ten seconds, so the jitter is whole. -/
def exponentialBackoff (hash : String → ℤ) (retries : ℕ) : ℤ :=
  let delay : ℤ := min (10 * 2 ^ retries) 900
  let jitter : ℤ := min (delay / 10) 10
  delay + hash (toString retries) % jitter

/-- `event_id or …`. -/
def givenEventId (eventId : Option String) : Option String :=
  eventId.filter fun id => id ≠ ""

section

variable (hash : String → ℤ)

/-- The seconds after which a failed event may be delivered again. A text occurs in itself
once. -/
def ProcessedEventRow.backoff (row : ProcessedEventRow) : ℤ :=
  exponentialBackoff hash (if row.error.getD "" = "" then 0 else 1)

def WebhookTables.setEvent (db : WebhookTables) (id : String) (row : ProcessedEventRow) :
    WebhookTables := { db with events := Function.update db.events id (some row) }

/-- `self.retry`. -/
def retryOrRaise (retries : ℕ) (message : String) : ExecutionEnd :=
  if webhookMaxRetries < retries + 1 then .raised message
  else .retry (exponentialBackoff hash retries)

/-- The attempt, once the event has been recorded as being processed. -/
def attemptDelivery (retries : ℕ) (x : WebhookExecution) (id : String) (db : WebhookTables) :
    ExecutionReport × WebhookTables :=
  match x.outcome with
  | .response status body =>
      let delivery : WebhookDelivery := ⟨status, body, retries + 1⟩
      let db : WebhookTables := { db with deliveries := db.deliveries ++ [delivery] }
      if 400 ≤ status then
        let message := "Webhook failed with " ++ toString status
        (⟨retryOrRaise hash retries message, true⟩,
          db.setEvent id ⟨.failed, message, x.now⟩)
      else (⟨.delivered, true⟩, db.setEvent id ⟨.processed, none, x.now⟩)
  | .raised message =>
      (⟨retryOrRaise hash retries message, true⟩, db.setEvent id ⟨.failed, some message, x.now⟩)
  | .refused message =>
      (⟨retryOrRaise hash retries message, false⟩, db.setEvent id ⟨.failed, some message, x.now⟩)

/-- `deliver_webhook_task`, one execution. -/
def deliverWebhook (eventId : Option String) (retries : ℕ) (x : WebhookExecution)
    (db : WebhookTables) : ExecutionReport × WebhookTables :=
  if x.subscriptionActive then
    let id := (givenEventId eventId).getD x.freshId
    match db.events id with
    | none => attemptDelivery hash retries x id (db.setEvent id ⟨.processing, none, x.now⟩)
    | some row =>
        match row.status with
        | .processed => (⟨.deduplicated, false⟩, db)
        | .processing => (⟨.inProgress, false⟩, db)
        | .failed =>
            if x.now < row.receivedAt + row.backoff hash then (⟨.backoff, false⟩, db)
            else
              -- the insert violates the unique key, outside of the block that retries
              (⟨.integrityError, false⟩, db)
  else (⟨.skipped, false⟩, db)

/-- The executions of one delivery, with so many retries left. -/
def webhookChain (eventId : Option String) :
    ℕ → ℕ → (ℕ → WebhookExecution) → WebhookTables → List ExecutionReport × WebhookTables
  | remaining, retries, executions, db =>
      let answer := deliverWebhook hash eventId retries (executions 0) db
      match answer.1.ending, remaining with
      | .retry _, remaining + 1 =>
          let rest :=
            webhookChain eventId remaining (retries + 1) (fun k => executions (k + 1)) answer.2
          (answer.1 :: rest.1, rest.2)
      | _, _ => ([answer.1], answer.2)

end

/-! ## What the chain is for -/

def PostOutcome.Succeeds : PostOutcome → Prop
  | .response status _ => status < 400
  | _ => False

/-- A request is sent. -/
def PostOutcome.Sends : PostOutcome → Prop
  | .refused _ => False
  | _ => True

/-- The event is processed. -/
def ExecutionEnd.Processed (e : ExecutionEnd) : Prop := e = .delivered ∨ e = .deduplicated

def attemptsOf (reports : List ExecutionReport) : ℕ :=
  (reports.filter ExecutionReport.attempted).length

/-- The last execution has found or made the event processed. -/
def LastProcessed (reports : List ExecutionReport) : Prop :=
  ∃ report ∈ reports.getLast?, report.ending.Processed

/-- The execution has tried, or has a successor, or ends the delivery one way or the other. -/
def ExecutionReport.Counts (report : ExecutionReport) : Prop :=
  report.attempted = true ∨ report.ending.Processed ∨ (∃ c, report.ending = .retry c) ∨
    ∃ message, report.ending = .raised message

structure Completes (reports : List ExecutionReport) : Prop where
  ends : LastProcessed reports ∨ attemptsOf reports = webhookMaxRetries + 1
  counts : ∀ report ∈ reports, report.Counts

/-! ## One execution -/

variable {hash : String → ℤ} {eventId : Option String} {retries : ℕ} {x : WebhookExecution}
  {db : WebhookTables} {id : String}

variable (hash retries db id) in
theorem attemptDelivery_of_succeeds (h : x.outcome.Succeeds) :
    (attemptDelivery hash retries x id db).1 = ⟨.delivered, true⟩ := by
  unfold attemptDelivery
  cases houtcome : x.outcome with
  | response status body =>
      rw [houtcome] at h
      simp only [not_le.mpr (show status < 400 from h), if_false]
  | raised message => simp [houtcome, PostOutcome.Succeeds] at h
  | refused message => simp [houtcome, PostOutcome.Succeeds] at h

variable (hash retries db id) in
theorem attemptDelivery_of_not_succeeds (h : ¬x.outcome.Succeeds) :
    ∃ message attempted, (attempted = true ↔ x.outcome.Sends) ∧
      (attemptDelivery hash retries x id db).1 =
        ⟨retryOrRaise hash retries message, attempted⟩ := by
  unfold attemptDelivery
  cases houtcome : x.outcome with
  | response status body =>
      rw [houtcome] at h
      simp only [not_lt.mp (show ¬status < 400 from h), if_true]
      exact ⟨_, true, by simp [PostOutcome.Sends], rfl⟩
  | raised message => exact ⟨message, true, by simp [PostOutcome.Sends], rfl⟩
  | refused message => exact ⟨message, false, by simp [PostOutcome.Sends], rfl⟩

variable (hash retries x db id) in
/-- The row of the event after an attempt. -/
theorem attemptDelivery_event :
    ∃ row, (attemptDelivery hash retries x id db).2.events =
        Function.update db.events id (some row) ∧
      (row.status = .processed ↔ x.outcome.Succeeds) ∧ row.status ≠ .processing := by
  unfold attemptDelivery
  cases houtcome : x.outcome with
  | response status body =>
      by_cases hstatus : 400 ≤ status
      · simp only [hstatus, if_true]
        exact ⟨_, rfl, by simp [PostOutcome.Succeeds, hstatus], by simp⟩
      · simp only [hstatus, if_false]
        exact ⟨_, rfl, by simpa [PostOutcome.Succeeds] using hstatus, by simp⟩
  | raised message => exact ⟨_, rfl, by simp [PostOutcome.Succeeds], by simp⟩
  | refused message => exact ⟨_, rfl, by simp [PostOutcome.Succeeds], by simp⟩

theorem deliverWebhook_of_inactive (h : x.subscriptionActive = false) :
    deliverWebhook hash eventId retries x db = (⟨.skipped, false⟩, db) := by
  simp only [deliverWebhook, h, Bool.false_eq_true, if_false]

variable (hash retries) in
theorem deliverWebhook_of_absent (h : x.subscriptionActive = true)
    (hid : (givenEventId eventId).getD x.freshId = id) (habsent : db.events id = none) :
    deliverWebhook hash eventId retries x db =
      attemptDelivery hash retries x id (db.setEvent id ⟨.processing, none, x.now⟩) := by
  subst hid
  simp only [deliverWebhook, h, if_true, habsent]

variable (hash retries) in
theorem deliverWebhook_of_succeeds (h : x.subscriptionActive = true)
    (hid : (givenEventId eventId).getD x.freshId = id) (habsent : db.events id = none)
    (hsucceeds : x.outcome.Succeeds) :
    (deliverWebhook hash eventId retries x db).1 = ⟨.delivered, true⟩ := by
  rw [deliverWebhook_of_absent hash retries h hid habsent]
  exact attemptDelivery_of_succeeds hash retries _ id hsucceeds

variable (hash retries) in
/-- A failed attempt leaves a row of the event that is not processed. -/
theorem deliverWebhook_of_not_succeeds (h : x.subscriptionActive = true)
    (hid : (givenEventId eventId).getD x.freshId = id) (habsent : db.events id = none)
    (hfails : ¬x.outcome.Succeeds) :
    ∃ message attempted row db', (attempted = true ↔ x.outcome.Sends) ∧
      row.status ≠ .processed ∧ db'.events = Function.update db.events id (some row) ∧
      deliverWebhook hash eventId retries x db =
        (⟨retryOrRaise hash retries message, attempted⟩, db') := by
  rw [deliverWebhook_of_absent hash retries h hid habsent]
  generalize hopened : db.setEvent id ⟨.processing, none, x.now⟩ = opened
  obtain ⟨message, attempted, hsends, hreport⟩ :=
    attemptDelivery_of_not_succeeds hash retries opened id hfails
  obtain ⟨row, hevents, hprocessed, -⟩ := attemptDelivery_event hash retries x opened id
  have hunprocessed : row.status ≠ .processed := mt hprocessed.mp hfails
  have hupdate : Function.update opened.events id (some row) =
      Function.update db.events id (some row) := by
    rw [← hopened]
    exact Function.update_idem _ _ _
  exact ⟨message, attempted, row, _, hsends, hunprocessed, hevents.trans hupdate,
    Prod.ext hreport rfl⟩

variable (hash retries) in
/-- An event that is there is not attempted again. -/
theorem deliverWebhook_of_present (h : x.subscriptionActive = true)
    (hid : (givenEventId eventId).getD x.freshId = id) {row : ProcessedEventRow}
    (hrow : db.events id = some row) :
    ∃ ending, (ending.Processed ↔ row.status = .processed) ∧ (∀ c, ending ≠ .retry c) ∧
      deliverWebhook hash eventId retries x db = (⟨ending, false⟩, db) := by
  subst hid
  simp only [deliverWebhook, h, if_true, hrow]
  cases row.status with
  | processing => exact ⟨.inProgress, by simp [ExecutionEnd.Processed], by simp, rfl⟩
  | processed => exact ⟨.deduplicated, by simp [ExecutionEnd.Processed], by simp, rfl⟩
  | failed =>
      dsimp only
      split_ifs
      · exact ⟨.backoff, by simp [ExecutionEnd.Processed], by simp, rfl⟩
      · exact ⟨.integrityError, by simp [ExecutionEnd.Processed], by simp, rfl⟩

/-! ## Chains -/

variable {remaining : ℕ} {executions : ℕ → WebhookExecution}

theorem webhookChain_of_ends {answer : ExecutionReport × WebhookTables}
    (hanswer : deliverWebhook hash eventId retries (executions 0) db = answer)
    (h : ∀ c, answer.1.ending ≠ .retry c) :
    webhookChain hash eventId remaining retries executions db = ([answer.1], answer.2) := by
  unfold webhookChain
  rw [hanswer]
  dsimp only
  split
  · next c _ hending => exact absurd hending (h c)
  · rfl

theorem webhookChain_of_retry {answer : ExecutionReport × WebhookTables}
    (hanswer : deliverWebhook hash eventId retries (executions 0) db = answer) {c : ℤ}
    (h : answer.1.ending = .retry c) :
    (webhookChain hash eventId (remaining + 1) retries executions db).1 =
      answer.1 :: (webhookChain hash eventId remaining (retries + 1)
        (fun k => executions (k + 1)) answer.2).1 := by
  obtain ⟨⟨ending, attempted⟩, db'⟩ := answer
  obtain rfl : ending = .retry c := h
  conv_lhs => unfold webhookChain
  rw [hanswer]

theorem lastProcessed_singleton {report : ExecutionReport} :
    LastProcessed [report] ↔ report.ending.Processed := by
  simp [LastProcessed]

theorem webhookChain_ne_nil :
    (webhookChain hash eventId remaining retries executions db).1 ≠ [] := by
  unfold webhookChain
  dsimp only
  split
  · simp
  · simp

theorem lastProcessed_cons (report : ExecutionReport) {reports : List ExecutionReport}
    (h : reports ≠ []) : LastProcessed (report :: reports) ↔ LastProcessed reports := by
  unfold LastProcessed
  rw [List.getLast?_cons_of_ne_nil h]

/-! ## Chains without an event id -/

/-- What the executions make of a chain in which every event id is new. -/
structure FreshChain (remaining : ℕ) (executions : ℕ → WebhookExecution)
    (reports : List ExecutionReport) : Prop where
  attempts_le : attemptsOf reports ≤ remaining + 1
  processed_iff : LastProcessed reports ↔ ∃ k < remaining + 1,
    (executions k).outcome.Succeeds ∧ ∀ j < k + 1, (executions j).subscriptionActive = true
  sends_of_attempts : attemptsOf reports = remaining + 1 → ∀ k < remaining + 1,
    (executions k).subscriptionActive = true ∧ (executions k).outcome.Sends
  ends_of_sends : (∀ k < remaining + 1,
    (executions k).subscriptionActive = true ∧ (executions k).outcome.Sends) →
      LastProcessed reports ∨ attemptsOf reports = remaining + 1
  counts_of_ends : LastProcessed reports ∨ attemptsOf reports = remaining + 1 →
    ∀ report ∈ reports, report.Counts

namespace FreshChain

theorem skipped (h : (executions 0).subscriptionActive = false) :
    FreshChain remaining executions [⟨.skipped, false⟩] where
  attempts_le := by simp [attemptsOf]
  processed_iff := by
    rw [lastProcessed_singleton]
    apply iff_of_false
    · simp [ExecutionEnd.Processed]
    · rintro ⟨k, -, -, hactive⟩
      exact absurd (hactive 0 (Nat.succ_pos k)) (by simp [h])
  sends_of_attempts hattempts := by simp [attemptsOf] at hattempts
  ends_of_sends hsends := absurd (hsends 0 (Nat.succ_pos _)).1 (by simp [h])
  counts_of_ends hends := by
    rw [lastProcessed_singleton] at hends
    simp [ExecutionEnd.Processed, attemptsOf] at hends

theorem delivered (h : (executions 0).subscriptionActive = true)
    (hsucceeds : (executions 0).outcome.Succeeds) :
    FreshChain remaining executions [⟨.delivered, true⟩] where
  attempts_le := by simp [attemptsOf]
  processed_iff := by
    rw [lastProcessed_singleton]
    refine iff_of_true (.inl rfl) ⟨0, Nat.succ_pos _, hsucceeds, ?_⟩
    intro j hj
    obtain rfl : j = 0 := by omega
    exact h
  sends_of_attempts hattempts := by
    obtain rfl : remaining = 0 := by simpa [attemptsOf] using hattempts.symm
    intro k hk
    obtain rfl : k = 0 := by omega
    refine ⟨h, ?_⟩
    cases houtcome : (executions 0).outcome <;> simp_all [PostOutcome.Succeeds, PostOutcome.Sends]
  ends_of_sends _ := .inl (lastProcessed_singleton.mpr (.inl rfl))
  counts_of_ends _ := by
    intro report hreport
    rw [List.mem_singleton.mp hreport]
    exact .inl rfl

theorem exhausted (h : (executions 0).subscriptionActive = true)
    (hfails : ¬(executions 0).outcome.Succeeds) {attempted : Bool}
    (hsends : attempted = true ↔ (executions 0).outcome.Sends) (message : String) :
    FreshChain 0 executions [⟨.raised message, attempted⟩] where
  attempts_le := by
    cases attempted <;> simp [attemptsOf]
  processed_iff := by
    rw [lastProcessed_singleton]
    apply iff_of_false
    · simp [ExecutionEnd.Processed]
    · rintro ⟨k, hk, hsucceeds, -⟩
      obtain rfl : k = 0 := by omega
      exact hfails hsucceeds
  sends_of_attempts hattempts := by
    intro k hk
    obtain rfl : k = 0 := by omega
    refine ⟨h, hsends.mp ?_⟩
    cases attempted with
    | true => rfl
    | false => simp [attemptsOf] at hattempts
  ends_of_sends hall := by
    right
    rw [hsends.mpr (hall 0 Nat.one_pos).2]
    rfl
  counts_of_ends _ := by
    intro report hreport
    rw [List.mem_singleton.mp hreport]
    exact .inr (.inr (.inr ⟨message, rfl⟩))

theorem retried (h : (executions 0).subscriptionActive = true)
    (hfails : ¬(executions 0).outcome.Succeeds) {attempted : Bool}
    (hsends : attempted = true ↔ (executions 0).outcome.Sends) (c : ℤ)
    {reports : List ExecutionReport} (hne : reports ≠ [])
    (hrest : FreshChain remaining (fun k => executions (k + 1)) reports) :
    FreshChain (remaining + 1) executions (⟨.retry c, attempted⟩ :: reports) := by
  have hattempts : attemptsOf (⟨.retry c, attempted⟩ :: reports) =
      attemptsOf reports + if attempted then 1 else 0 := by
    cases attempted <;> simp [attemptsOf]
  have hprocessed := lastProcessed_cons ⟨.retry c, attempted⟩ hne
  have hle := hrest.attempts_le
  have hsplit : attemptsOf (⟨.retry c, attempted⟩ :: reports) = remaining + 1 + 1 ↔
      attempted = true ∧ attemptsOf reports = remaining + 1 := by
    rw [hattempts]
    cases attempted with
    | true => simp
    | false => simp; omega
  constructor
  · rw [hattempts]
    split_ifs <;> omega
  · rw [hprocessed, hrest.processed_iff]
    constructor
    · rintro ⟨k, hk, hsucceeds, hactive⟩
      refine ⟨k + 1, by omega, hsucceeds, ?_⟩
      rw [Nat.forall_lt_succ_left]
      exact ⟨h, hactive⟩
    · rintro ⟨k, hk, hsucceeds, hactive⟩
      cases k with
      | zero => exact absurd hsucceeds hfails
      | succ k => exact ⟨k, by omega, hsucceeds, fun j hj => hactive (j + 1) (by omega)⟩
  · rw [hsplit]
    rintro ⟨hattempted, hrestAttempts⟩
    rw [Nat.forall_lt_succ_left]
    exact ⟨⟨h, hsends.mp hattempted⟩, hrest.sends_of_attempts hrestAttempts⟩
  · intro hall
    rw [Nat.forall_lt_succ_left] at hall
    rw [hprocessed, hsplit]
    exact (hrest.ends_of_sends hall.2).imp id fun hrestAttempts =>
      ⟨hsends.mpr hall.1.2, hrestAttempts⟩
  · intro hends report hreport
    rw [hprocessed, hsplit] at hends
    obtain rfl | hreport := List.mem_cons.mp hreport
    · exact .inr (.inr (.inl ⟨c, rfl⟩))
    · exact hrest.counts_of_ends (hends.imp id And.right) report hreport

end FreshChain

/-- The ids that the executions draw are new and distinct. -/
def FreshIds (remaining : ℕ) (executions : ℕ → WebhookExecution) (db : WebhookTables) : Prop :=
  (∀ k < remaining + 1, db.events (executions k).freshId = none) ∧
    ∀ i < remaining + 1, ∀ j < remaining + 1,
      (executions i).freshId = (executions j).freshId → i = j

theorem FreshIds.tail (h : FreshIds (remaining + 1) executions db) {db' : WebhookTables}
    (hdb : ∀ id, id ≠ (executions 0).freshId → db'.events id = db.events id) :
    FreshIds remaining (fun k => executions (k + 1)) db' := by
  constructor
  · intro k hk
    rw [hdb]
    · exact h.1 (k + 1) (by omega)
    · intro heq
      have hindex := h.2 (k + 1) (by omega) 0 (by omega) heq
      omega
  · intro i hi j hj heq
    have hindex := h.2 (i + 1) (by omega) (j + 1) (by omega) heq
    omega

/-- A chain whose first execution is skipped or succeeds; what follows a failure is assumed. -/
theorem webhookChain_fresh_of_failed (heventId : givenEventId eventId = none)
    (habsent : db.events (executions 0).freshId = none)
    (hfailed : (executions 0).subscriptionActive = true → ¬(executions 0).outcome.Succeeds →
      ∀ message attempted db', (attempted = true ↔ (executions 0).outcome.Sends) →
        deliverWebhook hash eventId retries (executions 0) db =
          (⟨retryOrRaise hash retries message, attempted⟩, db') →
        (∀ id, id ≠ (executions 0).freshId → db'.events id = db.events id) →
        FreshChain remaining executions
          (webhookChain hash eventId remaining retries executions db).1) :
    FreshChain remaining executions
      (webhookChain hash eventId remaining retries executions db).1 := by
  cases hactive : (executions 0).subscriptionActive with
  | false =>
      rw [webhookChain_of_ends (deliverWebhook_of_inactive hactive) (by simp)]
      exact .skipped hactive
  | true =>
      have hid : (givenEventId eventId).getD (executions 0).freshId = (executions 0).freshId := by
        rw [heventId, Option.getD_none]
      by_cases hsucceeds : (executions 0).outcome.Succeeds
      · have hreport := deliverWebhook_of_succeeds hash retries hactive hid habsent hsucceeds
        rw [webhookChain_of_ends rfl (by simp [hreport]), hreport]
        exact .delivered hactive hsucceeds
      · obtain ⟨message, attempted, row, db', hsends, -, hevents, hanswer⟩ :=
          deliverWebhook_of_not_succeeds hash retries hactive hid habsent hsucceeds
        apply hfailed hactive hsucceeds message attempted db' hsends hanswer
        intro id hne
        rw [hevents, Function.update_of_ne hne]

variable (hash retries) in
theorem webhookChain_fresh (heventId : givenEventId eventId = none)
    (hsum : remaining + retries = webhookMaxRetries) (hfresh : FreshIds remaining executions db) :
    FreshChain remaining executions
      (webhookChain hash eventId remaining retries executions db).1 := by
  induction remaining generalizing retries executions db with
  | zero =>
      apply webhookChain_fresh_of_failed heventId (hfresh.1 0 Nat.one_pos)
      intro hactive hfails message attempted db' hsends hanswer _
      have hraised : retryOrRaise hash retries message = .raised message := if_pos (by omega)
      rw [hraised] at hanswer
      rw [webhookChain_of_ends hanswer (by simp)]
      exact .exhausted hactive hfails hsends message
  | succ remaining ih =>
      apply webhookChain_fresh_of_failed heventId (hfresh.1 0 (Nat.succ_pos _))
      intro hactive hfails message attempted db' hsends hanswer hdb
      have hretry : retryOrRaise hash retries message =
          .retry (exponentialBackoff hash retries) := if_neg (by omega)
      rw [hretry] at hanswer
      rw [webhookChain_of_retry hanswer rfl]
      exact .retried hactive hfails hsends _ webhookChain_ne_nil
        (ih _ (by omega) (hfresh.tail hdb))

/-! ## Chains with an event id -/

theorem attemptsOf_singleton_le (report : ExecutionReport) : attemptsOf [report] ≤ 1 :=
  List.length_filter_le _ _

variable (hash retries remaining executions) in
/-- A second execution finds the event of the first one and is the last. -/
theorem webhookChain_of_present {id : String} (heventId : givenEventId eventId = some id)
    {row : ProcessedEventRow} (hrow : db.events id = some row)
    (hunprocessed : row.status ≠ .processed) :
    ∃ report, (webhookChain hash eventId remaining retries executions db).1 = [report] ∧
      ¬report.ending.Processed ∧ report.attempted = false := by
  cases hactive : (executions 0).subscriptionActive with
  | false =>
      rw [webhookChain_of_ends (deliverWebhook_of_inactive hactive) (by simp)]
      exact ⟨_, rfl, by simp [ExecutionEnd.Processed], rfl⟩
  | true =>
      have hid : (givenEventId eventId).getD (executions 0).freshId = id := by
        rw [heventId, Option.getD_some]
      obtain ⟨ending, hprocessed, hends, hanswer⟩ :=
        deliverWebhook_of_present hash retries hactive hid hrow
      rw [webhookChain_of_ends hanswer hends]
      exact ⟨_, rfl, fun h => hunprocessed (hprocessed.mp h), rfl⟩

theorem not_completes_of_few {reports : List ExecutionReport} (hlast : ¬LastProcessed reports)
    (hfew : attemptsOf reports ≤ 1) : ¬Completes reports := by
  intro h
  obtain hprocessed | hattempts := h.ends
  · exact hlast hprocessed
  · rw [hattempts] at hfew
    exact absurd hfew (by decide)

theorem completes_singleton {report : ExecutionReport} (h : report.ending.Processed) :
    Completes [report] where
  ends := .inl (lastProcessed_singleton.mpr h)
  counts := by
    intro r hr
    rw [List.mem_singleton.mp hr]
    exact .inr (.inl h)

theorem webhookChain_given_iff {id : String} (heventId : givenEventId eventId = some id) :
    Completes (webhookChain hash eventId webhookMaxRetries 0 executions db).1 ↔
      (executions 0).subscriptionActive = true ∧
        ((db.events id).map ProcessedEventRow.status = some .processed ∨
          db.events id = none ∧ (executions 0).outcome.Succeeds) := by
  cases hactive : (executions 0).subscriptionActive with
  | false =>
      rw [webhookChain_of_ends (deliverWebhook_of_inactive hactive) (by simp)]
      apply iff_of_false
      · apply not_completes_of_few
        · simp [lastProcessed_singleton, ExecutionEnd.Processed]
        · exact attemptsOf_singleton_le _
      · simp
  | true =>
      have hid : (givenEventId eventId).getD (executions 0).freshId = id := by
        rw [heventId, Option.getD_some]
      cases hrow : db.events id with
      | some row =>
          obtain ⟨ending, hprocessed, hends, hanswer⟩ :=
            deliverWebhook_of_present hash 0 hactive hid hrow
          rw [webhookChain_of_ends hanswer hends]
          by_cases hstatus : row.status = .processed
          · exact iff_of_true (completes_singleton (hprocessed.mpr hstatus)) (by simp [hstatus])
          · apply iff_of_false
            · apply not_completes_of_few
              · rw [lastProcessed_singleton]
                exact mt hprocessed.mp hstatus
              · exact attemptsOf_singleton_le _
            · simp [hstatus]
      | none =>
          by_cases hsucceeds : (executions 0).outcome.Succeeds
          · have hreport := deliverWebhook_of_succeeds hash 0 hactive hid hrow hsucceeds
            rw [webhookChain_of_ends rfl (by simp [hreport]), hreport]
            exact iff_of_true (completes_singleton (.inl rfl)) (by simp [hsucceeds])
          · obtain ⟨message, attempted, row, db', -, hfailed, hevents, hanswer⟩ :=
              deliverWebhook_of_not_succeeds hash 0 hactive hid hrow hsucceeds
            have hretry : retryOrRaise hash 0 message = .retry (exponentialBackoff hash 0) :=
              if_neg (by decide)
            rw [hretry] at hanswer
            -- the retry finds the event of the first attempt
            obtain ⟨report, hrest, hunprocessed, hunattempted⟩ :=
              webhookChain_of_present hash 1 6 (fun k => executions (k + 1)) heventId
                (by rw [hevents, Function.update_self]) hfailed
            rw [webhookMaxRetries, webhookChain_of_retry hanswer rfl, hrest]
            apply iff_of_false
            · apply not_completes_of_few
              · rw [lastProcessed_cons _ (by simp), lastProcessed_singleton]
                exact hunprocessed
              · have hle := attemptsOf_singleton_le
                  ⟨.retry (exponentialBackoff hash 0), attempted⟩
                unfold attemptsOf at hle ⊢
                rw [List.filter_cons] at hle ⊢
                split_ifs at hle ⊢
                · simp [hunattempted]
                · simp [hunattempted]
            · simp [hsucceeds]

/-- With the id of an event a delivery completes exactly if the event is processed or its first
attempt succeeds. Without one it completes exactly if an execution succeeds while the
subscription is active, or all of them send their request. -/
theorem webhookChain_completes_iff (hash : String → ℤ) (eventId : Option String)
    (executions : ℕ → WebhookExecution) (db : WebhookTables)
    (hfresh : FreshIds webhookMaxRetries executions db) :
    Completes (webhookChain hash eventId webhookMaxRetries 0 executions db).1 ↔
      match givenEventId eventId with
      | some id =>
          (executions 0).subscriptionActive = true ∧
            ((db.events id).map ProcessedEventRow.status = some .processed ∨
              db.events id = none ∧ (executions 0).outcome.Succeeds)
      | none =>
          (∃ k < webhookMaxRetries + 1, (executions k).outcome.Succeeds ∧
            ∀ j < k + 1, (executions j).subscriptionActive = true) ∨
          ∀ k < webhookMaxRetries + 1,
            (executions k).subscriptionActive = true ∧ (executions k).outcome.Sends := by
  cases heventId : givenEventId eventId with
  | some id => exact webhookChain_given_iff heventId
  | none =>
      have hchain := webhookChain_fresh hash 0 heventId
        (Nat.add_zero webhookMaxRetries) hfresh
      dsimp only
      rw [← hchain.processed_iff]
      constructor
      · intro h
        exact h.ends.imp id hchain.sends_of_attempts
      · intro h
        have hends := h.elim .inl hchain.ends_of_sends
        exact ⟨hends, hchain.counts_of_ends hends⟩

/-- The response is 500 every time; the executions are ten seconds apart. -/
def failingExecutions (k : ℕ) : WebhookExecution :=
  { now := 10 * k, freshId := "evt_" ++ toString k, outcome := .response 500 none }

/-- An event with an id is attempted once: its retry comes before the delay is over. -/
theorem webhookChain_abandons :
    (webhookChain (fun _ => 0) (some "evt_1") webhookMaxRetries 0 failingExecutions {}).1 =
        [⟨.retry 10, true⟩, ⟨.backoff, false⟩] ∧
      ¬Completes
        (webhookChain (fun _ => 0) (some "evt_1") webhookMaxRetries 0 failingExecutions {}).1 := by
  have hreports :
      (webhookChain (fun _ => 0) (some "evt_1") webhookMaxRetries 0 failingExecutions {}).1 =
        [⟨.retry 10, true⟩, ⟨.backoff, false⟩] := by decide +kernel
  refine ⟨hreports, ?_⟩
  rw [hreports]
  apply not_completes_of_few
  · simp [LastProcessed, ExecutionEnd.Processed]
  · decide

/-- Without an id the same responses make eight attempts. -/
theorem webhookChain_completes_iff_failing :
    attemptsOf (webhookChain (fun _ => 0) none webhookMaxRetries 0 failingExecutions {}).1 = 8 ∧
      Completes (webhookChain (fun _ => 0) none webhookMaxRetries 0 failingExecutions {}).1 := by
  have hfresh : FreshIds webhookMaxRetries failingExecutions {} :=
    ⟨fun _ _ => rfl, by decide +kernel⟩
  have hiff := webhookChain_completes_iff (fun _ => 0) none failingExecutions {} hfresh
  exact ⟨by decide +kernel, hiff.mpr (.inr fun _ _ => ⟨rfl, trivial⟩)⟩

end Zyntry
