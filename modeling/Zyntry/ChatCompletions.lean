import Zyntry.ChatPricing
import Zyntry.EndpointBilling

/-!
# The chat completions endpoint

The endpoint reserves an estimate, queries the pipeline and settles what the answer costs. A
whole answer is queried in a `try` block that releases the reservation, and priced, settled and
recorded after it. A streamed answer does all of this in the block, in a generator that the
server runs when the response has begun.
-/

namespace Zyntry

open SqlProgram

/-- What `chat_completions` does besides its database calls. -/
inductive ChatStage where
  /-- From the project to the model. -/
  | authorisation
  | runtimeBudget
  /-- Between the reservation and the first step of the generator of a stream. -/
  | streamStart
  /-- The query and, in a stream, the events up to the last token. -/
  | pipeline
  /-- Guardrails, redaction and usage. -/
  | answer
  | published
  | event
  | requestLog
  /-- The response, or the last event of a stream. -/
  | response
deriving DecidableEq, Repr

/-- A call of the endpoint: the caller, the completion, what `str` makes of an exception, and
what goes wrong on the way. -/
structure ChatCall where
  ctx : CallContext
  userId : Uuid
  scope : ScopeIds := {}
  requestId : String
  completion : ChatCompletion
  str : Error → String := fun _ => ""
  raises : ChatStage → Option Error := fun _ => none
  faults : BillingCall → Fault := fun _ => none

/-- What a response, or the last event of a stream, tells of the completion. -/
structure ChatAnswer where
  content : String
  usage : CompletionUsage
  cost : Decimal
deriving DecidableEq

namespace ChatCall

variable (c : ChatCall)

def estimatedCost (d : Db) : ℤ := c.completion.reservation.cost d c.ctx.now

def actualCost (d : Db) : ℤ := c.completion.settlement.cost d c.ctx.now

def reserveRequest (estimated : ℤ) : ReserveRequest where
  userId := c.userId
  amount := toDecimal estimated
  requestId := c.requestId
  idempotencyKey := "chat:" ++ c.requestId
  scope := c.scope
  resourceType := "rag_chat"

def settleRequest (actual : ℤ) : SettleRequest where
  actualAmount := toDecimal actual
  transactionType := .rag

def usageLog (actual : ℤ) : UsageLog where
  userId := c.userId
  scope := c.scope
  requestId := some c.requestId
  provider := c.completion.settlement.provider
  model := c.completion.settlement.model
  operation := "chat"
  inputTokens := c.completion.usage.inputTokens
  outputTokens := c.completion.usage.outputTokens
  cost := actual
  createdAt := c.ctx.now

/-- From the project to the estimate that is reserved. -/
def checks : Sql ℤ := do
  stage (c.raises .authorisation)
  let estimated ← attempt (c.faults .estimate) (query .select c.estimatedCost)
  stage (c.raises .runtimeBudget)
  let wallet ← attempt (c.faults .getWallet) (getWallet {} c.ctx c.userId)
  if wallet.status ≠ .active ∨ wallet.balance < estimated then
    .raise (.httpException 402 "Insufficient Credits")
  else do
    let allowed ← attempt (c.faults .checkBudget) (checkBudget c.userId estimated)
    if allowed then pure estimated
    else .raise (.httpException 402 "Budget limit reached")

/-- The reservation, where `except Exception` answers every error with a 402. -/
def reserve (estimated : ℤ) : Sql Reservation :=
  (attempt (c.faults .reserve) (Zyntry.reserve {} c.ctx (c.reserveRequest estimated))).catching
    fun e => .raise (if e.isException then .httpException 402 (c.str e) else e)

/-- From the usage of the answer to its record. -/
def settleAnswer (r : Reservation) : Sql ℤ := do
  let actual ← attempt (c.faults .pricing) (query .select c.actualCost)
  let _ ← attempt (c.faults .settle) (settle {} c.ctx r.id (settleRequest actual))
  let _ ← attempt (c.faults .recordUsage) (recordUsage (c.raises .published) (c.usageLog actual))
  pure actual

def chatAnswer (actual : ℤ) : ChatAnswer where
  content := c.completion.answerText
  usage := c.completion.usage
  cost := toDecimal actual

/-- `except Exception: release; raise`. -/
def onFailure {α : Type} (r : Reservation) (e : Error) : Sql α :=
  onException (fun e => releaseAndRaise (c.faults .release) c.ctx r e e) e

/-- `sse_generator`. -/
def stream (r : Reservation) : Sql ChatAnswer := do
  stage (c.raises .streamStart)
  (do stage (c.raises .pipeline)
      stage (c.raises .answer)
      let actual ← c.settleAnswer r
      stage (c.raises .event)
      attempt (c.faults .commitEvent) (write (.commit .event) id)
      stage (c.raises .response)
      pure (c.chatAnswer actual) : Sql ChatAnswer).catching (c.onFailure r)

/-- The answer in one piece. The failure of the request log is swallowed. -/
def answer (r : Reservation) : Sql ChatAnswer := do
  (stage (c.raises .pipeline)).catching (c.onFailure r)
  stage (c.raises .answer)
  let actual ← c.settleAnswer r
  stage (c.raises .event)
  (do stage (c.raises .requestLog)
      attempt (c.faults .commitEvent) (write (.commit .event) id) : Sql Unit).catching
    (onException fun _ => pure ())
  stage (c.raises .response)
  pure (c.chatAnswer actual)

end ChatCall

/-- `chat_completions`, to the end of its response. -/
def chatCompletions (c : ChatCall) : Sql ChatAnswer := do
  let estimated ← c.checks
  let r ← c.reserve estimated
  if c.completion.request.stream then c.stream r else c.answer r

end Zyntry
