import Zyntry.EndpointBilling
import Zyntry.InvokePricing

/-!
# The invoke endpoint

The pipeline reserves an estimate, calls the model, and settles what the answer
costs. Only the first model call and the settlement stand in `try` blocks that
release the reservation; each other stage simply raises.
-/

namespace Zyntry

open SqlProgram

/-- What `invoke` does besides its database calls. -/
inductive InvokeStage where
  /-- From the API key to the runtime status. -/
  | authorisation
  /-- From the settings to the provider keys. -/
  | validation
  | runtimeBudget
  /-- Tools, connected sources and the assembly of the context. -/
  | retrieval
  | providerCall
  | toolLoop
  | actions
  | guardrails
  | usage
  | published
  | event
  | response
deriving DecidableEq, Repr

/-- A call of the endpoint: the caller, the request, what the providers answer, and
what goes wrong on the way. -/
structure InvokeCall where
  ctx : CallContext
  userId : Uuid
  scope : ScopeIds := {}
  requestId : String
  idempotencyKey : Option String := none
  provider : String
  model : String
  preflightInputTokens : ℕ
  requestedOutputTokens : ℕ
  invocation : Invocation
  raises : InvokeStage → Option Error := fun _ => none
  faults : BillingCall → Fault := fun _ => none

structure InvokeResponse where
  requestId : String
  provider : Provider
  model : ModelName
  estimatedCost : Decimal
  actualCost : Decimal
  remainingBalance : Decimal
  tokensUsed : ℕ
deriving DecidableEq

def insufficientCreditsDetail : Error := .httpException 402 "Insufficient credits"

namespace InvokeCall

/-- `body.idempotency_key or request_id`. -/
def billingIdempotencyKey (c : InvokeCall) : String := (truthy c.idempotencyKey).getD c.requestId

/-- The worst case that is reserved before a provider is contacted. -/
def estimatedCost (c : InvokeCall) (d : Db) : ℤ :=
  (d.calculate c.provider (some c.model)
    { inputTokens := c.preflightInputTokens
      outputTokens := c.requestedOutputTokens
      requests := 1 } c.ctx.now).amount

def reserveRequest (c : InvokeCall) (amount : Decimal) : ReserveRequest where
  userId := c.userId
  amount := amount
  requestId := c.requestId
  idempotencyKey := c.billingIdempotencyKey
  scope := c.scope
  resourceType := "ai_inference"

def reserve (c : InvokeCall) (amount : Decimal) : Sql Reservation :=
  attempt (c.faults .reserve) (Zyntry.reserve {} c.ctx (c.reserveRequest amount))

/-- `except InsufficientBalanceError: raise HTTPException(402)`. -/
def onInsufficientBalance {α : Type} (e : Error) : Sql α :=
  match e with
  | .insufficientBalance _ _ => .raise insufficientCreditsDetail
  | _ => .raise e

/-- From the wallet to the reservation of the estimate, if that is not zero. -/
def reserveEstimate (c : InvokeCall) (wallet : Wallet) : Sql (ℤ × Option Reservation) :=
  if wallet.status ≠ .active then .raise insufficientCreditsDetail
  else do
    stage (c.raises .validation)
    let estimated ← attempt (c.faults .estimate) (query .select c.estimatedCost)
    stage (c.raises .runtimeBudget)
    if 0 < estimated then
      if wallet.balance < estimated then .raise insufficientCreditsDetail
      else do
        let allowed ← attempt (c.faults .checkBudget) (checkBudget c.userId estimated)
        if allowed then do
          let r ← (c.reserve (toDecimal estimated)).catching onInsufficientBalance
          pure (estimated, some r)
        else .raise (.httpException 402 "Budget limit reached")
    else pure (estimated, none)

def preflight (c : InvokeCall) : Sql (ℤ × Option Reservation) := do
  stage (c.raises .authorisation)
  let wallet ← attempt (c.faults .getWallet) (getWallet {} c.ctx c.userId)
  c.reserveEstimate wallet

def releaseAndRaise {α : Type} (c : InvokeCall) (reservation : Option Reservation)
    (cause raised : Error) : Sql α :=
  match reservation with
  | some r => Zyntry.releaseAndRaise (c.faults .release) c.ctx r cause raised
  | none => .raise raised

/-- From the reservation to the answer. -/
def respond (c : InvokeCall) (reservation : Option Reservation) : Sql Answer := do
  stage (c.raises .retrieval)
  (stage (c.raises .providerCall)).catching
    (onException fun e => c.releaseAndRaise reservation e e)
  match c.invocation.answer with
  | none =>
      let failed := .httpException 502 "All configured providers failed"
      -- no exception has been raised, so the session is sound
      c.releaseAndRaise reservation failed failed
  | some a => do
      stage (c.raises .toolLoop)
      stage (c.raises .actions)
      stage (c.raises .guardrails)
      stage (c.raises .usage)
      pure a

def usageLog (c : InvokeCall) (a : Answer) (usage : CompletionUsage) (charge : Charge) :
    UsageLog where
  userId := c.userId
  scope := c.scope
  requestId := some c.requestId
  provider := a.provider.value
  model := a.model.value
  operation := "invoke"
  inputTokens := usage.inputTokens
  outputTokens := usage.outputTokens
  cachedTokens := usage.cachedTokens
  cost := numeric charge.actualCost
  providerCost := numeric charge.providerCost
  platformMarkup := numeric charge.markup
  createdAt := c.ctx.now

/-- The `except` clauses of the settlement. -/
def settlementFailed {α : Type} (c : InvokeCall) (reservation : Option Reservation) (e : Error) :
    Sql α :=
  match e with
  | .insufficientCredits _ _ => c.releaseAndRaise reservation e insufficientCreditsDetail
  | .insufficientBalance _ _ => c.releaseAndRaise reservation e insufficientCreditsDetail
  | _ => onException (fun e => c.releaseAndRaise reservation e e) e

/-- The reservation of the actual cost, if nothing was reserved before the call. -/
def reserveActual (c : InvokeCall) (reservation : Option Reservation) (actualCost : Decimal) :
    Sql (Option Reservation) :=
  match reservation with
  | some r => pure (some r)
  | none =>
      if 0 < actualCost then do
        let r ← c.reserve actualCost
        pure (some r)
      else pure none

def settleActual (c : InvokeCall) (reservation : Option Reservation) (charge : Charge) :
    Sql Unit :=
  match reservation with
  | some r =>
      (attempt (c.faults .settle) (settle {} c.ctx r.id
        { actualAmount := charge.actualCost
          providerCost := charge.providerCost
          transactionType := .aiInference })).ignore
  | none => pure ()

/-- The `try` block of the settlement. Its handlers see the reservation that is
bound when the exception is raised, so the block is split where it is bound. -/
def settlement (c : InvokeCall) (reservation : Option Reservation) (charge : Charge)
    (log : UsageLog) : Sql Unit := do
  let reservation ← (c.reserveActual reservation charge.actualCost).catching (c.settlementFailed none)
  (do c.settleActual reservation charge
      (attempt (c.faults .recordUsage) (recordUsage (c.raises .published) log)).ignore
      : Sql Unit).catching (c.settlementFailed reservation)

/-- The trace event, whose failure is swallowed, and the response. -/
def complete (c : InvokeCall) : Sql Wallet := do
  stage (c.raises .event)
  (attempt (c.faults .commitEvent) (write (.commit .event) id)).catching
    (onException fun _ => attempt (c.faults .rollback) (write (.commit .rollback) id))
  let wallet ← attempt (c.faults .remainingBalance) (getWallet {} c.ctx c.userId)
  stage (c.raises .response)
  pure wallet

end InvokeCall

/-- `invoke`. A streamed request runs it in a task that is cancelled when the
client disconnects. -/
def invoke (c : InvokeCall) : Sql InvokeResponse := do
  let (estimated, reservation) ← c.preflight
  let a ← c.respond reservation
  let usage := a.usage c.invocation.estimated
  let charge ← attempt (c.faults .pricing) (query .select (fun d => a.charge usage d c.ctx.now))
  c.settlement reservation charge (c.usageLog a usage charge)
  let wallet ← c.complete
  pure
    { requestId := c.requestId
      provider := a.provider
      model := a.model
      estimatedCost := toDecimal estimated
      actualCost := charge.actualCost
      remainingBalance := toDecimal wallet.balance
      tokensUsed := usage.inputTokens + usage.outputTokens }

end Zyntry
