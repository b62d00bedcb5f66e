import Zyntry.MeteredBilling

/-!
# Credits, deductions and refunds

The wallet operations outside the metered engine. `get_wallet` reads the wallet
without a lock, and since the caller keeps that object, the locking read that
follows returns it with the values it was loaded with.
-/

namespace Zyntry

open SqlProgram

/-- `if reference_id:` is false of the empty string as well. -/
def truthy (reference : Option String) : Option String := reference.filter (fun s => s ≠ "")

/-- The wallet that `get_wallet` creates on the first use. -/
def firstWallet (ctx : CallContext) (userId : Uuid) : Wallet := { id := ctx.newWalletId, userId }

def conflictedWallet (userId : Uuid) : Sql Wallet := do
  write (.commit .rollback) id
  let conflicted ← query .select (fun d => d.walletByUser userId)
  match conflicted with
  | some w => pure w
  | none => .raise .integrityError

/-- `get_wallet`: read the wallet of a user, or create it and commit. -/
def getWallet (held : IdentityMap) (ctx : CallContext) (userId : Uuid) : Sql Wallet := do
  let existing ← query .select (fun d => (d.walletByUser userId).map held.wallet)
  match existing with
  | some w => pure w
  | none =>
      let created := firstWallet ctx userId
      (do insertUnique [.wallet created.id, .walletOf userId] (walletExists created.id userId)
          write (.commit (.newWallet created.id)) (fun d => d.addWallet created)
          pure created : Sql Wallet).catching (onIntegrityError (conflictedWallet userId))

/-- `get_by_reference`, whose `scalar_one_or_none` rejects two matching rows. -/
def getByReference (reference : String) : Sql (Option WalletTransaction) := do
  let rows ← query .select (fun d => d.transactionsByReference reference)
  match rows with
  | [] => pure none
  | [t] => pure (some t)
  | _ => .raise .multipleResultsFound

/-- `get_for_update` by a session that holds the wallet. -/
def getForUpdate (wallet : Wallet) : Sql Wallet := do
  let held : IdentityMap := { wallets := [wallet] }
  let locked ← locking (.lockWallet wallet.id held)
    (fun d => (d.wallets.get? wallet.id).toList.map (fun w => .wallet w.id))
    (fun d => (d.wallets.get? wallet.id).map held.wallet)
  match locked with
  | some w => pure w
  | none => .raise (.valueError "Wallet not found")

/-- The replay guard in front of `add_credit` and `deduct_credit`. -/
def existingTransaction (referenceId : Option String) : Sql (Option WalletTransaction) :=
  match truthy referenceId with
  | some reference => getByReference reference
  | none => pure none

def insertTransaction (t : WalletTransaction) : Sql Unit :=
  insertUnique [.transaction t.id] (fun d => (d.transactions.get? t.id).isSome)

/-- `update`: the UPDATE of a budget waits for the row. -/
def updateBudget (b : Budget) : Sql Unit :=
  locking .update (fun d => (d.budgets.get? b.userId).toList.map (fun b => .budget b.userId))
    (fun _ => ())

def ledgerReference (label : String) (referenceId : Option String) (t : WalletTransaction) :
    String :=
  label ++ ":" ++ (truthy referenceId).getD t.id.str

structure CreditRequest where
  userId : Uuid
  amount : ℤ
  reason : String
  referenceId : Option String := none

/-! ## Adding credit -/

def Wallet.afterCredit (w : Wallet) (amount : ℤ) : Wallet :=
  { w with balance := w.balance + amount, totalTopups := w.totalTopups + amount }

def creditTransaction (ctx : CallContext) (req : CreditRequest) (w : Wallet) :
    WalletTransaction where
  id := ctx.newId
  walletId := w.id
  type := .credit
  amount := req.amount
  balanceBefore := w.balance
  balanceAfter := w.balance + req.amount
  reason := req.reason
  referenceId := req.referenceId

def topupLedger (ctx : CallContext) (req : CreditRequest) (w : Wallet) (t : WalletTransaction) :
    BillingLedger where
  transactionType := .topup
  userId := some req.userId
  idempotencyKey := some (ledgerReference "topup" req.referenceId t)
  resourceType := "wallet_topup"
  resourceId := req.referenceId
  amount := req.amount
  currency := w.currency
  status := .settled
  createdAt := ctx.now

/-- The budget that a credit reopens. -/
def reopenedBudget (budget : Option Budget) (balanceAfter spend : ℤ) :
    Option (Budget × Budget) :=
  match budget with
  | some b =>
      if b.limitReached ∧ 0 < balanceAfter then
        some (b, { b with limitReached := false, currentSpend := spend })
      else none
  | none => none

def creditWrite (w : Wallet) (t : WalletTransaction) (budget : Option (Budget × Budget))
    (l : BillingLedger) (d : Db) : Db :=
  (flushBudgetOf budget ((d.addTransaction t).flushWallet w (w.afterCredit t.amount))).addLedger l

/-- `add_credit` from the wallet that `get_wallet` has returned. -/
def creditWallet (ctx : CallContext) (req : CreditRequest) (wallet : Wallet) :
    Sql WalletTransaction := do
  let existing ← existingTransaction req.referenceId
  match existing with
  | some t => pure t
  | none =>
      if wallet.status ≠ .active then .raise (.valueError ("Wallet is " ++ wallet.status.value))
      else do
        let locked ← getForUpdate wallet
        let t := creditTransaction ctx req locked
        insertTransaction t
        let budget ← query .select (fun d => d.budgets.get? req.userId)
        let reopened := reopenedBudget budget t.balanceAfter 0
        forEach reopened.toList (fun b => updateBudget b.1)
        let l := topupLedger ctx req locked t
        flushLedger l
        write (.commit (.credit locked.id req.amount)) (creditWrite locked t reopened l)
        pure t

/-- `BillingService.add_credit`. -/
def addCredit (ctx : CallContext) (req : CreditRequest) : Sql WalletTransaction :=
  if req.amount ≤ 0 then .raise (.valueError "Credit amount must be positive")
  else do
    let wallet ← getWallet {} ctx req.userId
    creditWallet ctx req wallet

/-! ## Deducting credit -/

def Wallet.afterDebit (w : Wallet) (amount : ℤ) : Wallet :=
  { w with balance := w.balance - amount, totalSpent := w.totalSpent + amount }

def debitTransaction (ctx : CallContext) (req : CreditRequest) (w : Wallet) :
    WalletTransaction where
  id := ctx.newId
  walletId := w.id
  type := .debit
  amount := req.amount
  balanceBefore := w.balance
  balanceAfter := w.balance - req.amount
  reason := req.reason
  referenceId := req.referenceId

def debitLedger (ctx : CallContext) (req : CreditRequest) (w : Wallet) (t : WalletTransaction) :
    BillingLedger where
  transactionType := .aiInference
  userId := some req.userId
  requestId := req.referenceId
  idempotencyKey := some (ledgerReference "debit" req.referenceId t)
  resourceType := "metered_operation"
  resourceId := req.referenceId
  amount := req.amount
  currency := w.currency
  status := .settled
  createdAt := ctx.now

/-- The writes of an open transaction, with the label of the commit to come. -/
structure Pending where
  label : Commit
  writes : Db → Db

def Pending.budget (p : Pending) (loaded new : Budget) : Pending :=
  { p with writes := fun d => (p.writes d).flushBudget loaded new }

/-- Which of the three notifications a new spend triggers, as the budget row
that remembers it was sent. -/
def budgetAlert (b : Budget) (limit : ℤ) : Option Budget :=
  if limit ≤ b.currentSpend ∧ b.limitReached = false then some { b with limitReached := true }
  else if limit * 9 ≤ b.currentSpend * 10 ∧ b.warning90Sent = false then
    some { b with warning90Sent := true }
  else if limit * 8 ≤ b.currentSpend * 10 ∧ b.warning80Sent = false then
    some { b with warning80Sent := true }
  else none

def Budget.spend (b : Budget) (amount : ℤ) : Budget :=
  { b with currentSpend := b.currentSpend + amount }

/-- `_update_budget_spend`. Creating the notification commits everything that is
pending, so that the caller goes on in a new transaction. -/
def updateBudgetSpend (userId : Uuid) (amount : ℤ) (pending : Pending) : Sql Pending := do
  let budget ← query .select (fun d => d.budgets.get? userId)
  match budget with
  | none => pure pending
  | some b =>
      match b.monthlyLimit with
      | none => pure pending
      | some limit => do
          updateBudget b
          match budgetAlert (b.spend amount) limit with
          | none => pure (pending.budget b (b.spend amount))
          | some alerted => do
              write (.commit pending.label) (pending.budget b alerted).writes
              pure { label := .ledger, writes := id }

def debitPending (w : Wallet) (t : WalletTransaction) : Pending where
  label := .debit w.id t.amount
  writes := fun d => (d.addTransaction t).flushWallet w (w.afterDebit t.amount)

/-- What `deduct_credit` has written before it adds its ledger row. -/
def debitWrite (w : Wallet) (t : WalletTransaction) (budget : Option (Budget × Budget))
    (d : Db) : Db :=
  flushBudgetOf budget ((d.addTransaction t).flushWallet w (w.afterDebit t.amount))

/-- `deduct_credit` from the wallet that `get_wallet` has returned. -/
def debitWallet (ctx : CallContext) (req : CreditRequest) (wallet : Wallet) :
    Sql WalletTransaction := do
  let existing ← existingTransaction req.referenceId
  match existing with
  | some t => pure t
  | none =>
      if wallet.status ≠ .active then .raise (.valueError ("Wallet is " ++ wallet.status.value))
      else do
        let locked ← getForUpdate wallet
        if locked.balance < req.amount then
          .raise (.insufficientCredits req.amount locked.balance)
        else do
          let t := debitTransaction ctx req locked
          insertTransaction t
          let pending ← updateBudgetSpend req.userId req.amount (debitPending locked t)
          let l := debitLedger ctx req locked t
          flushLedger l
          write (.commit pending.label) (fun d => (pending.writes d).addLedger l)
          pure t

/-- `BillingService.deduct_credit`. -/
def deductCredit (ctx : CallContext) (req : CreditRequest) : Sql WalletTransaction :=
  if req.amount ≤ 0 then .raise (.valueError "Deduction amount must be positive")
  else do
    let wallet ← getWallet {} ctx req.userId
    debitWallet ctx req wallet

/-! ## Refunds -/

def Wallet.afterRefund (w : Wallet) (amount : ℤ) : Wallet :=
  { w with balance := w.balance + amount, totalSpent := max 0 (w.totalSpent - amount) }

def refundTransactionRow (ctx : CallContext) (reason : String) (original : WalletTransaction)
    (w : Wallet) : WalletTransaction where
  id := ctx.newId
  walletId := w.id
  type := .refund
  amount := original.amount
  balanceBefore := w.balance
  balanceAfter := w.balance + original.amount
  reason := reason
  referenceId := some original.id.str

def refundLedger (ctx : CallContext) (userId : Uuid) (original : WalletTransaction) (w : Wallet) :
    BillingLedger where
  transactionType := .reversal
  userId := some userId
  idempotencyKey := some ("refund:" ++ original.id.str)
  resourceType := "refund"
  resourceId := some original.id.str
  amount := original.amount
  currency := w.currency
  status := .settled
  createdAt := ctx.now

def refundWrite (w : Wallet) (t : WalletTransaction) (budget : Option (Budget × Budget))
    (l : BillingLedger) (d : Db) : Db :=
  (flushBudgetOf budget ((d.addTransaction t).flushWallet w (w.afterRefund t.amount))).addLedger l

/-- `refund_transaction` once the original transaction may be refunded to `wallet`. -/
def refundToWallet (ctx : CallContext) (userId : Uuid) (reason : String)
    (original : WalletTransaction) (wallet : Wallet) : Sql WalletTransaction := do
  let locked ← getForUpdate wallet
  let t := refundTransactionRow ctx reason original locked
  insertTransaction t
  let budget ← query .select (fun d => d.budgets.get? userId)
  let reopened := reopenedBudget budget t.balanceAfter
    (max 0 ((budget.map Budget.currentSpend).getD 0 - original.amount))
  forEach reopened.toList (fun b => updateBudget b.1)
  let l := refundLedger ctx userId original locked
  flushLedger l
  write (.commit (.refund locked.id original.amount)) (refundWrite locked t reopened l)
  pure t

/-- `BillingService.refund_transaction`. -/
def refundTransaction (ctx : CallContext) (userId transactionId : Uuid) (reason : String) :
    Sql WalletTransaction := do
  let row ← query .select (fun d => d.transactions.get? transactionId)
  match row with
  | none => .raise (.valueError "Transaction not found")
  | some original =>
      if original.type ≠ .debit then
        .raise (.valueError "Only debit transactions can be refunded")
      else do
        let refunded ← query .select (fun d => d.hasRefund original.id)
        if refunded then .raise (.valueError "Transaction has already been refunded")
        else do
          let wallet ← query .select (fun d => d.walletByUser userId)
          match wallet with
          | none => .raise (.valueError "Wallet mismatch")
          | some wallet =>
              if wallet.id ≠ original.walletId then .raise (.valueError "Wallet mismatch")
              else refundToWallet ctx userId reason original wallet

/-! ## Budgets -/

structure BudgetCreate where
  monthlyLimit : Decimal
  autoTopUpEnabled : Bool := false
  autoTopUpThreshold : Option Decimal := none
  autoTopUpAmount : Option Decimal := none
  monthlyLimit_pos : 0 < monthlyLimit
  autoTopUpThreshold_nonneg : ∀ threshold ∈ autoTopUpThreshold, 0 ≤ threshold
  autoTopUpAmount_pos : ∀ amount ∈ autoTopUpAmount, 0 < amount

def Budget.configure (b : Budget) (body : BudgetCreate) : Budget :=
  { b with
    monthlyLimit := some (numeric body.monthlyLimit)
    autoTopUpEnabled := body.autoTopUpEnabled
    autoTopUpThreshold := body.autoTopUpThreshold.map numeric
    autoTopUpAmount := body.autoTopUpAmount.map numeric }

/-- `BillingService.create_or_update_budget`. -/
def createOrUpdateBudget (userId : Uuid) (body : BudgetCreate) : Sql Budget := do
  let existing ← query .select (fun d => d.budgets.get? userId)
  match existing with
  | some b => do
      let updated := b.configure body
      updateBudget b
      write (.commit .budget) (fun d => d.flushBudgetSettings b updated)
      pure updated
  | none => do
      let b := ({ userId } : Budget).configure body
      insertUnique [.budget userId] (fun d => (d.budgets.get? userId).isSome)
      write (.commit .budget) (fun d => d.addBudget b)
      pure b

end Zyntry
