import Zyntry.SpendingLimits

/-!
# Reservations and their settlement

The metered billing service. Changes to loaded objects and inserted rows stay in
the session until a commit applies them at once, so every operation collects
them in the state function of its commit.
-/

namespace Zyntry

open SqlProgram

/-- What a call draws from the clock and from `uuid4`. -/
structure CallContext where
  now : ℕ
  newId : Uuid
  newWalletId : Uuid
deriving DecidableEq, Repr

/-- Flush new rows under their primary and unique keys. An uncommitted row with
one of the keys is waited for, a committed one violates the constraint. -/
def insertUnique (keys : List Resource) (exists_ : Db → Bool) : Sql Unit := do
  let violated ← locking .insert (fun _ => keys) exists_
  if violated then .raise .integrityError else pure ()

def ledgerKeyTaken (key : Option String) (d : Db) : Bool :=
  match key with
  | none => false
  | some k => d.ledgerHasKey k

/-- `_ledger`: flush one ledger row. -/
def flushLedger (l : BillingLedger) : Sql Unit :=
  insertUnique (l.idempotencyKey.toList.map .ledgerKey) (ledgerKeyTaken l.idempotencyKey)

def walletExists (id userId : Uuid) (d : Db) : Bool :=
  (d.wallets.get? id).isSome || (d.walletByUser userId).isSome

def reservationExists (id : Uuid) (key : String) (d : Db) : Bool :=
  (d.reservations.get? id).isSome || (d.reservationByKey key).isSome

/-- `_wallet_for_update`, with the row it has flushed but not committed. -/
def walletForUpdate (held : IdentityMap) (ctx : CallContext) (userId : Uuid) :
    Sql (Wallet × Option Wallet) := do
  let wallet ← locking (.lockWalletOf userId held)
    (fun d => (d.walletByUser userId).toList.map (fun w => .wallet w.id))
    (fun d => (d.walletByUser userId).map held.wallet)
  match wallet with
  | some w => pure (w, none)
  | none => do
      insertUnique [.wallet ctx.newWalletId, .walletOf userId] (walletExists ctx.newWalletId userId)
      let w : Wallet := { id := ctx.newWalletId, userId }
      pure (w, some w)

structure ReserveRequest where
  userId : Uuid
  amount : Decimal
  requestId : String
  idempotencyKey : String
  scope : ScopeIds := {}
  resourceType : String := "runtime_execution"
  ttlSeconds : ℤ := 900

/-- The row that `reserve` inserts. -/
def ReserveRequest.reservation (req : ReserveRequest) (ctx : CallContext) (wallet : Wallet) :
    Reservation where
  id := ctx.newId
  walletId := wallet.id
  userId := req.userId
  scope := req.scope
  requestId := req.requestId
  idempotencyKey := req.idempotencyKey
  estimatedAmount := money req.amount
  currency := wallet.currency
  resourceType := req.resourceType
  expiresAt := ctx.now + (max 1 req.ttlSeconds).toNat * 1000000
  createdAt := ctx.now

def reservationLedger (r : Reservation) (ctx : CallContext) : BillingLedger where
  transactionType := .reservation
  userId := some r.userId
  scope := r.scope
  requestId := some r.requestId
  idempotencyKey := some (r.idempotencyKey ++ ":reservation")
  resourceType := r.resourceType
  resourceId := some r.id.str
  amount := r.estimatedAmount
  currency := r.currency
  status := .reserved
  createdAt := ctx.now

def Wallet.afterReserve (w : Wallet) (amount : ℤ) : Wallet :=
  { w with balance := w.balance - amount, reservedBalance := w.reservedBalance + amount }

def reserveWrite (created : Option Wallet) (wallet : Wallet) (r : Reservation)
    (ctx : CallContext) (d : Db) : Db :=
  (((match created with
    | some w => d.addWallet w
    | none => d).flushWallet wallet (wallet.afterReserve r.estimatedAmount)).addReservation r)
    |>.addLedger (reservationLedger r ctx)

/-- `except IntegrityError: handler`. -/
def onIntegrityError {α : Type} (handler : Sql α) (e : Error) : Sql α :=
  if e = .integrityError then handler else .raise e

@[simp] theorem onIntegrityError_self {α : Type} (handler : Sql α) :
    onIntegrityError handler .integrityError = handler := if_pos rfl

/-- What `reserve` does after a violated key: the rollback expires the objects of
the session, so the row of another session is loaded afresh. -/
def conflictedReservation (key : String) : Sql Reservation := do
  write (.commit .rollback) id
  let existing ← query .select (fun d => d.reservationByKey key)
  match existing with
  | some r => pure r
  | none => .raise .integrityError

/-- From the checked wallet to the committed reservation. -/
def commitReservation (ctx : CallContext) (req : ReserveRequest) (wallet : Wallet)
    (created : Option Wallet) : Sql Reservation :=
  let r := req.reservation ctx wallet
  (do insertUnique [.reservation r.id, .reservationKey r.idempotencyKey]
        (reservationExists r.id r.idempotencyKey)
      flushLedger (reservationLedger r ctx)
      write (.commit (.reserve wallet.id r.estimatedAmount)) (reserveWrite created wallet r ctx)
      pure r : Sql Reservation).catching
    (onIntegrityError (conflictedReservation req.idempotencyKey))

/-- `MeteredBillingService.reserve`. -/
def reserve (held : IdentityMap) (ctx : CallContext) (req : ReserveRequest) : Sql Reservation :=
  if money req.amount ≤ 0 then .raise (.valueError "Reservation amount must be positive")
  else do
    let amount := money req.amount
    let existing ← locking .lockReservationKey
      (fun d => (d.reservationByKey req.idempotencyKey).toList.map (fun r => .reservation r.id))
      (fun d => (d.reservationByKey req.idempotencyKey).map held.reservation)
    match existing with
    | some r => pure r
    | none => do
        check { amount, userId := req.userId, scope := req.scope, now := ctx.now }
        let (wallet, created) ← walletForUpdate held ctx req.userId
        if wallet.status ≠ .active then
          .raise (.valueError ("Wallet is " ++ wallet.status.value))
        else if wallet.balance < amount then
          .raise (.insufficientBalance amount wallet.balance)
        else commitReservation ctx req wallet created

/-! ## Settlement -/

structure SettleRequest where
  actualAmount : Decimal
  providerCost : Decimal := 0
  transactionType : TransactionType := .aiInference

/-- The row lock that `settle` and `release` begin with. -/
def lockReservation (held : IdentityMap) (id : Uuid) (purpose : Finaliser) : Sql Reservation := do
  let row ← locking (.lockReservation id held purpose)
    (fun d => (d.reservations.get? id).toList.map (fun r => .reservation r.id))
    (fun d => (d.reservations.get? id).map held.reservation)
  match row with
  | some r => pure r
  | none => .raise .noResultFound

def lockWallet (held : IdentityMap) (id : Uuid) : Sql Wallet := do
  let row ← locking (.lockWallet id held)
    (fun d => (d.wallets.get? id).toList.map (fun w => .wallet w.id))
    (fun d => (d.wallets.get? id).map held.wallet)
  match row with
  | some w => pure w
  | none => .raise .noResultFound

/-- What the actual amount adds to the estimate. -/
def additionalAmount (r : Reservation) (actual : ℤ) : ℤ :=
  if r.estimatedAmount < actual then actual - r.estimatedAmount else 0

theorem additionalAmount_cases (r : Reservation) (actual : ℤ) :
    (r.estimatedAmount < actual ∧ additionalAmount r actual = actual - r.estimatedAmount) ∨
      (actual ≤ r.estimatedAmount ∧ additionalAmount r actual = 0) := by
  unfold additionalAmount
  split_ifs with h
  · exact .inl ⟨h, rfl⟩
  · exact .inr ⟨not_lt.mp h, rfl⟩

/-- The branch of `settle` for an actual amount above the estimate. -/
def authoriseAdditional (ctx : CallContext) (r : Reservation) (wallet : Wallet)
    (actual : ℤ) : Sql Unit :=
  if r.estimatedAmount < actual then do
    let additional := actual - r.estimatedAmount
    check
      { amount := additional
        userId := r.userId
        scope := r.scope
        now := ctx.now
        excludeReservationId := some r.id }
    if wallet.balance < additional then
      .raise (.insufficientBalance actual (wallet.balance + r.estimatedAmount))
    else pure ()
  else pure ()

/-- What is given back: the estimate, first raised to the actual amount if it
was below, minus the actual amount. -/
def releaseAmount (r : Reservation) (actual : ℤ) : ℤ :=
  r.estimatedAmount + additionalAmount r actual - actual

def Wallet.afterSettle (w : Wallet) (r : Reservation) (actual : ℤ) : Wallet :=
  let additional := additionalAmount r actual
  { w with
    balance := w.balance - additional + releaseAmount r actual
    reservedBalance := w.reservedBalance + additional - (r.estimatedAmount + additional)
    totalSpent := w.totalSpent + actual }

def Reservation.afterSettle (r : Reservation) (actual : ℤ) : Reservation :=
  { r with
    estimatedAmount := r.estimatedAmount + additionalAmount r actual
    settledAmount := some actual
    releasedAmount := releaseAmount r actual
    status := .settled }

def Budget.afterSettle (b : Budget) (actual : ℤ) : Budget :=
  let spend := b.currentSpend + actual
  { b with
    currentSpend := spend
    limitReached := b.limitReached ||
      (match b.monthlyLimit with
       | some limit => decide (limit ≤ spend)
       | none => false) }

def settledLedger (r : Reservation) (req : SettleRequest) (currency : String)
    (ctx : CallContext) : BillingLedger where
  transactionType := req.transactionType
  userId := some r.userId
  scope := r.scope
  requestId := some r.requestId
  idempotencyKey := some (r.idempotencyKey ++ ":settled")
  resourceType := r.resourceType
  resourceId := some r.id.str
  amount := money req.actualAmount
  currency := currency
  providerCost := money req.providerCost
  platformMarkup := money (toDecimal (money req.actualAmount) - req.providerCost)
  status := .settled
  createdAt := ctx.now

def releaseLedger (r : Reservation) (amount : ℤ) (currency : String) (ctx : CallContext) :
    BillingLedger where
  transactionType := .reversal
  userId := some r.userId
  scope := r.scope
  requestId := some r.requestId
  idempotencyKey := some (r.idempotencyKey ++ ":release")
  resourceType := "reservation"
  resourceId := some r.id.str
  amount := amount
  currency := currency
  status := .released
  createdAt := ctx.now

def flushBudgetOf (budget : Option (Budget × Budget)) (d : Db) : Db :=
  match budget with
  | some (loaded, new) => d.flushBudget loaded new
  | none => d

def settleWrite (r : Reservation) (wallet : Wallet) (budget : Option Budget)
    (req : SettleRequest) (ctx : CallContext) (d : Db) : Db :=
  let actual := money req.actualAmount
  let release := releaseAmount r actual
  let d := (d.flushWallet wallet (wallet.afterSettle r actual)).flushReservation r
    (r.afterSettle actual)
  let d := (flushBudgetOf (budget.map (fun b => (b, b.afterSettle actual))) d).addLedger
    (settledLedger r req wallet.currency ctx)
  if 0 < release then d.addLedger (releaseLedger r release wallet.currency ctx) else d

/-- The ledger rows of a settlement. -/
def settlementRows (r : Reservation) (req : SettleRequest) (currency : String)
    (ctx : CallContext) : List BillingLedger :=
  let release := releaseAmount r (money req.actualAmount)
  settledLedger r req currency ctx ::
    if 0 < release then [releaseLedger r release currency ctx] else []

theorem ledger_settleWrite (r : Reservation) (w : Wallet) (budget : Option Budget)
    (req : SettleRequest) (ctx : CallContext) (d : Db) :
    (settleWrite r w budget req ctx d).ledger =
      d.ledger ++ settlementRows r req w.currency ctx := by
  have hbudget : ∀ b d', (flushBudgetOf b d').ledger = d'.ledger := fun b _ => by
    cases b <;> rfl
  unfold settleWrite settlementRows
  dsimp only
  split_ifs
  · simp only [Db.addLedger, hbudget, List.append_assoc]
    rfl
  · simp only [Db.addLedger, hbudget]
    rfl

theorem wallets_flushBudgetOf (budget : Option (Budget × Budget)) (d : Db) :
    (flushBudgetOf budget d).wallets = d.wallets := by
  cases budget <;> rfl

theorem reservations_flushBudgetOf (budget : Option (Budget × Budget)) (d : Db) :
    (flushBudgetOf budget d).reservations = d.reservations := by
  cases budget <;> rfl

theorem spendingLimits_flushBudgetOf (budget : Option (Budget × Budget)) (d : Db) :
    (flushBudgetOf budget d).spendingLimits = d.spendingLimits := by
  cases budget <;> rfl

theorem wallets_settleWrite (r : Reservation) (w : Wallet) (budget : Option Budget)
    (req : SettleRequest) (ctx : CallContext) (d : Db) :
    (settleWrite r w budget req ctx d).wallets =
      (d.flushWallet w (w.afterSettle r (money req.actualAmount))).wallets := by
  unfold settleWrite
  dsimp only
  split_ifs
  all_goals
    simp only [Db.addLedger, wallets_flushBudgetOf]
    rfl

theorem reservations_settleWrite (r : Reservation) (w : Wallet) (budget : Option Budget)
    (req : SettleRequest) (ctx : CallContext) (d : Db) :
    (settleWrite r w budget req ctx d).reservations =
      (d.flushReservation r (r.afterSettle (money req.actualAmount))).reservations := by
  unfold settleWrite
  dsimp only
  split_ifs
  all_goals
    simp only [Db.addLedger, reservations_flushBudgetOf]
    rfl

theorem spendingLimits_settleWrite (r : Reservation) (w : Wallet) (budget : Option Budget)
    (req : SettleRequest) (ctx : CallContext) (d : Db) :
    (settleWrite r w budget req ctx d).spendingLimits = d.spendingLimits := by
  unfold settleWrite
  dsimp only
  split_ifs
  all_goals
    simp only [Db.addLedger, spendingLimits_flushBudgetOf]
    rfl

theorem budgets_settleWrite (r : Reservation) (w : Wallet) (budget : Option Budget)
    (req : SettleRequest) (ctx : CallContext) (d : Db) :
    (settleWrite r w budget req ctx d).budgets =
      (flushBudgetOf (budget.map (fun b => (b, b.afterSettle (money req.actualAmount)))) d
        ).budgets := by
  unfold settleWrite
  dsimp only
  split_ifs
  all_goals cases budget <;> rfl

theorem transactions_settleWrite (r : Reservation) (w : Wallet) (budget : Option Budget)
    (req : SettleRequest) (ctx : CallContext) (d : Db) :
    (settleWrite r w budget req ctx d).transactions = d.transactions := by
  unfold settleWrite
  dsimp only
  split_ifs
  all_goals cases budget <;> rfl

theorem usageLogs_settleWrite (r : Reservation) (w : Wallet) (budget : Option Budget)
    (req : SettleRequest) (ctx : CallContext) (d : Db) :
    (settleWrite r w budget req ctx d).usageLogs = d.usageLogs := by
  unfold settleWrite
  dsimp only
  split_ifs
  all_goals cases budget <;> rfl

theorem pricingRules_settleWrite (r : Reservation) (w : Wallet) (budget : Option Budget)
    (req : SettleRequest) (ctx : CallContext) (d : Db) :
    (settleWrite r w budget req ctx d).pricingRules = d.pricingRules := by
  unfold settleWrite
  dsimp only
  split_ifs
  all_goals cases budget <;> rfl

def flushRelease (r : Reservation) (release : ℤ) (currency : String) (ctx : CallContext) :
    Sql Unit :=
  if 0 < release then flushLedger (releaseLedger r release currency ctx) else pure ()

/-- `MeteredBillingService.settle`. -/
def settle (held : IdentityMap) (ctx : CallContext) (reservationId : Uuid) (req : SettleRequest) :
    Sql Reservation := do
  let actual := money req.actualAmount
  let r ← lockReservation held reservationId (.settle actual)
  if r.status ≠ .reserved then pure r
  else if actual < 0 then .raise (.valueError "Actual amount cannot be negative")
  else do
    let wallet ← lockWallet held r.walletId
    authoriseAdditional ctx r wallet actual
    let budget ← locking .lockBudget
      (fun d => (d.budgets.get? r.userId).toList.map (fun b => .budget b.userId))
      (fun d => d.budgets.get? r.userId)
    flushLedger (settledLedger r req wallet.currency ctx)
    let release := releaseAmount r actual
    flushRelease r release wallet.currency ctx
    write (.commit (.settle wallet.id (release - additionalAmount r actual)))
      (settleWrite r wallet budget req ctx)
    pure (r.afterSettle actual)

/-! ## Release -/

def Wallet.afterRelease (w : Wallet) (r : Reservation) : Wallet :=
  { w with
    balance := w.balance + r.estimatedAmount
    reservedBalance := w.reservedBalance - r.estimatedAmount }

def Reservation.afterRelease (r : Reservation) : Reservation :=
  { r with releasedAmount := r.estimatedAmount, status := .released }

def releaseWrite (r : Reservation) (wallet : Wallet) (ctx : CallContext) (d : Db) : Db :=
  ((d.flushWallet wallet (wallet.afterRelease r)).flushReservation r r.afterRelease)
    |>.addLedger (releaseLedger r r.estimatedAmount wallet.currency ctx)

/-- `MeteredBillingService.release`. -/
def release (held : IdentityMap) (ctx : CallContext) (reservationId : Uuid) :
    Sql Reservation := do
  let r ← lockReservation held reservationId .release
  if r.status ≠ .reserved then pure r
  else do
    let wallet ← lockWallet held r.walletId
    flushLedger (releaseLedger r r.estimatedAmount wallet.currency ctx)
    write (.commit (.release wallet.id r.estimatedAmount)) (releaseWrite r wallet ctx)
    pure r.afterRelease

/-- The reservations past their deadline, the longest expired first. -/
def Db.expiredReservations (d : Db) (limit : ℕ) (now : ℕ) : List Uuid :=
  (((d.reservations.rows.filter (fun r => r.status = .reserved ∧ r.expiresAt ≤ now)).insertionSort
    (fun r r' => r.expiresAt ≤ r'.expiresAt)).take limit).map Reservation.id

/-- `MeteredBillingService.expire_reservations`. -/
def expireReservations (ctx : CallContext) (limit : ℕ) : Sql ℕ := do
  let ids ← query .select (fun d => d.expiredReservations limit ctx.now)
  -- nothing refers to a released reservation any longer, so no object is held
  forEach ids (fun id => do
    let _ ← release {} ctx id
    pure ())
  pure ids.length

/-- The calls of the metered engine. -/
inductive MeteredOperation where
  | reserve (ctx : CallContext) (req : ReserveRequest)
  | settle (ctx : CallContext) (reservationId : Uuid) (req : SettleRequest)
  | release (ctx : CallContext) (reservationId : Uuid)
  | expireReservations (ctx : CallContext) (limit : ℕ)

/-- A call in a session of its own, which holds no objects. -/
def runMetered : MeteredOperation → Sql Unit
  | .reserve ctx req => (reserve {} ctx req).ignore
  | .settle ctx id req => (settle {} ctx id req).ignore
  | .release ctx id => (release {} ctx id).ignore
  | .expireReservations ctx limit => (expireReservations ctx limit).ignore

/-- The calls whose sessions are interleaved, each with the reservation it returns. -/
inductive ReservationCall where
  | reserve (ctx : CallContext) (req : ReserveRequest)
  | settle (ctx : CallContext) (reservationId : Uuid) (req : SettleRequest)
  | release (ctx : CallContext) (reservationId : Uuid)

def runReservation : ReservationCall → Sql Reservation
  | .reserve ctx req => reserve {} ctx req
  | .settle ctx id req => settle {} ctx id req
  | .release ctx id => release {} ctx id

end Zyntry
