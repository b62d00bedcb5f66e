import Zyntry.RowTable
import Zyntry.Money
import Zyntry.SqlProgram

/-!
# The billing tables

Rows, the database, and what a session says to it: the statements of the billing
services carry a `Statement` as their label, the rows and unique keys they wait
for are `Resource`s, and Python exceptions are `Error`s.

The session factory turns `autoflush` and `expire_on_commit` off. An object that
the session still holds keeps its loaded attributes when a later SELECT returns
its row (`IdentityMap`), and a flush writes only the columns whose value differs
from the loaded one (`changed`).
-/

namespace Zyntry

@[ext] structure Uuid where
  str : String
deriving DecidableEq, Repr

/-! ## Rows -/

inductive WalletStatus where
  | active
  | suspended
  | closed
deriving DecidableEq, Repr

def WalletStatus.value : WalletStatus → String
  | .active => "active"
  | .suspended => "suspended"
  | .closed => "closed"

inductive TransactionType where
  | credit
  | debit
  | refund
  | topup
  | reservation
  | aiInference
  | embedding
  | reranking
  | rag
  | storage
  | compute
  | integration
  | reversal
  | adjustment
deriving DecidableEq, Repr

def spendingTransactionTypes : List TransactionType :=
  [.aiInference, .embedding, .reranking, .rag, .storage, .compute, .integration]

inductive LedgerStatus where
  | reserved
  | settled
  | released
deriving DecidableEq, Repr

inductive ReservationStatus where
  | reserved
  | settled
  | released
deriving DecidableEq, Repr

inductive ScopeType where
  | user
  | organization
  | project
  | runtime
  | apiKey
deriving DecidableEq, Repr

def ScopeType.value : ScopeType → String
  | .user => "user"
  | .organization => "organization"
  | .project => "project"
  | .runtime => "runtime"
  | .apiKey => "api_key"

/-- The nullable scope columns that reservations and ledger rows share. -/
structure ScopeIds where
  organizationId : Option Uuid := none
  projectId : Option Uuid := none
  runtimeId : Option Uuid := none
  apiKeyId : Option Uuid := none
deriving DecidableEq, Repr

/-- `getattr(row, f"{scope}_id")`. -/
def scopeId (userId : Option Uuid) (ids : ScopeIds) : ScopeType → Option Uuid
  | .user => userId
  | .organization => ids.organizationId
  | .project => ids.projectId
  | .runtime => ids.runtimeId
  | .apiKey => ids.apiKeyId

structure Wallet where
  id : Uuid
  userId : Uuid
  balance : ℤ := 0
  reservedBalance : ℤ := 0
  totalSpent : ℤ := 0
  totalTopups : ℤ := 0
  currency : String := "usd"
  status : WalletStatus := .active
deriving DecidableEq, Repr

structure WalletTransaction where
  id : Uuid
  walletId : Uuid
  type : TransactionType
  amount : ℤ
  balanceBefore : ℤ
  balanceAfter : ℤ
  reason : String
  referenceId : Option String
deriving DecidableEq, Repr

structure Budget where
  userId : Uuid
  monthlyLimit : Option ℤ := none
  currentSpend : ℤ := 0
  warning80Sent : Bool := false
  warning90Sent : Bool := false
  limitReached : Bool := false
  autoTopUpEnabled : Bool := false
  autoTopUpThreshold : Option ℤ := none
  autoTopUpAmount : Option ℤ := none
deriving DecidableEq, Repr

structure BillingLedger where
  transactionType : TransactionType
  userId : Option Uuid
  scope : ScopeIds := {}
  requestId : Option String := none
  idempotencyKey : Option String
  resourceType : String
  resourceId : Option String
  amount : ℤ
  currency : String
  providerCost : ℤ := 0
  platformMarkup : ℤ := 0
  status : LedgerStatus
  createdAt : ℕ
deriving DecidableEq, Repr

structure Reservation where
  id : Uuid
  walletId : Uuid
  userId : Uuid
  scope : ScopeIds
  requestId : String
  idempotencyKey : String
  estimatedAmount : ℤ
  settledAmount : Option ℤ := none
  releasedAmount : ℤ := 0
  currency : String
  status : ReservationStatus := .reserved
  resourceType : String
  expiresAt : ℕ
  createdAt : ℕ
deriving DecidableEq, Repr

structure SpendingLimit where
  id : Uuid
  scopeType : ScopeType
  scopeId : Uuid
  period : Period
  amount : ℤ
  active : Bool
deriving DecidableEq, Repr

structure PricingRule where
  id : Uuid
  provider : String
  operation : String
  model : Option String
  pricePerUnit : Decimal
  markup : Decimal
  effectiveFrom : ℕ
  effectiveUntil : Option ℕ
  version : ℤ
  active : Bool
  createdAt : ℕ
deriving DecidableEq, Repr

structure UsageLog where
  userId : Uuid
  scope : ScopeIds
  requestId : Option String
  provider : String
  model : String
  operation : String
  inputTokens : ℕ := 0
  outputTokens : ℕ := 0
  cachedTokens : ℕ := 0
  vectorSearches : ℕ := 0
  requests : ℕ := 1
  cost : ℤ
  providerCost : ℤ := 0
  platformMarkup : ℤ := 0
  createdAt : ℕ
deriving DecidableEq, Repr

structure ProcessedWebhookEvent where
  eventId : String
  source : String
  eventType : String
  status : String
  receivedAt : ℕ
deriving DecidableEq, Repr

def BillingLedger.scopeId (l : BillingLedger) : ScopeType → Option Uuid :=
  Zyntry.scopeId l.userId l.scope

def Reservation.scopeId (r : Reservation) : ScopeType → Option Uuid :=
  Zyntry.scopeId (some r.userId) r.scope

/-- The rows that `SpendingLimitService.check` adds up as spent. -/
def BillingLedger.isSpend (l : BillingLedger) : Bool :=
  l.status = .settled ∧ l.transactionType ∈ spendingTransactionTypes

/-! ## What a flush writes -/

/-- A column of an UPDATE: a value equal to the loaded one is not written. -/
def changed {α : Type} [DecidableEq α] (loaded new row : α) : α :=
  if new = loaded then row else new

@[simp] theorem changed_row {α : Type} [DecidableEq α] (row new : α) :
    changed row new row = new := by
  unfold changed
  split_ifs with h
  · exact h.symm
  · rfl

@[simp] theorem changed_same {α : Type} [DecidableEq α] (loaded row : α) :
    changed loaded loaded row = row := if_pos rfl

/-- The UPDATE of a wallet that was loaded as `loaded` and is now `new`. -/
def Wallet.flush (loaded new row : Wallet) : Wallet :=
  { row with
    balance := changed loaded.balance new.balance row.balance
    reservedBalance := changed loaded.reservedBalance new.reservedBalance row.reservedBalance
    totalSpent := changed loaded.totalSpent new.totalSpent row.totalSpent
    totalTopups := changed loaded.totalTopups new.totalTopups row.totalTopups }

def Reservation.flush (loaded new row : Reservation) : Reservation :=
  { row with
    estimatedAmount := changed loaded.estimatedAmount new.estimatedAmount row.estimatedAmount
    settledAmount := changed loaded.settledAmount new.settledAmount row.settledAmount
    releasedAmount := changed loaded.releasedAmount new.releasedAmount row.releasedAmount
    status := changed loaded.status new.status row.status }

def Budget.flush (loaded new row : Budget) : Budget :=
  { row with
    currentSpend := changed loaded.currentSpend new.currentSpend row.currentSpend
    warning80Sent := changed loaded.warning80Sent new.warning80Sent row.warning80Sent
    warning90Sent := changed loaded.warning90Sent new.warning90Sent row.warning90Sent
    limitReached := changed loaded.limitReached new.limitReached row.limitReached }

/-- The UPDATE of a budget's settings. -/
def Budget.flushSettings (loaded new row : Budget) : Budget :=
  { row with
    monthlyLimit := changed loaded.monthlyLimit new.monthlyLimit row.monthlyLimit
    autoTopUpEnabled := changed loaded.autoTopUpEnabled new.autoTopUpEnabled row.autoTopUpEnabled
    autoTopUpThreshold :=
      changed loaded.autoTopUpThreshold new.autoTopUpThreshold row.autoTopUpThreshold
    autoTopUpAmount := changed loaded.autoTopUpAmount new.autoTopUpAmount row.autoTopUpAmount }

/-- The columns of a reservation that no UPDATE changes. -/
def Reservation.identity (r : Reservation) : Reservation :=
  { r with estimatedAmount := 0, settledAmount := none, releasedAmount := 0, status := .reserved }

theorem Reservation.walletId_eq {r r' : Reservation} (h : r'.identity = r.identity) :
    r'.walletId = r.walletId := (Reservation.mk.inj h).2.1

theorem Reservation.userId_eq {r r' : Reservation} (h : r'.identity = r.identity) :
    r'.userId = r.userId := (Reservation.mk.inj h).2.2.1

theorem Reservation.idempotencyKey_eq {r r' : Reservation} (h : r'.identity = r.identity) :
    r'.idempotencyKey = r.idempotencyKey := (Reservation.mk.inj h).2.2.2.2.2.1

@[simp] theorem Reservation.identity_flush (loaded new row : Reservation) :
    (Reservation.flush loaded new row).identity = row.identity := rfl

/-! ## The identity map -/

/-- The objects a session still holds when a service is called. -/
structure IdentityMap where
  wallets : List Wallet := []
  reservations : List Reservation := []
deriving DecidableEq, Repr

namespace IdentityMap

/-- The object that a SELECT returning this row gives. -/
def wallet (held : IdentityMap) (row : Wallet) : Wallet :=
  (held.wallets.find? (fun w => w.id = row.id)).getD row

def reservation (held : IdentityMap) (row : Reservation) : Reservation :=
  (held.reservations.find? (fun r => r.id = row.id)).getD row

@[simp] theorem wallet_empty (row : Wallet) : ({} : IdentityMap).wallet row = row := rfl

@[simp] theorem reservation_empty (row : Reservation) :
    ({} : IdentityMap).reservation row = row := rfl

theorem reservation_single {r row : Reservation} (h : row.id = r.id) :
    ({ reservations := [r] } : IdentityMap).reservation row = r := by
  simp [reservation, h]

theorem wallet_id (held : IdentityMap) (row : Wallet) : (held.wallet row).id = row.id := by
  unfold wallet
  cases h : held.wallets.find? (fun w => w.id = row.id) with
  | none => rfl
  | some w => simpa using List.find?_some h

theorem reservation_id (held : IdentityMap) (row : Reservation) :
    (held.reservation row).id = row.id := by
  unfold reservation
  cases h : held.reservations.find? (fun r => r.id = row.id) with
  | none => rfl
  | some r => simpa using List.find?_some h

end IdentityMap

/-! ## The database -/

structure Db where
  wallets : RowTable Uuid Wallet Wallet.id := default
  transactions : RowTable Uuid WalletTransaction WalletTransaction.id := default
  reservations : RowTable Uuid Reservation Reservation.id := default
  budgets : RowTable Uuid Budget Budget.userId := default
  ledger : List BillingLedger := []
  spendingLimits : RowTable Uuid SpendingLimit SpendingLimit.id := default
  pricingRules : List PricingRule := []
  usageLogs : List UsageLog := []
  webhookEvents : RowTable String ProcessedWebhookEvent ProcessedWebhookEvent.eventId := default

namespace Db

/-- `user_id` is unique among wallets. -/
def walletByUser (d : Db) (userId : Uuid) : Option Wallet :=
  d.wallets.rows.find? (fun w => w.userId = userId)

/-- `idempotency_key` is unique among reservations. -/
def reservationByKey (d : Db) (key : String) : Option Reservation :=
  d.reservations.rows.find? (fun r => r.idempotencyKey = key)

/-- `idempotency_key` is unique in the ledger as well. -/
def ledgerHasKey (d : Db) (key : String) : Bool :=
  d.ledger.any (fun l => l.idempotencyKey = some key)

def transactionsByReference (d : Db) (reference : String) : List WalletTransaction :=
  d.transactions.rows.filter (fun t => t.referenceId = some reference)

/-- The guard of `refund_transaction` against a second refund. -/
def hasRefund (d : Db) (transactionId : Uuid) : Bool :=
  d.ledger.any (fun l => l.transactionType = .reversal ∧
    l.resourceId = some transactionId.str ∧ l.status = .settled)

def activeLimits (d : Db) (scope : ScopeType) (id : Uuid) : List SpendingLimit :=
  d.spendingLimits.rows.filter (fun l => l.scopeType = scope ∧ l.scopeId = id ∧ l.active)

def settledSpend (d : Db) (scope : ScopeType) (id : Uuid) (start : ℕ) : ℤ :=
  (d.ledger.map (fun l =>
    if l.isSpend ∧ start ≤ l.createdAt ∧ l.scopeId scope = some id then l.amount else 0)).sum

def reservedEstimates (d : Db) (scope : ScopeType) (id : Uuid) (start : ℕ)
    (excluded : Option Uuid) : ℤ :=
  d.reservations.total (fun r =>
    if r.status = .reserved ∧ start ≤ r.createdAt ∧ r.scopeId scope = some id ∧
      excluded ≠ some r.id then r.estimatedAmount else 0)

def flushWallet (d : Db) (loaded new : Wallet) : Db :=
  { d with wallets := d.wallets.update loaded.id (Wallet.flush loaded new) (fun _ => rfl) }

def flushReservation (d : Db) (loaded new : Reservation) : Db :=
  { d with
    reservations := d.reservations.update loaded.id (Reservation.flush loaded new) (fun _ => rfl) }

def flushBudget (d : Db) (loaded new : Budget) : Db :=
  { d with budgets := d.budgets.update loaded.userId (Budget.flush loaded new) (fun _ => rfl) }

def flushBudgetSettings (d : Db) (loaded new : Budget) : Db :=
  { d with
    budgets := d.budgets.update loaded.userId (Budget.flushSettings loaded new) (fun _ => rfl) }

def addBudget (d : Db) (b : Budget) : Db := { d with budgets := d.budgets.insert b }

def addWallet (d : Db) (w : Wallet) : Db := { d with wallets := d.wallets.insert w }

def addTransaction (d : Db) (t : WalletTransaction) : Db :=
  { d with transactions := d.transactions.insert t }

def addReservation (d : Db) (r : Reservation) : Db :=
  { d with reservations := d.reservations.insert r }

def addLedger (d : Db) (l : BillingLedger) : Db := { d with ledger := d.ledger ++ [l] }

def addWebhookEvent (d : Db) (e : ProcessedWebhookEvent) : Db :=
  { d with webhookEvents := d.webhookEvents.insert e }

/-! ### Lookups after a write -/

theorem get?_flushWallet (d : Db) (w new : Wallet) (id : Uuid) :
    (d.flushWallet w new).wallets.get? id =
      if id = w.id then (d.wallets.get? id).map (Wallet.flush w new) else d.wallets.get? id := by
  split_ifs with h
  · subst h
    exact RowTable.get?_update_self d.wallets w.id (Wallet.flush w new) (fun _ => rfl)
  · exact RowTable.get?_update_of_ne d.wallets h (Wallet.flush w new) (fun _ => rfl)

theorem mem_flushWallet {d : Db} {w new w' : Wallet}
    (h : w' ∈ (d.flushWallet w new).wallets.rows) :
    (w' ∈ d.wallets.rows ∧ w'.id ≠ w.id) ∨
      ∃ row, d.wallets.get? w.id = some row ∧ w' = Wallet.flush w new row :=
  RowTable.mem_rows_update (f := Wallet.flush w new) (fun _ => rfl) h

theorem get?_flushReservation (d : Db) (r new : Reservation) (id : Uuid) :
    (d.flushReservation r new).reservations.get? id =
      if id = r.id then (d.reservations.get? id).map (Reservation.flush r new)
      else d.reservations.get? id := by
  split_ifs with h
  · subst h
    exact RowTable.get?_update_self d.reservations r.id (Reservation.flush r new) (fun _ => rfl)
  · exact RowTable.get?_update_of_ne d.reservations h (Reservation.flush r new) (fun _ => rfl)

theorem mem_flushReservation {d : Db} {r new r' : Reservation}
    (h : r' ∈ (d.flushReservation r new).reservations.rows) :
    (r' ∈ d.reservations.rows ∧ r'.id ≠ r.id) ∨
      ∃ row, d.reservations.get? r.id = some row ∧ r' = Reservation.flush r new row :=
  RowTable.mem_rows_update (f := Reservation.flush r new) (fun _ => rfl) h

theorem get?_flushBudget (d : Db) (b new : Budget) (userId : Uuid) :
    (d.flushBudget b new).budgets.get? userId =
      if userId = b.userId then (d.budgets.get? userId).map (Budget.flush b new)
      else d.budgets.get? userId := by
  split_ifs with h
  · subst h
    exact RowTable.get?_update_self d.budgets b.userId (Budget.flush b new) (fun _ => rfl)
  · exact RowTable.get?_update_of_ne d.budgets h (Budget.flush b new) (fun _ => rfl)

theorem total_flushReservation {d : Db} {r row : Reservation} (new : Reservation)
    (hrow : d.reservations.get? r.id = some row) (f : Reservation → ℤ) :
    (d.flushReservation r new).reservations.total f =
      d.reservations.total f - f row + f (Reservation.flush r new row) :=
  RowTable.total_update hrow (Reservation.flush r new) (fun _ => rfl) f

end Db

theorem ledgerHasKey_addLedger (d : Db) (l : BillingLedger) (key : String) :
    (d.addLedger l).ledgerHasKey key = (d.ledgerHasKey key || decide (l.idempotencyKey = some key)) := by
  simp [Db.ledgerHasKey, Db.addLedger]

/-- The balance of a wallet; a wallet that does not exist yet has none. -/
def Db.balanceOf (d : Db) (id : Uuid) : ℤ := ((d.wallets.get? id).map Wallet.balance).getD 0

theorem balanceOf_eq {d : Db} {id : Uuid} {row : Wallet} (h : d.wallets.get? id = some row) :
    d.balanceOf id = row.balance := by
  simp [Db.balanceOf, h]

theorem balanceOf_addWallet {d : Db} {w : Wallet} (hfree : d.wallets.get? w.id = none)
    (hempty : w.balance = 0) (id : Uuid) : (d.addWallet w).balanceOf id = d.balanceOf id := by
  unfold Db.balanceOf
  by_cases hid : id = w.id
  · subst hid
    have hnew : (d.addWallet w).wallets.get? w.id = some w := RowTable.get?_insert_self hfree
    simp [hnew, hfree, hempty]
  · have hold : (d.addWallet w).wallets.get? id = d.wallets.get? id :=
      RowTable.get?_insert_of_ne d.wallets hid
    rw [hold]

theorem walletByUser_get? {d : Db} {userId : Uuid} {w : Wallet}
    (h : d.walletByUser userId = some w) : d.wallets.get? w.id = some w ∧ w.userId = userId :=
  ⟨RowTable.get?_of_mem (List.mem_of_find?_eq_some h), by simpa using List.find?_some h⟩

theorem reservationByKey_get? {d : Db} {key : String} {r : Reservation}
    (h : d.reservationByKey key = some r) :
    d.reservations.get? r.id = some r ∧ r.idempotencyKey = key :=
  ⟨RowTable.get?_of_mem (List.mem_of_find?_eq_some h), by simpa using List.find?_some h⟩

/-! ## What sessions say to the database -/

/-- The rows and unique keys a statement can wait for. -/
inductive Resource where
  | wallet (id : Uuid)
  | walletOf (userId : Uuid)
  | transaction (id : Uuid)
  | reservation (id : Uuid)
  | reservationKey (key : String)
  | ledgerKey (key : String)
  | budget (userId : Uuid)
  | spendingLimit (id : Uuid)
  | webhookEvent (eventId : String)
deriving DecidableEq, Repr

/-- What a reservation is locked for. -/
inductive Finaliser where
  | settle (actual : ℤ)
  | release
deriving DecidableEq, Repr

/-- What a commit is about, with the change of the wallet's balance it makes. -/
inductive Commit where
  | newWallet (walletId : Uuid)
  | credit (walletId : Uuid) (amount : ℤ)
  | debit (walletId : Uuid) (amount : ℤ)
  | refund (walletId : Uuid) (amount : ℤ)
  | reserve (walletId : Uuid) (amount : ℤ)
  | settle (walletId : Uuid) (change : ℤ)
  | release (walletId : Uuid) (amount : ℤ)
  | budget
  | ledger
  | usage
  | event
  | webhookEvent
  | rollback
deriving DecidableEq, Repr

inductive Statement where
  | select
  | sumSettled
  | sumReserved (limitId : Uuid)
  | lockLimits
  | lockWallet (id : Uuid) (held : IdentityMap)
  | lockWalletOf (userId : Uuid) (held : IdentityMap)
  | lockReservationKey
  | lockReservation (id : Uuid) (held : IdentityMap) (purpose : Finaliser)
  | lockBudget
  | insert
  | update
  | commit (c : Commit)
deriving DecidableEq, Repr

inductive Error where
  | valueError (message : String)
  | insufficientBalance (required available : ℤ)
  | insufficientCredits (required balance : ℤ)
  | spendingLimit (scope : ScopeType) (period : Period) (limit projected : ℤ)
  | integrityError
  | noResultFound
  | multipleResultsFound
  | runtimeError (message : String)
  | httpException (statusCode : ℕ) (code : String)
  | exception
  | databaseError
  | cancelled
  | pendingRollback
deriving DecidableEq, Repr

abbrev Sql := SqlProgram Db Resource Statement Error

end Zyntry
