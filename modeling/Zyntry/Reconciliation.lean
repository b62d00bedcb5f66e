import Zyntry.LimitInvariant
import Zyntry.ReservationOwnership
import Zyntry.WalletConservation

/-!
# Reconciliation of a wallet

`reconcile_wallet` compares a wallet with its open reservations and with the
settled ledger of its user. A refund lowers `total_spent` but leaves the ledger
row of the debit settled, and the reversal it adds is not subtracted, so the
comparison of `total_spent` is only right as long as what has been spent under
other transaction types makes up for the refunds.
-/

namespace Zyntry

open SqlProgram

structure WalletFigures where
  availableBalance : ℤ
  reservedBalance : ℤ
  totalSpent : ℤ
  expiredReservations : ℕ
deriving DecidableEq, Repr

structure ReconcileReport where
  ok : Bool
  walletId : Option Uuid
  mismatches : List String
  /-- The entries that only the report of an existing wallet has. -/
  figures : Option WalletFigures
deriving DecidableEq, Repr

def Db.expiredCount (d : Db) (walletId : Uuid) (now : ℕ) : ℕ :=
  (d.reservations.rows.filter (fun r =>
    r.walletId = walletId ∧ r.status = .reserved ∧ r.expiresAt ≤ now)).length

def walletMismatches (w : Wallet) (settledSpend reserved : ℤ) (expired : ℕ) : List String :=
  (if money (toDecimal w.reservedBalance) ≠ money (toDecimal reserved)
    then ["reserved_balance"] else []) ++
  (if money (toDecimal w.totalSpent) < money (toDecimal settledSpend)
    then ["total_spent"] else []) ++
  (if w.balance < 0 ∨ w.reservedBalance < 0 then ["negative_balance"] else []) ++
  (if expired ≠ 0 then ["expired_reservations"] else [])

/-- `MeteredBillingService.reconcile_wallet`. -/
def reconcileWallet (now : ℕ) (userId : Uuid) : Sql ReconcileReport := do
  let wallet ← query .select (fun d => d.walletByUser userId)
  match wallet with
  | none => pure { ok := true, walletId := none, mismatches := [], figures := none }
  | some w => do
      let settledSpend ← query .sumSettled (fun d => d.settledSpend .user userId 0)
      let reserved ← query .select (fun d => d.outstanding w.id)
      let expired ← query .select (fun d => d.expiredCount w.id now)
      let mismatches := walletMismatches w settledSpend reserved expired
      pure
        { ok := mismatches.isEmpty
          walletId := some w.id
          mismatches := mismatches
          figures := some
            { availableBalance := w.balance
              reservedBalance := w.reservedBalance
              totalSpent := w.totalSpent
              expiredReservations := expired } }

theorem walletMismatches_eq_nil {w : Wallet} {settledSpend reserved : ℤ} {expired : ℕ} :
    walletMismatches w settledSpend reserved expired = [] ↔
      w.reservedBalance = reserved ∧ settledSpend ≤ w.totalSpent ∧
        (0 ≤ w.balance ∧ 0 ≤ w.reservedBalance) ∧ expired = 0 := by
  simp only [walletMismatches, money_toDecimal, List.append_eq_nil_iff, ite_eq_right_iff,
    List.cons_ne_nil, imp_false, not_not, not_lt, not_or, ne_eq, and_assoc]

/-! ## The invariant -/

/-- What the wallets of a user have spent. -/
def Db.userSpent (d : Db) (userId : Uuid) : ℤ :=
  d.wallets.total (fun w => if w.userId = userId then w.totalSpent else 0)

def OneWalletPerUser (d : Db) : Prop :=
  ∀ w ∈ d.wallets.rows, ∀ w' ∈ d.wallets.rows, w'.userId = w.userId → w'.id = w.id

structure Reconcilable (d : Db) : Prop where
  accounted : Accounted d
  owned : WellOwned d
  unique : OneWalletPerUser d
  covered : ∀ userId, d.settledSpend .user userId 0 ≤ d.userSpent userId

theorem userSpent_eq {d : Db} (hunique : OneWalletPerUser d) {w : Wallet}
    (hw : w ∈ d.wallets.rows) : d.userSpent w.userId = w.totalSpent := by
  have hoff := RowTable.total_eq_off (RowTable.get?_of_mem hw) (f := fun _ => 0)
    (g := fun w' : Wallet => if w'.userId = w.userId then w'.totalSpent else 0)
    fun w' hw' hne => if_neg fun huser => hne (hunique w hw w' hw' huser)
  rw [Db.userSpent, hoff, RowTable.total_eq_zero fun _ _ => rfl, if_pos rfl]
  ring

theorem userSpent_flushWallet {d : Db} {w new : Wallet} (hw : d.wallets.get? w.id = some w)
    (hflush : Wallet.flush w new w = new) (userId : Uuid) :
    (d.flushWallet w new).userSpent userId = d.userSpent userId +
      if w.userId = userId then new.totalSpent - w.totalSpent else 0 := by
  have huser : new.userId = w.userId := (congrArg Wallet.userId hflush).symm
  refine (RowTable.total_update hw (Wallet.flush w new) (fun _ => rfl) _).trans ?_
  rw [hflush, huser, Db.userSpent]
  split_ifs
  · ring
  · ring

theorem oneWalletPerUser_flushWallet {d : Db} (h : OneWalletPerUser d) {w new : Wallet} :
    OneWalletPerUser (d.flushWallet w new) := by
  -- every row keeps its id and its user
  have hkept : ∀ w' ∈ (d.flushWallet w new).wallets.rows,
      ∃ row ∈ d.wallets.rows, w'.id = row.id ∧ w'.userId = row.userId := by
    intro w' hw'
    rcases Db.mem_flushWallet hw' with ⟨hold, _⟩ | ⟨row, hrow, rfl⟩
    · exact ⟨w', hold, rfl, rfl⟩
    · exact ⟨row, RowTable.get?_some_mem hrow, rfl, rfl⟩
  intro w₁ hw₁ w₂ hw₂ huser
  obtain ⟨row₁, hrow₁, hid₁, huser₁⟩ := hkept w₁ hw₁
  obtain ⟨row₂, hrow₂, hid₂, huser₂⟩ := hkept w₂ hw₂
  rw [hid₁, hid₂]
  exact h row₁ hrow₁ row₂ hrow₂ (huser₂.symm.trans (huser.trans huser₁))

theorem reconcilable_addWallet {d : Db} (h : Reconcilable d) {w : Wallet}
    (hid : d.wallets.get? w.id = none) (huser : d.walletByUser w.userId = none)
    (hb : w.balance = 0) (hr : w.reservedBalance = 0) (hs : w.totalSpent = 0)
    (ht : w.totalTopups = 0) : Reconcilable (d.addWallet w) := by
  have hother : ∀ w' ∈ d.wallets.rows, w'.userId ≠ w.userId := fun w' hw' => by
    simpa using List.find?_eq_none.mp huser w' hw'
  refine ⟨accounted_addWallet h.accounted hid hb hr hs ht, ?_, ?_, fun userId => ?_⟩
  · intro r hr
    obtain ⟨w', hw', huser'⟩ := h.owned r hr
    exact ⟨w', RowTable.get?_insert_of_some hw', huser'⟩
  · intro w₁ hw₁ w₂ hw₂ hsame
    rcases RowTable.mem_rows_insert hw₁ with hold₁ | rfl <;>
      rcases RowTable.mem_rows_insert hw₂ with hold₂ | rfl
    · exact h.unique w₁ hold₁ w₂ hold₂ hsame
    · exact absurd hsame.symm (hother w₁ hold₁)
    · exact absurd hsame (hother w₂ hold₂)
    · rfl
  · have hspent : (d.addWallet w).userSpent userId = d.userSpent userId + 0 := by
      refine (RowTable.total_insert hid _).trans ?_
      rw [hs, ite_self, Db.userSpent]
    rw [hspent, add_zero]
    exact h.covered userId

/-- A commit that rewrites one wallet and inserts or finalises reservations of it. -/
theorem reconcilable_flushWallet {d d' : Db} {w new : Wallet} (h : Reconcilable d)
    (hw : d.wallets.get? w.id = some w) (hflush : Wallet.flush w new w = new)
    (hwallets : d'.wallets = (d.flushWallet w new).wallets) (haccounted : Accounted d')
    (hreservations : ∀ r' ∈ d'.reservations.rows,
      (∃ r ∈ d.reservations.rows, r'.identity = r.identity) ∨
        (r'.walletId = w.id ∧ r'.userId = w.userId))
    (hcovered : ∀ userId, d'.settledSpend .user userId 0 ≤ d.userSpent userId +
      if w.userId = userId then new.totalSpent - w.totalSpent else 0) :
    Reconcilable d' := by
  have hkept : ∀ id row, d.wallets.get? id = some row →
      ∃ row', d'.wallets.get? id = some row' ∧ row'.userId = row.userId := by
    intro id row hrow
    rw [hwallets, Db.get?_flushWallet, hrow]
    split_ifs
    · exact ⟨_, rfl, rfl⟩
    · exact ⟨row, rfl, rfl⟩
  refine ⟨haccounted, ?_, ?_, fun userId => ?_⟩
  · intro r' hr'
    rcases hreservations r' hr' with ⟨r, hr, hsame⟩ | ⟨hwallet, huser⟩
    · obtain ⟨row, hrow, huser⟩ := h.owned r hr
      obtain ⟨row', hrow', huser'⟩ := hkept r.walletId row hrow
      rw [Reservation.walletId_eq hsame, Reservation.userId_eq hsame]
      exact ⟨row', hrow', huser'.trans huser⟩
    · obtain ⟨row', hrow', huser'⟩ := hkept w.id w hw
      exact ⟨row', hwallet ▸ hrow', huser'.trans huser.symm⟩
  · intro w₁ hw₁ w₂ hw₂
    rw [hwallets] at hw₁ hw₂
    exact oneWalletPerUser_flushWallet h.unique w₁ hw₁ w₂ hw₂
  · have hspent : d'.userSpent userId = (d.flushWallet w new).userSpent userId := by
      simp only [Db.userSpent, hwallets]
    rw [hspent, userSpent_flushWallet hw hflush]
    exact hcovered userId

/-! ## The seven operations -/

theorem reconcilable_reserveWrite {d : Db} {ctx : CallContext} {req : ReserveRequest} {w : Wallet}
    (h : Reconcilable d) (ha : ReserveAccepted d ctx req w) :
    Reconcilable (reserveWrite none w (req.reservation ctx w) ctx d) := by
  obtain ⟨hw, huser⟩ := walletByUser_get? ha.wallet
  refine reconcilable_flushWallet h hw
    (Wallet.flush_row w (w.afterReserve (money req.amount)) rfl rfl rfl rfl) rfl (accounted_reserveWrite h.accounted ha) ?_ ?_
  · intro r' hr'
    rcases RowTable.mem_rows_insert hr' with hold | rfl
    · exact .inl ⟨r', hold, rfl⟩
    · exact .inr ⟨rfl, huser.symm⟩
  · intro userId
    refine (settledSpend_addLedger_of_not d _ rfl .user userId 0).trans_le ?_
    simp only [Wallet.afterReserve, sub_self, ite_self, add_zero]
    exact h.covered userId

theorem reconcilable_settleWrite {d : Db} {ctx : CallContext} {id : Uuid} {req : SettleRequest}
    {r : Reservation} {w : Wallet} (h : Reconcilable d) (ha : SettleAccepted d ctx id req r w)
    (budget : Option Budget) : Reconcilable (settleWrite r w budget req ctx d) := by
  have hw : d.wallets.get? w.id = some w := by
    rw [RowTable.get?_some_key ha.wallet]
    exact ha.wallet
  have hnonneg := ha.nonneg
  have huser : r.userId = w.userId := by
    obtain ⟨row, hrow, huser⟩ := h.owned r (RowTable.get?_some_mem ha.row)
    rw [← huser, Option.some.inj (hrow.symm.trans ha.wallet)]
  refine reconcilable_flushWallet h hw
    (Wallet.flush_row w (w.afterSettle r (money req.actualAmount)) rfl rfl rfl rfl)
    (wallets_settleWrite ..) (accounted_settleWrite h.accounted ha budget)
    ?_ ?_
  · intro r' hr'
    rw [reservations_settleWrite] at hr'
    exact .inl (identity_of_mem_flush hr')
  · intro userId
    have hcovered := h.covered userId
    have hspend : (if req.transactionType ∈ spendingTransactionTypes ∧ 0 ≤ ctx.now ∧
        r.scopeId .user = some userId then money req.actualAmount else 0) ≤
        if w.userId = userId then money req.actualAmount else 0 := by
      split_ifs with hcounted hmine hmine
      · exact le_rfl
      · exact absurd (huser ▸ Option.some.inj hcounted.2.2) hmine
      · exact hnonneg
      · exact le_rfl
    rw [settledSpend_settleWrite]
    simp only [Wallet.afterSettle, add_sub_cancel_left]
    omega

theorem reconcilable_releaseWrite {d : Db} {ctx : CallContext} {id : Uuid} {r : Reservation}
    {w : Wallet} (h : Reconcilable d) (ha : ReleaseAccepted d id r w) :
    Reconcilable (releaseWrite r w ctx d) := by
  have hw : d.wallets.get? w.id = some w := by
    rw [RowTable.get?_some_key ha.wallet]
    exact ha.wallet
  refine reconcilable_flushWallet h hw
    (Wallet.flush_row w (w.afterRelease r) rfl rfl rfl rfl) rfl (accounted_releaseWrite h.accounted ha)
    (fun r' hr' => .inl (identity_of_mem_flush hr')) fun userId => ?_
  rw [settledSpend_releaseWrite]
  simp only [Wallet.afterRelease, sub_self, ite_self, add_zero]
  exact h.covered userId

theorem settledSpend_creditWrite (w : Wallet) (t : WalletTransaction)
    (budget : Option (Budget × Budget)) (ctx : CallContext) (req : CreditRequest) (d : Db)
    (scope : ScopeType) (id : Uuid) (start : ℕ) :
    (creditWrite w t budget (topupLedger ctx req w t) d).settledSpend scope id start =
      d.settledSpend scope id start :=
  (settledSpend_addLedger_of_not _ _ rfl scope id start).trans
    (settledSpend_flushBudgetOf budget _ scope id start)

theorem wallets_creditWrite (w : Wallet) (t : WalletTransaction)
    (budget : Option (Budget × Budget)) (l : BillingLedger) (d : Db) :
    (creditWrite w t budget l d).wallets = (d.flushWallet w (w.afterCredit t.amount)).wallets :=
  wallets_flushBudgetOf budget _

theorem reservations_creditWrite (w : Wallet) (t : WalletTransaction)
    (budget : Option (Budget × Budget)) (l : BillingLedger) (d : Db) :
    (creditWrite w t budget l d).reservations = d.reservations :=
  reservations_flushBudgetOf budget _

theorem reconcilable_creditWrite {d : Db} {ctx : CallContext} {req : CreditRequest} {w : Wallet}
    (h : Reconcilable d) (ha : CreditAccepted d ctx req w) (budget : Option (Budget × Budget)) :
    Reconcilable (creditWrite w (creditTransaction ctx req w) budget
      (topupLedger ctx req w (creditTransaction ctx req w)) d) := by
  refine reconcilable_flushWallet h ha.wallet
    (Wallet.flush_row w (w.afterCredit req.amount) rfl rfl rfl rfl) (wallets_creditWrite ..)
    (accounted_creditWrite h.accounted ha budget _) ?_ fun userId => ?_
  · intro r' hr'
    rw [reservations_creditWrite] at hr'
    exact .inl ⟨r', hr', rfl⟩
  · rw [settledSpend_creditWrite]
    simp only [Wallet.afterCredit, sub_self, ite_self, add_zero]
    exact h.covered userId

/-- A debit stays reconcilable between its two commits, and after the second. -/
theorem reconcilable_debitWrite {d : Db} {ctx : CallContext} {req : CreditRequest} {w : Wallet}
    (h : Reconcilable d) (ha : DebitAccepted d ctx req w)
    (budget : Option (Budget × Budget)) :
    let t := debitTransaction ctx req w
    Reconcilable (debitWrite w t budget d) ∧
      Reconcilable ((debitWrite w t budget d).addLedger (debitLedger ctx req w t)) := by
  intro t
  have hpos := ha.positive
  have hwallets : (debitWrite w t budget d).wallets =
      (d.flushWallet w (w.afterDebit req.amount)).wallets := wallets_flushBudgetOf budget _
  have hreservations : (debitWrite w t budget d).reservations = d.reservations :=
    reservations_flushBudgetOf budget _
  have hspend : ∀ userId, (debitWrite w t budget d).settledSpend .user userId 0 =
      d.settledSpend .user userId 0 := fun userId => settledSpend_flushBudgetOf budget _ _ _ _
  have hkept : ∀ r' ∈ (debitWrite w t budget d).reservations.rows,
      (∃ r ∈ d.reservations.rows, r'.identity = r.identity) ∨
        (r'.walletId = w.id ∧ r'.userId = w.userId) := by
    intro r' hr'
    rw [hreservations] at hr'
    exact .inl ⟨r', hr', rfl⟩
  have hbooks := accounted_debitWrite h.accounted ha budget
  have hflush := Wallet.flush_row w (w.afterDebit req.amount) rfl rfl rfl rfl
  constructor
  · refine reconcilable_flushWallet h ha.wallet hflush hwallets hbooks hkept fun userId => ?_
    have hcovered := h.covered userId
    rw [hspend]
    simp only [Wallet.afterDebit, add_sub_cancel_left]
    split_ifs
    · omega
    · omega
  · refine reconcilable_flushWallet h ha.wallet hflush hwallets (accounted_addLedger hbooks _)
      hkept fun userId => ?_
    have hcovered := h.covered userId
    rw [settledSpend_addLedger, hspend]
    simp only [Wallet.afterDebit, add_sub_cancel_left, debitLedger, BillingLedger.scopeId, scopeId,
      ha.user, Option.some.injEq]
    split_ifs with hcounted hmine hmine
    · exact add_le_add hcovered le_rfl
    · exact absurd hcounted.2.2 hmine
    · omega
    · omega

/-- A refund that is accepted leaves at least the settled spend in `total_spent`. -/
def RefundCovered (d : Db) : WalletOperation → Prop
  | .refundTransaction ctx userId transactionId _ =>
      ∀ original ∈ d.transactions.get? transactionId, ∀ w ∈ d.walletByUser userId,
        RefundAccepted d ctx userId original w →
        d.settledSpend .user userId 0 + original.amount ≤ w.totalSpent
  | _ => True

instance (d : Db) : ∀ o, Decidable (RefundCovered d o)
  | .refundTransaction _ userId transactionId _ =>
      inferInstanceAs (Decidable (∀ original ∈ d.transactions.get? transactionId,
        ∀ w ∈ d.walletByUser userId, _))
  | .addCredit _ _ => .isTrue trivial
  | .deductCredit _ _ => .isTrue trivial
  | .metered _ => .isTrue trivial

theorem reconcilable_refundWrite {d : Db} {ctx : CallContext} {userId : Uuid} {reason : String}
    {original : WalletTransaction} {w : Wallet} (h : Reconcilable d)
    (ha : RefundAccepted d ctx userId original w)
    (hcovered : d.settledSpend .user userId 0 + original.amount ≤ w.totalSpent)
    (budget : Option (Budget × Budget)) :
    Reconcilable (refundWrite w (refundTransactionRow ctx reason original w) budget
      (refundLedger ctx userId original w) d) := by
  obtain ⟨hget, huser⟩ := walletByUser_get? ha.user
  have hmem := RowTable.get?_some_mem hget
  refine reconcilable_flushWallet h hget
    (Wallet.flush_row w (w.afterRefund original.amount) rfl rfl rfl rfl) (wallets_flushBudgetOf budget _)
    (accounted_refundWrite h.accounted ha budget) ?_ fun other => ?_
  · intro r' hr'
    have hsame : (refundWrite w (refundTransactionRow ctx reason original w) budget
        (refundLedger ctx userId original w) d).reservations = d.reservations :=
      reservations_flushBudgetOf budget _
    rw [hsame] at hr'
    exact .inl ⟨r', hr', rfl⟩
  · have hspend : (refundWrite w (refundTransactionRow ctx reason original w) budget
        (refundLedger ctx userId original w) d).settledSpend .user other 0 =
        d.settledSpend .user other 0 :=
      (settledSpend_addLedger_of_not _ _ rfl .user other 0).trans
        (settledSpend_flushBudgetOf budget _ _ _ _)
    rw [hspend]
    simp only [Wallet.afterRefund]
    split_ifs with hmine
    · rw [← hmine, userSpent_eq h.unique hmem, huser]
      omega
    · simpa only [add_zero] using h.covered other

theorem runWallet_keeps_reconcilable (o : WalletOperation) {d : Db} (h : Reconcilable d)
    (hrefund : RefundCovered d o) : (runWallet o).Keeps Reconcilable d (fun _ _ => True) := by
  have hfirst : ∀ (ctx : CallContext) (userId : Uuid), d.walletByUser userId = none →
      d.wallets.get? ctx.newWalletId = none →
      Reconcilable (d.addWallet (firstWallet ctx userId)) := fun ctx userId hnone hid =>
    reconcilable_addWallet h hid hnone rfl rfl rfl rfl
  cases o with
  | addCredit ctx req =>
      exact keeps_ignore.mpr ((keeps_addCredit h (hfirst ctx req.userId)
        fun w hd ha => reconcilable_creditWrite hd ha _).mono fun _ _ _ => trivial)
  | deductCredit ctx req =>
      exact keeps_ignore.mpr ((keeps_deductCredit h (hfirst ctx req.userId)
        fun w hd ha => reconcilable_debitWrite hd ha _).mono fun _ _ _ => trivial)
  | refundTransaction ctx user id reason =>
      refine keeps_ignore.mpr ((keeps_refundTransaction ?_).mono fun _ _ _ => trivial)
      intro original w hid ha
      exact reconcilable_refundWrite h ha (hrefund original (hid ▸ ha.row) w ha.user ha) _
  | metered o =>
      cases o with
      | reserve ctx req =>
          exact keeps_ignore.mpr (keeps_reserve h (fun _ _ => trivial)
            fun w ha => ⟨reconcilable_reserveWrite h ha, trivial⟩)
      | settle ctx id req =>
          exact keeps_ignore.mpr (keeps_settle (fun _ _ _ => trivial)
            fun r w ha => ⟨reconcilable_settleWrite h ha _, trivial⟩)
      | release ctx id =>
          exact keeps_ignore.mpr (keeps_release (fun _ _ _ => trivial)
            fun r w ha => ⟨reconcilable_releaseWrite h ha, trivial⟩)
      | expireReservations ctx limit =>
          exact keeps_ignore.mpr ((keeps_expireReservations h
            fun d id r w hd ha => reconcilable_releaseWrite hd ha).mono fun _ _ _ => trivial)

/-! ## Serial runs -/

/-- Fresh wallets, at most one for each user, and nothing settled yet. -/
structure FreshBooks (d : Db) : Prop extends FreshWallets d where
  unique : OneWalletPerUser d
  ledger : d.ledger = []

theorem FreshBooks.reconcilable {d : Db} (h : FreshBooks d) : Reconcilable d := by
  refine ⟨h.accounted, ?_, h.unique, fun userId => ?_⟩
  · simp [WellOwned, h.reservations]
  · have hspent : d.userSpent userId = 0 := RowTable.total_eq_zero fun w hw => by
      simp [(h.wallets w hw).2.2.1]
    simp [Db.settledSpend, h.ledger, hspent]

/-- In every state of a run whose refunds are covered, the report of a user
without expired reservations is clean. -/
theorem reconcileWallet_ok {d₀ d : Db} {ops : List WalletOperation} (hfresh : FreshBooks d₀)
    (hrun : SerialRun runWallet RefundCovered d₀ ops d) (now : ℕ) (userId : Uuid)
    (hexpired : ∀ r ∈ d.reservations.rows, r.status = .reserved → now < r.expiresAt) :
    ∃ report, (reconcileWallet now userId).exec d = (.ok report, d) ∧ report.ok = true ∧
      report.mismatches = [] := by
  have h : Reconcilable d := hrun.invariant hfresh.reconcilable
    fun d o hd hok => runWallet_keeps_reconcilable o hd hok
  simp only [reconcileWallet, exec_bind, query, exec]
  cases hw : d.walletByUser userId with
  | none => exact ⟨_, rfl, rfl, rfl⟩
  | some w =>
      obtain ⟨hget, huser⟩ := walletByUser_get? hw
      have hmem := RowTable.get?_some_mem hget
      have hb := h.accounted.wallets w hmem
      have hcount : d.expiredCount w.id now = 0 := by
        rw [Db.expiredCount, List.length_eq_zero_iff, List.filter_eq_nil_iff]
        intro r hr hc
        have hc := of_decide_eq_true hc
        exact absurd hc.2.2 (not_le.mpr (hexpired r hr hc.2.1))
      have hclean : walletMismatches w (d.settledSpend .user userId 0) (d.outstanding w.id)
          (d.expiredCount w.id now) = [] := by
        refine walletMismatches_eq_nil.mpr ⟨hb.reserved, ?_, ⟨hb.nonneg, ?_⟩, hcount⟩
        · have hcovered := h.covered userId
          rwa [← huser, userSpent_eq h.unique hmem, huser] at hcovered
        · exact hb.reserved ▸ outstanding_nonneg h.accounted w.id
      refine ⟨_, rfl, ?_, hclean⟩
      simp only [hclean, List.isEmpty_nil]

theorem freshBooks_empty : FreshBooks {} where
  wallets := by simp [default]
  reservations := rfl
  transactions := rfl
  unique := by simp [OneWalletPerUser, default]
  ledger := rfl

/-- Top up 10.0000, settle 6 as an adjustment, deduct 1.5000 and refund that. -/
def adjustedDay : List WalletOperation :=
  let user : Uuid := ⟨"u"⟩
  let at_ : ℕ → String → CallContext := fun now id => ⟨now, ⟨id⟩, ⟨"w"⟩⟩
  [.addCredit (at_ 1 "t1") { userId := user, amount := 100000, reason := "top-up" },
   .metered (.reserve (at_ 2 "r1")
     { userId := user, amount := 6, requestId := "q1", idempotencyKey := "k1" }),
   .metered (.settle (at_ 3 "s1") ⟨"r1"⟩ { actualAmount := 6, transactionType := .adjustment }),
   .deductCredit (at_ 4 "t2") { userId := user, amount := 15000, reason := "usage" },
   .refundTransaction (at_ 5 "t3") user ⟨"t2"⟩ "mistake"]

theorem reconcileWallet_ok_adjustedDay :
    ∃ report, (reconcileWallet 6 ⟨"u"⟩).exec (execAll runWallet adjustedDay {}) =
        (.ok report, execAll runWallet adjustedDay {}) ∧
      report.ok = true ∧ report.mismatches = [] :=
  reconcileWallet_ok freshBooks_empty (serialRun_execAll (by decide +kernel)) 6 ⟨"u"⟩
    (by decide +kernel)

/-- After the refund of `meteredDay` the wallet has spent 6 where the ledger has
settled 7.5000. -/
theorem reconcileWallet_alarm_afterRefund :
    ¬ ∀ (d₀ d : Db) (ops : List WalletOperation) (now : ℕ) (userId : Uuid), FreshBooks d₀ →
      SerialRun runWallet (fun _ _ => True) d₀ ops d →
      (∀ r ∈ d.reservations.rows, r.status = .reserved → now < r.expiresAt) →
      ∃ report, (reconcileWallet now userId).exec d = (.ok report, d) ∧ report.ok = true ∧
        report.mismatches = [] := by
  intro h
  have hok : Admits runWallet (fun _ _ => True) meteredDay {} := by simp [meteredDay, Admits]
  obtain ⟨report, hexec, -, hclean⟩ := h {} _ meteredDay 6 ⟨"u"⟩ freshBooks_empty
    (serialRun_execAll hok) (by decide +kernel)
  have halarm : ((reconcileWallet 6 ⟨"u"⟩).exec (execAll runWallet meteredDay {})).1.toOption.map
      ReconcileReport.mismatches = some ["total_spent"] := by
    decide +kernel
  rw [hexec] at halarm
  exact absurd (hclean.symm.trans (Option.some.inj halarm)) (by decide)

end Zyntry
