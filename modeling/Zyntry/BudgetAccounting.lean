import Zyntry.WalletConservation

/-!
# What a budget counts

`current_spend` should be what has been settled and debited, less what has been
refunded, since the last reset. Every operation that moves money writes it under
guards of its own; `SpendTracked` is the state in which they agree.
-/

namespace Zyntry

open SqlProgram

/-! ## The spend that the ledger shows -/

/-- What the settled reservations of a user came to. -/
def Db.settledMetered (d : Db) (userId : Uuid) : ℤ :=
  d.reservations.total (fun r =>
    if r.userId = userId ∧ r.status = .settled then r.settledAmount.getD 0 else 0)

/-- What a transaction counts for `get_derived_spend`. -/
def WalletTransaction.derivedSpend (t : WalletTransaction) : ℤ :=
  match t.type with
  | .debit => t.amount
  | .refund => -t.amount
  | _ => 0

/-- `get_derived_spend` of the budget reconciliation script. -/
def Db.derivedSpend (d : Db) (userId : Uuid) : ℤ :=
  d.transactions.total (fun t =>
    if (d.wallets.get? t.walletId).map Wallet.userId = some userId then t.derivedSpend else 0)

def Db.budgetedSpend (d : Db) (userId : Uuid) : ℤ := d.settledMetered userId + d.derivedSpend userId

def Db.currentSpend (d : Db) (userId : Uuid) : Option ℤ :=
  (d.budgets.get? userId).map Budget.currentSpend

/-! ## How the spends react to each write -/

theorem settledMetered_addReservation {d : Db} {r : Reservation}
    (hid : d.reservations.get? r.id = none) (hreserved : r.status = .reserved) (userId : Uuid) :
    (d.addReservation r).settledMetered userId = d.settledMetered userId := by
  refine (RowTable.total_insert hid _).trans ?_
  simp only [hreserved, reduceCtorEq, and_false, if_false, add_zero, Db.settledMetered]

theorem settledMetered_flushReservation {d : Db} {r : Reservation} (new : Reservation)
    (hr : d.reservations.get? r.id = some r) (hreserved : r.status = .reserved) (userId : Uuid) :
    (d.flushReservation r new).settledMetered userId = d.settledMetered userId +
      if r.userId = userId ∧ new.status = .settled then new.settledAmount.getD 0 else 0 := by
  refine (Db.total_flushReservation new hr _).trans ?_
  simp only [Reservation.flush, changed_row, hreserved, reduceCtorEq, and_false, if_false, sub_zero,
    Db.settledMetered]

/-- Every transaction lies in a wallet. -/
def WalletsReferenced (d : Db) : Prop :=
  ∀ t ∈ d.transactions.rows, (d.wallets.get? t.walletId).isSome

theorem get?_flushWallet_userId (d : Db) (w new : Wallet) (id : Uuid) :
    ((d.flushWallet w new).wallets.get? id).map Wallet.userId =
      (d.wallets.get? id).map Wallet.userId := by
  rw [Db.get?_flushWallet]
  split_ifs
  · rw [Option.map_map]
    rfl
  · rfl

theorem derivedSpend_flushWallet (d : Db) (w new : Wallet) (userId : Uuid) :
    (d.flushWallet w new).derivedSpend userId = d.derivedSpend userId := by
  refine RowTable.total_congr (t := d.transactions) fun t _ => ?_
  rw [get?_flushWallet_userId]

theorem derivedSpend_addTransaction {d : Db} {t : WalletTransaction} {w : Wallet}
    (hid : d.transactions.get? t.id = none) (hw : d.wallets.get? t.walletId = some w)
    (userId : Uuid) : (d.addTransaction t).derivedSpend userId = d.derivedSpend userId +
      if w.userId = userId then t.derivedSpend else 0 := by
  refine (RowTable.total_insert hid _).trans ?_
  have huser : (d.addTransaction t).wallets.get? t.walletId = some w := hw
  simp only [huser, Option.map_some, Option.some.injEq]
  rfl

theorem derivedSpend_addWallet {d : Db} (h : WalletsReferenced d) (w : Wallet) (userId : Uuid) :
    (d.addWallet w).derivedSpend userId = d.derivedSpend userId := by
  refine RowTable.total_congr (t := d.transactions) fun t ht => ?_
  obtain ⟨row, hrow⟩ := Option.isSome_iff_exists.mp (h t ht)
  have hkept : (d.addWallet w).wallets.get? t.walletId = some row :=
    RowTable.get?_insert_of_some hrow
  rw [hkept, hrow]

theorem currentSpend_flushBudget {d : Db} {b new : Budget} (hb : d.budgets.get? b.userId = some b)
    (userId : Uuid) : (d.flushBudget b new).currentSpend userId =
      if userId = b.userId then some new.currentSpend else d.currentSpend userId := by
  rw [Db.currentSpend, Db.get?_flushBudget]
  split_ifs with h
  · subst h
    simp [hb, Budget.flush]
  · rfl

theorem currentSpend_flushBudgetSettings {d : Db} {b new : Budget} {of : Uuid}
    (hb : d.budgets.get? of = some b) (userId : Uuid) :
    (d.flushBudgetSettings b new).currentSpend userId = d.currentSpend userId := by
  have hkey : b.userId = of := RowTable.get?_some_key hb
  by_cases h : userId = b.userId
  · subst h
    refine (congrArg (Option.map Budget.currentSpend) (RowTable.get?_update_self d.budgets b.userId
      (Budget.flushSettings b new) (fun _ => rfl))).trans ?_
    rw [Option.map_map]
    rfl
  · exact congrArg (Option.map Budget.currentSpend)
      (RowTable.get?_update_of_ne d.budgets h (Budget.flushSettings b new) (fun _ => rfl))

/-! ## The invariant -/

/-- The budget of a user counts what the user has spent beyond `base`. -/
structure BudgetKept (base : ℤ) (userId : Uuid) (d : Db) : Prop where
  referenced : WalletsReferenced d
  spend : ∀ spend, d.currentSpend userId = some spend → spend = d.budgetedSpend userId - base

section

variable {base : ℤ} {userId : Uuid} {d : Db}

theorem budgetKept_addLedger (h : BudgetKept base userId d) (l : BillingLedger) :
    BudgetKept base userId (d.addLedger l) := ⟨h.referenced, h.spend⟩

theorem budgetKept_addWallet (h : BudgetKept base userId d) (w : Wallet) :
    BudgetKept base userId (d.addWallet w) := by
  refine ⟨fun t ht => ?_, fun spend hspend => ?_⟩
  · obtain ⟨row, hrow⟩ := Option.isSome_iff_exists.mp (h.referenced t ht)
    exact Option.isSome_iff_exists.mpr ⟨row, RowTable.get?_insert_of_some hrow⟩
  · rw [Db.budgetedSpend, derivedSpend_addWallet h.referenced]
    exact h.spend spend hspend

/-- A commit that writes no transaction: the reservations account for the change. -/
theorem budgetKept_metered {d' : Db} (w new : Wallet) (h : BudgetKept base userId d)
    (hwallets : d'.wallets = (d.flushWallet w new).wallets)
    (htransactions : d'.transactions = d.transactions) (added : ℤ)
    (hmetered : d'.settledMetered userId = d.settledMetered userId + added)
    (hspend : d'.currentSpend userId = (d.currentSpend userId).map (· + added)) :
    BudgetKept base userId d' := by
  refine ⟨fun t ht => ?_, fun spend hs => ?_⟩
  · rw [htransactions] at ht
    rw [hwallets]
    exact isSome_get?_flushWallet (h.referenced t ht)
  · have hderived : d'.derivedSpend userId = d.derivedSpend userId := by
      rw [← derivedSpend_flushWallet d w new]
      simp only [Db.derivedSpend, hwallets, htransactions]
      rfl
    rw [hspend, Option.map_eq_some_iff] at hs
    obtain ⟨old, hold, rfl⟩ := hs
    have hbefore := h.spend old hold
    simp only [Db.budgetedSpend, hmetered, hderived] at hbefore ⊢
    omega

theorem budgetKept_reserveWrite {ctx : CallContext} {req : ReserveRequest} {w : Wallet}
    (h : BudgetKept base userId d) (ha : ReserveAccepted d ctx req w) :
    BudgetKept base userId (reserveWrite none w (req.reservation ctx w) ctx d) := by
  refine budgetKept_metered w (w.afterReserve (money req.amount)) h rfl rfl 0 ?_ ?_
  · rw [add_zero]
    exact settledMetered_addReservation (r := req.reservation ctx w) ha.idFree rfl userId
  · simp only [add_zero, Option.map_id']
    rfl

theorem budgetKept_settleWrite {ctx : CallContext} {id : Uuid} {req : SettleRequest}
    {r : Reservation} {w : Wallet} (h : BudgetKept base userId d)
    (ha : SettleAccepted d ctx id req r w) :
    BudgetKept base userId (settleWrite r w (d.budgets.get? r.userId) req ctx d) := by
  have hr : d.reservations.get? r.id = some r := by
    rw [RowTable.get?_some_key ha.row]
    exact ha.row
  refine budgetKept_metered _ _ h (wallets_settleWrite ..) (transactions_settleWrite ..)
    (if r.userId = userId then money req.actualAmount else 0) ?_ ?_
  · simp only [Db.settledMetered, reservations_settleWrite]
    refine (settledMetered_flushReservation (r.afterSettle (money req.actualAmount)) hr ha.reserved
      userId).trans ?_
    simp only [Reservation.afterSettle, and_true, Option.getD_some]
    rfl
  · rw [Db.currentSpend, budgets_settleWrite]
    cases hb : d.budgets.get? r.userId with
    | none =>
        split_ifs with huser
        · subst huser
          simp [flushBudgetOf, Db.currentSpend, hb]
        · simp [flushBudgetOf, Db.currentSpend, Function.comp_def]
    | some b =>
        have hkey : b.userId = r.userId := RowTable.get?_some_key hb
        refine (currentSpend_flushBudget (hkey ▸ hb) userId).trans ?_
        split_ifs with hmine huser huser
        · subst hmine
          simp [Db.currentSpend, hkey, hb, Budget.afterSettle]
        · exact absurd (hkey.symm.trans hmine.symm) huser
        · exact absurd (huser.symm.trans hkey.symm) hmine
        · simp

theorem budgetKept_releaseWrite {ctx : CallContext} {id : Uuid} {r : Reservation} {w : Wallet}
    (h : BudgetKept base userId d) (ha : ReleaseAccepted d id r w) :
    BudgetKept base userId (releaseWrite r w ctx d) := by
  have hr : d.reservations.get? r.id = some r := by
    rw [RowTable.get?_some_key ha.row]
    exact ha.row
  refine budgetKept_metered w (w.afterRelease r) h rfl rfl 0 ?_ ?_
  · refine (settledMetered_flushReservation r.afterRelease hr ha.reserved userId).trans ?_
    simp [Reservation.afterRelease]
  · simp only [add_zero, Option.map_id']
    rfl

/-- A credit, a debit or a refund: the new transaction and the new budget agree. -/
theorem budgetKept_transaction {t : WalletTransaction} {w w' : Wallet}
    {budget : Option (Budget × Budget)} (h : BudgetKept base userId d)
    (hid : d.transactions.get? t.id = none) (hw : d.wallets.get? w.id = some w)
    (htw : t.walletId = w.id)
    (hspend : ∀ spend, (flushBudgetOf budget d).currentSpend userId = some spend →
      spend = d.budgetedSpend userId + (if w.userId = userId then t.derivedSpend else 0) - base) :
    BudgetKept base userId (flushBudgetOf budget ((d.addTransaction t).flushWallet w w')) := by
  refine ⟨fun t' ht' => ?_, fun spend hs => ?_⟩
  · have ht' : t' ∈ (d.addTransaction t).transactions.rows := by
      cases budget <;> exact ht'
    rw [wallets_flushBudgetOf]
    refine isSome_get?_flushWallet ?_
    rcases RowTable.mem_rows_insert ht' with hold | rfl
    · exact h.referenced t' hold
    · exact Option.isSome_iff_exists.mpr ⟨w, htw ▸ hw⟩
  · have hbudgeted : (flushBudgetOf budget ((d.addTransaction t).flushWallet w w')
        ).budgetedSpend userId =
        d.budgetedSpend userId + if w.userId = userId then t.derivedSpend else 0 := by
      have hadded := derivedSpend_addTransaction hid (htw ▸ hw) userId
      rw [← derivedSpend_flushWallet (d.addTransaction t) w w'] at hadded
      refine Eq.trans ?_ (congrArg (d.settledMetered userId + ·) hadded) |>.trans
        (add_assoc _ _ _).symm
      cases budget <;> rfl
    have hsame : (flushBudgetOf budget ((d.addTransaction t).flushWallet w w')).currentSpend userId =
        (flushBudgetOf budget d).currentSpend userId := by
      cases budget <;> rfl
    rw [hbudgeted]
    exact hspend spend (hsame ▸ hs)

/-- The loaded budget is the row of `of`, and its spend changes by `change`. -/
theorem spend_flushBudgetOf {of : Uuid} {budget : Option (Budget × Budget)} {change : ℤ}
    (h : BudgetKept base userId d)
    (hloaded : ∀ b ∈ budget, d.budgets.get? of = some b.1)
    (hchange : of = userId → ∀ b ∈ d.budgets.get? of,
      ((budget.map Prod.snd).getD b).currentSpend = b.currentSpend + change) :
    ∀ after, (flushBudgetOf budget d).currentSpend userId = some after →
      after = d.budgetedSpend userId + (if of = userId then change else 0) - base := by
  intro after hafter
  by_cases huser : of = userId
  · subst huser
    rw [if_pos rfl]
    cases hb : d.budgets.get? of with
    | none =>
        cases budget with
        | none => simp [flushBudgetOf, Db.currentSpend, hb] at hafter
        | some b => simp [hb] at hloaded
    | some b =>
        have hkey : b.userId = of := RowTable.get?_some_key hb
        have hbefore := h.spend b.currentSpend (by simp [Db.currentSpend, hb])
        have hvalue := hchange rfl b hb
        suffices hnew : after = ((budget.map Prod.snd).getD b).currentSpend by omega
        cases budget with
        | none => simpa [flushBudgetOf, Db.currentSpend, hb] using hafter.symm
        | some b' =>
            have hsame : b = b'.1 := Option.some.inj (hb.symm.trans (hloaded b' rfl))
            rw [flushBudgetOf, ← hsame, currentSpend_flushBudget (hkey ▸ hb), if_pos hkey.symm]
              at hafter
            exact (Option.some.inj hafter).symm
  · rw [if_neg huser, add_zero]
    refine h.spend after ?_
    rw [← hafter]
    cases budget with
    | none => rfl
    | some b =>
        have hb := hloaded b rfl
        have hkey : b.1.userId = of := RowTable.get?_some_key hb
        rw [flushBudgetOf, currentSpend_flushBudget (hkey ▸ hb),
          if_neg fun he => huser (hkey.symm.trans he.symm)]

theorem loaded_reopenedBudget {budget : Option Budget} {balanceAfter spend : ℤ} :
    ∀ b ∈ reopenedBudget budget balanceAfter spend, budget = some b.1 := by
  intro b hb
  cases budget with
  | none => simp [reopenedBudget] at hb
  | some loaded =>
      simp only [reopenedBudget, Option.mem_ite_none_right] at hb
      rw [← Option.some.inj hb.2]

theorem budgetKept_creditWrite {ctx : CallContext} {req : CreditRequest} {w : Wallet}
    (h : BudgetKept base userId d) (ha : CreditAccepted d ctx req w)
    (hzero : req.userId = userId → ∀ b ∈ d.budgets.get? userId, b.limitReached = true →
      0 < w.balance + req.amount → b.currentSpend = 0) :
    BudgetKept base userId (creditWrite w (creditTransaction ctx req w)
      (reopenedBudget (d.budgets.get? req.userId) (w.balance + req.amount) 0)
      (topupLedger ctx req w (creditTransaction ctx req w)) d) := by
  refine budgetKept_addLedger (budgetKept_transaction h ha.idFree ha.wallet rfl ?_) _
  rw [ha.user]
  refine spend_flushBudgetOf h loaded_reopenedBudget fun huser b hb => ?_
  have hzero := hzero huser b (huser ▸ hb)
  rw [Option.mem_def.mp hb, reopenedBudget]
  split_ifs with hreached
  · exact (hzero hreached.1 hreached.2).symm.trans (add_zero _).symm
  · exact (add_zero _).symm

theorem budgetKept_refundWrite {ctx : CallContext} {of : Uuid} {reason : String}
    {original : WalletTransaction} {w : Wallet} (h : BudgetKept base userId d)
    (ha : RefundAccepted d ctx of original w)
    (hreached : of = userId → ∀ b ∈ d.budgets.get? userId, b.limitReached = true ∧
      0 < w.balance + original.amount ∧ original.amount ≤ b.currentSpend) :
    BudgetKept base userId (refundWrite w (refundTransactionRow ctx reason original w)
      (reopenedBudget (d.budgets.get? of) (w.balance + original.amount)
        (max 0 (((d.budgets.get? of).map Budget.currentSpend).getD 0 - original.amount)))
      (refundLedger ctx of original w) d) := by
  obtain ⟨hw, huser⟩ := walletByUser_get? ha.user
  refine budgetKept_addLedger (budgetKept_transaction h ha.idFree hw rfl ?_) _
  rw [huser]
  refine spend_flushBudgetOf h loaded_reopenedBudget fun hof b hb => ?_
  obtain ⟨hlimit, hpositive, hamount⟩ := hreached hof b (hof ▸ hb)
  rw [Option.mem_def.mp hb, reopenedBudget, if_pos ⟨hlimit, hpositive⟩]
  simp only [Option.map_some, Option.getD_some, WalletTransaction.derivedSpend,
    refundTransactionRow]
  omega

theorem loaded_spentBudget {budget : Option Budget} {amount : ℤ} :
    ∀ b ∈ spentBudget budget amount, budget = some b.1 := by
  intro b hb
  cases budget with
  | none => simp [spentBudget] at hb
  | some loaded =>
      cases hlimit : loaded.monthlyLimit with
      | none => simp [spentBudget, hlimit] at hb
      | some limit =>
          simp only [spentBudget, hlimit, Option.mem_def, Option.some.injEq] at hb
          rw [← hb]

theorem budgetAlert_currentSpend (b : Budget) (limit : ℤ) :
    ((budgetAlert b limit).getD b).currentSpend = b.currentSpend := by
  unfold budgetAlert
  split_ifs <;> rfl

theorem budgetKept_debitWrite {ctx : CallContext} {req : CreditRequest} {w : Wallet}
    (h : BudgetKept base userId d) (ha : DebitAccepted d ctx req w)
    (hlimit : req.userId = userId → ∀ b ∈ d.budgets.get? userId, b.monthlyLimit ≠ none) :
    BudgetKept base userId (debitWrite w (debitTransaction ctx req w)
      (spentBudget (d.budgets.get? req.userId) req.amount) d) := by
  refine budgetKept_transaction h ha.idFree ha.wallet rfl ?_
  rw [ha.user]
  refine spend_flushBudgetOf h loaded_spentBudget fun huser b hb => ?_
  obtain ⟨limit, hlimit⟩ := Option.ne_none_iff_exists'.mp (hlimit huser b (huser ▸ hb))
  rw [Option.mem_def.mp hb, spentBudget, hlimit]
  exact budgetAlert_currentSpend (b.spend req.amount) limit

end

/-! ## The runs -/

inductive BudgetOperation where
  | wallet (o : WalletOperation)
  | createOrUpdateBudget (userId : Uuid) (body : BudgetCreate)

def runBudget : BudgetOperation → Sql Unit
  | .wallet o => runWallet o
  | .createOrUpdateBudget userId body => (createOrUpdateBudget userId body).ignore

/-- The steps at which `current_spend` follows the money: a debit that is accepted
finds a monthly limit, a top-up finds nothing to wipe out, a refund finds a budget
that is exhausted by at least its amount, and a budget is created before anything
is spent. -/
def SpendTracked (base : ℤ) (userId : Uuid) (d : Db) : BudgetOperation → Prop
  | .wallet (.addCredit ctx req) => req.userId = userId →
      ∀ w ∈ (d.openWallet ctx userId).walletByUser userId,
        CreditAccepted (d.openWallet ctx userId) ctx req w →
        ∀ b ∈ d.budgets.get? userId, b.limitReached = true → 0 < w.balance + req.amount →
          b.currentSpend = 0
  | .wallet (.deductCredit ctx req) => req.userId = userId →
      ∀ w ∈ (d.openWallet ctx userId).walletByUser userId,
        DebitAccepted (d.openWallet ctx userId) ctx req w →
        ∀ b ∈ d.budgets.get? userId, b.monthlyLimit ≠ none
  | .wallet (.refundTransaction ctx of transactionId _) => of = userId →
      ∀ original ∈ d.transactions.get? transactionId, ∀ w ∈ d.walletByUser userId,
        RefundAccepted d ctx userId original w →
        ∀ b ∈ d.budgets.get? userId, b.limitReached = true ∧ 0 < w.balance + original.amount ∧
          original.amount ≤ b.currentSpend
  | .wallet (.metered _) => True
  | .createOrUpdateBudget of _ => of = userId → d.budgets.get? userId = none →
      d.budgetedSpend userId = base

instance (base : ℤ) (userId : Uuid) (d : Db) : ∀ o, Decidable (SpendTracked base userId d o)
  | .wallet (.addCredit ctx req) => inferInstanceAs (Decidable (req.userId = userId →
      ∀ w ∈ (d.openWallet ctx userId).walletByUser userId, _ → ∀ b ∈ d.budgets.get? userId, _))
  | .wallet (.deductCredit ctx req) => inferInstanceAs (Decidable (req.userId = userId →
      ∀ w ∈ (d.openWallet ctx userId).walletByUser userId, _ → ∀ b ∈ d.budgets.get? userId, _))
  | .wallet (.refundTransaction _ of transactionId _) => inferInstanceAs (Decidable (of = userId →
      ∀ original ∈ d.transactions.get? transactionId, ∀ w ∈ d.walletByUser userId, _ →
        ∀ b ∈ d.budgets.get? userId, _))
  | .wallet (.metered _) => .isTrue trivial
  | .createOrUpdateBudget of _ => inferInstanceAs (Decidable (of = userId → _ → _))

theorem budgets_openWallet (d : Db) (ctx : CallContext) (userId : Uuid) :
    (d.openWallet ctx userId).budgets = d.budgets := by
  unfold Db.openWallet
  split <;> rfl

theorem runBudget_keeps_budgetKept {base : ℤ} {userId : Uuid} (o : BudgetOperation) {d : Db}
    (h : BudgetKept base userId d) (htracked : SpendTracked base userId d o) :
    (runBudget o).Keeps (BudgetKept base userId) d (fun _ _ => True) := by
  cases o with
  | createOrUpdateBudget of body =>
      refine keeps_ignore.mpr ((keeps_createOrUpdateBudget ?_ ?_).mono fun _ _ _ => trivial)
      · intro b hb
        refine ⟨h.referenced, fun spend hs => h.spend spend (hs ▸ ?_)⟩
        exact (currentSpend_flushBudgetSettings hb userId).symm
      · intro hnone
        refine ⟨h.referenced, fun spend hs => ?_⟩
        by_cases huser : userId = of
        · subst huser
          have hzero : (d.addBudget (({ userId } : Budget).configure body)).currentSpend userId =
              some 0 := congrArg (Option.map Budget.currentSpend) (RowTable.get?_insert_self hnone)
          have hbase : d.budgetedSpend userId = base := htracked rfl hnone
          rw [← Option.some.inj (hzero.symm.trans hs)]
          exact (sub_eq_zero.mpr hbase).symm
        · refine h.spend spend ?_
          rw [← hs, Db.currentSpend, Db.currentSpend]
          exact congrArg (Option.map Budget.currentSpend)
            (RowTable.get?_insert_of_ne d.budgets huser).symm
  | wallet o =>
      cases o with
      | addCredit ctx req =>
          refine keeps_ignore.mpr ((keeps_addCredit h (fun _ _ => budgetKept_addWallet h _)
            fun w hd ha => budgetKept_creditWrite hd ha ?_).mono fun _ _ _ => trivial)
          rintro rfl b hb
          rw [budgets_openWallet] at hb
          exact htracked rfl w ha.found ha b hb
      | deductCredit ctx req =>
          refine keeps_ignore.mpr ((keeps_deductCredit h (fun _ _ => budgetKept_addWallet h _)
            fun w hd ha => ?_).mono fun _ _ _ => trivial)
          have hdebited := budgetKept_debitWrite hd ha ?_
          · exact ⟨hdebited, budgetKept_addLedger hdebited _⟩
          · rintro rfl b hb
            rw [budgets_openWallet] at hb
            exact htracked rfl w ha.found ha b hb
      | refundTransaction ctx of id reason =>
          refine keeps_ignore.mpr ((keeps_refundTransaction fun original w hid ha =>
            budgetKept_refundWrite h ha ?_).mono fun _ _ _ => trivial)
          rintro rfl
          exact htracked rfl original (hid ▸ ha.row) w ha.user ha
      | metered o =>
          cases o with
          | reserve ctx req =>
              exact keeps_ignore.mpr (keeps_reserve h (fun _ _ => trivial)
                fun w ha => ⟨budgetKept_reserveWrite h ha, trivial⟩)
          | settle ctx id req =>
              exact keeps_ignore.mpr (keeps_settle (fun _ _ _ => trivial)
                fun r w ha => ⟨budgetKept_settleWrite h ha, trivial⟩)
          | release ctx id =>
              exact keeps_ignore.mpr (keeps_release (fun _ _ _ => trivial)
                fun r w ha => ⟨budgetKept_releaseWrite h ha, trivial⟩)
          | expireReservations ctx limit =>
              exact keeps_ignore.mpr ((keeps_expireReservations h
                fun d id r w hd ha => budgetKept_releaseWrite hd ha).mono fun _ _ _ => trivial)

/-- Between two resets, a budget counts what has been settled and debited and not
been refunded, in every run whose steps for this user are tracked. -/
theorem currentSpend_eq_budgetedSpend {d₀ d : Db} {ops : List BudgetOperation} {userId : Uuid}
    (hwallets : WalletsReferenced d₀)
    (hreset : ∀ b, d₀.budgets.get? userId = some b → b.currentSpend = 0)
    (hrun : SerialRun runBudget (SpendTracked (d₀.budgetedSpend userId) userId) d₀ ops d) :
    ∀ b, d.budgets.get? userId = some b →
      b.currentSpend = d.budgetedSpend userId - d₀.budgetedSpend userId := by
  have h₀ : BudgetKept (d₀.budgetedSpend userId) userId d₀ := by
    refine ⟨hwallets, fun spend hs => ?_⟩
    obtain ⟨b, hb, rfl⟩ := Option.map_eq_some_iff.mp hs
    rw [hreset b hb, sub_self]
  have h := hrun.invariant h₀ fun d o hd hok => runBudget_keeps_budgetKept o hd hok
  exact fun b hb => h.spend b.currentSpend (by simp [Db.currentSpend, hb])

def budgetOf (limit : Decimal) (h : 0 < limit) : BudgetCreate where
  monthlyLimit := limit
  monthlyLimit_pos := h
  autoTopUpThreshold_nonneg := by simp
  autoTopUpAmount_pos := by simp

/-- Under a budget of `limit`, top up 10.0000, settle 3, deduct 3.0000 and refund that. -/
def budgetedMonth (limit : Decimal) (h : 0 < limit) : List BudgetOperation :=
  let user : Uuid := ⟨"u"⟩
  let at_ : ℕ → String → CallContext := fun now id => ⟨now, ⟨id⟩, ⟨"w"⟩⟩
  [.createOrUpdateBudget user (budgetOf limit h),
   .wallet (.addCredit (at_ 1 "t1") { userId := user, amount := 100000, reason := "top-up" }),
   .wallet (.metered (.reserve (at_ 2 "r1")
     { userId := user, amount := 4, requestId := "q1", idempotencyKey := "k1" })),
   .wallet (.metered (.settle (at_ 3 "s1") ⟨"r1"⟩ { actualAmount := 3 })),
   .wallet (.deductCredit (at_ 4 "t2") { userId := user, amount := 30000, reason := "usage" }),
   .wallet (.refundTransaction (at_ 5 "t3") user ⟨"t2"⟩ "mistake")]

theorem five_dollars_pos : (0 : Decimal) < 5 := by norm_num

theorem currentSpend_eq_budgetedSpend_exhausted :
    let d := execAll runBudget (budgetedMonth 5 five_dollars_pos) {}
    ∀ b, d.budgets.get? ⟨"u"⟩ = some b → b.currentSpend = d.budgetedSpend ⟨"u"⟩ - 0 := by
  intro d
  have hrun : SerialRun runBudget (SpendTracked (({} : Db).budgetedSpend ⟨"u"⟩) ⟨"u"⟩) {}
      (budgetedMonth 5 five_dollars_pos) d := serialRun_execAll (by decide +kernel)
  exact currentSpend_eq_budgetedSpend (by simp [WalletsReferenced, default])
    (fun b hb => by cases hb) hrun

/-- A budget of 20 is not exhausted by the 6 that are spent, so the refund of 3
leaves it at 6. -/
theorem currentSpend_keeps_refund :
    ¬ ∀ (d₀ d : Db) (ops : List BudgetOperation) (userId : Uuid), WalletsReferenced d₀ →
      (∀ b, d₀.budgets.get? userId = some b → b.currentSpend = 0) →
      SerialRun runBudget (fun _ _ => True) d₀ ops d →
      ∀ b, d.budgets.get? userId = some b →
        b.currentSpend = d.budgetedSpend userId - d₀.budgetedSpend userId := by
  intro h
  let ops := budgetedMonth 20 (by norm_num)
  have hok : Admits runBudget (fun _ _ => True) ops {} := by simp [ops, budgetedMonth, Admits]
  have hspend := h {} _ ops ⟨"u"⟩ (by simp [WalletsReferenced, default]) (fun b hb => by cases hb)
    (serialRun_execAll hok)
  have hbudget : ((execAll runBudget ops {}).currentSpend ⟨"u"⟩) = some 60000 := by decide +kernel
  obtain ⟨b, hb, hsixty⟩ := Option.map_eq_some_iff.mp hbudget
  have hthirty : (execAll runBudget ops {}).budgetedSpend ⟨"u"⟩ - ({} : Db).budgetedSpend ⟨"u"⟩ =
      30000 := by decide +kernel
  have hvalue := hspend b hb
  omega

end Zyntry
