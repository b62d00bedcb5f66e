import Zyntry.SerialSpecs

/-!
# Conservation of wallet balances

`Accounted` is the joint invariant of the seven operations that move money: each
wallet's three columns add up to its top-ups, its reserved balance is what its
open reservations hold, and its debits that can still be refunded are covered by
what it has spent. The last part is what keeps the `max(0, ...)` of
`refund_transaction` from losing money.
-/

namespace Zyntry

open SqlProgram

/-- What a wallet's open reservations hold. -/
def Db.outstanding (d : Db) (walletId : Uuid) : ℤ :=
  d.reservations.total (fun r =>
    if r.walletId = walletId ∧ r.status = .reserved then r.estimatedAmount else 0)

/-- The debits of a wallet that no refund has reversed yet. -/
def Db.openDebits (d : Db) (walletId : Uuid) : ℤ :=
  d.transactions.total (fun t =>
    if t.walletId = walletId ∧ t.type = .debit ∧ d.hasRefund t.id = false then t.amount else 0)

structure Balanced (d : Db) (w : Wallet) : Prop where
  conserved : w.balance + w.reservedBalance + w.totalSpent = w.totalTopups
  reserved : w.reservedBalance = d.outstanding w.id
  refundable : d.openDebits w.id ≤ w.totalSpent
  nonneg : 0 ≤ w.balance

structure Accounted (d : Db) : Prop where
  wallets : ∀ w ∈ d.wallets.rows, Balanced d w
  estimates : ∀ r ∈ d.reservations.rows, 0 ≤ r.estimatedAmount
  debits : ∀ t ∈ d.transactions.rows, t.type = .debit → 0 ≤ t.amount
  reservationWallet : ∀ r ∈ d.reservations.rows, (d.wallets.get? r.walletId).isSome
  transactionWallet : ∀ t ∈ d.transactions.rows, (d.wallets.get? t.walletId).isSome

/-! ## How the sums react to each write -/

theorem outstanding_addReservation {d : Db} {r : Reservation}
    (hid : d.reservations.get? r.id = none) (walletId : Uuid) :
    (d.addReservation r).outstanding walletId = d.outstanding walletId +
      if r.walletId = walletId ∧ r.status = .reserved then r.estimatedAmount else 0 :=
  RowTable.total_insert hid _

theorem outstanding_flushReservation {d : Db} {r : Reservation} (new : Reservation)
    (hr : d.reservations.get? r.id = some r) (walletId : Uuid) :
    (d.flushReservation r new).outstanding walletId = d.outstanding walletId -
      (if r.walletId = walletId ∧ r.status = .reserved then r.estimatedAmount else 0) +
      (if r.walletId = walletId ∧ new.status = .reserved then new.estimatedAmount else 0) := by
  have h := Db.total_flushReservation new hr
    (fun r => if r.walletId = walletId ∧ r.status = .reserved then r.estimatedAmount else 0)
  simp only [Reservation.flush, changed_row] at h
  exact h

theorem outstanding_nonneg {d : Db} (h : Accounted d) (walletId : Uuid) :
    0 ≤ d.outstanding walletId := by
  refine RowTable.total_nonneg fun r hr => ?_
  split_ifs
  · exact h.estimates r hr
  · exact le_rfl

theorem hasRefund_addLedger (d : Db) (l : BillingLedger) (id : Uuid) :
    (d.addLedger l).hasRefund id = (d.hasRefund id || decide (l.transactionType = .reversal ∧
      l.resourceId = some id.str ∧ l.status = .settled)) := by
  simp [Db.hasRefund, Db.addLedger]

theorem openDebits_addTransaction {d : Db} {t : WalletTransaction}
    (hid : d.transactions.get? t.id = none) (walletId : Uuid) :
    (d.addTransaction t).openDebits walletId = d.openDebits walletId +
      if t.walletId = walletId ∧ t.type = .debit ∧ d.hasRefund t.id = false then t.amount else 0 :=
  RowTable.total_insert hid _

theorem total_le_total {d : Db} {f g : WalletTransaction → ℤ}
    (h : ∀ t ∈ d.transactions.rows, f t ≤ g t) : d.transactions.total f ≤ d.transactions.total g :=
  List.sum_le_sum h

/-- Another ledger row can only close debits. -/
theorem openDebits_addLedger_le {d : Db} (h : ∀ t ∈ d.transactions.rows, t.type = .debit → 0 ≤ t.amount)
    (l : BillingLedger) (walletId : Uuid) :
    (d.addLedger l).openDebits walletId ≤ d.openDebits walletId := by
  refine total_le_total (d := d) fun t ht => ?_
  rw [hasRefund_addLedger]
  split_ifs with hnew hold hold
  · exact le_rfl
  · simp only [Bool.or_eq_false_iff] at hnew
    exact absurd ⟨hnew.1, hnew.2.1, hnew.2.2.1⟩ hold
  · exact h t ht hold.2.1
  · exact le_rfl

/-- The ledger row of a refund closes the debit it refunds. -/
theorem openDebits_refund {d : Db} {original : WalletTransaction} {l : BillingLedger}
    (hrow : d.transactions.get? original.id = some original) (hdebit : original.type = .debit)
    (hopen : d.hasRefund original.id = false) (htype : l.transactionType = .reversal)
    (hresource : l.resourceId = some original.id.str) (hstatus : l.status = .settled)
    (walletId : Uuid) :
    (d.addLedger l).openDebits walletId = d.openDebits walletId -
      if original.walletId = walletId then original.amount else 0 := by
  have hoff := RowTable.total_eq_off hrow
    (f := fun t => if t.walletId = walletId ∧ t.type = .debit ∧ d.hasRefund t.id = false
      then t.amount else 0)
    (g := fun t => if t.walletId = walletId ∧ t.type = .debit ∧
      (d.addLedger l).hasRefund t.id = false then t.amount else 0) ?_
  · refine hoff.trans ?_
    simp [hasRefund_addLedger, htype, hresource, hstatus, hdebit, hopen, Db.openDebits]
  · intro t _ hne
    have hstr : original.id.str ≠ t.id.str := fun he => hne (Uuid.ext he.symm)
    simp [hasRefund_addLedger, hresource, hstr]

/-! ## One wallet at a time -/

theorem Wallet.flush_row (w new : Wallet) (hid : new.id = w.id) (huser : new.userId = w.userId)
    (hcurrency : new.currency = w.currency) (hstatus : new.status = w.status) :
    Wallet.flush w new w = new := by
  cases new
  cases w
  simp_all [Wallet.flush]

theorem Balanced.of_unchanged {d d' : Db} {w : Wallet} (h : Balanced d w)
    (ho : d'.outstanding w.id = d.outstanding w.id)
    (hd : d'.openDebits w.id ≤ d.openDebits w.id) : Balanced d' w :=
  ⟨h.conserved, ho ▸ h.reserved, hd.trans h.refundable, h.nonneg⟩

/-- A commit that rewrites one wallet keeps the books if it keeps those of this
wallet and leaves the sums of all others alone. -/
theorem balanced_flushWallet {d d' : Db} {w new : Wallet} (h : Accounted d)
    (hw : d.wallets.get? w.id = some w) (hflush : Wallet.flush w new w = new)
    (hwallets : d'.wallets = (d.flushWallet w new).wallets) (hself : Balanced d' new)
    (ho : ∀ id, id ≠ w.id → d'.outstanding id = d.outstanding id)
    (hd : ∀ id, id ≠ w.id → d'.openDebits id ≤ d.openDebits id) :
    ∀ w' ∈ d'.wallets.rows, Balanced d' w' := by
  intro w' hw'
  rw [hwallets] at hw'
  rcases Db.mem_flushWallet hw' with ⟨hold, hne⟩ | ⟨row, hrow, rfl⟩
  · exact (h.wallets w' hold).of_unchanged (ho w'.id hne) (hd w'.id hne)
  · have he : row = w := Option.some.inj (hrow.symm.trans hw)
    rw [he, hflush]
    exact hself

theorem isSome_get?_flushWallet {d : Db} {w new : Wallet} {id : Uuid}
    (h : (d.wallets.get? id).isSome) : ((d.flushWallet w new).wallets.get? id).isSome := by
  rw [Db.get?_flushWallet]
  split_ifs
  · simpa only [Option.isSome_map] using h
  · exact h

/-! ## The writes of the seven operations -/

theorem accounted_addWallet {d : Db} (h : Accounted d) {w : Wallet}
    (hid : d.wallets.get? w.id = none) (hb : w.balance = 0) (hr : w.reservedBalance = 0)
    (hs : w.totalSpent = 0) (ht : w.totalTopups = 0) : Accounted (d.addWallet w) := by
  have hkeep : ∀ id, (d.wallets.get? id).isSome → ((d.addWallet w).wallets.get? id).isSome := by
    intro id hsome
    obtain ⟨w', hw'⟩ := Option.isSome_iff_exists.mp hsome
    exact Option.isSome_iff_exists.mpr ⟨w', RowTable.get?_insert_of_some hw'⟩
  refine ⟨?_, h.estimates, h.debits, fun r hr => hkeep _ (h.reservationWallet r hr),
    fun t ht => hkeep _ (h.transactionWallet t ht)⟩
  intro w' hw'
  rcases RowTable.mem_rows_insert hw' with hold | rfl
  · exact (h.wallets w' hold).of_unchanged rfl le_rfl
  · -- nothing refers to the new wallet yet
    have ho : d.outstanding w'.id = 0 := by
      refine RowTable.total_eq_zero fun r hmem => if_neg fun hc => ?_
      have hsome := h.reservationWallet r hmem
      rw [hc.1, hid] at hsome
      simp at hsome
    have hd : d.openDebits w'.id = 0 := by
      refine RowTable.total_eq_zero fun t hmem => if_neg fun hc => ?_
      have hsome := h.transactionWallet t hmem
      rw [hc.1, hid] at hsome
      simp at hsome
    exact ⟨by omega, hr.trans ho.symm, (hd.trans hs.symm).le, hb.ge⟩

theorem accounted_addLedger {d : Db} (h : Accounted d) (l : BillingLedger) :
    Accounted (d.addLedger l) :=
  ⟨fun w hw => (h.wallets w hw).of_unchanged rfl (openDebits_addLedger_le h.debits l w.id),
    h.estimates, h.debits, h.reservationWallet, h.transactionWallet⟩

theorem accounted_flushBudgetOf {d : Db} (h : Accounted d) (budget : Option (Budget × Budget)) :
    Accounted (flushBudgetOf budget d) := by
  cases budget with
  | none => exact h
  | some b => exact ⟨fun w hw => (h.wallets w hw).of_unchanged rfl le_rfl, h.estimates, h.debits,
      h.reservationWallet, h.transactionWallet⟩

theorem accounted_reserveWrite {d : Db} {ctx : CallContext} {req : ReserveRequest} {w : Wallet}
    (h : Accounted d) (ha : ReserveAccepted d ctx req w) :
    Accounted (reserveWrite none w (req.reservation ctx w) ctx d) := by
  have hw := (walletByUser_get? ha.wallet).1
  have hb := h.wallets w (RowTable.get?_some_mem hw)
  have hpos := ha.positive
  change Accounted (((d.flushWallet w (w.afterReserve (money req.amount))).addReservation
    (req.reservation ctx w)).addLedger (reservationLedger (req.reservation ctx w) ctx))
  refine accounted_addLedger ?_ _
  refine ⟨?_, ?_, h.debits, ?_, ?_⟩
  · refine balanced_flushWallet h hw
      (Wallet.flush_row w (w.afterReserve (money req.amount)) rfl rfl rfl rfl) rfl ?_ ?_
      (fun _ _ => le_rfl)
    · have ho : (d.addReservation (req.reservation ctx w)).outstanding w.id =
          d.outstanding w.id + money req.amount := by
        rw [outstanding_addReservation ha.idFree, if_pos ⟨rfl, rfl⟩]
        rfl
      refine ⟨?_, ?_, hb.refundable, sub_nonneg.mpr ha.funds⟩
      · have hc := hb.conserved
        simp only [Wallet.afterReserve]
        omega
      · refine Eq.trans ?_ ho.symm
        simp only [Wallet.afterReserve, hb.reserved]
    · intro id hne
      refine (outstanding_addReservation ha.idFree id).trans ?_
      rw [if_neg fun hc => hne hc.1.symm, add_zero]
      rfl
  · intro r hr
    rcases RowTable.mem_rows_insert hr with hold | rfl
    · exact h.estimates r hold
    · exact hpos.le
  · intro r hr
    refine isSome_get?_flushWallet ?_
    rcases RowTable.mem_rows_insert hr with hold | rfl
    · exact h.reservationWallet r hold
    · exact Option.isSome_iff_exists.mpr ⟨w, hw⟩
  · exact fun t ht => isSome_get?_flushWallet (h.transactionWallet t ht)

/-- Settling and releasing rewrite one reserved row and its wallet. -/
theorem accounted_finalise {d : Db} {r new : Reservation} {w w' : Wallet} (h : Accounted d)
    (hr : d.reservations.get? r.id = some r) (hreserved : r.status = .reserved)
    (hdone : new.status ≠ .reserved) (hestimate : 0 ≤ new.estimatedAmount)
    (hw : d.wallets.get? r.walletId = some w) (hflush : Wallet.flush w w' w = w')
    (hid : w'.id = w.id) (hnonneg : 0 ≤ w'.balance)
    (hreservedBalance : w'.reservedBalance = w.reservedBalance - r.estimatedAmount)
    (hspent : w.totalSpent ≤ w'.totalSpent)
    (hconserved : w'.balance + w'.reservedBalance + w'.totalSpent - w'.totalTopups =
      w.balance + w.reservedBalance + w.totalSpent - w.totalTopups) :
    Accounted ((d.flushWallet w w').flushReservation r new) := by
  have hwid : w.id = r.walletId := RowTable.get?_some_key hw
  have hw' : d.wallets.get? w.id = some w := hwid ▸ hw
  have hb := h.wallets w (RowTable.get?_some_mem hw)
  have ho : ∀ id, ((d.flushWallet w w').flushReservation r new).outstanding id =
      d.outstanding id - if r.walletId = id then r.estimatedAmount else 0 := by
    intro id
    refine (outstanding_flushReservation (d := d) _ hr id).trans ?_
    simp only [hreserved, hdone, and_true, and_false, if_false, add_zero]
  refine ⟨?_, ?_, h.debits, ?_, ?_⟩
  · refine balanced_flushWallet h hw' hflush rfl ?_ ?_ (fun _ _ => le_rfl)
    · refine ⟨?_, ?_, ?_, hnonneg⟩
      · have hc := hb.conserved
        omega
      · rw [hid, ho, if_pos hwid.symm, hreservedBalance, hb.reserved]
      · exact (hid ▸ hb.refundable).trans hspent
    · intro id hne
      rw [ho, if_neg (hwid ▸ hne.symm), sub_zero]
  · intro r' hr'
    rcases Db.mem_flushReservation hr' with ⟨hold, _⟩ | ⟨row, hrow, rfl⟩
    · exact h.estimates r' hold
    · have he : row = r := Option.some.inj (hrow.symm.trans hr)
      simpa only [he, Reservation.flush, changed_row] using hestimate
  · intro r' hr'
    refine isSome_get?_flushWallet ?_
    rcases Db.mem_flushReservation hr' with ⟨hold, _⟩ | ⟨row, hrow, rfl⟩
    · exact h.reservationWallet r' hold
    · exact h.reservationWallet row (RowTable.get?_some_mem hrow)
  · exact fun t ht => isSome_get?_flushWallet (h.transactionWallet t ht)

theorem accounted_settleWrite {d : Db} {ctx : CallContext} {id : Uuid} {req : SettleRequest}
    {r : Reservation} {w : Wallet} (h : Accounted d) (ha : SettleAccepted d ctx id req r w)
    (budget : Option Budget) : Accounted (settleWrite r w budget req ctx d) := by
  have hrid : r.id = id := RowTable.get?_some_key ha.row
  have hest := h.estimates r (RowTable.get?_some_mem ha.row)
  have hb := h.wallets w (RowTable.get?_some_mem ha.wallet)
  have hactual := ha.nonneg
  have hbalance := hb.nonneg
  have hfunds := ha.funds
  have hadditional := additionalAmount_cases r (money req.actualAmount)
  have hbooks : Accounted ((d.flushWallet w (w.afterSettle r (money req.actualAmount))
      ).flushReservation r (r.afterSettle (money req.actualAmount))) := by
    refine accounted_finalise h (hrid ▸ ha.row) ha.reserved ?_ ?_ ha.wallet
      (Wallet.flush_row _ _ rfl rfl rfl rfl) rfl ?_ ?_ ?_ ?_
    · simp [Reservation.afterSettle]
    all_goals
      simp only [Reservation.afterSettle, Wallet.afterSettle, releaseAmount]
      omega
  unfold settleWrite
  dsimp only
  split_ifs
  · exact accounted_addLedger (accounted_addLedger (accounted_flushBudgetOf hbooks _) _) _
  · exact accounted_addLedger (accounted_flushBudgetOf hbooks _) _

theorem accounted_releaseWrite {d : Db} {ctx : CallContext} {id : Uuid} {r : Reservation}
    {w : Wallet} (h : Accounted d) (ha : ReleaseAccepted d id r w) :
    Accounted (releaseWrite r w ctx d) := by
  have hrid : r.id = id := RowTable.get?_some_key ha.row
  have hest := h.estimates r (RowTable.get?_some_mem ha.row)
  have hbalance := (h.wallets w (RowTable.get?_some_mem ha.wallet)).nonneg
  refine accounted_addLedger ?_ _
  refine accounted_finalise h (hrid ▸ ha.row) ha.reserved ?_ hest ha.wallet
    (Wallet.flush_row _ _ rfl rfl rfl rfl) rfl ?_ rfl le_rfl ?_
  · simp [Reservation.afterRelease]
  all_goals
    simp only [Wallet.afterRelease]
    omega

/-- A credit, a debit or a refund adds a transaction of the wallet it rewrites. -/
theorem accounted_transaction {d : Db} {t : WalletTransaction} {w w' : Wallet} (h : Accounted d)
    (hid : d.transactions.get? t.id = none) (hw : d.wallets.get? w.id = some w)
    (htw : t.walletId = w.id) (hdebit : t.type = .debit → 0 ≤ t.amount)
    (hflush : Wallet.flush w w' w = w') (hwid : w'.id = w.id) (hnonneg : 0 ≤ w'.balance)
    (hreserved : w'.reservedBalance = w.reservedBalance)
    (hspent : d.openDebits w.id + (if t.type = .debit then t.amount else 0) ≤ w'.totalSpent)
    (hconserved : w'.balance + w'.totalSpent - w'.totalTopups =
      w.balance + w.totalSpent - w.totalTopups) :
    Accounted ((d.addTransaction t).flushWallet w w') := by
  have hb := h.wallets w (RowTable.get?_some_mem hw)
  have hopen : ∀ id, (d.addTransaction t).openDebits id ≤ d.openDebits id +
      if t.walletId = id ∧ t.type = .debit then t.amount else 0 := by
    intro id
    rw [openDebits_addTransaction hid]
    refine add_le_add_right ?_ _
    split_ifs with hc hc' hc'
    · exact le_rfl
    · exact absurd ⟨hc.1, hc.2.1⟩ hc'
    · exact hdebit hc'.2
    · exact le_rfl
  refine ⟨?_, h.estimates, ?_, ?_, ?_⟩
  · refine balanced_flushWallet h hw hflush rfl ?_ (fun _ _ => rfl) ?_
    · refine ⟨?_, ?_, ?_, hnonneg⟩
      · have hc := hb.conserved
        omega
      · rw [hwid, hreserved, hb.reserved]
        rfl
      · refine (hopen w'.id).trans ?_
        rw [hwid]
        simpa only [htw, true_and] using hspent
    · intro id hne
      refine (hopen id).trans ?_
      rw [if_neg fun hc => hne (hc.1.symm.trans htw), add_zero]
  · intro t' ht'
    rcases RowTable.mem_rows_insert ht' with hold | rfl
    · exact h.debits t' hold
    · exact hdebit
  · exact fun r hr => isSome_get?_flushWallet (h.reservationWallet r hr)
  · intro t' ht'
    refine isSome_get?_flushWallet ?_
    rcases RowTable.mem_rows_insert ht' with hold | rfl
    · exact h.transactionWallet t' hold
    · exact Option.isSome_iff_exists.mpr ⟨w, htw ▸ hw⟩

theorem accounted_creditWrite {d : Db} {ctx : CallContext} {req : CreditRequest} {w : Wallet}
    (h : Accounted d) (ha : CreditAccepted d ctx req w) (budget : Option (Budget × Budget))
    (l : BillingLedger) :
    Accounted (creditWrite w (creditTransaction ctx req w) budget l d) := by
  have hb := h.wallets w (RowTable.get?_some_mem ha.wallet)
  have hbalance := hb.nonneg
  have hpos := ha.positive
  refine accounted_addLedger (accounted_flushBudgetOf ?_ _) _
  refine accounted_transaction h ha.idFree ha.wallet rfl (fun hd => by simp [creditTransaction] at hd)
    (Wallet.flush_row _ _ rfl rfl rfl rfl) rfl ?_ rfl ?_ ?_
  · simp only [Wallet.afterCredit, creditTransaction]
    omega
  · rw [if_neg (by simp [creditTransaction]), add_zero]
    exact hb.refundable
  · simp only [Wallet.afterCredit]
    omega

theorem accounted_debitWrite {d : Db} {ctx : CallContext} {req : CreditRequest} {w : Wallet}
    (h : Accounted d) (ha : DebitAccepted d ctx req w) (budget : Option (Budget × Budget)) :
    Accounted (debitWrite w (debitTransaction ctx req w) budget d) := by
  have hb := h.wallets w (RowTable.get?_some_mem ha.wallet)
  have hrefundable := hb.refundable
  have hpos := ha.positive
  have hfunds := ha.funds
  refine accounted_flushBudgetOf ?_ _
  refine accounted_transaction h ha.idFree ha.wallet rfl (fun _ => hpos.le)
    (Wallet.flush_row _ _ rfl rfl rfl rfl) rfl ?_ rfl ?_ ?_
  all_goals
    simp only [Wallet.afterDebit, debitTransaction, if_true]
    omega

/-- The open debits of a wallet, and with them the one being refunded, fit under
what it has spent: the clamp of `refund_transaction` does nothing. -/
theorem amount_le_totalSpent {d : Db} (h : Accounted d) {w : Wallet} (hw : w ∈ d.wallets.rows)
    {t : WalletTransaction} (ht : t ∈ d.transactions.rows) (htw : t.walletId = w.id)
    (hdebit : t.type = .debit) (hopen : d.hasRefund t.id = false) : t.amount ≤ w.totalSpent := by
  have hle := RowTable.le_total (t := d.transactions)
    (f := fun t => if t.walletId = w.id ∧ t.type = .debit ∧ d.hasRefund t.id = false
      then t.amount else 0) (fun t' ht' => ?_) ht
  · rw [if_pos ⟨htw, hdebit, hopen⟩] at hle
    exact hle.trans (h.wallets w hw).refundable
  · split_ifs with hc
    · exact h.debits t' ht' hc.2.1
    · exact le_rfl

theorem refundWrite_eq (w : Wallet) (t : WalletTransaction) (budget : Option (Budget × Budget))
    (l : BillingLedger) (d : Db) : refundWrite w t budget l d =
      flushBudgetOf budget (((d.addLedger l).addTransaction t).flushWallet w
        (w.afterRefund t.amount)) := by
  cases budget <;> rfl

theorem accounted_refundWrite {d : Db} {ctx : CallContext} {userId : Uuid} {reason : String}
    {original : WalletTransaction} {w : Wallet} (h : Accounted d)
    (ha : RefundAccepted d ctx userId original w) (budget : Option (Budget × Budget)) :
    Accounted (refundWrite w (refundTransactionRow ctx reason original w) budget
      (refundLedger ctx userId original w) d) := by
  have hmem := RowTable.get?_some_mem ha.row
  have hwid : w.id = original.walletId := RowTable.get?_some_key ha.wallet
  have hb := h.wallets w (RowTable.get?_some_mem ha.wallet)
  have hamount := h.debits original hmem ha.debit
  have hspent := amount_le_totalSpent h (RowTable.get?_some_mem ha.wallet) hmem hwid.symm ha.debit
    ha.open_
  have hclosed : (d.addLedger (refundLedger ctx userId original w)).openDebits w.id =
      d.openDebits w.id - original.amount := by
    rw [openDebits_refund ha.row ha.debit ha.open_ rfl rfl rfl, if_pos hwid.symm]
  have hrefundable := hb.refundable
  have hbalance := hb.nonneg
  rw [refundWrite_eq]
  refine accounted_flushBudgetOf ?_ _
  refine accounted_transaction (accounted_addLedger h _) ha.idFree (hwid ▸ ha.wallet) rfl
    (fun hd => by simp [refundTransactionRow] at hd) (Wallet.flush_row _ _ rfl rfl rfl rfl) rfl ?_
    rfl ?_ ?_
  · simp only [Wallet.afterRefund, refundTransactionRow]
    omega
  · rw [if_neg (by simp [refundTransactionRow]), hclosed]
    simp only [Wallet.afterRefund, refundTransactionRow]
    omega
  · simp only [Wallet.afterRefund, refundTransactionRow]
    omega

/-! ## Serial runs -/

inductive WalletOperation where
  | addCredit (ctx : CallContext) (req : CreditRequest)
  | deductCredit (ctx : CallContext) (req : CreditRequest)
  | refundTransaction (ctx : CallContext) (userId transactionId : Uuid) (reason : String)
  | metered (o : MeteredOperation)

def runWallet : WalletOperation → Sql Unit
  | .addCredit ctx req => (addCredit ctx req).ignore
  | .deductCredit ctx req => (deductCredit ctx req).ignore
  | .refundTransaction ctx user id reason => (refundTransaction ctx user id reason).ignore
  | .metered o => runMetered o

theorem runMetered_keeps_accounted (o : MeteredOperation) {d : Db} (h : Accounted d) :
    (runMetered o).Keeps Accounted d (fun _ _ => True) := by
  cases o with
  | reserve ctx req =>
      exact keeps_ignore.mpr (keeps_reserve h (fun _ _ => trivial)
        fun w ha => ⟨accounted_reserveWrite h ha, trivial⟩)
  | settle ctx id req =>
      exact keeps_ignore.mpr (keeps_settle (fun _ _ _ => trivial)
        fun r w ha => ⟨accounted_settleWrite h ha _, trivial⟩)
  | release ctx id =>
      exact keeps_ignore.mpr (keeps_release (fun _ _ _ => trivial)
        fun r w ha => ⟨accounted_releaseWrite h ha, trivial⟩)
  | expireReservations ctx limit =>
      exact keeps_ignore.mpr ((keeps_expireReservations h
        fun d id r w hd ha => accounted_releaseWrite hd ha).mono fun _ _ _ => trivial)

theorem runWallet_keeps_accounted (o : WalletOperation) {d : Db} (h : Accounted d) :
    (runWallet o).Keeps Accounted d (fun _ _ => True) := by
  have hfirst : ∀ (ctx : CallContext) (userId : Uuid), d.wallets.get? ctx.newWalletId = none →
      Accounted (d.addWallet (firstWallet ctx userId)) := fun ctx userId hid =>
    accounted_addWallet h hid rfl rfl rfl rfl
  cases o with
  | addCredit ctx req =>
      exact keeps_ignore.mpr ((keeps_addCredit h (fun _ => hfirst ctx req.userId)
        fun w hd ha => accounted_creditWrite hd ha _ _).mono fun _ _ _ => trivial)
  | deductCredit ctx req =>
      exact keeps_ignore.mpr ((keeps_deductCredit h (fun _ => hfirst ctx req.userId)
        fun w hd ha => ⟨accounted_debitWrite hd ha _,
          accounted_addLedger (accounted_debitWrite hd ha _) _⟩).mono fun _ _ _ => trivial)
  | refundTransaction ctx user id reason =>
      exact keeps_ignore.mpr ((keeps_refundTransaction
        fun original w _ ha => accounted_refundWrite h ha _).mono fun _ _ _ => trivial)
  | metered o => exact runMetered_keeps_accounted o h

/-- A database whose wallets, if there are any, have never been used. -/
structure FreshWallets (d : Db) : Prop where
  wallets : ∀ w ∈ d.wallets.rows,
    w.balance = 0 ∧ w.reservedBalance = 0 ∧ w.totalSpent = 0 ∧ w.totalTopups = 0
  reservations : d.reservations.rows = []
  transactions : d.transactions.rows = []

theorem FreshWallets.accounted {d : Db} (h : FreshWallets d) : Accounted d := by
  refine ⟨fun w hw => ?_, ?_, ?_, ?_, ?_⟩
  · obtain ⟨hb, hr, hs, ht⟩ := h.wallets w hw
    refine ⟨by omega, ?_, ?_, hb.ge⟩
    · simp [hr, Db.outstanding, RowTable.total, h.reservations]
    · simp [hs, Db.openDebits, RowTable.total, h.transactions]
  all_goals simp [h.reservations, h.transactions]

/-- Wallet conservation in every state of every serial run. -/
theorem wallet_conservation {d₀ d : Db} {ops : List WalletOperation} (hfresh : FreshWallets d₀)
    (hrun : SerialRun runWallet (fun _ _ => True) d₀ ops d) :
    ∀ w ∈ d.wallets.rows,
      w.balance + w.reservedBalance + w.totalSpent = w.totalTopups ∧
      w.reservedBalance = d.outstanding w.id ∧
      0 ≤ w.balance ∧ 0 ≤ w.reservedBalance ∧ 0 ≤ w.totalSpent ∧
      ∀ t ∈ d.transactions.rows, t.walletId = w.id → t.type = .debit → d.hasRefund t.id = false →
        w.totalSpent - t.amount = max 0 (w.totalSpent - t.amount) := by
  have h : Accounted d := hrun.invariant hfresh.accounted
    fun d o hd _ => runWallet_keeps_accounted o hd
  intro w hw
  have hb := h.wallets w hw
  have hdebits : 0 ≤ d.openDebits w.id := by
    refine RowTable.total_nonneg fun t ht => ?_
    split_ifs with hc
    · exact h.debits t ht hc.2.1
    · exact le_rfl
  refine ⟨hb.conserved, hb.reserved, hb.nonneg, ?_, hdebits.trans hb.refundable, ?_⟩
  · exact hb.reserved ▸ outstanding_nonneg h w.id
  · intro t ht htw hdebit hopen
    have hle := amount_le_totalSpent h hw ht htw hdebit hopen
    omega

/-- Top up 10.0000, reserve 4, settle for 6, deduct 1.5000 and refund that. -/
def meteredDay : List WalletOperation :=
  let user : Uuid := ⟨"u"⟩
  let at_ : ℕ → String → CallContext := fun now id => ⟨now, ⟨id⟩, ⟨"w"⟩⟩
  [.addCredit (at_ 1 "t1") { userId := user, amount := 100000, reason := "top-up" },
   .metered (.reserve (at_ 2 "r1")
     { userId := user, amount := 4, requestId := "q1", idempotencyKey := "k1" }),
   .metered (.settle (at_ 3 "s1") ⟨"r1"⟩ { actualAmount := 6 }),
   .deductCredit (at_ 4 "t2") { userId := user, amount := 15000, reason := "usage" },
   .refundTransaction (at_ 5 "t3") user ⟨"t2"⟩ "mistake"]

theorem wallet_conservation_meteredDay :
    ∃ w ∈ (execAll runWallet meteredDay {}).wallets.rows,
      w.balance + w.reservedBalance + w.totalSpent = w.totalTopups := by
  have hfresh : FreshWallets {} := ⟨by simp [default], rfl, rfl⟩
  have hok : Admits runWallet (fun _ _ => True) meteredDay {} := by simp [meteredDay, Admits]
  have hlength : (execAll runWallet meteredDay {}).wallets.rows.length = 1 := by decide +kernel
  obtain ⟨w, hw⟩ := List.length_eq_one_iff.mp hlength
  have hmem : w ∈ (execAll runWallet meteredDay {}).wallets.rows := hw ▸ List.mem_singleton_self w
  exact ⟨w, hmem, (wallet_conservation hfresh (serialRun_execAll hok) w hmem).1⟩

example : (execAll runWallet meteredDay {}).wallets.rows.map
    (fun w => (w.balance, w.reservedBalance, w.totalSpent, w.totalTopups)) =
      [(40000, 0, 60000, 100000)] := by
  decide +kernel

end Zyntry
