import Zyntry.BillingService

/-!
# What the billing operations commit when they run alone

One specification for each operation: an invariant is kept as soon as it survives
the commit of an accepted call, where `ReserveAccepted`, `SettleAccepted`,
`ReleaseAccepted`, `CreditAccepted`, `DebitAccepted` and `RefundAccepted` collect
what the operation has established on its way to that commit.
-/

namespace Zyntry

open SqlProgram

/-! ## Building blocks -/

theorem keeps_insertUnique {I : Db → Prop} {keys : List Resource} {taken : Db → Bool} {d : Db}
    {post : Unit → Db → Prop} :
    (insertUnique keys taken).Keeps I d post ↔ (taken d = false → post () d) := by
  simp only [insertUnique, keeps_bind, keeps_locking]
  cases taken d <;> simp

theorem keeps_flushLedger {I : Db → Prop} {l : BillingLedger} {d : Db}
    {post : Unit → Db → Prop} :
    (flushLedger l).Keeps I d post ↔ (ledgerKeyTaken l.idempotencyKey d = false → post () d) :=
  keeps_insertUnique

theorem keeps_lockReservation {I : Db → Prop} {id : Uuid} {p : Finaliser} {d : Db}
    {post : Reservation → Db → Prop} :
    (lockReservation {} id p).Keeps I d post ↔
      ∀ row, d.reservations.get? id = some row → post row d := by
  simp only [lockReservation, keeps_bind, keeps_locking]
  cases d.reservations.get? id <;> simp

theorem keeps_lockWallet {I : Db → Prop} {id : Uuid} {d : Db} {post : Wallet → Db → Prop} :
    (lockWallet {} id).Keeps I d post ↔
      ∀ row, d.wallets.get? id = some row → post row d := by
  simp only [lockWallet, keeps_bind, keeps_locking]
  cases d.wallets.get? id <;> simp

theorem keeps_getForUpdate {I : Db → Prop} {wallet : Wallet} {d : Db}
    {post : Wallet → Db → Prop} :
    (getForUpdate wallet).Keeps I d post ↔
      ∀ row, d.wallets.get? wallet.id = some row → post wallet d := by
  simp only [getForUpdate, keeps_bind, keeps_locking]
  cases h : d.wallets.get? wallet.id with
  | none => simp
  | some row =>
      have hid : wallet.id = row.id := (RowTable.get?_some_key h).symm
      simp [IdentityMap.wallet, hid]

/-- A transaction with this reference is already stored. -/
def Db.replayed (d : Db) (referenceId : Option String) : Bool :=
  match truthy referenceId with
  | some reference => d.transactionsByReference reference ≠ []
  | none => false

/-- The transactions that a call with this reference finds. -/
def Db.storedUnder (d : Db) (referenceId : Option String) : List WalletTransaction :=
  (truthy referenceId).elim [] d.transactionsByReference

theorem replayed_eq_false_iff {d : Db} {referenceId : Option String} :
    d.replayed referenceId = false ↔ d.storedUnder referenceId = [] := by
  unfold Db.replayed Db.storedUnder
  cases truthy referenceId <;> simp

theorem keeps_existingTransaction {I : Db → Prop} {reference : Option String} {d : Db}
    {post : Option WalletTransaction → Db → Prop}
    (hold : ∀ t, d.storedUnder reference = [t] → post (some t) d)
    (hnew : d.replayed reference = false → post none d) :
    (existingTransaction reference).Keeps I d post := by
  rw [replayed_eq_false_iff] at hnew
  unfold existingTransaction
  unfold Db.storedUnder at hold hnew
  cases htruthy : truthy reference with
  | none => exact hnew (by rw [htruthy, Option.elim_none])
  | some r =>
      rw [htruthy, Option.elim_some] at hold hnew
      simp only [getByReference, keeps_bind, keeps_query]
      split
      case h_1 hrows => exact hnew hrows
      case h_2 t hrows => exact hold t hrows
      case h_3 => trivial

theorem keeps_updateBudgets {I : Db → Prop} {budget : Option (Budget × Budget)} {d : Db}
    {post : Unit → Db → Prop} :
    (forEach budget.toList (fun b => updateBudget b.1)).Keeps I d post ↔ post () d := by
  cases budget <;> rfl

theorem keeps_conflictedWallet {I : Db → Prop} {userId : Uuid} {d : Db}
    {post : Wallet → Db → Prop} (hi : I d)
    (hfound : ∀ w, d.walletByUser userId = some w → post w d) :
    (conflictedWallet userId).Keeps I d post := by
  simp only [conflictedWallet, keeps_bind, keeps_write, keeps_query, id_eq]
  refine ⟨hi, ?_⟩
  cases h : d.walletByUser userId with
  | some w => exact hfound w h
  | none => trivial

theorem keeps_getWallet {I : Db → Prop} {ctx : CallContext} {userId : Uuid} {d : Db}
    {post : Wallet → Db → Prop} (hi : I d)
    (hfound : ∀ w, d.walletByUser userId = some w → post w d)
    (hnew : d.walletByUser userId = none → d.wallets.get? ctx.newWalletId = none →
      I (d.addWallet (firstWallet ctx userId)) ∧
        post (firstWallet ctx userId) (d.addWallet (firstWallet ctx userId))) :
    (getWallet {} ctx userId).Keeps I d post := by
  simp only [getWallet, keeps_bind, keeps_query]
  cases h : d.walletByUser userId with
  | some w => exact hfound w h
  | none =>
      simp only [Option.map_none, insertUnique, bind_assoc, catching_locking, keeps_bind,
        keeps_locking]
      cases hx : walletExists (firstWallet ctx userId).id userId d with
      | true =>
          simp only [if_true, raise_bind, catching_raise, onIntegrityError_self]
          exact keeps_conflictedWallet hi hfound
      | false =>
          have hid : d.wallets.get? ctx.newWalletId = none := by
            simpa [walletExists, h, firstWallet] using hx
          exact hnew h hid

/-! ## Reserve -/

structure ReserveAccepted (d : Db) (ctx : CallContext) (req : ReserveRequest) (w : Wallet) :
    Prop where
  positive : 0 < money req.amount
  keyFree : d.reservationByKey req.idempotencyKey = none
  idFree : d.reservations.get? ctx.newId = none
  wallet : d.walletByUser req.userId = some w
  active : w.status = .active
  funds : money req.amount ≤ w.balance
  limits : ∀ l ∈ d.spendingLimits.rows, l.active = true →
    scopeId (some req.userId) req.scope l.scopeType = some l.scopeId →
    d.fitsUnder
      { amount := money req.amount, userId := req.userId, scope := req.scope, now := ctx.now } l

theorem keeps_walletForUpdate {I : Db → Prop} {ctx : CallContext} {userId : Uuid} {d : Db}
    {post : Wallet × Option Wallet → Db → Prop}
    (hfound : ∀ w, d.walletByUser userId = some w → post (w, none) d)
    (hnew : post (firstWallet ctx userId, some (firstWallet ctx userId)) d) :
    (walletForUpdate {} ctx userId).Keeps I d post := by
  simp only [walletForUpdate, keeps_bind, keeps_locking]
  cases h : d.walletByUser userId with
  | some w => exact hfound w h
  | none =>
      simp only [Option.map_none, keeps_bind, keeps_insertUnique]
      exact fun _ => hnew

theorem keeps_conflictedReservation {I : Db → Prop} {key : String} {d : Db}
    {post : Reservation → Db → Prop} (hi : I d)
    (hold : ∀ r, d.reservationByKey key = some r → post r d) :
    (conflictedReservation key).Keeps I d post := by
  simp only [conflictedReservation, keeps_bind, keeps_write, keeps_query, id_eq]
  refine ⟨hi, ?_⟩
  cases h : d.reservationByKey key with
  | some r => exact hold r h
  | none => trivial

theorem keeps_commitReservation {I : Db → Prop} {ctx : CallContext} {req : ReserveRequest}
    {w : Wallet} {d : Db} {post : Reservation → Db → Prop} (hi : I d)
    (hold : ∀ r, d.reservationByKey req.idempotencyKey = some r → post r d)
    (hnew : d.reservationByKey req.idempotencyKey = none → d.reservations.get? ctx.newId = none →
      I (reserveWrite none w (req.reservation ctx w) ctx d) ∧
        post (req.reservation ctx w) (reserveWrite none w (req.reservation ctx w) ctx d)) :
    (commitReservation ctx req w none).Keeps I d post := by
  have hrecover := keeps_conflictedReservation hi hold
  simp only [commitReservation, flushLedger, insertUnique, bind_assoc, catching_locking,
    keeps_bind, keeps_locking]
  cases hx : reservationExists (req.reservation ctx w).id (req.reservation ctx w).idempotencyKey d with
  | true => simpa only [if_true, raise_bind, catching_raise, onIntegrityError_self] using hrecover
  | false =>
      simp only [reservationExists, Bool.or_eq_false_iff, Option.isSome_eq_false_iff,
        Option.isNone_iff_eq_none] at hx
      simp only [Bool.false_eq_true, if_false, pure_eq, ret_bind, catching_locking, keeps_bind,
        keeps_locking]
      cases ledgerKeyTaken (reservationLedger (req.reservation ctx w) ctx).idempotencyKey d with
      | true =>
          simpa only [if_true, raise_bind, catching_raise, onIntegrityError_self] using hrecover
      | false => exact hnew hx.2 hx.1

theorem keeps_reserve {I : Db → Prop} {ctx : CallContext} {req : ReserveRequest} {d : Db}
    {post : Reservation → Db → Prop} (hi : I d)
    (hold : ∀ r, d.reservationByKey req.idempotencyKey = some r → post r d)
    (hnew : ∀ w, ReserveAccepted d ctx req w →
      I (reserveWrite none w (req.reservation ctx w) ctx d) ∧
        post (req.reservation ctx w) (reserveWrite none w (req.reservation ctx w) ctx d)) :
    (reserve {} ctx req).Keeps I d post := by
  unfold reserve
  split_ifs with hpos
  · trivial
  simp only [keeps_bind, keeps_locking]
  cases hkey : d.reservationByKey req.idempotencyKey with
  | some r => exact hold r hkey
  | none =>
      simp only [Option.map_none, keeps_bind]
      refine keeps_check.mono ?_
      rintro _ _ ⟨rfl, hlimits⟩
      refine keeps_walletForUpdate ?_ ?_
      · intro w hw
        dsimp only
        split_ifs with hactive hfunds
        · trivial
        · trivial
        · refine keeps_commitReservation hi hold fun _ hid => hnew w ?_
          exact ⟨not_le.mp hpos, hkey, hid, hw, not_not.mp hactive, not_lt.mp hfunds, hlimits⟩
      · -- a wallet created on the spot is empty and cannot pay
        dsimp only [firstWallet]
        rw [if_neg (by simp), if_pos (not_le.mp hpos)]
        trivial

/-! ## Settle and release -/

structure SettleAccepted (d : Db) (ctx : CallContext) (id : Uuid) (req : SettleRequest)
    (r : Reservation) (w : Wallet) : Prop where
  row : d.reservations.get? id = some r
  reserved : r.status = .reserved
  nonneg : 0 ≤ money req.actualAmount
  wallet : d.wallets.get? r.walletId = some w
  funds : r.estimatedAmount < money req.actualAmount →
    money req.actualAmount - r.estimatedAmount ≤ w.balance
  limits : r.estimatedAmount < money req.actualAmount →
    ∀ l ∈ d.spendingLimits.rows, l.active = true → r.scopeId l.scopeType = some l.scopeId →
    d.fitsUnder
      { amount := money req.actualAmount - r.estimatedAmount
        userId := r.userId
        scope := r.scope
        now := ctx.now
        excludeReservationId := some r.id } l

theorem keeps_authoriseAdditional {I : Db → Prop} {ctx : CallContext} {r : Reservation}
    {w : Wallet} {actual : ℤ} {d : Db} {post : Unit → Db → Prop}
    (h : (r.estimatedAmount < actual → actual - r.estimatedAmount ≤ w.balance) →
      (r.estimatedAmount < actual →
        ∀ l ∈ d.spendingLimits.rows, l.active = true → r.scopeId l.scopeType = some l.scopeId →
        d.fitsUnder
          { amount := actual - r.estimatedAmount
            userId := r.userId
            scope := r.scope
            now := ctx.now
            excludeReservationId := some r.id } l) → post () d) :
    (authoriseAdditional ctx r w actual).Keeps I d post := by
  unfold authoriseAdditional
  split_ifs with hmore
  · simp only [keeps_bind]
    refine keeps_check.mono ?_
    rintro _ _ ⟨rfl, hlimits⟩
    split_ifs with hfunds
    · trivial
    · exact h (fun _ => not_lt.mp hfunds) (fun _ => hlimits)
  · exact h (fun hlt => absurd hlt hmore) (fun hlt => absurd hlt hmore)

theorem keeps_flushRelease {I : Db → Prop} {r : Reservation} {amount : ℤ}
    {currency : String} {ctx : CallContext} {d : Db} {post : Unit → Db → Prop}
    (h : post () d) : (flushRelease r amount currency ctx).Keeps I d post := by
  unfold flushRelease
  split_ifs
  · exact keeps_flushLedger.mpr fun _ => h
  · exact h

theorem keeps_settle {I : Db → Prop} {ctx : CallContext} {id : Uuid} {req : SettleRequest}
    {d : Db} {post : Reservation → Db → Prop}
    (hold : ∀ r, d.reservations.get? id = some r → r.status ≠ .reserved → post r d)
    (hnew : ∀ r w, SettleAccepted d ctx id req r w →
      I (settleWrite r w (d.budgets.get? r.userId) req ctx d) ∧
        post (r.afterSettle (money req.actualAmount))
          (settleWrite r w (d.budgets.get? r.userId) req ctx d)) :
    (settle {} ctx id req).Keeps I d post := by
  simp only [settle, keeps_bind, keeps_lockReservation]
  intro r hr
  by_cases hres : r.status ≠ .reserved
  · rw [if_pos hres]
    exact hold r hr hres
  rw [if_neg hres]
  by_cases hneg : money req.actualAmount < 0
  · rw [if_pos hneg]
    trivial
  rw [if_neg hneg]
  simp only [keeps_bind, keeps_lockWallet]
  intro w hw
  refine keeps_authoriseAdditional fun hfunds hlimits => ?_
  simp only [keeps_locking, keeps_flushLedger, keeps_write, pure_eq, keeps_ret]
  refine fun _ => keeps_flushRelease ?_
  exact hnew r w ⟨hr, not_not.mp hres, not_lt.mp hneg, hw, hfunds, hlimits⟩

structure ReleaseAccepted (d : Db) (id : Uuid) (r : Reservation) (w : Wallet) : Prop where
  row : d.reservations.get? id = some r
  reserved : r.status = .reserved
  wallet : d.wallets.get? r.walletId = some w

theorem keeps_release {I : Db → Prop} {ctx : CallContext} {id : Uuid} {d : Db}
    {post : Reservation → Db → Prop}
    (hold : ∀ r, d.reservations.get? id = some r → r.status ≠ .reserved → post r d)
    (hnew : ∀ r w, ReleaseAccepted d id r w →
      I (releaseWrite r w ctx d) ∧ post r.afterRelease (releaseWrite r w ctx d)) :
    (release {} ctx id).Keeps I d post := by
  simp only [release, keeps_bind, keeps_lockReservation]
  intro r hr
  split_ifs with hres
  · exact hold r hr hres
  · simp only [keeps_bind, keeps_lockWallet, keeps_flushLedger,
      keeps_write, pure_eq, keeps_ret]
    exact fun w hw _ => hnew r w ⟨hr, not_not.mp hres, hw⟩

theorem keeps_expireReservations {I : Db → Prop} {ctx : CallContext} {limit : ℕ} {d : Db}
    (hi : I d) (hnew : ∀ d id r w, I d → ReleaseAccepted d id r w → I (releaseWrite r w ctx d)) :
    (expireReservations ctx limit).Keeps I d (fun _ => I) := by
  simp only [expireReservations, keeps_bind, keeps_query, pure_eq, keeps_ret]
  refine keeps_forEach (fun id _ d hd => ?_) hi
  simp only [keeps_bind, keeps_ret]
  exact keeps_release (fun _ _ _ => hd) fun r w h => ⟨hnew d id r w hd h, hnew d id r w hd h⟩

/-! ## Credits, deductions and refunds -/

/-- The state and the wallet that `get_wallet` leads to. -/
def Db.openWallet (d : Db) (ctx : CallContext) (userId : Uuid) : Db :=
  match d.walletByUser userId with
  | some _ => d
  | none => d.addWallet (firstWallet ctx userId)

/-- `get_wallet` returns a wallet: the user has one, or the id of the new one is free. -/
def Db.OpensWallet (d : Db) (ctx : CallContext) (userId : Uuid) : Prop :=
  d.walletByUser userId = none → d.wallets.get? ctx.newWalletId = none

structure CreditAccepted (d : Db) (ctx : CallContext) (req : CreditRequest) (w : Wallet) :
    Prop where
  positive : 0 < req.amount
  found : d.walletByUser req.userId = some w
  unused : d.replayed req.referenceId = false
  active : w.status = .active
  idFree : d.transactions.get? ctx.newId = none
  keyFree : d.ledgerHasKey
    (ledgerReference "topup" req.referenceId (creditTransaction ctx req w)) = false

instance (d : Db) (ctx : CallContext) (req : CreditRequest) (w : Wallet) :
    Decidable (CreditAccepted d ctx req w) :=
  decidable_of_iff (0 < req.amount ∧ d.walletByUser req.userId = some w ∧
      d.replayed req.referenceId = false ∧ w.status = .active ∧
      d.transactions.get? ctx.newId = none ∧
      d.ledgerHasKey (ledgerReference "topup" req.referenceId (creditTransaction ctx req w)) = false)
    ⟨fun ⟨h₁, h₂, h₃, h₄, h₅, h₆⟩ => ⟨h₁, h₂, h₃, h₄, h₅, h₆⟩,
      fun ⟨h₁, h₂, h₃, h₄, h₅, h₆⟩ => ⟨h₁, h₂, h₃, h₄, h₅, h₆⟩⟩

theorem CreditAccepted.wallet {d : Db} {ctx : CallContext} {req : CreditRequest} {w : Wallet}
    (h : CreditAccepted d ctx req w) : d.wallets.get? w.id = some w :=
  (walletByUser_get? h.found).1

theorem CreditAccepted.user {d : Db} {ctx : CallContext} {req : CreditRequest} {w : Wallet}
    (h : CreditAccepted d ctx req w) : w.userId = req.userId := (walletByUser_get? h.found).2

theorem keeps_insertTransaction {I : Db → Prop} {t : WalletTransaction} {d : Db}
    {post : Unit → Db → Prop} :
    (insertTransaction t).Keeps I d post ↔ (d.transactions.get? t.id = none → post () d) := by
  simp [insertTransaction, keeps_insertUnique]

theorem keeps_creditWallet {I : Db → Prop} {ctx : CallContext} {req : CreditRequest} {d : Db}
    {w : Wallet} {post : WalletTransaction → Db → Prop} (hpos : 0 < req.amount)
    (hw : d.walletByUser req.userId = some w)
    (hold : ∀ t, d.storedUnder req.referenceId = [t] → post t d)
    (hnew : CreditAccepted d ctx req w →
      let t := creditTransaction ctx req w
      let credited := creditWrite w t
        (reopenedBudget (d.budgets.get? req.userId) (w.balance + req.amount) 0)
        (topupLedger ctx req w t) d
      I credited ∧ post t credited) :
    (creditWallet ctx req w).Keeps I d post := by
  unfold creditWallet
  rw [keeps_bind]
  refine keeps_existingTransaction hold fun hunused => ?_
  dsimp only
  split_ifs with hactive
  · trivial
  simp only [keeps_bind, keeps_getForUpdate, keeps_insertTransaction, keeps_query,
    keeps_updateBudgets, keeps_flushLedger, keeps_write, pure_eq, keeps_ret]
  intro _ _ hid hkey
  exact hnew ⟨hpos, hw, hunused, not_not.mp hactive, hid, hkey⟩

theorem walletByUser_addWallet {d : Db} {w : Wallet} (hid : d.wallets.get? w.id = none)
    (huser : d.walletByUser w.userId = none) : (d.addWallet w).walletByUser w.userId = some w := by
  have hrows : (d.addWallet w).wallets.rows = d.wallets.rows ++ [w] := by
    simp only [Db.addWallet, RowTable.insert, dif_neg (RowTable.get?_none_notMem hid)]
  rw [Db.walletByUser] at huser
  simp [Db.walletByUser, hrows, huser]

/-- What follows `get_wallet` runs on the wallet of the user, created if need be. -/
theorem keeps_afterWallet {α : Type} {I : Db → Prop} {ctx : CallContext} {userId : Uuid} {d : Db}
    {p : Wallet → Sql α} {post : α → Db → Prop} (hi : I d)
    (hwallet : d.walletByUser userId = none → d.wallets.get? ctx.newWalletId = none →
      I (d.addWallet (firstWallet ctx userId)))
    (hp : ∀ w, d.OpensWallet ctx userId → I (d.openWallet ctx userId) →
      (d.openWallet ctx userId).walletByUser userId = some w →
        (p w).Keeps I (d.openWallet ctx userId) post) :
    (getWallet {} ctx userId >>= p).Keeps I d post := by
  rw [keeps_bind]
  refine keeps_getWallet hi (fun w hw => ?_) fun hnone hid => ?_
  · have hopen : d.openWallet ctx userId = d := by simp only [Db.openWallet, hw]
    rw [hopen] at hp
    exact hp w (fun hnone => by simp [hw] at hnone) hi hw
  · have hopen : d.openWallet ctx userId = d.addWallet (firstWallet ctx userId) := by
      simp only [Db.openWallet, hnone]
    have h := hwallet hnone hid
    rw [hopen] at hp
    exact ⟨h, hp _ (fun _ => hid) h (walletByUser_addWallet hid hnone)⟩

theorem keeps_addCredit {I : Db → Prop} {ctx : CallContext} {req : CreditRequest} {d : Db}
    (hi : I d)
    (hwallet : d.walletByUser req.userId = none → d.wallets.get? ctx.newWalletId = none →
      I (d.addWallet (firstWallet ctx req.userId)))
    (hnew : ∀ w, let d := d.openWallet ctx req.userId
      I d → CreditAccepted d ctx req w →
      I (creditWrite w (creditTransaction ctx req w)
        (reopenedBudget (d.budgets.get? req.userId) (w.balance + req.amount) 0)
        (topupLedger ctx req w (creditTransaction ctx req w)) d)) :
    (addCredit ctx req).Keeps I d (fun _ => I) := by
  unfold addCredit
  split_ifs with hpos
  · trivial
  · exact keeps_afterWallet hi hwallet fun w _ hd hw =>
      keeps_creditWallet (not_le.mp hpos) hw (fun _ _ => hd) fun h => and_self_iff.mpr (hnew w hd h)

structure DebitAccepted (d : Db) (ctx : CallContext) (req : CreditRequest) (w : Wallet) :
    Prop where
  positive : 0 < req.amount
  found : d.walletByUser req.userId = some w
  unused : d.replayed req.referenceId = false
  active : w.status = .active
  funds : req.amount ≤ w.balance
  idFree : d.transactions.get? ctx.newId = none

instance (d : Db) (ctx : CallContext) (req : CreditRequest) (w : Wallet) :
    Decidable (DebitAccepted d ctx req w) :=
  decidable_of_iff (0 < req.amount ∧ d.walletByUser req.userId = some w ∧
      d.replayed req.referenceId = false ∧ w.status = .active ∧ req.amount ≤ w.balance ∧
      d.transactions.get? ctx.newId = none)
    ⟨fun ⟨h₁, h₂, h₃, h₄, h₅, h₆⟩ => ⟨h₁, h₂, h₃, h₄, h₅, h₆⟩,
      fun ⟨h₁, h₂, h₃, h₄, h₅, h₆⟩ => ⟨h₁, h₂, h₃, h₄, h₅, h₆⟩⟩

theorem DebitAccepted.wallet {d : Db} {ctx : CallContext} {req : CreditRequest} {w : Wallet}
    (h : DebitAccepted d ctx req w) : d.wallets.get? w.id = some w :=
  (walletByUser_get? h.found).1

theorem DebitAccepted.user {d : Db} {ctx : CallContext} {req : CreditRequest} {w : Wallet}
    (h : DebitAccepted d ctx req w) : w.userId = req.userId := (walletByUser_get? h.found).2

/-- The budget that `_update_budget_spend` leaves, with the one it has loaded. -/
def spentBudget (budget : Option Budget) (amount : ℤ) : Option (Budget × Budget) :=
  match budget with
  | none => none
  | some b =>
      match b.monthlyLimit with
      | none => none
      | some limit => some (b, (budgetAlert (b.spend amount) limit).getD (b.spend amount))

/-- `_update_budget_spend` hands back the pending writes with the change of the
budget added, or it has committed them. -/
theorem keeps_updateBudgetSpend {I : Db → Prop} {userId : Uuid} {amount : ℤ}
    {pending : Pending} {d : Db} {post : Pending → Db → Prop}
    (hopen : post { pending with
      writes := fun d' => flushBudgetOf (spentBudget (d.budgets.get? userId) amount)
        (pending.writes d') } d)
    (hdone :
      I (flushBudgetOf (spentBudget (d.budgets.get? userId) amount) (pending.writes d)) ∧
      post { label := .ledger, writes := id }
        (flushBudgetOf (spentBudget (d.budgets.get? userId) amount) (pending.writes d))) :
    (updateBudgetSpend userId amount pending).Keeps I d post := by
  simp only [updateBudgetSpend, keeps_bind, keeps_query]
  cases hb : d.budgets.get? userId with
  | none =>
      rw [hb] at hopen
      exact hopen
  | some b =>
      dsimp only
      cases hlimit : b.monthlyLimit with
      | none =>
          simp only [hb, spentBudget, hlimit] at hopen
          exact hopen
      | some limit =>
          simp only [updateBudget, keeps_bind, keeps_locking]
          simp only [hb, spentBudget, hlimit] at hopen hdone
          cases halert : budgetAlert (b.spend amount) limit with
          | none =>
              rw [halert] at hopen
              exact hopen
          | some alerted =>
              rw [halert] at hdone
              exact hdone

theorem keeps_debitWallet {I : Db → Prop} {ctx : CallContext} {req : CreditRequest} {d : Db}
    {w : Wallet} {post : WalletTransaction → Db → Prop} (hpos : 0 < req.amount)
    (hw : d.walletByUser req.userId = some w)
    (hold : ∀ t, d.storedUnder req.referenceId = [t] → post t d)
    (hnew : DebitAccepted d ctx req w →
      let t := debitTransaction ctx req w
      let debited := debitWrite w t (spentBudget (d.budgets.get? req.userId) req.amount) d
      let noted := debited.addLedger (debitLedger ctx req w t)
      I debited ∧ I noted ∧ post t noted) :
    (debitWallet ctx req w).Keeps I d post := by
  unfold debitWallet
  rw [keeps_bind]
  refine keeps_existingTransaction hold fun hunused => ?_
  dsimp only
  split_ifs with hactive
  · trivial
  simp only [keeps_bind, keeps_getForUpdate]
  intro _ _
  split_ifs with hfunds
  · trivial
  simp only [keeps_bind, keeps_insertTransaction]
  intro hid
  obtain ⟨hdebited, hledger⟩ :=
    hnew ⟨hpos, hw, hunused, not_not.mp hactive, not_lt.mp hfunds, hid⟩
  refine keeps_updateBudgetSpend ?_ ?_
  · simp only [keeps_flushLedger, keeps_write, pure_eq, keeps_ret]
    exact fun _ => hledger
  · simp only [keeps_flushLedger, keeps_write, pure_eq, keeps_ret]
    exact ⟨hdebited, fun _ => hledger⟩

theorem keeps_deductCredit {I : Db → Prop} {ctx : CallContext} {req : CreditRequest} {d : Db}
    (hi : I d)
    (hwallet : d.walletByUser req.userId = none → d.wallets.get? ctx.newWalletId = none →
      I (d.addWallet (firstWallet ctx req.userId)))
    (hnew : ∀ w, let d := d.openWallet ctx req.userId
      I d → DebitAccepted d ctx req w →
      let t := debitTransaction ctx req w
      let debited := debitWrite w t (spentBudget (d.budgets.get? req.userId) req.amount) d
      I debited ∧ I (debited.addLedger (debitLedger ctx req w t))) :
    (deductCredit ctx req).Keeps I d (fun _ => I) := by
  unfold deductCredit
  split_ifs with hpos
  · trivial
  · exact keeps_afterWallet hi hwallet fun w _ hd hw =>
      keeps_debitWallet (not_le.mp hpos) hw (fun _ _ => hd) fun h =>
        (hnew w hd h).imp_right fun hnoted => ⟨hnoted, hnoted⟩

structure RefundAccepted (d : Db) (ctx : CallContext) (userId : Uuid)
    (original : WalletTransaction) (w : Wallet) : Prop where
  row : d.transactions.get? original.id = some original
  debit : original.type = .debit
  open_ : d.hasRefund original.id = false
  user : d.walletByUser userId = some w
  wallet : d.wallets.get? original.walletId = some w
  idFree : d.transactions.get? ctx.newId = none
  keyFree : d.ledgerHasKey ("refund:" ++ original.id.str) = false

instance (d : Db) (ctx : CallContext) (userId : Uuid) (original : WalletTransaction) (w : Wallet) :
    Decidable (RefundAccepted d ctx userId original w) :=
  decidable_of_iff (d.transactions.get? original.id = some original ∧ original.type = .debit ∧
      d.hasRefund original.id = false ∧ d.walletByUser userId = some w ∧
      d.wallets.get? original.walletId = some w ∧ d.transactions.get? ctx.newId = none ∧
      d.ledgerHasKey ("refund:" ++ original.id.str) = false)
    ⟨fun ⟨h₁, h₂, h₃, h₄, h₅, h₆, h₇⟩ => ⟨h₁, h₂, h₃, h₄, h₅, h₆, h₇⟩,
      fun ⟨h₁, h₂, h₃, h₄, h₅, h₆, h₇⟩ => ⟨h₁, h₂, h₃, h₄, h₅, h₆, h₇⟩⟩

theorem keeps_refundTransaction {I : Db → Prop} {ctx : CallContext}
    {userId transactionId : Uuid} {reason : String} {d : Db}
    (hnew : ∀ original w, original.id = transactionId →
      RefundAccepted d ctx userId original w →
      I (refundWrite w (refundTransactionRow ctx reason original w)
        (reopenedBudget (d.budgets.get? userId) (w.balance + original.amount)
          (max 0 (((d.budgets.get? userId).map Budget.currentSpend).getD 0 - original.amount)))
        (refundLedger ctx userId original w) d)) :
    (refundTransaction ctx userId transactionId reason).Keeps I d (fun _ => I) := by
  simp only [refundTransaction, keeps_bind, keeps_query]
  cases hrow : d.transactions.get? transactionId with
  | none => trivial
  | some original =>
      have hid : original.id = transactionId := RowTable.get?_some_key hrow
      dsimp only
      split_ifs with hdebit
      · trivial
      simp only [keeps_bind, keeps_query]
      cases hopen : d.hasRefund original.id with
      | true => trivial
      | false =>
          simp only [Bool.false_eq_true, if_false, keeps_bind, keeps_query]
          cases hw : d.walletByUser userId with
          | none => trivial
          | some w =>
              dsimp only
              split_ifs with hsame
              · trivial
              simp only [refundToWallet, keeps_bind, keeps_getForUpdate, keeps_insertTransaction,
                keeps_query, keeps_updateBudgets, keeps_flushLedger, keeps_write, pure_eq,
                keeps_ret, and_self]
              intro _ hget hfree hkey
              have hwid : w.id = original.walletId := not_not.mp hsame
              exact hnew original w hid ⟨hid ▸ hrow, not_not.mp hdebit, hopen, hw,
                hwid ▸ (walletByUser_get? hw).1, hfree, hkey⟩

/-! ## Budgets -/

theorem keeps_createOrUpdateBudget {I : Db → Prop} {userId : Uuid} {body : BudgetCreate} {d : Db}
    (hupdated : ∀ b, d.budgets.get? userId = some b → I (d.flushBudgetSettings b (b.configure body)))
    (hcreated : d.budgets.get? userId = none →
      I (d.addBudget (({ userId } : Budget).configure body))) :
    (createOrUpdateBudget userId body).Keeps I d (fun _ => I) := by
  simp only [createOrUpdateBudget, keeps_bind, keeps_query]
  cases hb : d.budgets.get? userId with
  | some b =>
      simp only [updateBudget, keeps_bind, keeps_locking, keeps_write, pure_eq, keeps_ret, and_self]
      exact hupdated b hb
  | none =>
      simp only [keeps_bind, keeps_insertUnique, keeps_write, pure_eq, keeps_ret, and_self]
      exact fun _ => hcreated hb

end Zyntry
