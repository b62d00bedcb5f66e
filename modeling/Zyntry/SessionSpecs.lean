import Zyntry.SessionFrames
import Zyntry.SqlAssertions

/-!
# The billing operations among other sessions

A discipline is `Framed` when its guarantee implies `Frame` and allows rollbacks.
For every framed discipline, an operation obeys it as soon as its commits do,
where `ReserveReady`, `SettleReady` and `ReleaseReady` say what the session knows
when it commits: its locks have kept what it read under them unchanged.
-/

namespace Zyntry

open SqlProgram SqlProgram.Discipline

abbrev SqlDiscipline := Discipline Db Resource Statement

structure Framed (Δ : SqlDiscipline) : Prop where
  frame : ∀ H l d d', Δ.guarantee H l d d' → Frame H d d'
  rollback : ∀ H d log, Δ.inv d log →
    Δ.guarantee H (.commit .rollback) d d ∧ Δ.inv d (log ++ [.commit .rollback])

variable {Δ : SqlDiscipline} {α : Type}

/-! ## What locks protect -/

theorem Framed.firm_wallet (hΔ : Framed Δ) {H : Set Resource} {id : Uuid} (h : .wallet id ∈ H)
    (row : Option Wallet) : Δ.Firm H (fun d => d.wallets.get? id = row) :=
  fun _ _ _ _ _ _ _ hd _ hg hq =>
    ((hΔ.frame _ _ _ _ hg).wallet id fun hr => hd _ hr h).trans hq

theorem Framed.firm_reservation (hΔ : Framed Δ) {H : Set Resource} {id : Uuid}
    (h : .reservation id ∈ H) (row : Option Reservation) :
    Δ.Firm H (fun d => d.reservations.get? id = row) :=
  fun _ _ _ _ _ _ _ hd _ hg hq =>
    ((hΔ.frame _ _ _ _ hg).reservation id fun hr => hd _ hr h).trans hq

theorem Framed.firm_reservationKey (hΔ : Framed Δ) {H : Set Resource} {key : String}
    (h : .reservationKey key ∈ H) : Δ.Firm H (fun d => d.reservationByKey key = none) :=
  fun _ _ _ _ _ _ _ hd _ hg hq =>
    (hΔ.frame _ _ _ _ hg).reservationKey key (fun hr => hd _ hr h) hq

theorem Framed.firm_ledgerKey (hΔ : Framed Δ) {H : Set Resource} {key : String}
    (h : .ledgerKey key ∈ H) : Δ.Firm H (fun d => d.ledgerHasKey key = false) :=
  fun _ _ _ _ _ _ _ hd _ hg hq =>
    (hΔ.frame _ _ _ _ hg).ledgerKey key (fun hr => hd _ hr h) hq

theorem Framed.firm_transaction (hΔ : Framed Δ) {H : Set Resource} {id : Uuid}
    (h : .transaction id ∈ H) : Δ.Firm H (fun d => d.transactions.get? id = none) :=
  fun _ _ _ _ _ _ _ hd _ hg hq =>
    (hΔ.frame _ _ _ _ hg).transaction id (fun hr => hd _ hr h) hq

/-! ## Building blocks -/

theorem sat_insertUnique {H : Set Resource} {Q : Db → Prop} {keys : List Resource}
    {taken : Db → Bool} {k : Unit → Sql α} {post : α → Set Resource → (Db → Prop) → Prop}
    (hQ : Δ.Firm H Q)
    (h : ∀ d log, Δ.inv d log → Q d → taken d = false →
      ∀ H', H ⊆ H' → (∀ r ∈ keys, r ∈ H') →
        ∃ Q' : Db → Prop, Q' d ∧ Δ.Sat (k ()) H' Q' post) :
    Δ.Sat (insertUnique keys taken >>= k) H Q post := by
  unfold insertUnique
  rw [bind_assoc]
  refine Δ.sat_locking (hQ _) fun d log hi _ hq => ?_
  cases ht : taken d with
  | true => exact ⟨fun _ => True, trivial, trivial⟩
  | false =>
      exact h d log hi hq ht _ Set.subset_union_left fun r hr => .inr hr

theorem sat_lockReservation {H : Set Resource} {Q : Db → Prop} {held : IdentityMap} {id : Uuid}
    {p : Finaliser} {k : Reservation → Sql α}
    {post : α → Set Resource → (Db → Prop) → Prop} (hQ : Δ.Firm H Q)
    (h : ∀ d log row, Δ.inv d log → Δ.own (.lockReservation id held p) d → Q d →
      d.reservations.get? id = some row →
      ∀ H', H ⊆ H' → .reservation id ∈ H' →
        ∃ Q' : Db → Prop, Q' d ∧ Δ.Sat (k (held.reservation row)) H' Q' post) :
    Δ.Sat (lockReservation held id p >>= k) H Q post := by
  unfold lockReservation
  rw [bind_assoc]
  refine Δ.sat_locking (hQ _) fun d log hi ho hq => ?_
  cases hrow : d.reservations.get? id with
  | none => exact ⟨fun _ => True, trivial, trivial⟩
  | some row =>
      refine h d log row hi ho hq hrow _ Set.subset_union_left (.inr ?_)
      have hid : row.id = id := RowTable.get?_some_key hrow
      simp [hid]

theorem sat_lockWallet {H : Set Resource} {Q : Db → Prop} {held : IdentityMap} {id : Uuid}
    {k : Wallet → Sql α} {post : α → Set Resource → (Db → Prop) → Prop} (hQ : Δ.Firm H Q)
    (h : ∀ d log row, Δ.inv d log → Δ.own (.lockWallet id held) d → Q d →
      d.wallets.get? id = some row →
      ∀ H', H ⊆ H' → .wallet id ∈ H' →
        ∃ Q' : Db → Prop, Q' d ∧ Δ.Sat (k (held.wallet row)) H' Q' post) :
    Δ.Sat (lockWallet held id >>= k) H Q post := by
  unfold lockWallet
  rw [bind_assoc]
  refine Δ.sat_locking (hQ _) fun d log hi ho hq => ?_
  cases hrow : d.wallets.get? id with
  | none => exact ⟨fun _ => True, trivial, trivial⟩
  | some row =>
      refine h d log row hi ho hq hrow _ Set.subset_union_left (.inr ?_)
      have hid : row.id = id := RowTable.get?_some_key hrow
      simp [hid]

theorem sat_checkLimit {H : Set Resource} {Q : Db → Prop} (hQ : Δ.Firm H Q) (req : CheckRequest)
    (scope : ScopeType) (id : Uuid) (l : SpendingLimit) :
    Δ.Sat (checkLimit req scope id l) H Q (fun _ H' Q' => H' = H ∧ Q' = Q) := by
  refine Δ.sat_query (hQ _) fun d _ _ _ hq => ⟨Q, hq, ?_⟩
  refine Δ.sat_query (hQ _) fun d' _ _ _ hq' => ⟨Q, hq', ?_⟩
  dsimp only
  split_ifs
  · trivial
  · exact ⟨rfl, rfl⟩

theorem sat_checkScope {H : Set Resource} {Q : Db → Prop} (hQ : Δ.Firm H Q) (req : CheckRequest)
    (scope : ScopeType) (id : Uuid) :
    Δ.Sat (checkScope req scope id) H Q (fun _ H' Q' => H ⊆ H' ∧ Q' = Q) := by
  refine Δ.sat_locking (hQ _) fun d _ _ _ hq => ⟨Q, hq, ?_⟩
  refine Δ.sat_forEach (J := fun H' Q' => H ⊆ H' ∧ Q' = Q) ?_ ⟨Set.subset_union_left, rfl⟩
  rintro limit _ H₁ _ ⟨hsub, rfl⟩
  refine (sat_checkLimit (hQ.mono_held hsub) req scope id limit).mono ?_
  rintro _ _ _ ⟨rfl, rfl⟩
  exact ⟨hsub, rfl⟩

/-- Whatever is known before a check is known after it, with more locks held. -/
theorem sat_check {H : Set Resource} {Q : Db → Prop} (hQ : Δ.Firm H Q) (req : CheckRequest) :
    Δ.Sat (check req) H Q (fun _ H' Q' => H ⊆ H' ∧ Q' = Q) := by
  refine Δ.sat_forEach (J := fun H' Q' => H ⊆ H' ∧ Q' = Q) ?_ ⟨subset_rfl, rfl⟩
  rintro ⟨scope, id⟩ _ H₁ _ ⟨hsub, rfl⟩
  refine (sat_checkScope (hQ.mono_held hsub) req scope id).mono ?_
  rintro _ H₂ _ ⟨hsub₂, rfl⟩
  exact ⟨hsub.trans hsub₂, rfl⟩

/-! ## Reserve -/

structure ReserveReady (Δ : SqlDiscipline) (held : IdentityMap) (ctx : CallContext)
    (req : ReserveRequest) (H : Set Resource) (d : Db) (row : Wallet) : Prop where
  positive : 0 < money req.amount
  keyFree : d.reservationByKey req.idempotencyKey = none
  idFree : d.reservations.get? ctx.newId = none
  wallet : d.wallets.get? row.id = some row
  user : row.userId = req.userId
  walletOwned : .wallet row.id ∈ H
  funds : money req.amount ≤ (held.wallet row).balance
  ledgerFree : d.ledgerHasKey (req.idempotencyKey ++ ":reservation") = false
  frame : Frame H d (reserveWrite none (held.wallet row)
    (req.reservation ctx (held.wallet row)) ctx d)
  locked : ∃ d₀ log₀, Δ.inv d₀ log₀ ∧ Δ.own (.lockWalletOf req.userId held) d₀ ∧
    d₀.walletByUser req.userId = some row

theorem sat_conflictedReservation (hΔ : Framed Δ) {H : Set Resource} {Q Q₀ : Db → Prop}
    {key : String} {post : Reservation → Set Resource → (Db → Prop) → Prop} (hQ : Δ.Firm H Q)
    (hQ₀ : Δ.Lasting Q₀) (hweak : ∀ d, Q d → Q₀ d)
    (hrow : ∀ d log row, Δ.inv d log → Q₀ d → d.reservationByKey key = some row →
      Reaches post d row ∅) :
    Δ.Sat (conflictedReservation key) H Q post := by
  refine Δ.sat_write (hQ _) fun d log hi _ hq => ?_
  refine ⟨(hΔ.rollback H d log hi).1, (hΔ.rollback H d log hi).2, Q₀, hweak d hq, ?_⟩
  refine Δ.sat_query (hQ₀.firm ∅ _) fun d log hi _ hq => ?_
  cases hkey : d.reservationByKey key with
  | none => exact ⟨fun _ => True, trivial, trivial⟩
  | some row => exact hrow d log row hi hq hkey

theorem sat_commitReservation (hΔ : Framed Δ) {H : Set Resource} {Q Q₀ : Db → Prop}
    {ctx : CallContext} {req : ReserveRequest} {w : Wallet}
    {post : Reservation → Set Resource → (Db → Prop) → Prop} (hQ : Δ.Firm H Q)
    (hQ₀ : Δ.Lasting Q₀) (hweak : ∀ d, Q d → Q₀ d)
    (hrow : ∀ d log row, Δ.inv d log → Q₀ d → d.reservationByKey req.idempotencyKey = some row →
      Reaches post d row ∅)
    (hnew : ∀ d log H', Δ.inv d log → H ⊆ H' → Q d →
      d.reservationByKey req.idempotencyKey = none → d.reservations.get? ctx.newId = none →
      d.ledgerHasKey (req.idempotencyKey ++ ":reservation") = false →
      .reservation ctx.newId ∈ H' → .reservationKey req.idempotencyKey ∈ H' →
      .ledgerKey (req.idempotencyKey ++ ":reservation") ∈ H' →
      Δ.guarantee H' (.commit (.reserve w.id (money req.amount))) d
        (reserveWrite none w (req.reservation ctx w) ctx d) ∧
      Δ.inv (reserveWrite none w (req.reservation ctx w) ctx d)
        (log ++ [.commit (.reserve w.id (money req.amount))]) ∧
      Reaches post (reserveWrite none w (req.reservation ctx w) ctx d)
        (req.reservation ctx w) ∅) :
    Δ.Sat (commitReservation ctx req w none) H Q post := by
  simp only [commitReservation, flushLedger, insertUnique, bind_assoc, catching_locking]
  refine Δ.sat_locking (hQ _) fun d log hi _ hq => ?_
  cases hx : reservationExists (req.reservation ctx w).id (req.reservation ctx w).idempotencyKey d with
  | true =>
      refine ⟨Q, hq, ?_⟩
      simp only [if_true, raise_bind, catching_raise, onIntegrityError_self]
      exact sat_conflictedReservation hΔ (hQ.mono_held Set.subset_union_left) hQ₀ hweak hrow
  | false =>
      simp only [reservationExists, Bool.or_eq_false_iff, Option.isSome_eq_false_iff,
        Option.isNone_iff_eq_none] at hx
      simp only [Bool.false_eq_true, if_false, pure_eq, ret_bind, catching_locking]
      refine Firm.known ((hQ.mono_held Set.subset_union_left).and
        ((hΔ.firm_reservation (.inr (by simp [ReserveRequest.reservation])) none).and
          (hΔ.firm_reservationKey (.inr (by simp [ReserveRequest.reservation])))))
        ⟨hq, hx.1, hx.2⟩ fun hfree => ?_
      refine Δ.sat_locking (hfree _) fun d log hi _ hq => ?_
      cases ht : ledgerKeyTaken (reservationLedger (req.reservation ctx w) ctx).idempotencyKey d with
      | true =>
          refine Firm.known (hfree.mono_held Set.subset_union_left) hq fun hfree => ?_
          simp only [if_true, raise_bind, catching_raise, onIntegrityError_self]
          exact sat_conflictedReservation hΔ hfree hQ₀ (fun d hd => hweak d hd.1) hrow
      | false =>
          simp only [Bool.false_eq_true, if_false, ret_bind, catching_write, catching_ret]
          refine Firm.known ((hfree.mono_held Set.subset_union_left).and (hΔ.firm_ledgerKey
            (.inr (by simp [reservationLedger, ReserveRequest.reservation])))) ⟨hq, ht⟩
            fun hledger => ?_
          refine Δ.sat_write (hledger _) fun d log hi _ hq => ?_
          refine hnew d log _ hi ?_ hq.1.1 hq.1.2.2 hq.1.2.1 hq.2 ?_ ?_ ?_
          · exact Set.subset_union_left.trans Set.subset_union_left
          · exact .inl (.inr (by simp [ReserveRequest.reservation]))
          · exact .inl (.inr (by simp [ReserveRequest.reservation]))
          · exact .inr (by simp [reservationLedger, ReserveRequest.reservation])

/-- `K` and `C` are the locks and the facts that the check of the limits provides. -/
theorem sat_reserve (hΔ : Framed Δ) {held : IdentityMap} {ctx : CallContext}
    {req : ReserveRequest} {H K : Set Resource} {Q C : Db → Prop}
    {post : Reservation → Set Resource → (Db → Prop) → Prop} (hQ : Δ.Lasting Q)
    (hcheck : ∀ H', H ⊆ H' → Δ.Sat
      (check { amount := money req.amount, userId := req.userId, scope := req.scope,
               now := ctx.now }) H' Q
      (fun _ H'' Q' => K ⊆ H'' ∧ Δ.Firm H'' Q' ∧ ∀ d, Q' d → Q d ∧ C d))
    (hold : ∀ d log row H', Δ.inv d log → Q d →
      d.reservationByKey req.idempotencyKey = some row → .reservation row.id ∈ H' →
      Reaches post d (held.reservation row) H')
    (hrow : ∀ d log row, Δ.inv d log → Q d →
      d.reservationByKey req.idempotencyKey = some row → Reaches post d row ∅)
    (hnew : ∀ d log H' row, Δ.inv d log → K ⊆ H' → Q d → C d →
      ReserveReady Δ held ctx req H' d row →
      Δ.guarantee H' (.commit (.reserve row.id (money req.amount))) d
        (reserveWrite none (held.wallet row) (req.reservation ctx (held.wallet row)) ctx d) ∧
      Δ.inv (reserveWrite none (held.wallet row) (req.reservation ctx (held.wallet row)) ctx d)
        (log ++ [.commit (.reserve row.id (money req.amount))]) ∧
      Reaches post
        (reserveWrite none (held.wallet row) (req.reservation ctx (held.wallet row)) ctx d)
        (req.reservation ctx (held.wallet row)) ∅) :
    Δ.Sat (reserve held ctx req) H Q post := by
  unfold reserve
  split_ifs with hpos
  · trivial
  refine Δ.sat_locking (hQ.firm H _) fun d log hi _ hq => ?_
  cases hkey : d.reservationByKey req.idempotencyKey with
  | some row =>
      refine hold d log row _ hi hq hkey (.inr ?_)
      simp
  | none =>
      refine ⟨Q, hq, ?_⟩
      refine Δ.sat_bind _ _ _ _ _ ((hcheck _ Set.subset_union_left).mono ?_)
      rintro _ H₁ Q₁ ⟨hK, hfirm, hC⟩
      simp only [walletForUpdate, bind_assoc]
      refine Δ.sat_locking (hfirm _) fun d log hi hown hq₁ => ?_
      cases hw : d.walletByUser req.userId with
      | none =>
          refine ⟨Q₁, hq₁, ?_⟩
          simp only [Option.map_none, bind_assoc]
          refine sat_insertUnique (hfirm.mono_held Set.subset_union_left)
            fun d _ _ hq₁ _ H' _ _ => ⟨Q₁, hq₁, ?_⟩
          -- the new wallet is empty and cannot pay
          simp only [pure_eq, ret_bind, ne_eq, not_true_eq_false, if_false]
          rw [if_pos (not_le.mp hpos)]
          trivial
      | some row =>
          have hrowid := walletByUser_get? hw
          have howned : Resource.wallet row.id ∈ H₁ ∪ {r | r ∈ (some row).toList.map
              (fun w => Resource.wallet w.id)} := .inr (by simp)
          refine Firm.known ((hfirm.mono_held Set.subset_union_left).and
            (hΔ.firm_wallet howned (some row))) ⟨hq₁, hrowid.1⟩ fun hfirm₂ => ?_
          simp only [Option.map_some, pure_eq, ret_bind]
          split_ifs with hactive hfunds
          · trivial
          · trivial
          refine sat_commitReservation hΔ hfirm₂ hQ (fun d hd => (hC d hd.1).1) hrow ?_
          intro d' log' H' hi' hsub hq' hkeyFree hidFree hledgerFree hres hresKey hledgerKey
          have hid : (held.wallet row).id = row.id := held.wallet_id row
          rw [hid]
          refine hnew d' log' H' row hi' ?_ (hC d' hq'.1).1 (hC d' hq'.1).2 ?_
          · exact hK.trans (Set.subset_union_left.trans hsub)
          · exact
              { positive := not_le.mp hpos
                keyFree := hkeyFree
                idFree := hidFree
                wallet := hq'.2
                user := hrowid.2
                walletOwned := hsub howned
                funds := not_lt.mp hfunds
                ledgerFree := hledgerFree
                frame := Frame.reserveWrite (hid ▸ hsub howned) hres hresKey hledgerKey
                locked := ⟨d, log, hi, hown, hw⟩ }

/-! ## Settle -/

structure SettleReady (Δ : SqlDiscipline) (held : IdentityMap) (ctx : CallContext) (id : Uuid)
    (req : SettleRequest) (H : Set Resource) (d : Db) (row : Reservation) (wallet : Wallet)
    (budget : Option Budget) : Prop where
  stored : d.reservations.get? id = some row
  reserved : (held.reservation row).status = .reserved
  nonneg : 0 ≤ money req.actualAmount
  funded : d.wallets.get? (held.reservation row).walletId = some wallet
  reservationOwned : .reservation id ∈ H
  walletOwned : .wallet wallet.id ∈ H
  settledFree : d.ledgerHasKey ((held.reservation row).idempotencyKey ++ ":settled") = false
  releaseFree : 0 < releaseAmount (held.reservation row) (money req.actualAmount) →
    d.ledgerHasKey ((held.reservation row).idempotencyKey ++ ":release") = false
  frame : Frame H d (settleWrite (held.reservation row) (held.wallet wallet) budget req ctx d)
  locked : ∃ d₀ log₀, Δ.inv d₀ log₀ ∧
    Δ.own (.lockReservation id held (.settle (money req.actualAmount))) d₀ ∧
    d₀.reservations.get? id = some row

theorem sat_flushLedger {H : Set Resource} {Q : Db → Prop} {l : BillingLedger} {key : String}
    {k : Unit → Sql α} {post : α → Set Resource → (Db → Prop) → Prop} (hΔ : Framed Δ)
    (hkey : l.idempotencyKey = some key) (hQ : Δ.Firm H Q)
    (h : ∀ H', H ⊆ H' → .ledgerKey key ∈ H' →
      Δ.Firm H' (fun d => Q d ∧ d.ledgerHasKey key = false) →
      Δ.Sat (k ()) H' (fun d => Q d ∧ d.ledgerHasKey key = false) post) :
    Δ.Sat (flushLedger l >>= k) H Q post := by
  refine sat_insertUnique hQ fun d _ _ hq ht H' hsub hkeys => ?_
  have howned : Resource.ledgerKey key ∈ H' := hkeys _ (by simp [hkey])
  refine Firm.known ((hQ.mono_held hsub).and (hΔ.firm_ledgerKey howned)) ⟨hq, ?_⟩
    (h H' hsub howned)
  simpa only [ledgerKeyTaken, hkey] using ht

theorem sat_authoriseAdditional {H : Set Resource} {Q : Db → Prop} {ctx : CallContext}
    {r : Reservation} {w : Wallet} {actual : ℤ} {k : Unit → Sql α}
    {post : α → Set Resource → (Db → Prop) → Prop} (hQ : Δ.Firm H Q)
    (h : ∀ H', H ⊆ H' → Δ.Sat (k ()) H' Q post) :
    Δ.Sat (authoriseAdditional ctx r w actual >>= k) H Q post := by
  unfold authoriseAdditional
  split_ifs with hmore
  · rw [bind_assoc]
    refine Δ.sat_bind _ _ _ _ _ ((sat_check hQ _).mono ?_)
    rintro _ H' _ ⟨hsub, rfl⟩
    split_ifs
    · trivial
    · exact h H' hsub
  · exact h H subset_rfl

/-- The ledger row of a release, which `settle` writes only for a positive amount. -/
theorem sat_flushRelease {H : Set Resource} {Q : Db → Prop} {r : Reservation} {amount : ℤ}
    {currency : String} {ctx : CallContext} {k : Unit → Sql α}
    {post : α → Set Resource → (Db → Prop) → Prop} (hΔ : Framed Δ) (hQ : Δ.Firm H Q)
    (h : ∀ H' Q', H ⊆ H' → (0 < amount → .ledgerKey (r.idempotencyKey ++ ":release") ∈ H') →
      Δ.Firm H' Q' → (∀ d, Q' d → Q d ∧
        (0 < amount → d.ledgerHasKey (r.idempotencyKey ++ ":release") = false)) →
      Δ.Sat (k ()) H' Q' post) :
    Δ.Sat (flushRelease r amount currency ctx >>= k) H Q post := by
  unfold flushRelease
  split_ifs with hpos
  · exact sat_flushLedger hΔ rfl hQ fun H' hsub howned hfirm =>
      h H' _ hsub (fun _ => howned) hfirm fun d hd => ⟨hd.1, fun _ => hd.2⟩
  · exact h H Q subset_rfl (fun hp => absurd hp hpos) hQ fun d hd =>
      ⟨hd, fun hp => absurd hp hpos⟩

theorem sat_settle (hΔ : Framed Δ) {held : IdentityMap} {ctx : CallContext} {id : Uuid}
    {req : SettleRequest} {H : Set Resource} {Q : Db → Prop}
    {post : Reservation → Set Resource → (Db → Prop) → Prop} (hQ : Δ.Lasting Q)
    (hold : ∀ d log row H', Δ.inv d log → Q d → d.reservations.get? id = some row →
      (held.reservation row).status ≠ .reserved → Reaches post d (held.reservation row) H')
    (hnew : ∀ d log H' row wallet budget, Δ.inv d log → Q d →
      SettleReady Δ held ctx id req H' d row wallet budget →
      let r := held.reservation row
      let l := Statement.commit (.settle wallet.id (releaseAmount r (money req.actualAmount) -
        additionalAmount r (money req.actualAmount)))
      Δ.guarantee H' l d (settleWrite r (held.wallet wallet) budget req ctx d) ∧
      Δ.inv (settleWrite r (held.wallet wallet) budget req ctx d) (log ++ [l]) ∧
      Reaches post (settleWrite r (held.wallet wallet) budget req ctx d)
        (r.afterSettle (money req.actualAmount)) ∅) :
    Δ.Sat (settle held ctx id req) H Q post := by
  unfold settle
  refine sat_lockReservation (hQ.firm H) fun d₀ log₀ row hi₀ hown hq hrow H₁ hsub₁ hown₁ => ?_
  by_cases hres : (held.reservation row).status ≠ .reserved
  · rw [if_pos hres]
    exact hold d₀ log₀ row H₁ hi₀ hq hrow hres
  rw [if_neg hres]
  refine Firm.known ((hQ.firm H₁).and (hΔ.firm_reservation hown₁ (some row))) ⟨hq, hrow⟩
    fun hfirm₁ => ?_
  split_ifs with hneg
  · trivial
  refine sat_lockWallet hfirm₁ fun _ _ wallet _ _ hq₁ hwallet H₂ hsub₂ hown₂ => ?_
  refine Firm.known ((hfirm₁.mono_held hsub₂).and (hΔ.firm_wallet hown₂ (some wallet)))
    ⟨hq₁, hwallet⟩ fun hfirm₂ => ?_
  refine sat_authoriseAdditional hfirm₂ fun H₃ hsub₃ => ?_
  refine Δ.sat_locking (hfirm₂.mono_held hsub₃ _) fun d₄ _ _ _ hq₄ => ?_
  refine Firm.known (hfirm₂.mono_held (hsub₃.trans Set.subset_union_left)) hq₄ fun hfirm₄ => ?_
  refine sat_flushLedger hΔ rfl hfirm₄ fun H₅ hsub₅ hown₅ hfirm₅ => ?_
  refine sat_flushRelease hΔ hfirm₅ fun H₆ Q₆ hsub₆ hown₆ hfirm₆ hknown => ?_
  refine Δ.sat_write (hfirm₆ _) fun d log hi _ hq₆ => ?_
  obtain ⟨⟨⟨⟨hq', hrow'⟩, hwallet'⟩, hsettled⟩, hrelease⟩ := hknown d hq₆
  have hsub : H₂ ⊆ H₆ :=
    hsub₃.trans (Set.subset_union_left.trans (hsub₅.trans hsub₆))
  have hwid : wallet.id = (held.reservation row).walletId := RowTable.get?_some_key hwallet
  have hrid : (held.reservation row).id = id :=
    (held.reservation_id row).trans (RowTable.get?_some_key hrow)
  have hid : (held.wallet wallet).id = wallet.id := held.wallet_id wallet
  have hwalletOwned : Resource.wallet wallet.id ∈ H₆ := hwid ▸ hsub hown₂
  rw [hid]
  refine hnew d log H₆ row wallet (d₄.budgets.get? (held.reservation row).userId) hi hq' ?_
  exact
    { stored := hrow'
      reserved := not_not.mp hres
      nonneg := not_lt.mp hneg
      funded := hwallet'
      reservationOwned := hsub (hsub₂ hown₁)
      walletOwned := hwalletOwned
      settledFree := hsettled
      releaseFree := hrelease
      frame := Frame.settleWrite (hid ▸ hwalletOwned) (hrid ▸ hsub (hsub₂ hown₁)) (hsub₆ hown₅)
        hown₆
      locked := ⟨d₀, log₀, hi₀, hown, hrow⟩ }

/-! ## Release -/

structure ReleaseReady (Δ : SqlDiscipline) (held : IdentityMap) (ctx : CallContext) (id : Uuid)
    (H : Set Resource) (d : Db) (row : Reservation) (wallet : Wallet) : Prop where
  stored : d.reservations.get? id = some row
  reserved : (held.reservation row).status = .reserved
  funded : d.wallets.get? (held.reservation row).walletId = some wallet
  reservationOwned : .reservation id ∈ H
  walletOwned : .wallet wallet.id ∈ H
  releaseFree : d.ledgerHasKey ((held.reservation row).idempotencyKey ++ ":release") = false
  frame : Frame H d (releaseWrite (held.reservation row) (held.wallet wallet) ctx d)
  locked : ∃ d₀ log₀, Δ.inv d₀ log₀ ∧ Δ.own (.lockReservation id held .release) d₀ ∧
    d₀.reservations.get? id = some row

theorem sat_release (hΔ : Framed Δ) {held : IdentityMap} {ctx : CallContext} {id : Uuid}
    {H : Set Resource} {Q : Db → Prop} {post : Reservation → Set Resource → (Db → Prop) → Prop}
    (hQ : Δ.Lasting Q)
    (hold : ∀ d log row H', Δ.inv d log → Q d → d.reservations.get? id = some row →
      (held.reservation row).status ≠ .reserved → Reaches post d (held.reservation row) H')
    (hnew : ∀ d log H' row wallet, Δ.inv d log → Q d →
      ReleaseReady Δ held ctx id H' d row wallet →
      let r := held.reservation row
      let l := Statement.commit (.release wallet.id r.estimatedAmount)
      Δ.guarantee H' l d (releaseWrite r (held.wallet wallet) ctx d) ∧
      Δ.inv (releaseWrite r (held.wallet wallet) ctx d) (log ++ [l]) ∧
      Reaches post (releaseWrite r (held.wallet wallet) ctx d) r.afterRelease ∅) :
    Δ.Sat (release held ctx id) H Q post := by
  unfold release
  refine sat_lockReservation (hQ.firm H) fun d₀ log₀ row hi₀ hown hq hrow H₁ hsub₁ hown₁ => ?_
  by_cases hres : (held.reservation row).status ≠ .reserved
  · rw [if_pos hres]
    exact hold d₀ log₀ row H₁ hi₀ hq hrow hres
  rw [if_neg hres]
  refine Firm.known ((hQ.firm H₁).and (hΔ.firm_reservation hown₁ (some row))) ⟨hq, hrow⟩
    fun hfirm₁ => ?_
  refine sat_lockWallet hfirm₁ fun _ _ wallet _ _ hq₁ hwallet H₂ hsub₂ hown₂ => ?_
  refine Firm.known ((hfirm₁.mono_held hsub₂).and (hΔ.firm_wallet hown₂ (some wallet)))
    ⟨hq₁, hwallet⟩ fun hfirm₂ => ?_
  refine sat_flushLedger hΔ rfl hfirm₂ fun H₃ hsub₃ hown₃ hfirm₃ => ?_
  refine Δ.sat_write (hfirm₃ _) fun d log hi _ hq₃ => ?_
  obtain ⟨⟨⟨hq', hrow'⟩, hwallet'⟩, hrelease⟩ := hq₃
  have hwid : wallet.id = (held.reservation row).walletId := RowTable.get?_some_key hwallet
  have hrid : (held.reservation row).id = id :=
    (held.reservation_id row).trans (RowTable.get?_some_key hrow)
  have hid : (held.wallet wallet).id = wallet.id := held.wallet_id wallet
  have hwalletOwned : Resource.wallet wallet.id ∈ H₃ := hwid ▸ hsub₃ hown₂
  have hrowOwned : Resource.reservation id ∈ H₃ := hsub₃ (hsub₂ hown₁)
  rw [hid]
  refine hnew d log H₃ row wallet hi hq' ?_
  exact
    { stored := hrow'
      reserved := not_not.mp hres
      funded := hwallet'
      reservationOwned := hrowOwned
      walletOwned := hwalletOwned
      releaseFree := hrelease
      frame := Frame.releaseWrite (hid ▸ hwalletOwned) (hrid ▸ hrowOwned) hown₃
      locked := ⟨d₀, log₀, hi₀, hown, hrow⟩ }

theorem sat_expireReservations (hΔ : Framed Δ) {ctx : CallContext} {limit : ℕ}
    {post : ℕ → Set Resource → (Db → Prop) → Prop} (hpost : ∀ n H, post n H (fun _ => True))
    (hnew : ∀ d log H id row wallet, Δ.inv d log → ReleaseReady Δ {} ctx id H d row wallet →
      let l := Statement.commit (.release wallet.id row.estimatedAmount)
      Δ.guarantee H l d (releaseWrite row wallet ctx d) ∧
      Δ.inv (releaseWrite row wallet ctx d) (log ++ [l])) :
    Δ.Sat (expireReservations ctx limit) ∅ (fun _ => True) post := by
  have htrue := Δ.lasting_true
  refine Δ.sat_query (htrue.firm ∅ _) fun d _ _ _ _ => ⟨fun _ => True, trivial, ?_⟩
  refine Δ.sat_bind _ _ _ _ _ ((Δ.sat_forEach (J := fun _ Q => Q = fun _ => True) ?_ rfl).mono ?_)
  · rintro id _ H _ rfl
    have hbody : Δ.Sat (release {} ctx id) H (fun _ => True)
        (fun _ _ Q => Q = fun _ => True) := by
      refine sat_release hΔ htrue (fun _ _ _ _ _ _ _ _ => ⟨_, trivial, rfl⟩) ?_
      intro d log H' row wallet hi _ hready
      obtain ⟨hg, hi'⟩ := hnew d log H' id row wallet hi hready
      exact ⟨hg, hi', _, trivial, rfl⟩
    exact Δ.sat_bind _ _ _ _ _ (hbody.mono fun _ _ _ hQ => hQ)
  · rintro _ H _ rfl
    exact hpost _ H

/-! ## Wallets outside the metered engine -/

theorem sat_conflictedWallet (hΔ : Framed Δ) {H : Set Resource} {Q Q₀ : Db → Prop}
    {userId : Uuid} {post : Wallet → Set Resource → (Db → Prop) → Prop} (hQ : Δ.Firm H Q)
    (hQ₀ : Δ.Lasting Q₀) (hweak : ∀ d, Q d → Q₀ d)
    (hrow : ∀ d log w, Δ.inv d log → Q₀ d → d.walletByUser userId = some w →
      Reaches post d w ∅) :
    Δ.Sat (conflictedWallet userId) H Q post := by
  refine Δ.sat_write (hQ _) fun d log hi _ hq => ?_
  refine ⟨(hΔ.rollback H d log hi).1, (hΔ.rollback H d log hi).2, Q₀, hweak d hq, ?_⟩
  refine Δ.sat_query (hQ₀.firm ∅ _) fun d log hi _ hq => ?_
  cases hw : d.walletByUser userId with
  | none => exact ⟨fun _ => True, trivial, trivial⟩
  | some w => exact hrow d log w hi hq hw

theorem sat_getWallet (hΔ : Framed Δ) {ctx : CallContext} {userId : Uuid} {H : Set Resource}
    {Q : Db → Prop} {post : Wallet → Set Resource → (Db → Prop) → Prop} (hQ : Δ.Lasting Q)
    (hfound : ∀ d log w H', Δ.inv d log → Q d → d.walletByUser userId = some w →
      Reaches post d w H')
    (hnew : ∀ d log H', Δ.inv d log → Q d → .wallet ctx.newWalletId ∈ H' →
      d.wallets.get? ctx.newWalletId = none →
      Δ.guarantee H' (.commit (.newWallet ctx.newWalletId)) d
        (d.addWallet (firstWallet ctx userId)) ∧
      Δ.inv (d.addWallet (firstWallet ctx userId))
        (log ++ [.commit (.newWallet ctx.newWalletId)]) ∧
      Reaches post (d.addWallet (firstWallet ctx userId)) (firstWallet ctx userId) ∅) :
    Δ.Sat (getWallet {} ctx userId) H Q post := by
  refine Δ.sat_query (hQ.firm H _) fun d log hi _ hq => ?_
  cases hw : d.walletByUser userId with
  | some w => exact hfound d log w H hi hq hw
  | none =>
      simp only [Option.map_none, insertUnique, bind_assoc, catching_locking]
      refine ⟨Q, hq, Δ.sat_locking (hQ.firm H _) fun d _ _ _ hq => ?_⟩
      cases hx : walletExists (firstWallet ctx userId).id userId d with
      | true =>
          refine ⟨Q, hq, ?_⟩
          simp only [if_true, raise_bind, catching_raise, onIntegrityError_self]
          exact sat_conflictedWallet hΔ (hQ.firm _) hQ (fun _ hd => hd)
            fun d log w => hfound d log w ∅
      | false =>
          simp only [walletExists, Bool.or_eq_false_iff, Option.isSome_eq_false_iff,
            Option.isNone_iff_eq_none] at hx
          simp only [Bool.false_eq_true, if_false, pure_eq, ret_bind, catching_write,
            catching_ret]
          refine Firm.known ((hQ.firm _).and (hΔ.firm_wallet (.inr (by simp [firstWallet])) none))
            ⟨hq, hx.1⟩ fun hfirm => ?_
          refine Δ.sat_write (hfirm _) fun d log hi _ hq => ?_
          have howned : Resource.wallet ctx.newWalletId ∈ H ∪ {r | r ∈
              [Resource.wallet (firstWallet ctx userId).id, .walletOf userId]} :=
            .inr (by simp [firstWallet])
          exact hnew d log _ hi hq.1 howned hq.2

theorem sat_getForUpdate {H : Set Resource} {Q : Db → Prop} {wallet : Wallet}
    {k : Wallet → Sql α} {post : α → Set Resource → (Db → Prop) → Prop} (hQ : Δ.Firm H Q)
    (h : ∀ d log row, Δ.inv d log →
      Δ.own (.lockWallet wallet.id { wallets := [wallet] }) d → Q d →
      d.wallets.get? wallet.id = some row →
      ∀ H', H ⊆ H' → .wallet wallet.id ∈ H' →
        ∃ Q' : Db → Prop, Q' d ∧ Δ.Sat (k wallet) H' Q' post) :
    Δ.Sat (getForUpdate wallet >>= k) H Q post := by
  unfold getForUpdate
  rw [bind_assoc]
  refine Δ.sat_locking (hQ _) fun d log hi ho hq => ?_
  cases hrow : d.wallets.get? wallet.id with
  | none => exact ⟨fun _ => True, trivial, trivial⟩
  | some row =>
      have hid : row.id = wallet.id := RowTable.get?_some_key hrow
      have hheld : ({ wallets := [wallet] } : IdentityMap).wallet row = wallet := by
        simp [IdentityMap.wallet, hid]
      simp only [Option.map_some, hheld, pure_eq, ret_bind]
      exact h d log row hi ho hq hrow _ Set.subset_union_left (.inr (by simp [hid]))

theorem sat_existingTransaction {H : Set Resource} {Q : Db → Prop} {reference : Option String}
    {post : Option WalletTransaction → Set Resource → (Db → Prop) → Prop} (hQ : Δ.Firm H Q)
    (hfound : ∀ d log r t, Δ.inv d log → Q d → truthy reference = some r →
      t ∈ d.transactionsByReference r → Reaches post d (some t) H)
    (hpost : post none H Q) : Δ.Sat (existingTransaction reference) H Q post := by
  unfold existingTransaction
  cases hr : truthy reference with
  | none => exact hpost
  | some r =>
      refine Δ.sat_query (hQ _) fun d log hi _ hq => ?_
      split
      · exact ⟨Q, hq, hpost⟩
      · rename_i t ht
        exact hfound d log r t hi hq hr (ht ▸ List.mem_cons_self)
      · exact ⟨Q, hq, trivial⟩

theorem sat_insertTransaction (hΔ : Framed Δ) {H : Set Resource} {Q : Db → Prop}
    {t : WalletTransaction} {k : Unit → Sql α} {post : α → Set Resource → (Db → Prop) → Prop}
    (hQ : Δ.Firm H Q)
    (h : ∀ H', H ⊆ H' → .transaction t.id ∈ H' →
      Δ.Firm H' (fun d => Q d ∧ d.transactions.get? t.id = none) →
      Δ.Sat (k ()) H' (fun d => Q d ∧ d.transactions.get? t.id = none) post) :
    Δ.Sat (insertTransaction t >>= k) H Q post := by
  refine sat_insertUnique hQ fun d _ _ hq ht H' hsub hkeys => ?_
  have howned : Resource.transaction t.id ∈ H' := hkeys _ (by simp)
  refine Firm.known ((hQ.mono_held hsub).and (hΔ.firm_transaction howned)) ⟨hq, ?_⟩
    (h H' hsub howned)
  simpa using ht

theorem sat_updateBudget {H : Set Resource} {Q : Db → Prop} (hQ : Δ.Firm H Q) (b : Budget) :
    Δ.Sat (updateBudget b) H Q (fun _ H' Q' => H ⊆ H' ∧ Q' = Q) :=
  ⟨hQ _, fun _ _ _ _ hq => ⟨Q, hq, Set.subset_union_left, rfl⟩⟩

theorem sat_updateBudgets {H : Set Resource} {Q : Db → Prop} (hQ : Δ.Firm H Q)
    (budget : Option (Budget × Budget)) :
    Δ.Sat (forEach budget.toList (fun b => updateBudget b.1)) H Q
      (fun _ H' Q' => H ⊆ H' ∧ Q' = Q) := by
  refine Δ.sat_forEach (J := fun H' Q' => H ⊆ H' ∧ Q' = Q) ?_ ⟨subset_rfl, rfl⟩
  rintro b _ H₁ _ ⟨hsub, rfl⟩
  refine (sat_updateBudget (hQ.mono_held hsub) b.1).mono ?_
  rintro _ H₂ _ ⟨hsub₂, rfl⟩
  exact ⟨hsub.trans hsub₂, rfl⟩

/-! ## Credits -/

/-- What a session knows when it commits a credit to the wallet that it holds as `w`. -/
structure CreditReady (Δ : SqlDiscipline) (ctx : CallContext) (req : CreditRequest) (w : Wallet)
    (reopened : Option (Budget × Budget)) (H : Set Resource) (d : Db) (row : Wallet) : Prop where
  stored : d.wallets.get? w.id = some row
  idFree : d.transactions.get? ctx.newId = none
  ledgerFree : d.ledgerHasKey
    (ledgerReference "topup" req.referenceId (creditTransaction ctx req w)) = false
  frame : Frame H d (creditWrite w (creditTransaction ctx req w) reopened
    (topupLedger ctx req w (creditTransaction ctx req w)) d)
  locked : ∃ d₀ log₀, Δ.inv d₀ log₀ ∧ Δ.own (.lockWallet w.id { wallets := [w] }) d₀ ∧
    d₀.wallets.get? w.id = some row

theorem sat_creditWallet (hΔ : Framed Δ) {ctx : CallContext} {req : CreditRequest} {w : Wallet}
    {H : Set Resource} {Q : Db → Prop}
    {post : WalletTransaction → Set Resource → (Db → Prop) → Prop} (hQ : Δ.Lasting Q)
    (hfound : ∀ d log r t, Δ.inv d log → Q d → truthy req.referenceId = some r →
      t ∈ d.transactionsByReference r → Reaches post d t H)
    (hnew : ∀ d log H' row reopened, Δ.inv d log → Q d →
      CreditReady Δ ctx req w reopened H' d row →
      let t := creditTransaction ctx req w
      let l := Statement.commit (.credit w.id req.amount)
      Δ.guarantee H' l d (creditWrite w t reopened (topupLedger ctx req w t) d) ∧
      Δ.inv (creditWrite w t reopened (topupLedger ctx req w t) d) (log ++ [l]) ∧
      Reaches post (creditWrite w t reopened (topupLedger ctx req w t) d) t ∅) :
    Δ.Sat (creditWallet ctx req w) H Q post := by
  refine Δ.sat_bind _ _ _ _ _ (sat_existingTransaction (hQ.firm H) ?_ ?_)
  · intro d log r t hi hq hr ht
    exact hfound d log r t hi hq hr ht
  dsimp only
  split_ifs with hactive
  · trivial
  refine sat_getForUpdate (hQ.firm H) fun d₀ log₀ row hi₀ hown hq hrow H₁ hsub₁ hown₁ => ?_
  refine Firm.known ((hQ.firm H₁).and (hΔ.firm_wallet hown₁ (some row))) ⟨hq, hrow⟩
    fun hfirm₁ => ?_
  refine sat_insertTransaction hΔ hfirm₁ fun H₂ hsub₂ ht₂ hfirm₂ => ?_
  refine Δ.sat_query (hfirm₂ _) fun d _ _ _ hq => Firm.known hfirm₂ hq fun _ => ?_
  refine Δ.sat_bind _ _ _ _ _ ((sat_updateBudgets hfirm₂ _).mono ?_)
  rintro _ H₃ _ ⟨hsub₃, rfl⟩
  refine sat_flushLedger hΔ rfl (hfirm₂.mono_held hsub₃) fun H₄ hsub₄ hkey₄ hfirm₄ => ?_
  refine Δ.sat_write (hfirm₄ _) fun d log hi _ hq₄ => ?_
  obtain ⟨⟨⟨hq', hrow'⟩, htransaction⟩, hledger⟩ := hq₄
  have hsub : H₂ ⊆ H₄ := hsub₃.trans hsub₄
  refine hnew d log H₄ row _ hi hq' ?_
  exact
    { stored := hrow'
      idFree := htransaction
      ledgerFree := hledger
      frame := Frame.creditWrite (hsub (hsub₂ hown₁)) (hsub ht₂) (by
        rintro _ ⟨⟩
        exact hkey₄)
      locked := ⟨d₀, log₀, hi₀, hown, hrow⟩ }

/-- `_update_budget_spend` hands back the pending writes, with at most a change of
the budget added, or it has committed them. -/
theorem sat_updateBudgetSpend {H : Set Resource} {Q : Db → Prop} {userId : Uuid} {amount : ℤ}
    {pending : Pending} {post : Pending → Set Resource → (Db → Prop) → Prop} (hQ : Δ.Firm H Q)
    (hopen : ∀ budget H', H ⊆ H' → post { pending with
      writes := fun d => flushBudgetOf budget (pending.writes d) } H' Q)
    (hdone : ∀ budget H' d log, H ⊆ H' → Δ.inv d log → Q d →
      Δ.guarantee H' (.commit pending.label) d (flushBudgetOf budget (pending.writes d)) ∧
      Δ.inv (flushBudgetOf budget (pending.writes d)) (log ++ [.commit pending.label]) ∧
      post { label := .ledger, writes := id } ∅ (fun _ => True)) :
    Δ.Sat (updateBudgetSpend userId amount pending) H Q post := by
  refine Δ.sat_query (hQ _) fun d _ _ _ hq => ⟨Q, hq, ?_⟩
  cases d.budgets.get? userId with
  | none => exact hopen none H subset_rfl
  | some b =>
      cases hlimit : b.monthlyLimit with
      | none =>
          simp only [hlimit]
          exact hopen none H subset_rfl
      | some limit =>
          simp only [hlimit]
          refine Δ.sat_bind _ _ _ _ _ ((sat_updateBudget hQ b).mono ?_)
          rintro _ H₁ _ ⟨hsub, rfl⟩
          cases budgetAlert (b.spend amount) limit with
          | none => exact hopen (some (b, b.spend amount)) H₁ hsub
          | some alerted =>
              refine Δ.sat_write (hQ.mono_held hsub _) fun d log hi _ hq => ?_
              obtain ⟨hg, hi', hpost⟩ := hdone (some (b, alerted)) H₁ d log hsub hi hq
              exact ⟨hg, hi', fun _ => True, trivial, hpost⟩

end Zyntry
