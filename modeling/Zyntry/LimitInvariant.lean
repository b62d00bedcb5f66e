import Zyntry.SerialSpecs

/-!
# Spending limits over serial runs

What a limit counts is the settled spend of its scope plus the estimates of the
open reservations of its scope. `reserve` and a settlement within the estimate
keep this sum under the limit. A settlement above the estimate is compared with
the limit without its own reservation, so it is the one step that needs
`WithinLimit`.
-/

namespace Zyntry

open SqlProgram

/-- What `l` counts in a period that began at `start`. -/
def Db.countedUnder (d : Db) (l : SpendingLimit) (start : ℕ) : ℤ :=
  d.settledSpend l.scopeType l.scopeId start + d.reservedEstimates l.scopeType l.scopeId start none

/-! ## How the two sums react to each write -/

theorem settledSpend_addLedger (d : Db) (row : BillingLedger) (scope : ScopeType) (id : Uuid)
    (start : ℕ) : (d.addLedger row).settledSpend scope id start =
      d.settledSpend scope id start +
        if row.isSpend ∧ start ≤ row.createdAt ∧ row.scopeId scope = some id then row.amount
        else 0 := by
  simp [Db.settledSpend, Db.addLedger]

theorem settledSpend_addLedger_of_not (d : Db) (row : BillingLedger) (h : row.isSpend = false)
    (scope : ScopeType) (id : Uuid) (start : ℕ) :
    (d.addLedger row).settledSpend scope id start = d.settledSpend scope id start := by
  rw [settledSpend_addLedger, if_neg (by simp [h]), add_zero]

theorem reservedEstimates_addReservation {d : Db} {r : Reservation}
    (hid : d.reservations.get? r.id = none) (scope : ScopeType) (id : Uuid) (start : ℕ) :
    (d.addReservation r).reservedEstimates scope id start none =
      d.reservedEstimates scope id start none +
        if r.status = .reserved ∧ start ≤ r.createdAt ∧ r.scopeId scope = some id
        then r.estimatedAmount else 0 := by
  refine (RowTable.total_insert hid _).trans ?_
  simp only [ne_eq, reduceCtorEq, not_false_eq_true, and_true, Db.reservedEstimates]

/-- A reservation that leaves `reserved` is no longer counted. -/
theorem reservedEstimates_finalise {d : Db} {r : Reservation} (new : Reservation)
    (hr : d.reservations.get? r.id = some r) (hreserved : r.status = .reserved)
    (hdone : new.status ≠ .reserved) (scope : ScopeType) (id : Uuid) (start : ℕ) :
    (d.flushReservation r new).reservedEstimates scope id start none =
      d.reservedEstimates scope id start none -
        if start ≤ r.createdAt ∧ r.scopeId scope = some id then r.estimatedAmount else 0 := by
  refine (Db.total_flushReservation new hr _).trans ?_
  simp only [Reservation.flush, changed_row, hdone, hreserved, false_and, if_false, add_zero,
    true_and, ne_eq, reduceCtorEq, not_false_eq_true, and_true, Db.reservedEstimates]

/-! ## The condition on settlements above the estimate -/

/-- The reading of the clock that a call makes. -/
def MeteredOperation.now : MeteredOperation → ℕ
  | .reserve ctx _ => ctx.now
  | .settle ctx _ _ => ctx.now
  | .release ctx _ => ctx.now
  | .expireReservations ctx _ => ctx.now

instance (d : Db) (req : CheckRequest) (l : SpendingLimit) : Decidable (d.fitsUnder req l) :=
  inferInstanceAs (Decidable (_ ≤ _))

/-- In the state before the call, `check` without `exclude_reservation_id` would
accept what a settlement adds to its estimate. -/
def WithinLimit (l : SpendingLimit) (d : Db) : MeteredOperation → Prop
  | .settle ctx id req =>
      ∀ r ∈ d.reservations.get? id, r.status = .reserved →
        r.estimatedAmount < money req.actualAmount → r.scopeId l.scopeType = some l.scopeId →
        d.fitsUnder
          { amount := money req.actualAmount - r.estimatedAmount
            userId := r.userId
            scope := r.scope
            now := ctx.now } l
  | _ => True

instance (l : SpendingLimit) (d : Db) : ∀ o, Decidable (WithinLimit l d o)
  | .settle _ id _ => inferInstanceAs (Decidable (∀ r ∈ d.reservations.get? id, _))
  | .reserve _ _ => .isTrue trivial
  | .release _ _ => .isTrue trivial
  | .expireReservations _ _ => .isTrue trivial

/-- Settlements stay within the estimate. -/
def EstimateCovers (d : Db) : MeteredOperation → Prop
  | .settle _ id req => ∀ r ∈ d.reservations.get? id, r.status = .reserved →
      money req.actualAmount ≤ r.estimatedAmount
  | _ => True

instance (d : Db) : ∀ o, Decidable (EstimateCovers d o)
  | .settle _ id _ => inferInstanceAs (Decidable (∀ r ∈ d.reservations.get? id, _))
  | .reserve _ _ => .isTrue trivial
  | .release _ _ => .isTrue trivial
  | .expireReservations _ _ => .isTrue trivial

instance (d : Db) (ctx : CallContext) (req : ReserveRequest) (w : Wallet) :
    Decidable (ReserveAccepted d ctx req w) :=
  decidable_of_iff (0 < money req.amount ∧ d.reservationByKey req.idempotencyKey = none ∧
      d.reservations.get? ctx.newId = none ∧ d.walletByUser req.userId = some w ∧
      w.status = .active ∧ money req.amount ≤ w.balance ∧
      ∀ l ∈ d.spendingLimits.rows, l.active = true →
        scopeId (some req.userId) req.scope l.scopeType = some l.scopeId →
        d.fitsUnder
          { amount := money req.amount, userId := req.userId, scope := req.scope, now := ctx.now } l)
    ⟨fun ⟨h₁, h₂, h₃, h₄, h₅, h₆, h₇⟩ => ⟨h₁, h₂, h₃, h₄, h₅, h₆, h₇⟩,
      fun ⟨h₁, h₂, h₃, h₄, h₅, h₆, h₇⟩ => ⟨h₁, h₂, h₃, h₄, h₅, h₆, h₇⟩⟩

/-! ## The invariant -/

structure UnderLimit (l : SpendingLimit) (start : ℕ) (d : Db) : Prop where
  limit : l ∈ d.spendingLimits.rows
  created : ∀ r ∈ d.reservations.rows, start ≤ r.createdAt
  estimates : ∀ r ∈ d.reservations.rows, 0 ≤ r.estimatedAmount
  counted : d.countedUnder l start ≤ l.amount

theorem countedUnder_reserveWrite {l : SpendingLimit} {start : ℕ} {d : Db} {ctx : CallContext}
    {req : ReserveRequest} {w : Wallet} (hid : d.reservations.get? ctx.newId = none)
    (hnow : start ≤ ctx.now) :
    (reserveWrite none w (req.reservation ctx w) ctx d).countedUnder l start =
      d.countedUnder l start +
        if scopeId (some req.userId) req.scope l.scopeType = some l.scopeId
        then money req.amount else 0 := by
  have hspend := settledSpend_addLedger_of_not d
    (reservationLedger (req.reservation ctx w) ctx) rfl l.scopeType l.scopeId start
  have hreserved := reservedEstimates_addReservation (d := d) (r := req.reservation ctx w)
    hid l.scopeType l.scopeId start
  have hcond : ((req.reservation ctx w).status = .reserved ∧
      start ≤ (req.reservation ctx w).createdAt ∧
      (req.reservation ctx w).scopeId l.scopeType = some l.scopeId) ↔
      scopeId (some req.userId) req.scope l.scopeType = some l.scopeId :=
    ⟨fun hc => hc.2.2, fun hc => ⟨rfl, hnow, hc⟩⟩
  simp only [hcond] at hreserved
  refine (congrArg₂ (· + ·) hspend hreserved).trans ?_
  rw [Db.countedUnder, add_assoc]
  rfl

theorem underLimit_reserveWrite {l : SpendingLimit} {start : ℕ} {d : Db} {ctx : CallContext}
    {req : ReserveRequest} {w : Wallet} (hactive : l.active = true)
    (hstart : periodStart l.period ctx.now = start) (h : UnderLimit l start d)
    (ha : ReserveAccepted d ctx req w) :
    UnderLimit l start (reserveWrite none w (req.reservation ctx w) ctx d) := by
  have hnow : start ≤ ctx.now := hstart ▸ periodStart_le l.period ctx.now
  have hpos := ha.positive
  refine ⟨h.limit, ?_, ?_, ?_⟩
  · intro r hr
    rcases RowTable.mem_rows_insert hr with hold | rfl
    · exact h.created r hold
    · exact hnow
  · intro r hr
    rcases RowTable.mem_rows_insert hr with hold | rfl
    · exact h.estimates r hold
    · exact hpos.le
  · rw [countedUnder_reserveWrite ha.idFree hnow]
    split_ifs with hscope
    · have hfits := ha.limits l h.limit hactive hscope
      simp only [Db.fitsUnder, hstart] at hfits
      exact hfits
    · simpa only [add_zero] using h.counted

theorem settledSpend_flushBudgetOf (budget : Option (Budget × Budget)) (d : Db)
    (scope : ScopeType) (id : Uuid) (start : ℕ) :
    (flushBudgetOf budget d).settledSpend scope id start = d.settledSpend scope id start := by
  cases budget <;> rfl

theorem settledSpend_settleWrite (r : Reservation) (w : Wallet) (budget : Option Budget)
    (req : SettleRequest) (ctx : CallContext) (d : Db) (scope : ScopeType) (id : Uuid)
    (start : ℕ) :
    (settleWrite r w budget req ctx d).settledSpend scope id start =
      d.settledSpend scope id start +
        if req.transactionType ∈ spendingTransactionTypes ∧ start ≤ ctx.now ∧
          r.scopeId scope = some id then money req.actualAmount else 0 := by
  have hspend : ∀ currency, ((settledLedger r req currency ctx).isSpend = true ∧
      start ≤ (settledLedger r req currency ctx).createdAt ∧
      (settledLedger r req currency ctx).scopeId scope = some id) ↔
      (req.transactionType ∈ spendingTransactionTypes ∧ start ≤ ctx.now ∧
        r.scopeId scope = some id) := by
    intro currency
    simp [BillingLedger.isSpend, settledLedger, BillingLedger.scopeId, Reservation.scopeId]
  have hsettled : ∀ d' : Db, d'.settledSpend scope id start = d.settledSpend scope id start →
      ∀ currency, (d'.addLedger (settledLedger r req currency ctx)).settledSpend scope id start =
        d.settledSpend scope id start +
          if req.transactionType ∈ spendingTransactionTypes ∧ start ≤ ctx.now ∧
            r.scopeId scope = some id then money req.actualAmount else 0 := by
    intro d' hd' currency
    rw [settledSpend_addLedger, hd']
    simp only [hspend]
    rfl
  unfold settleWrite
  dsimp only
  by_cases hrelease : 0 < releaseAmount r (money req.actualAmount)
  · rw [if_pos hrelease,
      settledSpend_addLedger_of_not _ _ (by simp [BillingLedger.isSpend, releaseLedger])]
    refine hsettled _ ?_ _
    exact settledSpend_flushBudgetOf _ _ _ _ _
  · rw [if_neg hrelease]
    refine hsettled _ ?_ _
    exact settledSpend_flushBudgetOf _ _ _ _ _

theorem reservedEstimates_settleWrite {r : Reservation} {w : Wallet} {budget : Option Budget}
    {req : SettleRequest} {ctx : CallContext} {d : Db}
    (hr : d.reservations.get? r.id = some r) (hreserved : r.status = .reserved)
    (scope : ScopeType) (id : Uuid) (start : ℕ) :
    (settleWrite r w budget req ctx d).reservedEstimates scope id start none =
      d.reservedEstimates scope id start none -
        if start ≤ r.createdAt ∧ r.scopeId scope = some id then r.estimatedAmount else 0 := by
  rw [← reservedEstimates_finalise (r.afterSettle (money req.actualAmount)) hr hreserved
    (by simp [Reservation.afterSettle])]
  simp only [Db.reservedEstimates, reservations_settleWrite]

theorem settledSpend_releaseWrite (r : Reservation) (w : Wallet) (ctx : CallContext) (d : Db)
    (scope : ScopeType) (id : Uuid) (start : ℕ) :
    (releaseWrite r w ctx d).settledSpend scope id start = d.settledSpend scope id start :=
  settledSpend_addLedger_of_not ((d.flushWallet w (w.afterRelease r)).flushReservation r
    r.afterRelease) (releaseLedger r r.estimatedAmount w.currency ctx)
    (by simp [BillingLedger.isSpend, releaseLedger]) scope id start

theorem countedUnder_releaseWrite_le {r : Reservation} {w : Wallet} {ctx : CallContext} {d : Db}
    (hr : d.reservations.get? r.id = some r) (hreserved : r.status = .reserved)
    (hestimate : 0 ≤ r.estimatedAmount) (l : SpendingLimit) (start : ℕ) :
    (releaseWrite r w ctx d).countedUnder l start ≤ d.countedUnder l start := by
  have hrow := reservedEstimates_finalise r.afterRelease hr hreserved
    (by simp [Reservation.afterRelease]) l.scopeType l.scopeId start
  refine (congrArg₂ (· + ·) (settledSpend_releaseWrite r w ctx d l.scopeType l.scopeId start)
    hrow).le.trans ?_
  unfold Db.countedUnder
  split_ifs <;> omega

/-- Both finalisers rewrite one open reservation of the table. -/
theorem mem_finalised {d : Db} {r new r' : Reservation} (hr : d.reservations.get? r.id = some r)
    (h : r' ∈ (d.flushReservation r new).reservations.rows) :
    r' ∈ d.reservations.rows ∨ r' = Reservation.flush r new r := by
  rcases Db.mem_flushReservation h with ⟨hold, _⟩ | ⟨row, hrow, rfl⟩
  · exact .inl hold
  · exact .inr (Option.some.inj (hrow.symm.trans hr) ▸ rfl)

theorem underLimit_settleWrite {l : SpendingLimit} {start : ℕ} {d : Db} {ctx : CallContext}
    {id : Uuid} {req : SettleRequest} {r : Reservation} {w : Wallet} {budget : Option Budget}
    (hstart : periodStart l.period ctx.now = start) (h : UnderLimit l start d)
    (ha : SettleAccepted d ctx id req r w) (hwithin : WithinLimit l d (.settle ctx id req)) :
    UnderLimit l start (settleWrite r w budget req ctx d) := by
  have hr : d.reservations.get? r.id = some r := by
    rw [RowTable.get?_some_key ha.row]
    exact ha.row
  have hmem := RowTable.get?_some_mem hr
  have hcreated := h.created r hmem
  have hestimate := h.estimates r hmem
  have hactual := ha.nonneg
  have hadditional := additionalAmount_cases r (money req.actualAmount)
  refine ⟨(spendingLimits_settleWrite r w budget req ctx d).symm ▸ h.limit, ?_, ?_, ?_⟩
  · intro r' hr'
    rw [reservations_settleWrite] at hr'
    rcases mem_finalised hr hr' with hold | rfl
    · exact h.created r' hold
    · exact hcreated
  · intro r' hr'
    rw [reservations_settleWrite] at hr'
    rcases mem_finalised hr hr' with hold | rfl
    · exact h.estimates r' hold
    · simp only [Reservation.flush, Reservation.afterSettle, changed_row]
      omega
  · have hcounted := h.counted
    unfold Db.countedUnder at hcounted ⊢
    rw [settledSpend_settleWrite, reservedEstimates_settleWrite hr ha.reserved]
    by_cases hscope : r.scopeId l.scopeType = some l.scopeId
    · rw [if_pos (c := start ≤ r.createdAt ∧ _) ⟨hcreated, hscope⟩]
      rcases hadditional with ⟨hmore, _⟩ | ⟨hless, _⟩
      · have hfits := hwithin r ha.row ha.reserved hmore hscope
        simp only [Db.fitsUnder, hstart] at hfits
        split_ifs <;> omega
      · split_ifs <;> omega
    · rw [if_neg fun hc => hscope hc.2.2, if_neg fun hc => hscope hc.2]
      omega

theorem underLimit_releaseWrite {l : SpendingLimit} {start : ℕ} {d : Db} {ctx : CallContext}
    {id : Uuid} {r : Reservation} {w : Wallet} (h : UnderLimit l start d)
    (ha : ReleaseAccepted d id r w) : UnderLimit l start (releaseWrite r w ctx d) := by
  have hr : d.reservations.get? r.id = some r := by
    rw [RowTable.get?_some_key ha.row]
    exact ha.row
  have hestimate := h.estimates r (RowTable.get?_some_mem hr)
  refine ⟨h.limit, ?_, ?_, ?_⟩
  · intro r' hr'
    rcases mem_finalised hr hr' with hold | rfl
    · exact h.created r' hold
    · exact h.created r (RowTable.get?_some_mem hr)
  · intro r' hr'
    rcases mem_finalised hr hr' with hold | rfl
    · exact h.estimates r' hold
    · simpa only [Reservation.flush, Reservation.afterRelease, changed_row] using hestimate
  · exact (countedUnder_releaseWrite_le hr ha.reserved hestimate l start).trans h.counted

/-! ## Serial runs -/

/-- The limit is active, nothing was spent or reserved before the run, and the
clock stays in the period of the limit that began at `start`. -/
structure LimitRun (l : SpendingLimit) (start : ℕ) (ok : Db → MeteredOperation → Prop)
    (d₀ : Db) (ops : List MeteredOperation) (d : Db) : Prop where
  limit : l ∈ d₀.spendingLimits.rows
  active : l.active = true
  positive : 0 < l.amount
  ledger : d₀.ledger = []
  reservations : d₀.reservations.rows = []
  run : SerialRun runMetered (fun d o => periodStart l.period o.now = start ∧ ok d o) d₀ ops d

theorem runMetered_keeps_underLimit {l : SpendingLimit} {start : ℕ} (o : MeteredOperation) {d : Db}
    (hactive : l.active = true) (hstart : periodStart l.period o.now = start)
    (h : UnderLimit l start d) (hwithin : WithinLimit l d o) :
    (runMetered o).Keeps (UnderLimit l start) d (fun _ _ => True) := by
  cases o with
  | reserve ctx req =>
      exact keeps_ignore.mpr (keeps_reserve h (fun _ _ => trivial)
        fun w ha => ⟨underLimit_reserveWrite hactive hstart h ha, trivial⟩)
  | settle ctx id req =>
      exact keeps_ignore.mpr (keeps_settle (fun _ _ _ => trivial)
        fun r w ha => ⟨underLimit_settleWrite hstart h ha hwithin, trivial⟩)
  | release ctx id =>
      exact keeps_ignore.mpr (keeps_release (fun _ _ _ => trivial)
        fun r w ha => ⟨underLimit_releaseWrite h ha, trivial⟩)
  | expireReservations ctx limit =>
      exact keeps_ignore.mpr ((keeps_expireReservations h
        fun d id r w hd ha => underLimit_releaseWrite hd ha).mono fun _ _ _ => trivial)

/-- In a run whose settlements above the estimate were within the limit before
they were made, what the limit counts stays under it. -/
theorem limit_holds_of_withinLimit {l : SpendingLimit} {start : ℕ} {d₀ d : Db}
    {ops : List MeteredOperation} (h : LimitRun l start (WithinLimit l) d₀ ops d) :
    d.countedUnder l start ≤ l.amount := by
  have h₀ : UnderLimit l start d₀ := by
    refine ⟨h.limit, by simp [h.reservations], by simp [h.reservations], ?_⟩
    simpa [Db.countedUnder, Db.settledSpend, Db.reservedEstimates, RowTable.total, h.ledger,
      h.reservations] using h.positive.le
  exact (h.run.invariant h₀ fun d o hd hok =>
    runMetered_keeps_underLimit o h.active hok.1 hd hok.2).counted

/-! ## A settlement above the limit -/

def tenDollarLimit : SpendingLimit where
  id := ⟨"limit"⟩
  scopeType := .user
  scopeId := ⟨"u"⟩
  period := .lifetime
  amount := 100000
  active := true

/-- One funded wallet whose user may spend 10.0000. -/
def limitedDb : Db where
  wallets := RowTable.single { id := ⟨"w"⟩, userId := ⟨"u"⟩, balance := 1000000 }
  spendingLimits := RowTable.single tenDollarLimit

/-- Reserve 6.0000 and settle it for `actual`. -/
def reserveAndSettle (actual : Decimal) : List MeteredOperation :=
  [.reserve ⟨1, ⟨"r"⟩, ⟨"x"⟩⟩
     { userId := ⟨"u"⟩, amount := 6, requestId := "q", idempotencyKey := "k" },
   .settle ⟨2, ⟨"y"⟩, ⟨"x"⟩⟩ ⟨"r"⟩ { actualAmount := actual }]

/-- Within the limit: 8.0000 of 10.0000. -/
theorem limit_holds_of_withinLimit_eight :
    (execAll runMetered (reserveAndSettle 8) limitedDb).countedUnder tenDollarLimit 0 ≤ 100000 := by
  have hok : Admits runMetered (fun d o => periodStart tenDollarLimit.period o.now = 0 ∧
      WithinLimit tenDollarLimit d o) (reserveAndSettle 8) limitedDb := by decide +kernel
  exact limit_holds_of_withinLimit
    ⟨by decide, rfl, by decide, rfl, rfl, serialRun_execAll hok⟩

/-- The settlement for 12.0000 is compared with the limit as 6.0000. -/
theorem limit_fails_at_twelve :
    ¬ ∀ (l : SpendingLimit) (start : ℕ) (d₀ d : Db) (ops : List MeteredOperation),
      LimitRun l start (fun _ _ => True) d₀ ops d → d.countedUnder l start ≤ l.amount := by
  intro h
  have hok : Admits runMetered (fun _ o => periodStart tenDollarLimit.period o.now = 0 ∧ True)
      (reserveAndSettle 12) limitedDb := by decide +kernel
  have hle := h tenDollarLimit 0 limitedDb _ _
    ⟨by decide, rfl, by decide, rfl, rfl, serialRun_execAll hok⟩
  exact absurd hle (by decide +kernel)

end Zyntry
