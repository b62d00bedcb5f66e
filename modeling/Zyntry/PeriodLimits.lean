import Zyntry.LimitInvariant
import Zyntry.Calendar

/-!
# Spending limits across period boundaries

A settlement is spent in the period in which it is made, while the check of a later
reservation counts only the estimates reserved since that period began. A
reservation that is open across the boundary is in neither sum until it settles.
Where no accepted reservation hides behind one, the spend of every period stays
under the limit.
-/

namespace Zyntry

open SqlProgram

/-- The open estimates of a scope, whenever they were reserved. -/
def Db.openEstimates (d : Db) (l : SpendingLimit) : ℤ :=
  d.reservedEstimates l.scopeType l.scopeId 0 none

def SpendingLimit.spentIn (l : SpendingLimit) (start : ℕ) (row : BillingLedger) : ℤ :=
  if row.isSpend ∧ periodStart l.period row.createdAt = start ∧
    row.scopeId l.scopeType = some l.scopeId then row.amount else 0

/-- The settled spend of the period that begins at `start`. -/
def Db.spentIn (d : Db) (l : SpendingLimit) (start : ℕ) : ℤ :=
  (d.ledger.map (l.spentIn start)).sum

/-! ## The conditions of a run -/

/-- A reservation that `reserve` accepts would also fit if the estimates that are
open since earlier periods were counted. -/
def FitsWithCarried (l : SpendingLimit) (d : Db) : MeteredOperation → Prop
  | .reserve ctx req => ∀ w ∈ d.walletByUser req.userId, ReserveAccepted d ctx req w →
      scopeId (some req.userId) req.scope l.scopeType = some l.scopeId →
      d.settledSpend l.scopeType l.scopeId (periodStart l.period ctx.now) + d.openEstimates l +
        money req.amount ≤ l.amount
  | _ => True

instance (l : SpendingLimit) (d : Db) : ∀ o, Decidable (FitsWithCarried l d o)
  | .reserve _ req => inferInstanceAs (Decidable (∀ w ∈ d.walletByUser req.userId, _))
  | .settle _ _ _ => .isTrue trivial
  | .release _ _ => .isTrue trivial
  | .expireReservations _ _ => .isTrue trivial

/-! ## The invariant -/

/-- What holds when the clock stands at `t`. -/
structure UnderPeriodLimit (l : SpendingLimit) (t : ℕ) (d : Db) : Prop where
  limit : l ∈ d.spendingLimits.rows
  estimates : ∀ r ∈ d.reservations.rows, 0 ≤ r.estimatedAmount
  spends : ∀ row ∈ d.ledger, row.isSpend = true → 0 ≤ row.amount
  current : d.settledSpend l.scopeType l.scopeId (periodStart l.period t) + d.openEstimates l ≤
    l.amount
  periods : ∀ start, d.spentIn l start ≤ l.amount

theorem openEstimates_nonneg {l : SpendingLimit} {d : Db}
    (h : ∀ r ∈ d.reservations.rows, 0 ≤ r.estimatedAmount) : 0 ≤ d.openEstimates l := by
  refine RowTable.total_nonneg fun r hr => ?_
  split_ifs
  · exact h r hr
  · exact le_rfl

/-- The later a sum begins, the less it counts. -/
theorem settledSpend_anti {d : Db} (h : ∀ row ∈ d.ledger, row.isSpend = true → 0 ≤ row.amount)
    (scope : ScopeType) (id : Uuid) {start start' : ℕ} (hle : start ≤ start') :
    d.settledSpend scope id start' ≤ d.settledSpend scope id start := by
  refine List.sum_le_sum fun row hrow => ?_
  split_ifs with hlate hearly
  · exact le_rfl
  · exact absurd ⟨hlate.1, hle.trans hlate.2.1, hlate.2.2⟩ hearly
  · exact h row hrow (by assumption : _ ∧ _).1
  · exact le_rfl

theorem spentIn_le_settledSpend {l : SpendingLimit} {d : Db}
    (h : ∀ row ∈ d.ledger, row.isSpend = true → 0 ≤ row.amount) (start : ℕ) :
    d.spentIn l start ≤ d.settledSpend l.scopeType l.scopeId start := by
  refine List.sum_le_sum fun row hrow => ?_
  unfold SpendingLimit.spentIn
  split_ifs with hin hsince
  · exact le_rfl
  · exact absurd ⟨hin.1, hin.2.1 ▸ periodStart_le _ _, hin.2.2⟩ hsince
  · exact h row hrow (by assumption : _ ∧ _).1
  · exact le_rfl

theorem UnderPeriodLimit.later {l : SpendingLimit} {t t' : ℕ} {d : Db}
    (h : UnderPeriodLimit l t d) (ht : t ≤ t') : UnderPeriodLimit l t' d :=
  { h with
    current := (add_le_add_left (settledSpend_anti h.spends _ _
      (periodStart_mono l.period ht)) _).trans h.current }

/-- Rows written at `t` are spent in the period of `t` and in no other. -/
theorem spentIn_append {l : SpendingLimit} {d : Db} {rows : List BillingLedger} {t : ℕ}
    (hrows : ∀ row ∈ rows, row.createdAt = t) {start : ℕ} (hstart : periodStart l.period t ≠ start) :
    ((d.ledger ++ rows).map (l.spentIn start)).sum = d.spentIn l start := by
  have hzero : (rows.map (l.spentIn start)).sum = 0 := by
    refine List.sum_eq_zero fun x hx => ?_
    obtain ⟨row, hrow, rfl⟩ := List.mem_map.mp hx
    exact if_neg fun hin => hstart (hrows row hrow ▸ hin.2.1)
  rw [List.map_append, List.sum_append, hzero, add_zero]
  rfl

/-- A commit keeps the invariant if it keeps the sum of the current period under the
limit and the rows it adds carry its time. -/
theorem UnderPeriodLimit.commit {l : SpendingLimit} {t : ℕ} {d d' : Db}
    {rows : List BillingLedger} (h : UnderPeriodLimit l t d)
    (hlimits : d'.spendingLimits = d.spendingLimits) (hledger : d'.ledger = d.ledger ++ rows)
    (hestimates : ∀ r ∈ d'.reservations.rows, 0 ≤ r.estimatedAmount)
    (hrows : ∀ row ∈ rows, row.createdAt = t ∧ (row.isSpend = true → 0 ≤ row.amount))
    (hcurrent : d'.settledSpend l.scopeType l.scopeId (periodStart l.period t) +
      d'.openEstimates l ≤ l.amount) : UnderPeriodLimit l t d' := by
  have hspends : ∀ row ∈ d'.ledger, row.isSpend = true → 0 ≤ row.amount := by
    intro row hrow
    rw [hledger, List.mem_append] at hrow
    rcases hrow with hold | hnew
    · exact h.spends row hold
    · exact (hrows row hnew).2
  refine ⟨hlimits ▸ h.limit, hestimates, hspends, hcurrent, fun start => ?_⟩
  by_cases hstart : periodStart l.period t = start
  · have hopen := openEstimates_nonneg (l := l) hestimates
    have hle := spentIn_le_settledSpend (l := l) hspends start
    subst hstart
    omega
  · refine le_of_eq_of_le ?_ (h.periods start)
    unfold Db.spentIn
    rw [hledger]
    exact spentIn_append (fun row hrow => (hrows row hrow).1) hstart

/-! ## One call -/

theorem underPeriodLimit_reserveWrite {l : SpendingLimit} {d : Db} {ctx : CallContext}
    {req : ReserveRequest} {w : Wallet} (h : UnderPeriodLimit l ctx.now d)
    (ha : ReserveAccepted d ctx req w) (hfits : FitsWithCarried l d (.reserve ctx req)) :
    UnderPeriodLimit l ctx.now (reserveWrite none w (req.reservation ctx w) ctx d) := by
  have hspent := settledSpend_addLedger_of_not d (reservationLedger (req.reservation ctx w) ctx) rfl
    l.scopeType l.scopeId (periodStart l.period ctx.now)
  have hopen := reservedEstimates_addReservation (d := d) (r := req.reservation ctx w)
    ha.idFree l.scopeType l.scopeId 0
  refine h.commit rfl rfl ?_ (by simp [reservationLedger, BillingLedger.isSpend]) ?_
  · intro r hr
    rcases RowTable.mem_rows_insert hr with hold | rfl
    · exact h.estimates r hold
    · exact ha.positive.le
  · refine (congrArg₂ (· + ·) hspent hopen).le.trans ?_
    have hcurrent := h.current
    unfold Db.openEstimates at hcurrent
    by_cases hscope : scopeId (some req.userId) req.scope l.scopeType = some l.scopeId
    · have hle := hfits w ha.wallet ha hscope
      rw [if_pos ⟨rfl, Nat.zero_le _, hscope⟩, ← add_assoc]
      exact hle
    · rw [if_neg fun hc => hscope hc.2.2, add_zero]
      exact hcurrent

theorem underPeriodLimit_settleWrite {l : SpendingLimit} {d : Db} {ctx : CallContext} {id : Uuid}
    {req : SettleRequest} {r : Reservation} {w : Wallet} {budget : Option Budget}
    (h : UnderPeriodLimit l ctx.now d) (ha : SettleAccepted d ctx id req r w)
    (hwithin : EstimateCovers d (.settle ctx id req)) :
    UnderPeriodLimit l ctx.now (settleWrite r w budget req ctx d) := by
  have hr : d.reservations.get? r.id = some r := by
    rw [RowTable.get?_some_key ha.row]
    exact ha.row
  have hactual := ha.nonneg
  have hestimate := hwithin r ha.row ha.reserved
  refine h.commit (spendingLimits_settleWrite r w budget req ctx d)
    (ledger_settleWrite r w budget req ctx d) ?_ ?_ ?_
  · intro r' hr'
    rw [reservations_settleWrite] at hr'
    rcases mem_finalised hr hr' with hold | rfl
    · exact h.estimates r' hold
    · have hadditional := additionalAmount_cases r (money req.actualAmount)
      simp only [Reservation.flush, Reservation.afterSettle, changed_row]
      omega
  · intro row hrow
    simp only [settlementRows, List.mem_cons, List.mem_ite_nil_right, List.not_mem_nil,
      or_false] at hrow
    rcases hrow with rfl | ⟨-, rfl⟩
    · exact ⟨rfl, fun _ => hactual⟩
    · exact ⟨rfl, fun hspend => by simp [releaseLedger, BillingLedger.isSpend] at hspend⟩
  · have hcurrent := h.current
    unfold Db.openEstimates at hcurrent ⊢
    rw [settledSpend_settleWrite, reservedEstimates_settleWrite hr ha.reserved]
    by_cases hscope : r.scopeId l.scopeType = some l.scopeId
    · rw [if_pos (c := 0 ≤ r.createdAt ∧ _) ⟨Nat.zero_le _, hscope⟩]
      split_ifs <;> omega
    · rw [if_neg fun hc => hscope hc.2.2, if_neg fun hc => hscope hc.2]
      omega

theorem underPeriodLimit_releaseWrite {l : SpendingLimit} {d : Db} {ctx : CallContext} {id : Uuid}
    {r : Reservation} {w : Wallet} (h : UnderPeriodLimit l ctx.now d)
    (ha : ReleaseAccepted d id r w) : UnderPeriodLimit l ctx.now (releaseWrite r w ctx d) := by
  have hr : d.reservations.get? r.id = some r := by
    rw [RowTable.get?_some_key ha.row]
    exact ha.row
  have hestimate := h.estimates r (RowTable.get?_some_mem hr)
  refine h.commit rfl rfl ?_ (by simp [releaseLedger, BillingLedger.isSpend]) ?_
  · intro r' hr'
    rcases mem_finalised hr hr' with hold | rfl
    · exact h.estimates r' hold
    · simpa only [Reservation.flush, Reservation.afterRelease, changed_row] using hestimate
  · have hrow := reservedEstimates_finalise r.afterRelease hr ha.reserved
      (by simp [Reservation.afterRelease]) l.scopeType l.scopeId 0
    refine (congrArg₂ (· + ·) (settledSpend_releaseWrite r w ctx d l.scopeType l.scopeId _)
      hrow).le.trans ?_
    have hcurrent := h.current
    unfold Db.openEstimates at hcurrent
    split_ifs <;> omega

theorem runMetered_keeps_underPeriodLimit {l : SpendingLimit} (o : MeteredOperation) {d : Db}
    (h : UnderPeriodLimit l o.now d) (hwithin : EstimateCovers d o) (hfits : FitsWithCarried l d o) :
    (runMetered o).Keeps (UnderPeriodLimit l o.now) d (fun _ _ => True) := by
  cases o with
  | reserve ctx req =>
      exact keeps_ignore.mpr (keeps_reserve h (fun _ _ => trivial)
        fun w ha => ⟨underPeriodLimit_reserveWrite h ha hfits, trivial⟩)
  | settle ctx id req =>
      exact keeps_ignore.mpr (keeps_settle (fun _ _ _ => trivial)
        fun r w ha => ⟨underPeriodLimit_settleWrite h ha hwithin, trivial⟩)
  | release ctx id =>
      exact keeps_ignore.mpr (keeps_release (fun _ _ _ => trivial)
        fun r w ha => ⟨underPeriodLimit_releaseWrite h ha, trivial⟩)
  | expireReservations ctx limit =>
      exact keeps_ignore.mpr ((keeps_expireReservations h
        fun d id r w hd ha => underPeriodLimit_releaseWrite hd ha).mono fun _ _ _ => trivial)

/-! ## Serial runs -/

/-- An active daily or monthly limit, no spend and no reservation before the run, and
a clock that never goes back. -/
structure PeriodRun (l : SpendingLimit) (ok : Db → MeteredOperation → Prop) (d₀ : Db)
    (ops : List MeteredOperation) (d : Db) : Prop where
  limit : l ∈ d₀.spendingLimits.rows
  active : l.active = true
  periodic : l.period ≠ .lifetime
  positive : 0 < l.amount
  ledger : d₀.ledger = []
  reservations : d₀.reservations.rows = []
  clock : (ops.map MeteredOperation.now).Pairwise (· ≤ ·)
  run : SerialRun runMetered (fun d o => EstimateCovers d o ∧ ok d o) d₀ ops d

/-- The invariant holds at every instant that no call has yet passed. -/
theorem underPeriodLimit_run {l : SpendingLimit} {d₀ d : Db} {ops : List MeteredOperation}
    (h₀ : ∀ t, UnderPeriodLimit l t d₀)
    (hrun : SerialRun runMetered (fun d o => EstimateCovers d o ∧ FitsWithCarried l d o) d₀ ops d)
    (hclock : (ops.map MeteredOperation.now).Pairwise (· ≤ ·)) (t : ℕ)
    (ht : ∀ o ∈ ops, o.now ≤ t) : UnderPeriodLimit l t d := by
  induction hrun generalizing t with
  | nil => exact h₀ t
  | @call os d d' o _ hok hmem ih =>
      rw [List.map_append, List.pairwise_append] at hclock
      have hd := ih hclock.1 o.now fun o' ho' =>
        hclock.2.2 _ (List.mem_map_of_mem ho') _ (by simp)
      have hd' : UnderPeriodLimit l o.now d' := by
        rcases List.mem_cons.mp hmem with rfl | hmem
        · exact hd
        · exact (runMetered_keeps_underPeriodLimit o hd hok.1 hok.2).commits _ hmem
      exact hd'.later (ht o (by simp))

/-- In a run whose accepted reservations fit together with the estimates carried over
from earlier periods, the spend of every period stays under the limit. -/
theorem periodLimit_holds_of_fitsWithCarried {l : SpendingLimit} {d₀ d : Db}
    {ops : List MeteredOperation} (h : PeriodRun l (FitsWithCarried l) d₀ ops d) (start : ℕ) :
    d.spentIn l start ≤ l.amount := by
  have h₀ (t : ℕ) : UnderPeriodLimit l t d₀ := by
    have hpositive := h.positive.le
    refine ⟨h.limit, by simp [h.reservations], by simp [h.ledger], ?_, fun start => ?_⟩
    · simpa [Db.settledSpend, Db.openEstimates, Db.reservedEstimates, RowTable.total, h.ledger,
        h.reservations] using hpositive
    · simpa [Db.spentIn, h.ledger] using hpositive
  obtain ⟨t, ht⟩ : ∃ t, ∀ o ∈ ops, o.now ≤ t :=
    ⟨(ops.map MeteredOperation.now).sum, fun o ho =>
      List.single_le_sum (fun _ _ => Nat.zero_le _) _ (List.mem_map_of_mem ho)⟩
  exact (underPeriodLimit_run h₀ h.run h.clock t ht).periods start

/-! ## A reservation that is open at midnight -/

def dailyLimit : SpendingLimit where
  id := ⟨"limit"⟩
  scopeType := .user
  scopeId := ⟨"u"⟩
  period := .daily
  amount := 100000
  active := true

def dailyLimitedDb : Db where
  wallets := RowTable.single { id := ⟨"w"⟩, userId := ⟨"u"⟩, balance := 1000000 }
  spendingLimits := RowTable.single dailyLimit

/-- Reserve `first` on the first day and `second` on the next, and settle both then. -/
def acrossMidnight (first second : Decimal) : List MeteredOperation :=
  [.reserve ⟨1, ⟨"r"⟩, ⟨"x"⟩⟩
     { userId := ⟨"u"⟩, amount := first, requestId := "q", idempotencyKey := "k" },
   .reserve ⟨microsecondsPerDay, ⟨"s"⟩, ⟨"x"⟩⟩
     { userId := ⟨"u"⟩, amount := second, requestId := "p", idempotencyKey := "l" },
   .settle ⟨microsecondsPerDay + 1, ⟨"y"⟩, ⟨"x"⟩⟩ ⟨"r"⟩ { actualAmount := first },
   .settle ⟨microsecondsPerDay + 2, ⟨"z"⟩, ⟨"x"⟩⟩ ⟨"s"⟩ { actualAmount := second }]

/-- 8.0000 carried over and 2.0000 more. -/
theorem periodLimit_holds_of_fitsWithCarried_two :
    (execAll runMetered (acrossMidnight 8 2) dailyLimitedDb).spentIn dailyLimit
      microsecondsPerDay ≤ 100000 := by
  have hok : Admits runMetered (fun d o => EstimateCovers d o ∧ FitsWithCarried dailyLimit d o)
      (acrossMidnight 8 2) dailyLimitedDb := by decide +kernel
  exact periodLimit_holds_of_fitsWithCarried ⟨by decide, rfl, by decide, by decide, rfl, rfl,
    by decide, serialRun_execAll hok⟩ microsecondsPerDay

/-- 8.0000 carried over and 8.0000 more are spent on one day. -/
theorem periodLimit_fails_at_midnight :
    ¬ ∀ (l : SpendingLimit) (d₀ d : Db) (ops : List MeteredOperation),
      PeriodRun l (fun _ _ => True) d₀ ops d → ∀ start, d.spentIn l start ≤ l.amount := by
  intro h
  have hok : Admits runMetered (fun d o => EstimateCovers d o ∧ True)
      (acrossMidnight 8 8) dailyLimitedDb := by decide +kernel
  have hle := h dailyLimit dailyLimitedDb _ _ ⟨by decide, rfl, by decide, by decide, rfl, rfl,
    by decide, serialRun_execAll hok⟩ microsecondsPerDay
  exact absurd hle (by decide +kernel)

end Zyntry
