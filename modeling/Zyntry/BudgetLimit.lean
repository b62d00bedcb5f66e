import Zyntry.EndpointBilling
import Zyntry.LimitInvariant

/-!
# The monthly budget over runs of invocations

An invocation asks `check_budget` for its estimate, reserves it if the answer is
true, and settles or releases later. `check_budget` looks at `current_spend`
alone: the estimates of other open invocations are not in it, and a top-up sets
it back once the limit was reached.
-/

namespace Zyntry

open SqlProgram

/-! ## What the invocations have taken -/

def Db.monthlyLimit (d : Db) (userId : Uuid) : Option ℤ :=
  (d.budgets.get? userId).bind Budget.monthlyLimit

/-- A reservation of the user that `d₀` did not have yet. -/
def MadeSince (d₀ : Db) (userId : Uuid) (r : Reservation) : Prop :=
  r.userId = userId ∧ d₀.reservations.get? r.id = none

instance (d₀ : Db) (userId : Uuid) (r : Reservation) : Decidable (MadeSince d₀ userId r) :=
  inferInstanceAs (Decidable (_ ∧ _))

/-- What a reservation has taken of the user's money: its amount, once it is
settled, or else its estimate, unless it is released. -/
def Reservation.taken (r : Reservation) : ℤ :=
  match r.status with
  | .reserved => r.estimatedAmount
  | .settled => r.settledAmount.getD 0
  | .released => 0

def Db.settledSince (d₀ d : Db) (userId : Uuid) : ℤ :=
  d.reservations.total (fun r =>
    if MadeSince d₀ userId r ∧ r.status = .settled then r.settledAmount.getD 0 else 0)

def Db.takenSince (d₀ d : Db) (userId : Uuid) : ℤ :=
  d.reservations.total (fun r => if MadeSince d₀ userId r then r.taken else 0)

theorem takenSince_addReservation {d : Db} {r : Reservation}
    (hid : d.reservations.get? r.id = none) (d₀ : Db) (userId : Uuid) :
    d₀.takenSince (d.addReservation r) userId = d₀.takenSince d userId +
      if MadeSince d₀ userId r then r.taken else 0 := RowTable.total_insert hid _

theorem takenSince_flushReservation {d : Db} {r : Reservation} (new : Reservation)
    (hr : d.reservations.get? r.id = some r) (d₀ : Db) (userId : Uuid) :
    d₀.takenSince (d.flushReservation r new) userId = d₀.takenSince d userId +
      if MadeSince d₀ userId r then (Reservation.flush r new r).taken - r.taken else 0 := by
  refine (Db.total_flushReservation new hr _).trans ?_
  have hsame : MadeSince d₀ userId (Reservation.flush r new r) ↔ MadeSince d₀ userId r := Iff.rfl
  simp only [hsame, Db.takenSince]
  split_ifs
  · ring
  · ring

theorem settledSince_le {d₀ d : Db} {userId : Uuid}
    (h : ∀ r ∈ d.reservations.rows, MadeSince d₀ userId r → 0 ≤ r.estimatedAmount) :
    d₀.settledSince d userId ≤ d₀.takenSince d userId := by
  refine List.sum_le_sum fun r hr => ?_
  by_cases hmine : MadeSince d₀ userId r
  · have hnonneg := h r hr hmine
    simp only [hmine, true_and, if_true, Reservation.taken]
    cases r.status with
    | reserved => simpa using hnonneg
    | settled => simp
    | released => simp
  · simp only [hmine, false_and, if_false, le_refl]

theorem monthlyLimit_flushBudget (d : Db) (b new : Budget) (userId : Uuid) :
    (d.flushBudget b new).monthlyLimit userId = d.monthlyLimit userId := by
  rw [Db.monthlyLimit, Db.get?_flushBudget]
  split_ifs
  · rw [Option.bind_map]
    rfl
  · rfl

/-! ## Runs of invocations -/

inductive InvocationCall where
  | checkBudget (userId : Uuid) (estimatedCost : ℤ)
  | reserve (ctx : CallContext) (req : ReserveRequest)
  | settle (ctx : CallContext) (reservationId : Uuid) (req : SettleRequest)
  | release (ctx : CallContext) (reservationId : Uuid)
  | addCredit (ctx : CallContext) (req : CreditRequest)

def runInvocationCall : InvocationCall → Sql Unit
  | .checkBudget userId estimatedCost => (checkBudget userId estimatedCost).ignore
  | .reserve ctx req => (reserve {} ctx req).ignore
  | .settle ctx id req => (settle {} ctx id req).ignore
  | .release ctx id => (release {} ctx id).ignore
  | .addCredit ctx req => (addCredit ctx req).ignore

/-- The estimates that `check_budget` has approved and no reservation has used. -/
abbrev Approvals := List (Uuid × ℤ)

/-- Reservations are made for approved estimates only, and settlements stay within
the estimate. -/
def Permitted (approved : Approvals) (d : Db) : InvocationCall → Prop
  | .reserve _ req => (req.userId, money req.amount) ∈ approved
  | .settle ctx id req => EstimateCovers d (.settle ctx id req)
  | _ => True

def Approvals.after (approved : Approvals) : InvocationCall → Approvals
  | .reserve _ req => approved.erase (req.userId, money req.amount)
  | _ => approved

/-- A serial run of the calls of any number of invocations, in any order. A call
leaves its start state or any state it commits. -/
inductive InvocationRun (ok : Db → InvocationCall → Prop) (d₀ : Db) : Approvals → Db → Prop
  | start : InvocationRun ok d₀ [] d₀
  | approved {approved : Approvals} {d d' : Db} (userId : Uuid) (estimatedCost : ℤ) :
      InvocationRun ok d₀ approved d →
      (checkBudget userId estimatedCost).exec d = (.ok true, d') →
      InvocationRun ok d₀ ((userId, estimatedCost) :: approved) d'
  | call {approved : Approvals} {d d' : Db} (c : InvocationCall) :
      InvocationRun ok d₀ approved d → Permitted approved d c → ok d c →
      d' ∈ d :: (runInvocationCall c).commits d →
      InvocationRun ok d₀ (approved.after c) d'

/-- An estimate that `reserve` accepts fits under the budget next to what has been
settled and to what is open since `d₀`. -/
def FitsBudget (d₀ : Db) (userId : Uuid) (d : Db) : InvocationCall → Prop
  | .reserve ctx req => req.userId = userId →
      ∀ w ∈ d.walletByUser userId, ReserveAccepted d ctx req w →
        ∀ limit ∈ d.monthlyLimit userId, d₀.takenSince d userId + money req.amount ≤ limit
  | _ => True

/-! ## The invariant -/

structure WithinBudget (d₀ : Db) (userId : Uuid) (limit : ℤ) (d : Db) : Prop where
  budget : d.monthlyLimit userId = some limit
  estimates : ∀ r ∈ d.reservations.rows, MadeSince d₀ userId r → 0 ≤ r.estimatedAmount
  taken : d₀.takenSince d userId ≤ limit

section

variable {d₀ d : Db} {userId : Uuid} {limit : ℤ}

theorem WithinBudget.of_unchanged {d' : Db} (h : WithinBudget d₀ userId limit d)
    (hreservations : d'.reservations = d.reservations)
    (hlimit : d'.monthlyLimit userId = d.monthlyLimit userId) :
    WithinBudget d₀ userId limit d' := by
  refine ⟨hlimit.trans h.budget, fun r hr => h.estimates r (hreservations ▸ hr), ?_⟩
  rw [Db.takenSince, hreservations]
  exact h.taken

theorem withinBudget_reserveWrite {ctx : CallContext} {req : ReserveRequest} {w : Wallet}
    (h : WithinBudget d₀ userId limit d) (ha : ReserveAccepted d ctx req w)
    (hfits : req.userId = userId → d₀.takenSince d userId + money req.amount ≤ limit) :
    WithinBudget d₀ userId limit (reserveWrite none w (req.reservation ctx w) ctx d) := by
  have htaken : d₀.takenSince (reserveWrite none w (req.reservation ctx w) ctx d) userId =
      d₀.takenSince d userId +
        if MadeSince d₀ userId (req.reservation ctx w) then money req.amount else 0 :=
    takenSince_addReservation (r := req.reservation ctx w) ha.idFree d₀ userId
  have hpos := ha.positive
  refine ⟨h.budget, fun r hr hmine => ?_, ?_⟩
  · rcases RowTable.mem_rows_insert hr with hold | rfl
    · exact h.estimates r hold hmine
    · exact hpos.le
  · rw [htaken]
    split_ifs with hmine
    · exact hfits hmine.1
    · simpa only [add_zero] using h.taken

/-- A reserved row that is finalised within its estimate. -/
theorem withinBudget_finalise {d' : Db} {r new : Reservation} (h : WithinBudget d₀ userId limit d)
    (hr : d.reservations.get? r.id = some r) (hreserved : r.status = .reserved)
    (hreservations : d'.reservations = (d.flushReservation r new).reservations)
    (hlimit : d'.monthlyLimit userId = d.monthlyLimit userId)
    (hestimate : 0 ≤ r.estimatedAmount → 0 ≤ new.estimatedAmount)
    (htaken : 0 ≤ r.estimatedAmount → (Reservation.flush r new r).taken ≤ r.estimatedAmount) :
    WithinBudget d₀ userId limit d' := by
  refine ⟨hlimit.trans h.budget, fun r' hr' hmine => ?_, ?_⟩
  · rw [hreservations] at hr'
    rcases Db.mem_flushReservation hr' with ⟨hold, _⟩ | ⟨row, hrow, rfl⟩
    · exact h.estimates r' hold hmine
    · have hsame : row = r := Option.some.inj (hrow.symm.trans hr)
      subst hsame
      simpa only [Reservation.flush, changed_row] using
        hestimate (h.estimates row (RowTable.get?_some_mem hr) hmine)
  · have hflush := takenSince_flushReservation new hr d₀ userId
    have hbefore : r.taken = r.estimatedAmount := by simp only [Reservation.taken, hreserved]
    have hold := h.taken
    rw [Db.takenSince, hreservations]
    refine hflush.trans_le ?_
    split_ifs with hmine
    · have hless := htaken (h.estimates r (RowTable.get?_some_mem hr) hmine)
      omega
    · omega

theorem withinBudget_settleWrite {ctx : CallContext} {id : Uuid} {req : SettleRequest}
    {r : Reservation} {w : Wallet} (h : WithinBudget d₀ userId limit d)
    (ha : SettleAccepted d ctx id req r w) (hcovers : EstimateCovers d (.settle ctx id req))
    (budget : Option Budget) :
    WithinBudget d₀ userId limit (settleWrite r w budget req ctx d) := by
  have hr : d.reservations.get? r.id = some r := by
    rw [RowTable.get?_some_key ha.row]
    exact ha.row
  have hactual := hcovers r ha.row ha.reserved
  refine withinBudget_finalise h hr ha.reserved (reservations_settleWrite ..) ?_ ?_ fun _ => ?_
  · have hbudgets := budgets_settleWrite r w budget req ctx d
    cases budget with
    | none => simp only [Db.monthlyLimit, hbudgets, Option.map_none, flushBudgetOf]
    | some b =>
        refine Eq.trans ?_ (monthlyLimit_flushBudget d b (b.afterSettle (money req.actualAmount)) userId)
        simp only [Db.monthlyLimit, hbudgets, Option.map_some, flushBudgetOf]
  · intro hestimate
    rw [Reservation.afterSettle, additionalAmount, if_neg (not_lt.mpr hactual), add_zero]
    exact hestimate
  · simpa only [Reservation.taken, Reservation.flush, Reservation.afterSettle, changed_row,
      Option.getD_some] using hactual

theorem withinBudget_releaseWrite {ctx : CallContext} {id : Uuid} {r : Reservation} {w : Wallet}
    (h : WithinBudget d₀ userId limit d) (ha : ReleaseAccepted d id r w) :
    WithinBudget d₀ userId limit (releaseWrite r w ctx d) := by
  have hr : d.reservations.get? r.id = some r := by
    rw [RowTable.get?_some_key ha.row]
    exact ha.row
  have hreservations : (releaseWrite r w ctx d).reservations =
      (d.flushReservation r r.afterRelease).reservations := rfl
  refine withinBudget_finalise h hr ha.reserved hreservations rfl (fun hestimate => hestimate)
    fun hestimate => ?_
  simpa only [Reservation.taken, Reservation.flush, Reservation.afterRelease, changed_row] using
    hestimate

theorem withinBudget_creditWrite (h : WithinBudget d₀ userId limit d) (w : Wallet)
    (t : WalletTransaction) (budget : Option (Budget × Budget)) (l : BillingLedger) :
    WithinBudget d₀ userId limit (creditWrite w t budget l d) := by
  refine h.of_unchanged (reservations_flushBudgetOf budget _) ?_
  cases budget with
  | none => rfl
  | some b => exact monthlyLimit_flushBudget d b.1 b.2 userId

theorem runInvocationCall_keeps_withinBudget (c : InvocationCall)
    (h : WithinBudget d₀ userId limit d) {approved : Approvals} (hpermitted : Permitted approved d c)
    (hfits : FitsBudget d₀ userId d c) :
    (runInvocationCall c).Keeps (WithinBudget d₀ userId limit) d (fun _ _ => True) := by
  cases c with
  | checkBudget of cost =>
      refine keeps_ignore.mpr ((keeps_checkBudget h ?_).mono fun _ _ _ => trivial)
      exact fun d loaded b hd => hd.of_unchanged rfl (monthlyLimit_flushBudget d loaded b userId)
  | reserve ctx req =>
      refine keeps_ignore.mpr (keeps_reserve h (fun _ _ => trivial) fun w ha => ⟨?_, trivial⟩)
      exact withinBudget_reserveWrite h ha fun huser =>
        hfits huser w (huser ▸ ha.wallet) ha limit h.budget
  | settle ctx id req =>
      exact keeps_ignore.mpr (keeps_settle (fun _ _ _ => trivial)
        fun r w ha => ⟨withinBudget_settleWrite h ha hpermitted _, trivial⟩)
  | release ctx id =>
      exact keeps_ignore.mpr (keeps_release (fun _ _ _ => trivial)
        fun r w ha => ⟨withinBudget_releaseWrite h ha, trivial⟩)
  | addCredit ctx req =>
      exact keeps_ignore.mpr ((keeps_addCredit h (fun _ _ => h.of_unchanged rfl rfl)
        fun w hd _ => withinBudget_creditWrite hd w _ _ _).mono fun _ _ _ => trivial)

end

instance (approved : Approvals) (d : Db) : ∀ c, Decidable (Permitted approved d c)
  | .checkBudget _ _ => .isTrue trivial
  | .reserve _ _ => inferInstanceAs (Decidable (_ ∈ _))
  | .settle ctx id req => inferInstanceAs (Decidable (EstimateCovers d (.settle ctx id req)))
  | .release _ _ => .isTrue trivial
  | .addCredit _ _ => .isTrue trivial

instance (d₀ : Db) (userId : Uuid) (d : Db) : ∀ c, Decidable (FitsBudget d₀ userId d c)
  | .checkBudget _ _ => .isTrue trivial
  | .reserve _ req => inferInstanceAs (Decidable (req.userId = userId →
      ∀ w ∈ d.walletByUser userId, _ → ∀ limit ∈ d.monthlyLimit userId, _))
  | .settle _ _ _ => .isTrue trivial
  | .release _ _ => .isTrue trivial
  | .addCredit _ _ => .isTrue trivial

/-- Run one call to its end. -/
def playCall (s : Approvals × Db) : InvocationCall → Approvals × Db
  | .checkBudget userId estimatedCost =>
      match (checkBudget userId estimatedCost).exec s.2 with
      | (.ok true, d) => ((userId, estimatedCost) :: s.1, d)
      | _ => s
  | c => (s.1.after c, ((runInvocationCall c).exec s.2).2)

/-- Every call that `playCall` runs is permitted and admitted. -/
def Follows (ok : Db → InvocationCall → Prop) : List InvocationCall → Approvals × Db → Prop
  | [], _ => True
  | c :: cs, s => Permitted s.1 s.2 c ∧ ok s.2 c ∧ Follows ok cs (playCall s c)

instance (ok : Db → InvocationCall → Prop) [∀ d c, Decidable (ok d c)] :
    ∀ cs s, Decidable (Follows ok cs s)
  | [], _ => .isTrue trivial
  | c :: cs, s =>
      have := instDecidableFollows ok cs (playCall s c)
      inferInstanceAs (Decidable (Permitted s.1 s.2 c ∧ ok s.2 c ∧ Follows ok cs (playCall s c)))

theorem invocationRun_play {ok : Db → InvocationCall → Prop} {d₀ : Db} {cs : List InvocationCall}
    {s : Approvals × Db} (h : InvocationRun ok d₀ s.1 s.2) (hok : Follows ok cs s) :
    InvocationRun ok d₀ (cs.foldl playCall s).1 (cs.foldl playCall s).2 := by
  induction cs generalizing s with
  | nil => exact h
  | cons c cs ih =>
      refine ih ?_ hok.2.2
      have hcall := h.call c hok.1 hok.2.1 (exec_snd_mem (runInvocationCall c) s.2)
      cases c with
      | checkBudget userId cost =>
          simp only [playCall]
          split
          · exact h.approved userId cost (by assumption)
          · exact h
      | reserve ctx req => exact hcall
      | settle ctx id req => exact hcall
      | release ctx id => exact hcall
      | addCredit ctx req => exact hcall

def budgetOfTen : Db where
  wallets := RowTable.single { id := ⟨"w"⟩, userId := ⟨"u"⟩, balance := 1000000 }
  budgets := RowTable.single { userId := ⟨"u"⟩, monthlyLimit := some 100000 }

/-- The calls of an invocation that reserves `estimate` and settles `actual`. -/
def invocationCalls (id : String) (estimate actual : Decimal) : List InvocationCall :=
  [.checkBudget ⟨"u"⟩ (money estimate),
   .reserve ⟨1, ⟨id⟩, ⟨"x"⟩⟩
     { userId := ⟨"u"⟩, amount := estimate, requestId := id, idempotencyKey := id },
   .settle ⟨2, ⟨id⟩, ⟨"x"⟩⟩ ⟨id⟩ { actualAmount := actual }]

end Zyntry
