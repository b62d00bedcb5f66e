import Zyntry.InvokeSpecs
import Zyntry.SessionFrames

/-!
# Every answer is charged

The charge of an invocation hangs on the reservation that `reserve` hands it. Under
a key that was used before this is the reservation of an earlier call, and if that
is settled, or released, the provider is called again but nobody pays: `settle`
returns silently. As long as the key is the call's own, each answer that costs
something leaves a ledger row of its own.
-/

namespace Zyntry

open SqlProgram

/-! ## What stays in the tables -/

/-- Nothing is taken out of the ledger, settled reservations are final, and wallets
keep their users. -/
structure Grows (d d' : Db) : Prop where
  frame : Frame Set.univ d d'
  ledger : d.ledger <+: d'.ledger
  settled : ∀ id row, d.reservations.get? id = some row → row.status = .settled →
    d'.reservations.get? id = some row

namespace Grows

variable {d d' d'' : Db}

theorem refl (d : Db) : Grows d d :=
  ⟨Frame.refl _ d, List.prefix_refl _, fun _ _ h _ => h⟩

theorem trans (h : Grows d d') (h' : Grows d' d'') : Grows d d'' :=
  ⟨h.frame.trans h'.frame, h.ledger.trans h'.ledger,
    fun id row hrow hs => h'.settled id row (h.settled id row hrow hs) hs⟩

theorem addWallet (d : Db) (w : Wallet) : Grows d (d.addWallet w) :=
  ⟨Frame.addWallet trivial, List.prefix_refl _, fun _ _ h _ => h⟩

theorem budgets (d : Db) (budgets : RowTable Uuid Budget Budget.userId) :
    Grows d { d with budgets } :=
  ⟨{ Frame.refl Set.univ d with }, List.prefix_refl _, fun _ _ h _ => h⟩

theorem usageLogs (d : Db) (usageLogs : List UsageLog) : Grows d { d with usageLogs } :=
  ⟨{ Frame.refl Set.univ d with }, List.prefix_refl _, fun _ _ h _ => h⟩

theorem reserveWrite (d : Db) (w : Wallet) (r : Reservation) (ctx : CallContext) :
    Grows d (reserveWrite none w r ctx d) :=
  ⟨Frame.reserveWrite trivial trivial trivial trivial, List.prefix_append _ _,
    fun _ _ h _ => RowTable.get?_insert_of_some h⟩

/-- A flush of a reservation that is not settled leaves settled ones alone. -/
theorem settled_flushReservation {r new : Reservation} (hrow : d.reservations.get? r.id = some r)
    (hr : r.status ≠ .settled) (id : Uuid) (row : Reservation)
    (h : d.reservations.get? id = some row) (hs : row.status = .settled) :
    (d.flushReservation r new).reservations.get? id = some row := by
  rw [Db.get?_flushReservation, if_neg]
  · exact h
  · rintro rfl
    exact hr (Option.some.inj (h.symm.trans hrow) ▸ hs)

theorem settleWrite {ctx : CallContext} {id : Uuid} {req : SettleRequest} {r : Reservation}
    {w : Wallet} (budget : Option Budget) (h : SettleAccepted d ctx id req r w) :
    Grows d (settleWrite r w budget req ctx d) := by
  have hid : r.id = id := RowTable.get?_some_key h.row
  refine ⟨Frame.settleWrite trivial trivial trivial fun _ => trivial, ?_, ?_⟩
  · rw [ledger_settleWrite]
    exact List.prefix_append _ _
  · rw [reservations_settleWrite]
    exact settled_flushReservation (hid ▸ h.row) (by simp [h.reserved])

theorem releaseWrite {ctx : CallContext} {id : Uuid} {r : Reservation} {w : Wallet}
    (h : ReleaseAccepted d id r w) : Grows d (releaseWrite r w ctx d) := by
  have hid : r.id = id := RowTable.get?_some_key h.row
  exact ⟨Frame.releaseWrite trivial trivial trivial, List.prefix_append _ _,
    settled_flushReservation (hid ▸ h.row) (by simp [h.reserved])⟩

/-- Every stage of an invocation only adds to `d`. -/
theorem closed (d : Db) : MeteredClosed (Grows d) where
  addWallet w h := h.trans (addWallet _ w)
  flushBudget _ _ h := h.trans (budgets _ _)
  reserve h _ := h.trans (reserveWrite _ _ _ _)
  settle budget h ha := h.trans (settleWrite budget ha)
  release h ha := h.trans (releaseWrite ha)

end Grows

/-! ## The reservation of a call -/

/-- A reservation that is stored under the key of the call can still be settled, out
of the caller's wallet. -/
def InvokeCall.OwnKey (c : InvokeCall) (d : Db) : Prop :=
  ∀ r, d.reservationByKey c.billingIdempotencyKey = some r →
    r.status = .reserved ∧ r.userId = c.userId ∧
      ∃ w, d.wallets.get? r.walletId = some w ∧ w.userId = c.userId

structure InvokeCall.Holds (c : InvokeCall) (d : Db) (r : Reservation) : Prop where
  row : d.reservations.get? r.id = some r
  reserved : r.status = .reserved
  user : r.userId = c.userId
  key : r.idempotencyKey = c.billingIdempotencyKey
  wallet : ∃ w, d.wallets.get? r.walletId = some w ∧ w.userId = c.userId

/-- The call holds a reservation, or can still make one. -/
def InvokeCall.Entitled (c : InvokeCall) (d : Db) : Option Reservation → Prop
  | some r => c.Holds d r
  | none => c.OwnKey d

theorem InvokeCall.OwnKey.grows {c : InvokeCall} {d d' : Db} (h : c.OwnKey d) (hg : Grows d d')
    (hr : d'.reservations = d.reservations) : c.OwnKey d' := by
  intro r hkey
  unfold Db.reservationByKey at hkey
  rw [hr] at hkey
  obtain ⟨hreserved, huser, w, hw, hwuser⟩ := h r hkey
  obtain ⟨w', hw', hwuser'⟩ := hg.frame.walletUser _ w hw
  exact ⟨hreserved, huser, w', hw', hwuser'.trans hwuser⟩

theorem keeps_invokeReserve (c : InvokeCall) (amount : Decimal) (d : Db) :
    (c.reserve amount).Keeps (Grows d) d (fun r d' => Grows d d' ∧
      d'.pricingRules = d.pricingRules ∧ (c.OwnKey d → c.Holds d' r)) := by
  refine keeps_attempt (keeps_reserve (Grows.refl d) ?_ ?_)
  · intro r hkey
    refine ⟨Grows.refl d, rfl, fun hown => ?_⟩
    obtain ⟨hreserved, huser, hwallet⟩ := hown r hkey
    obtain ⟨hrow, hrkey⟩ := reservationByKey_get? hkey
    exact ⟨hrow, hreserved, huser, hrkey, hwallet⟩
  · intro w hacc
    have hstep := Grows.reserveWrite d w ((c.reserveRequest amount).reservation c.ctx w) c.ctx
    obtain ⟨hget, huser⟩ := walletByUser_get? hacc.wallet
    refine ⟨hstep, hstep, rfl, fun _ => ?_⟩
    obtain ⟨w', hw', huser'⟩ := hstep.frame.walletUser w.id w hget
    exact ⟨RowTable.get?_insert_self hacc.idFree, rfl, rfl, rfl, w', hw', huser'.trans huser⟩

theorem keeps_reserveEstimate (c : InvokeCall) (wallet : Wallet) (d : Db) :
    (c.reserveEstimate wallet).Keeps (Grows d) d (fun out d' => Grows d d' ∧
      d'.pricingRules = d.pricingRules ∧ (c.OwnKey d → c.Entitled d' out.2)) := by
  unfold InvokeCall.reserveEstimate
  split_ifs with hactive
  · trivial
  simp only [keeps_bind, keeps_stage]
  refine fun _ => keeps_attempt ((keeps_query _ _ _ _ _).mpr fun _ => ?_)
  split_ifs with hpos hfunds
  · trivial
  · rw [keeps_bind]
    have hcheck : ∀ cost, (checkBudget c.userId cost).Keeps
        (fun d' => ∃ budgets, d' = { d with budgets }) d
        (fun _ d' => ∃ budgets, d' = { d with budgets }) := by
      refine fun cost => keeps_checkBudget ⟨d.budgets, rfl⟩ ?_
      rintro _ loaded b ⟨budgets, rfl⟩
      exact ⟨_, rfl⟩
    refine keeps_attempt (((hcheck _).weaken ?_).mono ?_)
    · rintro _ ⟨b, rfl⟩
      exact Grows.budgets d b
    rintro allowed _ ⟨b, rfl⟩
    have hb := Grows.budgets d b
    cases allowed with
    | false => trivial
    | true =>
        simp only [if_true, keeps_bind]
        refine keeps_catching hb (((keeps_invokeReserve c _ _).weaken fun _ => hb.trans).mono ?_) ?_
        · rintro r d' ⟨hg, hprices, hholds⟩
          exact ⟨hb.trans hg, hprices, fun hown => hholds (hown.grows hb rfl)⟩
        · intro e d' _
          unfold InvokeCall.onInsufficientBalance
          split <;> trivial
  · exact ⟨Grows.refl d, rfl, id⟩

theorem keeps_preflight (c : InvokeCall) (d : Db) :
    c.preflight.Keeps (Grows d) d (fun out d' => Grows d d' ∧ d'.pricingRules = d.pricingRules ∧
      (c.OwnKey d → c.Entitled d' out.2)) := by
  unfold InvokeCall.preflight
  simp only [keeps_bind, keeps_stage]
  intro _
  refine keeps_attempt (keeps_getWallet (Grows.refl d) ?_ ?_)
  · exact fun w _ => keeps_reserveEstimate c w d
  · intro _ _
    have hnew := Grows.addWallet d (firstWallet c.ctx c.userId)
    refine ⟨hnew, ((keeps_reserveEstimate c _ _).weaken fun _ => hnew.trans).mono ?_⟩
    rintro out d' ⟨hg, hprices, hentitled⟩
    exact ⟨hnew.trans hg, hprices, fun hown => hentitled (hown.grows hnew rfl)⟩

/-! ## From the answer to its settlement -/

/-- `l` settles the call: a spend of its actual cost out of the caller's wallet. -/
structure Settles (d : Db) (c : InvokeCall) (actualCost : Decimal) (l : BillingLedger) : Prop where
  spend : l.isSpend = true
  user : l.userId = some c.userId
  amount : l.amount = money actualCost
  key : l.idempotencyKey = some (c.billingIdempotencyKey ++ ":settled")
  reservation : ∃ r w, l.resourceId = some r.id.str ∧ d.reservations.get? r.id = some r ∧
    r.status = .settled ∧ d.wallets.get? r.walletId = some w ∧ w.userId = c.userId

theorem Settles.grows {d d' : Db} {c : InvokeCall} {actualCost : Decimal} {l : BillingLedger}
    (h : Settles d c actualCost l) (hg : Grows d d') : Settles d' c actualCost l := by
  obtain ⟨r, w, hid, hrow, hstatus, hw, huser⟩ := h.reservation
  obtain ⟨w', hw', huser'⟩ := hg.frame.walletUser _ w hw
  exact ⟨h.spend, h.user, h.amount, h.key, r, w', hid, hg.settled _ r hrow hstatus, hstatus, hw',
    huser'.trans huser⟩

/-- Between `d` and `d'` the ledger has gained a settlement of the call. -/
def ChargedBetween (d d' : Db) (c : InvokeCall) (actualCost : Decimal) : Prop :=
  ∃ rows, d'.ledger = d.ledger ++ rows ∧ ∃ l ∈ rows, Settles d' c actualCost l

theorem ChargedBetween.grows {d d₁ d₂ d' : Db} {c : InvokeCall} {actualCost : Decimal}
    (h : ChargedBetween d₁ d₂ c actualCost) (hg : Grows d d₁) (hg' : Grows d₂ d') :
    ChargedBetween d d' c actualCost := by
  obtain ⟨rows, hrows, l, hl, hsettles⟩ := h
  obtain ⟨before, hbefore⟩ := hg.ledger
  obtain ⟨after, hafter⟩ := hg'.ledger
  refine ⟨before ++ rows ++ after, ?_, l, by simp [hl], hsettles.grows hg'⟩
  rw [← hafter, hrows, ← hbefore]
  simp only [List.append_assoc]

theorem keeps_reserveActual (c : InvokeCall) (reservation : Option Reservation)
    (actualCost : Decimal) (d : Db) :
    (c.reserveActual reservation actualCost).Keeps (Grows d) d (fun held d' => Grows d d' ∧
      (c.Entitled d reservation → 0 < actualCost → ∃ r, held = some r ∧ c.Holds d' r)) := by
  unfold InvokeCall.reserveActual
  cases reservation with
  | some r => exact ⟨Grows.refl d, fun h _ => ⟨r, rfl, h⟩⟩
  | none =>
      dsimp only
      split_ifs with hpos
      · rw [keeps_bind]
        exact (keeps_invokeReserve c actualCost d).mono fun r d' ⟨hg, _, hholds⟩ =>
          ⟨hg, fun hown _ => ⟨r, rfl, hholds hown⟩⟩
      · exact ⟨Grows.refl d, fun _ h => absurd h hpos⟩

/-- The ledger row of an accepted settlement. -/
theorem chargedBetween_settleWrite {c : InvokeCall} {charge : Charge} {d : Db} {r : Reservation}
    {w : Wallet} {req : SettleRequest} (hreq : req.actualAmount = charge.actualCost)
    (htype : req.transactionType = .aiInference) (hholds : c.Holds d r)
    (h : SettleAccepted d c.ctx r.id req r w) (budget : Option Budget) :
    ChargedBetween d (settleWrite r w budget req c.ctx d) c charge.actualCost := by
  have hg := Grows.settleWrite budget h
  obtain ⟨w₀, hw₀, huser₀⟩ := hholds.wallet
  obtain ⟨w', hw', huser'⟩ := hg.frame.walletUser _ w₀ hw₀
  refine ⟨_, ledger_settleWrite r w budget req c.ctx d, _, List.mem_cons_self, ?_, ?_, ?_, ?_, ?_⟩
  · simp [BillingLedger.isSpend, settledLedger, htype, spendingTransactionTypes]
  · exact congrArg some hholds.user
  · exact congrArg money hreq
  · exact congrArg (fun k => some (k ++ ":settled")) hholds.key
  · refine ⟨Reservation.flush r (r.afterSettle (money req.actualAmount)) r, w', rfl, ?_, ?_, hw',
      huser'.trans huser₀⟩
    · rw [reservations_settleWrite]
      change (d.flushReservation r _).reservations.get? r.id = _
      rw [Db.get?_flushReservation, if_pos rfl, hholds.row]
      rfl
    · simp [Reservation.flush, Reservation.afterSettle]

theorem keeps_settleActual (c : InvokeCall) (held : Option Reservation) (charge : Charge)
    (d : Db) :
    (c.settleActual held charge).Keeps (Grows d) d (fun _ d' => Grows d d' ∧
      ∀ r, held = some r → c.Holds d r → ChargedBetween d d' c charge.actualCost) := by
  unfold InvokeCall.settleActual
  cases held with
  | none => exact ⟨Grows.refl d, fun _ h => by cases h⟩
  | some r =>
      refine keeps_ignore.mpr (keeps_attempt (keeps_settle ?_ ?_))
      · intro row hrow hstatus
        refine ⟨Grows.refl d, ?_⟩
        rintro _ ⟨⟩ hholds
        exact absurd ((Option.some.inj (hrow.symm.trans hholds.row)) ▸ hholds.reserved) hstatus
      · intro row w hacc
        have hstep := Grows.settleWrite (d.budgets.get? row.userId) hacc
        refine ⟨hstep, hstep, ?_⟩
        rintro _ ⟨⟩ hholds
        obtain rfl := Option.some.inj (hacc.row.symm.trans hholds.row)
        exact chargedBetween_settleWrite rfl rfl hholds hacc _

theorem keeps_settlement (c : InvokeCall) (reservation : Option Reservation) (charge : Charge)
    (log : UsageLog) (d : Db) :
    (c.settlement reservation charge log).Keeps (Grows d) d (fun _ d' => Grows d d' ∧
      (c.Entitled d reservation → 0 < charge.actualCost →
        ChargedBetween d d' c charge.actualCost)) := by
  unfold InvokeCall.settlement
  rw [keeps_bind]
  refine keeps_catching (Grows.refl d) ((keeps_reserveActual c reservation _ d).mono ?_)
    fun e d' hg => (Grows.closed d).keeps_settlementFailed hg
  rintro held d₁ ⟨hg₁, hheld⟩
  refine keeps_catching hg₁ ?_ fun e d' hg => (Grows.closed d).keeps_settlementFailed hg
  rw [keeps_bind]
  refine ((keeps_settleActual c held charge d₁).weaken fun _ => hg₁.trans).mono ?_
  rintro _ d₂ ⟨hg₂, hcharged⟩
  have hlogs := (hg₁.trans hg₂).trans (Grows.usageLogs d₂ (d₂.usageLogs ++ [log]))
  refine keeps_ignore.mpr (keeps_attempt ((keeps_recordUsage hlogs).mono ?_))
  intro _ d₃ hd₃
  have hg₃ : Grows d₂ d₃ := by
    rcases hd₃ with rfl | rfl
    · exact Grows.refl d₃
    · exact Grows.usageLogs d₂ _
  refine ⟨(hg₁.trans hg₂).trans hg₃, fun hentitled hpos => ?_⟩
  obtain ⟨r, rfl, hholds⟩ := hheld hentitled hpos
  exact (hcharged r rfl hholds).grows hg₁ hg₃

/-! ## Histories of calls -/

/-- What the answer to a call costs. -/
def InvokeCall.actualCost (c : InvokeCall) (d : Db) : Decimal :=
  match c.invocation.answer with
  | none => 0
  | some a => (a.charge (a.usage c.invocation.estimated) d c.ctx.now).actualCost

/-- One call: whatever it commits, and what it has paid when it returns. -/
theorem keeps_invoke (c : InvokeCall) (d : Db) :
    (invoke c).Keeps (Grows d) d (fun r d' => Grows d d' ∧ r.actualCost = c.actualCost d ∧
      (c.OwnKey d → 0 < r.actualCost → ChargedBetween d d' c r.actualCost)) := by
  unfold invoke
  rw [keeps_bind]
  refine (keeps_preflight c d).mono ?_
  rintro ⟨estimated, reservation⟩ d₁ ⟨hg₁, hprices, hentitled⟩
  refine Keeps.weaken (I := Grows d₁) ?_ fun _ => hg₁.trans
  rw [keeps_bind]
  refine ((Grows.closed d₁).keeps_respond c reservation (Grows.refl d₁)).mono ?_
  rintro a _ ⟨rfl, hanswer⟩
  rw [keeps_bind]
  refine keeps_attempt ((keeps_query _ _ _ _ _).mpr ?_)
  rw [keeps_bind]
  refine (keeps_settlement c reservation _ _ _).mono ?_
  rintro _ d₂ ⟨hg₂, hcharged⟩
  rw [keeps_bind]
  refine (((Grows.closed d₂).keeps_complete c (Grows.refl d₂)).weaken fun _ => hg₂.trans).mono ?_
  intro wallet d₃ hg₃
  refine ⟨(hg₁.trans hg₂).trans hg₃, ?_, fun hown hpos => ?_⟩
  · simp only [InvokeCall.actualCost, hanswer, charge_congr hprices]
  · exact (hcharged (hentitled hown) hpos).grows hg₁ hg₃

/-- Every call of the history that was answered at a positive cost has a settlement
of its own in the ledger. -/
def EachCharged (history : List (InvokeCall × InvokeResponse)) (d : Db) : Prop :=
  ∃ rows, rows.Sublist d.ledger ∧
    List.Forall₂ (fun h l => Settles d h.1 h.2.actualCost l)
      (history.filter (fun h => 0 < h.2.actualCost)) rows

theorem EachCharged.grows {history : List (InvokeCall × InvokeResponse)} {d d' : Db}
    (h : EachCharged history d) (hg : Grows d d') : EachCharged history d' := by
  obtain ⟨rows, hsub, hrows⟩ := h
  exact ⟨rows, hsub.trans hg.ledger.sublist, hrows.imp fun _ _ hl => hl.grows hg⟩

theorem EachCharged.returned {history : List (InvokeCall × InvokeResponse)} {d d' : Db}
    {c : InvokeCall} {r : InvokeResponse} (h : EachCharged history d) (hg : Grows d d')
    (hc : 0 < r.actualCost → ChargedBetween d d' c r.actualCost) :
    EachCharged (history ++ [(c, r)]) d' := by
  by_cases hpos : 0 < r.actualCost
  · obtain ⟨rows, hsub, hrows⟩ := h
    obtain ⟨added, hadded, l, hl, hsettles⟩ := hc hpos
    refine ⟨rows ++ [l], ?_, ?_⟩
    · rw [hadded]
      exact hsub.append (List.singleton_sublist.mpr hl)
    · simp only [List.filter_append, List.filter_cons, hpos, decide_true, if_true,
        List.filter_nil]
      exact List.rel_append (hrows.imp fun _ _ hl => hl.grows hg) (.cons hsettles .nil)
  · simpa [EachCharged, hpos] using h.grows hg

/-- There are at least as many spends as answers that cost something. -/
theorem EachCharged.length_le_countP {history : List (InvokeCall × InvokeResponse)} {d : Db}
    (h : EachCharged history d) : (history.filter (fun h => 0 < h.2.actualCost)).length ≤
      d.ledger.countP BillingLedger.isSpend := by
  obtain ⟨rows, hsub, hrows⟩ := h
  refine le_trans ?_ hsub.countP_le
  clear hsub
  generalize history.filter (fun h => 0 < h.2.actualCost) = answered at hrows ⊢
  induction hrows with
  | nil => exact le_rfl
  | cons hl _ ih => simpa [hl.spend] using ih

/-- Whoever calls, in whatever order and with whatever failures in between: if each
call that is answered at a cost begins under a key that is its own, then each has
its own settlement, of its own cost and out of the caller's wallet. -/
theorem eachCharged_of_ownKey {d₀ d : Db} {history : List (InvokeCall × InvokeResponse)}
    (hrun : SerialHistory invoke (fun d c => 0 < c.actualCost d → c.OwnKey d) d₀ history d) :
    EachCharged history d := by
  refine hrun.invariant ⟨[], List.nil_sublist _, .nil⟩ ?_ ?_
  · intro history d c r d' hcharged hown hexec
    obtain ⟨hg, hcost, hpaid⟩ := (keeps_invoke c d).exec hexec
    exact hcharged.returned hg fun hpos => hpaid (hown (hcost ▸ hpos)) hpos
  · intro history d c d' hcharged hmem
    exact hcharged.grows ((keeps_invoke c d).commits d' hmem)

/-! ## A key that is used twice -/

/-- One model call of 1000 tokens in and 1000 out, for 0.02. -/
def shortInvocation : Invocation where
  catalogue := fun _ _ => { inputPricePer1k := 5 / 1000, outputPricePer1k := 15 / 1000 }
  hasKey := fun _ => true
  routing := .configured .openai ["gpt-4o"]
  respond := fun _ => .completed "answer" { inputTokens := 1000, outputTokens := 1000 }
  rounds := []
  estimated := { inputTokens := 0, outputTokens := 0 }

def shortCall (requestId key : String) : InvokeCall where
  ctx := ⟨1, ⟨requestId⟩, ⟨"x"⟩⟩
  userId := ⟨"u"⟩
  requestId := requestId
  idempotencyKey := some key
  provider := "openai"
  model := "gpt-4o"
  preflightInputTokens := 10
  requestedOutputTokens := 2048
  invocation := shortInvocation

def shortResponse (requestId : String) (remainingBalance : Decimal) : InvokeResponse where
  requestId := requestId
  provider := .openai
  model := gpt4o
  estimatedCost := 0
  actualCost := 2 / 100
  remainingBalance := remainingBalance
  tokensUsed := 2000

def oneUser : Db where
  wallets := RowTable.single { id := ⟨"w"⟩, userId := ⟨"u"⟩, balance := 1000000 }

def afterShortCall : Db := ((invoke (shortCall "q1" "k")).exec oneUser).2

theorem exec_shortCall :
    (invoke (shortCall "q1" "k")).exec oneUser = (.ok (shortResponse "q1" (9998 / 100)), afterShortCall) :=
  exec_of_toOption (by decide +kernel)

theorem ownKey_of_none {c : InvokeCall} {d : Db}
    (h : d.reservationByKey c.billingIdempotencyKey = none) : c.OwnKey d := by
  intro r hr
  rw [h] at hr
  cases hr

/-- Two calls under keys of their own. -/
theorem eachCharged_of_ownKey_twoKeys :
    EachCharged [(shortCall "q1" "k", shortResponse "q1" (9998 / 100)),
        (shortCall "q2" "l", shortResponse "q2" (9996 / 100))]
      ((invoke (shortCall "q2" "l")).exec afterShortCall).2 := by
  have hfirst : SerialHistory invoke (fun d c => 0 < c.actualCost d → c.OwnKey d) oneUser
      ([] ++ [_]) afterShortCall :=
    SerialHistory.nil.returned (fun _ => ownKey_of_none (by decide +kernel)) exec_shortCall
  exact eachCharged_of_ownKey (hfirst.returned (fun _ => ownKey_of_none (by decide +kernel))
    (exec_of_toOption (by decide +kernel)))

/-- The second call under a key is answered like the first, and nobody pays for it. -/
theorem uncharged_at_repeatedKey :
    ¬ ∀ (d₀ d : Db) (history : List (InvokeCall × InvokeResponse)),
      SerialHistory invoke (fun _ _ => True) d₀ history d → EachCharged history d := by
  intro h
  have hfirst : SerialHistory invoke (fun _ _ => True) oneUser ([] ++ [_]) afterShortCall :=
    SerialHistory.nil.returned trivial exec_shortCall
  have hagain : (invoke (shortCall "q2" "k")).exec afterShortCall =
      (.ok (shortResponse "q2" (9998 / 100)), ((invoke (shortCall "q2" "k")).exec afterShortCall).2) :=
    exec_of_toOption (by decide +kernel)
  have hle := (h _ _ _ (hfirst.returned trivial hagain)).length_le_countP
  exact absurd hle (by decide +kernel)

end Zyntry
