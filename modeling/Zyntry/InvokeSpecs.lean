import Zyntry.Invoke

/-!
# What the stages of the invoke endpoint keep

An invariant that survives the writes of the metered engine, of the budget check
and of a first wallet survives every stage of an invocation but the record of its
usage, whatever is raised on the way.
-/

namespace Zyntry

open SqlProgram

/-- Closed under every write of an invocation but the record of its usage. -/
structure MeteredClosed (I : Db → Prop) : Prop where
  addWallet : ∀ {d : Db} (w : Wallet), I d → I (d.addWallet w)
  flushBudget : ∀ {d : Db} (loaded b : Budget), I d → I (d.flushBudget loaded b)
  reserve : ∀ {d : Db} {ctx : CallContext} {req : ReserveRequest} {w : Wallet}, I d →
    ReserveAccepted d ctx req w → I (reserveWrite none w (req.reservation ctx w) ctx d)
  settle : ∀ {d : Db} {ctx : CallContext} {id : Uuid} {req : SettleRequest} {r : Reservation}
    {w : Wallet} (budget : Option Budget), I d → SettleAccepted d ctx id req r w →
    I (settleWrite r w budget req ctx d)
  release : ∀ {d : Db} {ctx : CallContext} {id : Uuid} {r : Reservation} {w : Wallet}, I d →
    ReleaseAccepted d id r w → I (releaseWrite r w ctx d)

namespace MeteredClosed

variable {I : Db → Prop} {d : Db}

theorem keeps_getWallet (hI : MeteredClosed I) (ctx : CallContext) (userId : Uuid) (hd : I d) :
    (getWallet {} ctx userId).Keeps I d (fun _ => I) :=
  Zyntry.keeps_getWallet hd (fun _ _ => hd) fun _ _ => ⟨hI.addWallet _ hd, hI.addWallet _ hd⟩

theorem keeps_invokeReserve (hI : MeteredClosed I) (c : InvokeCall) (amount : Decimal) (hd : I d) :
    (c.reserve amount).Keeps I d (fun _ => I) :=
  keeps_attempt (keeps_reserve hd (fun _ _ => hd) fun _ h => ⟨hI.reserve hd h, hI.reserve hd h⟩)

theorem keeps_reserveEstimate (hI : MeteredClosed I) (c : InvokeCall) (wallet : Wallet)
    (hd : I d) : (c.reserveEstimate wallet).Keeps I d
      (fun _ d' => I d' ∧ c.raises .runtimeBudget = none) := by
  unfold InvokeCall.reserveEstimate
  split_ifs with hactive
  · trivial
  simp only [keeps_bind, keeps_stage]
  refine fun _ => keeps_attempt ((keeps_query _ _ _ _ _).mpr fun hallowed => ?_)
  split_ifs with hpos hfunds
  · trivial
  · rw [keeps_bind]
    refine keeps_attempt ((keeps_checkBudget hd fun _ loaded b => hI.flushBudget loaded b).mono ?_)
    intro allowed d' hd'
    cases allowed with
    | false => trivial
    | true =>
        simp only [if_true, keeps_bind]
        have hreserve := (hI.keeps_invokeReserve c (toDecimal (c.estimatedCost d)) hd').mono
          fun _ d'' hd'' => (⟨hd'', hallowed⟩ : I d'' ∧ c.raises .runtimeBudget = none)
        refine keeps_catching hd' hreserve fun e _ _ => ?_
        unfold InvokeCall.onInsufficientBalance
        split <;> trivial
  · exact ⟨hd, hallowed⟩

theorem keeps_preflight (hI : MeteredClosed I) (c : InvokeCall) (hd : I d) :
    c.preflight.Keeps I d (fun _ d' => I d' ∧ c.raises .runtimeBudget = none) := by
  unfold InvokeCall.preflight
  simp only [keeps_bind, keeps_stage]
  refine fun _ => keeps_attempt ((hI.keeps_getWallet c.ctx c.userId hd).mono ?_)
  exact fun w d' hd' => hI.keeps_reserveEstimate c w hd'

/-- A handler that releases ends in an exception, from whatever state it begins in. -/
theorem keeps_invokeRelease {α : Type} {c : InvokeCall} {reservation : Option Reservation}
    {cause raised : Error} {post : α → Db → Prop} (hI : MeteredClosed I) (hd : I d) :
    (c.releaseAndRaise reservation cause raised).Keeps I d post := by
  unfold InvokeCall.releaseAndRaise
  split
  · exact keeps_releaseAndRaise fun row w h => hI.release hd h
  · trivial

theorem keeps_respond (hI : MeteredClosed I) (c : InvokeCall) (reservation : Option Reservation)
    (hd : I d) :
    (c.respond reservation).Keeps I d (fun a d' => d' = d ∧ c.invocation.answer = some a) := by
  simp only [InvokeCall.respond, keeps_bind, keeps_stage]
  refine fun _ => keeps_catching hd (keeps_stage.mpr fun _ => ?_)
    fun e d' hd' => keeps_onException (hI.keeps_invokeRelease hd')
  cases hanswer : c.invocation.answer with
  | none => exact hI.keeps_invokeRelease hd
  | some a =>
      simp only [keeps_bind, keeps_stage, pure_eq, keeps_ret]
      exact fun _ _ _ _ => ⟨trivial, trivial⟩

theorem keeps_settlementFailed {α : Type} {c : InvokeCall} {reservation : Option Reservation}
    {e : Error} {post : α → Db → Prop} (hI : MeteredClosed I) (hd : I d) :
    (c.settlementFailed reservation e).Keeps I d post := by
  unfold InvokeCall.settlementFailed
  split
  · exact hI.keeps_invokeRelease hd
  · exact hI.keeps_invokeRelease hd
  · exact keeps_onException (hI.keeps_invokeRelease hd)

theorem keeps_reserveActual (hI : MeteredClosed I) (c : InvokeCall)
    (reservation : Option Reservation) (actualCost : Decimal) (hd : I d) :
    (c.reserveActual reservation actualCost).Keeps I d (fun _ => I) := by
  unfold InvokeCall.reserveActual
  cases reservation with
  | some r => exact hd
  | none =>
      dsimp only
      split_ifs
      · rw [keeps_bind]
        exact hI.keeps_invokeReserve c actualCost hd
      · exact hd

theorem keeps_settleActual (hI : MeteredClosed I) (c : InvokeCall) (held : Option Reservation)
    (charge : Charge) (hd : I d) : (c.settleActual held charge).Keeps I d (fun _ => I) := by
  unfold InvokeCall.settleActual
  cases held with
  | none => exact hd
  | some r =>
      exact keeps_ignore.mpr (keeps_attempt (keeps_settle (fun _ _ _ => hd)
        fun row w h => ⟨hI.settle _ hd h, hI.settle _ hd h⟩))

theorem keeps_complete (hI : MeteredClosed I) (c : InvokeCall) (hd : I d) :
    c.complete.Keeps I d (fun _ => I) := by
  have hwallet : ∀ d', I d' →
      (attempt (c.faults .remainingBalance) (getWallet {} c.ctx c.userId)).Keeps I d'
        (fun _ d'' => c.raises .response = none → I d'') := fun d' hd' =>
    keeps_attempt ((hI.keeps_getWallet c.ctx c.userId hd').mono fun _ _ h _ => h)
  simp only [InvokeCall.complete, keeps_bind, keeps_stage, pure_eq, keeps_ret]
  refine fun _ => keeps_catching hd (keeps_attempt ?_) fun e d' hd' =>
    keeps_onException (keeps_attempt ?_)
  · exact (keeps_write _ _ _ _ _).mpr ⟨hd, hwallet d hd⟩
  · exact (keeps_write _ _ _ _ _).mpr ⟨hd', hwallet d' hd'⟩

/-- No other write touches the usage log or the prices. -/
theorem ofUsage (P : List UsageLog → List PricingRule → Prop) :
    MeteredClosed (fun d => P d.usageLogs d.pricingRules) where
  addWallet _ h := h
  flushBudget _ _ h := h
  reserve h _ := h
  settle _ h _ := by
    rw [usageLogs_settleWrite, pricingRules_settleWrite]
    exact h
  release h _ := h

end MeteredClosed

end Zyntry
