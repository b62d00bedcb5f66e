import Zyntry.Invoke
import Zyntry.StrandedReservations

/-!
# The exits of the invoke endpoint

Between the reservation and its settlement only the first model call stands in a `try` block
that releases the reservation, and the block of the settlement also answers for what comes after
the commit. The exits that leave a reservation open or charge for an error are told here.
-/

namespace Zyntry

open SqlProgram

def Charge.settleRequest (charge : Charge) : SettleRequest where
  actualAmount := charge.actualCost
  providerCost := charge.providerCost
  transactionType := .aiInference

namespace InvokeCall

variable (c : InvokeCall)

/-! ## Which exits are guarded -/

/-- A handler answers `e` by releasing the reservation. -/
def Releases (r : Reservation) (d : Db) (e : Error) : Prop :=
  ReleaseAnswers (c.faults .release) r d e

/-- What `record_usage` raises. -/
def usageFailure (d : Db) (log : UsageLog) : Option Error :=
  recordFailure (c.faults .recordUsage) (c.raises .published) d log

/-- What the commit of the trace event raises. -/
def eventFailure : Option Error :=
  match c.faults .commitEvent with
  | none => none
  | some (_, .cancelled) => some .cancelled
  | some (_, .databaseError) => (c.faults .rollback).map fun f => f.2.error

/-- What is raised after the block of the settlement. -/
def completionFailure : Option Error :=
  (c.raises .event).or
    (c.eventFailure.or
      (((c.faults .remainingBalance).map fun f => f.2.error).or (c.raises .response)))

/-- What the handlers of the settlement raise for `e`. -/
def billingError (e : Error) : Error :=
  match e with
  | .insufficientCredits _ _ => insufficientCreditsDetail
  | .insufficientBalance _ _ => insufficientCreditsDetail
  | e => e

/-- What they make of an error that comes after the commit. -/
def afterSettled (e : Error) : Error :=
  if e.isException then handledError (c.faults .release) e (billingError e) else e

/-- What a request that has settled its reservation ends with. -/
def failureAfter (d : Db) (log : UsageLog) : Option Error :=
  ((c.usageFailure d log).map c.afterSettled).or c.completionFailure

/-- The settlement of an open reservation is guarded: its handlers release after an error of the
settlement, and after one that comes later they find it settled. -/
def SettlementGuarded (r : Reservation) (d : Db) (charge : Charge) (log : UsageLog) : Prop :=
  SettleGuarded (c.faults .settle) c.ctx r charge.settleRequest (c.Releases r d)
    (fun d' => c.failureAfter d' log) d

def charge (a : Answer) (d : Db) : Charge := a.charge (a.usage c.invocation.estimated) d c.ctx.now

def logOf (a : Answer) (d : Db) : UsageLog :=
  c.usageLog a (a.usage c.invocation.estimated) (c.charge a d)

/-- From the reservation to the end, no error comes from a place where nothing releases the
reservation. -/
def ExitsGuarded (r : Reservation) (d : Db) : Prop :=
  c.raises .retrieval = none ∧
    match c.raises .providerCall with
    | some e => c.Releases r d e
    | none =>
        match c.invocation.answer with
        | none => ReleaseCommits (c.faults .release) r d
        | some a =>
            c.raises .toolLoop = none ∧ c.raises .actions = none ∧ c.raises .guardrails = none ∧
              c.raises .usage = none ∧ c.faults .pricing = none ∧
              c.SettlementGuarded r d (c.charge a d) (c.logOf a d)

/-- From the wallet to the estimate that is reserved. -/
def checks : Sql ℤ := do
  stage (c.raises .authorisation)
  let wallet ← attempt (c.faults .getWallet) (getWallet {} c.ctx c.userId)
  if wallet.status ≠ .active then .raise insufficientCreditsDetail
  else do
    stage (c.raises .validation)
    let estimated ← attempt (c.faults .estimate) (query .select c.estimatedCost)
    stage (c.raises .runtimeBudget)
    if 0 < estimated then
      if wallet.balance < estimated then .raise insufficientCreditsDetail
      else do
        let allowed ← attempt (c.faults .checkBudget) (checkBudget c.userId estimated)
        if allowed then pure estimated
        else .raise (.httpException 402 "Budget limit reached")
    else pure estimated

/-- The reservation of the estimate, if that is not zero. -/
def reserveChecked (estimated : ℤ) : Sql (ℤ × Option Reservation) :=
  if 0 < estimated then do
    let r ← (c.reserve (toDecimal estimated)).catching onInsufficientBalance
    pure (estimated, some r)
  else pure (estimated, none)

/-- The request gets the answer `a`, and nothing is raised before its price is asked for. -/
structure Answers (a : Answer) : Prop where
  retrieval : c.raises .retrieval = none
  providerCall : c.raises .providerCall = none
  answer : c.invocation.answer = some a
  toolLoop : c.raises .toolLoop = none
  actions : c.raises .actions = none
  guardrails : c.raises .guardrails = none
  usage : c.raises .usage = none

/-- The condition under which the request leaves no reservation behind. The estimate is reserved
before the model is called, or what the answer costs afterwards if the estimate is zero. -/
def Guarded (d : Db) : Prop :=
  c.checks.Ends d fun result d' => ∀ estimated, result = .ok estimated →
    if 0 < estimated then
      ReserveGuarded (c.faults .reserve) c.ctx (c.reserveRequest (toDecimal estimated))
        c.ExitsGuarded d'
    else
      ∀ a, c.Answers a → c.faults .pricing = none → 0 < (c.charge a d').actualCost →
        ReserveGuarded (c.faults .reserve) c.ctx (c.reserveRequest (c.charge a d').actualCost)
          (fun r d'' => c.SettlementGuarded r d'' (c.charge a d') (c.logOf a d')) d'

/-- From the answer to the response. -/
def finish (estimated : ℤ) (reservation : Option Reservation) (a : Answer) : Sql InvokeResponse := do
  let usage := a.usage c.invocation.estimated
  let charge ← attempt (c.faults .pricing) (query .select (fun d => a.charge usage d c.ctx.now))
  c.settlement reservation charge (c.usageLog a usage charge)
  let wallet ← c.complete
  pure
    { requestId := c.requestId
      provider := a.provider
      model := a.model
      estimatedCost := toDecimal estimated
      actualCost := charge.actualCost
      remainingBalance := toDecimal wallet.balance
      tokensUsed := usage.inputTokens + usage.outputTokens }

end InvokeCall

theorem InvokeCall.preflight_eq (c : InvokeCall) : c.preflight = c.checks >>= c.reserveChecked := by
  unfold preflight reserveEstimate checks
  simp only [bind_assoc]
  congr 1
  funext _
  congr 1
  funext wallet
  split_ifs with hactive
  · rfl
  simp only [bind_assoc]
  congr 1
  funext _
  congr 1
  funext estimated
  congr 1
  funext _
  split_ifs with hpos hfunds
  · rfl
  · simp only [bind_assoc]
    congr 1
    funext allowed
    cases allowed with
    | false => rfl
    | true => exact (if_pos hpos).symm
  · exact (if_neg hpos).symm

theorem invoke_eq (c : InvokeCall) : invoke c = (c.checks >>= fun estimated =>
    c.reserveChecked estimated >>= fun x => c.respond x.2 >>= fun a => c.finish x.1 x.2 a) := by
  rw [← bind_assoc, ← c.preflight_eq]
  rfl

/-! ## The parts of a request -/

section Parts

variable {d₀ d : Db} {α : Type}

variable {c : InvokeCall} {r : Reservation} {w : Wallet}

theorem ends_invokeRelease (h : Standing d₀ r w d) {e : Error} (hexception : e.isException = true)
    (raised : Error) : (c.releaseAndRaise (some r) e raised : Sql α).Ends d
      (Handled d₀ r (c.Releases r d e)) := by
  rw [InvokeCall.Releases, ReleaseAnswers, and_iff_right hexception]
  exact ends_releaseAndRaise h _ _ _

/-- `except Exception: release; raise`. -/
theorem ends_onException (h : Standing d₀ r w d) (e : Error) :
    (onException (fun e => c.releaseAndRaise (some r) e e) e : Sql α).Ends d
      (Handled d₀ r (c.Releases r d e)) := ends_releaseOnException h _ e

theorem ends_settlementFailed (h : Standing d₀ r w d) (e : Error) :
    (c.settlementFailed (some r) e : Sql α).Ends d (Handled d₀ r (c.Releases r d e)) := by
  unfold InvokeCall.settlementFailed
  split
  · exact ends_invokeRelease h rfl _
  · exact ends_invokeRelease h rfl _
  · exact ends_onException h e

/-- After the settlement only the wallet is read again. -/
theorem ends_complete (hw : (d.walletByUser c.userId).isSome) :
    c.complete.Ends d fun result d' => d' = d ∧
      match c.completionFailure with
      | none => ∃ w, result = .ok w
      | some e => result = .error e := by
  obtain ⟨w, hw⟩ := Option.isSome_iff_exists.mp hw
  have hlast : ((attempt (c.faults .remainingBalance) (getWallet {} c.ctx c.userId)) >>= fun wallet =>
      (stage (c.raises .response) >>= fun _ => pure wallet : Sql Wallet)).Ends d fun result d' =>
        d' = d ∧ match (((c.faults .remainingBalance).map fun f => f.2.error).or
            (c.raises .response)) with
          | none => ∃ w, result = .ok w
          | some e => result = .error e := by
    have hget : (getWallet {} c.ctx c.userId).exec d = (.ok w, d) := by
      simp only [getWallet, query, select_bind, ret_bind, exec, hw, Option.map_some,
        IdentityMap.wallet_empty, pure_eq]
    have hafter (n : ℕ) : (getWallet {} c.ctx c.userId).after n d = d := by
      cases n with
      | zero => rfl
      | succ n =>
          simp only [getWallet, query, select_bind, ret_bind, after, hw, Option.map_some,
            IdentityMap.wallet_empty, pure_eq]
          cases n <;> rfl
    rw [ends_bind, ends_attempt_of_reads hget hafter]
    cases c.faults .remainingBalance with
    | some fault => exact ⟨rfl, rfl⟩
    | none =>
        dsimp only
        rw [ends_stage]
        cases c.raises .response with
        | none => exact ⟨rfl, w, rfl⟩
        | some e => exact ⟨rfl, rfl⟩
  have hid (commit : Commit) (n : ℕ) :
      (write (.commit commit) id : Sql Unit).after n d = d := by
    cases n with
    | zero => rfl
    | succ n => cases n <;> rfl
  unfold InvokeCall.complete InvokeCall.completionFailure
  rw [ends_stage]
  cases c.raises .event with
  | some e => exact ⟨rfl, rfl⟩
  | none =>
      rw [ends_bind, ends_catching, ends_attempt_of_reads rfl (hid .event), Option.none_or,
        InvokeCall.eventFailure]
      cases c.faults .commitEvent with
      | none => exact hlast
      | some fault =>
          obtain ⟨n, i⟩ := fault
          cases i with
          | cancelled => exact ⟨rfl, rfl⟩
          | databaseError =>
              dsimp only [Interruption.error]
              rw [onException, if_pos (by rfl), ends_attempt_of_reads rfl (hid .rollback)]
              cases c.faults .rollback with
              | none => exact hlast
              | some fault => exact ⟨rfl, rfl⟩

theorem exec_settlementFailed_of_closed {row : Reservation}
    (hrow : d.reservations.get? r.id = some row) (hclosed : row.status ≠ .reserved) (e : Error) :
    (c.settlementFailed (some r) e : Sql α).exec d = (.error (c.afterSettled e), d) := by
  have hreleases (raised : Error) :
      (Zyntry.releaseAndRaise (c.faults .release) c.ctx r e raised : Sql α).exec d =
        (.error (handledError (c.faults .release) e raised), d) :=
    exec_releaseAndRaise_of_closed hrow hclosed _ _ _
  unfold InvokeCall.settlementFailed InvokeCall.releaseAndRaise InvokeCall.afterSettled
  split
  · exact hreleases _
  · exact hreleases _
  · next hcredits hbalance =>
      have hsame : InvokeCall.billingError e = e := by
        unfold InvokeCall.billingError
        split
        · exact absurd rfl (hcredits _ _)
        · exact absurd rfl (hbalance _ _)
        · rfl
      rw [hsame, onException]
      split_ifs
      · exact hreleases _
      · rfl

/-- What follows the commit of the settlement. -/
theorem ends_afterSettled {β : Type} {row : Reservation} (hrow : d.reservations.get? r.id = some row)
    (hclosed : row.status ≠ .reserved) (hw : (d.walletByUser c.userId).isSome) (log : UsageLog)
    (respond : Wallet → β) :
    ((attempt (c.faults .recordUsage) (recordUsage (c.raises .published) log)).ignore.catching
        (c.settlementFailed (some r)) >>= fun _ => c.complete >>= fun wallet =>
          pure (respond wallet)).Ends d fun result d' =>
      d.SameMoney d' ∧ ∀ e, result = .error e ↔ c.failureAfter d log = some e := by
  rw [ends_bind, ends_catching, ends_ignore]
  apply (ends_recordUsage _ _ log).mono
  rintro result d' ⟨⟨hwallets, hreservations⟩, hfailure⟩
  have hsame : d.SameMoney d' := .of_tables hwallets hreservations
  unfold InvokeCall.failureAfter InvokeCall.usageFailure
  cases husage : recordFailure (c.faults .recordUsage) (c.raises .published) d log with
  | none =>
      rw [husage] at hfailure
      obtain ⟨l, rfl⟩ := hfailure
      dsimp only
      rw [ends_bind, Option.map_none, Option.none_or]
      have hw' : (d'.walletByUser c.userId).isSome := by
        rw [Db.walletByUser, hwallets]
        exact hw
      apply (ends_complete hw').mono
      rintro result d'' ⟨rfl, hcompletion⟩
      cases hcomplete : c.completionFailure with
      | none =>
          rw [hcomplete] at hcompletion
          obtain ⟨w, rfl⟩ := hcompletion
          exact ⟨hsame, fun e => by simp⟩
      | some e =>
          rw [hcomplete] at hcompletion
          obtain rfl := hcompletion
          exact ⟨hsame, fun e' => by simp⟩
  | some e =>
      rw [husage] at hfailure
      obtain rfl := hfailure
      dsimp only
      rw [Ends, exec_settlementFailed_of_closed (hreservations ▸ hrow) hclosed]
      exact ⟨hsame, fun e' => by simp⟩

theorem isException_afterSettled (i : Interruption) :
    (c.afterSettled i.error).isException = false ↔ i = .cancelled := by
  cases i with
  | databaseError => simp [InvokeCall.afterSettled, handledError, Interruption.error,
      Error.isException, Error.endsTransaction]
  | cancelled => simp [InvokeCall.afterSettled, Interruption.error, Error.isException]

/-- From the settlement of an open reservation to the end of the request. -/
theorem ends_settlement {β : Type} (h : Standing d₀ r w d) (huser : r.userId = c.userId)
    (charge : Charge) (log : UsageLog) (respond : Wallet → β) :
    ((c.settleActual (some r) charge >>= fun _ =>
      (attempt (c.faults .recordUsage) (recordUsage (c.raises .published) log)).ignore).catching
        (c.settlementFailed (some r)) >>= fun _ => c.complete >>= fun wallet =>
          pure (respond wallet)).Ends d fun result d' =>
      (Finalised d₀ result d' ↔ c.SettlementGuarded r d charge log) := by
  have hignored : c.settleActual (some r) charge =
      (attempt (c.faults .settle) (settle {} c.ctx r.id charge.settleRequest) >>= fun _ => pure ()) :=
    rfl
  rw [hignored, bind_assoc]
  apply ends_settle h
  · exact ends_settlementFailed h
  · exact not_releaseAnswers _
  · intro i d' row hrow hclosed
    exact ⟨_, exec_settlementFailed_of_closed hrow hclosed i.error, isException_afterSettled i⟩
  · intro _ row d' hrow hclosed hwallet
    exact ends_afterSettled hrow hclosed (huser ▸ hwallet) log respond

theorem exec_price (a : Answer) (d : Db) : (query .select
    fun d => a.charge (a.usage c.invocation.estimated) d c.ctx.now : Sql Charge).exec d =
      (.ok (c.charge a d), d) := rfl

theorem after_price (a : Answer) (d : Db) (n : ℕ) : (query .select
    fun d => a.charge (a.usage c.invocation.estimated) d c.ctx.now : Sql Charge).after n d = d := by
  cases n with
  | zero => rfl
  | succ n => cases n <;> rfl

/-- From the answer to the end of a request with an open reservation. -/
theorem ends_finish (h : Standing d₀ r w d) (huser : r.userId = c.userId) (estimated : ℤ)
    (a : Answer) :
    (c.finish estimated (some r) a).Ends d fun result d' => (Finalised d₀ result d' ↔
      c.faults .pricing = none ∧ c.SettlementGuarded r d (c.charge a d) (c.logOf a d)) := by
  unfold InvokeCall.finish
  rw [ends_bind, ends_attempt_of_reads (exec_price a d) (after_price a d)]
  cases c.faults .pricing with
  | some fault => exact iff_of_false (not_finalised_of_standing h) (by simp)
  | none =>
      rw [and_iff_right rfl]
      exact ends_settlement h huser (c.charge a d) (c.logOf a d) _

/-- From an open reservation to the end of the request. -/
theorem ends_respond (h : Standing d₀ r w d) (huser : r.userId = c.userId) (estimated : ℤ) :
    (c.respond (some r) >>= fun a => c.finish estimated (some r) a).Ends d fun result d' =>
      (Finalised d₀ result d' ↔ c.ExitsGuarded r d) := by
  have hopen {result : Except Error InvokeResponse} {guarded : Prop} (hunguarded : ¬guarded) :
      Finalised d₀ result d ↔ guarded := iff_of_false (not_finalised_of_standing h) hunguarded
  unfold InvokeCall.respond InvokeCall.ExitsGuarded
  rw [bind_assoc, ends_stage]
  cases c.raises .retrieval with
  | some e => exact hopen (by simp)
  | none =>
      dsimp only
      rw [and_iff_right rfl, bind_assoc]
      cases c.raises .providerCall with
      | some e => exact ends_of_handled (ends_onException h e)
      | none =>
          change ((match c.invocation.answer with
            | none => _
            | some a => _ : Sql Answer) >>= _).Ends d _
          cases c.invocation.answer with
          | none =>
              have hreleases : c.Releases r d (.httpException 502 "All configured providers failed")
                  ↔ ReleaseCommits (c.faults .release) r d := by
                simp [InvokeCall.Releases, ReleaseAnswers, Error.isException, Error.endsTransaction]
              dsimp only
              rw [← hreleases]
              exact ends_of_handled (ends_invokeRelease h rfl _)
          | some a =>
              dsimp only
              rw [bind_assoc, ends_stage]
              cases c.raises .toolLoop with
              | some e => exact hopen (by simp)
              | none =>
              dsimp only
              rw [bind_assoc, ends_stage]
              cases c.raises .actions with
              | some e => exact hopen (by simp)
              | none =>
              dsimp only
              rw [bind_assoc, ends_stage]
              cases c.raises .guardrails with
              | some e => exact hopen (by simp)
              | none =>
              dsimp only
              rw [bind_assoc, ends_stage]
              cases c.raises .usage with
              | some e => exact hopen (by simp)
              | none =>
              simp only [true_and]
              exact ends_finish h huser estimated a

end Parts

/-! ## Requests that make no further reservation -/

section AddsNone

variable {α : Type} {c : InvokeCall} {r : Reservation}

theorem addsNone_invokeRelease (reservation : Option Reservation) (cause raised : Error) :
    AddsNone (c.releaseAndRaise reservation cause raised : Sql α) := by
  cases reservation with
  | none => exact writes_raise _
  | some r => exact addsNone_releaseAndRaise _ _ _ _

theorem addsNone_respond (reservation : Option Reservation) :
    AddsNone (c.respond reservation) := by
  apply Writes.bind (addsNone_stage _)
  intro _
  apply Writes.bind
  · exact Writes.catching (addsNone_stage _) fun e =>
      AddsNone.onException (addsNone_invokeRelease _ _ _)
  · intro _
    change (match c.invocation.answer with
      | none => _
      | some a => _ : Sql Answer).Writes _
    cases c.invocation.answer with
    | none => exact addsNone_invokeRelease _ _ _
    | some a =>
        apply Writes.bind (addsNone_stage _)
        intro _
        apply Writes.bind (addsNone_stage _)
        intro _
        apply Writes.bind (addsNone_stage _)
        intro _
        exact Writes.bind (addsNone_stage _) fun _ => writes_ret _

theorem addsNone_settlementFailed (reservation : Option Reservation) (e : Error) :
    AddsNone (c.settlementFailed reservation e : Sql α) := by
  unfold InvokeCall.settlementFailed
  split
  · exact addsNone_invokeRelease _ _ _
  · exact addsNone_invokeRelease _ _ _
  · exact AddsNone.onException (addsNone_invokeRelease _ _ _)

theorem addsNone_complete : AddsNone c.complete := by
  have hcommit (commit : Commit) : AddsNone (write (.commit commit) id) :=
    writes_write.mpr Db.SameReservations.refl
  apply Writes.bind (addsNone_stage _)
  intro _
  apply Writes.bind
  · exact Writes.catching ((hcommit .event).attempt _) fun e =>
      AddsNone.onException ((hcommit .rollback).attempt _)
  · intro _
    apply Writes.bind ((addsNone_getWallet _).attempt _)
    intro wallet
    exact Writes.bind (addsNone_stage _) fun _ => writes_ret _

theorem addsNone_settleActual (reservation : Option Reservation) (charge : Charge) :
    AddsNone (c.settleActual reservation charge) := by
  cases reservation with
  | none => exact writes_ret _
  | some r => exact Writes.bind ((addsNone_settle r.id _).attempt _) fun _ => writes_ret _

/-- The settlement and what follows. -/
theorem addsNone_settled {β : Type} (reservation : Option Reservation) (charge : Charge)
    (log : UsageLog) (respond : Wallet → β) : AddsNone
      ((c.settleActual reservation charge >>= fun _ =>
        (attempt (c.faults .recordUsage) (recordUsage (c.raises .published) log)).ignore).catching
          (c.settlementFailed reservation) >>= fun _ => c.complete >>= fun wallet =>
            pure (respond wallet)) := by
  apply Writes.bind
  · apply Writes.catching
    · apply Writes.bind (addsNone_settleActual _ _)
      · intro _
        exact Writes.bind ((addsNone_recordUsage _ _).attempt _) fun _ => writes_ret _
    · exact addsNone_settlementFailed _
  · intro _
    exact Writes.bind addsNone_complete fun _ => writes_ret _

theorem addsNone_finish (estimated : ℤ) (a : Answer) :
    AddsNone (c.finish estimated (some r) a) := by
  apply Writes.bind (AddsNone.attempt (writes_query _ _) _)
  intro charge
  exact addsNone_settled (some r) charge _ _

end AddsNone

/-! ## The whole request -/

section

variable {d₀ d : Db} {c : InvokeCall}

theorem sameMoney_addWallet {userId : Uuid} {ctx : CallContext}
    (hfree : d.wallets.get? ctx.newWalletId = none) :
    d.SameMoney (d.addWallet (firstWallet ctx userId)) := by
  refine ⟨rfl, fun id => ?_⟩
  unfold Db.spentOf
  by_cases hid : id = (firstWallet ctx userId).id
  · have hnew : (d.wallets.insert (firstWallet ctx userId)).get? (firstWallet ctx userId).id =
        some (firstWallet ctx userId) := RowTable.get?_insert_self hfree
    have hold : d.wallets.get? (firstWallet ctx userId).id = none := hfree
    change (((d.wallets.insert (firstWallet ctx userId)).get? id).map Wallet.totalSpent).getD 0 = _
    rw [hid, hnew, hold]
    rfl
  · change (((d.wallets.insert (firstWallet ctx userId)).get? id).map Wallet.totalSpent).getD 0 = _
    rw [RowTable.get?_insert_of_ne _ hid]

theorem keeps_getWallet_sameMoney (ctx : CallContext) (userId : Uuid) :
    (getWallet {} ctx userId).Keeps d.SameMoney d fun _ => d.SameMoney := by
  apply keeps_getWallet (.refl d)
  · exact fun _ _ => .refl d
  · exact fun _ hfree => ⟨sameMoney_addWallet hfree, sameMoney_addWallet hfree⟩

theorem keeps_checkBudget_sameMoney {d' : Db} (h : d.SameMoney d') (userId : Uuid) (amount : ℤ) :
    (checkBudget userId amount).Keeps d.SameMoney d' fun _ => d.SameMoney :=
  keeps_checkBudget h fun _ _ _ h' => h'.trans (.of_tables rfl rfl)

/-- Nothing is reserved or spent before the reservation. -/
theorem ends_checks (c : InvokeCall) (d : Db) : c.checks.Ends d fun _ d' => d.SameMoney d' := by
  have hkeeps : c.checks.Keeps d.SameMoney d fun _ => d.SameMoney := by
    simp only [InvokeCall.checks, keeps_bind, keeps_stage]
    refine fun _ => keeps_attempt ((keeps_getWallet_sameMoney c.ctx c.userId).mono ?_)
    intro wallet d' hsame
    split_ifs
    · trivial
    simp only [keeps_bind, keeps_stage]
    refine fun _ => keeps_attempt ((keeps_query _ _ _ _ _).mpr fun _ => ?_)
    split_ifs
    · trivial
    · rw [keeps_bind]
      refine keeps_attempt ((keeps_checkBudget_sameMoney hsame _ _).mono ?_)
      intro allowed d'' hsame'
      cases allowed with
      | false => trivial
      | true => exact hsame'
    · exact hsame
  exact (hkeeps.ends (.refl d)).mono fun _ _ h => h.1

theorem AddsNone.noneStranded {α : Type} {p : Sql α} (h : AddsNone p) (hsame : d₀.SameMoney d) :
    p.Ends d (NoneStranded d₀) := by
  apply (h.ends d).mono
  intro result d' hkept hmade
  exact absurd (hkept.madeSince_eq_nil_iff.mpr hsame.madeSince_eq_nil) hmade

theorem onInsufficientBalance_eq {α : Type} : (InvokeCall.onInsufficientBalance : Error → Sql α) =
    fun e => .raise (match e with
      | .insufficientBalance _ _ => insufficientCreditsDetail
      | e => e) := by
  funext e
  cases e <;> rfl

theorem settlementFailed_none {α : Type} : (c.settlementFailed none : Error → Sql α) =
    fun e => .raise (InvokeCall.billingError e) := by
  funext e
  unfold InvokeCall.settlementFailed InvokeCall.billingError onException
  cases e <;> simp [InvokeCall.releaseAndRaise]

theorem keeps_respond_none (c : InvokeCall) (d : Db) :
    (c.respond none).Keeps (fun d' => d' = d) d fun a d' => d' = d ∧ c.Answers a := by
  simp only [InvokeCall.respond, keeps_bind, keeps_stage]
  intro hretrieval
  refine keeps_catching (rfl : d = d) (keeps_stage.mpr fun hcall => ?_) ?_
  · cases hanswer : c.invocation.answer with
    | none => trivial
    | some a =>
        simp only [keeps_bind, keeps_stage, pure_eq, keeps_ret]
        intro htoolLoop hactions hguardrails husage
        exact ⟨trivial, hretrieval, hcall, hanswer, htoolLoop, hactions, hguardrails, husage⟩
  · intro e d' _
    exact keeps_onException trivial

theorem exec_respond_none {a : Answer} (h : c.Answers a) (d : Db) :
    (c.respond none).exec d = (.ok a, d) := by
  simp [InvokeCall.respond, h.retrieval, h.providerCall, h.answer, h.toolLoop, h.actions,
    h.guardrails, h.usage, stage]

/-- Without a reservation, a request raises an error or gets its answer. -/
theorem ends_respond_none {β : Type} {k : Answer → Sql β} {post : Except Error β → Db → Prop}
    {next : Answer → Prop} (hraised : ∀ e, post (.error e) d)
    (hreturned : ∀ a, (k a).Ends d post ↔ next a) :
    (c.respond none >>= k).Ends d post ↔ ∀ a, c.Answers a → next a := by
  obtain ⟨hstate, hanswers⟩ := (keeps_respond_none c d).ends rfl
  rw [ends_bind, Ends]
  rcases hexec : (c.respond none).exec d with ⟨e | a, d'⟩
  · rw [hexec] at hstate
    obtain rfl := hstate
    refine iff_of_true (hraised e) fun a ha => ?_
    rw [exec_respond_none ha] at hexec
    cases hexec
  · rw [hexec] at hstate hanswers
    obtain rfl := hstate
    obtain ⟨-, ha⟩ := hanswers a rfl
    refine (hreturned a).trans ⟨fun hnext a' ha' => ?_, fun hnext => hnext a ha⟩
    obtain rfl : a = a' := Option.some.inj (ha.answer.symm.trans ha'.answer)
    exact hnext

/-- From the answer to the end of a request that has made no reservation. -/
theorem ends_finish_none (h : d₀.SameMoney d) (estimated : ℤ) (a : Answer) :
    (c.finish estimated none a).Ends d (NoneStranded d₀) ↔
      (c.faults .pricing = none → 0 < (c.charge a d).actualCost →
        ReserveGuarded (c.faults .reserve) c.ctx (c.reserveRequest (c.charge a d).actualCost)
          (fun r d' => c.SettlementGuarded r d' (c.charge a d) (c.logOf a d)) d) := by
  unfold InvokeCall.finish
  rw [ends_bind, ends_attempt_of_reads (exec_price a d) (after_price a d)]
  cases c.faults .pricing with
  | some f => exact iff_of_true (h.noneStranded _) (by simp)
  | none =>
  rw [forall_prop_of_true rfl]
  change (((c.reserveActual none (c.charge a d).actualCost).catching (c.settlementFailed none) >>=
    fun reservation => _) >>= _ : Sql InvokeResponse).Ends d _ ↔ _
  unfold InvokeCall.reserveActual
  dsimp only
  split_ifs with hpos
  · rw [forall_prop_of_true hpos, settlementFailed_none, InvokeCall.reserve, catching_bind_pure,
      bind_assoc, bind_assoc]
    apply ends_reserve h
    · exact fun r => addsNone_settled (some r) (c.charge a d) (c.logOf a d) _
    · exact fun r w d' hstanding huser =>
        ends_settlement hstanding huser (c.charge a d) (c.logOf a d) _
  · refine iff_of_true ?_ fun h => absurd h hpos
    exact (addsNone_settled none (c.charge a d) (c.logOf a d) _).noneStranded h

/-- `invoke` leaves no reservation behind exactly if it is guarded. -/
theorem invoke_noneStranded_iff (c : InvokeCall) (d : Db) :
    (invoke c).Ends d (NoneStranded d) ↔ c.Guarded d := by
  rw [invoke_eq]
  apply ends_bind_iff (ends_checks c d)
  · exact fun _ _ hsame => hsame.noneStranded _
  intro estimated d' hsame
  unfold InvokeCall.reserveChecked
  split_ifs with hpos
  · rw [bind_assoc, onInsufficientBalance_eq]
    apply ends_reserve hsame
    · intro r
      change AddsNone (c.respond (some r) >>= fun a => c.finish estimated (some r) a)
      exact Writes.bind (addsNone_respond _) fun a => addsNone_finish _ _
    · exact fun r w d' hstanding huser => ends_respond hstanding huser _
  · exact ends_respond_none (fun _ => hsame.noneStranded _) (ends_finish_none hsame _)

end

end Zyntry
