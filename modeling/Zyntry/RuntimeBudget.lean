import Zyntry.CallCosts
import Zyntry.InvokeSpecs

/-!
# The budget of a runtime

The draft of an invocation and each synthesis step after it are checked against the
usage that is on record. The calls an invocation has already made are not on record,
so each check sees the whole budget again. What holds is that the record stays
within the budget as long as the estimates of an invocation fit together.
-/

namespace Zyntry

open SqlProgram

/-! ## The check -/

/-- A policy as `normalize_budget_policy` returns it; without a raw policy it is
disabled. -/
structure BudgetPolicy where
  enabled : Bool := false
  maxRequestUsd : Option Decimal := none
  monthlyLimitUsd : Option Decimal := none
  requestsPerMinute : Option ℕ := none

inductive BudgetCode where
  | requestBudgetExceeded
  | requestRateLimitExceeded
  | monthlyBudgetExceeded
deriving DecidableEq, Repr

def BudgetCode.value : BudgetCode → String
  | .requestBudgetExceeded => "request_budget_exceeded"
  | .requestRateLimitExceeded => "request_rate_limit_exceeded"
  | .monthlyBudgetExceeded => "monthly_budget_exceeded"

def BudgetCode.error (code : BudgetCode) : Error :=
  .httpException (if code = .requestRateLimitExceeded then 429 else 402) code.value

def Db.runtimeLogs (d : Db) (runtimeId : Uuid) (start : ℕ) : List UsageLog :=
  d.usageLogs.filter (fun l => l.scope.runtimeId = some runtimeId ∧ start ≤ l.createdAt)

def Db.runtimeCost (d : Db) (runtimeId : Uuid) (start : ℕ) : ℤ :=
  ((d.runtimeLogs runtimeId start).map UsageLog.cost).sum

def Db.runtimeRequests (d : Db) (runtimeId : Uuid) (start : ℕ) : ℕ :=
  ((d.runtimeLogs runtimeId start).map UsageLog.requests).sum

def microsecondsPerMinute : ℕ := 60000000

/-- `check_runtime_budget`; `none` allows the call. -/
def checkRuntimeBudget (d : Db) (runtimeId : Uuid) (policy : BudgetPolicy) (estimatedCost : ℤ)
    (now : ℕ) : Option BudgetCode :=
  if policy.enabled = false then none
  else if ∃ limit ∈ policy.maxRequestUsd, limit < toDecimal estimatedCost then
    some .requestBudgetExceeded
  else if ∃ limit ∈ policy.requestsPerMinute,
      limit ≤ d.runtimeRequests runtimeId (now - microsecondsPerMinute) then
    some .requestRateLimitExceeded
  else if ∃ limit ∈ policy.monthlyLimitUsd,
      limit < toDecimal (d.runtimeCost runtimeId (periodStart .monthly now) + estimatedCost) then
    some .monthlyBudgetExceeded
  else none

theorem checkRuntimeBudget_eq_none_iff {d : Db} {runtimeId : Uuid} {policy : BudgetPolicy}
    {estimatedCost : ℤ} {now : ℕ} (henabled : policy.enabled = true) :
    checkRuntimeBudget d runtimeId policy estimatedCost now = none ↔
      (∀ limit ∈ policy.maxRequestUsd, toDecimal estimatedCost ≤ limit) ∧
      (∀ limit ∈ policy.requestsPerMinute,
        d.runtimeRequests runtimeId (now - microsecondsPerMinute) < limit) ∧
      ∀ limit ∈ policy.monthlyLimitUsd,
        toDecimal (d.runtimeCost runtimeId (periodStart .monthly now) + estimatedCost) ≤ limit := by
  unfold checkRuntimeBudget
  rw [if_neg (by simp [henabled])]
  split_ifs with h₁ h₂ h₃
  · obtain ⟨limit, hlimit, hlt⟩ := h₁
    simpa using fun h _ => absurd (h limit hlimit) (not_le.mpr hlt)
  · obtain ⟨limit, hlimit, hle⟩ := h₂
    simpa using fun _ h => absurd (h limit hlimit) (not_lt.mpr hle)
  · obtain ⟨limit, hlimit, hlt⟩ := h₃
    simpa using fun _ _ => ⟨limit, hlimit, hlt⟩
  · simp only [not_exists, not_and, not_lt, not_le] at h₁ h₂ h₃
    simp only [true_iff]
    exact ⟨h₁, h₂, h₃⟩

/-! ## Invocations of a runtime -/

/-- A tool round whose synthesis step is still to be checked. -/
structure RuntimeRound where
  estimatedInputTokens : ℕ
  reservedOutput : ℕ
  respond : ℕ → CallOutcome

def RuntimeRound.estimate (r : RuntimeRound) (d : Db) (c : Candidate) (now : ℕ) : ℤ :=
  (d.calculate c.provider.value (some c.model.value)
    { inputTokens := r.estimatedInputTokens
      outputTokens := r.reservedOutput
      requests := 1 } now).amount

/-- A call of `invoke` before its budget checks. -/
structure RuntimeCall where
  call : InvokeCall
  rounds : List RuntimeRound

namespace RuntimeCall

def check (c : RuntimeCall) (policies : Uuid → BudgetPolicy) (d : Db) (estimatedCost : ℤ) :
    Option BudgetCode :=
  match c.call.scope.runtimeId with
  | none => none
  | some runtimeId => checkRuntimeBudget d runtimeId (policies runtimeId) estimatedCost c.call.ctx.now

def estimatedCost (c : RuntimeCall) (d : Db) : ℤ := c.call.estimatedCost d

/-- The candidate that answers the draft; the synthesis steps call it again. -/
def answered (c : RuntimeCall) : Option Candidate := c.call.invocation.firstCall.2.answered

def followupEstimates (c : RuntimeCall) (d : Db) (x : Candidate) : List ℤ :=
  c.rounds.map (fun r => r.estimate d x c.call.ctx.now)

def checkedRounds (c : RuntimeCall) (policies : Uuid → BudgetPolicy) (d : Db) : List Round :=
  c.rounds.map (fun r =>
    { allowed := (c.answered.bind (fun x =>
        c.check policies d (r.estimate d x c.call.ctx.now))).isNone
      respond := r.respond })

/-- The call with the outcome of its checks. Until an invocation records its usage
nothing that the checks read is written, so all of them see the state it begins in. -/
def checked (c : RuntimeCall) (policies : Uuid → BudgetPolicy) (d : Db) : InvokeCall :=
  { c.call with
    invocation := { c.call.invocation with rounds := c.checkedRounds policies d }
    raises := fun s =>
      if s = .runtimeBudget then
        ((c.check policies d (c.estimatedCost d)).map BudgetCode.error).or (c.call.raises s)
      else c.call.raises s }

end RuntimeCall

def invokeRuntime (policies : Uuid → BudgetPolicy) (c : RuntimeCall) : Sql InvokeResponse := do
  let call ← query .select (c.checked policies)
  invoke call

/-! ## Costs and estimates -/

namespace RuntimeCall

variable (c : RuntimeCall) (policies : Uuid → BudgetPolicy) (d : Db)

def draftCalls : List Attempt := callsTried c.call.invocation.respond 0 c.call.invocation.candidates

/-- The calls of the synthesis steps, each with the estimate that was approved for it. -/
def approvedFollowups (x : Candidate) : List (Attempt × ℤ) :=
  (followups (c.call.invocation.registered x) (c.checkedRounds policies d)).zip
    (c.followupEstimates d x)

/-- All the estimates that are approved in one invocation. -/
def approvedTotal (x : Candidate) : ℤ :=
  c.estimatedCost d + ((c.approvedFollowups policies d x).map Prod.snd).sum

/-- Every model call costs at most the estimate that was approved for it. -/
def CallsCovered : Prop :=
  ∀ x ∈ c.answered, ∀ a ∈ (c.checked policies d).invocation.answer,
    (∀ y ∈ c.draftCalls, ∀ u ∈ y.usage,
      a.cost d c.call.ctx.now u ≤ toDecimal (c.estimatedCost d)) ∧
    ∀ p ∈ c.approvedFollowups policies d x, ∀ u ∈ p.1.usage,
      a.cost d c.call.ctx.now u ≤ toDecimal p.2

/-- The approved estimates fit under both limits together. -/
def EstimatesFit (maxRequestUsd monthlyLimitUsd : Decimal) (runtimeId : Uuid) : Prop :=
  c.check policies d (c.estimatedCost d) = none → ∀ x ∈ c.answered,
    toDecimal (c.approvedTotal policies d x) ≤ maxRequestUsd ∧
    toDecimal (d.runtimeCost runtimeId (periodStart .monthly c.call.ctx.now) +
      c.approvedTotal policies d x) ≤ monthlyLimitUsd

instance : Decidable (c.CallsCovered policies d) := by
  unfold CallsCovered
  infer_instance

instance (maxRequestUsd monthlyLimitUsd : Decimal) (runtimeId : Uuid) :
    Decidable (c.EstimatesFit policies d maxRequestUsd monthlyLimitUsd runtimeId) := by
  unfold EstimatesFit
  infer_instance

end RuntimeCall

/-! ## What an invocation records -/

/-- From `d` to `d'` the call has recorded nothing, or the charge of its answer. -/
def InvokeCall.Recorded (c : InvokeCall) (d d' : Db) : Prop :=
  d'.pricingRules = d.pricingRules ∧ (d'.usageLogs = d.usageLogs ∨
    c.raises .runtimeBudget = none ∧ ∃ a, c.invocation.answer = some a ∧
      let usage := a.usage c.invocation.estimated
      d'.usageLogs = d.usageLogs ++ [c.usageLog a usage (a.charge usage d c.ctx.now)])

/-- Nothing that a budget check reads differs between `d` and `d'`. -/
def Unrecorded (d d' : Db) : Prop := d'.usageLogs = d.usageLogs ∧ d'.pricingRules = d.pricingRules

theorem unrecorded_closed (d : Db) : MeteredClosed (Unrecorded d) :=
  MeteredClosed.ofUsage fun logs rules => logs = d.usageLogs ∧ rules = d.pricingRules

theorem recorded_closed (c : InvokeCall) (d : Db) : MeteredClosed (c.Recorded d) :=
  MeteredClosed.ofUsage fun logs rules => rules = d.pricingRules ∧ (logs = d.usageLogs ∨
    c.raises .runtimeBudget = none ∧ ∃ a, c.invocation.answer = some a ∧
      logs = d.usageLogs ++ [c.usageLog a (a.usage c.invocation.estimated)
        (a.charge (a.usage c.invocation.estimated) d c.ctx.now)])

theorem Unrecorded.recorded {d d' : Db} (h : Unrecorded d d') (c : InvokeCall) : c.Recorded d d' :=
  ⟨h.2, .inl h.1⟩

theorem keeps_settlement_recorded {c : InvokeCall} {d d₁ : Db} {a : Answer}
    (reservation : Option Reservation) (hallowed : c.raises .runtimeBudget = none)
    (ha : c.invocation.answer = some a) (hd : Unrecorded d d₁) :
    let charge := a.charge (a.usage c.invocation.estimated) d₁ c.ctx.now
    (c.settlement reservation charge (c.usageLog a (a.usage c.invocation.estimated) charge)).Keeps
      (c.Recorded d) d₁ (fun _ => c.Recorded d) := by
  intro charge
  have hclosed := recorded_closed c d
  have hquiet := unrecorded_closed d
  unfold InvokeCall.settlement
  rw [keeps_bind]
  refine keeps_catching (hd.recorded c) ?_ fun e d' hd' => hclosed.keeps_settlementFailed hd'
  refine ((hquiet.keeps_reserveActual c reservation _ hd).weaken fun _ h => h.recorded c).mono ?_
  intro held d₂ hd₂
  refine keeps_catching (hd₂.recorded c) ?_ fun e d' hd' => hclosed.keeps_settlementFailed hd'
  rw [keeps_bind]
  refine ((hquiet.keeps_settleActual c held charge hd₂).weaken fun _ h => h.recorded c).mono ?_
  intro _ d₃ hd₃
  have hnew : c.Recorded d
      { d₃ with usageLogs := d₃.usageLogs ++ [c.usageLog a (a.usage c.invocation.estimated) charge] } := by
    refine ⟨hd₃.2, .inr ⟨hallowed, a, ha, ?_⟩⟩
    simp only [hd₃.1, charge, charge_congr hd.2]
  refine keeps_ignore.mpr (keeps_attempt ((keeps_recordUsage hnew).mono ?_))
  rintro _ _ (rfl | rfl)
  · exact hd₃.recorded c
  · exact hnew

theorem keeps_invoke_recorded (c : InvokeCall) (d : Db) :
    (invoke c).Keeps (c.Recorded d) d (fun _ => c.Recorded d) := by
  have hquiet := unrecorded_closed d
  unfold invoke
  rw [keeps_bind]
  refine ((hquiet.keeps_preflight c ⟨rfl, rfl⟩).weaken fun _ h => h.recorded c).mono ?_
  rintro ⟨estimated, reservation⟩ d₁ ⟨hd₁, hallowed⟩
  rw [keeps_bind]
  refine ((hquiet.keeps_respond c reservation hd₁).weaken fun _ h => h.recorded c).mono ?_
  rintro a _ ⟨rfl, ha⟩
  rw [keeps_bind]
  refine keeps_attempt ((keeps_query _ _ _ _ _).mpr ?_)
  rw [keeps_bind]
  refine (keeps_settlement_recorded reservation hallowed ha hd₁).mono ?_
  intro _ d₂ hd₂
  rw [keeps_bind]
  exact ((recorded_closed c d).keeps_complete c hd₂).mono fun _ _ h => h

/-! ## The charge and the estimates -/

/-- One pass over the candidates completes at most one call. -/
theorem usages_callsTried (respond : ℕ → CallOutcome) (n : ℕ) (cs : List Candidate) :
    ((callsTried respond n cs).filterMap Attempt.usage).length ≤ 1 := by
  induction cs generalizing n with
  | nil => simp [callsTried]
  | cons c cs ih =>
      unfold callsTried
      cases ho : respond n with
      | completed text usage => simp [Attempt.usage]
      | failed recorded streamed error =>
          cases streamed with
          | true => exact Nat.zero_le 1
          | false => exact ih (n + 1)

theorem length_followups_le (c : Candidate) (rounds : List Round) :
    (followups c rounds).length ≤ rounds.length := by
  induction rounds with
  | nil => exact le_rfl
  | cons round rounds ih =>
      unfold followups
      split_ifs
      · simp
      · simpa using ih
      · exact Nat.zero_le _

theorem sum_usages_le {cost : CompletionUsage → Decimal} {E : ℤ} {calls : List Attempt}
    (hcalls : (calls.filterMap Attempt.usage).length ≤ 1) (hE : 0 ≤ E)
    (h : ∀ y ∈ calls, ∀ u ∈ y.usage, cost u ≤ toDecimal E) :
    ((calls.filterMap Attempt.usage).map cost).sum ≤ toDecimal E := by
  cases husages : calls.filterMap Attempt.usage with
  | nil => simpa using toDecimal_nonneg hE
  | cons u us =>
      have hus : us = [] := by
        rw [husages] at hcalls
        exact List.length_eq_zero_iff.mp (by simpa using hcalls)
      obtain ⟨y, hy, hu⟩ := List.mem_filterMap.mp (husages ▸ List.mem_cons_self : u ∈ _)
      simpa [hus] using h y hy u hu

theorem sum_usages_le_estimates {cost : CompletionUsage → Decimal} {pairs : List (Attempt × ℤ)}
    (hestimates : ∀ p ∈ pairs, 0 ≤ p.2)
    (h : ∀ p ∈ pairs, ∀ u ∈ p.1.usage, cost u ≤ toDecimal p.2) :
    (((pairs.map Prod.fst).filterMap Attempt.usage).map cost).sum ≤
      toDecimal (pairs.map Prod.snd).sum := by
  induction pairs with
  | nil => simp [toDecimal]
  | cons p pairs ih =>
      obtain ⟨hp, hpairs⟩ := List.forall_mem_cons.mp h
      obtain ⟨hnonneg, hestimates⟩ := List.forall_mem_cons.mp hestimates
      have hrest := ih hestimates hpairs
      rw [List.map_cons, List.filterMap_cons, List.map_cons, List.sum_cons, toDecimal_add]
      cases hu : p.1.usage with
      | none => exact hrest.trans (le_add_of_nonneg_left (toDecimal_nonneg hnonneg))
      | some u => simpa using add_le_add (hp u hu) hrest

/-- The charge of an invocation is at most the sum of its approved estimates. -/
theorem charge_le_approvedTotal {c : RuntimeCall} {policies : Uuid → BudgetPolicy} {d : Db}
    {x : Candidate} {a : Answer} (hsound : d.SoundPrices) (hx : x ∈ c.answered)
    (ha : (c.checked policies d).invocation.answer = some a) (hcovered : c.CallsCovered policies d) :
    (a.charge (a.usage (c.checked policies d).invocation.estimated) d c.call.ctx.now).actualCost ≤
      toDecimal (c.approvedTotal policies d x) := by
  obtain ⟨hdraft, hfollowups⟩ := hcovered x hx a ha
  have hnonneg : ∀ p ∈ c.approvedFollowups policies d x, 0 ≤ p.2 := by
    intro p hp
    obtain ⟨r, _, hr⟩ := List.mem_map.mp (List.of_mem_zip hp).2
    exact hr ▸ Db.calculate_nonneg hsound _ _ _ _
  have hpairs : (c.approvedFollowups policies d x).map Prod.fst =
      followups (c.call.invocation.registered x) (c.checkedRounds policies d) := by
    refine List.map_fst_zip ?_
    simpa [RuntimeCall.checkedRounds, RuntimeCall.followupEstimates] using
      length_followups_le (c.call.invocation.registered x) (c.checkedRounds policies d)
  have husages : (c.checked policies d).invocation.completedUsages x =
      c.draftCalls.filterMap Attempt.usage ++
        ((c.approvedFollowups policies d x).map Prod.fst).filterMap Attempt.usage := by
    rw [hpairs, ← List.filterMap_append]
    rfl
  have hestimate : 0 ≤ c.estimatedCost d := Db.calculate_nonneg hsound _ _ _ _
  have husage : a.usage (c.checked policies d).invocation.estimated =
      aggregate ((c.checked policies d).invocation.completedUsages x) := usage_eq_aggregate hx ha
  rw [husage]
  refine (a.cost_aggregate_le hsound c.call.ctx.now _).trans ?_
  rw [husages, List.map_append, List.sum_append, RuntimeCall.approvedTotal, toDecimal_add]
  exact add_le_add (sum_usages_le (usages_callsTried _ _ _) hestimate hdraft)
    (sum_usages_le_estimates hnonneg hfollowups)

/-! ## Runs -/

/-- Since `d₀` no invocation of the runtime has recorded more than one request may
cost, and the record of the month is within its limit. -/
structure SpendBounded (d₀ d : Db) (runtimeId : Uuid) (month : ℕ)
    (maxRequestUsd monthlyLimitUsd : Decimal) : Prop where
  requests : ∃ logs, d.usageLogs = d₀.usageLogs ++ logs ∧
    ∀ l ∈ logs, l.scope.runtimeId = some runtimeId → toDecimal l.cost ≤ maxRequestUsd
  monthly : toDecimal (d.runtimeCost runtimeId month) ≤ monthlyLimitUsd

theorem runtimeCost_append {d d' : Db} {l : UsageLog} (h : d'.usageLogs = d.usageLogs ++ [l])
    (runtimeId : Uuid) (start : ℕ) : d'.runtimeCost runtimeId start = d.runtimeCost runtimeId start +
      if l.scope.runtimeId = some runtimeId ∧ start ≤ l.createdAt then l.cost else 0 := by
  simp only [Db.runtimeCost, Db.runtimeLogs, h, List.filter_append, List.map_append,
    List.sum_append]
  by_cases hl : l.scope.runtimeId = some runtimeId ∧ start ≤ l.createdAt
  · simp [hl]
  · have hnone : [l].filter (fun l => l.scope.runtimeId = some runtimeId ∧ start ≤ l.createdAt) =
        [] := List.filter_eq_nil_iff.mpr fun l' hl' => by simpa [List.mem_singleton.mp hl'] using hl
    rw [if_neg hl, hnone]
    rfl

theorem spendBounded_append {d₀ d d' : Db} {l : UsageLog} {runtimeId : Uuid} {month : ℕ}
    {maxRequestUsd monthlyLimitUsd : Decimal}
    (h : SpendBounded d₀ d runtimeId month maxRequestUsd monthlyLimitUsd)
    (hnew : d'.usageLogs = d.usageLogs ++ [l])
    (hl : l.scope.runtimeId = some runtimeId → toDecimal l.cost ≤ maxRequestUsd ∧
      toDecimal (d.runtimeCost runtimeId month + l.cost) ≤ monthlyLimitUsd) :
    SpendBounded d₀ d' runtimeId month maxRequestUsd monthlyLimitUsd := by
  obtain ⟨⟨logs, hlogs, hrequests⟩, hmonthly⟩ := h
  refine ⟨⟨logs ++ [l], by rw [hnew, hlogs, List.append_assoc], fun l' hl' hid => ?_⟩, ?_⟩
  · rcases List.mem_append.mp hl' with hold | hlast
    · exact hrequests l' hold hid
    · rw [List.mem_singleton.mp hlast] at hid ⊢
      exact (hl hid).1
  · rw [runtimeCost_append hnew]
    split_ifs with hcounted
    · exact (hl hcounted.1).2
    · rw [add_zero]
      exact hmonthly

/-- What is asked of the calls in a run: they begin in the month, and each model call
costs at most its approved estimate. -/
def RuntimeCall.InMonth (c : RuntimeCall) (policies : Uuid → BudgetPolicy) (d : Db)
    (runtimeId : Uuid) (month : ℕ) : Prop :=
  c.call.scope.runtimeId = some runtimeId →
    periodStart .monthly c.call.ctx.now = month ∧ c.CallsCovered policies d

theorem recorded_spendBounded {c : RuntimeCall} {policies : Uuid → BudgetPolicy} {d₀ d d' : Db}
    {runtimeId : Uuid} {month : ℕ} {maxRequestUsd monthlyLimitUsd : Decimal}
    (hsound : d.SoundPrices) (h : SpendBounded d₀ d runtimeId month maxRequestUsd monthlyLimitUsd)
    (hmonth : c.InMonth policies d runtimeId month)
    (hfits : c.call.scope.runtimeId = some runtimeId →
      c.EstimatesFit policies d maxRequestUsd monthlyLimitUsd runtimeId)
    (hrecorded : (c.checked policies d).Recorded d d') :
    SpendBounded d₀ d' runtimeId month maxRequestUsd monthlyLimitUsd := by
  obtain ⟨-, hsame | ⟨hallowed, a, ha, hnew⟩⟩ := hrecorded
  · obtain ⟨⟨logs, hlogs, hrequests⟩, hmonthly⟩ := h
    refine ⟨⟨logs, hsame.trans hlogs, hrequests⟩, ?_⟩
    rw [Db.runtimeCost, Db.runtimeLogs, hsame]
    exact hmonthly
  · refine spendBounded_append h hnew fun hmine => ?_
    obtain ⟨rfl, hcovered⟩ := hmonth hmine
    have hcheck : c.check policies d (c.estimatedCost d) = none := by
      have hraises : ((c.check policies d (c.estimatedCost d)).map BudgetCode.error).or
          (c.call.raises .runtimeBudget) = none := hallowed
      simpa using (Option.or_eq_none_iff.mp hraises).1
    obtain ⟨x, hx⟩ := answered_of_answer ha
    obtain ⟨hrequest, hlimit⟩ := hfits hmine hcheck x hx
    have hlog := numeric_le (charge_le_approvedTotal hsound hx ha hcovered)
    exact ⟨(toDecimal_le.mpr hlog).trans hrequest,
      (toDecimal_le.mpr (add_le_add le_rfl hlog)).trans hlimit⟩

/-- Without tool rounds the check of the draft is the whole condition. -/
theorem estimatesFit_of_noRounds {c : RuntimeCall} {policies : Uuid → BudgetPolicy} {d : Db}
    {runtimeId : Uuid} {maxRequestUsd monthlyLimitUsd : Decimal} (hrounds : c.rounds = [])
    (hid : c.call.scope.runtimeId = some runtimeId) (henabled : (policies runtimeId).enabled = true)
    (hmax : (policies runtimeId).maxRequestUsd = some maxRequestUsd)
    (hlimit : (policies runtimeId).monthlyLimitUsd = some monthlyLimitUsd) :
    c.EstimatesFit policies d maxRequestUsd monthlyLimitUsd runtimeId := by
  intro hcheck x _
  have htotal : c.approvedTotal policies d x = c.estimatedCost d := by
    simp [RuntimeCall.approvedTotal, RuntimeCall.approvedFollowups, RuntimeCall.followupEstimates,
      hrounds]
  rw [htotal]
  simp only [RuntimeCall.check, hid] at hcheck
  obtain ⟨hrequest, -, hmonthly⟩ := (checkRuntimeBudget_eq_none_iff henabled).mp hcheck
  exact ⟨hrequest _ hmax, hmonthly _ hlimit⟩

/-! ## A draft and one synthesis step -/

def twoDollars : PricingRule where
  id := ⟨"p"⟩
  provider := "openai"
  operation := "output_tokens"
  model := none
  pricePerUnit := 1 / 1000
  markup := 0
  effectiveFrom := 0
  effectiveUntil := none
  version := 1
  active := true
  createdAt := 0

def pricedUser : Db where
  wallets := RowTable.single { id := ⟨"w"⟩, userId := ⟨"u"⟩, balance := 1000000 }
  pricingRules := [twoDollars]

def threeDollars : Uuid → BudgetPolicy := fun _ =>
  { enabled := true, maxRequestUsd := some 3, monthlyLimitUsd := some 3 }

/-- A draft of 2000 tokens for 2 dollars, and a synthesis step like it. -/
def answerOf2000 : ℕ → CallOutcome := fun _ =>
  .completed "answer" { inputTokens := 0, outputTokens := 2000 }

def toolCall (rounds : List RuntimeRound) : RuntimeCall where
  call :=
    { ctx := ⟨1, ⟨"q"⟩, ⟨"x"⟩⟩
      userId := ⟨"u"⟩
      scope := { runtimeId := some ⟨"r"⟩ }
      requestId := "q"
      provider := "openai"
      model := "gpt-4o"
      preflightInputTokens := 0
      requestedOutputTokens := 2000
      invocation :=
        { catalogue := fun _ _ => {}
          hasKey := fun _ => true
          routing := .configured .openai ["gpt-4o"]
          respond := answerOf2000
          rounds := []
          estimated := { inputTokens := 0, outputTokens := 0 } } }
  rounds := rounds

def synthesis : RuntimeRound where
  estimatedInputTokens := 0
  reservedOutput := 2000
  respond := answerOf2000

end Zyntry
