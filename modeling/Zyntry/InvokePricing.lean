import Zyntry.ModelRouter

/-!
# The price of an invocation

An invocation calls a model once and then, for every read-only tool round, once
more with the results of the tools. It is charged for the summed usage of all
calls that completed: by the pricing rules or, where these give nothing, by the
catalogue entry that the router still holds after the last call.
-/

namespace Zyntry

/-! ## The calls -/

/-- A tool round: whether the runtime budget allows its synthesis step, and what
the provider calls of that step come to. -/
structure Round where
  allowed : Bool
  respond : ℕ → CallOutcome

inductive Routing where
  | automatic (candidates : List Candidate)
  | configured (provider : Provider) (models : List String)

structure Invocation where
  catalogue : Catalogue
  hasKey : Provider → Bool
  routing : Routing
  respond : ℕ → CallOutcome
  rounds : List Round
  /-- The estimate that stands in for usage that nobody reported. -/
  estimated : CompletionUsage

/-- The local variables of `invoke` between the tool rounds. -/
structure Answer where
  router : Router
  modelAttempts : List Attempt
  provider : Provider
  model : ModelName
  text : String

/-- Discovery skips providers without a key. -/
def Invocation.firstCall (inv : Invocation) : Router × Reply :=
  match inv.routing with
  | .automatic candidates =>
      invokeWithFallback (candidates.filter (fun c => inv.hasKey c.provider)) inv.respond
  | .configured provider models =>
      invokeFixed inv.catalogue inv.hasKey provider models inv.respond

def toolRounds (catalogue : Catalogue) (hasKey : Provider → Bool) : List Round → Answer → Answer
  | [], a => a
  | round :: rounds, a =>
      if round.allowed then
        let (router, reply) := invokeFixed catalogue hasKey a.provider [a.model.value] round.respond
        let a := { a with router, modelAttempts := a.modelAttempts ++ router.lastAttempts }
        if reply.text ≠ "" then
          toolRounds catalogue hasKey rounds
            { a with
              provider := (reply.answered.map Candidate.provider).getD a.provider
              model := (reply.answered.map Candidate.model).getD a.model
              text := reply.text }
        else if reply.error ≠ "" then a
        else toolRounds catalogue hasKey rounds a
      else a

/-- The answer that is priced; without a text the request fails instead. -/
def Invocation.answer (inv : Invocation) : Option Answer :=
  match inv.firstCall with
  | (router, reply) =>
      match reply.answered with
      | none => none
      | some c =>
          if reply.text = "" then none
          else some (toolRounds inv.catalogue inv.hasKey inv.rounds
            { router
              modelAttempts := router.lastAttempts
              provider := c.provider
              model := c.model
              text := reply.text })

/-! ## The charge -/

def Answer.usage (a : Answer) (estimated : CompletionUsage) : CompletionUsage :=
  let attempts := if a.modelAttempts = [] then a.router.lastAttempts else a.modelAttempts
  let callUsages := attempts.filterMap Attempt.usage
  if callUsages = [] then a.router.lastUsage.getD estimated else aggregate callUsages

def CompletionUsage.quantities (u : CompletionUsage) : Quantities where
  inputTokens := u.inputTokens
  outputTokens := u.outputTokens
  cachedTokens := u.cachedTokens
  requests := 0

/-- What is settled and recorded for an invocation. -/
structure Charge where
  actualCost : Decimal
  providerCost : Decimal
  markup : Decimal
deriving DecidableEq, Repr

def Answer.charge (a : Answer) (usage : CompletionUsage) (d : Db) (now : ℕ) : Charge :=
  let breakdown := d.calculate a.provider.value (some a.model.value) usage.quantities now
  if breakdown.amount ≤ 0 then
    let actualCost := catalogTokenCost (a.router.lastInvokedCandidate.map Candidate.rates)
      usage.inputTokens usage.outputTokens
    { actualCost, providerCost := actualCost, markup := 0 }
  else
    { actualCost := toDecimal breakdown.amount
      providerCost := toDecimal breakdown.providerCost
      markup := toDecimal breakdown.markup }

theorem charge_congr {a : Answer} {usage : CompletionUsage} {d d' : Db} {now : ℕ}
    (h : d'.pricingRules = d.pricingRules) : a.charge usage d' now = a.charge usage d now := by
  have hrules : ∀ provider operation model, d'.rules provider operation model now =
      d.rules provider operation model now := fun _ _ _ => by simp only [Db.rules, h]
  simp only [Answer.charge, Db.calculate, Db.price, hrules]

/-! ## Which calls an invocation makes -/

/-- The calls that one pass over the candidates makes. -/
def callsTried (respond : ℕ → CallOutcome) : ℕ → List Candidate → List Attempt
  | _, [] => []
  | n, c :: cs => ⟨c, respond n⟩ ::
      match respond n with
      | .completed _ _ => []
      | .failed _ streamed _ => if streamed then [] else callsTried respond (n + 1) cs

/-- A follow-up call that fails ends the tool rounds, unless it leaves no word. -/
def CallOutcome.endsRounds : CallOutcome → Bool
  | .completed _ _ => false
  | .failed _ streamed error => !(streamed && error = "")

/-- The follow-up calls to the model `c` of the tool rounds. -/
def followups (c : Candidate) : List Round → List Attempt
  | [] => []
  | round :: rounds =>
      if round.allowed then
        ⟨c, round.respond 0⟩ ::
          if (round.respond 0).endsRounds then [] else followups c rounds
      else []

def Invocation.candidates (inv : Invocation) : List Candidate :=
  match inv.routing with
  | .automatic candidates => candidates.filter (fun c => inv.hasKey c.provider)
  | .configured provider models =>
      if inv.hasKey provider then
        (models.filterMap ModelName.ofString).map (inv.catalogue.candidate provider)
      else []

/-- The entry that the router makes for the model of a follow-up call. -/
def Invocation.registered (inv : Invocation) (c : Candidate) : Candidate :=
  inv.catalogue.candidate c.provider c.model

/-- All model calls of an invocation whose first call is answered by `c`. -/
def Invocation.calls (inv : Invocation) (c : Candidate) : List Attempt :=
  callsTried inv.respond 0 inv.candidates ++ followups (inv.registered c) inv.rounds

theorem tryCandidates_spec {respond : ℕ → CallOutcome} {exhausted : String → String} {n : ℕ}
    {lastError : String} {cs : List Candidate} {r r' : Router} {reply : Reply}
    (h : tryCandidates respond exhausted n lastError cs r = (r', reply)) :
    r'.lastAttempts = r.lastAttempts ++ callsTried respond n cs ∧
      ∀ c, reply.answered = some c → c ∈ cs ∧ r'.lastInvokedCandidate = some c ∧
        ∃ a ∈ callsTried respond n cs, a.usage.isSome := by
  induction cs generalizing n lastError r with
  | nil =>
      obtain ⟨rfl, rfl⟩ := Prod.mk.inj h
      simp [callsTried]
  | cons c cs ih =>
      unfold tryCandidates at h
      unfold callsTried
      cases ho : respond n with
      | completed text usage =>
          simp only [ho] at h
          obtain ⟨rfl, rfl⟩ := Prod.mk.inj h
          refine ⟨rfl, fun c' hc' => ?_⟩
          obtain rfl := Option.some.inj hc'
          exact ⟨List.mem_cons_self, rfl, _, List.mem_cons_self, rfl⟩
      | failed recorded streamed error =>
          simp only [ho] at h ⊢
          cases streamed with
          | true =>
              simp only [if_true] at h ⊢
              obtain ⟨rfl, rfl⟩ := Prod.mk.inj h
              exact ⟨rfl, fun c' hc' => by cases hc'⟩
          | false =>
              simp only [Bool.false_eq_true, if_false] at h ⊢
              obtain ⟨hattempts, hanswered⟩ := ih h
              refine ⟨?_, fun c' hc' => ?_⟩
              · rw [hattempts]
                simp [Router.record]
              · obtain ⟨hmem, hlast, a, ha, husage⟩ := hanswered c' hc'
                exact ⟨List.mem_cons_of_mem c hmem, hlast, a, List.mem_cons_of_mem _ ha, husage⟩

/-- What a router that was reset before the call holds after it. -/
def Attempt.held (a : Attempt) : Option Candidate :=
  match a.outcome with
  | .completed _ _ => some a.candidate
  | .failed recorded _ _ => if recorded then some a.candidate else none

theorem record_reset (c : Candidate) (outcome : CallOutcome) :
    (({} : Router).record c outcome).lastInvokedCandidate = Attempt.held ⟨c, outcome⟩ ∧
      (({} : Router).record c outcome).lastAttempts = [⟨c, outcome⟩] := by
  cases outcome <;> exact ⟨rfl, rfl⟩

/-- A follow-up call has one candidate. -/
theorem invokeFixed_single {catalogue : Catalogue} {hasKey : Provider → Bool}
    {provider : Provider} (m : ModelName) (respond : ℕ → CallOutcome)
    (hkey : hasKey provider = true) :
    invokeFixed catalogue hasKey provider [m.value] respond =
      (({} : Router).record (catalogue.candidate provider m) (respond 0),
        match respond 0 with
        | .completed text _ => ⟨text, some (catalogue.candidate provider m), ""⟩
        | .failed _ streamed error => ⟨"", none, if streamed then error
            else if error = "" then "No configured model was available" else error⟩) := by
  simp only [invokeFixed, hkey, if_true, List.filterMap_cons, ModelName.ofString_value,
    List.filterMap_nil, List.map_cons, List.map_nil, tryCandidates]
  cases ho : respond 0 with
  | completed text usage => rfl
  | failed recorded streamed error => cases streamed <;> rfl

/-- The tool rounds call the model that has answered and collect every attempt; what
the router holds at the end is decided by the last call alone. -/
theorem toolRounds_spec (catalogue : Catalogue) {hasKey : Provider → Bool} (rounds : List Round)
    {a : Answer} (hkey : hasKey a.provider = true) :
    let a' := toolRounds catalogue hasKey rounds a
    let calls := followups (catalogue.candidate a.provider a.model) rounds
    a'.provider = a.provider ∧ a'.model = a.model ∧
      a'.modelAttempts = a.modelAttempts ++ calls ∧
      a'.router.lastInvokedCandidate =
        (calls.getLast?.map Attempt.held).getD a.router.lastInvokedCandidate := by
  induction rounds generalizing a with
  | nil => simp [toolRounds, followups]
  | cons round rounds ih =>
      simp only [toolRounds, followups]
      cases round.allowed with
      | false => simp
      | true =>
          let c := catalogue.candidate a.provider a.model
          obtain ⟨hheld, hlast⟩ := record_reset c (round.respond 0)
          -- the last call of the rounds is the last of the remaining ones, if there is any
          have hnext : ∀ a₁ : Answer, a₁.provider = a.provider → a₁.model = a.model →
              a₁.modelAttempts = a.modelAttempts ++ [⟨c, round.respond 0⟩] →
              a₁.router.lastInvokedCandidate = Attempt.held ⟨c, round.respond 0⟩ →
              let a' := toolRounds catalogue hasKey rounds a₁
              let calls := ⟨c, round.respond 0⟩ :: followups c rounds
              a'.provider = a.provider ∧ a'.model = a.model ∧
                a'.modelAttempts = a.modelAttempts ++ calls ∧
                a'.router.lastInvokedCandidate =
                  (calls.getLast?.map Attempt.held).getD a.router.lastInvokedCandidate := by
            intro a₁ hprovider hmodel hattempts hrouter
            obtain ⟨h₁, h₂, h₃, h₄⟩ := ih (a := a₁) (hprovider ▸ hkey)
            rw [hprovider, hmodel] at h₃ h₄
            refine ⟨h₁.trans hprovider, h₂.trans hmodel, ?_, ?_⟩
            · rw [h₃, hattempts, List.append_assoc]
              rfl
            · rw [h₄, hrouter, List.getLast?_cons]
              cases (followups (catalogue.candidate a.provider a.model) rounds).getLast? <;> rfl
          simp only [if_true, invokeFixed_single _ _ hkey]
          cases ho : round.respond 0 with
          | completed text usage =>
              rw [ho] at hnext hheld hlast
              simp only [CallOutcome.endsRounds, Bool.false_eq_true, if_false, ne_eq,
                not_true_eq_false]
              split_ifs
              · exact hnext _ rfl rfl (congrArg _ hlast) hheld
              · exact hnext _ rfl rfl (congrArg _ hlast) hheld
          | failed recorded streamed error =>
              rw [ho] at hnext hheld hlast
              simp only [CallOutcome.endsRounds, ne_eq, not_true_eq_false, if_false]
              cases streamed with
              | false =>
                  have hword : ¬ (if error = "" then "No configured model was available"
                      else error) = "" := by
                    split_ifs with he
                    · decide
                    · exact he
                  simp only [Bool.false_eq_true, if_false, hword, not_false_eq_true, if_true,
                    Bool.false_and, Bool.not_false]
                  exact ⟨trivial, trivial, congrArg _ hlast, hheld⟩
              | true =>
                  by_cases he : error = ""
                  · subst he
                    simp only [if_true, not_true_eq_false, if_false, decide_true, Bool.and_self,
                      Bool.not_true, Bool.false_eq_true]
                    exact hnext _ rfl rfl (congrArg _ hlast) hheld
                  · simp only [if_true, he, not_false_eq_true, decide_false, Bool.and_false,
                      Bool.not_false]
                    exact ⟨trivial, trivial, congrArg _ hlast, hheld⟩

theorem firstCall_spec (inv : Invocation) :
    inv.firstCall.1.lastAttempts = callsTried inv.respond 0 inv.candidates ∧
      ∀ c, inv.firstCall.2.answered = some c → inv.hasKey c.provider = true ∧
        inv.firstCall.1.lastInvokedCandidate = some c ∧
        ∃ a ∈ callsTried inv.respond 0 inv.candidates, a.usage.isSome := by
  unfold Invocation.firstCall Invocation.candidates
  cases inv.routing with
  | automatic candidates =>
      simp only [invokeWithFallback]
      split_ifs with hempty
      · simp [hempty, callsTried]
      · obtain ⟨hattempts, hanswered⟩ := tryCandidates_spec (Prod.mk.eta (p := tryCandidates
          inv.respond id 0 "" (candidates.filter (fun c => inv.hasKey c.provider)) {})).symm
        refine ⟨hattempts, fun c hc => ?_⟩
        obtain ⟨hmem, hlast, hcompleted⟩ := hanswered c hc
        exact ⟨(List.mem_filter.mp hmem).2, hlast, hcompleted⟩
  | configured provider models =>
      simp only [invokeFixed]
      split_ifs with hkey
      · obtain ⟨hattempts, hanswered⟩ := tryCandidates_spec (Prod.mk.eta (p := tryCandidates
          inv.respond (fun e => if e = "" then "No configured model was available" else e) 0 ""
          ((models.filterMap ModelName.ofString).map (inv.catalogue.candidate provider)) {})).symm
        refine ⟨hattempts, fun c hc => ?_⟩
        obtain ⟨hmem, hlast, hcompleted⟩ := hanswered c hc
        obtain ⟨m, _, rfl⟩ := List.mem_map.mp hmem
        exact ⟨hkey, hlast, hcompleted⟩
      · simp [callsTried]

/-- The answer is priced with the model that answered first, on all the calls. -/
theorem answer_spec {inv : Invocation} {c : Candidate} {a : Answer}
    (hc : inv.firstCall.2.answered = some c) (ha : inv.answer = some a) :
    a.provider = c.provider ∧ a.model = c.model ∧ a.modelAttempts = inv.calls c ∧
      a.router.lastInvokedCandidate =
        ((followups (inv.registered c) inv.rounds).getLast?.map Attempt.held).getD (some c) ∧
      (inv.calls c).filterMap Attempt.usage ≠ [] := by
  obtain ⟨hattempts, hanswered⟩ := firstCall_spec inv
  obtain ⟨hkey, hlast, x, hx, husage⟩ := hanswered c hc
  simp only [Invocation.answer, hc] at ha
  split_ifs at ha
  obtain rfl := Option.some.inj ha
  obtain ⟨hprovider, hmodel, hcalls, hrouter⟩ := toolRounds_spec inv.catalogue
    inv.rounds (a := { router := inv.firstCall.1, modelAttempts := inv.firstCall.1.lastAttempts,
                       provider := c.provider, model := c.model, text := inv.firstCall.2.text }) hkey
  refine ⟨hprovider, hmodel, ?_, ?_, ?_⟩
  · rw [hcalls, hattempts]
    rfl
  · rw [hrouter, hlast]
    rfl
  · obtain ⟨usage, hu⟩ := Option.isSome_iff_exists.mp husage
    exact List.ne_nil_of_mem (List.mem_filterMap.mpr ⟨x, List.mem_append_left _ hx, hu⟩)

/-! ## The price -/

/-- What the pricing rules ask for the usage of the model `c`. -/
def Candidate.rulesAmount (c : Candidate) (u : CompletionUsage) (d : Db) (now : ℕ) : ℤ :=
  (d.calculate c.provider.value (some c.model.value) u.quantities now).amount

def Candidate.catalogueCost (c : Candidate) (u : CompletionUsage) : Decimal :=
  catalogTokenCost (some c.rates) u.inputTokens u.outputTokens

/-- The price of some usage of the model `c`. -/
def Candidate.price (c : Candidate) (u : CompletionUsage) (d : Db) (now : ℕ) : Decimal :=
  if c.rulesAmount u d now ≤ 0 then c.catalogueCost u else toDecimal (c.rulesAmount u d now)

def Invocation.completedUsages (inv : Invocation) (c : Candidate) : List CompletionUsage :=
  (inv.calls c).filterMap Attempt.usage

def Invocation.SomePositive (inv : Invocation) (c : Candidate) : Prop :=
  ∃ x ∈ inv.calls c, ∃ u ∈ x.usage, 0 < x.candidate.catalogueCost u

/-- The invocation that `c` has answered is charged the price of the usage of all
its completed calls, and not nothing if one of them has a positive price. -/
def Priced (inv : Invocation) (c : Candidate) (a : Answer) (d : Db) (now : ℕ) : Prop :=
  (a.charge (a.usage inv.estimated) d now).actualCost =
      c.price (aggregate (inv.completedUsages c)) d now ∧
    (inv.SomePositive c → (a.charge (a.usage inv.estimated) d now).actualCost ≠ 0)

/-- The rules have a price for the usage, or what the router holds after the last
follow-up call prices it like `c` does. -/
def Invocation.PriceKept (inv : Invocation) (c : Candidate) (d : Db) (now : ℕ) : Prop :=
  let total := aggregate (inv.completedUsages c)
  0 < c.rulesAmount total d now ∨
    match (followups (inv.registered c) inv.rounds).getLast?.map Attempt.outcome with
    | none => inv.SomePositive c → 0 < c.catalogueCost total
    | some (.failed false _ _) => c.catalogueCost total = 0 ∧ ¬ inv.SomePositive c
    | some _ => (inv.registered c).catalogueCost total = c.catalogueCost total ∧
        (inv.SomePositive c → 0 < c.catalogueCost total)

theorem candidate_followups {c : Candidate} {rounds : List Round} :
    ∀ x ∈ followups c rounds, x.candidate = c := by
  induction rounds with
  | nil => simp [followups]
  | cons round rounds ih =>
      intro x hx
      unfold followups at hx
      split_ifs at hx
      · rw [List.mem_singleton.mp hx]
      · rcases List.mem_cons.mp hx with rfl | hx
        · rfl
        · exact ih x hx
      · cases hx

theorem answered_of_answer {inv : Invocation} {a : Answer} (ha : inv.answer = some a) :
    ∃ c, inv.firstCall.2.answered = some c := by
  cases hc : inv.firstCall.2.answered with
  | none => simp [Invocation.answer, hc] at ha
  | some c => exact ⟨c, rfl⟩

/-- The usage that is charged is that of all the calls. -/
theorem usage_eq_aggregate {inv : Invocation} {c : Candidate} {a : Answer}
    (hc : inv.firstCall.2.answered = some c) (ha : inv.answer = some a) :
    a.usage inv.estimated = aggregate (inv.completedUsages c) := by
  obtain ⟨_, _, hattempts, _, husages⟩ := answer_spec hc ha
  have hcalls : inv.calls c ≠ [] := fun h => husages (by simp [h])
  simp only [Answer.usage, hattempts, hcalls, if_false, husages]
  rfl

theorem charge_actualCost {inv : Invocation} {c : Candidate} {a : Answer} (d : Db) (now : ℕ)
    (hc : inv.firstCall.2.answered = some c) (ha : inv.answer = some a) :
    (a.charge (a.usage inv.estimated) d now).actualCost =
      let total := aggregate (inv.completedUsages c)
      if c.rulesAmount total d now ≤ 0 then
        catalogTokenCost ((((followups (inv.registered c) inv.rounds).getLast?.map
          Attempt.held).getD (some c)).map Candidate.rates) total.inputTokens total.outputTokens
      else toDecimal (c.rulesAmount total d now) := by
  obtain ⟨hprovider, hmodel, _, hrouter, _⟩ := answer_spec hc ha
  rw [usage_eq_aggregate hc ha]
  simp only [Answer.charge, hprovider, hmodel, hrouter]
  change (if c.rulesAmount _ d now ≤ 0 then _ else _ : Charge).actualCost = _
  split_ifs <;> rfl

/-- An invocation is charged the full price exactly if the pricing rules have one
or the router has not lost the catalogue price with the last follow-up call. -/
theorem priced_iff_priceKept {inv : Invocation} {c : Candidate} {a : Answer} (d : Db) (now : ℕ)
    (hc : inv.firstCall.2.answered = some c) (ha : inv.answer = some a) :
    Priced inv c a d now ↔ inv.PriceKept c d now := by
  have hcharge := charge_actualCost d now hc ha
  unfold Priced Invocation.PriceKept Candidate.price
  rw [hcharge]
  have hown := catalogTokenCost_nonneg (some c.rates)
    (aggregate (inv.completedUsages c)).inputTokens (aggregate (inv.completedUsages c)).outputTokens
  dsimp only
  rcases le_or_gt (c.rulesAmount (aggregate (inv.completedUsages c)) d now) 0 with hzero | hrules
  · simp only [if_pos hzero, not_lt.mpr hzero, false_or]
    cases hlast : (followups (inv.registered c) inv.rounds).getLast? with
    | none =>
        simp only [Option.map_none, Option.getD_none, Option.map_some, Candidate.catalogueCost,
          true_and]
        exact imp_congr_right fun _ => hown.lt_iff_ne'.symm
    | some x =>
        have hx := candidate_followups x (List.mem_of_getLast? hlast)
        obtain ⟨_, outcome⟩ := x
        subst hx
        simp only [Option.map_some, Option.getD_some, Attempt.held]
        match outcome with
        | .completed text usage =>
            simp only [Option.map_some, Candidate.catalogueCost]
            exact and_congr_right fun he => imp_congr_right fun _ => he ▸ hown.lt_iff_ne'.symm
        | .failed true streamed error =>
            simp only [if_true, Option.map_some, Candidate.catalogueCost]
            exact and_congr_right fun he => imp_congr_right fun _ => he ▸ hown.lt_iff_ne'.symm
        | .failed false streamed error =>
            simp only [Bool.false_eq_true, if_false, Option.map_none, catalogTokenCost,
              ne_eq, not_true_eq_false, imp_false, Candidate.catalogueCost]
            exact and_congr_left fun _ => eq_comm
  · have hpos : toDecimal (c.rulesAmount (aggregate (inv.completedUsages c)) d now) ≠ 0 := by
      unfold toDecimal
      positivity
    simp only [if_neg (not_le.mpr hrules), hrules, true_or, iff_true, true_and]
    exact fun _ => hpos

/-! ## A failing follow-up call -/

def gpt4o : ModelName := ⟨"gpt-4o", by decide, by decide⟩

/-- A first call of 1000 tokens in and 1000 out, and one tool round. -/
def oneRound (followup : CallOutcome) : Invocation where
  catalogue := fun _ _ => { inputPricePer1k := 5 / 1000, outputPricePer1k := 15 / 1000 }
  hasKey := fun _ => true
  routing := .configured .openai ["gpt-4o"]
  respond := fun _ => .completed "draft" { inputTokens := 1000, outputTokens := 1000 }
  rounds := [{ allowed := true, respond := fun _ => followup }]
  estimated := { inputTokens := 0, outputTokens := 0 }

def openaiGpt4o : Candidate :=
  ⟨.openai, gpt4o, { inputPricePer1k := 5 / 1000, outputPricePer1k := 15 / 1000 }⟩

theorem firstCall_oneRound (followup : CallOutcome) :
    (oneRound followup).firstCall.2.answered = some openaiGpt4o := by
  cases followup <;> rfl

/-- With a follow-up that completes, 2000 tokens in and 2000 out cost 0.04. -/
theorem priced_iff_priceKept_completed :
    ∃ a, (oneRound (.completed "answer" { inputTokens := 1000, outputTokens := 1000 })).answer =
        some a ∧
      Priced (oneRound (.completed "answer" { inputTokens := 1000, outputTokens := 1000 }))
        openaiGpt4o a {} 0 := by
  refine ⟨_, rfl, (priced_iff_priceKept {} 0 (firstCall_oneRound _) rfl).mpr (.inr ?_)⟩
  exact ⟨rfl, fun _ => by decide +kernel⟩

/-- A follow-up that fails makes the first call free. -/
theorem unpriced_at_failing_followup :
    ¬ ∀ (inv : Invocation) (c : Candidate) (a : Answer) (d : Db) (now : ℕ),
      inv.firstCall.2.answered = some c → inv.answer = some a → Priced inv c a d now := by
  intro h
  have hpriced := h (oneRound (.failed false false "timeout")) openaiGpt4o _ {} 0
    (firstCall_oneRound _) rfl
  exact absurd hpriced.1 (by decide +kernel)

end Zyntry
