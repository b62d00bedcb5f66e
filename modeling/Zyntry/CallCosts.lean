import Zyntry.InvokePricing

/-!
# The costs of the calls of an invocation

An invocation is charged once, for the summed usage of its model calls. Rounding
away from zero and the catalogue's minimum charge make this at most what its calls
would cost one by one, as long as no price or markup is negative.
-/

namespace Zyntry

/-! ## Pricing rules -/

/-- The pricing endpoint accepts neither negative prices nor negative markups. -/
def Db.SoundPrices (d : Db) : Prop := ∀ r ∈ d.pricingRules, 0 ≤ r.pricePerUnit ∧ 0 ≤ r.markup

instance (d : Db) : Decidable d.SoundPrices := by
  unfold Db.SoundPrices
  infer_instance

def PricingRule.customerCost (r : PricingRule) (quantity : Decimal) : ℤ :=
  money (toDecimal (money (r.pricePerUnit * quantity)) * (1 + r.markup))

section

variable {r : PricingRule} {x y : Decimal}

theorem PricingRule.customerCost_zero (r : PricingRule) : r.customerCost 0 = 0 := by
  simp [customerCost, money, toDecimal]

theorem PricingRule.providerCost_nonneg (hprice : 0 ≤ r.pricePerUnit) (hx : 0 ≤ x) :
    0 ≤ toDecimal (money (r.pricePerUnit * x)) :=
  toDecimal_nonneg (money_nonneg (mul_nonneg hprice hx))

theorem PricingRule.customerCost_mono (hprice : 0 ≤ r.pricePerUnit) (hmarkup : 0 ≤ r.markup)
    (hx : 0 ≤ x) (h : x ≤ y) : r.customerCost x ≤ r.customerCost y := by
  have hprovider := money_mono (mul_nonneg hprice hx) (mul_le_mul_of_nonneg_left h hprice)
  exact money_mono (mul_nonneg (providerCost_nonneg hprice hx) (by linarith))
    (mul_le_mul_of_nonneg_right (toDecimal_le.mpr hprovider) (by linarith))

theorem PricingRule.customerCost_add_le (hprice : 0 ≤ r.pricePerUnit) (hmarkup : 0 ≤ r.markup)
    (hx : 0 ≤ x) (hy : 0 ≤ y) :
    r.customerCost (x + y) ≤ r.customerCost x + r.customerCost y := by
  have hfactor : 0 ≤ 1 + r.markup := by linarith
  have hpx := providerCost_nonneg hprice hx
  have hpy := providerCost_nonneg hprice hy
  have hprovider : toDecimal (money (r.pricePerUnit * (x + y))) ≤
      toDecimal (money (r.pricePerUnit * x)) + toDecimal (money (r.pricePerUnit * y)) := by
    rw [← toDecimal_add, toDecimal_le, mul_add]
    exact money_add_le (mul_nonneg hprice hx) (mul_nonneg hprice hy)
  calc r.customerCost (x + y)
      ≤ money (toDecimal (money (r.pricePerUnit * x)) * (1 + r.markup) +
          toDecimal (money (r.pricePerUnit * y)) * (1 + r.markup)) := by
        rw [← add_mul]
        exact money_mono (mul_nonneg (providerCost_nonneg hprice (add_nonneg hx hy)) hfactor)
          (mul_le_mul_of_nonneg_right hprovider hfactor)
    _ ≤ r.customerCost x + r.customerCost y :=
        money_add_le (mul_nonneg hpx hfactor) (mul_nonneg hpy hfactor)

end

/-- The rule that prices an operation. -/
def Db.priceRule (d : Db) (provider : String) (model : Option String) (operation : String)
    (now : ℕ) : Option PricingRule :=
  let rules := d.rules provider operation model now
  (rules.find? (fun r => r.model = model)).or (rules.find? (fun r => r.model = none))

/-- What an operation adds to the amount. -/
def Db.operationCost (d : Db) (provider : String) (model : Option String) (operation : String)
    (quantity now : ℕ) : ℤ :=
  ((d.priceRule provider model operation now).map (fun r => r.customerCost quantity)).getD 0

theorem Db.price_eq_rule (d : Db) (provider : String) (model : Option String)
    (operation : String) (quantity : Decimal) (now : ℕ) :
    d.price provider model operation quantity now =
      if quantity ≤ 0 then none
      else (d.priceRule provider model operation now).map fun r =>
        ⟨r.customerCost quantity, money (r.pricePerUnit * quantity), r⟩ := by
  unfold Db.price Db.priceRule
  dsimp only
  cases ((d.rules provider operation model now).find? (fun r => r.model = model)).or
      ((d.rules provider operation model now).find? (fun r => r.model = none)) with
  | none => simp
  | some r => rfl

theorem Db.priceRule_mem {d : Db} {provider operation : String} {model : Option String} {now : ℕ}
    {r : PricingRule} (h : d.priceRule provider model operation now = some r) :
    r ∈ d.pricingRules := by
  have hmem : ∀ {p : PricingRule → Bool},
      (d.rules provider operation model now).find? p = some r → r ∈ d.pricingRules := by
    intro p hp
    have hr := List.mem_of_find?_eq_some hp
    rw [Db.rules, List.mem_insertionSort] at hr
    exact List.mem_of_mem_filter hr
  rcases Option.or_eq_some_iff.mp h with h | ⟨_, h⟩
  · exact hmem h
  · exact hmem h

theorem Db.price_eq (d : Db) (provider : String) (model : Option String) (operation : String)
    (quantity now : ℕ) :
    ((d.price provider model operation quantity now).map Price.customerCost).getD 0 =
      d.operationCost provider model operation quantity now := by
  unfold Db.operationCost
  rw [Db.price_eq_rule]
  split_ifs with hquantity
  · have hzero : (quantity : ℚ) = 0 := le_antisymm hquantity (Nat.cast_nonneg quantity)
    cases d.priceRule provider model operation now with
    | none => rfl
    | some r => simp [hzero, PricingRule.customerCost_zero]
  · rw [Option.map_map]
    rfl

theorem sum_toDecimal (l : List ℤ) : (l.map toDecimal).sum = toDecimal l.sum := by
  induction l with
  | nil => simp [toDecimal]
  | cons m l ih => rw [List.map_cons, List.sum_cons, List.sum_cons, ih, toDecimal_add]

theorem Db.calculate_amount (d : Db) (provider : String) (model : Option String) (q : Quantities)
    (now : ℕ) : (d.calculate provider model q now).amount =
      (q.operations.map (fun o => d.operationCost provider model o.1 o.2 now)).sum := by
  have hsum : ∀ operations : List (String × ℕ),
      ((operations.filterMap (fun o => d.price provider model o.1 o.2 now)).map
        (fun c => toDecimal c.customerCost)).sum =
      toDecimal (operations.map (fun o => d.operationCost provider model o.1 o.2 now)).sum := by
    intro operations
    rw [← sum_toDecimal, List.map_map]
    induction operations with
    | nil => rfl
    | cons o operations ih =>
        have ho := d.price_eq provider model o.1 o.2 now
        rw [List.filterMap_cons, List.map_cons, List.sum_cons, ← ih, Function.comp, ← ho]
        cases d.price provider model o.1 o.2 now with
        | none => simp [toDecimal]
        | some p => rfl
  exact (congrArg money (hsum q.operations)).trans (money_toDecimal _)

section

variable {d : Db} (hsound : d.SoundPrices)

include hsound

theorem Db.operationCost_mono (provider : String) (model : Option String) (operation : String)
    (now : ℕ) {m n : ℕ} (h : m ≤ n) : d.operationCost provider model operation m now ≤
      d.operationCost provider model operation n now := by
  unfold Db.operationCost
  cases hr : d.priceRule provider model operation now with
  | none => exact le_rfl
  | some r =>
      obtain ⟨hprice, hmarkup⟩ := hsound r (Db.priceRule_mem hr)
      exact PricingRule.customerCost_mono hprice hmarkup (Nat.cast_nonneg m) (Nat.cast_le.mpr h)

theorem Db.operationCost_add_le (provider : String) (model : Option String) (operation : String)
    (m n now : ℕ) : d.operationCost provider model operation (m + n) now ≤
      d.operationCost provider model operation m now +
        d.operationCost provider model operation n now := by
  unfold Db.operationCost
  cases hr : d.priceRule provider model operation now with
  | none => simp
  | some r =>
      obtain ⟨hprice, hmarkup⟩ := hsound r (Db.priceRule_mem hr)
      simpa using PricingRule.customerCost_add_le hprice hmarkup (Nat.cast_nonneg m)
        (Nat.cast_nonneg n)

end

theorem Db.operationCost_zero (d : Db) (provider : String) (model : Option String)
    (operation : String) (now : ℕ) : d.operationCost provider model operation 0 now = 0 := by
  unfold Db.operationCost
  cases d.priceRule provider model operation now with
  | none => rfl
  | some r => simpa using r.customerCost_zero

theorem Db.calculate_nonneg {d : Db} (hsound : d.SoundPrices) (provider : String)
    (model : Option String) (q : Quantities) (now : ℕ) :
    0 ≤ (d.calculate provider model q now).amount := by
  rw [Db.calculate_amount]
  refine List.sum_nonneg fun x hx => ?_
  obtain ⟨o, _, rfl⟩ := List.mem_map.mp hx
  exact (d.operationCost_zero provider model o.1 now).ge.trans
    (Db.operationCost_mono hsound provider model o.1 now (Nat.zero_le o.2))

/-! ## Charges -/

/-- What the code charges for some usage of the model that has answered. -/
def Answer.cost (a : Answer) (d : Db) (now : ℕ) (usage : CompletionUsage) : Decimal :=
  (a.charge usage d now).actualCost

/-- The usages of a list that is summed up, token by token. -/
structure CompletionUsage.SumsTo (u v total : CompletionUsage) : Prop where
  inputTokens : total.inputTokens = u.inputTokens + v.inputTokens
  outputTokens : total.outputTokens = u.outputTokens + v.outputTokens
  cachedTokens : total.cachedTokens = u.cachedTokens + v.cachedTokens

theorem sumsTo_aggregate_cons (u : CompletionUsage) (us : List CompletionUsage) :
    u.SumsTo (aggregate us) (aggregate (u :: us)) := by
  constructor <;> simp [aggregate]

theorem Rates.cost_le_catalogTokenCost (r : Rates) (i o : ℕ) :
    r.cost i o ≤ catalogTokenCost (some r) i o := by
  simp only [catalogTokenCost]
  split_ifs with hcost
  · exact le_max_left _ _
  · exact not_lt.mp hcost

theorem Rates.minimum_le_catalogTokenCost {r : Rates} {i o : ℕ} (h : 0 < r.cost i o) :
    1 / 10000 ≤ catalogTokenCost (some r) i o := by
  simp only [catalogTokenCost, if_pos h]
  exact le_max_right _ _

theorem catalogTokenCost_add_le (rates : Option Rates) (i i' o o' : ℕ) :
    catalogTokenCost rates (i + i') (o + o') ≤
      catalogTokenCost rates i o + catalogTokenCost rates i' o' := by
  have hx := catalogTokenCost_nonneg rates i o
  have hy := catalogTokenCost_nonneg rates i' o'
  cases rates with
  | none => simp [catalogTokenCost]
  | some r =>
      have hadd : r.cost (i + i') (o + o') = r.cost i o + r.cost i' o' := by
        simp only [Rates.cost]
        push_cast
        ring
      have hcosts := add_le_add (r.cost_le_catalogTokenCost i o) (r.cost_le_catalogTokenCost i' o')
      by_cases hpos : 0 < r.cost (i + i') (o + o')
      · have hminimum : 1 / 10000 ≤
            catalogTokenCost (some r) i o + catalogTokenCost (some r) i' o' := by
          rcases lt_or_ge 0 (r.cost i o) with hi | hi
          · linarith [Rates.minimum_le_catalogTokenCost hi]
          · have hi' : 0 < r.cost i' o' := by linarith
            linarith [Rates.minimum_le_catalogTokenCost hi']
        have htotal : catalogTokenCost (some r) (i + i') (o + o') =
            max (r.cost (i + i') (o + o')) (1 / 10000) := by simp only [catalogTokenCost, if_pos hpos]
        rw [htotal, hadd]
        exact max_le hcosts hminimum
      · have hzero : catalogTokenCost (some r) (i + i') (o + o') = 0 := by
          simp only [catalogTokenCost, if_neg hpos]
        rw [hzero]
        exact add_nonneg hx hy

theorem Answer.rulesAmount_le_cost (a : Answer) (d : Db) (now : ℕ) (u : CompletionUsage) :
    toDecimal (d.calculate a.provider.value (some a.model.value) u.quantities now).amount ≤
      a.cost d now u := by
  unfold Answer.cost Answer.charge
  dsimp only
  split_ifs with hamount
  · refine le_trans ?_ (catalogTokenCost_nonneg _ _ _)
    simpa [toDecimal] using toDecimal_le.mpr hamount
  · exact le_rfl

theorem Answer.cost_nonneg (a : Answer) (d : Db) (now : ℕ) (u : CompletionUsage) :
    0 ≤ a.cost d now u := by
  unfold Answer.cost Answer.charge
  dsimp only
  split_ifs with hamount
  · exact catalogTokenCost_nonneg _ _ _
  · exact toDecimal_nonneg (not_le.mp hamount).le

section

variable {d : Db} (hsound : d.SoundPrices)

include hsound

theorem Db.calculate_sumsTo {u v total : CompletionUsage} (h : u.SumsTo v total)
    (provider : String) (model : Option String) (now : ℕ) :
    (d.calculate provider model u.quantities now).amount ≤
        (d.calculate provider model total.quantities now).amount ∧
      (d.calculate provider model total.quantities now).amount ≤
        (d.calculate provider model u.quantities now).amount +
          (d.calculate provider model v.quantities now).amount := by
  have hmono := fun operation m n =>
    Db.operationCost_mono hsound provider model operation now (Nat.le_add_right m n)
  have hadd := fun operation m n => Db.operationCost_add_le hsound provider model operation m n now
  have hinput := hadd "input_tokens" u.inputTokens v.inputTokens
  have houtput := hadd "output_tokens" u.outputTokens v.outputTokens
  have hcached := hadd "cached_tokens" u.cachedTokens v.cachedTokens
  have hinput' := hmono "input_tokens" u.inputTokens v.inputTokens
  have houtput' := hmono "output_tokens" u.outputTokens v.outputTokens
  have hcached' := hmono "cached_tokens" u.cachedTokens v.cachedTokens
  simp only [Db.calculate_amount, Quantities.operations, CompletionUsage.quantities, List.map_cons,
    List.map_nil, List.sum_cons, List.sum_nil, Db.operationCost_zero, h.inputTokens,
    h.outputTokens, h.cachedTokens]
  constructor <;> omega

/-- A sum costs at most what its parts cost. -/
theorem Answer.cost_sumsTo_le (a : Answer) (now : ℕ) {u v total : CompletionUsage}
    (h : u.SumsTo v total) (h' : v.SumsTo u total) :
    a.cost d now total ≤ a.cost d now u + a.cost d now v := by
  obtain ⟨hu, hsum⟩ := Db.calculate_sumsTo hsound h a.provider.value (some a.model.value) now
  obtain ⟨hv, -⟩ := Db.calculate_sumsTo hsound h' a.provider.value (some a.model.value) now
  by_cases htotal : (d.calculate a.provider.value (some a.model.value) total.quantities now).amount ≤ 0
  · -- the rules give nothing for either part
    simp only [cost, charge, if_pos htotal, if_pos (hu.trans htotal), if_pos (hv.trans htotal),
      h.inputTokens, h.outputTokens]
    exact catalogTokenCost_add_le _ _ _ _ _
  · have hcost : a.cost d now total = toDecimal
        (d.calculate a.provider.value (some a.model.value) total.quantities now).amount := by
      simp only [cost, charge, if_neg htotal]
    rw [hcost]
    refine (toDecimal_le.mpr hsum).trans ?_
    rw [toDecimal_add]
    exact add_le_add (a.rulesAmount_le_cost d now u) (a.rulesAmount_le_cost d now v)

/-- The charge of an invocation is at most the sum of the costs of its calls. -/
theorem Answer.cost_aggregate_le (a : Answer) (now : ℕ) (us : List CompletionUsage) :
    a.cost d now (aggregate us) ≤ (us.map (a.cost d now)).sum := by
  induction us with
  | nil =>
      have hzero : (d.calculate a.provider.value (some a.model.value)
          (aggregate []).quantities now).amount = 0 := by
        simp [Db.calculate_amount, Quantities.operations, CompletionUsage.quantities, aggregate,
          Db.operationCost_zero]
      have hcatalogue : ∀ rates, catalogTokenCost rates 0 0 = 0 := by
        intro rates
        cases rates <;> simp [catalogTokenCost, Rates.cost]
      have hnil : a.cost d now (aggregate []) = 0 := by
        simp only [cost, charge, hzero, le_refl, if_true]
        exact hcatalogue _
      exact hnil.le
  | cons u us ih =>
      have hsum := sumsTo_aggregate_cons u us
      have hsum' : (aggregate us).SumsTo u (aggregate (u :: us)) :=
        ⟨hsum.inputTokens.trans (Nat.add_comm _ _), hsum.outputTokens.trans (Nat.add_comm _ _),
          hsum.cachedTokens.trans (Nat.add_comm _ _)⟩
      rw [List.map_cons, List.sum_cons]
      exact (a.cost_sumsTo_le hsound now hsum hsum').trans (add_le_add le_rfl ih)

end

end Zyntry
