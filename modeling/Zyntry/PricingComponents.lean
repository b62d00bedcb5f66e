import Zyntry.CallCosts
import Mathlib.Algebra.BigOperators.Group.Finset.Basic
import Mathlib.Algebra.Order.BigOperators.Group.Finset

/-!
# The components of a price

A call is priced operation by operation: the eight operations that every request counts, and
the resource components that a caller adds. A component is rounded up twice, and no rounding
is lost in the sums, because they are sums of quanta.
-/

/-! ## Sums over keyed quantities -/

/-- What a dictionary of quantities holds for a key; a missing key counts nothing. -/
def quantityOf (quantities : List (String × ℚ)) (key : String) : ℚ :=
  ((quantities.find? (·.1 = key)).map Prod.snd).getD 0

section

variable {cost : String → ℚ → ℤ} {l l' : List (String × ℚ)}

theorem quantityOf_of_mem (h : (l.map Prod.fst).Nodup) {o : String × ℚ} (ho : o ∈ l) :
    quantityOf l o.1 = o.2 := by
  induction l with
  | nil => cases ho
  | cons o' l ih =>
      obtain ⟨hfresh, hl⟩ := List.nodup_cons.mp h
      obtain rfl | ho := List.mem_cons.mp ho
      · simp [quantityOf]
      · have hne : o'.1 ≠ o.1 := by
          intro heq
          exact hfresh (heq ▸ List.mem_map_of_mem ho)
        simpa [quantityOf, hne] using ih hl ho

theorem quantityOf_of_notMem {key : String} (h : key ∉ l.map Prod.fst) :
    quantityOf l key = 0 := by
  have hnone : l.find? (·.1 = key) = none := by
    rw [List.find?_eq_none]
    intro o ho hkey
    exact h (List.mem_map.mpr ⟨o, ho, by simpa using hkey⟩)
  simp [quantityOf, hnone]

theorem quantityOf_mono (h : List.Forall₂ (fun o o' => o.1 = o'.1 ∧ o.2 ≤ o'.2) l l')
    (key : String) : quantityOf l key ≤ quantityOf l' key := by
  induction h with
  | nil => exact le_rfl
  | @cons o o' l l' ho _ ih =>
      by_cases hkey : o'.1 = key
      · simpa [quantityOf, ho.1, hkey] using ho.2
      · simpa [quantityOf, ho.1, hkey] using ih

/-- The keys of another dictionary may be counted too. -/
theorem sum_cost_eq (hzero : ∀ key, cost key 0 = 0) (h : (l.map Prod.fst).Nodup)
    {keys : Finset String} (hkeys : ∀ o ∈ l, o.1 ∈ keys) :
    (l.map fun o => cost o.1 o.2).sum = ∑ key ∈ keys, cost key (quantityOf l key) := by
  have hl : (l.map fun o => cost o.1 o.2) =
      (l.map Prod.fst).map fun key => cost key (quantityOf l key) := by
    rw [List.map_map]
    apply List.map_congr_left
    intro o ho
    rw [Function.comp_apply, quantityOf_of_mem h ho]
  rw [hl, ← List.sum_toFinset _ h]
  apply Finset.sum_subset
  · intro key hkey
    obtain ⟨o, ho, rfl⟩ := List.mem_map.mp (List.mem_toFinset.mp hkey)
    exact hkeys o ho
  · intro key _ hkey
    rw [quantityOf_of_notMem (mt List.mem_toFinset.mpr hkey), hzero]

theorem sum_cost_mono (hzero : ∀ key, cost key 0 = 0)
    (hmono : ∀ key x y, x ≤ y → cost key x ≤ cost key y) (h : (l.map Prod.fst).Nodup)
    (h' : (l'.map Prod.fst).Nodup) (hle : ∀ key, quantityOf l key ≤ quantityOf l' key) :
    (l.map fun o => cost o.1 o.2).sum ≤ (l'.map fun o => cost o.1 o.2).sum := by
  have hkeys : ∀ o ∈ l, o.1 ∈ (l.map Prod.fst ++ l'.map Prod.fst).toFinset := by
    intro o ho
    exact List.mem_toFinset.mpr (List.mem_append_left _ (List.mem_map_of_mem ho))
  have hkeys' : ∀ o ∈ l', o.1 ∈ (l.map Prod.fst ++ l'.map Prod.fst).toFinset := by
    intro o ho
    exact List.mem_toFinset.mpr (List.mem_append_right _ (List.mem_map_of_mem ho))
  rw [sum_cost_eq hzero h hkeys, sum_cost_eq hzero h' hkeys']
  apply Finset.sum_le_sum
  intro key _
  exact hmono key _ _ (hle key)

end

namespace Zyntry

/-! ## The calculation -/

/-- The numbers that `calculate` is given. -/
structure MeteredQuantities where
  inputTokens : ℤ := 0
  outputTokens : ℤ := 0
  cachedTokens : ℤ := 0
  embeddingTokens : ℤ := 0
  vectorSearches : ℤ := 0
  reranks : ℤ := 0
  storageBytes : ℤ := 0
  requests : ℤ := 1

def MeteredQuantities.operations (q : MeteredQuantities) : List (String × Decimal) :=
  [("input_tokens", q.inputTokens), ("output_tokens", q.outputTokens),
   ("cached_tokens", q.cachedTokens), ("embeddings", q.embeddingTokens),
   ("vector_search", q.vectorSearches), ("reranking", q.reranks),
   ("storage", q.storageBytes), ("invoke", q.requests)]

/-- A call of `calculate`. The rules of an operation are read when it is priced. -/
structure MeteredCall where
  provider : String
  model : Option String
  quantities : MeteredQuantities
  resourceComponents : List (String × Decimal) := []
  resourceComponents_nodup : (resourceComponents.map Prod.fst).Nodup
  clock : String → ℕ

/-- A call at one instant, without resource components. -/
def Quantities.toCall (q : Quantities) (provider : String) (model : Option String) (now : ℕ) :
    MeteredCall where
  provider := provider
  model := model
  quantities :=
    { inputTokens := q.inputTokens, outputTokens := q.outputTokens
      cachedTokens := q.cachedTokens, embeddingTokens := q.embeddingTokens
      vectorSearches := q.vectorSearches, reranks := q.reranks
      storageBytes := q.storageBytes, requests := q.requests }
  resourceComponents := []
  resourceComponents_nodup := List.nodup_nil
  clock := fun _ => now

structure PricedComponent where
  operation : String
  quantity : Decimal
  price : Price
deriving DecidableEq

/-- The price of a component before any rounding. -/
def PricedComponent.exactPrice (c : PricedComponent) : Decimal :=
  c.price.rule.pricePerUnit * c.quantity * (1 + c.price.rule.markup)

namespace MeteredCall

variable (call : MeteredCall) (d : Db)

def component (o : String × Decimal) : Option PricedComponent :=
  (d.price call.provider call.model o.1 o.2 (call.clock o.1)).map fun p => ⟨o.1, o.2, p⟩

def addBuiltin (components : List PricedComponent) (o : String × Decimal) :
    List PricedComponent :=
  if o.2 ≤ 0 then components else components ++ (call.component d o).toList

/-- A resource component under a name that has been priced already is left out. -/
def addResource (components : List PricedComponent) (o : String × Decimal) :
    List PricedComponent :=
  if o.2 ≤ 0 ∨ o.1 ∈ components.map PricedComponent.operation then components
  else components ++ (call.component d o).toList

def components : List PricedComponent :=
  call.resourceComponents.foldl (call.addResource d)
    (call.quantities.operations.foldl (call.addBuiltin d) [])

/-- `PricingService.calculate`; the components are returned with it. -/
def calculate : Breakdown :=
  let customerTotal := ((call.components d).map fun c => toDecimal c.price.customerCost).sum
  let providerTotal := ((call.components d).map fun c => toDecimal c.price.providerCost).sum
  { amount := money customerTotal
    providerCost := money providerTotal
    markup := money (customerTotal - providerTotal) }

/-- What `price` asks for an operation, and 0 where no rule prices it. -/
def price (operation : String) (quantity : Decimal) : ℤ :=
  ((d.price call.provider call.model operation quantity (call.clock operation)).map
    Price.customerCost).getD 0

def chargedQuantities : List (String × Decimal) :=
  call.quantities.operations ++ call.resourceComponents

/-- No resource component has the name of an operation that every request counts. -/
def Unshadowed : Prop :=
  ∀ o ∈ call.resourceComponents, o.1 ∉ call.quantities.operations.map Prod.fst

/-- The price before any rounding. -/
def exactPrice (o : String × Decimal) : Decimal :=
  if o.2 ≤ 0 then 0
  else ((d.priceRule call.provider call.model o.1 (call.clock o.1)).map fun r =>
    r.pricePerUnit * o.2 * (1 + r.markup)).getD 0

end MeteredCall

/-! ## One component -/

theorem le_money {value : Decimal} (h : 0 ≤ value) : value ≤ toDecimal (money value) := by
  unfold money toDecimal
  rw [if_pos h]
  have hceil := Int.le_ceil (value * 10000)
  linarith

theorem PricingRule.exact_le_customerCost {r : PricingRule} {quantity : Decimal}
    (hprice : 0 ≤ r.pricePerUnit) (hmarkup : 0 ≤ r.markup) (hquantity : 0 ≤ quantity) :
    r.pricePerUnit * quantity * (1 + r.markup) ≤ toDecimal (r.customerCost quantity) := by
  have hfactor : 0 ≤ 1 + r.markup := by linarith
  calc r.pricePerUnit * quantity * (1 + r.markup)
      ≤ toDecimal (money (r.pricePerUnit * quantity)) * (1 + r.markup) :=
        mul_le_mul_of_nonneg_right (le_money (mul_nonneg hprice hquantity)) hfactor
    _ ≤ toDecimal (r.customerCost quantity) :=
        le_money (mul_nonneg (providerCost_nonneg hprice hquantity) hfactor)

theorem PricingRule.providerCost_le {r : PricingRule} {quantity : Decimal}
    (hprice : 0 ≤ r.pricePerUnit) (hmarkup : 0 ≤ r.markup) (hquantity : 0 ≤ quantity) :
    money (r.pricePerUnit * quantity) ≤ r.customerCost quantity := by
  have hprovider := providerCost_nonneg hprice hquantity
  rw [← toDecimal_le]
  calc toDecimal (money (r.pricePerUnit * quantity))
      ≤ toDecimal (money (r.pricePerUnit * quantity)) * (1 + r.markup) :=
        le_mul_of_one_le_right hprovider (by linarith)
    _ ≤ toDecimal (r.customerCost quantity) :=
        le_money (mul_nonneg hprovider (by linarith))

namespace MeteredCall

variable {call : MeteredCall} {d : Db}

theorem price_of_nonpos {operation : String} {quantity : Decimal} (h : quantity ≤ 0) :
    call.price d operation quantity = 0 := by
  simp [price, Db.price_eq_rule, h]

theorem price_of_pos {operation : String} {quantity : Decimal} (h : 0 < quantity) :
    call.price d operation quantity =
      ((d.priceRule call.provider call.model operation (call.clock operation)).map
        fun r => r.customerCost quantity).getD 0 := by
  rw [price, Db.price_eq_rule, if_neg (not_le.mpr h), Option.map_map]
  rfl

section

variable (hsound : d.SoundPrices)

include hsound

theorem price_mono (operation : String) {x y : Decimal} (h : x ≤ y) :
    call.price d operation x ≤ call.price d operation y := by
  by_cases hy : y ≤ 0
  · rw [price_of_nonpos hy, price_of_nonpos (h.trans hy)]
  have hy := not_le.mp hy
  rw [price_of_pos hy]
  cases hr : d.priceRule call.provider call.model operation (call.clock operation) with
  | none =>
      by_cases hx : x ≤ 0
      · exact (price_of_nonpos hx).le
      · rw [price_of_pos (not_le.mp hx), hr]
        exact le_rfl
  | some r =>
      obtain ⟨hprice, hmarkup⟩ := hsound r (Db.priceRule_mem hr)
      by_cases hx : x ≤ 0
      · have hnonneg := PricingRule.customerCost_mono hprice hmarkup le_rfl hy.le
        rw [PricingRule.customerCost_zero] at hnonneg
        rw [price_of_nonpos hx]
        exact hnonneg
      · have hx := not_le.mp hx
        rw [price_of_pos hx, hr]
        exact PricingRule.customerCost_mono hprice hmarkup hx.le h

/-- Splitting a quantity never lowers its price. -/
theorem price_add_le (operation : String) {x y : Decimal} (hx : 0 ≤ x) (hy : 0 ≤ y) :
    call.price d operation (x + y) ≤ call.price d operation x + call.price d operation y := by
  obtain rfl | hx := hx.eq_or_lt
  · simp [price_of_nonpos]
  obtain rfl | hy := hy.eq_or_lt
  · simp [price_of_nonpos]
  rw [price_of_pos (add_pos hx hy), price_of_pos hx, price_of_pos hy]
  cases hr : d.priceRule call.provider call.model operation (call.clock operation) with
  | none => simp
  | some r =>
      obtain ⟨hprice, hmarkup⟩ := hsound r (Db.priceRule_mem hr)
      exact PricingRule.customerCost_add_le hprice hmarkup hx.le hy.le

theorem exactPrice_le (o : String × Decimal) :
    call.exactPrice d o ≤ toDecimal (call.price d o.1 o.2) := by
  by_cases ho : o.2 ≤ 0
  · simp [exactPrice, ho, price_of_nonpos ho, toDecimal]
  rw [exactPrice, if_neg ho, price_of_pos (not_le.mp ho)]
  cases hr : d.priceRule call.provider call.model o.1 (call.clock o.1) with
  | none => simp [toDecimal]
  | some r =>
      obtain ⟨hprice, hmarkup⟩ := hsound r (Db.priceRule_mem hr)
      exact PricingRule.exact_le_customerCost hprice hmarkup (not_le.mp ho).le

end

/-! ## All components -/

theorem component_of_nonpos {o : String × Decimal} (h : o.2 ≤ 0) : call.component d o = none := by
  simp [component, Db.price_eq_rule, h]

theorem component_eq_some {o : String × Decimal} {c : PricedComponent}
    (h : call.component d o = some c) : c.operation = o.1 ∧ 0 < c.quantity ∧
      c.price.customerCost = call.price d c.operation c.quantity ∧
      c.price.rule ∈ d.pricingRules ∧
      c.price.customerCost = c.price.rule.customerCost c.quantity ∧
      c.price.providerCost = money (c.price.rule.pricePerUnit * c.quantity) := by
  obtain ⟨p, hp, rfl⟩ := Option.map_eq_some_iff.mp h
  have hprice : call.price d o.1 o.2 = p.customerCost := by
    simp [price, hp]
  rw [Db.price_eq_rule] at hp
  split_ifs at hp with hquantity
  obtain ⟨r, hr, rfl⟩ := Option.map_eq_some_iff.mp hp
  exact ⟨rfl, not_le.mp hquantity, hprice.symm, Db.priceRule_mem hr, rfl, rfl⟩

theorem addBuiltin_eq (components : List PricedComponent) (o : String × Decimal) :
    call.addBuiltin d components o = components ++ (call.component d o).toList := by
  unfold addBuiltin
  split_ifs with ho
  · simp [component_of_nonpos ho]
  · rfl

theorem addResource_of_notMem {components : List PricedComponent} {o : String × Decimal}
    (h : o.1 ∉ components.map PricedComponent.operation) :
    call.addResource d components o = components ++ (call.component d o).toList := by
  unfold addResource
  simp only [h, or_false]
  split_ifs with ho
  · simp [component_of_nonpos ho]
  · rfl

theorem mem_addResource {components : List PricedComponent} {o : String × Decimal}
    {c : PricedComponent} (h : c ∈ call.addResource d components o) :
    c ∈ components ∨ call.component d o = some c := by
  unfold addResource at h
  split_ifs at h
  · exact .inl h
  · simpa using h

theorem foldl_addBuiltin (l : List (String × Decimal)) (components : List PricedComponent) :
    l.foldl (call.addBuiltin d) components = components ++ l.filterMap (call.component d) := by
  induction l generalizing components with
  | nil => simp
  | cons o l ih =>
      rw [List.foldl_cons, ih, addBuiltin_eq, List.filterMap_cons, List.append_assoc]
      cases call.component d o <;> rfl

theorem mem_foldl_addResource {l : List (String × Decimal)} {components : List PricedComponent}
    {c : PricedComponent} (h : c ∈ l.foldl (call.addResource d) components) :
    c ∈ components ∨ ∃ o ∈ l, call.component d o = some c := by
  induction l generalizing components with
  | nil => exact .inl h
  | cons o l ih =>
      obtain hmem | ⟨o', ho', hc⟩ := ih h
      · obtain hmem | hc := mem_addResource hmem
        · exact .inl hmem
        · exact .inr ⟨o, List.mem_cons_self, hc⟩
      · exact .inr ⟨o', List.mem_cons_of_mem _ ho', hc⟩

theorem component_of_mem {c : PricedComponent} (h : c ∈ call.components d) :
    ∃ o ∈ call.chargedQuantities, call.component d o = some c := by
  obtain hbuiltin | ⟨o, ho, hc⟩ := mem_foldl_addResource h
  · rw [foldl_addBuiltin, List.nil_append] at hbuiltin
    obtain ⟨o, ho, hc⟩ := List.mem_filterMap.mp hbuiltin
    exact ⟨o, List.mem_append_left _ ho, hc⟩
  · exact ⟨o, List.mem_append_right _ ho, hc⟩

theorem operation_mem_of_filterMap {l : List (String × Decimal)} {key : String}
    (h : key ∈ (l.filterMap (call.component d)).map PricedComponent.operation) :
    key ∈ l.map Prod.fst := by
  obtain ⟨c, hc, rfl⟩ := List.mem_map.mp h
  obtain ⟨o, ho, hoc⟩ := List.mem_filterMap.mp hc
  rw [(component_eq_some hoc).1]
  exact List.mem_map_of_mem ho

/-- Nothing is left out of resource components under new names. -/
theorem foldl_addResource {before l : List (String × Decimal)}
    (h : ((before ++ l).map Prod.fst).Nodup) :
    l.foldl (call.addResource d) (before.filterMap (call.component d)) =
      (before ++ l).filterMap (call.component d) := by
  induction l generalizing before with
  | nil => simp
  | cons o l ih =>
      have hfresh : o.1 ∉ (before.filterMap (call.component d)).map
          PricedComponent.operation := by
        intro hmem
        have hbefore := operation_mem_of_filterMap hmem
        rw [List.map_append, List.map_cons] at h
        exact (List.nodup_append.mp h).2.2 _ hbefore _ List.mem_cons_self rfl
      have hsplit : before ++ o :: l = (before ++ [o]) ++ l := by simp
      have hadded : before.filterMap (call.component d) ++ (call.component d o).toList =
          (before ++ [o]).filterMap (call.component d) := by
        rw [List.filterMap_append]
        cases hc : call.component d o <;> simp [hc]
      rw [List.foldl_cons, addResource_of_notMem hfresh, hadded, hsplit]
      rw [hsplit] at h
      exact ih h

theorem operations_nodup (q : MeteredQuantities) : (q.operations.map Prod.fst).Nodup := by
  simp only [MeteredQuantities.operations, List.map_cons, List.map_nil]
  decide

theorem chargedQuantities_nodup (h : call.Unshadowed) :
    (call.chargedQuantities.map Prod.fst).Nodup := by
  rw [chargedQuantities, List.map_append, List.nodup_append]
  refine ⟨operations_nodup _, call.resourceComponents_nodup, ?_⟩
  intro key hkey key' hkey' heq
  obtain ⟨o, ho, rfl⟩ := List.mem_map.mp hkey'
  exact h o ho (heq ▸ hkey)

theorem components_of_unshadowed (h : call.Unshadowed) :
    call.components d = call.chargedQuantities.filterMap (call.component d) := by
  rw [components, foldl_addBuiltin, List.nil_append]
  exact foldl_addResource (chargedQuantities_nodup h)

theorem calculate_amount (call : MeteredCall) (d : Db) :
    (call.calculate d).amount = ((call.components d).map fun c => c.price.customerCost).sum := by
  have hsum := sum_toDecimal ((call.components d).map fun c => c.price.customerCost)
  rw [List.map_map] at hsum
  exact (congrArg money hsum).trans (money_toDecimal _)

theorem calculate_providerCost (call : MeteredCall) (d : Db) :
    (call.calculate d).providerCost =
      ((call.components d).map fun c => c.price.providerCost).sum := by
  have hsum := sum_toDecimal ((call.components d).map fun c => c.price.providerCost)
  rw [List.map_map] at hsum
  exact (congrArg money hsum).trans (money_toDecimal _)

theorem calculate_markup (call : MeteredCall) (d : Db) :
    (call.calculate d).markup = (call.calculate d).amount - (call.calculate d).providerCost := by
  have hcustomer := sum_toDecimal ((call.components d).map fun c => c.price.customerCost)
  have hprovider := sum_toDecimal ((call.components d).map fun c => c.price.providerCost)
  rw [List.map_map] at hcustomer hprovider
  have hsub : ∀ m n : ℤ, toDecimal m - toDecimal n = toDecimal (m - n) := by
    intro m n
    have hadd := toDecimal_add (m - n) n
    rw [sub_add_cancel] at hadd
    linarith
  rw [calculate_amount, calculate_providerCost]
  calc (call.calculate d).markup
      = money (toDecimal _ - toDecimal _) := congrArg money (congrArg₂ (· - ·) hcustomer hprovider)
    _ = _ := by rw [hsub, money_toDecimal]

theorem calculate_amount_of_unshadowed (h : call.Unshadowed) :
    (call.calculate d).amount =
      (call.chargedQuantities.map fun o => call.price d o.1 o.2).sum := by
  rw [calculate_amount, components_of_unshadowed h]
  induction call.chargedQuantities with
  | nil => rfl
  | cons o l ih =>
      rw [List.map_cons, List.sum_cons, List.filterMap_cons, ← ih]
      cases hc : call.component d o with
      | none =>
          have hnone := Option.map_eq_none_iff.mp hc
          simp [price, hnone]
      | some c =>
          obtain ⟨p, hp, rfl⟩ := Option.map_eq_some_iff.mp hc
          simp [price, hp]

/-- Without resource components, and at one instant, the amount is the one of an invocation. -/
theorem calculate_toCall (q : Quantities) (provider : String) (model : Option String) (now : ℕ)
    (d : Db) : ((q.toCall provider model now).calculate d).amount =
      (d.calculate provider model q now).amount := by
  have hunshadowed : (q.toCall provider model now).Unshadowed := by
    intro o ho
    cases ho
  rw [calculate_amount_of_unshadowed hunshadowed, Db.calculate_amount]
  simp only [chargedQuantities, MeteredQuantities.operations, Quantities.operations,
    Quantities.toCall, List.append_nil, List.map_cons, List.map_nil, price, ← Db.price_eq,
    Int.cast_natCast]

section

variable (hsound : d.SoundPrices)

include hsound

theorem component_costs {c : PricedComponent} (h : c ∈ call.components d) :
    c.price.providerCost ≤ c.price.customerCost ∧
      c.exactPrice ≤ toDecimal c.price.customerCost := by
  obtain ⟨o, -, hc⟩ := component_of_mem h
  obtain ⟨-, hquantity, -, hrule, hcustomer, hprovider⟩ := component_eq_some hc
  obtain ⟨hprice, hmarkup⟩ := hsound _ hrule
  rw [hcustomer, hprovider]
  exact ⟨PricingRule.providerCost_le hprice hmarkup hquantity.le,
    PricingRule.exact_le_customerCost hprice hmarkup hquantity.le⟩

theorem providerCost_le_amount (call : MeteredCall) :
    (call.calculate d).providerCost ≤ (call.calculate d).amount := by
  rw [calculate_amount, calculate_providerCost]
  apply List.sum_le_sum
  intro c hc
  exact (component_costs hsound hc).1

theorem sum_exactPrice_le (l : List (String × Decimal)) :
    (l.map (call.exactPrice d)).sum ≤
      toDecimal (l.map fun o => call.price d o.1 o.2).sum := by
  rw [← sum_toDecimal, List.map_map]
  apply List.sum_le_sum
  intro o _
  exact exactPrice_le hsound o

/-- Quantities are compared name by name, and a missing one counts nothing. -/
theorem calculate_mono {call call' : MeteredCall} (hprovider : call'.provider = call.provider)
    (hmodel : call'.model = call.model) (hclock : call'.clock = call.clock)
    (h : call.Unshadowed) (h' : call'.Unshadowed)
    (hle : ∀ operation, quantityOf call.chargedQuantities operation ≤
      quantityOf call'.chargedQuantities operation) :
    (call.calculate d).amount ≤ (call'.calculate d).amount := by
  rw [calculate_amount_of_unshadowed h, calculate_amount_of_unshadowed h']
  have hprice : call'.price d = call.price d := by
    unfold price
    rw [hprovider, hmodel, hclock]
  rw [hprice]
  exact sum_cost_mono (fun operation => price_of_nonpos le_rfl)
    (fun operation x y hxy => price_mono hsound operation hxy) (chargedQuantities_nodup h)
    (chargedQuantities_nodup h') hle

/-- The amount is the sum of its components, of the provider's part and of a markup, and not less
than the price before any rounding; it grows with every quantity that is not shadowed, and
splitting a quantity never lowers its price. -/
theorem calculate_of_soundPrices :
    (∀ call : MeteredCall,
      (call.calculate d).amount =
          ((call.components d).map fun c => c.price.customerCost).sum ∧
        (call.calculate d).amount = (call.calculate d).providerCost + (call.calculate d).markup ∧
        0 ≤ (call.calculate d).markup ∧
        ((call.components d).map PricedComponent.exactPrice).sum ≤
          toDecimal (call.calculate d).amount) ∧
      (∀ call : MeteredCall, call.Unshadowed →
        (call.chargedQuantities.map (call.exactPrice d)).sum ≤
          toDecimal (call.calculate d).amount) ∧
      (∀ call call' : MeteredCall, call'.provider = call.provider → call'.model = call.model →
        call'.clock = call.clock → call.Unshadowed → call'.Unshadowed →
        (∀ operation, quantityOf call.chargedQuantities operation ≤
          quantityOf call'.chargedQuantities operation) →
        (call.calculate d).amount ≤ (call'.calculate d).amount) ∧
      ∀ (call : MeteredCall) (operation : String) (a b : Decimal), 0 ≤ a → 0 ≤ b →
        call.price d operation (a + b) ≤ call.price d operation a + call.price d operation b := by
  refine ⟨?_, ?_, ?_, fun call operation a b ha hb => price_add_le hsound operation ha hb⟩
  · intro call
    have hmarkup := calculate_markup call d
    have hprovider := providerCost_le_amount hsound call
    refine ⟨calculate_amount call d, by omega, by omega, ?_⟩
    rw [calculate_amount, ← sum_toDecimal, List.map_map]
    apply List.sum_le_sum
    intro c hc
    exact (component_costs hsound hc).2
  · intro call hcall
    rw [calculate_amount_of_unshadowed hcall]
    exact sum_exactPrice_le hsound _
  · intro call call' hprovider hmodel hclock h h' hle
    exact calculate_mono hsound hprovider hmodel hclock h h' hle

end

end MeteredCall

/-! ## A shadowed resource component -/

def requestRule : PricingRule where
  id := ⟨"r"⟩
  provider := "*"
  operation := "invoke"
  model := none
  pricePerUnit := 1
  markup := 1 / 5
  effectiveFrom := 0
  effectiveUntil := none
  version := 1
  active := true
  createdAt := 0

theorem soundPrices_requestRule : Db.SoundPrices { pricingRules := [requestRule] } := by
  decide +kernel

theorem MeteredCall.calculate_of_soundPrices_requestRule :
    ((Quantities.toCall { requests := 1 } "platform" none 0).calculate
        { pricingRules := [requestRule] }).amount ≤
      ((Quantities.toCall { requests := 2 } "platform" none 0).calculate
        { pricingRules := [requestRule] }).amount := by
  refine (MeteredCall.calculate_of_soundPrices soundPrices_requestRule).2.2.1 _ _ rfl rfl rfl
    ?_ ?_ ?_
  · intro o ho
    cases ho
  · intro o ho
    cases ho
  · intro operation
    apply quantityOf_mono
    simp [MeteredCall.chargedQuantities, MeteredQuantities.operations, Quantities.toCall]

/-- Ten units of a resource that is named like the charge for a request. -/
def tenInvocations (requests : ℤ) : MeteredCall where
  provider := "platform"
  model := none
  quantities := { requests }
  resourceComponents := [("invoke", 10)]
  resourceComponents_nodup := by simp
  clock := fun _ => 0

/-- The request itself is charged in their place. -/
theorem calculate_drops_with_requests :
    ∃ d : Db, d.SoundPrices ∧ (tenInvocations 0).quantities.requests ≤
        (tenInvocations 1).quantities.requests ∧
      ((tenInvocations 1).calculate d).amount < ((tenInvocations 0).calculate d).amount := by
  refine ⟨{ pricingRules := [requestRule] }, soundPrices_requestRule, by decide, ?_⟩
  decide +kernel

end Zyntry
