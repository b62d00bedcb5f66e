import Zyntry.BillingModel
import Mathlib.Data.List.Sort

/-!
# Prices

The versioned pricing rules, and the public token rates of a model that are
charged where the rules give nothing.
-/

namespace Zyntry

/-! ## Pricing rules -/

def PricingRule.inEffect (r : PricingRule) (now : ℕ) : Bool :=
  r.active ∧ r.effectiveFrom ≤ now ∧ ∀ until_ ∈ r.effectiveUntil, now < until_

/-- `ORDER BY model IS NULL, version DESC, created_at DESC`. -/
def PricingRule.before (r r' : PricingRule) : Prop :=
  if r.model.isNone ≠ r'.model.isNone then r'.model.isNone
  else if r.version ≠ r'.version then r'.version < r.version
  else r'.createdAt ≤ r.createdAt

instance (r r' : PricingRule) : Decidable (r.before r') := by
  unfold PricingRule.before
  infer_instance

/-- `PricingService.rules`. -/
def Db.rules (d : Db) (provider operation : String) (model : Option String) (now : ℕ) :
    List PricingRule :=
  (d.pricingRules.filter (fun r =>
    (r.provider = provider ∨ r.provider = "*") ∧ r.operation = operation ∧ r.inEffect now ∧
      (model = none ∨ r.model = model ∨ r.model = none))).insertionSort PricingRule.before

structure Price where
  customerCost : ℤ
  providerCost : ℤ
  rule : PricingRule
deriving DecidableEq, Repr

/-- `PricingService.price`; `none` stands for the price 0 without a rule. -/
def Db.price (d : Db) (provider : String) (model : Option String) (operation : String)
    (quantity : Decimal) (now : ℕ) : Option Price :=
  let rules := d.rules provider operation model now
  match (rules.find? (fun r => r.model = model)).or (rules.find? (fun r => r.model = none)) with
  | none => none
  | some rule =>
      if quantity ≤ 0 then none
      else
        let providerCost := money (rule.pricePerUnit * quantity)
        some
          { customerCost := money (toDecimal providerCost * (1 + rule.markup))
            providerCost
            rule }

/-- What one request consumed. -/
structure Quantities where
  inputTokens : ℕ := 0
  outputTokens : ℕ := 0
  cachedTokens : ℕ := 0
  embeddingTokens : ℕ := 0
  vectorSearches : ℕ := 0
  reranks : ℕ := 0
  storageBytes : ℕ := 0
  requests : ℕ := 1
deriving DecidableEq, Repr

def Quantities.operations (q : Quantities) : List (String × ℕ) :=
  [("input_tokens", q.inputTokens), ("output_tokens", q.outputTokens),
   ("cached_tokens", q.cachedTokens), ("embeddings", q.embeddingTokens),
   ("vector_search", q.vectorSearches), ("reranking", q.reranks),
   ("storage", q.storageBytes), ("invoke", q.requests)]

structure Breakdown where
  amount : ℤ
  providerCost : ℤ
  markup : ℤ
deriving DecidableEq, Repr

/-- `PricingService.calculate`, without the resource components that only other
callers pass. -/
def Db.calculate (d : Db) (provider : String) (model : Option String) (q : Quantities)
    (now : ℕ) : Breakdown :=
  let components := q.operations.filterMap (fun o => d.price provider model o.1 o.2 now)
  let customerTotal := (components.map (fun c => toDecimal c.customerCost)).sum
  let providerTotal := (components.map (fun c => toDecimal c.providerCost)).sum
  { amount := money customerTotal
    providerCost := money providerTotal
    markup := money (customerTotal - providerTotal) }

/-! ## Catalogue rates -/

/-- Prices for a thousand tokens; a model without a price has the rate 0. -/
structure Rates where
  inputPricePer1k : Decimal := 0
  outputPricePer1k : Decimal := 0
deriving DecidableEq, Repr

def Rates.cost (r : Rates) (inputTokens outputTokens : ℕ) : Decimal :=
  r.inputPricePer1k * inputTokens / 1000 + r.outputPricePer1k * outputTokens / 1000

/-- `catalog_token_cost`. -/
def catalogTokenCost (rates : Option Rates) (inputTokens outputTokens : ℕ) : Decimal :=
  match rates with
  | none => 0
  | some r =>
      let cost := r.cost inputTokens outputTokens
      if 0 < cost then max cost (1 / 10000) else 0

theorem catalogTokenCost_nonneg (rates : Option Rates) (inputTokens outputTokens : ℕ) :
    0 ≤ catalogTokenCost rates inputTokens outputTokens := by
  unfold catalogTokenCost
  split
  · exact le_rfl
  · dsimp only
    split_ifs with hcost
    · exact hcost.le.trans (le_max_left _ _)
    · exact le_rfl

end Zyntry
