import Zyntry.CallCosts
import Zyntry.SortedScans

/-!
# Which pricing rule is used

Rules are ordered by their model, their version and their age, but not by their provider. A rule
for every provider therefore goes before one that names the provider if it has a higher version,
or the same version and a later creation.
-/

namespace Zyntry

open SortedScans

/-- A rule for an operation of a provider, for the model or for every model. -/
def PricingRule.Applies (r : PricingRule) (provider : String) (model : Option String)
    (operation : String) (now : ℕ) : Prop :=
  (r.provider = provider ∨ r.provider = "*") ∧ r.operation = operation ∧
    r.inEffect now = true ∧ (r.model = model ∨ r.model = none)

instance (r : PricingRule) (provider : String) (model : Option String) (operation : String)
    (now : ℕ) : Decidable (r.Applies provider model operation now) := by
  unfold PricingRule.Applies
  infer_instance

/-- Among the rules for the same model, a rule that names the provider is preferred, and then
a higher version. -/
def PricingRule.Preferred (rule other : PricingRule) (provider : String) : Prop :=
  other.model = rule.model →
    (other.provider = provider → rule.provider = provider) ∧
      ((other.provider = provider ↔ rule.provider = provider) → other.version ≤ rule.version)

/-- A quantity to which rules apply is priced with one of them that is preferred to the others. -/
def Db.UsesPreferred (d : Db) (provider : String) (model : Option String) (operation : String)
    (quantity : Decimal) (now : ℕ) : Prop :=
  0 < quantity → ∀ other ∈ d.pricingRules, other.Applies provider model operation now →
    ∃ price, d.price provider model operation quantity now = some price ∧
      price.rule ∈ d.pricingRules ∧ price.rule.Applies provider model operation now ∧
      price.rule.Preferred other provider

/-- The rules that apply and are for the model, or for every model if there are none for it. -/
def Db.mostSpecific (d : Db) (provider : String) (model : Option String) (operation : String)
    (now : ℕ) : List PricingRule :=
  let applying := d.pricingRules.filter fun r => r.Applies provider model operation now
  if applying.any (·.model = model) then applying.filter (·.model = model) else applying

/-- Some rule that names the provider goes before every rule that does not; on a tie it stands
before it in the table. -/
def LeadsWildcards (provider : String) (rules : List PricingRule) : Prop :=
  ∃ ahead rule behind, rules = ahead ++ rule :: behind ∧ rule.provider = provider ∧
    (∀ w ∈ ahead, w.provider ≠ provider → ¬ w.before rule) ∧
    ∀ w ∈ behind, w.provider ≠ provider → rule.before w

/-! ## The order of the rules -/

theorem PricingRule.before_of_same_model {r r' : PricingRule} (h : r.model = r'.model) :
    r.before r' ↔ r'.version < r.version ∨ (r.version = r'.version ∧ r'.createdAt ≤ r.createdAt) := by
  unfold before
  simp only [h, ne_eq, not_true_eq_false, if_false]
  by_cases hversion : r.version = r'.version
  · simp [hversion]
  · simp [hversion]

instance : Std.Total PricingRule.before where
  total r r' := by
    unfold PricingRule.before
    cases r.model with
    | none => cases r'.model <;> simp only [Option.isNone_none, Option.isNone_some] <;> grind
    | some m => cases r'.model <;> simp only [Option.isNone_none, Option.isNone_some] <;> grind

instance : IsTrans PricingRule PricingRule.before where
  trans r r' r'' h h' := by
    unfold PricingRule.before at *
    grind

/-! ## The rule of a price -/

section

variable {d : Db} {provider operation : String} {model : Option String} {quantity : Decimal}
  {now : ℕ}

theorem Db.mem_mostSpecific {r : PricingRule} (h : r ∈ d.mostSpecific provider model operation now) :
    r ∈ d.pricingRules ∧ r.Applies provider model operation now := by
  unfold Db.mostSpecific at h
  dsimp only at h
  split_ifs at h
  · exact ⟨(List.mem_filter.mp (List.mem_of_mem_filter h)).1,
      of_decide_eq_true (List.mem_filter.mp (List.mem_of_mem_filter h)).2⟩
  · exact ⟨(List.mem_filter.mp h).1, of_decide_eq_true (List.mem_filter.mp h).2⟩

theorem Db.mem_rules {r : PricingRule} (hmodel : r.model = model ∨ r.model = none) :
    r ∈ d.rules provider operation model now ↔
      r ∈ d.pricingRules ∧ r.Applies provider model operation now := by
  rw [Db.rules, List.mem_insertionSort, List.mem_filter]
  simp only [PricingRule.Applies, decide_eq_true_eq, hmodel, or_true, and_true]

/-- The two scans for a rule are one scan for a rule of the model that has one. -/
theorem Db.exists_scanned_model (d : Db) (provider : String) (model : Option String)
    (operation : String) (now : ℕ) : ∃ m, (m = model ∨ m = none) ∧
      d.priceRule provider model operation now =
        (d.rules provider operation model now).find? (fun r => r.model = m) ∧
      d.mostSpecific provider model operation now =
        (d.pricingRules.filter fun r => r.Applies provider model operation now).filter
          (fun r => r.model = m) := by
  unfold Db.priceRule Db.mostSpecific
  dsimp only
  split_ifs with hany
  · obtain ⟨r, hr, hmodel⟩ := List.any_eq_true.mp hany
    obtain ⟨hmem, happlies⟩ := List.mem_filter.mp hr
    have hmodel := of_decide_eq_true hmodel
    have hrules := (Db.mem_rules (.inl hmodel)).mpr ⟨hmem, of_decide_eq_true happlies⟩
    have hsome : ((d.rules provider operation model now).find? (fun r => r.model = model)).isSome :=
      List.find?_isSome.mpr ⟨r, hrules, decide_eq_true hmodel⟩
    obtain ⟨found, hfound⟩ := Option.isSome_iff_exists.mp hsome
    exact ⟨model, .inl rfl, by rw [hfound, Option.some_or], rfl⟩
  · have hother : ∀ r ∈ d.pricingRules, r.Applies provider model operation now →
        r.model ≠ model := by
      intro r hr happlies hmodel
      exact hany (List.any_eq_true.mpr
        ⟨r, List.mem_filter.mpr ⟨hr, decide_eq_true happlies⟩, decide_eq_true hmodel⟩)
    have hnone : (d.rules provider operation model now).find? (fun r => r.model = model) = none := by
      rw [List.find?_eq_none]
      intro r hr hmodel
      have hmodel := of_decide_eq_true hmodel
      obtain ⟨hmem, happlies⟩ := (Db.mem_rules (.inl hmodel)).mp hr
      exact hother r hmem happlies hmodel
    refine ⟨none, .inr rfl, by rw [hnone, Option.none_or], ?_⟩
    rw [eq_comm, List.filter_eq_self]
    intro r hr
    obtain ⟨hmem, happlies⟩ := List.mem_filter.mp hr
    have happlies := of_decide_eq_true happlies
    exact decide_eq_true (happlies.2.2.2.resolve_left (hother r hmem happlies))

theorem Db.mostSpecific_model {r r' : PricingRule}
    (h : r ∈ d.mostSpecific provider model operation now)
    (h' : r' ∈ d.mostSpecific provider model operation now) : r.model = r'.model := by
  obtain ⟨m, -, -, hspecific⟩ := d.exists_scanned_model provider model operation now
  rw [hspecific] at h h'
  rw [of_decide_eq_true (List.mem_filter.mp h).2, of_decide_eq_true (List.mem_filter.mp h').2]

/-- The rule of a price goes before the other rules for its model. -/
theorem Db.priceRule_splits {r : PricingRule}
    (h : d.priceRule provider model operation now = some r) :
    ∃ ahead behind, d.mostSpecific provider model operation now = ahead ++ r :: behind ∧
      (∀ y ∈ ahead, ¬ y.before r) ∧ ∀ y ∈ behind, r.before y := by
  obtain ⟨m, hm, hscan, hspecific⟩ := d.exists_scanned_model provider model operation now
  rw [hscan] at h
  obtain ⟨ahead, behind, hrows, hr, hahead, hbehind⟩ := firstMatch_of_find? h
  have hfilter : d.mostSpecific provider model operation now =
      (ahead ++ r :: behind).filter (fun r => r.model = m) := by
    rw [hspecific, ← hrows, List.filter_filter, List.filter_filter]
    apply List.filter_congr
    intro r _
    by_cases hmodel : r.model = m
    · simp only [PricingRule.Applies, hmodel, hm, decide_true, Bool.true_and, or_true, and_true]
    · simp [hmodel]
  refine ⟨ahead.filter (fun r => r.model = m), behind.filter (fun r => r.model = m), ?_, ?_, ?_⟩
  · rw [hfilter, List.filter_append, List.filter_cons, if_pos hr]
  · intro y hy
    obtain ⟨hmem, hy⟩ := List.mem_filter.mp hy
    exact hahead y hmem hy
  · intro y hy
    obtain ⟨hmem, hy⟩ := List.mem_filter.mp hy
    exact hbehind y hmem hy

theorem Db.mostSpecific_ne_nil {r : PricingRule} (hr : r ∈ d.pricingRules)
    (h : r.Applies provider model operation now) :
    d.mostSpecific provider model operation now ≠ [] := by
  have hmem : r ∈ d.pricingRules.filter fun r => r.Applies provider model operation now :=
    List.mem_filter.mpr ⟨hr, decide_eq_true h⟩
  unfold Db.mostSpecific
  dsimp only
  split_ifs with hany
  · obtain ⟨r', hr', hmodel⟩ := List.any_eq_true.mp hany
    exact List.ne_nil_of_mem (List.mem_filter.mpr ⟨hr', hmodel⟩)
  · exact List.ne_nil_of_mem hmem

theorem Db.exists_priceRule (h : d.mostSpecific provider model operation now ≠ []) :
    ∃ r, d.priceRule provider model operation now = some r := by
  obtain ⟨m, hm, hscan, hspecific⟩ := d.exists_scanned_model provider model operation now
  obtain ⟨r, hr⟩ := List.exists_mem_of_ne_nil _ h
  obtain ⟨hmem, happlies⟩ := Db.mem_mostSpecific hr
  rw [hspecific] at hr
  have hmodel := of_decide_eq_true (List.mem_filter.mp hr).2
  have hrules := (Db.mem_rules (hmodel ▸ hm)).mpr ⟨hmem, happlies⟩
  rw [hscan]
  exact Option.isSome_iff_exists.mp
    (List.find?_isSome.mpr ⟨r, hrules, decide_eq_true hmodel⟩)

/-- Every rule for the model of a chosen rule is among the most specific ones. -/
theorem Db.mem_mostSpecific_of_same_model {r other : PricingRule}
    (hr : r ∈ d.mostSpecific provider model operation now) (hother : other ∈ d.pricingRules)
    (happlies : other.Applies provider model operation now) (h : other.model = r.model) :
    other ∈ d.mostSpecific provider model operation now := by
  obtain ⟨m, -, -, hspecific⟩ := d.exists_scanned_model provider model operation now
  rw [hspecific] at hr ⊢
  have hmodel := of_decide_eq_true (List.mem_filter.mp hr).2
  exact List.mem_filter.mpr ⟨List.mem_filter.mpr ⟨hother, decide_eq_true happlies⟩,
    decide_eq_true (h.trans hmodel)⟩

theorem Db.price_of_pos (h : 0 < quantity) : d.price provider model operation quantity now =
    (d.priceRule provider model operation now).map fun r =>
      ⟨r.customerCost quantity, money (r.pricePerUnit * quantity), r⟩ := by
  rw [Db.price_eq_rule, if_neg (not_le.mpr h)]

theorem PricingRule.version_le_of_splits {rules ahead behind : List PricingRule}
    {r other : PricingRule} (hrules : rules = ahead ++ r :: behind)
    (hahead : ∀ y ∈ ahead, ¬ y.before r) (hbehind : ∀ y ∈ behind, r.before y)
    (hother : other ∈ rules) (hmodel : other.model = r.model) : other.version ≤ r.version := by
  rw [hrules, List.mem_append, List.mem_cons] at hother
  obtain hmem | rfl | hmem := hother
  · have hbefore := hahead other hmem
    rw [before_of_same_model hmodel] at hbefore
    omega
  · exact le_rfl
  · have hbefore := hbehind other hmem
    rw [before_of_same_model hmodel.symm] at hbefore
    omega

/-- A leading rule cannot come after a rule that goes before all others. -/
theorem provider_of_leadsWildcards {rules ahead behind : List PricingRule} {r : PricingRule}
    (h : LeadsWildcards provider rules) (hrules : rules = ahead ++ r :: behind)
    (hahead : ∀ y ∈ ahead, ¬ y.before r) (hbehind : ∀ y ∈ behind, r.before y) :
    r.provider = provider := by
  obtain ⟨ahead', leading, behind', hrules', hleading, hahead', hbehind'⟩ := h
  by_contra hr
  obtain rfl | ⟨hmem, hmem'⟩ | ⟨hmem, hmem'⟩ := positions hrules' hrules
  · exact hr hleading
  · exact hahead leading hmem' (hbehind' r hmem hr)
  · exact hahead' r hmem hr (hbehind leading hmem')

/-- The rule that names the provider is used exactly if there is none among the most specific
rules, or it leads the wildcards there. -/
theorem Db.usesPreferred_iff (d : Db) (provider : String) (model : Option String)
    (operation : String) (quantity : Decimal) (now : ℕ) :
    d.UsesPreferred provider model operation quantity now ↔
      quantity ≤ 0 ∨
        (∀ r ∈ d.mostSpecific provider model operation now, r.provider ≠ provider) ∨
        LeadsWildcards provider (d.mostSpecific provider model operation now) := by
  by_cases hquantity : quantity ≤ 0
  · exact ⟨fun _ => .inl hquantity, fun _ h => absurd hquantity (not_le.mpr h)⟩
  have hpos := not_le.mp hquantity
  simp only [hquantity, false_or]
  constructor
  · intro h
    by_cases hnamed : ∀ r ∈ d.mostSpecific provider model operation now, r.provider ≠ provider
    · exact .inl hnamed
    push Not at hnamed
    obtain ⟨named, hmem, hprovider⟩ := hnamed
    obtain ⟨hnamed, happlies⟩ := Db.mem_mostSpecific hmem
    obtain ⟨price, hprice, -, -, hpreferred⟩ := h hpos named hnamed happlies
    rw [Db.price_of_pos hpos] at hprice
    obtain ⟨r, hr, rfl⟩ := Option.map_eq_some_iff.mp hprice
    obtain ⟨ahead, behind, hsplit, hahead, hbehind⟩ := Db.priceRule_splits hr
    have hrmem : r ∈ d.mostSpecific provider model operation now := by
      rw [hsplit]
      exact List.mem_append_right _ List.mem_cons_self
    exact .inr ⟨ahead, r, behind, hsplit,
      (hpreferred (Db.mostSpecific_model hmem hrmem)).1 hprovider,
      fun w hw _ => hahead w hw, fun w hw _ => hbehind w hw⟩
  · intro h _ other hother happlies
    obtain ⟨r, hr⟩ := Db.exists_priceRule (Db.mostSpecific_ne_nil hother happlies)
    obtain ⟨ahead, behind, hsplit, hahead, hbehind⟩ := Db.priceRule_splits hr
    have hrmem : r ∈ d.mostSpecific provider model operation now := by
      rw [hsplit]
      exact List.mem_append_right _ List.mem_cons_self
    obtain ⟨hrule, hrapplies⟩ := Db.mem_mostSpecific hrmem
    refine ⟨_, by rw [Db.price_of_pos hpos, hr, Option.map_some], hrule, hrapplies, ?_⟩
    intro hmodel
    have hothermem := Db.mem_mostSpecific_of_same_model hrmem hother happlies hmodel
    constructor
    · intro hprovider
      obtain hnone | hleads := h
      · exact absurd hprovider (hnone other hothermem)
      · exact provider_of_leadsWildcards hleads hsplit hahead hbehind
    · intro _
      exact PricingRule.version_le_of_splits hsplit hahead hbehind hothermem hmodel

end

/-! ## A newer rule for every provider -/

def rerankRule (provider : String) (version : ℤ) : PricingRule where
  id := ⟨provider⟩
  provider
  operation := "reranking"
  model := none
  pricePerUnit := 2 / 100000
  markup := 1 / 5
  effectiveFrom := 0
  effectiveUntil := none
  version
  active := true
  createdAt := 0

/-- The rule of the provider is not used once the wildcard has a second version. -/
theorem not_usesPreferred_rerankRule :
    ¬ Db.UsesPreferred { pricingRules := [rerankRule "openai" 1, rerankRule "*" 2] } "openai"
      (some "gpt-4o") "reranking" 5 1 := by
  intro h
  have hused : (Db.price { pricingRules := [rerankRule "openai" 1, rerankRule "*" 2] } "openai"
      (some "gpt-4o") "reranking" 5 1).map (fun p => (p.rule.model, p.rule.provider)) =
        some (none, "*") := by
    decide +kernel
  obtain ⟨price, hprice, -, -, hpreferred⟩ :=
    h (by norm_num) (rerankRule "openai" 1) List.mem_cons_self (by decide)
  rw [hprice, Option.map_some, Option.some.injEq, Prod.mk.injEq] at hused
  have hprovider := (hpreferred hused.1.symm).1 rfl
  rw [hused.2] at hprovider
  exact absurd hprovider (by decide)

end Zyntry
