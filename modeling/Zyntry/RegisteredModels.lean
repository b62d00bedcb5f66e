import Zyntry.ContextManager
import Zyntry.Pricing

/-!
# Names of registered models

A model string is looked up in three stages, and each of them takes the first entry of the
registry that matches. Identifiers are prefixes of one another, so the first match need not be
the longest one.
-/

namespace Zyntry

open Python

/-- An entry of the registry, whose metadata are copied and not looked at. -/
structure RegistryEntry (M : Type) where
  id : String
  provider : String
  metadata : M
deriving DecidableEq

variable {M : Type}

/-- `provider.strip().lower()`, unless it is empty. -/
def normalizedProvider (provider : Option String) : Option String :=
  nonEmpty ((nonEmpty provider).map fun p => lower (stripped p))

def normalizedModel (model : String) : String := lower (stripped model)

namespace RegistryEntry

def isExact (item : RegistryEntry M) (provider model : String) : Bool :=
  item.provider = provider ∧ lower item.id = model

def isFamily (item : RegistryEntry M) (provider : Option String) (model : String) : Bool :=
  provider.all (· = item.provider) ∧
    (model = lower item.id ∨ startsWith model (lower item.id ++ "-"))

def isUpstream (item : RegistryEntry M) (model : String) : Bool :=
  model = lower item.id ∨ isInfix (lower item.id) model

/-- The entry under the name that was asked for. -/
def renamed (item : RegistryEntry M) (provider : Option String) (model : String) :
    RegistryEntry M :=
  { item with id := model, provider := provider.getD item.provider }

end RegistryEntry

/-- `get_registered_model`, over any registry. -/
def resolveModel (models : List (RegistryEntry M)) (provider model : Option String) :
    Option (RegistryEntry M) := do
  let model ← nonEmpty model
  -- the dictionary of the identifiers keeps the last entry of a key
  let exact := (normalizedProvider provider).bind fun p =>
    models.reverse.find? fun item => item.isExact p (normalizedModel model)
  let family := models.find? fun item =>
    item.isFamily (normalizedProvider provider) (normalizedModel model)
  let upstream := models.find? fun item => item.isUpstream (normalizedModel model)
  (exact.or family).or (upstream.map fun item => item.renamed (normalizedProvider provider) model)

/-! ## The order in which entries are tried -/

/-- The entries that match a model string: its own, those of which it is a variant and those
whose identifier it contains. -/
def matchesOf (models : List (RegistryEntry M)) (model : String) : List (RegistryEntry M) :=
  models.filter fun item => item.isUpstream (normalizedModel model)

/-- Identifiers are compared in lower case. -/
def RegistryEntry.IsLongest (item : RegistryEntry M) (models : List (RegistryEntry M))
    (model : String) : Prop :=
  item ∈ matchesOf models model ∧
    ∀ other ∈ matchesOf models model, (lower other.id).length ≤ (lower item.id).length

/-- What is looked at for a model string, in this order: the identifier itself, its family among
the models of the provider, every match. -/
def triedEntries (models : List (RegistryEntry M)) (provider : Option String) (model : String) :
    List (RegistryEntry M) :=
  ((normalizedProvider provider).elim [] fun p =>
      models.reverse.filter fun item => item.isExact p (normalizedModel model)) ++
    (models.filter fun item =>
      item.isFamily (normalizedProvider provider) (normalizedModel model)) ++
    matchesOf models model

/-- A longest match is tried first, or nothing is lost because the entry that is has the same
metadata. -/
def LongestFirst (models : List (RegistryEntry M)) (provider : Option String) (model : String) :
    Prop :=
  ∀ first ∈ (triedEntries models provider model).head?,
    ∃ item : RegistryEntry M, item.IsLongest models model ∧ item.metadata = first.metadata

/-- A model string that matches has the metadata of a longest match. -/
def ResolvesToLongest (models : List (RegistryEntry M)) (provider : Option String)
    (model : String) : Prop :=
  model ≠ "" → matchesOf models model ≠ [] →
    ∃ found, resolveModel models provider (some model) = some found ∧
      ∃ item : RegistryEntry M, item.IsLongest models model ∧ item.metadata = found.metadata

theorem nonEmpty_some {text : String} (h : text ≠ "") : nonEmpty (some text) = some text := by
  simp [nonEmpty, h]

theorem isInfix_of_startsWith {text start : String} (h : startsWith text start = true) :
    isInfix start text = true := by
  rw [isInfix, List.any_eq_true]
  exact ⟨text.toList, (List.mem_tails _ _).mpr (List.suffix_refl _), h⟩

theorem startsWith_of_append {text start more : String}
    (h : startsWith text (start ++ more) = true) : startsWith text start = true := by
  rw [startsWith, List.isPrefixOf_iff_prefix] at h ⊢
  rw [String.toList_append] at h
  exact (List.prefix_append _ _).trans h

theorem length_le_of_isInfix {part text : String} (h : isInfix part text = true) :
    part.length ≤ text.length := by
  obtain ⟨tail, htail, hprefix⟩ := List.any_eq_true.mp h
  have hpart := (List.isPrefixOf_iff_prefix.mp hprefix).length_le
  have htext := ((List.mem_tails _ _).mp htail).length_le
  rw [← String.length_toList, ← String.length_toList]
  exact hpart.trans htext

section

attribute [local irreducible] lower stripped startsWith isInfix

theorem RegistryEntry.isUpstream_of_isExact {item : RegistryEntry M} {provider model : String}
    (h : item.isExact provider model = true) : item.isUpstream model = true := by
  simp only [isExact, decide_eq_true_eq] at h
  simp only [isUpstream, decide_eq_true_eq]
  exact .inl h.2.symm

/-- A variant contains the identifier that it starts with. -/
theorem RegistryEntry.isUpstream_of_isFamily {item : RegistryEntry M} {provider : Option String}
    {model : String} (h : item.isFamily provider model = true) :
    item.isUpstream model = true := by
  simp only [isFamily, decide_eq_true_eq] at h
  simp only [isUpstream, decide_eq_true_eq]
  obtain hmodel | hmodel := h.2
  · exact .inl hmodel
  · exact .inr (isInfix_of_startsWith (startsWith_of_append hmodel))

theorem mem_matchesOf_of_tried {models : List (RegistryEntry M)} {provider : Option String}
    {model : String} {item : RegistryEntry M} (h : item ∈ triedEntries models provider model) :
    item ∈ matchesOf models model := by
  simp only [triedEntries, List.mem_append] at h
  obtain (h | h) | h := h
  · cases hprovider : normalizedProvider provider with
    | none => simp [hprovider] at h
    | some p =>
        simp only [hprovider, Option.elim_some, List.mem_filter, List.mem_reverse] at h
        exact List.mem_filter.mpr ⟨h.1, item.isUpstream_of_isExact h.2⟩
  · obtain ⟨hmem, hfamily⟩ := List.mem_filter.mp h
    exact List.mem_filter.mpr ⟨hmem, item.isUpstream_of_isFamily hfamily⟩
  · exact h

theorem resolveModel_metadata (models : List (RegistryEntry M)) (provider : Option String)
    {model : String} (h : model ≠ "") :
    (resolveModel models provider (some model)).map RegistryEntry.metadata =
      (triedEntries models provider model).head?.map RegistryEntry.metadata := by
  have hexact : ((normalizedProvider provider).elim [] fun p =>
      models.reverse.filter fun item => item.isExact p (normalizedModel model)).head? =
      (normalizedProvider provider).bind fun p =>
        models.reverse.find? fun item => item.isExact p (normalizedModel model) := by
    cases normalizedProvider provider with
    | none => rfl
    | some p => exact List.head?_filter
  have hrenamed : ∀ found : Option (RegistryEntry M),
      (found.map fun item => item.renamed (normalizedProvider provider) model).map
        RegistryEntry.metadata = found.map RegistryEntry.metadata := by
    intro found
    cases found with
    | none => rfl
    | some item => rfl
  simp only [resolveModel, nonEmpty_some h, Option.bind_eq_bind, Option.bind_some]
  rw [Option.map_or, hrenamed, ← Option.map_or, triedEntries, matchesOf, List.head?_append,
    List.head?_append, hexact, List.head?_filter, List.head?_filter]

/-- A model string has the metadata of a longest match if and only if no shorter match with
other metadata is tried before it. -/
theorem resolvesToLongest_iff (models : List (RegistryEntry M)) (provider : Option String)
    (model : String) : ResolvesToLongest models provider model ↔
      (model = "" ∨ LongestFirst models provider model) := by
  by_cases hmodel : model = ""
  · simp only [ResolvesToLongest, hmodel, ne_eq, not_true_eq_false, false_implies, true_or]
  have hmetadata := resolveModel_metadata models provider hmodel
  simp only [hmodel, false_or]
  constructor
  · intro h
    unfold LongestFirst
    intro first hfirst
    have htried : first ∈ triedEntries models provider model := List.mem_of_mem_head? hfirst
    obtain ⟨found, hfound, item, hitem, hsame⟩ :=
      h hmodel (List.ne_nil_of_mem (mem_matchesOf_of_tried htried))
    rw [hfound, hfirst] at hmetadata
    exact ⟨item, hitem, hsame.trans (Option.some.inj hmetadata)⟩
  · intro h
    unfold ResolvesToLongest
    intro _ hmatches
    have htried : triedEntries models provider model ≠ [] := by
      simp [triedEntries, hmatches]
    obtain ⟨first, hfirst⟩ := Option.isSome_iff_exists.mp (List.isSome_head?.mpr htried)
    obtain ⟨item, hitem, hsame⟩ := h first hfirst
    rw [hfirst] at hmetadata
    obtain ⟨found, hfound, hfirst'⟩ := Option.map_eq_some_iff.mp hmetadata
    exact ⟨found, hfound, item, hitem, hsame.trans hfirst'.symm⟩

theorem RegistryEntry.length_le_of_isUpstream {item : RegistryEntry M} {model : String}
    (h : item.isUpstream model = true) : (lower item.id).length ≤ model.length := by
  simp only [isUpstream, decide_eq_true_eq] at h
  obtain rfl | h := h
  · exact le_rfl
  · exact length_le_of_isInfix h

/-- The identifier itself is never shadowed: what is contained in it is not longer. -/
theorem longestFirst_of_isExact {models : List (RegistryEntry M)} {provider : Option String}
    {model p : String} (hp : normalizedProvider provider = some p)
    (h : ∃ item ∈ models, item.isExact p (normalizedModel model) = true) :
    LongestFirst models provider model := by
  unfold LongestFirst
  intro first hfirst
  have hexact : first ∈ models.reverse.find? fun item =>
      item.isExact p (normalizedModel model) := by
    obtain ⟨item, hitem, hexact⟩ := h
    have hsome : (models.reverse.find? fun item =>
        item.isExact p (normalizedModel model)).isSome := by
      rw [List.find?_isSome]
      exact ⟨item, List.mem_reverse.mpr hitem, hexact⟩
    obtain ⟨found, hfound⟩ := Option.isSome_iff_exists.mp hsome
    rw [triedEntries, hp, Option.elim_some, List.append_assoc, List.head?_append,
      List.head?_filter, hfound, Option.some_or] at hfirst
    exact hfound.trans hfirst
  have hid : lower first.id = normalizedModel model := by
    have hfirst := List.find?_some hexact
    simp only [RegistryEntry.isExact, decide_eq_true_eq] at hfirst
    exact hfirst.2
  refine ⟨first, ⟨mem_matchesOf_of_tried (List.mem_of_mem_head? hfirst), ?_⟩, rfl⟩
  intro other hother
  rw [hid]
  exact other.length_le_of_isUpstream (List.mem_filter.mp hother).2

end

/-! ## The registry of the code -/

structure ModelMetadata where
  contextWindow : ℤ
  maxOutputTokens : ℤ
  rates : Rates
deriving DecidableEq

/-- The prices of `_MODELS`. -/
def registeredRates : List Rates := [
  ⟨5 / 1000, 15 / 1000⟩, ⟨15 / 100000, 6 / 10000⟩, ⟨3 / 1000, 12 / 1000⟩,
  ⟨3 / 10000, 12 / 10000⟩, ⟨5 / 10000, 15 / 10000⟩, ⟨1 / 10000, 4 / 10000⟩,
  ⟨25 / 10000, 1 / 100⟩, ⟨1 / 10000, 4 / 10000⟩, ⟨2 / 1000, 6 / 1000⟩, ⟨3 / 1000, 15 / 1000⟩,
  ⟨8 / 10000, 4 / 1000⟩, ⟨14 / 100000, 28 / 100000⟩, ⟨55 / 100000, 219 / 100000⟩,
  ⟨2 / 1000, 6 / 1000⟩, ⟨59 / 100000, 79 / 100000⟩]

def modelRegistry : List (RegistryEntry ModelMetadata) :=
  List.zipWith (fun item rates =>
    ⟨item.id, item.provider, ⟨item.contextWindow, item.maxOutputTokens, rates⟩⟩)
    registeredModels registeredRates

def RegistryEntry.registered (item : RegistryEntry ModelMetadata) : RegisteredModel :=
  ⟨item.id, item.provider, item.metadata.contextWindow, item.metadata.maxOutputTokens⟩

theorem find?_reverse_of_pairwise {α : Type} {p : α → Bool} {l : List α}
    (h : l.Pairwise fun a b => ¬(p a = true ∧ p b = true)) : l.reverse.find? p = l.find? p := by
  induction l with
  | nil => rfl
  | cons a l ih =>
      obtain ⟨ha, hl⟩ := List.pairwise_cons.mp h
      rw [List.reverse_cons, List.find?_append, ih hl]
      cases hp : p a with
      | true =>
          have hnone : l.find? p = none :=
            List.find?_eq_none.mpr fun b hb hpb => ha b hb ⟨hp, hpb⟩
          simp [hnone, hp]
      | false => simp [hp]

/-- No two entries of a provider have one identifier. -/
theorem modelRegistry_pairwise : modelRegistry.Pairwise fun item item' =>
    ¬(item.provider = item'.provider ∧ lower item.id = lower item'.id) := by
  decide +kernel

/-- A dated name of the smaller model is not the registered identifier: the entry of the larger
one stands first, and the name starts with its identifier too. -/
theorem gpt4oMini_resolves_to_gpt4o :
    ¬ ResolvesToLongest modelRegistry (some "openai") "gpt-4o-mini-2024-07-18" := by
  intro h
  have hmatch : ∃ other ∈ matchesOf modelRegistry "gpt-4o-mini-2024-07-18",
      (lower other.id).length = 11 := by
    decide +kernel
  have hfound : (resolveModel modelRegistry (some "openai")
      (some "gpt-4o-mini-2024-07-18")).map RegistryEntry.metadata =
        some ⟨128000, 16384, ⟨5 / 1000, 15 / 1000⟩⟩ := by
    decide +kernel
  have hshort : ∀ item ∈ modelRegistry, item.metadata = ⟨128000, 16384, ⟨5 / 1000, 15 / 1000⟩⟩ →
      (lower item.id).length = 6 := by
    decide +kernel
  obtain ⟨other, hother, hlength⟩ := hmatch
  obtain ⟨found, hresolved, item, hitem, hsame⟩ :=
    h (by decide) (List.ne_nil_of_mem hother)
  rw [hresolved] at hfound
  have hsix := hshort item (List.mem_of_mem_filter hitem.1)
    (hsame.trans (Option.some.inj hfound))
  have hle := hitem.2 other hother
  omega

theorem registeredModels_eq : registeredModels = modelRegistry.map RegistryEntry.registered := rfl

section

attribute [local irreducible] lower stripped startsWith isInfix modelRegistry

/-- Budgets are made from this registry. -/
theorem getRegisteredModel_eq (provider model : Option String) :
    getRegisteredModel provider model =
      (resolveModel modelRegistry provider model).map RegistryEntry.registered := by
  cases hmodel : nonEmpty model with
  | none => simp [getRegisteredModel, resolveModel, hmodel]
  | some name =>
      have hexact : ∀ p : String, modelRegistry.reverse.find? (fun item =>
          item.isExact p (normalizedModel name)) = modelRegistry.find? (fun item =>
            item.isExact p (normalizedModel name)) := by
        intro p
        refine find?_reverse_of_pairwise (modelRegistry_pairwise.imp ?_)
        intro item item' hdistinct hboth
        simp only [RegistryEntry.isExact, decide_eq_true_eq] at hboth
        exact hdistinct ⟨hboth.1.1.trans hboth.2.1.symm, hboth.1.2.trans hboth.2.2.symm⟩
      simp only [getRegisteredModel, resolveModel, hmodel, registeredModels_eq, hexact, List.find?_map,
        Option.bind_eq_bind, Option.bind_some]
      rw [Option.map_or, Option.map_or, Option.map_bind, Option.map_map, Option.map_map]
      rfl

end

end Zyntry
