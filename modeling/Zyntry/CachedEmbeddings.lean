import Zyntry.EmbeddingBatches

/-!
# The cache after an embedding

Whatever a call finds and misses, it returns what the provider gives directly. An entry of the
cache afterwards was there before, or it is the vector of a text of the call under its key; so a
cache that agrees with the provider still does.
-/

namespace Zyntry

variable {V : Type}

/-! ## The cache that a run leaves -/

/-- The run ends with a cache like this, with or without an exception. -/
def Embedding.Leaves {α : Type} (x : Embedding V α) (cache : EmbeddingCache V)
    (I : EmbeddingCache V → Prop) : Prop :=
  I (x.run.run cache : Except EmbedError α × EmbeddingCache V).2

namespace Embedding.Leaves

variable {α β : Type} {cache : EmbeddingCache V} {I : EmbeddingCache V → Prop}

theorem lift {x : Except EmbedError α} (h : I cache) :
    Leaves (liftExcept x : Embedding V α) cache I := h

theorem throw {e : EmbedError} (h : I cache) :
    Leaves (MonadExcept.throw e : Embedding V α) cache I := h

theorem bind {x : Embedding V α} {f : α → Embedding V β} (hx : Leaves x cache I)
    (hf : ∀ a cache', I cache' → Leaves (f a) cache' I) : Leaves (x >>= f) cache I := by
  unfold Leaves at hx ⊢
  rw [ExceptT.run_bind, StateT.run_bind]
  cases hrun : (x.run.run cache : Except EmbedError α × EmbeddingCache V) with
  | mk result cache' =>
      rw [hrun] at hx
      cases result with
      | error e => exact hx
      | ok a => exact hf a cache' hx

theorem bind_lift {x : Except EmbedError α} {f : α → Embedding V β} (h : I cache)
    (hf : ∀ a, x = .ok a → Leaves (f a) cache I) :
    Leaves ((liftExcept x : Embedding V α) >>= f) cache I := by
  cases x with
  | error e => exact h
  | ok a => exact hf a rfl

theorem bind_get {f : EmbeddingCache V → Embedding V β} (h : Leaves (f cache) cache I) :
    Leaves ((get : Embedding V _) >>= f) cache I := h

theorem bind_modify {g : EmbeddingCache V → EmbeddingCache V} {f : PUnit → Embedding V β}
    (h : Leaves (f ⟨⟩) (g cache) I) : Leaves ((modify g : Embedding V PUnit) >>= f) cache I := h

end Embedding.Leaves

/-! ## What is written -/

/-- Every entry was there before, or is the vector of a text of the call under its key. -/
def OldOrEmbedded (provider : EmbeddingProvider V) (vectorOf : String → V)
    (items : List (String × EmbeddingMetadata)) (cache cache' : EmbeddingCache V) : Prop :=
  ∀ key vector, cache' key = some vector → cache key = some vector ∨
    ∃ item ∈ items, provider.key item.2 = key ∧ vectorOf item.1 = vector

/-- The cache has the vectors of the provider for the texts that the keys stand for. -/
def EmbeddingCache.AgreesOn (cache : EmbeddingCache V) (vectorOf : String → V)
    (textOf : EmbeddingKey → Option String) : Prop :=
  ∀ key text vector, textOf key = some text → cache key = some vector → vector = vectorOf text

theorem OldOrEmbedded.agreesOn {provider : EmbeddingProvider V} {vectorOf : String → V}
    {items : List (String × EmbeddingMetadata)} {cache cache' : EmbeddingCache V}
    (h : OldOrEmbedded provider vectorOf items cache cache')
    {textOf : EmbeddingKey → Option String}
    (hkeys : ∀ item ∈ items, textOf (provider.key item.2) = some item.1)
    (hcache : cache.AgreesOn vectorOf textOf) : cache'.AgreesOn vectorOf textOf := by
  intro key text vector htext hvector
  obtain hold | ⟨item, hitem, rfl, rfl⟩ := h key vector hvector
  · exact hcache key text vector htext hold
  · rw [hkeys item hitem, Option.some.injEq] at htext
    rw [htext]

section

variable {provider : EmbeddingProvider V} {vectorOf : String → V}
  {items : List (String × EmbeddingMetadata)} {cache cache' : EmbeddingCache V}

theorem OldOrEmbedded.update (h : OldOrEmbedded provider vectorOf items cache cache')
    {item : String × EmbeddingMetadata} (hitem : item ∈ items) :
    OldOrEmbedded provider vectorOf items cache
      (Function.update cache' (provider.key item.2) (some (vectorOf item.1))) := by
  intro key vector hvector
  by_cases hkey : key = provider.key item.2
  · rw [hkey, Function.update_self, Option.some.injEq] at hvector
    exact .inr ⟨item, hitem, hkey.symm, hvector⟩
  · rw [Function.update_of_ne hkey] at hvector
    exact h key vector hvector

theorem storeResults_leaves {indices : List ℕ} {those : List String}
    (hindices : IndicesOf (items.map Prod.fst) indices those) (cached : ℕ → Option V)
    (h : OldOrEmbedded provider vectorOf items cache cache') :
    (storeResults provider (items.map Prod.snd) indices (those.map vectorOf) cached).Leaves cache'
      (OldOrEmbedded provider vectorOf items cache) := by
  induction indices generalizing those cached cache' with
  | nil =>
      obtain rfl : those = [] := by simpa [IndicesOf] using hindices.symm
      exact h
  | cons i indices ih =>
      cases those with
      | nil => simp [IndicesOf] at hindices
      | cons text those =>
          obtain ⟨hi, hrest⟩ : (items.map Prod.fst)[i]? = some text ∧
              IndicesOf (items.map Prod.fst) indices those := by
            simpa [IndicesOf] using hindices
          rw [List.getElem?_map, Option.map_eq_some_iff] at hi
          obtain ⟨item, hitem, rfl⟩ := hi
          rw [List.map_cons, storeResults, List.getElem?_map, hitem, Option.map_some]
          exact .bind_modify (ih hrest _ (h.update (List.mem_of_getElem? hitem)))

theorem foldlM_storeResults_leaves {batches : List MissBatch}
    (hbatches : ∀ batch ∈ batches, IndicesOf (items.map Prod.fst) batch.indices batch.texts)
    (cached : ℕ → Option V) (h : OldOrEmbedded provider vectorOf items cache cache') :
    ((batches.map fun batch => (batch.texts.map vectorOf, batch.indices)).foldlM
      (fun cached (results, indices) =>
        storeResults provider (items.map Prod.snd) indices results cached)
      cached : Embedding V (ℕ → Option V)).Leaves cache'
        (OldOrEmbedded provider vectorOf items cache) := by
  induction batches generalizing cached cache' with
  | nil => exact h
  | cons batch batches ih =>
      rw [List.map_cons, List.foldlM_cons]
      apply Embedding.Leaves.bind
      · exact storeResults_leaves (hbatches batch List.mem_cons_self) cached h
      · intro cached' cache'' h'
        exact ih (fun b hb => hbatches b (List.mem_cons_of_mem _ hb)) cached' h'

theorem embedMisses_leaves (hprovider : provider.Embeds vectorOf) (batchSize : ℕ)
    {scan : CacheScan V}
    (hscan : IndicesOf (items.map Prod.fst) scan.missIndices scan.misses)
    (h : OldOrEmbedded provider vectorOf items cache cache') :
    (embedMisses provider (items.map Prod.snd) batchSize scan).Leaves cache'
      (OldOrEmbedded provider vectorOf items cache) := by
  unfold embedMisses
  apply Embedding.Leaves.bind_lift h
  intro missMetadata _
  split_ifs
  · apply Embedding.Leaves.bind_lift h
    intro results hresults
    rw [hprovider, Except.ok.injEq] at hresults
    rw [← hresults]
    exact storeResults_leaves hscan _ h
  · exact .throw h
  · rw [mapM_missBatches hprovider]
    apply Embedding.Leaves.bind_lift h
    intro batchResults hresults
    rw [← Except.ok.inj hresults]
    apply foldlM_storeResults_leaves _ _ h
    intro batch hbatch
    obtain ⟨start, -, rfl⟩ := List.mem_map.mp hbatch
    exact hscan.slice batchSize start

/-- The entries that are found are those of the provider. -/
def ConsistentItems (provider : EmbeddingProvider V) (vectorOf : String → V)
    (cache : EmbeddingCache V) (items : List (String × EmbeddingMetadata)) : Prop :=
  ∀ item ∈ items, ∀ vector ∈ cache (provider.key item.2), vector = vectorOf item.1

theorem ConsistentItems.consistentCache (h : ConsistentItems provider vectorOf cache items) :
    ConsistentCache provider vectorOf cache (items.map Prod.fst) (items.map Prod.snd) := by
  intro pair hpair
  rw [← List.unzip_fst, ← List.unzip_snd, List.zip_unzip] at hpair
  exact h pair hpair

theorem embedWithCache_leaves (hprovider : provider.Embeds vectorOf)
    (hcache : ConsistentItems provider vectorOf cache items) (useCache : Bool) (batchSize : ℕ) :
    (embedWithCache provider (items.map Prod.fst) (items.map Prod.snd) useCache batchSize).Leaves
      cache (OldOrEmbedded provider vectorOf items cache) := by
  have hold : OldOrEmbedded provider vectorOf items cache cache := fun _ _ h => .inl h
  have hstart : ScansTo vectorOf (items.map Prod.fst) 0 ({} : CacheScan V) :=
    ScansTo.nil vectorOf (items.map Prod.fst)
  obtain ⟨scan, hscan, h⟩ := scanCache_scansTo [] {} (List.nil_append _).symm (by simp)
    hcache.consistentCache hstart
  unfold embedWithCache
  split_ifs
  · exact .lift hold
  · apply Embedding.Leaves.bind_get
    apply Embedding.Leaves.bind_lift hold
    intro scan' hscan'
    obtain rfl := Except.ok.inj (hscan.symm.trans hscan')
    apply Embedding.Leaves.bind
    · split_ifs
      · exact hold
      · exact embedMisses_leaves hprovider batchSize h.indices hold
    · intro cached cache' hcache'
      exact .lift hcache'

end

/-- Texts are embedded as the provider embeds them directly, whatever is found in the cache, and
the cache agrees with the provider afterwards if it did before. -/
theorem embedWithCache_eq_embed {provider : EmbeddingProvider V} {vectorOf : String → V}
    (hprovider : provider.Embeds vectorOf) (items : List (String × EmbeddingMetadata))
    {batchSize : ℕ} (hsize : 1 ≤ batchSize) (useCache : Bool) {cache : EmbeddingCache V}
    (hcache : ConsistentItems provider vectorOf cache items) :
    ∃ cache', ((embedWithCache provider (items.map Prod.fst) (items.map Prod.snd) useCache
          batchSize).run.run cache : Except EmbedError (List V) × EmbeddingCache V) =
        (.ok (items.map fun item => vectorOf item.1), cache') ∧
      provider.embed (items.map Prod.fst) (items.map Prod.snd) =
        .ok (items.map fun item => vectorOf item.1) ∧
      OldOrEmbedded provider vectorOf items cache cache' ∧
      ∀ textOf : EmbeddingKey → Option String,
        (∀ item ∈ items, textOf (provider.key item.2) = some item.1) →
        cache.AgreesOn vectorOf textOf → cache'.AgreesOn vectorOf textOf := by
  obtain ⟨vectors, cache', hrun, rfl⟩ := embedWithCache_returns hprovider (by simp) hsize useCache
    hcache.consistentCache
  have hleaves := embedWithCache_leaves hprovider hcache useCache batchSize
  unfold Embedding.Leaves at hleaves
  rw [hrun] at hleaves
  rw [List.map_map] at hrun
  refine ⟨cache', hrun, ?_, hleaves, fun textOf => hleaves.agreesOn⟩
  rw [hprovider, List.map_map]
  rfl

/-- Two chunks with one text and a third one, of which the cache has the last. -/
def repeatedItems : List (String × EmbeddingMetadata) :=
  [("one", { documentId := "d", chunkId := "1", source := "a.md", contentHash := "h1" }),
    ("one", { documentId := "d", chunkId := "2", source := "a.md", contentHash := "h1" }),
    ("three", { documentId := "d", chunkId := "3", source := "a.md", contentHash := "h3" })]

def cacheOfThree : EmbeddingCache ℕ := fun key =>
  if key = ⟨"h3", "1", "text-embedding-3-small", "openai"⟩ then some 5 else none

theorem embedWithCache_eq_embed_repeatedItems :
    ((embedWithCache lengthProvider (repeatedItems.map Prod.fst) (repeatedItems.map Prod.snd) true
      1).run.run cacheOfThree).1 = .ok [3, 3, 5] := by
  have hcache : ConsistentItems lengthProvider String.length cacheOfThree repeatedItems := by
    unfold ConsistentItems
    decide +kernel
  have hprovider : lengthProvider.Embeds String.length := fun _ _ => rfl
  obtain ⟨cache', hrun, -⟩ :=
    embedWithCache_eq_embed hprovider repeatedItems (Nat.le_refl 1) true hcache
  exact congrArg Prod.fst hrun

end Zyntry
