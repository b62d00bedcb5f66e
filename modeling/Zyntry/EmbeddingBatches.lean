import Mathlib.Data.List.Range
import Mathlib.Logic.Function.Basic

/-!
# Embedding a list of texts

`embed_with_cache` looks the texts up in the cache of the project, asks the provider for the
texts that are missing, in slices if there are many, and puts the vectors together by index.
`EmbeddingBatcher.batch_embed` splits a long list first. It imports `embed_with_cache` in the
branch for short lists, so the name is a variable of the function that the other branch
finds unbound.
-/

namespace Zyntry

structure EmbeddingMetadata where
  documentId : String
  chunkId : String
  source : String
  contentHash : String
  embeddingVersion : String := "1"
deriving DecidableEq, Repr

/-- What an entry of the cache is found by, within a project. -/
structure EmbeddingKey where
  contentHash : String
  embeddingVersion : String
  embeddingModel : String
  provider : String
deriving DecidableEq, Repr

inductive EmbedError where
  | valueError
  | nameError
  | keyError
  | indexError
  | provider (message : String)
deriving DecidableEq, Repr

structure EmbeddingProvider (V : Type) where
  modelName : String
  providerName : String
  embed : List String → List EmbeddingMetadata → Except EmbedError (List V)

/-- The live entries of the project. -/
abbrev EmbeddingCache (V : Type) := EmbeddingKey → Option V

abbrev Embedding (V α : Type) := ExceptT EmbedError (StateM (EmbeddingCache V)) α

/-- `range(0, length, size)`, for a positive size. -/
def rangeStarts (length size : ℕ) : List ℕ :=
  (List.range ((length + size - 1) / size)).map fun j => j * size

/-- `l[start : start + size]`. -/
def sliceAt {α : Type} (size : ℕ) (l : List α) (start : ℕ) : List α := (l.drop start).take size

section

variable {V : Type}

def EmbeddingProvider.key (provider : EmbeddingProvider V) (m : EmbeddingMetadata) :
    EmbeddingKey :=
  ⟨m.contentHash, m.embeddingVersion, provider.modelName, provider.providerName⟩

structure CacheScan (V : Type) where
  cachedResults : ℕ → Option V := fun _ => none
  misses : List String := []
  missIndices : List ℕ := []

/-- The loop over the texts and their metadata, from index `i` on. -/
def scanCache (provider : EmbeddingProvider V) (cache : EmbeddingCache V) :
    ℕ → List String → List EmbeddingMetadata → CacheScan V → Except EmbedError (CacheScan V)
  | _, [], [], scan => .ok scan
  | i, text :: texts, m :: metadata, scan =>
      scanCache provider cache (i + 1) texts metadata
        (match cache (provider.key m) with
        | some vector =>
            { scan with cachedResults := Function.update scan.cachedResults i (some vector) }
        | none =>
            { scan with misses := scan.misses ++ [text], missIndices := scan.missIndices ++ [i] })
  | _, _, _, _ => .error .valueError

/-- The loop over the indices and the vectors of an answer. -/
def storeResults (provider : EmbeddingProvider V) (metadata : List EmbeddingMetadata) :
    List ℕ → List V → (ℕ → Option V) → Embedding V (ℕ → Option V)
  | [], [], cached => pure cached
  | i :: indices, result :: results, cached =>
      match metadata[i]? with
      | none => throw .indexError
      | some m => do
          modify fun cache => Function.update cache (provider.key m) (some result)
          storeResults provider metadata indices results
            (Function.update cached i (some result))
  | _, _, _ => throw .valueError

structure MissBatch where
  texts : List String
  metadata : List EmbeddingMetadata
  indices : List ℕ

def missBatches (batchSize : ℕ) (misses : List String) (missMetadata : List EmbeddingMetadata)
    (missIndices : List ℕ) : List MissBatch :=
  (rangeStarts misses.length batchSize).map fun start =>
    ⟨sliceAt batchSize misses start, sliceAt batchSize missMetadata start,
      sliceAt batchSize missIndices start⟩

def liftExcept {α : Type} (x : Except EmbedError α) : Embedding V α := ExceptT.mk (pure x)

/-- The subscript of a list. -/
def subscript {α : Type} (l : List α) (i : ℕ) : Except EmbedError α :=
  match l[i]? with
  | some a => .ok a
  | none => .error .indexError

/-- The texts that the cache does not have. -/
def embedMisses (provider : EmbeddingProvider V) (metadata : List EmbeddingMetadata)
    (batchSize : ℕ) (scan : CacheScan V) : Embedding V (ℕ → Option V) := do
  let missMetadata ← liftExcept (scan.missIndices.mapM (subscript metadata))
  if scan.misses.length ≤ batchSize then
    let missResults ← liftExcept (provider.embed scan.misses missMetadata)
    storeResults provider metadata scan.missIndices missResults scan.cachedResults
  else if batchSize = 0 then throw .valueError
  else
    let batchResults ← liftExcept <|
      (missBatches batchSize scan.misses missMetadata scan.missIndices).mapM fun batch =>
        return (← provider.embed batch.texts batch.metadata, batch.indices)
    batchResults.foldlM
      (fun cached (results, indices) => storeResults provider metadata indices results cached)
      scan.cachedResults

def embedWithCache (provider : EmbeddingProvider V) (texts : List String)
    (metadata : List EmbeddingMetadata) (useCache : Bool) (batchSize : ℕ := 100) :
    Embedding V (List V) :=
  if !useCache || texts.isEmpty then liftExcept (provider.embed texts metadata)
  else do
    let scan ← liftExcept (scanCache provider (← get) 0 texts metadata {})
    let cachedResults ←
      (if scan.misses.isEmpty then pure scan.cachedResults
      else embedMisses provider metadata batchSize scan : Embedding V (ℕ → Option V))
    liftExcept <| (List.range texts.length).mapM fun i =>
      match cachedResults i with
      | some vector => .ok vector
      | none => .error .keyError

namespace EmbeddingBatcher

/-- `_split_into_batches`. -/
def splitIntoBatches (batchSize : ℕ) (texts : List String) (metadatas : List EmbeddingMetadata) :
    Except EmbedError (List (List String × List EmbeddingMetadata)) :=
  if texts.length = metadatas.length then
    let pairs := texts.zip metadatas
    .ok <| (rangeStarts pairs.length batchSize).map fun start =>
      let batchPairs := sliceAt batchSize pairs start
      (batchPairs.map Prod.fst, batchPairs.map Prod.snd)
  else .error .valueError

/-- The call of a name in a closure, of a variable that may be unbound. -/
def callFree {α β : Type} (name : Option (α → Embedding V β)) (a : α) : Embedding V β :=
  match name with
  | some f => f a
  | none => throw .nameError

/-- `batch_embed`. -/
def batchEmbed (provider : EmbeddingProvider V) (batchSize : ℕ) (useCache : Bool)
    (texts : List String) (metadatas : List EmbeddingMetadata) : Embedding V (List V) :=
  if texts.isEmpty then pure []
  else if texts.length ≤ batchSize then embedWithCache provider texts metadatas useCache
  else do
    -- the import of `embed_with_cache` is in the other branch
    let embedWithCacheName : Option (List String × List EmbeddingMetadata → Embedding V (List V)) :=
      none
    let batches ← liftExcept (splitIntoBatches batchSize texts metadatas)
    let results ← batches.mapM fun pair => callFree embedWithCacheName pair
    return results.flatten

end EmbeddingBatcher

/-! ## Values that a run returns -/

/-- The run ends without an exception, with a value like this. -/
def Embedding.Returns {α : Type} (x : Embedding V α) (cache : EmbeddingCache V) (P : α → Prop) :
    Prop :=
  ∃ a cache', (x.run.run cache : Except EmbedError α × EmbeddingCache V) = (.ok a, cache') ∧ P a

namespace Embedding.Returns

variable {α β : Type} {cache : EmbeddingCache V}

theorem pure {a : α} {P : α → Prop} (h : P a) : Returns (Pure.pure a : Embedding V α) cache P :=
  ⟨a, cache, rfl, h⟩

theorem lift {x : Except EmbedError α} {a : α} {P : α → Prop} (hx : x = .ok a) (h : P a) :
    Returns (liftExcept x : Embedding V α) cache P := by
  subst hx
  exact ⟨a, cache, rfl, h⟩

theorem bind {x : Embedding V α} {f : α → Embedding V β} {P : α → Prop} {Q : β → Prop}
    (hx : Returns x cache P) (hf : ∀ a cache', P a → Returns (f a) cache' Q) :
    Returns (x >>= f) cache Q := by
  obtain ⟨a, cache', hrun, ha⟩ := hx
  obtain ⟨b, cache'', hrun', hb⟩ := hf a cache' ha
  refine ⟨b, cache'', ?_, hb⟩
  rw [ExceptT.run_bind, StateT.run_bind, hrun]
  exact hrun'

theorem bind_lift {x : Except EmbedError α} {a : α} (hx : x = .ok a) {f : α → Embedding V β}
    {Q : β → Prop} (h : Returns (f a) cache Q) :
    Returns ((liftExcept x : Embedding V α) >>= f) cache Q := by
  subst hx
  exact h

theorem bind_get {f : EmbeddingCache V → Embedding V β} {Q : β → Prop}
    (h : Returns (f cache) cache Q) : Returns ((get : Embedding V _) >>= f) cache Q := h

end Embedding.Returns

/-! ## Slices -/

theorem exists_sliceAt_of_mem {α : Type} {size : ℕ} (hsize : 0 < size) {l : List α} {a : α}
    (ha : a ∈ l) : ∃ start ∈ rangeStarts l.length size, a ∈ sliceAt size l start := by
  obtain ⟨p, hp, rfl⟩ := List.getElem_of_mem ha
  have hdiv : p / size * size + p % size = p := by rw [Nat.mul_comm, Nat.div_add_mod]
  have hmod : p % size < size := Nat.mod_lt p hsize
  refine ⟨p / size * size, List.mem_map.mpr ⟨p / size, ?_, rfl⟩, ?_⟩
  · rw [List.mem_range, Nat.div_lt_iff_lt_mul hsize]
    have hround := Nat.div_add_mod (l.length + size - 1) size
    have hrest := Nat.mod_lt (l.length + size - 1) hsize
    rw [Nat.mul_comm] at hround
    omega
  · apply List.mem_iff_getElem.mpr
    refine ⟨p % size, ?_, ?_⟩
    · simp only [sliceAt, List.length_take, List.length_drop]
      omega
    · simp only [sliceAt, List.getElem_take, List.getElem_drop, hdiv]

theorem map_sliceAt {α β : Type} (f : α → β) (size start : ℕ) (l : List α) :
    (sliceAt size l start).map f = sliceAt size (l.map f) start := by
  simp only [sliceAt, List.map_take, List.map_drop]

/-! ## The vectors of the texts -/

/-- The provider gives each text its own vector. -/
def EmbeddingProvider.Embeds (provider : EmbeddingProvider V) (vectorOf : String → V) : Prop :=
  ∀ texts metadata, provider.embed texts metadata = .ok (texts.map vectorOf)

/-- What the cache has for these texts is what the provider gives. -/
def ConsistentCache (provider : EmbeddingProvider V) (vectorOf : String → V)
    (cache : EmbeddingCache V) (texts : List String) (metadata : List EmbeddingMetadata) : Prop :=
  ∀ pair ∈ texts.zip metadata, ∀ vector ∈ cache (provider.key pair.2), vector = vectorOf pair.1

/-- What has been found has been found at the index of its text. -/
def FoundIn (vectorOf : String → V) (texts : List String) (cached : ℕ → Option V) : Prop :=
  ∀ i vector, cached i = some vector → texts[i]?.map vectorOf = some vector

/-- The indices are those of the texts. -/
def IndicesOf (texts : List String) (indices : List ℕ) (those : List String) : Prop :=
  indices.map (fun i => texts[i]?) = those.map some

variable {vectorOf : String → V} {provider : EmbeddingProvider V} {texts : List String}
  {metadata : List EmbeddingMetadata} {cache : EmbeddingCache V}

theorem FoundIn.update {cached : ℕ → Option V} (h : FoundIn vectorOf texts cached) {i : ℕ}
    {text : String} (hi : texts[i]? = some text) :
    FoundIn vectorOf texts (Function.update cached i (some (vectorOf text))) := by
  intro j vector hj
  by_cases hji : j = i
  · subst hji
    rw [Function.update_self] at hj
    rw [hi, Option.map_some, hj]
  · rw [Function.update_of_ne hji] at hj
    exact h j vector hj

theorem isSome_update {cached : ℕ → Option V} {i j : ℕ} (v : V)
    (h : j = i ∨ (cached j).isSome) : (Function.update cached i (some v) j).isSome := by
  by_cases hji : j = i
  · rw [hji, Function.update_self]
    rfl
  · rw [Function.update_of_ne hji]
    exact h.resolve_left hji

/-- After the loop each index has its vector or is among the missing ones. -/
structure ScansTo (vectorOf : String → V) (texts : List String) (upTo : ℕ) (scan : CacheScan V) :
    Prop where
  found : FoundIn vectorOf texts scan.cachedResults
  indices : IndicesOf texts scan.missIndices scan.misses
  covers : ∀ i < upTo, (scan.cachedResults i).isSome ∨ i ∈ scan.missIndices

theorem ScansTo.nil (vectorOf : String → V) (texts : List String) :
    ScansTo vectorOf texts 0 {} where
  found i vector hi := by cases hi
  indices := rfl
  covers i hi := absurd hi (Nat.not_lt_zero i)

theorem ScansTo.hit {i : ℕ} {scan : CacheScan V} (h : ScansTo vectorOf texts i scan)
    {text : String} (hi : texts[i]? = some text) :
    ScansTo vectorOf texts (i + 1)
      { scan with
        cachedResults := Function.update scan.cachedResults i (some (vectorOf text)) } where
  found := h.found.update hi
  indices := h.indices
  covers j hj := by
    by_cases hji : j = i
    · exact .inl (isSome_update _ (.inl hji))
    · exact (h.covers j (by omega)).imp (fun hj => isSome_update _ (.inr hj)) id

theorem ScansTo.miss {i : ℕ} {scan : CacheScan V} (h : ScansTo vectorOf texts i scan)
    {text : String} (hi : texts[i]? = some text) :
    ScansTo vectorOf texts (i + 1)
      { scan with misses := scan.misses ++ [text], missIndices := scan.missIndices ++ [i] } where
  found := h.found
  indices := by
    have hbefore := h.indices
    unfold IndicesOf at hbefore ⊢
    simp only [List.map_append, hbefore, List.map_cons, List.map_nil, hi]
  covers j hj := by
    by_cases hji : j = i
    · right
      simp [hji]
    · exact (h.covers j (by omega)).imp id fun hmem => List.mem_append_left _ hmem

theorem scanCache_scansTo (done : List String) {rest : List String} (scan : CacheScan V)
    (htexts : texts = done ++ rest) {restMetadata : List EmbeddingMetadata}
    (hlength : restMetadata.length = rest.length)
    (hcache : ConsistentCache provider vectorOf cache rest restMetadata)
    (h : ScansTo vectorOf texts done.length scan) :
    ∃ scan', scanCache provider cache done.length rest restMetadata scan = .ok scan' ∧
      ScansTo vectorOf texts texts.length scan' := by
  induction rest generalizing done restMetadata scan with
  | nil =>
      obtain rfl := List.length_eq_zero_iff.mp hlength
      refine ⟨scan, rfl, ?_⟩
      rw [htexts, List.append_nil] at h ⊢
      exact h
  | cons text rest ih =>
      obtain ⟨m, restMetadata, rfl⟩ := List.exists_cons_of_length_eq_add_one hlength
      have hi : texts[done.length]? = some text := by simp [htexts]
      have hlength' : restMetadata.length = rest.length := by simpa using hlength
      have hcache' : ConsistentCache provider vectorOf cache rest restMetadata :=
        fun pair hpair => hcache pair (List.mem_cons_of_mem _ hpair)
      have hnext : ∀ scan', ScansTo vectorOf texts (done.length + 1) scan' → _ := fun scan' h' =>
        ih (done ++ [text]) scan' (by simp [htexts]) hlength' hcache'
          (by simpa using h')
      simp only [List.length_append, List.length_singleton] at hnext
      rw [scanCache]
      cases hget : cache (provider.key m) with
      | some vector =>
          obtain rfl : vector = vectorOf text := hcache (text, m) List.mem_cons_self vector hget
          exact hnext _ (h.hit hi)
      | none => exact hnext _ (h.miss hi)

/-- The vectors of an answer go to the indices of its texts. -/
theorem storeResults_returns (provider : EmbeddingProvider V)
    (hlength : metadata.length = texts.length) {indices : List ℕ}
    {those : List String} (h : IndicesOf texts indices those) {cached : ℕ → Option V}
    (hfound : FoundIn vectorOf texts cached) (cache : EmbeddingCache V) :
    (storeResults provider metadata indices (those.map vectorOf) cached).Returns cache
      fun cached' => FoundIn vectorOf texts cached' ∧
        ∀ i, (cached i).isSome ∨ i ∈ indices → (cached' i).isSome := by
  induction indices generalizing those cached cache with
  | nil =>
      obtain rfl : those = [] := by simpa [IndicesOf] using h.symm
      exact .pure ⟨hfound, fun i hi => by simpa using hi⟩
  | cons i indices ih =>
      cases those with
      | nil => simp [IndicesOf] at h
      | cons text those =>
          obtain ⟨hi, hrest⟩ : texts[i]? = some text ∧ IndicesOf texts indices those := by
            simpa [IndicesOf] using h
          have hlt : i < metadata.length := by
            rw [hlength]
            exact (List.getElem?_eq_some_iff.mp hi).1
          rw [List.map_cons, storeResults, List.getElem?_eq_getElem hlt]
          refine Embedding.Returns.bind (P := fun _ => True) ⟨(), _, rfl, trivial⟩ ?_
          intro _ cache' _
          obtain ⟨cached', cache'', hrun, hfound', hcovers⟩ :=
            ih hrest (hfound.update hi) cache'
          refine ⟨cached', cache'', hrun, hfound', ?_⟩
          intro j hj
          apply hcovers
          obtain hj | hj := hj
          · exact .inl (isSome_update _ (.inr hj))
          · obtain rfl | hmem := List.mem_cons.mp hj
            · exact .inl (isSome_update _ (.inl rfl))
            · exact .inr hmem

theorem mapM_ok {α β : Type} {f : α → Except EmbedError β} {g : α → β} {l : List α}
    (h : ∀ a ∈ l, f a = .ok (g a)) : l.mapM f = .ok (l.map g) := by
  induction l with
  | nil => rfl
  | cons a l ih =>
      rw [List.mapM_cons, h a List.mem_cons_self, ih fun b hb => h b (List.mem_cons_of_mem _ hb)]
      rfl

theorem mapM_range_ok {α β : Type} {f : ℕ → Except EmbedError β} {g : α → β} {l : List α}
    (h : ∀ i a, l[i]? = some a → f i = .ok (g a)) :
    (List.range l.length).mapM f = .ok (l.map g) := by
  induction l generalizing f with
  | nil => rfl
  | cons a l ih =>
      rw [List.length_cons, List.range_succ_eq_map, List.mapM_cons, h 0 a rfl, List.mapM_map,
        ih (f := f ∘ Nat.succ) fun i b hb => h (i + 1) b hb]
      rfl

theorem IndicesOf.lt_length {indices : List ℕ} {those : List String}
    (h : IndicesOf texts indices those) {i : ℕ} (hi : i ∈ indices) : i < texts.length := by
  have hmem : texts[i]? ∈ those.map some := by
    rw [← h]
    exact List.mem_map_of_mem hi
  obtain ⟨text, -, htext⟩ := List.mem_map.mp hmem
  exact (List.getElem?_eq_some_iff.mp htext.symm).1

theorem IndicesOf.slice {indices : List ℕ} {those : List String}
    (h : IndicesOf texts indices those) (size start : ℕ) :
    IndicesOf texts (sliceAt size indices start) (sliceAt size those start) := by
  unfold IndicesOf at h ⊢
  rw [map_sliceAt, h, map_sliceAt]

theorem IndicesOf.length_eq {indices : List ℕ} {those : List String}
    (h : IndicesOf texts indices those) : indices.length = those.length := by
  simpa using congrArg List.length h

/-- The slices of the missing texts fill in all of them. -/
theorem foldlM_storeResults_returns (provider : EmbeddingProvider V)
    (hlength : metadata.length = texts.length)
    {batches : List MissBatch} (h : ∀ batch ∈ batches, IndicesOf texts batch.indices batch.texts)
    {cached : ℕ → Option V} (hfound : FoundIn vectorOf texts cached) (cache : EmbeddingCache V) :
    ((batches.map fun batch => (batch.texts.map vectorOf, batch.indices)).foldlM
      (fun cached (results, indices) => storeResults provider metadata indices results cached)
      cached : Embedding V (ℕ → Option V)).Returns cache
      fun cached' => FoundIn vectorOf texts cached' ∧
        ∀ i, (cached i).isSome ∨ (∃ batch ∈ batches, i ∈ batch.indices) → (cached' i).isSome := by
  induction batches generalizing cached cache with
  | nil => exact .pure ⟨hfound, fun i hi => by simpa using hi⟩
  | cons batch batches ih =>
      rw [List.map_cons, List.foldlM_cons]
      apply (storeResults_returns provider hlength (h batch List.mem_cons_self) hfound cache).bind
      rintro cached' cache' ⟨hfound', hcovers'⟩
      obtain ⟨last, cache₁, hrun, hlast, hcovers⟩ :=
        ih (fun b hb => h b (List.mem_cons_of_mem _ hb)) hfound' cache'
      refine ⟨last, cache₁, hrun, hlast, ?_⟩
      rintro i (hi | ⟨b, hb, hi⟩)
      · exact hcovers i (.inl (hcovers' i (.inl hi)))
      · obtain rfl | hb := List.mem_cons.mp hb
        · exact hcovers i (.inl (hcovers' i (.inr hi)))
        · exact hcovers i (.inr ⟨b, hb, hi⟩)

theorem mapM_subscript_ok {indices : List ℕ} (h : ∀ i ∈ indices, i < metadata.length) :
    ∃ those, indices.mapM (subscript metadata) = .ok those := by
  induction indices with
  | nil => exact ⟨[], rfl⟩
  | cons i indices ih =>
      obtain ⟨those, hthose⟩ := ih fun j hj => h j (List.mem_cons_of_mem _ hj)
      have hlt : i < metadata.length := h i List.mem_cons_self
      have hi : subscript metadata i = .ok metadata[i] := by
        rw [subscript, List.getElem?_eq_getElem hlt]
      refine ⟨metadata[i] :: those, ?_⟩
      rw [List.mapM_cons, hi, hthose]
      rfl

/-- Batches of misses are answered with the vectors of their texts. -/
theorem mapM_missBatches (hprovider : provider.Embeds vectorOf) (batches : List MissBatch) :
    (batches.mapM fun batch =>
        return (← provider.embed batch.texts batch.metadata, batch.indices) :
      Except EmbedError (List (List V × List ℕ))) =
        .ok (batches.map fun batch => (batch.texts.map vectorOf, batch.indices)) := by
  apply mapM_ok
  intro batch _
  rw [hprovider]
  rfl

theorem embedMisses_returns (hprovider : provider.Embeds vectorOf)
    (hlength : metadata.length = texts.length) {batchSize : ℕ} (hsize : 1 ≤ batchSize)
    {scan : CacheScan V} (h : ScansTo vectorOf texts texts.length scan) (cache : EmbeddingCache V) :
    (embedMisses provider metadata batchSize scan).Returns cache fun cached =>
      FoundIn vectorOf texts cached ∧ ∀ i < texts.length, (cached i).isSome := by
  obtain ⟨missMetadata, hmetadata⟩ :
      ∃ missMetadata, scan.missIndices.mapM (subscript metadata) = .ok missMetadata :=
    mapM_subscript_ok fun i hi => hlength ▸ h.indices.lt_length hi
  unfold embedMisses
  apply Embedding.Returns.bind_lift hmetadata
  split_ifs with hfew hzero
  · apply Embedding.Returns.bind_lift (hprovider _ _)
    obtain ⟨cached, cache', hrun, hfound, hcovers⟩ :=
      storeResults_returns provider hlength h.indices h.found cache
    exact ⟨cached, cache', hrun, hfound, fun i hi => hcovers i (h.covers i hi)⟩
  · omega
  · apply Embedding.Returns.bind_lift (mapM_missBatches hprovider _)
    have hslices : ∀ batch ∈ missBatches batchSize scan.misses missMetadata scan.missIndices,
        IndicesOf texts batch.indices batch.texts := by
      intro batch hbatch
      obtain ⟨start, -, rfl⟩ := List.mem_map.mp hbatch
      exact h.indices.slice batchSize start
    obtain ⟨cached, cache', hrun, hfound, hcovers⟩ :=
      foldlM_storeResults_returns provider hlength hslices h.found cache
    refine ⟨cached, cache', hrun, hfound, ?_⟩
    intro i hi
    apply hcovers
    obtain hsome | hmiss := h.covers i hi
    · exact .inl hsome
    · right
      obtain ⟨start, hstart, hmem⟩ := exists_sliceAt_of_mem hsize hmiss
      rw [h.indices.length_eq] at hstart
      exact ⟨_, List.mem_map.mpr ⟨start, hstart, rfl⟩, hmem⟩

/-- Whatever the cache has, each text gets the vector of the provider. -/
theorem embedWithCache_returns (hprovider : provider.Embeds vectorOf)
    (hlength : metadata.length = texts.length) {batchSize : ℕ} (hsize : 1 ≤ batchSize)
    (useCache : Bool) (hcache : ConsistentCache provider vectorOf cache texts metadata) :
    (embedWithCache provider texts metadata useCache batchSize).Returns cache
      fun vectors => vectors = texts.map vectorOf := by
  unfold embedWithCache
  split_ifs
  · exact .lift (hprovider texts metadata) rfl
  · obtain ⟨scan, hscan, h⟩ := scanCache_scansTo [] {} (List.nil_append texts).symm hlength hcache
      (ScansTo.nil vectorOf texts)
    apply Embedding.Returns.bind_get
    apply Embedding.Returns.bind_lift hscan
    have hcached : (if scan.misses.isEmpty then pure scan.cachedResults
        else embedMisses provider metadata batchSize scan : Embedding V (ℕ → Option V)).Returns
          cache fun cached => FoundIn vectorOf texts cached ∧
            ∀ i < texts.length, (cached i).isSome := by
      split_ifs with hempty
      · refine .pure ⟨h.found, ?_⟩
        intro i hi
        have hlen := h.indices.length_eq
        rw [List.isEmpty_iff.mp hempty, List.length_nil, List.length_eq_zero_iff] at hlen
        simpa [hlen] using h.covers i hi
      · exact embedMisses_returns hprovider hlength hsize h cache
    apply hcached.bind
    rintro cached cache' ⟨hfound, hall⟩
    refine Embedding.Returns.lift (mapM_range_ok ?_) rfl
    intro i text htext
    obtain ⟨vector, hget⟩ :=
      Option.isSome_iff_exists.mp (hall i (List.getElem?_eq_some_iff.mp htext).1)
    have hvector := hfound i vector hget
    rw [htext, Option.map_some] at hvector
    rw [hget, Option.some.inj hvector]

theorem scanCache_of_length_ne {rest : List String} {restMetadata : List EmbeddingMetadata}
    (h : restMetadata.length ≠ rest.length) (i : ℕ) (scan : CacheScan V) :
    scanCache provider cache i rest restMetadata scan = .error .valueError := by
  induction rest generalizing i restMetadata scan with
  | nil =>
      cases restMetadata with
      | nil => exact absurd rfl h
      | cons m restMetadata => rfl
  | cons text rest ih =>
      cases restMetadata with
      | nil => rfl
      | cons m restMetadata => exact ih (by simpa using h) _ _

theorem embedWithCache_of_length_ne (hne : texts ≠ [])
    (h : texts.length ≠ metadata.length) (batchSize : ℕ) (cache : EmbeddingCache V) :
    ((embedWithCache provider texts metadata true batchSize).run.run cache).1 =
      .error .valueError := by
  have hscan : scanCache provider cache 0 texts metadata {} = .error .valueError :=
    scanCache_of_length_ne h.symm 0 {}
  simp only [embedWithCache, List.isEmpty_eq_false_iff.mpr hne, Bool.not_true, Bool.or_false, Bool.false_eq_true, if_false]
  change (ExceptT.run (liftExcept (scanCache provider cache 0 texts metadata {}) >>= _) cache).1 = _
  rw [hscan]
  rfl

/-- The long path calls a name that is unbound there. -/
theorem batchEmbed_of_long {batchSize : ℕ} (hsize : 1 ≤ batchSize)
    (hlong : batchSize < texts.length) (useCache : Bool) (cache : EmbeddingCache V) :
    ((EmbeddingBatcher.batchEmbed provider batchSize useCache texts metadata).run.run cache).1 =
      .error (if texts.length = metadata.length then .nameError else .valueError) := by
  have hne : texts ≠ [] := List.ne_nil_of_length_pos (Nat.zero_lt_of_lt hlong)
  have hstarts : rangeStarts texts.length batchSize ≠ [] := by
    intro hempty
    have hzero := congrArg List.length hempty
    simp only [rangeStarts, List.length_map, List.length_range, List.length_nil,
      Nat.div_eq_zero_iff] at hzero
    omega
  simp only [EmbeddingBatcher.batchEmbed, List.isEmpty_eq_false_iff.mpr hne, Bool.false_eq_true, if_false, not_le.mpr hlong,
    EmbeddingBatcher.splitIntoBatches]
  by_cases hlength : texts.length = metadata.length
  · simp only [hlength, if_true]
    obtain ⟨start, starts, hcons⟩ := List.exists_cons_of_ne_nil hstarts
    rw [hlength] at hcons
    simp only [List.length_zip, hlength, min_self, hcons, List.map_cons]
    rfl
  · simp only [hlength, if_false]
    rfl

end

/-- Both return the vectors of the provider, in order, or raise the same exception, exactly if
the list is no longer than a batch or the lookup refuses it. -/
theorem batchEmbed_agrees_iff {V : Type} (provider : EmbeddingProvider V) (vectorOf : String → V)
    (hprovider : provider.Embeds vectorOf) (batchSize : ℕ) (hsize : 1 ≤ batchSize)
    (useCache : Bool) (texts : List String) (metadatas : List EmbeddingMetadata)
    (cache : EmbeddingCache V) (hcache : ConsistentCache provider vectorOf cache texts metadatas) :
    let batched :=
      ((EmbeddingBatcher.batchEmbed provider batchSize useCache texts metadatas).run.run cache).1
    let plain := ((embedWithCache provider texts metadatas useCache).run.run cache).1
    (metadatas.length = texts.length → plain = .ok (texts.map vectorOf)) ∧
      (batched = plain ↔
        texts.length ≤ batchSize ∨ useCache = true ∧ texts.length ≠ metadatas.length) := by
  intro batched plain
  have hplain (h : metadatas.length = texts.length) : plain = .ok (texts.map vectorOf) := by
    obtain ⟨vectors, cache', hrun, rfl⟩ :=
      embedWithCache_returns hprovider h (by decide : 1 ≤ 100) useCache hcache
    exact congrArg Prod.fst hrun
  refine ⟨hplain, ?_⟩
  by_cases hshort : texts.length ≤ batchSize
  · refine iff_of_true ?_ (.inl hshort)
    cases texts with
    | nil =>
        have hempty : plain = provider.embed [] metadatas := by
          simp only [plain, embedWithCache, List.isEmpty_nil, Bool.or_true, if_true]
          rfl
        rw [hempty, hprovider]
        rfl
    | cons text texts =>
        simp only [batched, plain, EmbeddingBatcher.batchEmbed, List.isEmpty_cons,
          Bool.false_eq_true, if_false, hshort, if_true]
  · have hlong : batchSize < texts.length := not_le.mp hshort
    have hbatched : batched = _ := batchEmbed_of_long hsize hlong useCache cache
    rw [hbatched, or_iff_right hshort]
    by_cases hlength : texts.length = metadatas.length
    · rw [hplain hlength.symm]
      simp [hlength]
    · rw [if_neg hlength]
      cases useCache with
      | false =>
          have hdirect : plain = provider.embed texts metadatas := rfl
          rw [hdirect, hprovider]
          simp
      | true =>
          have hrefused : plain = .error .valueError := by
            have hne : texts ≠ [] := List.ne_nil_of_length_pos (Nat.zero_lt_of_lt hlong)
            exact embedWithCache_of_length_ne hne hlength 100 cache
          simp [hrefused, hlength]

/-- A provider that gives each text its length. -/
def lengthProvider : EmbeddingProvider ℕ where
  modelName := "text-embedding-3-small"
  providerName := "openai"
  embed texts _ := .ok (texts.map String.length)

def shortTexts : List String := ["one", "three"]

def shortMetadatas : List EmbeddingMetadata :=
  [{ documentId := "d", chunkId := "1", source := "a.md", contentHash := "h1" },
    { documentId := "d", chunkId := "2", source := "a.md", contentHash := "h2" }]

/-- Two texts in batches of one. -/
theorem batchEmbed_raises :
    ((EmbeddingBatcher.batchEmbed lengthProvider 1 true shortTexts shortMetadatas).run.run
        fun _ => none).1 = .error .nameError ∧
      ((embedWithCache lengthProvider shortTexts shortMetadatas true).run.run
        fun _ => none).1 = .ok [3, 5] := by
  decide +kernel

theorem batchEmbed_agrees_iff_short :
    ((EmbeddingBatcher.batchEmbed lengthProvider 2 true shortTexts shortMetadatas).run.run
        fun _ => none).1 =
      ((embedWithCache lengthProvider shortTexts shortMetadatas true).run.run
        fun _ => none).1 := by
  have hagrees := batchEmbed_agrees_iff lengthProvider String.length (fun _ _ => rfl) 2
    (by decide) true shortTexts shortMetadatas (fun _ => none)
    (fun pair _ vector hvector => by cases hvector)
  exact hagrees.2.mpr (.inl (by decide))

end Zyntry
