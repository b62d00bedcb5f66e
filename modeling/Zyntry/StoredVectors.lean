import Zyntry.Chunking
import Zyntry.StepRuns
import Mathlib.Data.List.Nodup

/-!
# The stored vectors of a project

A build replaces the chunk rows of its runtime and writes the vectors of the new rows; the
vectors of the rows before them stay in the store, which the database empties of the vectors
of a deleted document. The self-healing service marks rows as embedded and indexed.
-/

namespace Zyntry

structure StoredDocument where
  id : ℕ
  content : List Char
  source : Option String

/-- `RuntimeBuildChunk`, with the text that its metadata keeps. -/
structure ChunkRow where
  id : ℕ
  documentId : Option ℕ
  content : List Char
  embedded : Bool := false
  indexed : Bool := false
deriving DecidableEq, Repr

structure EmbeddingRow (V : Type) where
  documentId : Option ℕ
  vector : List V

/-- `SET NULL`. -/
def ChunkRow.unlinked (id : ℕ) (c : ChunkRow) : ChunkRow :=
  if c.documentId = some id then { c with documentId := none } else c

def ChunkRow.repaired (c : ChunkRow) : ChunkRow :=
  if c.embedded = false ∧ c.indexed = false then { c with embedded := true, indexed := true } else c

/-- The row is marked. -/
def ChunkRow.Marked (c : ChunkRow) : Prop := c.embedded = true ∨ c.indexed = true

inductive VectorStore where
  | pgvector
  /-- `InMemoryVectorStore`, which is made anew for each build. -/
  | memory
deriving DecidableEq, Repr

/-- The rows of one project with its runtime; ids are drawn from one sequence. -/
structure VectorTables (V : Type) where
  documents : List StoredDocument := []
  chunkRows : List ChunkRow := []
  embeddings : ℕ → Option (EmbeddingRow V) := fun _ => none
  nextId : ℕ := 0

/-- The settings of a build that succeeds, and what `embed_with_cache` returns for the texts
that it is given, by index. -/
structure SuccessfulBuild (V : Type) where
  vectorStore : VectorStore := .pgvector
  chunkSize : ℕ := 512
  chunkOverlap : ℕ := 64
  embeddings : ℕ → List V

inductive VectorAction (V : Type) where
  | uploadDocument (content : List Char) (source : Option String)
  | deleteDocument (id : ℕ)
  | build (b : SuccessfulBuild V)
  | repairFailedEmbeddings

namespace VectorTables

variable {V : Type} (M : ChunkingMethods)

/-- `chunk_documents`. -/
def chunkDocuments (b : SuccessfulBuild V) (documents : List StoredDocument) :
    List (ℕ × List Char) :=
  documents.flatMap fun d =>
    ((chunkDocument M d.content b.chunkSize b.chunkOverlap "auto" none d.source
      (some (toString d.id))).getD []).map fun c => (d.id, c.content)

/-- Rows for the chunks of the documents. -/
def createRows (nextId : ℕ) : List (ℕ × List Char) → List ChunkRow
  | [] => []
  | (document, content) :: chunks =>
      { id := nextId, documentId := some document, content } :: createRows (nextId + 1) chunks

/-- `doc_map.get(...)`, if the document has content. -/
def documentOf (documents : List StoredDocument) (c : ChunkRow) : Option StoredDocument :=
  (c.documentId.bind fun id => documents.find? fun d => d.id = id).filter fun d => d.content ≠ []

/-- `_stage_generate_embeddings`, with the vectors of `_generated_embeddings`. -/
def generateEmbeddings (documents : List StoredDocument) (embeddings : ℕ → List V) :
    ℕ → List ChunkRow → List (ChunkRow × Option (List V))
  | _, [] => []
  | idx, c :: cs =>
      if c.embedded = false ∧ (documentOf documents c).isSome then
        ({ c with embedded := true }, some (embeddings idx)) ::
          generateEmbeddings documents embeddings (idx + 1) cs
      else (c, none) :: generateEmbeddings documents embeddings idx cs

/-- `_stage_store_embeddings`, for one row. -/
def storeEmbedding : ChunkRow × Option (List V) → ChunkRow × Option (EmbeddingRow V)
  | (c, generated) =>
      match generated with
      | some (x :: xs) =>
          if c.embedded = true ∧ c.indexed = false then
            ({ c with indexed := true }, some ⟨c.documentId, x :: xs⟩)
          else (c, none)
      | _ => (c, none)

/-- `INSERT … ON CONFLICT (id) DO UPDATE`. -/
def upsert (embeddings : ℕ → Option (EmbeddingRow V)) (v : ℕ × EmbeddingRow V) :
    ℕ → Option (EmbeddingRow V) :=
  Function.update embeddings v.1
    (some ⟨((embeddings v.1).getD v.2).documentId, v.2.vector⟩)

def bulkUpsert (store : VectorStore) (embeddings : ℕ → Option (EmbeddingRow V))
    (vectors : List (ℕ × EmbeddingRow V)) : ℕ → Option (EmbeddingRow V) :=
  match store with
  | .pgvector => vectors.foldl upsert embeddings
  | .memory => embeddings

/-- The rows of a build, with the vectors that are stored for them. -/
def builtRows (b : SuccessfulBuild V) (s : VectorTables V) :
    List (ChunkRow × Option (EmbeddingRow V)) :=
  (generateEmbeddings s.documents b.embeddings 0
    (createRows s.nextId (chunkDocuments M b s.documents))).map storeEmbedding

/-- The vectors of the rows that have one. -/
def rowVectors (rows : List (ChunkRow × Option (EmbeddingRow V))) : List (ℕ × EmbeddingRow V) :=
  rows.filterMap fun r => r.2.map fun e => (r.1.id, e)

def build (b : SuccessfulBuild V) (s : VectorTables V) : VectorTables V :=
  let rows := builtRows M b s
  { s with
    chunkRows := rows.map Prod.fst
    embeddings := bulkUpsert b.vectorStore s.embeddings (rowVectors rows)
    nextId := s.nextId + rows.length }

def uploadDocument (content : List Char) (source : Option String) (s : VectorTables V) :
    VectorTables V :=
  { s with documents := s.documents ++ [⟨s.nextId, content, source⟩], nextId := s.nextId + 1 }

/-- The foreign keys of the tables: `SET NULL` for the chunks, `CASCADE` for the embeddings. -/
def deleteDocument (id : ℕ) (s : VectorTables V) : VectorTables V :=
  { s with
    documents := s.documents.filter fun d => d.id ≠ id
    chunkRows := s.chunkRows.map (ChunkRow.unlinked id)
    embeddings := fun k => (s.embeddings k).filter fun e => e.documentId ≠ some id }

/-- `SelfHealingService.repair_failed_embeddings`. -/
def repairFailedEmbeddings (s : VectorTables V) : VectorTables V :=
  { s with chunkRows := s.chunkRows.map ChunkRow.repaired }

def step (s : VectorTables V) : VectorAction V → VectorTables V
  | .uploadDocument content source => s.uploadDocument content source
  | .deleteDocument id => s.deleteDocument id
  | .build b => s.build M b
  | .repairFailedEmbeddings => s.repairFailedEmbeddings

/-- A row is marked only if its vector exists. -/
def Backed (s : VectorTables V) : Prop :=
  ∀ c ∈ s.chunkRows, c.Marked → (s.embeddings c.id).isSome

/-- The rows and the vectors have the same ids. -/
def Corresponds (s : VectorTables V) : Prop :=
  ∀ id, (s.embeddings id).isSome ↔ ∃ c ∈ s.chunkRows, c.id = id

/-- What an action leaves. -/
def Correct (s : VectorTables V) (a : VectorAction V) : Prop :=
  (∀ b, a = .build b → (s.step M a).Corresponds) ∧ (s.step M a).Backed

/-- A build finds no vectors, keeps its own ones and gets no empty vector; a document is deleted
when none of its rows is marked, and a repair finds every row marked. -/
def Meets (s : VectorTables V) : VectorAction V → Prop
  | .uploadDocument _ _ => True
  | .deleteDocument id =>
      ∀ c ∈ s.chunkRows, c.documentId = some id → ¬c.Marked
  | .build b =>
      (∀ id, s.embeddings id = none) ∧
        (chunkDocuments M b s.documents ≠ [] → b.vectorStore = .pgvector) ∧
        ∀ idx < (chunkDocuments M b s.documents).length, b.embeddings idx ≠ []
  | .repairFailedEmbeddings => ∀ c ∈ s.chunkRows, c.Marked

/-! ## The rows of a build -/

/-- What holds after actions that meet the conditions. -/
structure Stored (s : VectorTables V) : Prop where
  backed : s.Backed
  row : ∀ id e, s.embeddings id = some e →
    ∃ c ∈ s.chunkRows, c.id = id ∧ c.indexed = true ∧ c.documentId = e.documentId
  rows_nodup : (s.chunkRows.map ChunkRow.id).Nodup
  rows_lt : ∀ c ∈ s.chunkRows, c.id < s.nextId
  documents_nodup : (s.documents.map StoredDocument.id).Nodup
  documents_lt : ∀ d ∈ s.documents, d.id < s.nextId

theorem Stored.eq_of_id {s : VectorTables V} (hs : s.Stored) {c c' : ChunkRow}
    (hc : c ∈ s.chunkRows) (hc' : c' ∈ s.chunkRows) (hid : c.id = c'.id) : c = c' :=
  List.inj_on_of_nodup_map hs.rows_nodup hc hc' hid

theorem Stored.lt {s : VectorTables V} (hs : s.Stored) {id : ℕ} (h : (s.embeddings id).isSome) :
    id < s.nextId := by
  obtain ⟨e, he⟩ := Option.isSome_iff_exists.mp h
  obtain ⟨c, hc, rfl, -⟩ := hs.row id e he
  exact hs.rows_lt c hc

theorem id_createRows (nextId : ℕ) (chunks : List (ℕ × List Char)) :
    (createRows nextId chunks).map ChunkRow.id = List.range' nextId chunks.length := by
  induction chunks generalizing nextId with
  | nil => rfl
  | cons chunk chunks ih => exact congrArg (nextId :: ·) (ih (nextId + 1))

/-- A row that no stage has touched, of a document with content. -/
def Fresh (documents : List StoredDocument) (c : ChunkRow) : Prop :=
  c.embedded = false ∧ c.indexed = false ∧ (documentOf documents c).isSome

theorem documentOf_of_mem {documents : List StoredDocument}
    (hnodup : (documents.map StoredDocument.id).Nodup) {d : StoredDocument} (hd : d ∈ documents)
    (hcontent : d.content ≠ []) {c : ChunkRow} (hc : c.documentId = some d.id) :
    documentOf documents c = some d := by
  have hfind : documents.find? (fun d' => d'.id = d.id) = some d := by
    cases hcases : documents.find? fun d' => d'.id = d.id with
    | none => exact absurd (List.find?_eq_none.mp hcases d hd) (by simp)
    | some d' =>
        have hid : d'.id = d.id := by simpa using List.find?_some hcases
        rw [List.inj_on_of_nodup_map hnodup (List.mem_of_find?_eq_some hcases) hd hid]
  rw [documentOf, hc, Option.bind_some, hfind]
  simp [Option.filter, hcontent]

theorem fresh_createRows {documents : List StoredDocument}
    (hnodup : (documents.map StoredDocument.id).Nodup) (nextId : ℕ)
    (chunks : List (ℕ × List Char))
    (hchunks : ∀ chunk ∈ chunks, ∃ d ∈ documents, d.id = chunk.1 ∧ d.content ≠ []) :
    ∀ c ∈ createRows nextId chunks, Fresh documents c := by
  induction chunks generalizing nextId with
  | nil => simp [createRows]
  | cons chunk chunks ih =>
      intro c hc
      rcases List.mem_cons.mp hc with rfl | hc
      · obtain ⟨d, hd, hid, hcontent⟩ := hchunks chunk List.mem_cons_self
        refine ⟨rfl, rfl, ?_⟩
        rw [documentOf_of_mem hnodup hd hcontent (by rw [hid])]
        rfl
      · exact ih (nextId + 1) (fun chunk h => hchunks chunk (List.mem_cons_of_mem _ h)) c hc

theorem mem_chunkDocuments {b : SuccessfulBuild V} {documents : List StoredDocument}
    {chunk : ℕ × List Char} (h : chunk ∈ chunkDocuments M b documents) :
    ∃ d ∈ documents, d.id = chunk.1 ∧ d.content ≠ [] := by
  obtain ⟨d, hd, hchunk⟩ := List.mem_flatMap.mp h
  obtain ⟨c, hc, rfl⟩ := List.mem_map.mp hchunk
  refine ⟨d, hd, rfl, fun hempty => ?_⟩
  rw [hempty, chunkDocument, if_pos (by rfl)] at hc
  cases hc

/-- What a build makes of one row. -/
structure BuiltRow (c : ChunkRow) (vector : List V) (r : ChunkRow × Option (EmbeddingRow V)) :
    Prop where
  id : r.1.id = c.id
  embedded : r.1.embedded = true
  indexed : r.1.indexed = true ↔ r.2.isSome
  document : ∀ e, r.2 = some e → e.documentId = r.1.documentId
  stored : r.2.isSome ↔ vector ≠ []

theorem builtRow_storeEmbedding {c : ChunkRow} (hc : c.indexed = false) (vector : List V) :
    BuiltRow c vector (storeEmbedding ({ c with embedded := true }, some vector)) := by
  cases vector with
  | nil => constructor <;> simp [storeEmbedding, hc]
  | cons x xs => constructor <;> simp +contextual [storeEmbedding, hc]

/-- The rows of a build, each with its vector. -/
theorem builtRows_generateEmbeddings {documents : List StoredDocument}
    (embeddings : ℕ → List V) (idx : ℕ) {rows : List ChunkRow}
    (hrows : ∀ c ∈ rows, Fresh documents c) :
    ((generateEmbeddings documents embeddings idx rows).map storeEmbedding).map (fun r => r.1.id) =
        rows.map ChunkRow.id ∧
      ∀ i c, rows[i]? = some c →
        ∃ r, ((generateEmbeddings documents embeddings idx rows).map storeEmbedding)[i]? = some r ∧
          BuiltRow c (embeddings (idx + i)) r := by
  induction rows generalizing idx with
  | nil => exact ⟨rfl, by simp⟩
  | cons c rows ih =>
      obtain ⟨hembedded, hindexed, hdocument⟩ := hrows c List.mem_cons_self
      have hrow := builtRow_storeEmbedding hindexed (embeddings idx)
      obtain ⟨hids, hrest⟩ := ih (idx + 1) fun c hc => hrows c (List.mem_cons_of_mem _ hc)
      rw [generateEmbeddings, if_pos ⟨hembedded, hdocument⟩, List.map_cons, List.map_cons, hids,
        hrow.id]
      refine ⟨rfl, fun i c' hi => ?_⟩
      cases i with
      | zero =>
          obtain rfl : c = c' := Option.some.inj hi
          exact ⟨_, rfl, hrow⟩
      | succ i =>
          obtain ⟨r, hr, hbuilt⟩ := hrest i c' hi
          rw [Nat.add_right_comm] at hbuilt
          exact ⟨r, hr, hbuilt⟩

/-- What the build of a stored project writes. -/
structure Rows (M : ChunkingMethods) (b : SuccessfulBuild V) (s : VectorTables V) : Prop where
  ids : (builtRows M b s).map (fun r => r.1.id) =
    List.range' s.nextId (chunkDocuments M b s.documents).length
  embedded : ∀ r ∈ builtRows M b s, r.1.embedded = true
  indexed : ∀ r ∈ builtRows M b s, r.1.indexed = true ↔ r.2.isSome
  document : ∀ r ∈ builtRows M b s, ∀ e, r.2 = some e → e.documentId = r.1.documentId
  stored : (∀ r ∈ builtRows M b s, r.2.isSome) ↔
    ∀ idx < (chunkDocuments M b s.documents).length, b.embeddings idx ≠ []

theorem Stored.newRows {s : VectorTables V} (hs : s.Stored) (b : SuccessfulBuild V) :
    Rows M b s := by
  have hfresh := fresh_createRows hs.documents_nodup s.nextId (chunkDocuments M b s.documents)
    fun _ h => mem_chunkDocuments M h
  obtain ⟨hids, hrows⟩ :=
    builtRows_generateEmbeddings b.embeddings 0 hfresh
  rw [id_createRows] at hids
  have hlength : (builtRows M b s).length = (chunkDocuments M b s.documents).length := by
    simpa [VectorTables.builtRows] using congrArg List.length hids
  have hcreated : (createRows s.nextId (chunkDocuments M b s.documents)).length =
      (chunkDocuments M b s.documents).length := by
    simpa using congrArg List.length (id_createRows s.nextId (chunkDocuments M b s.documents))
  have hat : ∀ i < (chunkDocuments M b s.documents).length, ∃ c r,
      (builtRows M b s)[i]? = some r ∧ BuiltRow c (b.embeddings i) r := by
    intro i hi
    obtain ⟨r, hr, hbuilt⟩ := hrows i _ (List.getElem?_eq_getElem (hcreated ▸ hi))
    rw [Nat.zero_add] at hbuilt
    exact ⟨_, r, hr, hbuilt⟩
  have hmem : ∀ r ∈ builtRows M b s, ∃ i c,
      i < (chunkDocuments M b s.documents).length ∧ BuiltRow c (b.embeddings i) r := by
    intro r hr
    obtain ⟨i, hi, rfl⟩ := List.mem_iff_getElem.mp hr
    obtain ⟨c, r, hget, hbuilt⟩ := hat i (hlength ▸ hi)
    rw [List.getElem?_eq_getElem hi] at hget
    obtain rfl := Option.some.inj hget
    exact ⟨i, c, hlength ▸ hi, hbuilt⟩
  refine ⟨hids, ?_, ?_, ?_, ?_, ?_⟩
  · intro r hr
    obtain ⟨i, c, -, hbuilt⟩ := hmem r hr
    exact hbuilt.embedded
  · intro r hr
    obtain ⟨i, c, -, hbuilt⟩ := hmem r hr
    exact hbuilt.indexed
  · intro r hr
    obtain ⟨i, c, -, hbuilt⟩ := hmem r hr
    exact hbuilt.document
  · intro hstored i hi
    obtain ⟨c, r, hget, hbuilt⟩ := hat i hi
    exact hbuilt.stored.mp (hstored r (List.mem_of_getElem? hget))
  · intro hne r hr
    obtain ⟨i, c, hi, hbuilt⟩ := hmem r hr
    exact hbuilt.stored.mpr (hne i hi)

/-! ## The store -/

variable {M} {s : VectorTables V}

theorem isSome_foldl_upsert (embeddings : ℕ → Option (EmbeddingRow V))
    (vectors : List (ℕ × EmbeddingRow V)) (id : ℕ) :
    (vectors.foldl upsert embeddings id).isSome ↔
      (embeddings id).isSome ∨ ∃ v ∈ vectors, v.1 = id := by
  induction vectors generalizing embeddings with
  | nil => simp
  | cons v vectors ih =>
      rw [List.foldl_cons, ih]
      by_cases hid : id = v.1
      · subst hid
        simp [upsert]
      · rw [upsert, Function.update_of_ne hid]
        simp [Ne.symm hid]

/-- The store has nothing but what it had and what is upserted. -/
theorem foldl_upsert_of_forall {P : ℕ → Option ℕ → Prop}
    {embeddings : ℕ → Option (EmbeddingRow V)} {vectors : List (ℕ × EmbeddingRow V)}
    (hstored : ∀ id e, embeddings id = some e → P id e.documentId)
    (hvectors : ∀ v ∈ vectors, P v.1 v.2.documentId) :
    ∀ id e, vectors.foldl upsert embeddings id = some e → P id e.documentId := by
  induction vectors generalizing embeddings with
  | nil => exact hstored
  | cons v vectors ih =>
      refine ih ?_ fun v' hv' => hvectors v' (List.mem_cons_of_mem _ hv')
      intro id e he
      by_cases hid : id = v.1
      · subst hid
        rw [upsert, Function.update_self] at he
        obtain rfl := Option.some.inj he
        cases hold : embeddings v.1 with
        | none => exact hvectors v List.mem_cons_self
        | some old => exact hstored v.1 old hold
      · rw [upsert, Function.update_of_ne hid] at he
        exact hstored id e he

theorem mem_rowVectors {rows : List (ChunkRow × Option (EmbeddingRow V))}
    {v : ℕ × EmbeddingRow V} :
    v ∈ rowVectors rows ↔ ∃ r ∈ rows, r.2 = some v.2 ∧ r.1.id = v.1 := by
  unfold rowVectors
  rw [List.mem_filterMap]
  constructor
  · rintro ⟨r, hr, hv⟩
    obtain ⟨e, he, rfl⟩ := Option.map_eq_some_iff.mp hv
    exact ⟨r, hr, he, rfl⟩
  · rintro ⟨r, hr, he, hid⟩
    exact ⟨r, hr, by rw [he, Option.map_some, hid]⟩

theorem isSome_build {b : SuccessfulBuild V} {id : ℕ} :
    ((s.build M b).embeddings id).isSome ↔ (s.embeddings id).isSome ∨
      b.vectorStore = .pgvector ∧ ∃ r ∈ builtRows M b s, r.2.isSome ∧ r.1.id = id := by
  unfold VectorTables.build bulkUpsert
  cases b.vectorStore with
  | memory => simp
  | pgvector =>
      simp only [isSome_foldl_upsert, true_and]
      refine or_congr_right ?_
      constructor
      · rintro ⟨v, hv, rfl⟩
        obtain ⟨r, hr, he, hid⟩ := mem_rowVectors.mp hv
        exact ⟨r, hr, by rw [he]; rfl, hid⟩
      · rintro ⟨r, hr, hsome, rfl⟩
        obtain ⟨e, he⟩ := Option.isSome_iff_exists.mp hsome
        exact ⟨(r.1.id, e), mem_rowVectors.mpr ⟨r, hr, he, rfl⟩, rfl⟩

/-! ## One action -/

theorem Rows.le {b : SuccessfulBuild V} (h : Rows M b s) {r : ChunkRow × Option (EmbeddingRow V)}
    (hr : r ∈ builtRows M b s) :
    s.nextId ≤ r.1.id ∧ r.1.id < s.nextId + (chunkDocuments M b s.documents).length := by
  have hmem : r.1.id ∈ (builtRows M b s).map fun r => r.1.id := List.mem_map_of_mem hr
  rw [h.ids] at hmem
  exact List.mem_range'_1.mp hmem

theorem Rows.eq_of_id {b : SuccessfulBuild V} (h : Rows M b s)
    {r r' : ChunkRow × Option (EmbeddingRow V)} (hr : r ∈ builtRows M b s)
    (hr' : r' ∈ builtRows M b s) (hid : r.1.id = r'.1.id) : r = r' := by
  have hnodup : ((builtRows M b s).map fun r => r.1.id).Nodup := h.ids ▸ List.nodup_range'
  exact List.inj_on_of_nodup_map hnodup hr hr' hid

theorem Stored.build_correct (hs : s.Stored) {b : SuccessfulBuild V} (h : s.Meets M (.build b)) :
    s.Correct M (.build b) := by
  obtain ⟨hempty, hstore, hvectors⟩ := h
  have hrows := hs.newRows M b
  have hstored := hrows.stored.mpr hvectors
  have hid : ∀ id, ((s.build M b).embeddings id).isSome ↔ ∃ r ∈ builtRows M b s, r.1.id = id := by
    intro id
    rw [isSome_build, hempty id]
    constructor
    · rintro (hnone | ⟨-, r, hr, -, hid⟩)
      · cases hnone
      · exact ⟨r, hr, hid⟩
    · rintro ⟨r, hr, hid⟩
      refine .inr ⟨hstore fun hnil => ?_, r, hr, hstored r hr, hid⟩
      have hbounds := hrows.le hr
      rw [hnil, List.length_nil] at hbounds
      omega
  constructor
  · intro _ _ id
    rw [step, hid]
    constructor
    · rintro ⟨r, hr, rfl⟩
      exact ⟨r.1, List.mem_map_of_mem hr, rfl⟩
    · rintro ⟨c, hc, rfl⟩
      obtain ⟨r, hr, rfl⟩ := List.mem_map.mp hc
      exact ⟨r, hr, rfl⟩
  · intro c hc _
    obtain ⟨r, hr, rfl⟩ := List.mem_map.mp hc
    exact (hid _).mpr ⟨r, hr, rfl⟩

theorem Stored.build_meets (hs : s.Stored) {b : SuccessfulBuild V} (h : s.Correct M (.build b)) :
    s.Meets M (.build b) := by
  obtain ⟨hcorresponds, hbacked⟩ := h
  replace hcorresponds := hcorresponds b rfl
  have hrows := hs.newRows M b
  -- a new row has its vector from this build
  have hnew : ∀ r ∈ builtRows M b s, b.vectorStore = .pgvector ∧ r.2.isSome := by
    intro r hr
    have hsome := hbacked r.1 (List.mem_map_of_mem hr) (.inl (hrows.embedded r hr))
    rw [step, isSome_build] at hsome
    rcases hsome with hold | ⟨hpgvector, r', hr', hsome, hid⟩
    · have hlt := hs.lt hold
      have hle := (hrows.le hr).1
      omega
    · exact ⟨hpgvector, hrows.eq_of_id hr' hr hid ▸ hsome⟩
  refine ⟨fun id => ?_, fun hne => ?_, hrows.stored.mp fun r hr => (hnew r hr).2⟩
  · by_contra hsome
    have hold : (s.embeddings id).isSome := Option.isSome_iff_ne_none.mpr hsome
    obtain ⟨c, hc, rfl⟩ := (hcorresponds id).mp (isSome_build.mpr (.inl hold))
    obtain ⟨r, hr, rfl⟩ := List.mem_map.mp hc
    have hlt := hs.lt hold
    have hle := (hrows.le hr).1
    omega
  · have hlength := congrArg List.length hrows.ids
    rw [List.length_map, List.length_range'] at hlength
    have hpos : 0 < (builtRows M b s).length := by
      rw [hlength]
      exact List.length_pos_iff.mpr hne
    obtain ⟨r, hr⟩ := List.exists_mem_of_length_pos hpos
    exact (hnew r hr).1

/-- A vector in the store after a build that has found none is that of a row. -/
theorem Stored.row_of_build (hs : s.Stored) {b : SuccessfulBuild V}
    (hempty : ∀ id, s.embeddings id = none) {id : ℕ} {e : EmbeddingRow V}
    (he : (s.build M b).embeddings id = some e) : ∃ r ∈ builtRows M b s,
      r.1.id = id ∧ r.1.indexed = true ∧ r.1.documentId = e.documentId := by
  have hrows := hs.newRows M b
  have hold : s.embeddings id ≠ some e := by
    rw [hempty id]
    exact nofun
  unfold VectorTables.build bulkUpsert at he
  cases hstore : b.vectorStore with
  | memory =>
      rw [hstore] at he
      exact absurd he hold
  | pgvector =>
      rw [hstore] at he
      refine foldl_upsert_of_forall (P := fun id document => ∃ r ∈ builtRows M b s,
        r.1.id = id ∧ r.1.indexed = true ∧ r.1.documentId = document) ?_ ?_ id e he
      · intro id e he
        cases (hempty id).symm.trans he
      · intro v hv
        obtain ⟨r, hr, he, hid⟩ := mem_rowVectors.mp hv
        refine ⟨r, hr, hid, (hrows.indexed r hr).mpr ?_, (hrows.document r hr v.2 he).symm⟩
        rw [he]
        rfl

theorem Stored.build (hs : s.Stored) {b : SuccessfulBuild V} (h : s.Meets M (.build b)) :
    (s.build M b).Stored := by
  have hrows := hs.newRows M b
  have hlength := congrArg List.length hrows.ids
  rw [List.length_map, List.length_range'] at hlength
  refine ⟨(hs.build_correct h).2, ?_, ?_, ?_, hs.documents_nodup, fun d hd => ?_⟩
  · intro id e he
    obtain ⟨r, hr, hrow⟩ := hs.row_of_build h.1 he
    exact ⟨r.1, List.mem_map_of_mem hr, hrow⟩
  · have hids : ((s.build M b).chunkRows).map ChunkRow.id =
        (builtRows M b s).map fun r => r.1.id := by
      simp [VectorTables.build]
    rw [hids, hrows.ids]
    exact List.nodup_range'
  · intro c hc
    obtain ⟨r, hr, rfl⟩ := List.mem_map.mp hc
    rw [VectorTables.build, hlength]
    exact (hrows.le hr).2
  · exact Nat.lt_add_right _ (hs.documents_lt d hd)

theorem Stored.uploadDocument (hs : s.Stored) (content : List Char) (source : Option String) :
    (s.uploadDocument content source).Stored where
  backed := hs.backed
  row := hs.row
  rows_nodup := hs.rows_nodup
  rows_lt c hc := Nat.lt_succ_of_lt (hs.rows_lt c hc)
  documents_nodup := by
    rw [VectorTables.uploadDocument, List.map_append, List.nodup_append]
    refine ⟨hs.documents_nodup, List.nodup_singleton _, ?_⟩
    intro id hid id' hid'
    obtain ⟨d, hd, rfl⟩ := List.mem_map.mp hid
    have hlt := hs.documents_lt d hd
    simp only [List.map_singleton, List.mem_singleton] at hid'
    omega
  documents_lt d hd := by
    rcases List.mem_append.mp hd with hd | hd
    · exact Nat.lt_succ_of_lt (hs.documents_lt d hd)
    · rw [List.mem_singleton.mp hd]
      exact Nat.lt_succ_self _

theorem unlinked_of_ne {id : ℕ} {c : ChunkRow} (h : c.documentId ≠ some id) : c.unlinked id = c :=
  if_neg h

theorem id_unlinked (id : ℕ) (c : ChunkRow) : (c.unlinked id).id = c.id := by
  unfold ChunkRow.unlinked
  split_ifs <;> rfl

theorem marked_unlinked {id : ℕ} {c : ChunkRow} : (c.unlinked id).Marked ↔ c.Marked := by
  unfold ChunkRow.unlinked
  split_ifs <;> exact Iff.rfl

/-- The vector of a marked row is stored under the document of the row. -/
theorem Stored.document_of_marked (hs : s.Stored) {c : ChunkRow} (hc : c ∈ s.chunkRows)
    (hmarked : c.Marked) : ∃ e, s.embeddings c.id = some e ∧ e.documentId = c.documentId := by
  obtain ⟨e, he⟩ := Option.isSome_iff_exists.mp (hs.backed c hc hmarked)
  obtain ⟨c', hc', hid, -, hdocument⟩ := hs.row c.id e he
  rw [hs.eq_of_id hc' hc hid] at hdocument
  exact ⟨e, he, hdocument.symm⟩

theorem Stored.deleteDocument_iff (hs : s.Stored) (id : ℕ) :
    s.Meets M (.deleteDocument id) ↔ s.Correct M (.deleteDocument id) := by
  constructor
  · intro hmeets
    refine ⟨by simp, ?_⟩
    intro c' hc' hmarked
    obtain ⟨c, hc, rfl⟩ := List.mem_map.mp hc'
    rw [marked_unlinked] at hmarked
    obtain ⟨e, he, hdocument⟩ := hs.document_of_marked hc hmarked
    have hne : e.documentId ≠ some id := fun h => hmeets c hc (hdocument ▸ h) hmarked
    rw [id_unlinked]
    simp [step, VectorTables.deleteDocument, he, hne]
  · rintro ⟨-, hbacked⟩ c hc hdocument hmarked
    have hsome := hbacked (c.unlinked id) (List.mem_map_of_mem hc) (marked_unlinked.mpr hmarked)
    obtain ⟨e, he, hdocument'⟩ := hs.document_of_marked hc hmarked
    rw [id_unlinked] at hsome
    simp [step, VectorTables.deleteDocument, he, hdocument', hdocument] at hsome

theorem Stored.deleteDocument (hs : s.Stored) {id : ℕ} (h : s.Meets M (.deleteDocument id)) :
    (s.deleteDocument id).Stored := by
  have hids : (s.deleteDocument id).chunkRows.map ChunkRow.id = s.chunkRows.map ChunkRow.id := by
    simp only [VectorTables.deleteDocument, List.map_map]
    exact List.map_congr_left fun c _ => id_unlinked id c
  refine ⟨((hs.deleteDocument_iff id).mp h).2, ?_, hids ▸ hs.rows_nodup, ?_, ?_, ?_⟩
  · intro k e he
    obtain ⟨he, hdocument⟩ := Option.filter_eq_some_iff.mp he
    obtain ⟨c, hc, hid, hindexed, hc'⟩ := hs.row k e he
    have hne : c.documentId ≠ some id := by simpa [hc'] using hdocument
    exact ⟨c, List.mem_map.mpr ⟨c, hc, unlinked_of_ne hne⟩, hid, hindexed, hc'⟩
  · intro c' hc'
    obtain ⟨c, hc, rfl⟩ := List.mem_map.mp hc'
    rw [id_unlinked]
    exact hs.rows_lt c hc
  · exact hs.documents_nodup.sublist (List.filter_sublist.map _)
  · exact fun d hd => hs.documents_lt d (List.mem_of_mem_filter hd)

theorem repaired_of_marked {c : ChunkRow} (h : c.Marked) : c.repaired = c := by
  refine if_neg ?_
  rintro ⟨hembedded, hindexed⟩
  simp [ChunkRow.Marked, hembedded, hindexed] at h

theorem repairFailedEmbeddings_of_marked (h : ∀ c ∈ s.chunkRows, c.Marked) :
    s.repairFailedEmbeddings = s := by
  have hrows : s.chunkRows.map ChunkRow.repaired = s.chunkRows := by
    conv_rhs => rw [← List.map_id s.chunkRows]
    exact List.map_congr_left fun c hc => repaired_of_marked (h c hc)
  unfold VectorTables.repairFailedEmbeddings
  rw [hrows]

theorem Stored.repair_iff (hs : s.Stored) :
    s.Meets M .repairFailedEmbeddings ↔ s.Correct M .repairFailedEmbeddings := by
  constructor
  · intro hmeets
    refine ⟨by simp, ?_⟩
    rw [step, repairFailedEmbeddings_of_marked hmeets]
    exact hs.backed
  · rintro ⟨-, hbacked⟩ c hc
    by_contra hmarked
    have hfalse : c.embedded = false ∧ c.indexed = false := by
      simpa [ChunkRow.Marked] using hmarked
    have hrepaired : c.repaired = { c with embedded := true, indexed := true } := if_pos hfalse
    -- the row gets no vector, and has none while it is not marked
    have hsome := hbacked c.repaired (List.mem_map_of_mem hc) (by rw [hrepaired]; exact .inl rfl)
    rw [hrepaired] at hsome
    obtain ⟨e, he⟩ := Option.isSome_iff_exists.mp hsome
    obtain ⟨c', hc', hid, hindexed, -⟩ := hs.row c.id e he
    rw [hs.eq_of_id hc' hc hid, hfalse.2] at hindexed
    cases hindexed

/-! ## Sequences of actions -/

theorem Stored.meets_iff (hs : s.Stored) (a : VectorAction V) : s.Meets M a ↔ s.Correct M a := by
  cases a with
  | uploadDocument content source =>
      exact iff_of_true trivial ⟨by simp, (hs.uploadDocument content source).backed⟩
  | deleteDocument id => exact hs.deleteDocument_iff id
  | build b => exact ⟨hs.build_correct, hs.build_meets⟩
  | repairFailedEmbeddings => exact hs.repair_iff

theorem Stored.step (hs : s.Stored) {a : VectorAction V} (h : s.Meets M a) :
    (s.step M a).Stored := by
  cases a with
  | uploadDocument content source => exact hs.uploadDocument content source
  | deleteDocument id => exact hs.deleteDocument h
  | build b => exact hs.build h
  | repairFailedEmbeddings =>
      rw [VectorTables.step, repairFailedEmbeddings_of_marked h]
      exact hs

theorem stored_empty : ({} : VectorTables V).Stored := by
  constructor <;> simp [Backed]

/-- From an empty project on, the vectors match the rows after every action just when every
action meets its condition. -/
theorem vectors_match_iff (M : ChunkingMethods) (actions : List (VectorAction V)) :
    StepRuns.Along (step M) (Meets M) {} actions ↔
      StepRuns.Along (step M) (Correct M) {} actions :=
  StepRuns.along_congr (fun _ a hs => Stored.meets_iff hs a) (fun _ _ hs h => Stored.step hs h)
    stored_empty

/-- A project with one document that is built twice. -/
def builtTwice : List (VectorAction ℕ) :=
  [.uploadDocument "Hello there.".toList none, .build { embeddings := fun _ => [1, 0] },
    .build { embeddings := fun _ => [1, 0] }]

theorem vectors_orphaned :
    let s := builtTwice.foldl (step readmeMethods) {}
    (s.embeddings 1).isSome ∧ s.chunkRows.map ChunkRow.id = [2] ∧ ¬s.Corresponds ∧
      ¬StepRuns.Along (step readmeMethods) (Correct readmeMethods) {} builtTwice := by
  intro s
  have hvector : (s.embeddings 1).isSome := by decide +kernel
  have hrows : s.chunkRows.map ChunkRow.id = [2] := by decide +kernel
  have hnot : ¬s.Corresponds := by
    intro hcorresponds
    obtain ⟨c, hc, hid⟩ := (hcorresponds 1).mp hvector
    have hmem : c.id ∈ s.chunkRows.map ChunkRow.id := List.mem_map_of_mem hc
    rw [hrows, hid] at hmem
    exact absurd hmem (by decide)
  exact ⟨hvector, hrows, hnot, fun h => hnot (h.2.2.1.1 _ rfl)⟩

end VectorTables

end Zyntry
