import Zyntry.TextPieces

/-!
# Citations of retrieved text

The entries of the candidates make up a context, which is cut at a blank line when it is too long.
Citations and sources are built from all candidates. They are grounded in the context if nothing
is cut, and otherwise only as far as the cut falls well.
-/

namespace Python

/-- `text.split("\n\n")`. -/
def splitParagraphs : List Char → List (List Char)
  | '\n' :: '\n' :: cs => [] :: splitParagraphs cs
  | c :: cs => (splitParagraphs cs).modifyHead (c :: ·)
  | [] => [[]]

section Paragraphs

variable {cs cs' : List Char}

theorem splitParagraphs_ne_nil (cs : List Char) : splitParagraphs cs ≠ [] := by
  induction cs using splitParagraphs.induct with
  | case1 cs _ => simp [splitParagraphs]
  | case2 c cs _ ih => simpa [splitParagraphs] using ih
  | case3 => simp [splitParagraphs]

theorem join_modifyHead (sep : List Char) (c : Char) {parts : List (List Char)} (h : parts ≠ []) :
    join sep (parts.modifyHead (c :: ·)) = c :: join sep parts := by
  cases parts with
  | nil => exact absurd rfl h
  | cons part parts => exact List.intercalate_cons_cons_left

theorem join_splitParagraphs (cs : List Char) : join ['\n', '\n'] (splitParagraphs cs) = cs := by
  induction cs using splitParagraphs.induct with
  | case1 cs ih =>
      rw [splitParagraphs, join, List.intercalate_cons_of_ne_nil (splitParagraphs_ne_nil cs)]
      exact congrArg (fun rest => '\n' :: '\n' :: rest) ih
  | case2 c cs hline ih =>
      rw [splitParagraphs, join_modifyHead _ _ (splitParagraphs_ne_nil cs), ih]
      exact hline
  | case3 => rfl

theorem splitParagraphs_cons {c : Char} (h : c ≠ '\n') (cs : List Char) :
    splitParagraphs (c :: cs) = (splitParagraphs cs).modifyHead (c :: ·) := by
  rw [splitParagraphs]
  rintro cs' rfl
  exact absurd rfl h

theorem splitParagraphs_of_notMem (h : '\n' ∉ cs) : splitParagraphs cs = [cs] := by
  induction cs with
  | nil => rfl
  | cons c cs ih =>
      rw [splitParagraphs_cons (List.ne_of_not_mem_cons h).symm,
        ih (List.not_mem_of_not_mem_cons h)]
      rfl

theorem splitParagraphs_append (h : '\n' ∉ cs) (cs' : List Char) :
    splitParagraphs (cs ++ '\n' :: '\n' :: cs') = cs :: splitParagraphs cs' := by
  induction cs with
  | nil => rw [List.nil_append, splitParagraphs]
  | cons c cs ih =>
      rw [List.cons_append, splitParagraphs_cons (List.ne_of_not_mem_cons h).symm,
        ih (List.not_mem_of_not_mem_cons h)]
      rfl

/-- The first pieces of a text are how it begins. -/
theorem prefix_join_append (sep : List Char) (parts parts' : List (List Char)) :
    join sep parts <+: join sep (parts ++ parts') := by
  induction parts with
  | nil => exact List.nil_prefix
  | cons part parts ih =>
      cases parts with
      | nil =>
          rw [join, List.intercalate_singleton]
          cases parts' with
          | nil => exact ⟨[], by simp [join]⟩
          | cons part' parts' =>
              rw [List.singleton_append, join, List.intercalate_cons_cons, List.append_assoc]
              exact List.prefix_append _ _
      | cons part' parts =>
          rw [List.cons_append, List.cons_append, join, join, List.intercalate_cons_cons,
            List.intercalate_cons_cons]
          exact (List.prefix_append_right_inj _).mpr ih

end Paragraphs

end Python

namespace Zyntry

open Python

/-! ## Answers with citations -/

/-- A candidate of the search; of its metadata the section is read. -/
structure HybridSearchResult where
  documentId : String
  text : String
  score : Float
  sectionName : Option String
  source : String
  page : Option ℤ
  title : String

structure Citation where
  documentId : String
  sectionName : Option String
  page : Option ℤ
  source : String
  textSnippet : String

structure SourceDocument where
  id : String
  title : String
  source : String
  page : Option ℤ
  relevanceScore : Float

def citationOf (c : HybridSearchResult) : Citation where
  documentId := c.documentId
  sectionName := c.sectionName
  page := c.page
  source := c.source
  textSnippet := String.ofList (c.text.toList.take 200)

def sourceOf (c : HybridSearchResult) : SourceDocument where
  id := c.documentId
  title := if c.title = "" then c.source else c.title
  source := c.source
  page := c.page
  relevanceScore := c.score

def blankLine : List Char := ['\n', '\n']

/-- What stands before the text of a candidate. -/
def entryLabel (c : HybridSearchResult) : String :=
  "[" ++ c.documentId ++ ":" ++ (c.page.map toString).getD "?" ++ "] "

def contextEntry (c : HybridSearchResult) : List Char := (entryLabel c).toList ++ c.text.toList

/-- `_build_context`. -/
def buildContext (candidates : List HybridSearchResult) : List Char :=
  if candidates.isEmpty then "No relevant context found.".toList
  else join blankLine (candidates.map contextEntry)

/-- A quarter of the length. -/
def estimatedTokens (context : List Char) : ℚ := context.length / 4

/-- How many pieces of a context are kept, computed with floats. -/
def targetChunks (pieces length maxTokens : ℕ) : ℕ :=
  max 1 (Float.ofNat pieces * (Float.ofNat maxTokens / (Float.ofNat length / 4)) *
    0.8).toUInt64.toNat

/-- The pieces of a context before the cut. -/
def keptContext (context : List Char) (maxTokens : ℕ) : List Char :=
  let chunks := splitParagraphs context
  join blankLine (chunks.take (targetChunks chunks.length context.length maxTokens))

/-- `_compress_context`. -/
def compressContext (context : List Char) (maxTokens : ℕ) : List Char :=
  if estimatedTokens context ≤ maxTokens then context else keptContext context maxTokens

/-- What `query` makes of the candidates that it uses. -/
structure RetrievedContext where
  contextText : List Char
  sources : List SourceDocument
  citations : List Citation

def retrieveContext (candidates : List HybridSearchResult) (maxTokens : ℕ) : RetrievedContext where
  contextText := compressContext (buildContext candidates) maxTokens
  sources := candidates.map sourceOf
  citations := candidates.map citationOf

/-- The context is within its limit, and the candidates that are cited stand in it. -/
structure Grounded (candidates : List HybridSearchResult) (maxTokens : ℕ) : Prop where
  budget : estimatedTokens (retrieveContext candidates maxTokens).contextText ≤ maxTokens
  cited : ∀ c ∈ candidates, citationOf c ∈ (retrieveContext candidates maxTokens).citations →
    c.text.toList <:+: (retrieveContext candidates maxTokens).contextText
  sourced : ∀ c ∈ candidates, sourceOf c ∈ (retrieveContext candidates maxTokens).sources →
    c.text.toList <:+: (retrieveContext candidates maxTokens).contextText

/-! ## The cut -/

/-- The entry of a candidate ends behind the first characters of the context. -/
def ReachesPast (candidates : List HybridSearchResult) (n : ℕ) (c : HybridSearchResult) : Prop :=
  ∃ front back, candidates = front ++ c :: back ∧ n < (buildContext (front ++ [c])).length

/-- The place of the cut. -/
def cutAt (candidates : List HybridSearchResult) (maxTokens : ℕ) : ℕ :=
  (keptContext (buildContext candidates) maxTokens).length

/-- What is kept is short enough, and the texts that reach past the cut stand before it as well. -/
structure CutHarmless (candidates : List HybridSearchResult) (maxTokens : ℕ) : Prop where
  fits : cutAt candidates maxTokens ≤ 4 * maxTokens
  repeated : ∀ c, ReachesPast candidates (cutAt candidates maxTokens) c →
    c.text.toList <:+: (buildContext candidates).take (cutAt candidates maxTokens)

theorem estimatedTokens_le_iff (context : List Char) (maxTokens : ℕ) :
    estimatedTokens context ≤ maxTokens ↔ context.length ≤ 4 * maxTokens := by
  rw [estimatedTokens, div_le_iff₀ (by norm_num), mul_comm]
  exact_mod_cast Iff.rfl

theorem prefix_keptContext (context : List Char) (maxTokens : ℕ) :
    keptContext context maxTokens <+: context := by
  conv_rhs => rw [← join_splitParagraphs context]
  have hpieces := List.take_append_drop (targetChunks (splitParagraphs context).length
    context.length maxTokens) (splitParagraphs context)
  conv_rhs => rw [← hpieces]
  exact prefix_join_append _ _ _

section Entries

variable {candidates front back : List HybridSearchResult} {c : HybridSearchResult}
  {maxTokens : ℕ}

theorem buildContext_of_mem (h : c ∈ candidates) :
    buildContext candidates = join blankLine (candidates.map contextEntry) := by
  cases candidates with
  | nil => cases h
  | cons c' candidates => rfl

theorem prefix_buildContext (front back : List HybridSearchResult) (c : HybridSearchResult) :
    buildContext (front ++ [c]) <+: buildContext (front ++ c :: back) := by
  have hmap : (front ++ c :: back).map contextEntry =
      (front ++ [c]).map contextEntry ++ back.map contextEntry := by
    rw [← List.map_append, List.append_assoc, List.singleton_append]
  rw [@buildContext_of_mem _ c (by simp), @buildContext_of_mem _ c (by simp), hmap]
  exact prefix_join_append _ _ _

/-- The text of the last candidate ends the context. -/
theorem text_suffix_buildContext (front : List HybridSearchResult) (c : HybridSearchResult) :
    c.text.toList <:+ buildContext (front ++ [c]) := by
  rw [@buildContext_of_mem _ c (by simp), List.map_append, List.map_singleton]
  have hentry : c.text.toList <:+ contextEntry c := List.suffix_append _ _
  refine hentry.trans ?_
  induction front.map contextEntry with
  | nil => simp [join]
  | cons part parts ih =>
      rw [List.cons_append, join, List.intercalate_cons_of_ne_nil (by simp)]
      exact ih.trans (List.suffix_append _ _)

/-- A candidate that ends before the cut is kept. -/
theorem text_infix_of_not_reachesPast {n : ℕ} (h : c ∈ candidates)
    (hn : ¬ReachesPast candidates n c) :
    c.text.toList <:+: (buildContext candidates).take n := by
  obtain ⟨front, back, rfl⟩ := List.append_of_mem h
  have hlength : (buildContext (front ++ [c])).length ≤ n :=
    not_lt.mp fun hlt => hn ⟨front, back, rfl, hlt⟩
  refine (text_suffix_buildContext front c).isInfix.trans (List.IsPrefix.isInfix ?_)
  exact List.prefix_take_iff.mpr ⟨prefix_buildContext front back c, hlength⟩

theorem text_infix_buildContext (h : c ∈ candidates) :
    c.text.toList <:+: buildContext candidates := by
  obtain ⟨front, back, rfl⟩ := List.append_of_mem h
  exact (text_suffix_buildContext front c).isInfix.trans
    (prefix_buildContext front back c).isInfix

theorem take_cutAt (candidates : List HybridSearchResult) (maxTokens : ℕ) :
    (buildContext candidates).take (cutAt candidates maxTokens) =
      keptContext (buildContext candidates) maxTokens :=
  (List.prefix_iff_eq_take.mp (prefix_keptContext _ _)).symm

theorem ReachesPast.mem {n : ℕ} (h : ReachesPast candidates n c) : c ∈ candidates := by
  obtain ⟨front, back, rfl, -⟩ := h
  simp

/-- Citations and sources are built from all candidates, so that all of them have to be there. -/
theorem grounded_iff_forall : Grounded candidates maxTokens ↔
    estimatedTokens (compressContext (buildContext candidates) maxTokens) ≤ maxTokens ∧
      ∀ c ∈ candidates, c.text.toList <:+: compressContext (buildContext candidates) maxTokens := by
  constructor
  · rintro ⟨hbudget, hcited, -⟩
    exact ⟨hbudget, fun c hc => hcited c hc (List.mem_map_of_mem hc)⟩
  · rintro ⟨hbudget, hall⟩
    exact ⟨hbudget, fun c hc _ => hall c hc, fun c hc _ => hall c hc⟩

/-- The citations are grounded if the context is not cut, and otherwise if the cut is harmless. -/
theorem retrieveContext_grounded_iff (candidates : List HybridSearchResult) (maxTokens : ℕ) :
    Grounded candidates maxTokens ↔
      estimatedTokens (buildContext candidates) ≤ maxTokens ∨ CutHarmless candidates maxTokens := by
  rw [grounded_iff_forall]
  by_cases hshort : estimatedTokens (buildContext candidates) ≤ maxTokens
  · rw [compressContext, if_pos hshort]
    exact iff_of_true ⟨hshort, fun c hc => text_infix_buildContext hc⟩ (.inl hshort)
  · rw [compressContext, if_neg hshort, or_iff_right hshort, estimatedTokens_le_iff]
    constructor
    · rintro ⟨hfits, hall⟩
      refine ⟨hfits, fun c hpast => ?_⟩
      rw [take_cutAt]
      exact hall c hpast.mem
    · rintro ⟨hfits, hrepeated⟩
      refine ⟨hfits, fun c hc => ?_⟩
      rw [← take_cutAt]
      by_cases hpast : ReachesPast candidates (cutAt candidates maxTokens) c
      · exact hrepeated c hpast
      · exact text_infix_of_not_reachesPast hc hpast

end Entries

/-! ## Two long candidates -/

/-- A candidate whose text repeats a letter. -/
def longCandidate (documentId : String) (letter : Char) (n : ℕ) : HybridSearchResult where
  documentId := documentId
  text := String.ofList (List.replicate n letter)
  score := 1
  sectionName := none
  source := documentId
  page := none
  title := ""

def pagelessLabel (documentId : String) : String := "[" ++ documentId ++ ":" ++ "?" ++ "] "

theorem mem_contextEntry_longCandidate {documentId : String} {letter c : Char} {n : ℕ}
    (h : c ∈ contextEntry (longCandidate documentId letter n)) :
    c ∈ (pagelessLabel documentId).toList ∨ c = letter := by
  rw [contextEntry, longCandidate, String.toList_ofList] at h
  change c ∈ (pagelessLabel documentId).toList ++ _ at h
  exact (List.mem_append.mp h).imp_right List.eq_of_mem_replicate

theorem length_contextEntry_longCandidate (documentId : String) (letter : Char) (n : ℕ) :
    (contextEntry (longCandidate documentId letter n)).length =
      (pagelessLabel documentId).toList.length + n := by
  rw [contextEntry, longCandidate, String.toList_ofList, List.length_append,
    List.length_replicate]
  rfl

def longCandidates (n : ℕ) : List HybridSearchResult :=
  [longCandidate "d1" 'x' n, longCandidate "d2" 'y' n]

theorem buildContext_longCandidates (n : ℕ) : buildContext (longCandidates n) =
    contextEntry (longCandidate "d1" 'x' n) ++
      '\n' :: '\n' :: contextEntry (longCandidate "d2" 'y' n) := by
  change join blankLine [_, _] = _
  rw [join, List.intercalate_cons_cons, List.intercalate_singleton, List.append_assoc]
  rfl

theorem length_buildContext_longCandidates (n : ℕ) :
    (buildContext (longCandidates n)).length = 2 * n + 16 := by
  rw [buildContext_longCandidates, List.length_append, List.length_cons, List.length_cons,
    length_contextEntry_longCandidate, length_contextEntry_longCandidate]
  have hlabel : (pagelessLabel "d1").toList.length = 7 := by decide
  have hlabel' : (pagelessLabel "d2").toList.length = 7 := by decide
  omega

theorem splitParagraphs_longCandidates (n : ℕ) :
    splitParagraphs (buildContext (longCandidates n)) =
      [contextEntry (longCandidate "d1" 'x' n), contextEntry (longCandidate "d2" 'y' n)] := by
  have hline : ∀ documentId letter, '\n' ∉ (pagelessLabel documentId).toList →
      '\n' ≠ letter → '\n' ∉ contextEntry (longCandidate documentId letter n) := by
    intro documentId letter hlabel hletter hmem
    exact (mem_contextEntry_longCandidate hmem).elim hlabel hletter
  rw [buildContext_longCandidates, splitParagraphs_append (hline _ _ (by decide) (by decide)),
    splitParagraphs_of_notMem (hline _ _ (by decide) (by decide))]

theorem keptContext_longCandidates {n maxTokens : ℕ}
    (h : targetChunks 2 (2 * n + 16) maxTokens = 1) :
    keptContext (buildContext (longCandidates n)) maxTokens =
      contextEntry (longCandidate "d1" 'x' n) := by
  rw [keptContext, splitParagraphs_longCandidates, length_buildContext_longCandidates]
  dsimp only [List.length_cons, List.length_nil]
  rw [h]
  exact List.intercalate_singleton

/-- The second candidate is cited although the cut leaves nothing of it. -/
theorem longCandidates_not_grounded : ¬Grounded (longCandidates 20000) 8000 := by
  have htarget : targetChunks 2 (2 * 20000 + 16) 8000 = 1 := by decide +kernel
  rw [grounded_iff_forall, compressContext, if_neg, keptContext_longCandidates htarget]
  · rintro ⟨-, hall⟩
    have hsecond := hall (longCandidate "d2" 'y' 20000) (.tail _ (.head _))
    have hletter : 'y' ∈ (longCandidate "d2" 'y' 20000).text.toList := by
      rw [longCandidate, String.toList_ofList]
      exact List.mem_replicate.mpr ⟨by norm_num, rfl⟩
    rcases mem_contextEntry_longCandidate (hsecond.mem hletter) with hlabel | hletter
    · revert hlabel
      decide
    · exact absurd hletter (by decide)
  · rw [estimatedTokens_le_iff, length_buildContext_longCandidates]
    norm_num

end Zyntry
