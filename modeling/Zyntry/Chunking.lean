import Zyntry.SemanticChunks

/-!
# Chunking a document

Markdown is cut at headings and fenced blocks, code at the lines that begin a definition, any
other text at its sentences; a section that is too long is cut at its sentences as well. A
fixed window can be slid over the text instead.
-/

namespace Zyntry

open Python

/-- What is used of Python's text methods, regular expressions and hashes. -/
structure ChunkingMethods where
  lower : String → String
  /-- `\w`. -/
  isWord : Char → Bool
  sha256 : List Char → String

/-- A section that fits is one chunk. -/
def sectionChunks (chunkSize overlap : ℕ) (content : List Char) : List (List Char) :=
  if strip content = [] then []
  else if estimateTokens content ≤ chunkSize / charsPerToken then [content]
  else chunkSentences chunkSize overlap content

def matchesAny (patterns : List Regex) (text : List Char) : Bool :=
  patterns.any fun pattern => (pattern.matched text).isSome

/-- `re.search` of patterns that begin with `^`. -/
def searchLines (patterns : List Regex) (text : List Char) : Bool :=
  (lineStarts text).any (matchesAny patterns)

/-! ## Sections under headings -/

/-- `^#{1,6}\s+.*$`. -/
def headingPattern : Regex :=
  .chars (· = '#') 1 (some 6) ++ .chars isSpace 1 none ++ .chars (· ≠ '\n') 0 none ++
    .notAhead (· ≠ '\n')

structure SectionScan where
  sections : List (List Char × List Char) := []
  currentHeading : List Char := []
  currentLines : List (List Char) := []
deriving DecidableEq

/-- `sections.append`, unless there are no lines. -/
def SectionScan.closed (m : SectionScan) (lines : List (List Char)) :
    List (List Char × List Char) :=
  if lines = [] then m.sections else m.sections ++ [(m.currentHeading, join ['\n'] lines)]

def headingLine (m : SectionScan) (line : List Char) : SectionScan :=
  if (headingPattern.matched line).isSome then
    { sections := m.closed m.currentLines, currentHeading := line, currentLines := [line] }
  else { m with currentLines := m.currentLines ++ [line] }

def chunkHeading (text : List Char) (chunkSize overlap : ℕ) : List (List Char) :=
  if strip text = [] then []
  else
    let scan := (text.splitOn '\n').foldl headingLine {}
    nonBlankChunks
      ((scan.closed scan.currentLines).flatMap fun s => sectionChunks chunkSize overlap s.2)

structure MarkdownScan extends SectionScan where
  inCodeBlock : Bool := false
  codeBuffer : List (List Char) := []
deriving DecidableEq

def markdownLine (m : MarkdownScan) (line : List Char) : MarkdownScan :=
  if "```".toList.isPrefixOf (strip line) then
    if m.inCodeBlock then
      { m with
        currentLines := m.currentLines ++ (m.codeBuffer ++ [line]), codeBuffer := [],
        inCodeBlock := false }
    else
      { sections := m.closed m.currentLines, codeBuffer := [line], inCodeBlock := true }
  else if m.inCodeBlock then { m with codeBuffer := m.codeBuffer ++ [line] }
  else { m with toSectionScan := headingLine m.toSectionScan line }

def chunkMarkdown (text : List Char) (chunkSize overlap : ℕ) : List (List Char) :=
  if strip text = [] then []
  else
    let scan := (text.splitOn '\n').foldl markdownLine {}
    nonBlankChunks ((scan.closed (scan.currentLines ++ scan.codeBuffer)).flatMap fun s =>
      sectionChunks chunkSize overlap s.2)

/-! ## Code -/

def blockKeywords : List Regex :=
  ["def ", "async def ", "class ", "function "].map fun keyword => .word keyword.toList

/-- `\s+` -/
def spaces : Regex := .chars isSpace 1 none

/-- `_CODE_BOUNDARY_PATTERNS`, with an entry for each alternative. -/
def codeBoundaryPatterns (isWord : Char → Bool) : List Regex :=
  blockKeywords ++
    [.word "export".toList ++ spaces ++ .opt (.word "default".toList ++ spaces) ++
        .word "function".toList,
      .word "const".toList ++ spaces ++ .chars isWord 1 none ++ .chars isSpace 0 none ++ .lit '=' ++
        .chars isSpace 0 none ++ .opt (.word "async".toList ++ spaces) ++ .lit '('] ++
    blockKeywords.map (.chars isSpace 0 none ++ ·)

/-- `_IMPORT_PATTERN`. -/
def importPatterns : List Regex :=
  [.word "import ".toList,
    .word "from ".toList ++ .chars (· ≠ '\n') 1 none ++ .word " import ".toList,
    .word "require(".toList, .word "#include ".toList]

structure BoundaryScan where
  imports : List (List Char) := []
  importDone : Bool := false
  boundaries : List ℕ := [0]
deriving DecidableEq

def markBoundary (isWord : Char → Bool) (b : BoundaryScan) (i : ℕ) (line : List Char) :
    BoundaryScan :=
  if searchLines (codeBoundaryPatterns isWord) line ∧ 0 < i ∧ b.boundaries.getLast? ≠ some i then
    { b with boundaries := b.boundaries ++ [i] }
  else b

def codeLine (isWord : Char → Bool) (b : BoundaryScan) (i : ℕ) (line : List Char) : BoundaryScan :=
  if b.importDone then markBoundary isWord b i line
  else if matchesAny importPatterns line then { b with imports := b.imports ++ [line] }
  else if b.imports ≠ [] ∧ strip line = [] then { b with importDone := true }
  else if b.imports ≠ [] then markBoundary isWord { b with importDone := true } i line
  else markBoundary isWord b i line

/-- `for i, line in enumerate(lines)`. -/
def codeBoundaries (isWord : Char → Bool) : BoundaryScan → ℕ → List (List Char) → BoundaryScan
  | b, _, [] => b
  | b, i, line :: lines => codeBoundaries isWord (codeLine isWord b i line) (i + 1) lines

/-- The blocks between two boundaries. -/
def codeBlocks (lines : List (List Char)) : List ℕ → List (List Char)
  | start :: stop :: rest => join ['\n'] (slice lines start stop) :: codeBlocks lines (stop :: rest)
  | _ => []

def chunkCode (isWord : Char → Bool) (text : List Char) (chunkSize overlap : ℕ) :
    List (List Char) :=
  let lines := text.splitOn '\n'
  if strip text = [] ∨ lines = [] then []
  else
    let boundaries := (codeBoundaries isWord {} 0 lines).boundaries ++ [lines.length]
    let chunks := (codeBlocks lines boundaries).flatMap (sectionChunks chunkSize overlap)
    nonBlankChunks
      (if chunks = [] ∧ strip text ≠ [] then chunkSentences chunkSize overlap text else chunks)

/-! ## A sliding window -/

/-- The loop over the windows from `start` on; it does not come to an end when the windows do
not move. -/
def slideFrom (text : List Char) (charSize overlap : ℕ) : ℕ → ℕ → Option (List (List Char))
  | 0, _ => none
  | fuel + 1, start =>
      if start < text.length then
        let stop := start + charSize
        let chunkText := slice text start stop
        let rest :=
          if text.length ≤ stop then some []
          else slideFrom text charSize overlap fuel (stop - overlap)
        rest.map fun chunks => if strip chunkText = [] then chunks else chunkText :: chunks
      else some []

def chunkSlidingWindow (text : List Char) (chunkSize overlap : ℕ) : Option (List (List Char)) :=
  if strip text = [] then some []
  else
    let overlap := if chunkSize ≤ overlap then max 0 (chunkSize - 1) else overlap
    slideFrom text chunkSize overlap (text.length + 1) 0

/-! ## Documents -/

/-- `source.rsplit(".", 1)[-1].lower()`, if there is a dot. -/
def extension (lower : String → String) (source : String) : String :=
  if '.' ∈ source.toList then
    lower (String.ofList ((source.toList.splitOn '.').getLastD []))
  else ""

def languageMap : List (String × String) :=
  [("py", "python"), ("js", "javascript"), ("ts", "typescript"), ("java", "java"), ("go", "go"),
    ("rs", "rust"), ("rb", "ruby"), ("cpp", "cpp"), ("c", "c"), ("h", "c"), ("cs", "csharp"),
    ("php", "php"), ("swift", "swift"), ("kt", "kotlin"), ("scala", "scala"), ("sql", "sql"),
    ("sh", "bash"), ("yaml", "yaml"), ("yml", "yaml"), ("json", "json"), ("html", "html"),
    ("css", "css"), ("xml", "xml"), ("md", "markdown")]

def codeExtensions : List String :=
  ["py", "js", "ts", "java", "go", "rs", "rb", "cpp", "c", "h", "cs", "php", "swift", "kt", "scala",
    "sql", "sh", "yaml", "yml", "json", "html", "css", "xml", "toml"]

/-- A value that is there and not empty. -/
def givenName (s : Option String) : Option String := s.filter (· ≠ "")

def shebangLanguage (text : List Char) : Option String :=
  if "#!".toList.isPrefixOf text then
    let shebang := String.ofList (text.takeWhile (· ≠ '\n'))
    if isInfix "python" shebang then some "python"
    else if isInfix "node" shebang ∨ isInfix "javascript" shebang then some "javascript"
    else if isInfix "bash" shebang ∨ isInfix "sh" shebang then some "bash"
    else none
  else none

def detectLanguage (lower : String → String) (text : List Char) (source language : Option String) :
    Option String :=
  (givenName language).or
    (((givenName source).bind fun s => languageMap.lookup (extension lower s)).or
      (shebangLanguage text))

def contentOfText (text : List Char) : String :=
  if "#".toList.isPrefixOf (text.dropWhile isSpace) then "markdown"
  else if searchLines
      (["def ", "class ", "function ", "import ", "from ", "#include", "package "].map
        fun keyword => .word keyword.toList) text then "code"
  else if searchLines [.chars (· = '#') 1 (some 6) ++ spaces] text then "markdown"
  else "text"

def detectContentType (lower : String → String) (text : List Char) (source : Option String) :
    String :=
  let ext := (givenName source).elim "" (extension lower)
  if ext ∈ codeExtensions then "code"
  else if ext = "md" then "markdown"
  else contentOfText text

structure DocumentChunk where
  documentId : Option String
  sectionTitle : List Char
  heading : List Char
  page : ℕ
  source : Option String
  language : Option String
  hash : String
  version : String
  content : List Char
  chunkIndex : ℕ
  strategy : String
  tokenCount : ℕ
  charCount : ℕ
deriving DecidableEq

/-- `_estimate_page`. -/
def estimatePage (charOffset : ℕ) : ℕ := max 1 (charOffset / 2000 + 1)

section

variable (M : ChunkingMethods)

def rawChunks (strategy : String) (text : List Char) (chunkSize overlap : ℕ) :
    Option (List (List Char)) :=
  if strategy = "semantic" then some (chunkSemantic text chunkSize overlap)
  else if strategy = "markdown" then some (chunkMarkdown text chunkSize overlap)
  else if strategy = "code" then some (chunkCode M.isWord text chunkSize overlap)
  else if strategy = "heading" then some (chunkHeading text chunkSize overlap)
  else if strategy = "sliding_window" then chunkSlidingWindow text chunkSize overlap
  else some (chunkSemantic text chunkSize overlap)

/-- The strategy of a document, when none is asked for. -/
def autoStrategy (text : List Char) (source : Option String) : String :=
  let contentType := detectContentType M.lower text source
  if contentType = "markdown" then "markdown"
  else if contentType = "code" then "code"
  else "semantic"

/-- The loop over the raw chunks, with `idx` and `char_offset`. -/
def numberChunks (strategy : String) (language source documentId : Option String) :
    ℕ → ℕ → List (List Char) → List DocumentChunk
  | _, _, [] => []
  | idx, charOffset, chunkText :: chunkTexts =>
      let heading := strip (((lineStarts chunkText).findSome? headingPattern.matched).getD [])
      { documentId, heading, source, language, strategy
        sectionTitle := strip (heading.dropWhile (· = '#'))
        page := estimatePage charOffset
        hash := M.sha256 chunkText
        version := "1"
        content := chunkText
        chunkIndex := idx
        tokenCount := estimateTokens chunkText
        charCount := chunkText.length } ::
        numberChunks strategy language source documentId (idx + 1)
          (charOffset + chunkText.length) chunkTexts

/-- No result means that the loop of the sliding window does not end. -/
def chunkDocument (docContent : List Char) (chunkSize : ℕ := 512) (overlap : ℕ := 64)
    (strategy : String := "auto") (language source documentId : Option String := none) :
    Option (List DocumentChunk) :=
  if strip docContent = [] then some []
  else
    let strategy := if strategy = "auto" then autoStrategy M docContent source else strategy
    (rawChunks M strategy docContent chunkSize overlap).map
      (numberChunks M strategy (detectLanguage M.lower docContent source language) source documentId
        0 0)

end

/-! ## Letters are kept -/

theorem letters_sectionChunks (chunkSize : ℕ) (content : List Char) :
    (sectionChunks chunkSize 0 content).flatMap letters = letters content := by
  unfold sectionChunks
  split_ifs with hblank
  · exact (strip_eq_nil.mp hblank).symm
  · exact List.flatMap_singleton _ _
  · exact letters_chunkSentences chunkSize content

theorem letters_sections (chunkSize : ℕ) (sections : List (List Char)) :
    (sections.flatMap (sectionChunks chunkSize 0)).flatMap letters = sections.flatMap letters := by
  rw [List.flatMap_assoc]
  exact List.flatMap_congr fun content _ => letters_sectionChunks chunkSize content

section Sections

variable {m : SectionScan}

/-- The letters of the lines that have been scanned. -/
def SectionScan.letters (m : SectionScan) (lines : List (List Char)) : List Char :=
  m.sections.flatMap (fun s => Python.letters s.2) ++ lines.flatMap Python.letters

theorem letters_closed (lines : List (List Char)) :
    (m.closed lines).flatMap (fun s => letters s.2) = m.letters lines := by
  unfold SectionScan.closed SectionScan.letters
  split_ifs with hlines
  · rw [hlines, List.flatMap_nil, List.append_nil]
  · rw [List.flatMap_append, List.flatMap_singleton, letters_join (by decide)]

theorem letters_headingLine (line : List Char) :
    (headingLine m line).letters (headingLine m line).currentLines =
      m.letters m.currentLines ++ letters line := by
  unfold headingLine
  split_ifs
  · rw [SectionScan.letters, letters_closed, List.flatMap_singleton]
  · rw [SectionScan.letters, SectionScan.letters, List.flatMap_append, List.flatMap_singleton,
      List.append_assoc]

theorem letters_headingLines (lines : List (List Char)) :
    (lines.foldl headingLine m).letters (lines.foldl headingLine m).currentLines =
      m.letters m.currentLines ++ lines.flatMap letters := by
  induction lines generalizing m with
  | nil => exact (List.append_nil _).symm
  | cons line lines ih =>
      rw [List.foldl_cons, ih, letters_headingLine, List.append_assoc, List.flatMap_cons]

end Sections

theorem letters_chunkHeading (text : List Char) (chunkSize : ℕ) :
    (chunkHeading text chunkSize 0).flatMap letters = letters text := by
  unfold chunkHeading
  split_ifs with hblank
  · exact (strip_eq_nil.mp hblank).symm
  · dsimp only
    rw [letters_nonBlankChunks, List.flatMap_assoc]
    simp only [letters_sectionChunks]
    rw [letters_closed, letters_headingLines]
    exact letters_lines text

namespace MarkdownScan

variable {m : MarkdownScan}

/-- The lines that are in no section yet. -/
def openLines (m : MarkdownScan) : List (List Char) := m.currentLines ++ m.codeBuffer

/-- The buffer has lines of an open block only. -/
def BufferOfBlock (m : MarkdownScan) : Prop := m.inCodeBlock = false → m.codeBuffer = []

theorem BufferOfBlock.markdownLine (hm : m.BufferOfBlock) (line : List Char) :
    (markdownLine m line).BufferOfBlock ∧
      (markdownLine m line).letters (markdownLine m line).openLines =
        m.letters m.openLines ++ Python.letters line := by
  unfold Zyntry.markdownLine
  split_ifs with hfence hblock hblock
  · refine ⟨fun _ => rfl, ?_⟩
    simp [openLines, SectionScan.letters, List.flatMap_append]
  · have hbuffer := hm (by simpa using hblock)
    refine ⟨fun h => by simp at h, ?_⟩
    rw [openLines, openLines, hbuffer, List.append_nil, List.nil_append, SectionScan.letters,
      letters_closed, List.flatMap_singleton]
  · refine ⟨fun h => absurd hblock (by simpa using h), ?_⟩
    simp [openLines, SectionScan.letters, List.flatMap_append]
  · have hbuffer := hm (by simpa using hblock)
    refine ⟨fun _ => hbuffer, ?_⟩
    unfold openLines
    dsimp only
    rw [hbuffer, List.append_nil, List.append_nil]
    exact letters_headingLine line

theorem BufferOfBlock.markdownLines (hm : m.BufferOfBlock) (lines : List (List Char)) :
    (lines.foldl Zyntry.markdownLine m).letters (lines.foldl Zyntry.markdownLine m).openLines =
      m.letters m.openLines ++ lines.flatMap Python.letters := by
  induction lines generalizing m with
  | nil => exact (List.append_nil _).symm
  | cons line lines ih =>
      obtain ⟨hline, hletters⟩ := hm.markdownLine line
      rw [List.foldl_cons, ih hline, hletters, List.append_assoc, List.flatMap_cons]

end MarkdownScan

theorem letters_chunkMarkdown (text : List Char) (chunkSize : ℕ) :
    (chunkMarkdown text chunkSize 0).flatMap letters = letters text := by
  unfold chunkMarkdown
  split_ifs with hblank
  · exact (strip_eq_nil.mp hblank).symm
  · dsimp only
    have hstart : ({} : MarkdownScan).BufferOfBlock := fun _ => rfl
    rw [letters_nonBlankChunks, List.flatMap_assoc]
    simp only [letters_sectionChunks]
    rw [letters_closed]
    exact (hstart.markdownLines _).trans (letters_lines text)

/-! ### Blocks of code -/

/-- The boundaries begin with the first line and ascend, none of them above `n`. -/
structure Boundaries (n : ℕ) (boundaries : List ℕ) : Prop where
  head : boundaries.head? = some 0
  ascending : boundaries.Pairwise (· ≤ ·)
  le : ∀ b ∈ boundaries, b ≤ n

namespace Boundaries

variable {n : ℕ} {boundaries : List ℕ}

theorem mono (h : Boundaries n boundaries) {n' : ℕ} (hn : n ≤ n') : Boundaries n' boundaries :=
  ⟨h.head, h.ascending, fun b hb => (h.le b hb).trans hn⟩

theorem concat (h : Boundaries n boundaries) : Boundaries n (boundaries ++ [n]) where
  head := by
    cases boundaries with
    | nil => cases h.head
    | cons b boundaries => exact h.head
  ascending := by
    rw [List.pairwise_append]
    refine ⟨h.ascending, List.pairwise_singleton _ _, fun b hb n' hn' => ?_⟩
    rw [List.mem_singleton.mp hn']
    exact h.le b hb
  le b hb := by
    rcases List.mem_append.mp hb with hb | hb
    · exact h.le b hb
    · exact (List.mem_singleton.mp hb).le

end Boundaries

theorem boundaries_markBoundary (isWord : Char → Bool) {b : BoundaryScan} {i : ℕ}
    (hb : Boundaries i b.boundaries) (line : List Char) :
    Boundaries (i + 1) (markBoundary isWord b i line).boundaries := by
  unfold markBoundary
  split_ifs
  · exact hb.concat.mono (Nat.le_succ i)
  · exact hb.mono (Nat.le_succ i)

theorem boundaries_codeLine (isWord : Char → Bool) {b : BoundaryScan} {i : ℕ}
    (hb : Boundaries i b.boundaries) (line : List Char) :
    Boundaries (i + 1) (codeLine isWord b i line).boundaries := by
  unfold codeLine
  split_ifs
  · exact boundaries_markBoundary isWord hb line
  · exact hb.mono (Nat.le_succ i)
  · exact hb.mono (Nat.le_succ i)
  · exact boundaries_markBoundary isWord (by exact hb) line
  · exact boundaries_markBoundary isWord hb line

theorem boundaries_codeBoundaries (isWord : Char → Bool) {b : BoundaryScan} {i : ℕ}
    (hb : Boundaries i b.boundaries) (lines : List (List Char)) :
    Boundaries (i + lines.length) (codeBoundaries isWord b i lines).boundaries := by
  induction lines generalizing b i with
  | nil => exact hb
  | cons line lines ih =>
      have hrest := ih (boundaries_codeLine isWord hb line)
      rwa [Nat.add_right_comm] at hrest

/-- The blocks between ascending boundaries have the lines between the first and the last. -/
theorem letters_codeBlocks (lines : List (List Char)) (start stop : ℕ) (middle : List ℕ)
    (h : (start :: (middle ++ [stop])).Pairwise (· ≤ ·)) :
    (codeBlocks lines (start :: (middle ++ [stop]))).flatMap letters =
      (slice lines start stop).flatMap letters := by
  induction middle generalizing start with
  | nil =>
      rw [List.nil_append, codeBlocks, List.flatMap_cons, letters_join (by decide), codeBlocks]
      · exact List.append_nil _
      · simp
  | cons next middle ih =>
      have hnext := List.pairwise_cons.mp h
      have hstop := (List.pairwise_cons.mp hnext.2).1 stop (by simp)
      rw [List.cons_append, codeBlocks, List.flatMap_cons, letters_join (by decide),
        ih next hnext.2, ← List.flatMap_append, slice_append (hnext.1 next List.mem_cons_self) hstop]

theorem letters_codeBoundaries {lines : List (List Char)}
    {boundaries : List ℕ} (h : Boundaries lines.length boundaries) :
    (codeBlocks lines (boundaries ++ [lines.length])).flatMap letters = lines.flatMap letters := by
  have hascending := h.concat.ascending
  cases boundaries with
  | nil => cases h.head
  | cons first middle =>
      obtain rfl : first = 0 := Option.some.inj h.head
      rw [List.cons_append] at hascending ⊢
      rw [letters_codeBlocks lines 0 _ middle hascending, slice_length]

theorem letters_chunkCode (isWord : Char → Bool) (text : List Char) (chunkSize : ℕ) :
    (chunkCode isWord text chunkSize 0).flatMap letters = letters text := by
  have hstart : Boundaries 0 ({} : BoundaryScan).boundaries := ⟨rfl, by simp, by simp⟩
  have hboundaries := boundaries_codeBoundaries isWord hstart (text.splitOn '\n')
  rw [Nat.zero_add] at hboundaries
  have hne : text.splitOn '\n' ≠ [] := List.splitOn_ne_nil _ _
  unfold chunkCode
  dsimp only
  split_ifs with hblank hnone
  · exact (strip_eq_nil.mp (hblank.resolve_right hne)).symm
  · rw [letters_nonBlankChunks, letters_chunkSentences]
  · rw [letters_nonBlankChunks, letters_sections, letters_codeBoundaries hboundaries, letters_lines]

/-! ### Windows of characters -/

theorem slideFrom_keeps (text : List Char) {charSize : ℕ} (hsize : 0 < charSize) (fuel start : ℕ)
    (hstart : start ≤ text.length) (hfuel : text.length < start + fuel) :
    ∃ chunks, slideFrom text charSize 0 fuel start = some chunks ∧
      chunks.flatMap letters = letters (text.drop start) := by
  induction fuel generalizing start with
  | zero => omega
  | succ fuel ih =>
      unfold slideFrom
      by_cases hlt : start < text.length
      · rw [if_pos hlt]
        dsimp only
        have hwindow : letters (text.drop start) =
            letters (slice text start (start + charSize)) ++
              letters (text.drop (start + charSize)) := by
          rw [← letters_append, slice, List.drop_take, Nat.add_sub_cancel_left,
            ← List.drop_drop, List.take_append_drop]
        obtain ⟨rest, hrest, hletters⟩ : ∃ rest,
            (if text.length ≤ start + charSize then some []
              else slideFrom text charSize 0 fuel (start + charSize - 0)) = some rest ∧
            rest.flatMap letters = letters (text.drop (start + charSize)) := by
          split_ifs with hend
          · exact ⟨[], rfl, by rw [List.drop_eq_nil_of_le hend]; rfl⟩
          · exact ih (start + charSize) (by omega) (by omega)
        rw [hrest, Option.map_some]
        refine ⟨_, rfl, ?_⟩
        split_ifs with hblank
        · rw [hletters, hwindow, strip_eq_nil.mp hblank, List.nil_append]
        · rw [List.flatMap_cons, hletters, hwindow]
      · rw [if_neg hlt]
        exact ⟨[], rfl, by rw [List.drop_eq_nil_of_le (by omega)]; rfl⟩

theorem chunkSlidingWindow_keeps (text : List Char) {chunkSize : ℕ} (hsize : 0 < chunkSize) :
    ∃ chunks, chunkSlidingWindow text chunkSize 0 = some chunks ∧
      chunks.flatMap letters = letters text := by
  unfold chunkSlidingWindow
  by_cases hblank : strip text = []
  · rw [if_pos hblank]
    exact ⟨[], rfl, (strip_eq_nil.mp hblank).symm⟩
  · simp only [hblank, if_false, Nat.not_le.mpr hsize]
    exact slideFrom_keeps text hsize (text.length + 1) 0 (by omega) (by omega)

/-! ### Documents -/

variable (M : ChunkingMethods)

theorem content_numberChunks (strategy : String) (language source documentId : Option String)
    (idx charOffset : ℕ) (chunkTexts : List (List Char)) :
    (numberChunks M strategy language source documentId idx charOffset chunkTexts).map
      DocumentChunk.content = chunkTexts := by
  induction chunkTexts generalizing idx charOffset with
  | nil => rfl
  | cons chunkText chunkTexts ih => exact congrArg (chunkText :: ·) (ih _ _)

theorem rawChunks_keeps (strategy : String) (text : List Char) {chunkSize : ℕ}
    (hsize : 0 < chunkSize) :
    ∃ chunks, rawChunks M strategy text chunkSize 0 = some chunks ∧
      chunks.flatMap letters = letters text := by
  unfold rawChunks
  split_ifs
  · exact ⟨_, rfl, letters_chunkSemantic text chunkSize⟩
  · exact ⟨_, rfl, letters_chunkMarkdown text chunkSize⟩
  · exact ⟨_, rfl, letters_chunkCode M.isWord text chunkSize⟩
  · exact ⟨_, rfl, letters_chunkHeading text chunkSize⟩
  · exact chunkSlidingWindow_keeps text hsize
  · exact ⟨_, rfl, letters_chunkSemantic text chunkSize⟩

/-- Without an overlap, every strategy keeps the letters of a text and their order; with any
overlap, the semantic chunks are windows of its sentences. -/
theorem chunkDocument_keeps (text : List Char) {chunkSize : ℕ} (hsize : 0 < chunkSize)
    (language source documentId : Option String) :
    (∀ strategy, ∃ chunks,
      chunkDocument M text chunkSize 0 strategy language source documentId = some chunks ∧
        (chunks.map DocumentChunk.content).flatMap letters = letters text) ∧
    ∀ overlap, ∃ chunks windows,
      chunkDocument M text chunkSize overlap "semantic" language source documentId = some chunks ∧
        chunks.map DocumentChunk.content =
          windows.map (fun w => join [' '] (slice (splitSentences text) w.1 w.2)) ∧
        Advances (splitSentences text).length 0 windows := by
  by_cases hblank : strip text = []
  · have hnone : ∀ overlap strategy,
        chunkDocument M text chunkSize overlap strategy language source documentId = some [] := by
      intro overlap strategy
      rw [chunkDocument, if_pos hblank]
    refine ⟨fun strategy => ⟨[], hnone 0 strategy, (strip_eq_nil.mp hblank).symm⟩, ?_⟩
    intro overlap
    refine ⟨[], [], hnone overlap "semantic", rfl, ?_⟩
    rw [splitSentences_eq_nil.mpr hblank]
    rfl
  · constructor
    · intro strategy
      obtain ⟨chunks, hchunks, hletters⟩ :=
        rawChunks_keeps M (if strategy = "auto" then autoStrategy M text source else strategy) text
          hsize
      refine ⟨_, by rw [chunkDocument, if_neg hblank]; simp only [hchunks]; rfl, ?_⟩
      rw [content_numberChunks, hletters]
    · intro overlap
      obtain ⟨windows, hwindows, hchunks⟩ := chunkSemantic_windows text chunkSize overlap
      refine ⟨_, windows, by rw [chunkDocument, if_neg hblank]; rfl, ?_, hwindows⟩
      rw [content_numberChunks]
      exact hchunks

def readme : List Char := "# Title\nFirst. Second.\n\n```\nx = 1\n".toList

/-- The hashes are those of the two chunks of the text above. -/
def readmeMethods : ChunkingMethods where
  lower s := String.ofList (s.toList.map Char.toLower)
  isWord c := c.isAlphanum || c = '_'
  sha256 text :=
    if text.head? = some '#' then "a073d6a688eac94e9dfb404f1c76a092bd960f65428e257dee28809fafc61849"
    else "59a6cdde6d4dca7c08730534c64713aba4a42650d6810ef5d086aaeef0781e8f"

theorem chunkDocument_keeps_readme :
    ∃ chunks,
      chunkDocument readmeMethods readme 16 0 "auto" none (some "README") none = some chunks ∧
      chunks.map DocumentChunk.content = ["# Title\nFirst. Second.".toList, "```\nx = 1\n".toList] ∧
      (chunks.map DocumentChunk.content).flatMap letters = letters readme := by
  have hsize : 0 < 16 := by decide
  obtain ⟨chunks, hchunks, hletters⟩ :=
    (chunkDocument_keeps readmeMethods readme hsize none (some "README") none).1 "auto"
  have hcontents : (chunkDocument readmeMethods readme 16 0 "auto" none (some "README") none).map
      (List.map DocumentChunk.content) =
      some ["# Title\nFirst. Second.".toList, "```\nx = 1\n".toList] := by decide +kernel
  rw [hchunks] at hcontents
  exact ⟨chunks, hchunks, Option.some.inj hcontents, hletters⟩

end Zyntry
