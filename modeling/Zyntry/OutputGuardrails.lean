import Mathlib.Data.List.Infix
import Zyntry.JsonSchemas
import Zyntry.TextPieces

/-!
# The guardrail for answers

An answer is checked for its length, for its fences and for a schema, and what is found is put
before it. The fences are checked by one expression that looks for a line feed after a marker, so
that only the last line of an answer decides.
-/

namespace Zyntry

open Python

/-! ## The guardrails -/

def fence : List Char := ['\x60', '\x60', '\x60']

/-- `.*\n` -/
def restOfLine : Regex := .chars (fun c => c ≠ '\n') 0 none ++ .lit '\n'

/-- `MarkdownGuardrail.check`. -/
def markdownCheck (text : String) : List String :=
  if (Regex.word fence).searchUnless restOfLine none text.toList then
    ["Malformed markdown code block"]
  else []

structure TokenGuardrail where
  maxInputTokens : ℕ := 128000
  maxOutputTokens : ℕ := 8192

namespace TokenGuardrail

def estimateTokens (text : String) : ℕ := max 1 (text.length / 4)

def checkOutput (guardrail : TokenGuardrail) (text : String) : Bool × Option String :=
  let tokens := estimateTokens text
  if guardrail.maxOutputTokens < tokens then
    (false, some ("Output exceeds max tokens: " ++ toString tokens ++ " > " ++
      toString guardrail.maxOutputTokens))
  else (true, none)

end TokenGuardrail

section Service

variable {F : Type} (floats : FloatReading F) (depth : ℕ)

/-- The violation of a check that does not pass. -/
def violationsOf (label : String) : Bool × Option String → List String
  | (false, some message) => if message = "" then [] else [label ++ message]
  | _ => []

/-- `GuardrailService.validate_output`. -/
def validateOutput (text : String) (jsonSchema : Option JsonSchema) :
    Except LoadError (List String) := do
  let violations := violationsOf "" (({} : TokenGuardrail).checkOutput text) ++ markdownCheck text
  match jsonSchema with
  | none => return violations
  | some schema =>
      let checked ← schema.validate floats depth (.text text)
      return violations ++ violationsOf "Schema validation failed: " checked

/-- `GuardrailService.enforce`. -/
def enforceOutput (text : String) (jsonSchema : Option JsonSchema) :
    Except LoadError (String × List String) := do
  let violations ← validateOutput floats depth text jsonSchema
  if violations = [] then return (text, violations)
  else
    return ("[GUARDRAIL VIOLATIONS: " ++ ", ".intercalate violations ++ "]\n\n" ++ text, violations)

end Service

/-! ## Fences in a text -/

section Lines

variable (line : List Char)

/-- There is a marker in the line. -/
def marked : Bool := fence <:+: line

/-- The line is a marker with an info string. -/
def opensBlock : Bool := fence.isPrefixOf (strip line) && '\x60' ∉ (strip line).drop 3

/-- The line is a marker and nothing else. -/
def closesBlock : Bool := strip line = fence

/-- Whether the text is inside of a block after the line. -/
def fenceAfter (inside : Bool) : Bool := if inside then !closesBlock line else opensBlock line

end Lines

/-- Every marker opens or closes a block. -/
def Toggles : Bool → List (List Char) → Prop
  | _, [] => True
  | inside, line :: lines =>
      (marked line = true → fenceAfter line inside ≠ inside) ∧
        Toggles (fenceAfter line inside) lines

def insideAfter (inside : Bool) (lines : List (List Char)) : Bool :=
  lines.foldl (fun inside line => fenceAfter line inside) inside

/-- The markers come in pairs on lines of their own. -/
def Paired (text : String) : Prop :=
  Toggles false (text.toList.splitOn '\n') ∧ insideAfter false (text.toList.splitOn '\n') = false

/-- A block is open at the end. -/
def Unclosed (text : String) : Prop := insideAfter false (text.toList.splitOn '\n') = true

def WithinOutputLimit (text : String) : Prop :=
  TokenGuardrail.estimateTokens text ≤ ({} : TokenGuardrail).maxOutputTokens

/-! ## The last line decides -/

theorem mem_ways_restOfLine {pl : Place} : restOfLine.ways pl = [] ↔ '\n' ∉ pl.rest := by
  constructor
  · intro hnone hmem
    obtain ⟨before, rest⟩ := pl
    obtain ⟨w, v, rfl, hw⟩ := List.eq_append_cons_of_mem hmem
    have hpassed : ∀ c ∈ w, decide (c ≠ '\n') = true := fun c hc => decide_eq_true
      fun heq => hw (heq ▸ hc)
    have hend : (⟨some '\n', v⟩ : Place) ∈ restOfLine.ways ⟨before, w ++ '\n' :: v⟩ :=
      Regex.mem_ways_seq.mpr ⟨_, Regex.mem_ways_run hpassed, Regex.mem_ways_one.mpr
        ⟨'\n', decide_eq_true rfl, rfl, rfl⟩⟩
    rw [hnone] at hend
    cases hend
  · intro hmem
    rw [List.eq_nil_iff_forall_not_mem]
    intro pl' hpl'
    obtain ⟨mid, hmid, hend⟩ := Regex.mem_ways_seq.mp hpl'
    obtain ⟨taken, hreach, -⟩ := Regex.reaches _ _ _ hmid
    obtain ⟨c, hc, hrest, -⟩ := Regex.mem_ways_one.mp hend
    obtain rfl : c = '\n' := of_decide_eq_true hc
    rw [hreach.1, hrest] at hmem
    exact hmem (List.mem_append_right _ List.mem_cons_self)

/-- The expression finds a marker exactly in the last line. -/
theorem searchUnless_fence_iff (cs : List Char) :
    (Regex.word fence).searchUnless restOfLine none cs = true ↔ fence <:+: lastLine cs := by
  rw [Regex.searchUnless_iff]
  constructor
  · rintro ⟨u, v, rfl, pl, hpl, hline⟩
    obtain ⟨rfl, -⟩ := Regex.mem_ways_word.mp hpl
    have hv : '\n' ∉ fence ++ pl.rest := by
      rw [List.mem_append]
      exact not_or.mpr ⟨by decide, mem_ways_restOfLine.mp hline⟩
    obtain ⟨w, hw⟩ := (suffix_lastLine hv).mp ⟨u, rfl⟩
    exact ⟨w, pl.rest, by rw [List.append_assoc, hw]⟩
  · rintro ⟨u, v, huv⟩
    have hv : '\n' ∉ fence ++ v := by
      intro hmem
      apply notMem_lastLine cs
      rw [← huv, List.append_assoc]
      exact List.mem_append_right _ hmem
    obtain ⟨w, hw⟩ := (suffix_lastLine hv).mpr ⟨u, by rw [← huv, List.append_assoc]⟩
    refine ⟨w, fence ++ v, hw.symm, ⟨fence.getLast?.or (w.getLast?.or none), v⟩, ?_, ?_⟩
    · exact Regex.mem_ways_word.mpr ⟨rfl, rfl⟩
    · exact mem_ways_restOfLine.mpr fun hmem => hv (List.mem_append_right _ hmem)

theorem markdownCheck_eq (text : String) : markdownCheck text =
    if marked (lastLine text.toList) then ["Malformed markdown code block"] else [] := by
  unfold markdownCheck marked
  simp only [searchUnless_fence_iff, decide_eq_true_eq]

/-! ## Well-formed answers -/

/-- The text ends with the line that closes its last block. -/
def EndsWithFence (text : String) : Prop := closesBlock (lastLine text.toList) = true

theorem insideAfter_append (inside : Bool) (lines lines' : List (List Char)) :
    insideAfter inside (lines ++ lines') = insideAfter (insideAfter inside lines) lines' :=
  List.foldl_append

theorem toggles_append {inside : Bool} {lines lines' : List (List Char)} :
    Toggles inside (lines ++ lines') ↔
      Toggles inside lines ∧ Toggles (insideAfter inside lines) lines' := by
  induction lines generalizing inside with
  | nil => exact (and_iff_right trivial).symm
  | cons line lines ih =>
      rw [List.cons_append, Toggles, Toggles, ih, and_assoc]
      rfl

theorem marked_of_closesBlock {line : List Char} (h : closesBlock line = true) :
    marked line = true := by
  have hfence : fence <:+: strip line := (of_decide_eq_true h : strip line = fence) ▸ List.infix_rfl
  have hstrip : strip line <:+: line :=
    (List.rdropWhile_prefix isSpace _).isInfix.trans (List.dropWhile_suffix isSpace).isInfix
  exact decide_eq_true (hfence.trans hstrip)

/-- The lines of a text end with its last line. -/
theorem exists_lines (cs : List Char) : ∃ lines, cs.splitOn '\n' = lines ++ [lastLine cs] := by
  have hline : (lastLine cs).splitOn '\n' = [lastLine cs] :=
    List.splitOn_eq_singleton (notMem_lastLine cs)
  rcases eq_lastLine_or cs with hwhole | ⟨u, hu⟩
  · exact ⟨[], by rwa [hwhole] at hline ⊢⟩
  · refine ⟨u.splitOn '\n', ?_⟩
    conv_lhs => rw [hu, List.splitOn_append_cons_self, hline]

/-- In a text with paired markers, one in the last line closes a block. -/
theorem Paired.marked_lastLine_iff {text : String} (h : Paired text) :
    marked (lastLine text.toList) = true ↔ EndsWithFence text := by
  refine ⟨fun hmarked => ?_, marked_of_closesBlock⟩
  obtain ⟨lines, hlines⟩ := exists_lines text.toList
  obtain ⟨htoggles, hclosed⟩ := h
  rw [hlines, toggles_append] at htoggles
  rw [hlines, insideAfter_append] at hclosed
  have hchanged := htoggles.2.1 hmarked
  change fenceAfter (lastLine text.toList) (insideAfter false lines) = false at hclosed
  rw [hclosed] at hchanged
  have hinside : insideAfter false lines = true := by simpa using hchanged
  rw [hinside] at hclosed
  simpa [fenceAfter, EndsWithFence] using hclosed

section Enforcing

variable {F : Type} (floats : FloatReading F) (depth : ℕ) (text : String)

theorem violationsOf_checkOutput_eq_nil :
    violationsOf "" (({} : TokenGuardrail).checkOutput text) = [] ↔ WithinOutputLimit text := by
  unfold TokenGuardrail.checkOutput WithinOutputLimit
  dsimp only
  split_ifs with h
  · simp [violationsOf, not_le.mpr h]
  · simp [violationsOf, not_lt.mp h]

/-- Without a schema, an answer passes if it is short and no marker stands in its last line. -/
theorem enforceOutput_eq_self_iff : enforceOutput floats depth text none = .ok (text, []) ↔
    WithinOutputLimit text ∧ marked (lastLine text.toList) = false := by
  rw [← violationsOf_checkOutput_eq_nil]
  unfold enforceOutput validateOutput
  simp only [markdownCheck_eq, pure_bind]
  cases marked (lastLine text.toList) <;>
    cases violationsOf "" (({} : TokenGuardrail).checkOutput text) <;> simp [pure, Except.pure]

/-- The check of the fences reports the text. -/
def ReportsFence : Prop := ∃ answer violations,
  enforceOutput floats depth text none = .ok (answer, violations) ∧
    "Malformed markdown code block" ∈ violations

theorem malformed_notMem_checkOutput : "Malformed markdown code block" ∉
    violationsOf "" (({} : TokenGuardrail).checkOutput text) := by
  unfold TokenGuardrail.checkOutput violationsOf
  dsimp only
  split_ifs with h
  · intro hmem
    dsimp only at hmem
    split_ifs at hmem
    · cases hmem
    · have hhead := congrArg (fun s : String => s.toList.head?) (List.mem_singleton.mp hmem)
      simp at hhead
  · exact List.not_mem_nil

theorem reportsFence_iff :
    ReportsFence floats depth text ↔ marked (lastLine text.toList) = true := by
  have htokens := malformed_notMem_checkOutput text
  unfold ReportsFence enforceOutput validateOutput
  simp only [markdownCheck_eq, pure_bind]
  cases marked (lastLine text.toList) with
  | false =>
      simp only [Bool.false_eq_true, if_false, List.append_nil, iff_false, not_exists]
      rintro answer violations ⟨hresult, hmem⟩
      split_ifs at hresult <;> cases hresult <;> exact htokens hmem
  | true =>
      simp [pure, Except.pure]

/-- A well-formed answer within the limit passes unchanged, and an open block is reported. -/
structure MarkdownJudged : Prop where
  passes : WithinOutputLimit text → Paired text →
    enforceOutput floats depth text none = .ok (text, [])
  reports : Unclosed text → ReportsFence floats depth text

/-- The fences of an answer are judged by its last line. -/
theorem enforceOutput_markdown_iff : MarkdownJudged floats depth text ↔
    (WithinOutputLimit text → Paired text → ¬EndsWithFence text) ∧
      (Unclosed text → marked (lastLine text.toList) = true) := by
  constructor
  · rintro ⟨hpasses, hreports⟩
    refine ⟨fun hshort hpaired hend => ?_, fun h => (reportsFence_iff floats depth text).mp
      (hreports h)⟩
    have hclear := ((enforceOutput_eq_self_iff floats depth text).mp (hpasses hshort hpaired)).2
    exact Bool.false_ne_true (hclear.symm.trans (hpaired.marked_lastLine_iff.mpr hend))
  · rintro ⟨hpaired, hunclosed⟩
    constructor
    · intro hshort hpairs
      refine (enforceOutput_eq_self_iff floats depth text).mpr ⟨hshort, ?_⟩
      exact Bool.eq_false_of_not_eq_true fun hmarked =>
        hpaired hshort hpairs (hpairs.marked_lastLine_iff.mp hmarked)
    · exact fun h => (reportsFence_iff floats depth text).mpr (hunclosed h)

end Enforcing

/-! ## An answer that ends with its code -/

def codeAnswer : String := "```python\nx = 1\n```"

def openAnswer : String := "```python\nx = 1\n"

/-- The block is closed but no line feed follows, and the answer is reported; the open block
before a line feed is not. -/
theorem codeAnswer_not_judged : Paired codeAnswer ∧ WithinOutputLimit codeAnswer ∧
    enforceOutput noFloats 0 codeAnswer none ≠ .ok (codeAnswer, []) ∧
      Unclosed openAnswer ∧ ¬ReportsFence noFloats 0 openAnswer := by
  have hlines : codeAnswer.toList.splitOn '\n' =
      ["```python".toList, "x = 1".toList, "```".toList] := by rfl
  have hopen : openAnswer.toList.splitOn '\n' =
      ["```python".toList, "x = 1".toList, []] := by rfl
  rw [ne_eq, enforceOutput_eq_self_iff, reportsFence_iff]
  refine ⟨⟨?_, ?_⟩, ?_, ?_, ?_, ?_⟩
  · rw [hlines]
    exact ⟨by decide, by decide, by decide, trivial⟩
  · rw [hlines]
    decide
  · unfold WithinOutputLimit
    decide
  · rintro ⟨-, hunmarked⟩
    revert hunmarked
    decide
  · unfold Unclosed
    rw [hopen]
    decide
  · decide

end Zyntry
