import Zyntry.JsonReadings

/-!
# Repair of JSON objects

What a model answers is repaired by single commas and colons, inserted or removed where the decoder
reports an error. The decoder also reports one within a run that it can only read in part, and the
comma inserted there splits the run.
-/

namespace Zyntry

open Python

variable {F : Type} (floats : FloatReading F) (depth : ℕ)

/-- What `repair_json_object` raises. -/
inductive RepairError where
  | load (e : LoadError)
  | notAnObject
  | notRepaired

/-- `"trailing comma" in exc.msg.lower()`. -/
def mentionsTrailingComma (msg : DecodeMessage) : Bool :=
  isInfix "trailing comma" (lower msg.text)

/-- `c in chars`, where no character stands for the empty text. -/
def charIn (c : Option Char) (chars : String) : Bool := c.all (· ∈ chars.toList)

/-- The text without the character at an index. -/
def withoutIndex (cs : List Char) (i : ℕ) : List Char := cs.take i ++ cs.drop (i + 1)

def insertAt (cs : List Char) (i : ℕ) (c : Char) : List Char := cs.take i ++ c :: cs.drop i

/-- `candidate.rfind(",", 0, end)`. -/
def lastComma (cs : List Char) (stop : ℕ) : Option ℕ :=
  (List.range (min stop cs.length)).reverse.find? fun i => cs[i]? = some ','

/-- The first index from `i` on without a blank. -/
def skipSpaces (cs : List Char) (i : ℕ) : ℕ := i + ((cs.drop i).takeWhile isSpace).length

/-- The length of the text up to an index, without the blanks at its end. -/
def trimmedLength (cs : List Char) (i : ℕ) : ℕ := ((cs.take i).rdropWhile isSpace).length

/-- The last character before an index that is no blank. -/
def previousChar (cs : List Char) (i : ℕ) : Option Char :=
  if trimmedLength cs i = 0 then none else cs[trimmedLength cs i - 1]?

/-- The repaired text for an error at a position, if there is one. -/
def repairStep (candidate : List Char) (msg : DecodeMessage) (position : ℕ) :
    Option (List Char) :=
  let currentIndex := skipSpaces candidate position
  let previousIndex := trimmedLength candidate position - 1
  let current := candidate[currentIndex]?
  let previous := previousChar candidate position
  let trailing := (lastComma candidate (position + 1)).filter fun i =>
    mentionsTrailingComma msg ∧ candidate[skipSpaces candidate (i + 1)]?.any (· ∈ ['}', ']'])
  match trailing with
  | some commaIndex => some (withoutIndex candidate commaIndex)
  | none =>
      if msg.text = "Expecting ',' delimiter" ∧ charIn current "\"\x7b[tfn-0123456789" ∧
          charIn previous "\"\x7d]el0123456789" then some (insertAt candidate currentIndex ',')
      else if charIn current "\x7d]" ∧ previous = some ',' ∧
          (msg.text ∈ ["Expecting property name enclosed in double quotes", "Expecting value"] ∨
            mentionsTrailingComma msg) then some (withoutIndex candidate previousIndex)
      else if msg.text = "Expecting ':' delimiter" ∧ charIn current "\"\x7b[tfn-0123456789" then
        some (insertAt candidate currentIndex ':')
      else none

/-- The rounds of `repair_json_object` that are left. -/
def repairRounds : ℕ → List Char → Except RepairError (JsonValue F)
  | 0, _ => .error .notRepaired
  | rounds + 1, candidate =>
      match loads floats depth candidate with
      | .ok (.obj fields) => .ok (.obj fields)
      | .ok _ => .error .notAnObject
      | .error (.jsonDecodeError msg position) =>
          match repairStep candidate msg position with
          | some candidate' => repairRounds rounds candidate'
          | none => .error (.load (.jsonDecodeError msg position))
      | .error e => .error (.load e)

/-- `repair_json_object`. -/
def repairJsonObject (value : String) : Except RepairError (JsonValue F) :=
  repairRounds floats depth 12 value.toList

/-! ## Blanks and edits -/

section Edits

variable {cs spaces : List Char}

theorem lexemes_spaces_append (h : ∀ c ∈ spaces, isSpace c = true) (cs : List Char) :
    lexemes (spaces ++ cs) = lexemes cs := by
  induction spaces with
  | nil => rfl
  | cons c spaces ih =>
      have hc : isSeparator c = true := by simp [isSeparator, h c (by simp)]
      rw [List.cons_append, lexemes_cons_separator hc, ih fun c hc => h c (by simp [hc])]

theorem noRunHead_spaces_append (h : ∀ c ∈ spaces, isSpace c = true) (hcs : NoRunHead cs) :
    NoRunHead (spaces ++ cs) := by
  cases spaces with
  | nil => exact hcs
  | cons c spaces => exact noRunHead_cons (by simp [isSeparator, h c (by simp)])

/-- A separator can be written before or after blanks that stand at the end of a part. -/
theorem lexemes_insert {piece : List Char} {found : List Lexeme} {run : List Char} {sep : Char}
    (h : Passes piece found run) (hspaces : ∀ c ∈ spaces, isSpace c = true)
    (hsep : isSeparator sep = true) (hrun : run = [] ∨ NoRunHead (spaces ++ cs)) :
    lexemes (piece ++ (spaces ++ sep :: cs)) = lexemes (piece ++ (spaces ++ cs)) := by
  rw [h.lexemes_append (.inr (noRunHead_spaces_append hspaces (noRunHead_cons hsep))),
    h.lexemes_append hrun, lexemes_spaces_append hspaces, lexemes_spaces_append hspaces,
    lexemes_cons_separator hsep]

/-- A separator before blanks can be removed if no run comes after them. -/
theorem lexemes_remove {piece : List Char} {found : List Lexeme} {run : List Char} {sep : Char}
    (h : Passes piece found run) (hsep : isSeparator sep = true) (hcs : NoRunHead cs) :
    lexemes (piece ++ cs) = lexemes (piece ++ sep :: cs) := by
  rw [h.lexemes_append (.inr hcs), h.lexemes_append (.inr (noRunHead_cons hsep)),
    lexemes_cons_separator hsep]

/-- Without a quotation mark no string is left. -/
theorem not_outside_pass {mode : LexMode} (hmode : ∀ run, mode ≠ .outside run)
    (h : '"' ∉ cs) : ∀ run, (mode.pass cs).2 ≠ .outside run := by
  induction cs generalizing mode with
  | nil => exact hmode
  | cons c cs ih =>
      have hc : c ≠ '"' := by
        rintro rfl
        exact h (by simp)
      have hcs : '"' ∉ cs := fun hmem => h (by simp [hmem])
      apply ih _ hcs
      cases mode with
      | outside run => exact absurd rfl (hmode run)
      | inString chars =>
          simp only [LexMode.step, hc, if_false]
          split_ifs <;> simp
      | escaped chars => simp [LexMode.step]

theorem passes_of_append {piece : List Char} {found : List Lexeme} {run : List Char}
    (h : Passes (piece ++ cs) found run) (hcs : '"' ∉ cs) :
    ∃ found' run', Passes piece found' run' := by
  cases hpass : (LexMode.outside []).pass piece with
  | mk found' mode =>
      cases mode with
      | outside run' => exact ⟨found', run', ⟨hpass⟩⟩
      | inString chars =>
          have hmode := congrArg Prod.snd h.pass_eq
          rw [LexMode.pass_append, hpass] at hmode
          exact absurd hmode (not_outside_pass (by simp) hcs _)
      | escaped chars =>
          have hmode := congrArg Prod.snd h.pass_eq
          rw [LexMode.pass_append, hpass] at hmode
          exact absurd hmode (not_outside_pass (by simp) hcs _)

theorem noRunHead_of_closes (h : ∀ c ∈ cs.head?, c ∈ ['}', ']']) : NoRunHead cs := by
  have hcloses : ∀ c ∈ ['}', ']'], isRunChar c = false := by simp [isRunChar, isSeparator]
  exact fun c hc => hcloses c (h c hc)

end Edits

/-! ## One repair -/

section Step

variable {cs : List Char} {i : ℕ}

theorem isSpace_of_mem_takeWhile : ∀ c ∈ (cs.drop i).takeWhile isSpace, isSpace c = true :=
  fun _ hc => List.mem_takeWhile_imp hc

theorem take_append_spaces (cs : List Char) (i : ℕ) :
    cs.take i ++ ((cs.drop i).takeWhile isSpace ++ (cs.drop i).dropWhile isSpace) = cs := by
  rw [List.takeWhile_append_dropWhile, List.take_append_drop]

theorem drop_skipSpaces (cs : List Char) (i : ℕ) :
    cs.drop (skipSpaces cs i) = (cs.drop i).dropWhile isSpace := by
  rw [skipSpaces, ← List.drop_drop]
  nth_rewrite 2 [← List.takeWhile_append_dropWhile (p := isSpace) (l := cs.drop i)]
  rw [List.drop_left]

theorem take_skipSpaces (cs : List Char) (i : ℕ) :
    cs.take (skipSpaces cs i) = cs.take i ++ (cs.drop i).takeWhile isSpace := by
  rw [skipSpaces, List.take_add]
  nth_rewrite 2 [← List.takeWhile_append_dropWhile (p := isSpace) (l := cs.drop i)]
  rw [List.take_left]

theorem getElem?_skipSpaces (cs : List Char) (i : ℕ) :
    cs[skipSpaces cs i]? = ((cs.drop i).dropWhile isSpace).head? := by
  rw [← drop_skipSpaces, List.head?_drop]

theorem insertAt_skipSpaces (cs : List Char) (i : ℕ) (c : Char) :
    insertAt cs (skipSpaces cs i) c =
      cs.take i ++ ((cs.drop i).takeWhile isSpace ++ c :: (cs.drop i).dropWhile isSpace) := by
  rw [insertAt, take_skipSpaces, drop_skipSpaces, List.append_assoc]

theorem withoutIndex_append (before after : List Char) (c : Char) :
    withoutIndex (before ++ c :: after) before.length = before ++ after := by
  simp [withoutIndex]

theorem take_eq_of_previousChar {c : Char} (h : previousChar cs i = some c) :
    ∃ before spaces, cs.take i = before ++ c :: spaces ∧ (∀ d ∈ spaces, isSpace d = true) ∧
      trimmedLength cs i - 1 = before.length := by
  unfold previousChar at h
  split_ifs at h with hpos
  have hsplit : (cs.take i).rdropWhile isSpace ++ (cs.take i).rtakeWhile isSpace = cs.take i :=
    List.rdropWhile_append_rtakeWhile
  obtain hnil | ⟨before, last, hlast⟩ := ((cs.take i).rdropWhile isSpace).eq_nil_or_concat
  · simp [trimmedLength, hnil] at hpos
  rw [List.concat_eq_append] at hlast
  have hlength : trimmedLength cs i - 1 = before.length := by simp [trimmedLength, hlast]
  have hcs : cs = before ++ last :: ((cs.take i).rtakeWhile isSpace ++ cs.drop i) := by
    rw [hlast] at hsplit
    nth_rewrite 1 [← List.take_append_drop i cs, ← hsplit]
    simp
  obtain rfl : last = c := by
    rw [hlength, hcs] at h
    simpa using h
  refine ⟨before, (cs.take i).rtakeWhile isSpace, ?_,
    fun d hd => List.mem_rtakeWhile_imp hd, hlength⟩
  calc cs.take i = (cs.take i).rdropWhile isSpace ++ (cs.take i).rtakeWhile isSpace := hsplit.symm
    _ = before ++ last :: (cs.take i).rtakeWhile isSpace := by
      rw [hlast, List.append_assoc, List.singleton_append]

theorem mentionsTrailingComma_eq (msg : DecodeMessage) :
    mentionsTrailingComma msg = msg.atComma := by
  cases msg <;> decide +kernel

/-- Only errors outside of strings are repaired. -/
theorem outsideString_of_repairStep {msg : DecodeMessage} {cs' : List Char}
    (h : repairStep cs msg i = some cs') : msg.outsideString = true := by
  by_contra hstring
  have htext : msg.text ≠ "Expecting ',' delimiter" ∧ msg.text ≠ "Expecting ':' delimiter" ∧
      msg.text ∉ ["Expecting property name enclosed in double quotes", "Expecting value"] ∧
      mentionsTrailingComma msg = false := by
    rw [mentionsTrailingComma_eq]
    revert hstring
    cases msg <;> decide
  simp [repairStep, htext.1, htext.2.1, htext.2.2.1, htext.2.2.2] at h

theorem lastComma_self (h : cs[i]? = some ',') : lastComma cs (i + 1) = some i := by
  have hlt : i < cs.length := (List.getElem?_eq_some_iff.mp h).1
  rw [lastComma, min_eq_left (by omega), List.range_succ, List.reverse_append]
  simp [h]

theorem charIn_closes {c : Option Char} (h : charIn c "\x7d]" = true) : ∀ d ∈ c, d ∈ ['}', ']'] := by
  rintro d rfl
  simpa [charIn] using h

/-- The characters that the blanks up to the next character end with. -/
theorem noRunHead_drop (h : ∀ c ∈ cs[skipSpaces cs i]?, c ∈ ['}', ']']) :
    NoRunHead (cs.drop i) := by
  rw [← List.takeWhile_append_dropWhile (p := isSpace) (l := cs.drop i)]
  apply noRunHead_spaces_append isSpace_of_mem_takeWhile
  apply noRunHead_of_closes
  rwa [← getElem?_skipSpaces]

theorem isSeparator_comma : isSeparator ',' = true := by decide

theorem lexemes_insertAt {floats : FloatReading F} {sep : Char} (hsep : isSeparator sep = true)
    (h : ReachesRest floats cs (cs.drop i)) (hruns : RunsScalar floats cs) :
    lexemes (insertAt cs (skipSpaces cs i) sep) = lexemes cs := by
  obtain ⟨piece, found, run, hsplit, hpasses, hends⟩ := h
  have htake : cs.take i = piece := by
    nth_rewrite 1 [← List.take_append_drop i cs] at hsplit
    exact List.append_cancel_right hsplit
  have hrun := hends hruns
  rw [← List.takeWhile_append_dropWhile (p := isSpace) (l := cs.drop i)] at hrun
  rw [insertAt_skipSpaces, htake, lexemes_insert hpasses isSpace_of_mem_takeWhile hsep hrun,
    ← htake, take_append_spaces]

theorem lexemes_withoutTrailing {floats : FloatReading F}
    (h : ReachesRest floats cs (cs.drop i)) (hcomma : cs[i]? = some ',')
    (hcloses : ∀ c ∈ cs[skipSpaces cs (i + 1)]?, c ∈ ['}', ']']) :
    lexemes (withoutIndex cs i) = lexemes cs := by
  obtain ⟨piece, found, run, hsplit, hpasses, _⟩ := h
  have htake : cs.take i = piece := by
    nth_rewrite 1 [← List.take_append_drop i cs] at hsplit
    exact List.append_cancel_right hsplit
  have hdrop : cs.drop i = ',' :: cs.drop (i + 1) := by
    obtain ⟨hlt, hget⟩ := List.getElem?_eq_some_iff.mp hcomma
    rw [← hget, List.drop_eq_getElem_cons hlt]
  rw [withoutIndex, htake, lexemes_remove hpasses isSeparator_comma (noRunHead_drop hcloses), ← hdrop,
    ← hsplit]

theorem lexemes_withoutPrevious {floats : FloatReading F}
    (h : ReachesRest floats cs (cs.drop i)) (hprevious : previousChar cs i = some ',')
    (hcloses : ∀ c ∈ cs[skipSpaces cs i]?, c ∈ ['}', ']']) :
    lexemes (withoutIndex cs (trimmedLength cs i - 1)) = lexemes cs := by
  obtain ⟨piece, found, run, hsplit, hpasses, _⟩ := h
  have htake : cs.take i = piece := by
    nth_rewrite 1 [← List.take_append_drop i cs] at hsplit
    exact List.append_cancel_right hsplit
  obtain ⟨before, spaces, hbefore, hspaces, hlength⟩ := take_eq_of_previousChar hprevious
  rw [← htake, hbefore] at hpasses
  have hquote : '"' ∉ ',' :: spaces := by
    simp only [List.mem_cons, not_or]
    exact ⟨by decide, fun hmem => absurd (hspaces _ hmem) (by decide)⟩
  obtain ⟨found', run', hpasses'⟩ := passes_of_append hpasses hquote
  have hcs : cs = before ++ ',' :: (spaces ++ cs.drop i) := by
    nth_rewrite 1 [← List.take_append_drop i cs]
    rw [hbefore, List.append_assoc, List.cons_append]
  have hremove := lexemes_remove hpasses' isSeparator_comma
    (noRunHead_spaces_append hspaces (noRunHead_drop hcloses))
  rw [← hcs] at hremove
  rw [← hremove, hlength]
  nth_rewrite 1 [hcs]
  rw [withoutIndex_append]

/-- A repair leaves the lexemes as they are, if all runs are scalars. -/
theorem lexemes_repairStep {floats : FloatReading F} {msg : DecodeMessage} {cs' : List Char}
    (hfails : FailsAt floats cs msg (cs.drop i)) (hruns : RunsScalar floats cs)
    (h : repairStep cs msg i = some cs') : lexemes cs' = lexemes cs := by
  simp only [repairStep] at h
  split at h
  · rename_i commaIndex htrailing
    obtain rfl := Option.some.inj h
    obtain ⟨hlast, hmsg⟩ := Option.filter_eq_some_iff.mp htrailing
    simp only [decide_eq_true_eq, Option.any_eq_true] at hmsg
    obtain ⟨hmentions, c, hc, hclose⟩ := hmsg
    rw [mentionsTrailingComma_eq] at hmentions
    have hcomma : cs[i]? = some ',' := by
      rw [← List.head?_drop]
      exact hfails.comma hmentions
    obtain rfl : i = commaIndex := Option.some.inj ((lastComma_self hcomma).symm.trans hlast)
    apply lexemes_withoutTrailing hfails.reaches hcomma
    rintro d hd
    obtain rfl : c = d := Option.some.inj (hc.symm.trans hd)
    exact hclose
  · split_ifs at h with _ hprevious
    · obtain rfl := Option.some.inj h
      exact lexemes_insertAt isSeparator_comma hfails.reaches hruns
    · obtain rfl := Option.some.inj h
      exact lexemes_withoutPrevious hfails.reaches hprevious.2.1 (charIn_closes hprevious.1)
    · obtain rfl := Option.some.inj h
      exact lexemes_insertAt (by decide) hfails.reaches hruns

end Step

/-! ## All rounds -/

section Rounds

variable {floats depth}

/-- As long as all runs are scalars, what is decoded in the end has the lexemes of the text. -/
theorem exists_document_of_repairRounds {rounds : ℕ} {cs : List Char} {v : JsonValue F}
    (hruns : RunsScalar floats cs) (h : repairRounds floats depth rounds cs = .ok v) :
    ∃ document, loads floats depth document = .ok v ∧ lexemes document = lexemes cs := by
  induction rounds generalizing cs with
  | zero => cases h
  | succ rounds ih =>
      rw [repairRounds] at h
      split at h
      · rename_i fields hload
        obtain rfl := Except.ok.inj h
        exact ⟨cs, hload, rfl⟩
      · cases h
      · rename_i msg position hload
        split at h
        · rename_i cs' hstep
          have hfails := failsAt_of_loads hload (outsideString_of_repairStep hstep)
          have hlexemes := lexemes_repairStep hfails hruns hstep
          have hruns' : RunsScalar floats cs' := by
            unfold RunsScalar lexemeRuns at hruns ⊢
            rwa [hlexemes]
          obtain ⟨document, hdocument, hsame⟩ := ih hruns' h
          exact ⟨document, hdocument, hsame.trans hlexemes⟩
        · cases h
      · cases h

/-- A repaired value is that of a document with the lexemes of the text if and only if each run of
the text outside of strings is one number or one constant. -/
theorem repairJsonObject_iff {value : String} {v : JsonValue F}
    (h : repairJsonObject floats depth value = .ok v) :
    (∃ document, loads floats depth document = .ok v ∧
      lexemes document = lexemes value.toList) ↔ RunsScalar floats value.toList := by
  constructor
  · rintro ⟨document, hdocument, hlexemes⟩
    have hruns := runsScalar_of_loads hdocument
    unfold RunsScalar lexemeRuns at hruns ⊢
    rwa [hlexemes] at hruns
  · intro hruns
    exact exists_document_of_repairRounds hruns h

end Rounds

/-- Floats by their text. -/
def textFloats : FloatReading (List Char) where
  ofText := id
  nan := ['N', 'a', 'N']
  infinity := ['I', 'n', 'f', 'i', 'n', 'i', 't', 'y']
  negInfinity := ['-', 'I', 'n', 'f', 'i', 'n', 'i', 't', 'y']

/-- A missing comma is put back. -/
theorem repairJsonObject_iff_missingComma :
    ∃ v, repairJsonObject textFloats 100 "\x7b\"a\": [1 2] \"b\" null,\x7d" = .ok v ∧
      ((∃ document, loads textFloats 100 document = .ok v ∧
        lexemes document = lexemes "\x7b\"a\": [1 2] \"b\" null,\x7d".toList) ↔
          RunsScalar textFloats "\x7b\"a\": [1 2] \"b\" null,\x7d".toList) := by
  obtain ⟨v, hv⟩ := exists_ok_iff.mpr (by decide +kernel :
    (repairJsonObject textFloats 100
      "\x7b\"a\": [1 2] \"b\" null,\x7d").toOption.isSome = true)
  exact ⟨v, hv, repairJsonObject_iff hv⟩

/-- A date without quotation marks is made four numbers. -/
theorem repairJsonObject_splits_date :
    ¬ ∀ (value : String) (v : JsonValue (List Char)),
      repairJsonObject textFloats 100 value = .ok v →
        ∃ document, loads textFloats 100 document = .ok v ∧
          lexemes document = lexemes value.toList := by
  intro h
  obtain ⟨v, hrepair⟩ := exists_ok_iff.mpr (by decide +kernel :
    (repairJsonObject textFloats 100 "\x7b\"d\": [2024-01-15]\x7d").toOption.isSome = true)
  obtain ⟨document, hdocument, hlexemes⟩ := h _ v hrepair
  have hruns := runsScalar_of_loads hdocument
  unfold RunsScalar lexemeRuns at hruns
  rw [hlexemes] at hruns
  have hmem : ['2', '0', '2', '4', '-', '0', '1', '-', '1', '5'] ∈
      lexemeRuns "\x7b\"d\": [2024-01-15]\x7d".toList := by
    decide +kernel
  obtain ⟨n, hscalar⟩ := hruns _ hmem
  have hscan : (scanScalar textFloats
      ['2', '0', '2', '4', '-', '0', '1', '-', '1', '5']).toOption.map Prod.snd =
        some ['-', '0', '1', '-', '1', '5'] := by
    decide +kernel
  rw [hscalar] at hscan
  simp [Except.toOption] at hscan

end Zyntry
