import Zyntry.JsonLexemes
import Zyntry.PythonText

/-!
# What the decoder reads of a text

The scanners of the decoder read whole lexemes. A document has only runs that are scalars, and in
a text that has only such runs every position that the decoder reaches outside of strings is one
at which no lexeme is split.
-/

namespace Python

/-! ## Scalars and runs -/

section Scalars

variable {x : List Char}

theorem isRunChar_of_isDigit {c : Char} (h : c.isDigit = true) : isRunChar c = true := by
  have hrange : 48 ≤ c.toNat ∧ c.toNat ≤ 57 := by
    simpa [Char.isDigit, UInt32.le_iff_toNat_le] using h
  have hspace : isSpace c = false := by
    simp [isSpace]
    omega
  have hdigits : ∀ d ∈ ['"', ',', ':', '{', '}', '[', ']'], d.isDigit = false := by
    simp [Char.isDigit]
  have hmem : ∀ d ∈ ['"', ',', ':', '{', '}', '[', ']'], c ≠ d := by
    rintro d hd rfl
    exact absurd h (by simp [hdigits c hd])
  simp [isRunChar, isSeparator, hspace]
  simpa using hmem

theorem NoRunHead.ne {c d : Char} {cs : List Char} (h : NoRunHead (c :: cs))
    (hd : isRunChar d = true) : c ≠ d := by
  rintro rfl
  exact absurd (h c rfl) (by simp [hd])

theorem scanDigits_append (hx : NoRunHead x) (w : List Char) :
    scanDigits (w ++ x) = ((scanDigits w).1, (scanDigits w).2 ++ x) := by
  induction w with
  | nil =>
      cases x with
      | nil => rfl
      | cons c cs =>
          have hc : c.isDigit = false := by
            by_contra hdigit
            have := hx c rfl
            simp [isRunChar_of_isDigit (by simpa using hdigit)] at this
          simp [scanDigits, hc]
  | cons c w ih =>
      simp only [scanDigits, Prod.mk.injEq] at ih
      cases hc : c.isDigit with
      | true => simp [scanDigits, hc, ih.1, ih.2]
      | false => simp [scanDigits, hc]

theorem scanNatural_append (hx : NoRunHead x) (w : List Char) :
    scanNatural (w ++ x) = (scanNatural w).map fun found => (found.1, found.2 ++ x) := by
  cases w with
  | nil =>
      cases x with
      | nil => rfl
      | cons c cs =>
          have hzero : c ≠ '0' := hx.ne (by decide)
          have hc : c.isDigit = false := by
            by_contra hdigit
            exact hx.ne (isRunChar_of_isDigit (by simpa using hdigit)) rfl
          simp [scanNatural, hzero, hc]
  | cons c w =>
      simp only [List.cons_append, scanNatural, scanDigits_append hx]
      split_ifs <;> rfl

theorem scanInteger_append (hx : NoRunHead x) (w : List Char) :
    scanInteger (w ++ x) = (scanInteger w).map fun found => (found.1, found.2 ++ x) := by
  cases w with
  | nil =>
      cases x with
      | nil => rfl
      | cons c cs =>
          have hminus : c ≠ '-' := hx.ne (by decide)
          simpa [scanInteger, hminus, scanNatural] using scanNatural_append hx []
  | cons c w =>
      have hnatural := scanNatural_append hx (c :: w)
      rw [List.cons_append] at hnatural
      simp only [List.cons_append, scanInteger, scanNatural_append hx, hnatural]
      split_ifs
      · simp [Function.comp_def]
      · rfl

theorem scanFraction_append (hx : NoRunHead x) (w : List Char) :
    scanFraction (w ++ x) = ((scanFraction w).1, (scanFraction w).2 ++ x) := by
  match w with
  | [] =>
      match x with
      | [] => rfl
      | [c] => rfl
      | c :: d :: cs =>
          have hdot : c ≠ '.' := hx.ne (by decide)
          simp [scanFraction, hdot]
  | [c] =>
      cases x with
      | nil => rfl
      | cons d cs =>
          have hd : d.isDigit = false := by
            by_contra hdigit
            exact hx.ne (isRunChar_of_isDigit (by simpa using hdigit)) rfl
          simp [scanFraction, hd]
  | c :: d :: w =>
      simp only [List.cons_append, scanFraction, scanDigits_append hx]
      split_ifs <;> rfl

theorem scanSign_append (hx : NoRunHead x) (w : List Char) :
    scanSign (w ++ x) = ((scanSign w).1, (scanSign w).2 ++ x) := by
  cases w with
  | nil =>
      cases x with
      | nil => rfl
      | cons c cs =>
          have hplus : c ≠ '+' := hx.ne (by decide)
          have hminus : c ≠ '-' := hx.ne (by decide)
          simp [scanSign, hplus, hminus]
  | cons c w =>
      simp only [List.cons_append, scanSign]
      split_ifs <;> rfl

theorem scanExponent_append (hx : NoRunHead x) (w : List Char) :
    scanExponent (w ++ x) = ((scanExponent w).1, (scanExponent w).2 ++ x) := by
  cases w with
  | nil =>
      cases x with
      | nil => rfl
      | cons c cs =>
          have he : c ≠ 'e' := hx.ne (by decide)
          have hE : c ≠ 'E' := hx.ne (by decide)
          simp [scanExponent, he, hE]
  | cons c w =>
      simp only [List.cons_append, scanExponent, scanSign_append hx, scanDigits_append hx]
      split_ifs <;> rfl

/-- A number ends with the run that it is in. -/
theorem matchNumber_append (hx : NoRunHead x) (w : List Char) :
    matchNumber (w ++ x) = (matchNumber w).map fun found => (found.1, found.2 ++ x) := by
  unfold matchNumber
  rw [scanInteger_append hx]
  cases scanInteger w with
  | none => rfl
  | some found => simp [scanFraction_append hx, scanExponent_append hx]

theorem stripLiteral_append (hx : NoRunHead x) {literal : List Char}
    (hliteral : ∀ c ∈ literal, isRunChar c = true) (w : List Char) :
    stripLiteral literal (w ++ x) = (stripLiteral literal w).map (· ++ x) := by
  induction literal generalizing w with
  | nil => simp [stripLiteral]
  | cons l ls ih =>
      cases w with
      | nil =>
          cases x with
          | nil => rfl
          | cons c cs =>
              have hl : l ≠ c := (hx.ne (hliteral l (by simp))).symm
              simp [stripLiteral, hl]
      | cons c w =>
          simp only [List.cons_append, stripLiteral, ih fun c hc => hliteral c (by simp [hc])]
          split_ifs <;> rfl

variable {F : Type} (floats : FloatReading F)

theorem isRunChar_jsonConstants :
    ∀ entry ∈ jsonConstants floats, ∀ c ∈ entry.1, isRunChar c = true := by
  have hliterals : ((jsonConstants floats).map Prod.fst).all (·.all isRunChar) = true := rfl
  intro entry hentry
  exact List.all_eq_true.mp (List.all_eq_true.mp hliterals _ (List.mem_map_of_mem hentry))

theorem scanConstant_append (hx : NoRunHead x) (w : List Char) :
    scanConstant floats (w ++ x) =
      (scanConstant floats w).map fun found => (found.1, found.2 ++ x) := by
  have hentries := isRunChar_jsonConstants floats
  unfold scanConstant
  generalize jsonConstants floats = entries at hentries ⊢
  induction entries with
  | nil => rfl
  | cons entry entries ih =>
      obtain ⟨hentry, hentries⟩ := List.forall_mem_cons.mp hentries
      simp only [List.findSome?_cons, stripLiteral_append hx hentry]
      cases stripLiteral entry.1 w with
      | none => exact ih hentries
      | some rest => rfl

/-- A scalar ends with the run that it is in. -/
theorem scanScalar_append (hx : NoRunHead x) (w rest : List Char) (v : JsonValue F) :
    scanScalar floats (w ++ x) = .ok (v, rest) ↔
      ∃ r, rest = r ++ x ∧ scanScalar floats w = .ok (v, r) := by
  unfold scanScalar
  rw [scanConstant_append floats hx, matchNumber_append hx]
  cases scanConstant floats w with
  | some found =>
      obtain ⟨value, r⟩ := found
      simp only [Option.map_some, Except.ok.injEq, Prod.mk.injEq]
      constructor
      · rintro ⟨rfl, rfl⟩
        exact ⟨r, rfl, rfl, rfl⟩
      · rintro ⟨_, rfl, rfl, rfl⟩
        exact ⟨rfl, rfl⟩
  | none =>
      cases matchNumber w with
      | none => simp
      | some found =>
          obtain ⟨number, r⟩ := found
          simp only [Option.map_some, Option.map_none]
          cases number.value floats with
          | error e => simp [Except.map]
          | ok value =>
              simp only [Except.map, Except.ok.injEq, Prod.mk.injEq]
              constructor
              · rintro ⟨rfl, rfl⟩
                exact ⟨r, rfl, rfl, rfl⟩
              · rintro ⟨_, rfl, rfl, rfl⟩
                exact ⟨rfl, rfl⟩

end Scalars

/-! ## Parts of a text -/

variable {F : Type} (floats : FloatReading F)

/-- The run is one number or one constant. -/
def IsScalar (run : List Char) : Prop := ∃ value, scanScalar floats run = .ok (value, [])

def RunsScalar (cs : List Char) : Prop := ∀ run ∈ lexemeRuns cs, IsScalar floats run

/-- From one position to a later one, outside of strings and between lexemes. -/
def Follows (cs rest : List Char) : Prop :=
  ∃ piece found, cs = piece ++ rest ∧ Passes piece found [] ∧ RunsScalar floats piece

/-- From one position to a later one, where a run may begin that only goes on if some run of the
text is no scalar. -/
def ReachesRest (cs rest : List Char) : Prop :=
  ∃ piece found run, cs = piece ++ rest ∧ Passes piece found run ∧
    (RunsScalar floats cs → run = [] ∨ NoRunHead rest)

/-- A value stands between the positions. -/
def Scanned (cs rest : List Char) : Prop :=
  rest.length < cs.length ∧ ∃ piece found run, cs = piece ++ rest ∧ Passes piece found run ∧
    (NoRunHead rest → RunsScalar floats piece) ∧
    (RunsScalar floats cs → run = [] ∨ NoRunHead rest)

/-- The error is not one within a string. -/
def DecodeMessage.outsideString : DecodeMessage → Bool
  | unterminatedString | invalidControlCharacter | invalidEscape | invalidUnicodeEscape => false
  | _ => true

/-- The error is reported at a comma. -/
def DecodeMessage.atComma : DecodeMessage → Bool
  | trailingCommaObject | trailingCommaArray => true
  | _ => false

/-- Where an error outside of strings is reported. -/
structure FailsAt (cs : List Char) (msg : DecodeMessage) (rest : List Char) : Prop where
  reaches : ReachesRest floats cs rest
  comma : msg.atComma = true → rest.head? = some ','

/-- What the scanners of values keep to. -/
structure ScansLexemes {V : Type} (scan : List Char → Scan V) : Prop where
  value : ∀ {cs rest v}, scan cs = .ok (v, rest) → Scanned floats cs rest
  error : ∀ {cs rest msg}, scan cs = .error (.decode msg rest) → msg.outsideString = true →
    FailsAt floats cs msg rest

section

variable {floats} {cs mid rest : List Char}

theorem runsScalar_append {piece : List Char} {found : List Lexeme} {run : List Char}
    (h : Passes piece found run) (hrun : run = [] ∨ NoRunHead cs) :
    RunsScalar floats (piece ++ cs) ↔ RunsScalar floats piece ∧ RunsScalar floats cs := by
  simp only [RunsScalar, lexemeRuns, h.lexemes_append hrun, List.filterMap_append, List.mem_append]
  constructor
  · intro hall
    exact ⟨fun r hr => hall r (.inl hr), fun r hr => hall r (.inr hr)⟩
  · rintro ⟨hpiece, hcs⟩ r (hr | hr)
    · exact hpiece r hr
    · exact hcs r hr

theorem runsScalar_nil : RunsScalar floats [] := by
  simp [RunsScalar, lexemeRuns, lexemes, LexMode.pass, LexMode.finish, runLexeme]

theorem runsScalar_cons_separator {c : Char} (hc : isSeparator c = true) :
    RunsScalar floats (c :: cs) ↔ RunsScalar floats cs := by
  simp only [RunsScalar, lexemeRuns, lexemes_cons_separator hc]

theorem passes_separator {c : Char} (hc : isSeparator c = true) : Passes [c] [] [] := by
  have hquote : c ≠ '"' := by
    rintro rfl
    exact absurd hc (by decide)
  constructor
  simp [LexMode.pass, LexMode.step, hquote, hc, runLexeme]

theorem noRunHead_cons {c : Char} (hc : isSeparator c = true) : NoRunHead (c :: cs) := by
  intro d hd
  obtain rfl : c = d := by simpa using hd
  simp [isRunChar, hc]

namespace Follows

theorem refl (cs : List Char) : Follows floats cs cs :=
  ⟨[], [], rfl, .nil, runsScalar_nil⟩

theorem trans (h : Follows floats cs mid) (h' : Follows floats mid rest) :
    Follows floats cs rest := by
  obtain ⟨piece, found, rfl, hpasses, hscalar⟩ := h
  obtain ⟨piece', found', rfl, hpasses', hscalar'⟩ := h'
  exact ⟨piece ++ piece', _, (List.append_assoc _ _ _).symm, hpasses.append hpasses' (.inl rfl),
    (runsScalar_append hpasses (.inl rfl)).mpr ⟨hscalar, hscalar'⟩⟩

theorem cons {c : Char} (hc : isSeparator c = true) : Follows floats (c :: cs) cs :=
  ⟨[c], [], rfl, passes_separator hc, (runsScalar_cons_separator hc).mpr runsScalar_nil⟩

theorem runsScalar (h : Follows floats cs rest) (hcs : RunsScalar floats cs) :
    RunsScalar floats rest := by
  obtain ⟨piece, found, rfl, hpasses, _⟩ := h
  exact ((runsScalar_append hpasses (.inl rfl)).mp hcs).2

theorem length_le (h : Follows floats cs rest) : rest.length ≤ cs.length := by
  obtain ⟨piece, found, rfl, _⟩ := h
  simp

theorem reachesRest (h : Follows floats cs mid) (h' : ReachesRest floats mid rest) :
    ReachesRest floats cs rest := by
  have hrest := h.runsScalar
  obtain ⟨piece, found, rfl, hpasses, _⟩ := h
  obtain ⟨piece', found', run, rfl, hpasses', hends⟩ := h'
  exact ⟨piece ++ piece', _, run, (List.append_assoc _ _ _).symm,
    hpasses.append hpasses' (.inl rfl), fun hall => hends (hrest hall)⟩

theorem reachesRest_self (h : Follows floats cs rest) : ReachesRest floats cs rest :=
  h.reachesRest ⟨[], [], [], rfl, .nil, fun _ => .inl rfl⟩

theorem failsAt {msg : DecodeMessage} (h : Follows floats cs mid)
    (h' : FailsAt floats mid msg rest) : FailsAt floats cs msg rest :=
  ⟨h.reachesRest h'.reaches, h'.comma⟩

theorem scanned (h : Follows floats cs rest) (hlength : rest.length < cs.length) :
    Scanned floats cs rest := by
  obtain ⟨piece, found, rfl, hpasses, hscalar⟩ := h
  exact ⟨hlength, piece, found, [], rfl, hpasses, fun _ => hscalar, fun _ => .inl rfl⟩

end Follows

theorem failsAt_self {msg : DecodeMessage} (h : msg.atComma = false) : FailsAt floats cs msg cs :=
  ⟨(Follows.refl cs).reachesRest_self, fun hcomma => by simp [h] at hcomma⟩

theorem isSeparator_of_isJsonSpace {c : Char} (h : isJsonSpace c = true) :
    isSeparator c = true := by
  have hspaces : ∀ d ∈ [' ', '\t', '\n', '\r'], isSeparator d = true :=
    List.all_eq_true.mp (by decide)
  apply hspaces
  simpa [isJsonSpace] using h

theorem follows_skipJsonSpace (cs : List Char) : Follows floats cs (skipJsonSpace cs) := by
  induction cs with
  | nil => exact .refl _
  | cons c cs ih =>
      cases hc : isJsonSpace c with
      | true =>
          simpa [skipJsonSpace, hc] using (Follows.cons (isSeparator_of_isJsonSpace hc)).trans ih
      | false => simpa [skipJsonSpace, hc] using Follows.refl (c :: cs)

namespace Scanned

/-- A separator after a value ends the run of the value. -/
theorem follows_cons {c : Char} (h : Scanned floats cs (c :: rest)) (hc : isSeparator c = true) :
    Follows floats cs rest := by
  have hhead : NoRunHead (c :: rest) := noRunHead_cons hc
  obtain ⟨_, piece, found, run, rfl, hpasses, hscalar, _⟩ := h
  have hruns : RunsScalar floats (piece ++ [c]) :=
    (runsScalar_append hpasses (.inr (noRunHead_cons hc))).mpr
      ⟨hscalar hhead, (runsScalar_cons_separator hc).mpr runsScalar_nil⟩
  exact ⟨piece ++ [c], _, by simp, hpasses.append (passes_separator hc)
    (.inr ⟨noRunHead_cons hc, List.cons_ne_nil _ _⟩), hruns⟩

theorem reachesRest (h : Scanned floats cs rest) : ReachesRest floats cs rest := by
  obtain ⟨_, piece, found, run, hsplit, hpasses, _, hends⟩ := h
  exact ⟨piece, found, run, hsplit, hpasses, hends⟩

theorem skip (h : Scanned floats cs mid) :
    skipJsonSpace mid = mid ∨ Follows floats cs (skipJsonSpace mid) := by
  cases mid with
  | nil => exact .inl rfl
  | cons c mid =>
      cases hc : isJsonSpace c with
      | true =>
          have hskip : skipJsonSpace (c :: mid) = skipJsonSpace mid := by
            simp [skipJsonSpace, hc]
          rw [hskip]
          exact .inr ((h.follows_cons (isSeparator_of_isJsonSpace hc)).trans
            (follows_skipJsonSpace mid))
      | false => exact .inl (by simp [skipJsonSpace, hc])

theorem follows {c : Char} (h : Scanned floats cs mid) (hskip : skipJsonSpace mid = c :: rest)
    (hc : isSeparator c = true) : Follows floats cs rest := by
  obtain hsame | hfollows := h.skip
  · rw [hskip] at hsame
    subst hsame
    exact h.follows_cons hc
  · rw [hskip] at hfollows
    exact hfollows.trans (.cons hc)

theorem reachesRest_skip (h : Scanned floats cs mid) :
    ReachesRest floats cs (skipJsonSpace mid) := by
  obtain hsame | hfollows := h.skip
  · rw [hsame]
    exact h.reachesRest
  · exact hfollows.reachesRest_self

end Scanned

/-! ## Strings -/

theorem pass_inString_cons {c : Char} (hquote : c ≠ '"') (hslash : c ≠ '\\')
    (chars cs : List Char) :
    (LexMode.inString chars).pass (c :: cs) = (LexMode.inString (chars ++ [c])).pass cs := by
  simp [LexMode.pass, LexMode.step, hquote, hslash]

theorem pass_inString_escape (e : Char) (chars cs : List Char) :
    (LexMode.inString chars).pass ('\\' :: e :: cs) =
      (LexMode.inString (chars ++ ['\\'] ++ [e])).pass cs := by
  simp [LexMode.pass, LexMode.step]

theorem ne_of_hexDigit {c : Char} {n : ℕ} (h : hexDigit c = some n) : c ≠ '"' ∧ c ≠ '\\' := by
  have hnone : ∀ d ∈ ['"', '\\'], hexDigit d = none := by simp [hexDigit]
  constructor
  · rintro rfl
    simp [hnone '"' (by simp)] at h
  · rintro rfl
    simp [hnone '\\' (by simp)] at h

theorem ne_of_hexCode {x y z w : Char} {n : ℕ} (h : hexCode x y z w = some n) :
    ∀ c ∈ [x, y, z, w], c ≠ '"' ∧ c ≠ '\\' := by
  simp only [hexCode, Option.bind_eq_bind, Option.bind_eq_some_iff] at h
  obtain ⟨_, hx, _, hy, _, hz, _, hw, _⟩ := h
  simp only [List.forall_mem_cons]
  exact ⟨ne_of_hexDigit hx, ne_of_hexDigit hy, ne_of_hexDigit hz, ne_of_hexDigit hw, by simp⟩

theorem eq_error_of_map {α β : Type} {scan : Except ScanError α} {f : α → β} {e : ScanError}
    (h : f <$> scan = .error e) : scan = .error e := by
  cases scan with
  | error e' => exact congrArg Except.error (Except.error.inj h)
  | ok a => cases h

theorem error_of_bind {α β : Type} {scan : Except ScanError α} {f : α → Except ScanError β}
    {e : ScanError} (h : (scan >>= f) = .error e) :
    scan = .error e ∨ ∃ a, scan = .ok a ∧ f a = .error e := by
  cases scan with
  | error e' => exact .inl (congrArg Except.error (Except.error.inj h))
  | ok a => exact .inr ⟨a, rfl, h⟩

/-- The automaton leaves a string where the decoder does. -/
theorem scanUnits_passes {start cs rest : List Char} {units : List CodeUnit}
    (h : scanUnits start cs = .ok (units, rest)) (chars : List Char) :
    ∃ piece chars', cs = piece ++ rest ∧
      (LexMode.inString chars).pass piece = ([.literal chars'], .outside []) := by
  fun_induction scanUnits start cs generalizing units chars with
  | case1 => simp at h
  | case2 more =>
      obtain ⟨_, rfl⟩ := Prod.mk.inj (Except.ok.inj h)
      exact ⟨['"'], chars ++ ['"'], rfl, by simp [LexMode.pass, LexMode.step]⟩
  | case3 => simp at h
  | case4 x y z w next after code hcode hne ih =>
      have hchars := ne_of_hexCode hcode
      simp only [List.forall_mem_cons] at hchars
      obtain ⟨hx, hy, hz, hw, _⟩ := hchars
      obtain ⟨found, hscan, hfound⟩ := map_eq_ok.mp h
      obtain ⟨_, rfl⟩ := Prod.mk.inj hfound
      obtain ⟨piece, chars', hsplit, hpass⟩ := ih hscan
        (chars ++ ['\\'] ++ ['u'] ++ [x] ++ [y] ++ [z] ++ [w])
      refine ⟨'\\' :: 'u' :: x :: y :: z :: w :: piece, chars', by simp [hsplit], ?_⟩
      rw [pass_inString_escape, pass_inString_cons hx.1 hx.2, pass_inString_cons hy.1 hy.2,
        pass_inString_cons hz.1 hz.2, pass_inString_cons hw.1 hw.2, hpass]
  | case5 => simp at h
  | case6 => simp at h
  | case7 e more hu char hescape hne ih =>
      obtain ⟨found, hscan, hfound⟩ := map_eq_ok.mp h
      obtain ⟨_, rfl⟩ := Prod.mk.inj hfound
      obtain ⟨piece, chars', rfl, hpass⟩ := ih hscan (chars ++ ['\\'] ++ [e])
      exact ⟨'\\' :: e :: piece, chars', rfl, by rw [pass_inString_escape, hpass]⟩
  | case8 => simp at h
  | case9 => simp at h
  | case10 c more hquote hslash hcontrol ih =>
      obtain ⟨found, hscan, hfound⟩ := map_eq_ok.mp h
      obtain ⟨_, rfl⟩ := Prod.mk.inj hfound
      obtain ⟨piece, chars', rfl, hpass⟩ := ih hscan (chars ++ [c])
      exact ⟨c :: piece, chars', rfl, by rw [pass_inString_cons hquote hslash, hpass]⟩

theorem scanUnits_error {start cs : List Char} {e : ScanError}
    (h : scanUnits start cs = .error e) :
    ∃ msg rest, e = .decode msg rest ∧ msg.outsideString = false := by
  fun_induction scanUnits start cs with
  | case2 => simp at h
  | case4 x y z w next after code hcode hne ih => exact ih (eq_error_of_map h)
  | case7 e more hu char hescape hne ih => exact ih (eq_error_of_map h)
  | case10 c more hquote hslash hcontrol ih => exact ih (eq_error_of_map h)
  | _ => exact ⟨_, _, (Except.error.inj h).symm, rfl⟩

theorem scanString_follows {cs rest : List Char} {codes : List ℕ}
    (h : scanString cs = .ok (codes, rest)) : Follows floats ('"' :: cs) rest := by
  obtain ⟨found, hscan, hfound⟩ := map_eq_ok.mp h
  obtain ⟨_, rfl⟩ := Prod.mk.inj hfound
  obtain ⟨piece, chars, rfl, hpass⟩ := scanUnits_passes hscan ['"']
  have hpasses : Passes ('"' :: piece) [.literal chars] [] := by
    constructor
    simp [LexMode.pass, LexMode.step, runLexeme, hpass]
  refine ⟨'"' :: piece, _, rfl, hpasses, ?_⟩
  simp [RunsScalar, lexemeRuns, hpasses.lexemes_eq, runLexeme]

theorem scanString_length_lt {cs rest : List Char} {codes : List ℕ}
    (h : scanString cs = .ok (codes, rest)) : rest.length < ('"' :: cs).length := by
  obtain ⟨found, hscan, hfound⟩ := map_eq_ok.mp h
  obtain ⟨_, rfl⟩ := Prod.mk.inj hfound
  obtain ⟨piece, chars, rfl, _⟩ := scanUnits_passes hscan ['"']
  rw [List.length_cons, List.length_append]
  omega

theorem scanString_error {cs : List Char} {msg : DecodeMessage} {rest : List Char}
    (h : scanString cs = .error (.decode msg rest)) : msg.outsideString = false := by
  obtain ⟨msg', rest', heq, hmsg⟩ := scanUnits_error (eq_error_of_map h)
  obtain ⟨rfl, _⟩ := ScanError.decode.inj heq
  exact hmsg

/-! ## Scalars -/

theorem stripLiteral_split {literal cs rest : List Char} (h : stripLiteral literal cs = some rest) :
    cs = literal ++ rest := by
  induction literal generalizing cs with
  | nil => exact Option.some.inj h
  | cons l ls ih =>
      cases cs with
      | nil => simp [stripLiteral] at h
      | cons c cs =>
          simp only [stripLiteral, Option.ite_none_right_eq_some] at h
          rw [h.1, ih h.2, List.cons_append]

theorem scanDigits_split (cs : List Char) : cs = (scanDigits cs).1 ++ (scanDigits cs).2 :=
  List.takeWhile_append_dropWhile.symm

theorem scanNatural_split {cs : List Char} {found : List Char × List Char}
    (h : scanNatural cs = some found) : cs = found.1 ++ found.2 ∧ found.1 ≠ [] := by
  cases cs with
  | nil => simp [scanNatural] at h
  | cons c cs =>
      simp only [scanNatural] at h
      split_ifs at h
      · obtain rfl := Option.some.inj h
        simp
      · obtain rfl := Option.some.inj h
        simpa using scanDigits_split cs

theorem scanInteger_split {cs : List Char} {found : List Char × List Char}
    (h : scanInteger cs = some found) : cs = found.1 ++ found.2 ∧ found.1 ≠ [] := by
  cases cs with
  | nil => simp [scanInteger] at h
  | cons c cs =>
      simp only [scanInteger] at h
      split_ifs at h
      · obtain ⟨natural, hnatural, rfl⟩ := Option.map_eq_some_iff.mp h
        simpa using (scanNatural_split hnatural).1
      · exact scanNatural_split h

theorem scanFraction_split (cs : List Char) : cs = (scanFraction cs).1 ++ (scanFraction cs).2 := by
  match cs with
  | [] => rfl
  | [c] => rfl
  | c :: d :: cs =>
      simp only [scanFraction]
      split_ifs
      · simpa using scanDigits_split cs
      · rfl

theorem scanSign_split (cs : List Char) : cs = (scanSign cs).1 ++ (scanSign cs).2 := by
  cases cs with
  | nil => rfl
  | cons c cs =>
      simp only [scanSign]
      split_ifs <;> rfl

theorem scanExponent_split (cs : List Char) : cs = (scanExponent cs).1 ++ (scanExponent cs).2 := by
  cases cs with
  | nil => rfl
  | cons c cs =>
      simp only [scanExponent]
      split_ifs
      · rw [List.cons_append, List.cons_append, List.append_assoc, ← scanDigits_split,
          ← scanSign_split]
      · rfl

/-- What a scalar takes of a text. -/
theorem scanScalar_split {cs rest : List Char} {v : JsonValue F}
    (h : scanScalar floats cs = .ok (v, rest)) : ∃ taken, cs = taken ++ rest ∧ taken ≠ [] := by
  unfold scanScalar at h
  cases hconstant : scanConstant floats cs with
  | some found =>
      obtain ⟨entry, hentry, hliteral⟩ := List.exists_of_findSome?_eq_some hconstant
      obtain ⟨rest', hstrip, rfl⟩ := Option.map_eq_some_iff.mp hliteral
      obtain ⟨_, rfl⟩ : _ ∧ rest' = rest := by simpa [hconstant] using h
      have hne : ∀ literal ∈ (jsonConstants floats).map Prod.fst, literal ≠ [] := by
        simp [jsonConstants]
      exact ⟨entry.1, stripLiteral_split hstrip, hne _ (List.mem_map_of_mem hentry)⟩
  | none =>
      cases hnumber : matchNumber cs with
      | none => simp [hconstant, hnumber] at h
      | some found =>
          simp only [hconstant, hnumber] at h
          obtain ⟨value, _, hvalue⟩ := map_eq_ok.mp h
          obtain ⟨_, rfl⟩ := Prod.mk.inj hvalue
          obtain ⟨integer, hinteger, rfl⟩ := Option.map_eq_some_iff.mp hnumber
          obtain ⟨hsplit, hne⟩ := scanInteger_split hinteger
          refine ⟨integer.1 ++ ((scanFraction integer.2).1 ++
            (scanExponent (scanFraction integer.2).2).1), ?_, by simp [hne]⟩
          rw [List.append_assoc, List.append_assoc, ← scanExponent_split, ← scanFraction_split]
          exact hsplit

theorem integerValue_error {cs : List Char} {e : ScanError} (h : integerValue cs = .error e) :
    e = .tooManyDigits := by
  unfold integerValue at h
  split at h <;> split_ifs at h <;> exact (Except.error.inj h).symm

theorem scanScalar_error {cs rest : List Char} {msg : DecodeMessage}
    (h : scanScalar floats cs = .error (.decode msg rest)) :
    msg = .expectingValue ∧ rest = cs := by
  unfold scanScalar at h
  cases hconstant : scanConstant floats cs with
  | some found => simp [hconstant] at h
  | none =>
      cases hnumber : matchNumber cs with
      | none =>
          simp only [hconstant, hnumber, Except.error.injEq, ScanError.decode.injEq] at h
          exact ⟨h.1.symm, h.2.symm⟩
      | some found =>
          simp only [hconstant, hnumber] at h
          have hvalue := eq_error_of_map h
          unfold NumberText.value at hvalue
          split_ifs at hvalue
          exact absurd (integerValue_error (eq_error_of_map hvalue)) (by simp)

theorem pass_outside_run {run : List Char} (hrun : ∀ c ∈ run, isRunChar c = true)
    (before : List Char) : (LexMode.outside before).pass run = ([], .outside (before ++ run)) := by
  induction run generalizing before with
  | nil => simp [LexMode.pass]
  | cons c run ih =>
      have hc := hrun c (by simp)
      simp only [isRunChar, Bool.and_eq_true, decide_eq_true_eq, Bool.not_eq_true'] at hc
      simp [LexMode.pass, LexMode.step, hc.1, hc.2, ih fun c hc => hrun c (by simp [hc])]

theorem lexemeRuns_run {run : List Char} (hrun : ∀ c ∈ run, isRunChar c = true) (hne : run ≠ []) :
    lexemeRuns run = [run] := by
  simp [lexemeRuns, lexemes, pass_outside_run hrun, LexMode.finish, runLexeme, hne]

theorem noRunHead_dropWhile (cs : List Char) : NoRunHead (cs.dropWhile isRunChar) := by
  intro c hc
  have := List.head?_dropWhile_not isRunChar cs
  rw [hc] at this
  simpa using this

/-- A scalar is the run at which it begins, unless that run is no scalar. -/
theorem scanScalar_scanned {cs rest : List Char} {v : JsonValue F}
    (h : scanScalar floats cs = .ok (v, rest)) : Scanned floats cs rest := by
  have hhead := noRunHead_dropWhile cs
  have hrun : ∀ c ∈ cs.takeWhile isRunChar, isRunChar c = true :=
    fun c hc => List.mem_takeWhile_imp hc
  have hsplit : cs.takeWhile isRunChar ++ cs.dropWhile isRunChar = cs :=
    List.takeWhile_append_dropWhile
  rw [← hsplit] at h ⊢
  generalize cs.takeWhile isRunChar = run at h hrun ⊢
  generalize cs.dropWhile isRunChar = after at h hhead ⊢
  obtain ⟨r, rfl, hscan⟩ := (scanScalar_append floats hhead run rest v).mp h
  obtain ⟨taken, htaken, hne⟩ := scanScalar_split hscan
  subst htaken
  have hpasses : Passes taken [] taken :=
    ⟨pass_outside_run (fun c hc => hrun c (List.mem_append_left _ hc)) []⟩
  refine ⟨by simpa using List.length_pos_iff.mpr hne, taken, [], taken, List.append_assoc _ _ _,
    hpasses, ?_, ?_⟩
  · intro hrest
    cases r with
    | nil =>
        rw [List.append_nil] at hscan hrun
        unfold RunsScalar
        rw [lexemeRuns_run hrun hne]
        simpa using ⟨v, hscan⟩
    | cons c r =>
        have hc : isRunChar c = true := hrun c (by simp)
        exact absurd (hrest c rfl) (by simp [hc])
  · intro hruns
    have hall : Passes (taken ++ r) [] (taken ++ r) := ⟨pass_outside_run hrun []⟩
    have hscalars := ((runsScalar_append hall (.inr hhead)).mp hruns).1
    unfold RunsScalar at hscalars
    rw [lexemeRuns_run hrun (by simp [hne])] at hscalars
    obtain ⟨v', hv'⟩ := hscalars _ (List.mem_singleton_self _)
    have hr : r = [] := by
      rw [hscan] at hv'
      exact (Prod.mk.inj (Except.ok.inj hv')).2
    subst hr
    exact .inr hhead

/-! ## Containers -/

theorem scanDelimiter_follows {cs mid rest : List Char} {close : Char} {trailing : DecodeMessage}
    {closed : Bool} (hclose : isSeparator close = true) (h : Scanned floats cs mid)
    (hscan : scanDelimiter close trailing (skipJsonSpace mid) = .ok (closed, rest)) :
    Follows floats cs rest := by
  cases hskip : skipJsonSpace mid with
  | nil => simp [hskip, scanDelimiter] at hscan
  | cons c after =>
      simp only [hskip, scanDelimiter] at hscan
      split_ifs at hscan with hc hcomma
      · obtain ⟨_, rfl⟩ := Prod.mk.inj (Except.ok.inj hscan)
        exact h.follows hskip (hc ▸ hclose)
      · obtain ⟨_, rfl⟩ := Prod.mk.inj (Except.ok.inj hscan)
        exact (h.follows hskip (by rw [hcomma]; decide)).trans (follows_skipJsonSpace _)

theorem scanDelimiter_error {cs rest : List Char} {close : Char} {trailing msg : DecodeMessage}
    (h : scanDelimiter close trailing cs = .error (.decode msg rest)) :
    rest = cs ∧ (msg.atComma = true → rest.head? = some ',') := by
  cases cs with
  | nil =>
      obtain ⟨rfl, rfl⟩ := ScanError.decode.inj (Except.error.inj h)
      exact ⟨rfl, fun hcomma => absurd hcomma (by decide)⟩
  | cons c cs =>
      simp only [scanDelimiter] at h
      split_ifs at h with _ hcomma
      · obtain ⟨rfl, rfl⟩ := ScanError.decode.inj (Except.error.inj h)
        exact ⟨rfl, fun _ => by rw [hcomma, List.head?_cons]⟩
      · obtain ⟨rfl, rfl⟩ := ScanError.decode.inj (Except.error.inj h)
        exact ⟨rfl, fun hcomma => absurd hcomma (by decide)⟩

/-- What follows a value is no delimiter. -/
theorem Scanned.failsAt {cs mid rest : List Char} {close : Char} {trailing msg : DecodeMessage}
    (h : Scanned floats cs mid)
    (hdelimiter : scanDelimiter close trailing (skipJsonSpace mid) = .error (.decode msg rest)) :
    FailsAt floats cs msg rest := by
  obtain ⟨rfl, hcomma⟩ := scanDelimiter_error hdelimiter
  exact ⟨h.reachesRest_skip, hcomma⟩

theorem scanColon_follows {cs rest : List Char} (h : scanColon cs = .ok rest) :
    Follows floats cs rest := by
  cases cs with
  | nil => simp [scanColon] at h
  | cons c cs =>
      simp only [scanColon] at h
      split_ifs at h with hc
      obtain rfl := Except.ok.inj h
      exact (Follows.cons (by rw [hc]; decide)).trans (follows_skipJsonSpace _)

theorem scanColon_error {cs rest : List Char} {msg : DecodeMessage}
    (h : scanColon cs = .error (.decode msg rest)) : FailsAt floats cs msg rest := by
  cases cs with
  | nil =>
      obtain ⟨rfl, rfl⟩ := ScanError.decode.inj (Except.error.inj h)
      exact failsAt_self (by decide)
  | cons c cs =>
      simp only [scanColon] at h
      split_ifs at h
      obtain ⟨rfl, rfl⟩ := ScanError.decode.inj (Except.error.inj h)
      exact failsAt_self (by decide)

theorem scanKey_follows {cs rest : List Char} {key : List ℕ} (h : scanKey cs = .ok (key, rest)) :
    Follows floats cs rest := by
  cases cs with
  | nil => simp [scanKey] at h
  | cons c cs =>
      simp only [scanKey] at h
      split_ifs at h with hc
      subst hc
      obtain ⟨found, hstring, h⟩ := bind_eq_ok.mp h
      obtain ⟨after, hcolon, h⟩ := bind_eq_ok.mp h
      obtain ⟨_, rfl⟩ := Prod.mk.inj (Except.ok.inj h)
      exact ((scanString_follows hstring).trans (follows_skipJsonSpace _)).trans
        (scanColon_follows hcolon)

theorem scanKey_error {cs rest : List Char} {msg : DecodeMessage}
    (h : scanKey cs = .error (.decode msg rest)) (hmsg : msg.outsideString = true) :
    FailsAt floats cs msg rest := by
  cases cs with
  | nil =>
      obtain ⟨rfl, rfl⟩ := ScanError.decode.inj (Except.error.inj h)
      exact failsAt_self (by decide)
  | cons c cs =>
      simp only [scanKey] at h
      split_ifs at h with hc
      · subst hc
        obtain hstring | ⟨found, hstring, h⟩ := error_of_bind h
        · simp [scanString_error hstring] at hmsg
        obtain hcolon | ⟨after, hcolon, h⟩ := error_of_bind h
        · exact ((scanString_follows hstring).trans (follows_skipJsonSpace _)).failsAt
            (scanColon_error hcolon)
        · cases h
      · obtain ⟨rfl, rfl⟩ := ScanError.decode.inj (Except.error.inj h)
        exact failsAt_self (by decide)

section

variable {V : Type} {scan : List Char → Scan V}

theorem scanItems_follows (hscan : ScansLexemes floats scan) {fuel : ℕ} {cs rest : List Char}
    {values : List V} (h : scanItems scan fuel cs = .ok (values, rest)) :
    Follows floats cs rest := by
  induction fuel generalizing cs values with
  | zero => cases h
  | succ fuel ih =>
      rw [scanItems] at h
      obtain ⟨⟨value, mid⟩, hvalue, h⟩ := bind_eq_ok.mp h
      obtain ⟨⟨closed, after⟩, hdelimiter, h⟩ := bind_eq_ok.mp h
      have hafter := scanDelimiter_follows (by decide) (hscan.value hvalue) hdelimiter
      cases closed with
      | true =>
          obtain ⟨_, rfl⟩ := Prod.mk.inj (Except.ok.inj h)
          exact hafter
      | false =>
          obtain ⟨⟨more, last⟩, hmore, h⟩ := bind_eq_ok.mp h
          obtain ⟨_, rfl⟩ := Prod.mk.inj (Except.ok.inj h)
          exact hafter.trans (ih hmore)

theorem scanItems_error (hscan : ScansLexemes floats scan) {fuel : ℕ} {cs rest : List Char}
    {msg : DecodeMessage} (h : scanItems scan fuel cs = .error (.decode msg rest))
    (hmsg : msg.outsideString = true) : FailsAt floats cs msg rest := by
  induction fuel generalizing cs with
  | zero => cases h
  | succ fuel ih =>
      rw [scanItems] at h
      obtain hvalue | ⟨⟨value, mid⟩, hvalue, h⟩ := error_of_bind h
      · exact hscan.error hvalue hmsg
      obtain hdelimiter | ⟨⟨closed, after⟩, hdelimiter, h⟩ := error_of_bind h
      · exact (hscan.value hvalue).failsAt hdelimiter
      have hafter := scanDelimiter_follows (by decide) (hscan.value hvalue) hdelimiter
      cases closed with
      | true => cases h
      | false =>
          obtain hmore | ⟨⟨more, last⟩, hmore, h⟩ := error_of_bind h
          · exact hafter.failsAt (ih hmore)
          · cases h

theorem scanPairs_follows (hscan : ScansLexemes floats scan) {fuel : ℕ} {cs rest : List Char}
    {pairs : List (List ℕ × V)} (h : scanPairs scan fuel cs = .ok (pairs, rest)) :
    Follows floats cs rest := by
  induction fuel generalizing cs pairs with
  | zero => cases h
  | succ fuel ih =>
      rw [scanPairs] at h
      obtain ⟨⟨key, start⟩, hkey, h⟩ := bind_eq_ok.mp h
      obtain ⟨⟨value, mid⟩, hvalue, h⟩ := bind_eq_ok.mp h
      obtain ⟨⟨closed, after⟩, hdelimiter, h⟩ := bind_eq_ok.mp h
      have hafter := (scanKey_follows hkey).trans
        (scanDelimiter_follows (by decide) (hscan.value hvalue) hdelimiter)
      cases closed with
      | true =>
          obtain ⟨_, rfl⟩ := Prod.mk.inj (Except.ok.inj h)
          exact hafter
      | false =>
          obtain ⟨⟨more, last⟩, hmore, h⟩ := bind_eq_ok.mp h
          obtain ⟨_, rfl⟩ := Prod.mk.inj (Except.ok.inj h)
          exact hafter.trans (ih hmore)

theorem scanPairs_error (hscan : ScansLexemes floats scan) {fuel : ℕ} {cs rest : List Char}
    {msg : DecodeMessage} (h : scanPairs scan fuel cs = .error (.decode msg rest))
    (hmsg : msg.outsideString = true) : FailsAt floats cs msg rest := by
  induction fuel generalizing cs with
  | zero => cases h
  | succ fuel ih =>
      rw [scanPairs] at h
      obtain hkey | ⟨⟨key, start⟩, hkey, h⟩ := error_of_bind h
      · exact scanKey_error hkey hmsg
      have hstart : Follows floats cs start := scanKey_follows hkey
      obtain hvalue | ⟨⟨value, mid⟩, hvalue, h⟩ := error_of_bind h
      · exact hstart.failsAt (hscan.error hvalue hmsg)
      obtain hdelimiter | ⟨⟨closed, after⟩, hdelimiter, h⟩ := error_of_bind h
      · exact hstart.failsAt ((hscan.value hvalue).failsAt hdelimiter)
      have hafter := hstart.trans
        (scanDelimiter_follows (by decide) (hscan.value hvalue) hdelimiter)
      cases closed with
      | true => cases h
      | false =>
          obtain hmore | ⟨⟨more, last⟩, hmore, h⟩ := error_of_bind h
          · exact hafter.failsAt (ih hmore)
          · cases h

end

section

variable {V : Type} {scan : List Char → Scan V} {cs rest : List Char}

theorem scanArray_follows (hscan : ScansLexemes floats scan) {values : List V}
    (h : scanArray scan cs = .ok (values, rest)) : Follows floats cs rest := by
  have hstart : Follows floats cs (skipJsonSpace cs) := follows_skipJsonSpace cs
  unfold scanArray at h
  split at h
  · rename_i after hskip
    obtain ⟨_, rfl⟩ := Prod.mk.inj (Except.ok.inj h)
    rw [hskip] at hstart
    exact hstart.trans (.cons (by decide))
  · exact hstart.trans (scanItems_follows hscan h)

theorem scanArray_error (hscan : ScansLexemes floats scan) {msg : DecodeMessage}
    (h : scanArray scan cs = .error (.decode msg rest)) (hmsg : msg.outsideString = true) :
    FailsAt floats cs msg rest := by
  unfold scanArray at h
  split at h
  · cases h
  · exact (follows_skipJsonSpace cs).failsAt (scanItems_error hscan h hmsg)

theorem scanObject_follows (hscan : ScansLexemes floats scan) {pairs : List (List ℕ × V)}
    (h : scanObject scan cs = .ok (pairs, rest)) : Follows floats cs rest := by
  have hstart : Follows floats cs (skipJsonSpace cs) := follows_skipJsonSpace cs
  unfold scanObject at h
  split at h
  · rename_i after hskip
    obtain ⟨_, rfl⟩ := Prod.mk.inj (Except.ok.inj h)
    rw [hskip] at hstart
    exact hstart.trans (.cons (by decide))
  · exact hstart.trans (scanPairs_follows hscan h)

theorem scanObject_error (hscan : ScansLexemes floats scan) {msg : DecodeMessage}
    (h : scanObject scan cs = .error (.decode msg rest)) (hmsg : msg.outsideString = true) :
    FailsAt floats cs msg rest := by
  unfold scanObject at h
  split at h
  · cases h
  · exact (follows_skipJsonSpace cs).failsAt (scanPairs_error hscan h hmsg)

end

/-! ## Rounds of the loops -/

theorem length_skipJsonSpace_le (cs : List Char) : (skipJsonSpace cs).length ≤ cs.length :=
  (List.dropWhile_sublist _).length_le

theorem scanDelimiter_length_lt {close : Char} {trailing : DecodeMessage} {cs rest : List Char}
    {closed : Bool} (h : scanDelimiter close trailing cs = .ok (closed, rest)) :
    rest.length < cs.length := by
  cases cs with
  | nil => cases h
  | cons c cs =>
      have hle := length_skipJsonSpace_le cs
      simp only [scanDelimiter] at h
      rw [List.length_cons]
      split_ifs at h <;> obtain ⟨_, rfl⟩ := Prod.mk.inj (Except.ok.inj h) <;> omega

/-- A round after a value begins further on. -/
theorem Scanned.length_delimiter_lt {cs mid after : List Char} (h : Scanned floats cs mid)
    {close : Char} {trailing : DecodeMessage} {closed : Bool}
    (hdelimiter : scanDelimiter close trailing (skipJsonSpace mid) = .ok (closed, after)) :
    after.length < cs.length := by
  have hafter := scanDelimiter_length_lt hdelimiter
  have hskip := length_skipJsonSpace_le mid
  have hmid := h.1
  omega

/-- There are at most as many rounds as the text has characters. -/
theorem scanItems_fuel {V : Type} {scan : List Char → Scan V} (hscan : ScansLexemes floats scan)
    {fuel : ℕ} {cs : List Char} (h : cs.length < fuel) :
    scanItems scan (fuel + 1) cs = scanItems scan fuel cs := by
  induction fuel generalizing cs with
  | zero => omega
  | succ fuel ih =>
      rw [scanItems, scanItems]
      cases hvalue : scan cs with
      | error e => rfl
      | ok found =>
          cases hdelimiter : scanDelimiter ']' .trailingCommaArray (skipJsonSpace found.2) with
          | error e => simp only [bind, Except.bind, hdelimiter]
          | ok after =>
              have hlt := (hscan.value hvalue).length_delimiter_lt hdelimiter
              have hrest : scanItems scan (fuel + 1) after.2 = scanItems scan fuel after.2 :=
                ih (by omega)
              simp only [bind, Except.bind, hdelimiter, hrest]

theorem scanPairs_fuel {V : Type} {scan : List Char → Scan V} (hscan : ScansLexemes floats scan)
    {fuel : ℕ} {cs : List Char} (h : cs.length < fuel) :
    scanPairs scan (fuel + 1) cs = scanPairs scan fuel cs := by
  induction fuel generalizing cs with
  | zero => omega
  | succ fuel ih =>
      rw [scanPairs, scanPairs]
      cases hkey : scanKey cs with
      | error e => rfl
      | ok key =>
          have hstart : Follows floats cs key.2 := scanKey_follows hkey
          have hle := hstart.length_le
          cases hvalue : scan key.2 with
          | error e => simp only [bind, Except.bind, hvalue]
          | ok found =>
              cases hdelimiter :
                  scanDelimiter '}' .trailingCommaObject (skipJsonSpace found.2) with
              | error e => simp only [bind, Except.bind, hvalue, hdelimiter]
              | ok after =>
                  have hlt := (hscan.value hvalue).length_delimiter_lt hdelimiter
                  have hrest : scanPairs scan (fuel + 1) after.2 =
                      scanPairs scan fuel after.2 := ih (by omega)
                  simp only [bind, Except.bind, hvalue, hdelimiter, hrest]

/-- One level of nesting. -/
theorem scanTerm_scansLexemes {nested : Option (List Char → Scan (JsonValue F))}
    (hnested : ∀ scan ∈ nested, ScansLexemes floats scan) :
    ScansLexemes floats (scanTerm floats nested) := by
  constructor
  · intro cs rest v h
    cases cs with
    | nil => cases h
    | cons c cs =>
        simp only [scanTerm] at h
        split_ifs at h with hquote hbrace hbracket
        · obtain ⟨found, hstring, hfound⟩ := map_eq_ok.mp h
          obtain ⟨_, rfl⟩ := Prod.mk.inj hfound
          rw [hquote]
          exact (scanString_follows hstring).scanned (scanString_length_lt hstring)
        · cases nested with
          | none => cases h
          | some scan =>
              obtain ⟨found, hobject, hfound⟩ := map_eq_ok.mp h
              obtain ⟨_, rfl⟩ := Prod.mk.inj hfound
              have hfollows := scanObject_follows (hnested scan rfl) hobject
              have hle := hfollows.length_le
              refine ((Follows.cons (by rw [hbrace]; decide)).trans hfollows).scanned ?_
              rw [List.length_cons]
              omega
        · cases nested with
          | none => cases h
          | some scan =>
              obtain ⟨found, harray, hfound⟩ := map_eq_ok.mp h
              obtain ⟨_, rfl⟩ := Prod.mk.inj hfound
              have hfollows := scanArray_follows (hnested scan rfl) harray
              have hle := hfollows.length_le
              refine ((Follows.cons (by rw [hbracket]; decide)).trans hfollows).scanned ?_
              rw [List.length_cons]
              omega
        · exact scanScalar_scanned h
  · intro cs rest msg h hmsg
    cases cs with
    | nil =>
        obtain ⟨rfl, rfl⟩ := ScanError.decode.inj (Except.error.inj h)
        exact failsAt_self (by decide)
    | cons c cs =>
        simp only [scanTerm] at h
        split_ifs at h with hquote hbrace hbracket
        · simp [scanString_error (eq_error_of_map h)] at hmsg
        · cases nested with
          | none => cases h
          | some scan =>
              exact (Follows.cons (by rw [hbrace]; decide)).failsAt
                (scanObject_error (hnested scan rfl) (eq_error_of_map h) hmsg)
        · cases nested with
          | none => cases h
          | some scan =>
              exact (Follows.cons (by rw [hbracket]; decide)).failsAt
                (scanArray_error (hnested scan rfl) (eq_error_of_map h) hmsg)
        · obtain ⟨rfl, rfl⟩ := scanScalar_error h
          exact failsAt_self (by decide)

theorem scanOnce_scansLexemes (depth : ℕ) : ScansLexemes floats (scanOnce floats depth) := by
  induction depth with
  | zero => exact scanTerm_scansLexemes (by simp)
  | succ depth ih =>
      apply scanTerm_scansLexemes
      rintro scan hscan
      obtain rfl := Option.some.inj hscan
      exact ih

/-! ## Documents -/

theorem Follows.runsScalar_of_rest {cs rest : List Char} (h : Follows floats cs rest)
    (hrest : RunsScalar floats rest) : RunsScalar floats cs := by
  obtain ⟨piece, found, rfl, hpasses, hscalar⟩ := h
  exact (runsScalar_append hpasses (.inl rfl)).mpr ⟨hscalar, hrest⟩

theorem ReachesRest.drop_eq {cs rest : List Char} (h : ReachesRest floats cs rest) :
    cs.drop (cs.length - rest.length) = rest := by
  obtain ⟨piece, found, run, rfl, _⟩ := h
  simp

/-- A document has no other runs than scalars. -/
theorem runsScalar_of_loads {depth : ℕ} {cs : List Char} {v : JsonValue F}
    (h : loads floats depth cs = .ok v) : RunsScalar floats cs := by
  unfold loads at h
  split_ifs at h
  split at h
  · cases h
  rename_i value rest hscan
  have hscanned := (scanOnce_scansLexemes depth).value hscan
  split at h
  · rename_i hend
    apply (follows_skipJsonSpace cs).runsScalar_of_rest
    obtain hsame | hfollows := hscanned.skip
    · obtain rfl : rest = [] := hsame.symm.trans hend
      obtain ⟨_, piece, found, run, hsplit, _, hscalar, _⟩ := hscanned
      rw [hsplit, List.append_nil]
      exact hscalar (by simp [NoRunHead])
    · rw [hend] at hfollows
      exact hfollows.runsScalar_of_rest runsScalar_nil
  · cases h

/-- Where an error outside of strings is found, no lexeme is split, if all runs are scalars. -/
theorem failsAt_of_loads {depth : ℕ} {cs : List Char} {msg : DecodeMessage} {pos : ℕ}
    (h : loads floats depth cs = .error (.jsonDecodeError msg pos))
    (hmsg : msg.outsideString = true) : FailsAt floats cs msg (cs.drop pos) := by
  unfold loads at h
  split_ifs at h
  · obtain ⟨rfl, rfl⟩ := LoadError.jsonDecodeError.inj (Except.error.inj h)
    exact failsAt_self (by decide)
  split at h
  · rename_i e hscan
    cases e with
    | tooManyDigits => cases h
    | tooDeep => cases h
    | decode msg' rest =>
        obtain ⟨rfl, rfl⟩ := LoadError.jsonDecodeError.inj (Except.error.inj h)
        have hfails := (follows_skipJsonSpace cs).failsAt
          ((scanOnce_scansLexemes depth).error hscan hmsg)
        rwa [hfails.reaches.drop_eq]
  · rename_i value rest hscan
    split at h
    · cases h
    · obtain ⟨rfl, rfl⟩ := LoadError.jsonDecodeError.inj (Except.error.inj h)
      have hreaches := (follows_skipJsonSpace cs).reachesRest
        ((scanOnce_scansLexemes depth).value hscan).reachesRest_skip
      rw [hreaches.drop_eq]
      exact ⟨hreaches, fun hcomma => absurd hcomma (by decide)⟩

end

end Python
