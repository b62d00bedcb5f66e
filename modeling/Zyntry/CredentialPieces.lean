import Zyntry.PythonCase
import Zyntry.SensitiveText
import Zyntry.Substitutions

/-!
# Credentials within texts

A text is read from left to right as bearer headers, keys and other characters. The patterns of the
redaction find every header, and of a key the longest part that ends at a word boundary.
-/

namespace Zyntry

open Python

/-! ## Pieces -/

/-- A bearer header or a key, with the credential in it. -/
inductive Piece where
  | text (c : Char)
  | header (scheme space credential : List Char)
  | key (start credential : List Char)
deriving DecidableEq

namespace Piece

def chars : Piece → List Char
  | .text c => [c]
  | .header scheme space credential => scheme ++ space ++ credential
  | .key start credential => start ++ credential

/-- The piece without its credential. -/
def blank : Piece → Piece
  | .text c => .text c
  | .header scheme space _ => .header scheme space []
  | .key start _ => .key start []

def isKey : Piece → Bool
  | .key _ _ => true
  | _ => false

end Piece

section

variable (isAlnum : Char → Bool)

/-- A header: the word `bearer` in any case, spaces, and a token with its padding. -/
def headerAt (before : Option Char) (cs : List Char) : Option Piece :=
  let scheme := cs.take 6
  let space := (cs.drop 6).takeWhile isSpace
  let afterSpace := (cs.drop 6).dropWhile isSpace
  let token := afterSpace.takeWhile isBearerChar
  let padding := (afterSpace.dropWhile isBearerChar).takeWhile fun c => c = '='
  if scheme.map fold = "bearer".toList ∧ before.any (isWord isAlnum) = false ∧ space ≠ [] ∧
      token ≠ [] then
    some (.header scheme space (token ++ padding))
  else none

def keyStarts : List (List Char) := ["sk_live_".toList, "sk_test_".toList]

/-- A key: a word that starts like one, and the characters of a key that follow. -/
def keyAt (before : Option Char) (cs : List Char) : Option Piece :=
  let run := (cs.drop 8).takeWhile isKeyChar
  if cs.take 8 ∈ keyStarts ∧ before.any (isWord isAlnum) = false ∧ run ≠ [] then
    some (.key (cs.take 8) run)
  else none

def pieceAt (before : Option Char) (cs : List Char) : Option Piece :=
  (headerAt isAlnum before cs).or (keyAt isAlnum before cs)

/-- The pieces of a text, from left to right. -/
def pieces : ℕ → Option Char → List Char → List Piece
  | _, _, [] => []
  | n + 1, _, c :: cs => pieces n (some c) cs
  | 0, before, c :: cs =>
      match pieceAt isAlnum before (c :: cs) with
      | some piece => piece :: pieces (piece.chars.length - 1) (some c) cs
      | none => .text c :: pieces 0 (some c) cs

/-- The last character of a key that the second pattern takes. -/
def keyMatch (run : List Char) (next : Option Char) : Option ℕ :=
  (List.range run.length).reverse.find? fun k =>
    wordBoundary isAlnum run[k]? (run ++ next.toList)[k + 1]?

end

/-- A header stands at the start of a text. -/
structure IsHeader (scheme space token padding rest : List Char) : Prop where
  scheme_fold : scheme.map fold = "bearer".toList
  space_forall : ∀ c ∈ space, isSpace c = true
  space_ne : space ≠ []
  token_forall : ∀ c ∈ token, isBearerChar c = true
  token_ne : token ≠ []
  padding_forall : ∀ c ∈ padding, c = '='
  ends : ∀ c ∈ rest.head?, c ≠ '=' ∧ (padding = [] → isBearerChar c = false)

structure IsKey (start run rest : List Char) : Prop where
  start_mem : start ∈ keyStarts
  run_forall : ∀ c ∈ run, isKeyChar c = true
  run_ne : run ≠ []
  ends : ∀ c ∈ rest.head?, isKeyChar c = false

/-! ## Where pieces stand -/

theorem length_of_fold {scheme : List Char} (h : scheme.map fold = "bearer".toList) :
    scheme.length = 6 := by
  rw [← List.length_map fold, h]
  rfl

theorem eq_of_mem_keyStarts {start : List Char} (h : start ∈ keyStarts) :
    start = "sk_live_".toList ∨ start = "sk_test_".toList := by
  simpa only [keyStarts, List.mem_cons, List.not_mem_nil, or_false] using h

theorem length_of_mem_keyStarts {start : List Char} (h : start ∈ keyStarts) : start.length = 8 := by
  obtain rfl | rfl := eq_of_mem_keyStarts h <;> rfl

/-! ### Classes of characters -/

theorem isAlpha_or_of_fold {c : Char} (h : 'a' ≤ fold c ∧ fold c ≤ 'z') :
    c.isAlpha = true ∨ c ∈ ['İ', 'ı', '\u212a', 'ſ'] := by
  unfold fold at h
  split_ifs at h with hi hk hs
  · refine .inr ?_
    obtain rfl | rfl := hi <;> decide
  · exact .inr (by simp [hk])
  · exact .inr (by simp [hs])
  · rw [← Char.isLower_toLower_eq_isAlpha]
    exact .inl (by simpa [Char.isLower, Char.le_def] using h)

theorem isAlpha_of_fold_eq_b {c : Char} (h : fold c = 'b') : c.isAlpha = true := by
  obtain halpha | hspecial := isAlpha_or_of_fold (c := c) (by rw [h]; decide)
  · exact halpha
  · simp only [List.mem_cons, List.not_mem_nil, or_false] at hspecial
    obtain rfl | rfl | rfl | rfl := hspecial <;> exact absurd h (by decide)

theorem toNat_of_isAlpha {c : Char} (h : c.isAlpha = true) :
    (65 ≤ c.toNat ∧ c.toNat ≤ 90) ∨ (97 ≤ c.toNat ∧ c.toNat ≤ 122) := by
  simp only [Char.isAlpha, Char.isUpper, Char.isLower, Bool.or_eq_true, Bool.and_eq_true,
    decide_eq_true_eq] at h
  exact h.imp (fun h => ⟨h.1, h.2⟩) fun h => ⟨h.1, h.2⟩

theorem isWord_of_isAlpha {isAlnum : Char → Bool} {c : Char} (h : c.isAlpha = true) :
    isWord isAlnum c = true := by
  have hrange := toNat_of_isAlpha h
  rw [isWord, if_pos (by omega)]
  simp [Char.isAlphanum, h]

theorem isKeyChar_of_isAlpha {c : Char} (h : c.isAlpha = true) : isKeyChar c = true := by
  unfold isKeyChar
  rw [decide_eq_true_eq]
  obtain ⟨hlow, hhigh⟩ | ⟨hlow, hhigh⟩ := toNat_of_isAlpha h
  · exact .inr (.inl ⟨hlow, hhigh⟩)
  · exact .inl ⟨hlow, hhigh⟩

theorem isBearerChar_of_isAlpha {c : Char} (h : c.isAlpha = true) : isBearerChar c = true := by
  have hne : c ≠ 'İ' ∧ c ≠ 'ı' ∧ c ≠ '\u212a' ∧ c ≠ 'ſ' := by
    refine ⟨?_, ?_, ?_, ?_⟩ <;> rintro rfl <;> exact absurd h (by decide)
  rw [← Char.isLower_toLower_eq_isAlpha, Char.isLower, Bool.and_eq_true, decide_eq_true_eq,
    decide_eq_true_eq] at h
  unfold isBearerChar fold
  rw [if_neg (by tauto), if_neg hne.2.2.1, if_neg hne.2.2.2, decide_eq_true_eq]
  exact .inl h

theorem not_isBearerChar_of_isSpace {c : Char} (h : isSpace c = true) : isBearerChar c = false := by
  by_contra hbearer
  rw [Bool.not_eq_false] at hbearer
  unfold isBearerChar at hbearer
  rw [decide_eq_true_eq] at hbearer
  simp only [isSpace, List.mem_cons, List.not_mem_nil, or_false, decide_eq_true_eq] at h
  obtain hletter | hdigit | hsign := hbearer
  · obtain halpha | hspecial := isAlpha_or_of_fold hletter
    · have hrange := toNat_of_isAlpha halpha
      omega
    · simp only [List.mem_cons, List.not_mem_nil, or_false] at hspecial
      obtain rfl | rfl | rfl | rfl := hspecial <;> exact absurd h (by decide)
  · have hlow : 48 ≤ c.toNat := hdigit.1
    have hhigh : c.toNat ≤ 57 := hdigit.2
    omega
  · simp only [List.mem_cons, List.not_mem_nil, or_false] at hsign
    obtain rfl | rfl | rfl | rfl | rfl | rfl := hsign <;> exact absurd h (by decide)

theorem not_isAlpha_of_isSpace {c : Char} (h : isSpace c = true) : c.isAlpha = false := by
  by_contra halpha
  rw [Bool.not_eq_false] at halpha
  have hbearer := isBearerChar_of_isAlpha halpha
  rw [not_isBearerChar_of_isSpace h] at hbearer
  cases hbearer

/-! ### The start of a piece -/

section Pieces

variable {isAlnum : Char → Bool} {before : Option Char} {cs rest : List Char} {piece : Piece}

theorem IsHeader.parts {scheme space token padding : List Char}
    (h : IsHeader scheme space token padding rest) :
    let cs := scheme ++ space ++ (token ++ padding) ++ rest
    let afterSpace := (cs.drop 6).dropWhile isSpace
    cs.take 6 = scheme ∧ (cs.drop 6).takeWhile isSpace = space ∧
      afterSpace.takeWhile isBearerChar = token ∧
      (afterSpace.dropWhile isBearerChar).takeWhile (fun c => c = '=') = padding := by
  have hlength := length_of_fold h.scheme_fold
  have hassoc : scheme ++ space ++ (token ++ padding) ++ rest =
      scheme ++ (space ++ (token ++ (padding ++ rest))) := by
    simp only [List.append_assoc]
  have hpadding : ∀ c ∈ (padding ++ rest).head?, isBearerChar c = false := by
    intro c hc
    cases padding with
    | nil => exact (h.ends c hc).2 rfl
    | cons d padding =>
        obtain rfl : d = c := Option.some.inj hc
        rw [h.padding_forall d List.mem_cons_self]
        decide
  have htoken : ∀ c ∈ (token ++ (padding ++ rest)).head?, isSpace c = false := by
    intro c hc
    obtain ⟨d, token', rfl⟩ := List.exists_cons_of_ne_nil h.token_ne
    obtain rfl : d = c := Option.some.inj hc
    by_contra hspace
    have hbearer := h.token_forall d List.mem_cons_self
    rw [not_isBearerChar_of_isSpace ((Bool.not_eq_false _).mp hspace)] at hbearer
    cases hbearer
  have hequals : ∀ c ∈ padding, decide (c = '=') = true := fun c hc => by
    simpa using h.padding_forall c hc
  have hends : ∀ c ∈ rest.head?, decide (c = '=') = false := fun c hc => by
    simpa using (h.ends c hc).1
  dsimp only
  rw [hassoc, List.take_left' hlength, List.drop_left' hlength]
  rw [(takeWhile_run h.space_forall htoken).1, (takeWhile_run h.space_forall htoken).2,
    (takeWhile_run h.token_forall hpadding).1, (takeWhile_run h.token_forall hpadding).2,
    (takeWhile_run hequals hends).1]
  exact ⟨rfl, rfl, rfl, rfl⟩

theorem headerAt_of_isHeader {scheme space token padding : List Char}
    (h : IsHeader scheme space token padding rest)
    (hbefore : before.any (isWord isAlnum) = false) :
    headerAt isAlnum before (scheme ++ space ++ (token ++ padding) ++ rest) =
      some (.header scheme space (token ++ padding)) := by
  obtain ⟨hscheme, hspace, htoken, hpadding⟩ := h.parts
  unfold headerAt
  dsimp only at hscheme hspace htoken hpadding ⊢
  rw [hscheme, hspace, htoken, hpadding, if_pos ⟨h.scheme_fold, hbefore, h.space_ne, h.token_ne⟩]

theorem exists_isHeader (h : headerAt isAlnum before cs = some piece) :
    before.any (isWord isAlnum) = false ∧ ∃ scheme space token padding rest,
      IsHeader scheme space token padding rest ∧
        cs = scheme ++ space ++ (token ++ padding) ++ rest ∧
        piece = .header scheme space (token ++ padding) := by
  unfold headerAt at h
  dsimp only at h
  split_ifs at h with hmatch
  obtain ⟨hscheme, hbefore, hspace, htoken⟩ := hmatch
  refine ⟨hbefore, _, _, _, _, ((((cs.drop 6).dropWhile isSpace).dropWhile isBearerChar).dropWhile
    fun c => c = '='), ⟨hscheme, forall_mem_takeWhile _, hspace, forall_mem_takeWhile _, htoken,
      ?_, ?_⟩, ?_, (Option.some.inj h).symm⟩
  · intro c hc
    simpa using forall_mem_takeWhile _ c hc
  · intro c hc
    have hne := head?_dropWhile _ c hc
    refine ⟨by simpa using hne, fun hpadding => ?_⟩
    have hsame : (((cs.drop 6).dropWhile isSpace).dropWhile isBearerChar).dropWhile
        (fun c => decide (c = '=')) = ((cs.drop 6).dropWhile isSpace).dropWhile isBearerChar := by
      conv_rhs => rw [← List.takeWhile_append_dropWhile (p := fun c => decide (c = '='))
        (l := ((cs.drop 6).dropWhile isSpace).dropWhile isBearerChar), hpadding, List.nil_append]
    rw [hsame] at hc
    exact head?_dropWhile _ c hc
  · rw [List.append_assoc, List.append_assoc, List.append_assoc, List.takeWhile_append_dropWhile,
      List.takeWhile_append_dropWhile, List.takeWhile_append_dropWhile, List.take_append_drop]

theorem keyAt_of_isKey {start run : List Char} (h : IsKey start run rest)
    (hbefore : before.any (isWord isAlnum) = false) :
    keyAt isAlnum before (start ++ run ++ rest) = some (.key start run) := by
  have hlength := length_of_mem_keyStarts h.start_mem
  unfold keyAt
  rw [List.append_assoc, List.take_left' hlength, List.drop_left' hlength]
  dsimp only
  rw [(takeWhile_run h.run_forall h.ends).1, if_pos ⟨h.start_mem, hbefore, h.run_ne⟩]

theorem exists_isKey (h : keyAt isAlnum before cs = some piece) :
    before.any (isWord isAlnum) = false ∧ ∃ start run rest,
      IsKey start run rest ∧ cs = start ++ run ++ rest ∧ piece = .key start run := by
  unfold keyAt at h
  dsimp only at h
  split_ifs at h with hmatch
  obtain ⟨hstart, hbefore, hrun⟩ := hmatch
  refine ⟨hbefore, _, _, (cs.drop 8).dropWhile isKeyChar, ⟨hstart, forall_mem_takeWhile _, hrun,
    head?_dropWhile _⟩, ?_, (Option.some.inj h).symm⟩
  rw [List.append_assoc, List.takeWhile_append_dropWhile, List.take_append_drop]

/-- A header needs no more of the text than the first character of its token. -/
theorem headerAt_ne_none {scheme space : List Char} {t : Char}
    (hbefore : before.any (isWord isAlnum) = false) (hscheme : scheme.map fold = "bearer".toList)
    (hspace : ∀ c ∈ space, isSpace c = true) (hne : space ≠ []) (ht : isBearerChar t = true)
    (hinitial : scheme ++ space ++ [t] <+: cs) : headerAt isAlnum before cs ≠ none := by
  obtain ⟨more, rfl⟩ := hinitial
  have hlength := length_of_fold hscheme
  have hend : ∀ c ∈ (t :: more).head?, isSpace c = false := by
    intro c hc
    obtain rfl := Option.some.inj hc
    by_contra hspace
    rw [not_isBearerChar_of_isSpace ((Bool.not_eq_false _).mp hspace)] at ht
    cases ht
  unfold headerAt
  rw [show scheme ++ space ++ [t] ++ more = scheme ++ (space ++ t :: more) by simp,
    List.take_left' hlength, List.drop_left' hlength]
  dsimp only
  rw [(takeWhile_run hspace hend).1, (takeWhile_run hspace hend).2, if_pos]
  · exact Option.some_ne_none _
  · refine ⟨hscheme, hbefore, hne, ?_⟩
    rw [List.takeWhile_cons_of_pos ht]
    exact List.cons_ne_nil _ _

theorem keyAt_ne_none {start : List Char} {c : Char}
    (hbefore : before.any (isWord isAlnum) = false) (hstart : start ∈ keyStarts)
    (hc : isKeyChar c = true) (hinitial : start ++ [c] <+: cs) :
    keyAt isAlnum before cs ≠ none := by
  obtain ⟨more, rfl⟩ := hinitial
  have hlength := length_of_mem_keyStarts hstart
  unfold keyAt
  rw [List.append_assoc, List.take_left' hlength, List.drop_left' hlength]
  dsimp only
  rw [if_pos]
  · exact Option.some_ne_none _
  · refine ⟨hstart, hbefore, ?_⟩
    rw [List.singleton_append, List.takeWhile_cons_of_pos hc]
    exact List.cons_ne_nil _ _

theorem fold_head_of_header (h : headerAt isAlnum before cs ≠ none) :
    ∃ c w, cs = c :: w ∧ fold c = 'b' := by
  obtain ⟨piece, h⟩ := Option.ne_none_iff_exists'.mp h
  obtain ⟨-, scheme, space, token, padding, rest, hheader, rfl, -⟩ := exists_isHeader h
  have hscheme := hheader.scheme_fold
  cases scheme with
  | nil => cases hscheme
  | cons c scheme => exact ⟨c, _, rfl, (List.cons.inj hscheme).1⟩

theorem head_of_key (h : keyAt isAlnum before cs ≠ none) : ∃ w, cs = 's' :: w := by
  obtain ⟨piece, h⟩ := Option.ne_none_iff_exists'.mp h
  obtain ⟨-, start, run, rest, hkey, rfl, -⟩ := exists_isKey h
  have hstart := hkey.start_mem
  obtain rfl | rfl := eq_of_mem_keyStarts hstart
  · exact ⟨_, rfl⟩
  · exact ⟨_, rfl⟩

/-! ## The patterns -/

/-- What the first pattern leaves of a piece. -/
def Piece.masked : Piece → List Char
  | .header scheme space _ => scheme ++ space ++ redactedText
  | piece => piece.chars

theorem bearerRule_eq (before : Option Char) (cs : List Char) :
    bearerRule isAlnum before cs =
      (headerAt isAlnum before cs).map fun piece => (piece.chars.length - 1, piece.masked) := by
  unfold bearerRule headerAt
  dsimp only
  split_ifs with hmatch
  · have hlength := length_of_fold hmatch.1
    simp only [Option.map_some, Piece.chars, Piece.masked, List.length_append, hlength,
      Option.some.injEq, Prod.mk.injEq, and_true]
    omega
  · rfl

theorem bearerRule_eq_none_iff :
    bearerRule isAlnum before cs = none ↔ headerAt isAlnum before cs = none := by
  rw [bearerRule_eq, Option.map_eq_none_iff]

theorem getElem?_append_head {run : List Char} {k : ℕ} (h : k < run.length) :
    (run ++ rest)[k]? = run[k]? ∧
      (run ++ rest)[k + 1]? = (run ++ rest.head?.toList)[k + 1]? := by
  refine ⟨List.getElem?_append_left h, ?_⟩
  by_cases hlast : k + 1 < run.length
  · rw [List.getElem?_append_left hlast, List.getElem?_append_left hlast]
  · have hend : k + 1 = run.length := by omega
    rw [hend, List.getElem?_append_right le_rfl, List.getElem?_append_right le_rfl, Nat.sub_self]
    cases rest <;> rfl

theorem zyntryKeyRule_of_isKey {start run : List Char} (h : IsKey start run rest)
    (hbefore : before.any (isWord isAlnum) = false) :
    zyntryKeyRule isAlnum before (start ++ run ++ rest) =
      (keyMatch isAlnum run rest.head?).map fun k => (8 + k, redactedText) := by
  have hlength := length_of_mem_keyStarts h.start_mem
  have hstart : start = "sk_live_".toList ∨ start = "sk_test_".toList := by
    simpa [keyStarts] using h.start_mem
  unfold zyntryKeyRule keyMatch
  rw [List.append_assoc, List.take_left' hlength, List.drop_left' hlength]
  dsimp only
  rw [(takeWhile_run h.run_forall h.ends).1, if_pos ⟨hstart, hbefore⟩]
  congr 1
  rw [List.find?_congr]
  intro k hk
  rw [List.mem_reverse, List.mem_range] at hk
  rw [(getElem?_append_head hk).1, (getElem?_append_head hk).2]

theorem zyntryKeyRule_eq_none (h : keyAt isAlnum before cs = none) :
    zyntryKeyRule isAlnum before cs = none := by
  unfold keyAt at h
  unfold zyntryKeyRule
  dsimp only at h ⊢
  split_ifs at h with hmatch
  split_ifs with hstart
  · have hrun : (cs.drop 8).takeWhile isKeyChar = [] := by
      by_contra hne
      exact hmatch ⟨by simpa [keyStarts] using hstart.1, hstart.2, hne⟩
    rw [hrun]
    rfl
  · rfl

end Pieces

end Zyntry
