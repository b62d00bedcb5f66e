import Zyntry.RedactedTexts

/-!
# Outlines of texts

The outline of a text is its pieces without their credentials. A piece that is found whole leaves
the same for every text with the same outline. The pieces before a key do not depend on the key.
-/

namespace Zyntry

open Python

variable {isAlnum : Char → Bool} {before before' : Option Char} {cs rest : List Char}
  {p : Piece} {ps qs : List Piece}

/-! ## Reading a piece -/

/-- A piece stands at the start of a text, with the rest after it. -/
def Starts (isAlnum : Char → Bool) (before : Option Char) : Piece → List Char → Prop
  | .text c, rest => pieceAt isAlnum before (c :: rest) = none
  | .header scheme space credential, rest => before.any (isWord isAlnum) = false ∧
      ∃ token padding, credential = token ++ padding ∧ IsHeader scheme space token padding rest
  | .key start run, rest => before.any (isWord isAlnum) = false ∧ IsKey start run rest

theorem Starts.chars_ne (h : Starts isAlnum before p rest) : p.chars ≠ [] := by
  cases p with
  | text c => exact List.cons_ne_nil _ _
  | header scheme space credential =>
      obtain ⟨-, token, padding, rfl, hheader⟩ := h
      simp [Piece.chars, hheader.token_ne]
  | key start run =>
      obtain ⟨-, hkey⟩ := h
      simp [Piece.chars, hkey.run_ne]

theorem headerAt_of_isKey {start run : List Char} (h : IsKey start run rest) :
    headerAt isAlnum before (start ++ run ++ rest) = none := by
  have hstart := h.start_mem
  obtain rfl | rfl := eq_of_mem_keyStarts hstart
  · exact headerAt_eq_none (by decide)
  · exact headerAt_eq_none (by decide)

theorem pieceAt_of_starts (h : Starts isAlnum before p rest) :
    pieceAt isAlnum before (p.chars ++ rest) = some p ∨
      ∃ c, p = .text c ∧ pieceAt isAlnum before (c :: rest) = none := by
  cases p with
  | text c => exact .inr ⟨c, rfl, h⟩
  | header scheme space credential =>
      obtain ⟨hbefore, token, padding, rfl, hheader⟩ := h
      refine .inl ?_
      rw [pieceAt, Piece.chars, headerAt_of_isHeader hheader hbefore, Option.some_or]
  | key start run =>
      obtain ⟨hbefore, hkey⟩ := h
      refine .inl ?_
      rw [pieceAt, Piece.chars, headerAt_of_isKey hkey, keyAt_of_isKey hkey hbefore,
        Option.none_or]

theorem pieces_skip (n : ℕ) : pieces isAlnum n before cs =
    pieces isAlnum 0 (lastOr before (cs.take n)) (cs.drop n) := by
  induction cs generalizing n before with
  | nil => cases n <;> simp [pieces]
  | cons c cs ih =>
      cases n with
      | zero => rfl
      | succ n => rw [pieces, ih, List.take_succ_cons, List.drop_succ_cons, lastOr_cons]

theorem pieces_of_starts (h : Starts isAlnum before p rest) :
    pieces isAlnum 0 before (p.chars ++ rest) =
      p :: pieces isAlnum 0 (lastOr before p.chars) rest := by
  obtain hpiece | ⟨c, rfl, hnone⟩ := pieceAt_of_starts h
  · obtain ⟨c, w, hchars⟩ := List.exists_cons_of_ne_nil h.chars_ne
    rw [hchars, List.cons_append] at hpiece ⊢
    rw [pieces, hpiece]
    dsimp only
    rw [pieces_skip, hchars, List.length_cons, Nat.add_sub_cancel, List.take_left, List.drop_left,
      lastOr_cons]
  · change pieces isAlnum 0 before (c :: rest) = _
    rw [pieces, hnone]
    rfl

theorem exists_starts (isAlnum : Char → Bool) (before : Option Char) (hne : cs ≠ []) :
    ∃ p rest, cs = p.chars ++ rest ∧ Starts isAlnum before p rest := by
  cases hheader : headerAt isAlnum before cs with
  | some piece =>
      obtain ⟨hbefore, scheme, space, token, padding, rest, hparts, rfl, -⟩ :=
        exists_isHeader hheader
      exact ⟨.header scheme space (token ++ padding), rest, rfl, hbefore, token, padding, rfl,
        hparts⟩
  | none =>
      cases hkey : keyAt isAlnum before cs with
      | some piece =>
          obtain ⟨hbefore, start, run, rest, hparts, rfl, -⟩ := exists_isKey hkey
          exact ⟨.key start run, rest, rfl, hbefore, hparts⟩
      | none =>
          obtain ⟨c, w, rfl⟩ := List.exists_cons_of_ne_nil hne
          exact ⟨.text c, w, rfl, by rw [Starts, pieceAt, hheader, hkey, Option.none_or]⟩

theorem starts_of_pieces (h : pieces isAlnum 0 before cs = p :: ps) :
    ∃ rest, cs = p.chars ++ rest ∧ Starts isAlnum before p rest ∧
      pieces isAlnum 0 (lastOr before p.chars) rest = ps := by
  have hne : cs ≠ [] := by
    rintro rfl
    cases h
  obtain ⟨q, rest, rfl, hstarts⟩ := exists_starts isAlnum before hne
  rw [pieces_of_starts hstarts] at h
  obtain ⟨rfl, rfl⟩ := List.cons.inj h
  exact ⟨rest, rfl, hstarts, rfl⟩

theorem pieces_eq_nil_iff : pieces isAlnum 0 before cs = [] ↔ cs = [] := by
  constructor
  · intro h
    by_contra hne
    obtain ⟨q, rest, rfl, hstarts⟩ := exists_starts isAlnum before hne
    rw [pieces_of_starts hstarts] at h
    cases h
  · rintro rfl
    rfl

/-- The pieces are the text. -/
theorem pieces_append (h : pieces isAlnum 0 before cs = ps ++ qs) :
    ∃ rest, cs = ps.flatMap Piece.chars ++ rest ∧
      pieces isAlnum 0 (lastOr before (ps.flatMap Piece.chars)) rest = qs := by
  induction ps generalizing before cs with
  | nil => exact ⟨cs, rfl, h⟩
  | cons p ps ih =>
      obtain ⟨after, rfl, -, hlater⟩ := starts_of_pieces h
      obtain ⟨rest, rfl, hrest⟩ := ih hlater
      refine ⟨rest, ?_, ?_⟩
      · rw [List.flatMap_cons, List.append_assoc]
      · rw [List.flatMap_cons, lastOr_append, hrest]

theorem flatMap_pieces (isAlnum : Char → Bool) (before : Option Char) (cs : List Char) :
    (pieces isAlnum 0 before cs).flatMap Piece.chars = cs := by
  obtain ⟨rest, hcs, hrest⟩ :=
    pieces_append (List.append_nil (pieces isAlnum 0 before cs)).symm
  rw [pieces_eq_nil_iff] at hrest
  rw [hrest, List.append_nil] at hcs
  exact hcs.symm

/-! ## What is left of a piece -/

/-- The two patterns in turn, each with the character before the text. -/
def passes (isAlnum : Char → Bool) (before before' : Option Char) (cs : List Char) : List Char :=
  replaceAll (zyntryKeyRule isAlnum) 0 before' (replaceAll (bearerRule isAlnum) 0 before cs)

/-- A piece whose credential is taken out. -/
def Piece.shown : Piece → List Char
  | .text c => [c]
  | .header scheme space _ => scheme ++ space ++ redactedText
  | .key _ _ => redactedText

theorem Piece.shown_blank (p : Piece) : p.blank.shown = p.shown := by
  cases p <;> rfl

/-- A key is taken as a whole: it ends at a boundary, and no header starts in it. -/
def WholeKey (isAlnum : Char → Bool) : Piece → List Char → Prop
  | .key start run, after => wordBoundary isAlnum run.getLast? after.head? = true ∧
      Silent (bearerRule isAlnum) none (start ++ run) after
  | _, _ => True

theorem keyAt_of_replaced {c : Char} {out : List Char}
    (hout : replaceAll (bearerRule isAlnum) 0 before (c :: cs) = c :: out)
    (hsame : SameStart isAlnum before before' (c :: cs))
    (h : keyAt isAlnum before' (c :: out) ≠ none) : keyAt isAlnum before (c :: cs) ≠ none := by
  obtain ⟨piece, hpiece⟩ := Option.ne_none_iff_exists'.mp h
  obtain ⟨hbefore, start, run, rest, hkey, hcs, -⟩ := exists_isKey hpiece
  obtain ⟨d, run, rfl⟩ := List.exists_cons_of_ne_nil hkey.run_ne
  have hd : isKeyChar d = true := hkey.run_forall d List.mem_cons_self
  obtain ⟨w, hw⟩ := head_of_key h
  obtain ⟨rfl, -⟩ := List.cons.inj hw
  have hword : before.any (isWord isAlnum) = false := by
    rw [hsame 's' rfl rfl, hbefore]
  have hprefix : start ++ [d] <+: replaceAll (bearerRule isAlnum) 0 before ('s' :: cs) := by
    rw [hout, hcs]
    exact ⟨run ++ rest, by simp⟩
  have hmark : '[' ∉ start ++ [d] := by
    rw [List.mem_append, List.mem_singleton]
    rintro (hmem | rfl)
    · exact notMem_keyStart hkey.start_mem hmem
    · exact absurd hd (by decide)
  exact keyAt_ne_none hword hkey.start_mem hd
    (prefix_of_replaceAll bearerRule_keepsBefore hprefix hmark)

theorem head?_replaceAll_bearerRule (isAlnum : Char → Bool) (before : Option Char)
    (cs : List Char) : (replaceAll (bearerRule isAlnum) 0 before cs).head? = cs.head? := by
  cases cs with
  | nil => rfl
  | cons c cs =>
      rw [replaceAll]
      cases hrule : bearerRule isAlnum before (c :: cs) with
      | none => rfl
      | some found =>
          obtain ⟨n, text⟩ := found
          rw [bearerRule_eq, Option.map_eq_some_iff] at hrule
          obtain ⟨piece, hpiece, hfound⟩ := hrule
          obtain ⟨-, scheme, space, token, padding, rest, hheader, hcs, rfl⟩ :=
            exists_isHeader hpiece
          obtain ⟨-, rfl⟩ := Prod.mk.inj hfound
          cases scheme with
          | nil => cases hheader.scheme_fold
          | cons d scheme =>
              obtain ⟨rfl, -⟩ := List.cons.inj hcs
              rfl

theorem mem_masked {scheme space token padding : List Char}
    (h : IsHeader scheme space token padding rest) {c : Char}
    (hc : c ∈ scheme ++ space ++ redactedText) : c ≠ 's' := by
  rw [List.mem_append, List.mem_append] at hc
  rintro rfl
  obtain (hmem | hmem) | hmem := hc
  · have hfolded : fold 's' ∈ "bearer".toList := h.scheme_fold ▸ List.mem_map_of_mem hmem
    exact absurd hfolded (by decide)
  · exact absurd (h.space_forall _ hmem) (by decide)
  · exact (mem_redactedText hmem).2 rfl

/-- No header starts with the first character of a key, whatever comes before it. -/
theorem silent_of_key {start run : List Char} (h : IsKey start run rest)
    (hsilent : Silent (bearerRule isAlnum) none (start ++ run) rest) :
    Silent (bearerRule isAlnum) before (start ++ run) rest := by
  intro u c w hsplit
  cases u with
  | nil =>
      rw [← List.nil_append (c :: w), ← hsplit, bearerRule_eq_none_iff]
      exact headerAt_of_isKey h
  | cons d u =>
      rw [lastOr_eq_of_ne_nil before none (List.cons_ne_nil d u)]
      exact hsilent (d :: u) c w hsplit

theorem keyMatch_of_boundary {run : List Char} {next : Option Char} (hne : run ≠ [])
    (h : wordBoundary isAlnum run.getLast? next = true) :
    keyMatch isAlnum run next = some (run.length - 1) := by
  obtain ⟨front, c, rfl⟩ : ∃ front c, run = front ++ [c] :=
    ⟨_, _, (List.dropLast_append_getLast hne).symm⟩
  have hnext : (front ++ [c] ++ next.toList)[front.length + 1]? = next := by
    rw [List.getElem?_append_right (by simp)]
    cases next <;> simp
  have hlast : (front ++ [c])[front.length]? = (front ++ [c]).getLast? := by simp
  rw [keyMatch, List.length_append, List.length_singleton, List.range_succ, List.reverse_append,
    List.reverse_singleton, List.singleton_append, List.find?_cons_of_pos]
  · rfl
  · rw [hnext, hlast, h]

theorem passes_key {start run : List Char} (hkey : IsKey start run rest)
    (hsilent : Silent (bearerRule isAlnum) none (start ++ run) rest) :
    passes isAlnum before before' (start ++ run ++ rest) =
      replaceAll (zyntryKeyRule isAlnum) 0 before' (start ++ run ++
        replaceAll (bearerRule isAlnum) 0 (lastOr before (start ++ run)) rest) := by
  rw [passes, replaceAll_append (silent_of_key hkey hsilent)]

theorem isKey_replaced {start run : List Char} (isAlnum : Char → Bool) (before : Option Char)
    (hkey : IsKey start run rest) :
    IsKey start run (replaceAll (bearerRule isAlnum) 0 before rest) := by
  refine ⟨hkey.start_mem, hkey.run_forall, hkey.run_ne, ?_⟩
  rw [head?_replaceAll_bearerRule]
  exact hkey.ends

/-- What is left of a text is what is left of its first piece, and of the rest on its own. -/
theorem passes_starts (h : Starts isAlnum before p rest) (hwhole : WholeKey isAlnum p rest)
    (hsame : SameStart isAlnum before before' (p.chars ++ rest)) :
    ∃ after, SameStart isAlnum (lastOr before p.chars) after rest ∧
      passes isAlnum before before' (p.chars ++ rest) =
        p.shown ++ passes isAlnum (lastOr before p.chars) after rest := by
  cases p with
  | text c =>
      have hnone : headerAt isAlnum before (c :: rest) = none ∧
          keyAt isAlnum before (c :: rest) = none := Option.or_eq_none_iff.mp h
      have hout : replaceAll (bearerRule isAlnum) 0 before (c :: rest) =
          c :: replaceAll (bearerRule isAlnum) 0 (some c) rest := by
        rw [replaceAll, bearerRule_eq_none_iff.mpr hnone.1]
      have hkey : zyntryKeyRule isAlnum before'
          (c :: replaceAll (bearerRule isAlnum) 0 (some c) rest) = none := by
        apply zyntryKeyRule_eq_none
        by_contra hne
        exact keyAt_of_replaced hout hsame hne hnone.2
      refine ⟨some c, .refl _ _, ?_⟩
      change passes isAlnum before before' (c :: rest) = c :: passes isAlnum (some c) (some c) rest
      rw [passes, hout, replaceAll, hkey]
      rfl
  | header scheme space credential =>
      obtain ⟨hbefore, token, padding, rfl, hheader⟩ := h
      refine ⟨some ']', sameStart_of_header hheader, ?_⟩
      change passes isAlnum before before' (scheme ++ space ++ (token ++ padding) ++ rest) = _
      rw [passes, replaceAll_header hheader hbefore,
        replaceAll_append (silent_key_of_forall_ne (fun c hc => mem_masked hheader hc) _),
        lastOr_append before', lastOr_redactedText]
      rfl
  | key start run =>
      obtain ⟨hbefore, hkey⟩ := h
      obtain ⟨hboundary, hsilent⟩ := hwhole
      have hbefore' : before'.any (isWord isAlnum) = false := by
        have hstart := hkey.start_mem
        rw [← hsame 's' (by obtain rfl | rfl := eq_of_mem_keyStarts hstart <;> rfl) rfl, hbefore]
      have hpos := List.length_pos_iff.mpr hkey.run_ne
      have hrule := zyntryKeyRule_of_isKey
        (isKey_replaced isAlnum (lastOr before (start ++ run)) hkey) hbefore'
      rw [head?_replaceAll_bearerRule, keyMatch_of_boundary hkey.run_ne hboundary,
        Option.map_some] at hrule
      have hlength : 8 + (run.length - 1) = (start ++ run).length - 1 := by
        rw [List.length_append, length_of_mem_keyStarts hkey.start_mem]
        omega
      have hmatch : start ++ run ≠ [] := by simp [hkey.run_ne]
      rw [hlength] at hrule
      refine ⟨lastOr before (start ++ run), .refl _ _, ?_⟩
      change passes isAlnum before before' (start ++ run ++ rest) = _
      rw [passes_key hkey hsilent, replaceAll_match hmatch hrule,
        lastOr_eq_of_ne_nil before' before hmatch]
      rfl

/-- Every key of the pieces is taken as a whole, with the text after them. -/
def WholeKeys (isAlnum : Char → Bool) : List Piece → List Char → Prop
  | [], _ => True
  | p :: ps, after => WholeKey isAlnum p (ps.flatMap Piece.chars ++ after) ∧
      WholeKeys isAlnum ps after

theorem wholeKeys_of_forall (h : ∀ p ∈ ps, p.isKey = false) : WholeKeys isAlnum ps rest := by
  induction ps with
  | nil => trivial
  | cons p ps ih =>
      refine ⟨?_, ih fun q hq => h q (List.mem_cons_of_mem p hq)⟩
      have hp := h p List.mem_cons_self
      cases p with
      | text c => trivial
      | header scheme space credential => trivial
      | key start run => cases hp

theorem passes_append (h : pieces isAlnum 0 before (ps.flatMap Piece.chars ++ rest) = ps ++ qs)
    (hwhole : WholeKeys isAlnum ps rest)
    (hsame : SameStart isAlnum before before' (ps.flatMap Piece.chars ++ rest)) :
    ∃ after, SameStart isAlnum (lastOr before (ps.flatMap Piece.chars)) after rest ∧
      passes isAlnum before before' (ps.flatMap Piece.chars ++ rest) =
        ps.flatMap Piece.shown ++
          passes isAlnum (lastOr before (ps.flatMap Piece.chars)) after rest := by
  induction ps generalizing before before' with
  | nil => exact ⟨before', hsame, rfl⟩
  | cons p ps ih =>
      rw [List.flatMap_cons, List.append_assoc] at h hsame ⊢
      obtain ⟨rest', hrest, hstarts, hlater⟩ := starts_of_pieces h
      obtain rfl := List.append_cancel_left hrest
      obtain ⟨after, hafter, hout⟩ := passes_starts hstarts hwhole.1 hsame
      obtain ⟨last, hlast, hrun⟩ := ih hlater hwhole.2 hafter
      refine ⟨last, ?_, ?_⟩
      · rwa [lastOr_append]
      · rw [hout, hrun, List.flatMap_cons, List.append_assoc, lastOr_append]

/-! ## Outlines -/

/-- A text without its credentials. -/
def outline (isAlnum : Char → Bool) (s : String) : List Piece :=
  (pieces isAlnum 0 none s.toList).map Piece.blank

/-- What is left of an outline. -/
def shownText (ps : List Piece) : String := String.ofList (ps.flatMap Piece.shown)

def KeyFree (isAlnum : Char → Bool) (s : String) : Prop :=
  ∀ p ∈ pieces isAlnum 0 none s.toList, p.isKey = false

def Whole (isAlnum : Char → Bool) (s : String) : Prop :=
  WholeKeys isAlnum (pieces isAlnum 0 none s.toList) []

theorem KeyFree.whole {s : String} (h : KeyFree isAlnum s) : Whole isAlnum s :=
  wholeKeys_of_forall h

theorem Piece.isKey_blank (p : Piece) : p.blank.isKey = p.isKey := by
  cases p <;> rfl

theorem keyFree_iff {s : String} :
    KeyFree isAlnum s ↔ ∀ p ∈ outline isAlnum s, p.isKey = false := by
  simp only [KeyFree, outline, List.forall_mem_map, Piece.isKey_blank]

/-- A text whose keys are taken as a whole leaves what its outline leaves. -/
theorem redactText_of_whole {s : String} (h : Whole isAlnum s) :
    redactText isAlnum s = shownText (outline isAlnum s) := by
  have hpieces := flatMap_pieces isAlnum none s.toList
  have hall : pieces isAlnum 0 none
      ((pieces isAlnum 0 none s.toList).flatMap Piece.chars ++ []) =
        pieces isAlnum 0 none s.toList ++ [] := by
    rw [List.append_nil, List.append_nil, hpieces]
  obtain ⟨after, -, hout⟩ := passes_append hall h (.refl none _)
  rw [List.append_nil, hpieces] at hout
  have hnil : ∀ before, passes isAlnum before after [] = [] := fun _ => rfl
  rw [hnil, List.append_nil] at hout
  simp only [redactText, sub, String.toList_ofList, shownText, outline]
  change String.ofList (passes isAlnum none none s.toList) = _
  rw [hout, List.flatMap_map]
  simp only [Piece.shown_blank]

/-! ## Another key in the same place -/

/-- Whether a piece stands before a key does not depend on the key. -/
theorem pieceAt_of_key {c : Char} {w start run run' rest' : List Char} (hstart : start ∈ keyStarts)
    (h : pieceAt isAlnum before (c :: (w ++ (start ++ run ++ rest))) = none) :
    pieceAt isAlnum before (c :: (w ++ (start ++ run' ++ rest'))) = none := by
  have hold : c :: w ++ start <+: c :: (w ++ (start ++ run ++ rest)) := ⟨run ++ rest, by simp⟩
  have hnew : c :: w ++ start <+: c :: (w ++ (start ++ run' ++ rest')) := ⟨run' ++ rest', by simp⟩
  obtain ⟨hheader, hkey⟩ := Option.or_eq_none_iff.mp h
  rw [pieceAt, Option.or_eq_none_iff]
  constructor
  · by_contra hne
    obtain ⟨piece, hpiece⟩ := Option.ne_none_iff_exists'.mp hne
    obtain ⟨hbefore, scheme, space, token, padding, after, hparts, hcs, -⟩ :=
      exists_isHeader hpiece
    obtain ⟨t, token, rfl⟩ := List.exists_cons_of_ne_nil hparts.token_ne
    have ht : isBearerChar t = true := hparts.token_forall t List.mem_cons_self
    have hprefix : scheme ++ space ++ [t] <+: c :: (w ++ (start ++ run' ++ rest')) := by
      rw [hcs]
      exact ⟨token ++ padding ++ after, by simp⟩
    obtain hshort | hlong := List.prefix_or_prefix_of_prefix hprefix hnew
    · exact headerAt_ne_none hbefore hparts.scheme_fold hparts.space_forall hparts.space_ne ht
        (hshort.trans hold) hheader
    · -- the scheme and the spaces of a header have no `s`
      obtain ⟨more, hmore⟩ := hlong
      obtain ⟨later, hne, hsplit⟩ : ∃ later, later ≠ [] ∧ start ++ more = 's' :: later := by
        obtain rfl | rfl := eq_of_mem_keyStarts hstart
        · exact ⟨"k_live_".toList ++ more, by simp, rfl⟩
        · exact ⟨"k_test_".toList ++ more, by simp, rfl⟩
      have hdrop : (c :: w) ++ 's' :: later.dropLast = scheme ++ space := by
        have hlast := congrArg List.dropLast hmore
        rwa [List.dropLast_concat, List.append_assoc, hsplit,
          List.dropLast_append_of_ne_nil (List.cons_ne_nil _ _),
          List.dropLast_cons_of_ne_nil hne] at hlast
      have hmem : 's' ∈ scheme ++ space ++ redactedText := by
        rw [← hdrop]
        simp
      exact mem_masked hparts hmem rfl
  · by_contra hne
    obtain ⟨piece, hpiece⟩ := Option.ne_none_iff_exists'.mp hne
    obtain ⟨hbefore, start', run₁, after, hparts, hcs, -⟩ := exists_isKey hpiece
    obtain ⟨d, run₁, rfl⟩ := List.exists_cons_of_ne_nil hparts.run_ne
    have hprefix : start' ++ [d] <+: c :: (w ++ (start ++ run' ++ rest')) := by
      rw [hcs]
      exact ⟨run₁ ++ after, by simp⟩
    have hshort : start' ++ [d] <+: c :: w ++ start := by
      apply List.prefix_of_prefix_length_le hprefix hnew
      simp only [List.length_append, List.length_cons, List.length_nil,
        length_of_mem_keyStarts hstart, length_of_mem_keyStarts hparts.start_mem]
      omega
    exact keyAt_ne_none hbefore hparts.start_mem (hparts.run_forall d List.mem_cons_self)
      (hshort.trans hold) hkey

theorem pieces_before (h : ∀ c ∈ cs.head?, isKeyChar c = false) :
    pieces isAlnum 0 before cs = pieces isAlnum 0 before' cs := by
  cases cs with
  | nil => rfl
  | cons c cs =>
      have hnone : ∀ b, pieceAt isAlnum b (c :: cs) = none := by
        intro b
        have hc := h c rfl
        rw [pieceAt, Option.or_eq_none_iff]
        constructor
        · apply headerAt_eq_none
          intro hfold
          rw [isKeyChar_of_isAlpha (isAlpha_of_fold_eq_b hfold)] at hc
          cases hc
        · by_contra hne
          obtain ⟨w, hw⟩ := head_of_key hne
          obtain ⟨rfl, -⟩ := List.cons.inj hw
          cases hc
      rw [pieces, hnone, pieces, hnone]

theorem head?_of_key {w start run run' rest' : List Char} (hstart : start ∈ keyStarts) :
    (w ++ (start ++ run ++ rest)).head? = (w ++ (start ++ run' ++ rest')).head? := by
  cases w with
  | nil =>
      obtain rfl | rfl := eq_of_mem_keyStarts hstart <;> rfl
  | cons c w => rfl

theorem starts_of_key {w start run run' : List Char} (hstart : start ∈ keyStarts)
    (h : Starts isAlnum before p (w ++ (start ++ run ++ rest))) :
    Starts isAlnum before p (w ++ (start ++ run' ++ rest)) := by
  have hhead : (w ++ (start ++ run' ++ rest)).head? = (w ++ (start ++ run ++ rest)).head? :=
    head?_of_key hstart
  cases p with
  | text c => exact pieceAt_of_key hstart h
  | header scheme space credential =>
      obtain ⟨hbefore, token, padding, hcredential, hheader⟩ := h
      refine ⟨hbefore, token, padding, hcredential, { hheader with ends := ?_ }⟩
      rw [hhead]
      exact hheader.ends
  | key start' run₁ =>
      obtain ⟨hbefore, hkey⟩ := h
      refine ⟨hbefore, { hkey with ends := ?_ }⟩
      rw [hhead]
      exact hkey.ends

/-- The pieces of a text in which one key is replaced. -/
theorem pieces_of_key {start run run' : List Char} (hkey : IsKey start run' rest)
    (h : pieces isAlnum 0 before (ps.flatMap Piece.chars ++ (start ++ run ++ rest)) =
      ps ++ .key start run :: qs) :
    pieces isAlnum 0 before (ps.flatMap Piece.chars ++ (start ++ run' ++ rest)) =
      ps ++ .key start run' :: qs := by
  induction ps generalizing before with
  | nil =>
      obtain ⟨rest', hrest, hstarts, hlater⟩ := starts_of_pieces h
      obtain rfl : rest = rest' :=
        List.append_cancel_left (show start ++ run ++ rest = start ++ run ++ rest' from hrest)
      have hstarts' : Starts isAlnum before (.key start run') rest := ⟨hstarts.1, hkey⟩
      have hpieces := pieces_of_starts hstarts'
      rw [pieces_before hkey.ends, hlater] at hpieces
      exact hpieces
  | cons p ps ih =>
      rw [List.flatMap_cons, List.append_assoc] at h ⊢
      obtain ⟨rest', hrest, hstarts, hlater⟩ := starts_of_pieces h
      obtain rfl := List.append_cancel_left hrest
      rw [pieces_of_starts (starts_of_key hkey.start_mem hstarts), ih hlater]
      rfl

theorem keyMatch_a (next : Option Char) : keyMatch isAlnum ['a'] next =
    if next.any (isWord isAlnum) then none else some 0 := by
  have hletter : isWord isAlnum 'a' = true := rfl
  cases next with
  | none => rfl
  | some c => cases hc : isWord isAlnum c <;> simp [keyMatch, wordBoundary, hletter, hc]

theorem keyMatch_a_hyphen (next : Option Char) : keyMatch isAlnum ['a', '-'] next =
    if next.any (isWord isAlnum) then some 1 else some 0 := by
  have hletter : isWord isAlnum 'a' = true := rfl
  have hhyphen : isWord isAlnum '-' = false := rfl
  cases next with
  | none => rfl
  | some c =>
      cases hc : isWord isAlnum c <;>
        simp [keyMatch, wordBoundary, List.range_succ, hletter, hhyphen, hc]

theorem head?_replaceAll_keyRule (isAlnum : Char → Bool) (before : Option Char)
    (cs : List Char) : (replaceAll (zyntryKeyRule isAlnum) 0 before cs).head? = cs.head? ∨
      (replaceAll (zyntryKeyRule isAlnum) 0 before cs).head? = some '[' := by
  cases cs with
  | nil => exact .inl rfl
  | cons c cs =>
      rw [replaceAll]
      cases hrule : zyntryKeyRule isAlnum before (c :: cs) with
      | none => exact .inl rfl
      | some found =>
          refine .inr ?_
          dsimp only
          rw [zyntryKeyRule_text hrule]
          rfl

theorem silent_keyStart {start run : List Char} (hstart : start ∈ keyStarts)
    (hrun : run.all (fun c => fold c ≠ 'b') = true) :
    Silent (bearerRule isAlnum) before (start ++ run) rest := by
  have hchars : start.all (fun c => fold c ≠ 'b') = true := by
    obtain rfl | rfl := eq_of_mem_keyStarts hstart <;> decide
  apply silent_header_of_forall_ne
  intro c hc
  rw [List.mem_append] at hc
  obtain hmem | hmem := hc
  · exact of_decide_eq_true (List.all_eq_true.mp hchars c hmem)
  · exact of_decide_eq_true (List.all_eq_true.mp hrun c hmem)

/-- Two keys that leave different texts in the same place: of the second the hyphen stays, or it
is found and the first is not. -/
theorem passes_keys_ne {start : List Char} {after after' : Option Char}
    (hkey : IsKey start ['a'] rest) (hkey' : IsKey start ['a', '-'] rest)
    (hafter : after.any (isWord isAlnum) = false) (hafter' : after'.any (isWord isAlnum) = false) :
    passes isAlnum before after (start ++ ['a'] ++ rest) ≠
      passes isAlnum before after' (start ++ ['a', '-'] ++ rest) := by
  have hsilent : Silent (bearerRule isAlnum) none (start ++ ['a']) rest :=
    silent_keyStart hkey.start_mem (by decide)
  have hsilent' : Silent (bearerRule isAlnum) none (start ++ ['a', '-']) rest :=
    silent_keyStart hkey.start_mem (by decide)
  have hrule := zyntryKeyRule_of_isKey
    (isKey_replaced isAlnum (lastOr before (start ++ ['a'])) hkey) hafter
  have hrule' := zyntryKeyRule_of_isKey
    (isKey_replaced isAlnum (lastOr before (start ++ ['a', '-'])) hkey') hafter'
  rw [head?_replaceAll_bearerRule, keyMatch_a] at hrule
  rw [head?_replaceAll_bearerRule, keyMatch_a_hyphen] at hrule'
  rw [passes_key hkey hsilent, passes_key hkey' hsilent']
  have hhead := head?_replaceAll_bearerRule isAlnum (lastOr before (start ++ ['a'])) rest
  generalize replaceAll (bearerRule isAlnum) 0 (lastOr before (start ++ ['a'])) rest = left
    at hrule hhead ⊢
  generalize replaceAll (bearerRule isAlnum) 0 (lastOr before (start ++ ['a', '-'])) rest = left'
    at hrule' ⊢
  obtain ⟨w, w', hw, hw'⟩ : ∃ w w', start ++ ['a'] ++ left = 's' :: w ∧
      start ++ ['a', '-'] ++ left' = 's' :: w' := by
    have hmem := hkey.start_mem
    obtain rfl | rfl := eq_of_mem_keyStarts hmem
    · exact ⟨_, _, rfl, rfl⟩
    · exact ⟨_, _, rfl, rfl⟩
  split_ifs at hrule hrule' with hword
  · -- before a letter the first key is not found
    rw [hw] at hrule
    rw [hw'] at hrule'
    rw [hw, hw', replaceAll, hrule, replaceAll, hrule']
    intro heq
    exact absurd (List.cons.inj heq).1 (by decide)
  · have hlength : (start ++ ['a']).length - 1 = 8 + 0 := by
      rw [List.length_append, length_of_mem_keyStarts hkey.start_mem, List.length_singleton]
    have hsplit : start ++ ['a', '-'] ++ left' = start ++ ['a'] ++ '-' :: left' := by simp
    have hne : start ++ ['a'] ≠ [] := by simp
    have hhyphen :
        zyntryKeyRule isAlnum (lastOr after' (start ++ ['a'])) ('-' :: left') = none := by
      apply zyntryKeyRule_eq_none
      by_contra hkeyAt
      obtain ⟨w, hw⟩ := head_of_key hkeyAt
      exact absurd (List.cons.inj hw).1 (by decide)
    rw [hsplit] at hrule' ⊢
    rw [Option.map_some, ← hlength] at hrule hrule'
    rw [replaceAll_match hne hrule, replaceAll_match hne hrule', Ne, List.append_cancel_left_eq,
      replaceAll, hhyphen]
    intro heq
    have hcopied := congrArg List.head? heq
    obtain hsame | hmark := head?_replaceAll_keyRule isAlnum
      (lastOr after (start ++ ['a'])) left
    · rw [hsame, hhead] at hcopied
      have hends := hkey.ends '-' hcopied
      cases hends
    · rw [hmark] at hcopied
      cases hcopied

theorem exists_key (h : ¬∀ p ∈ ps, p.isKey = false) : ∃ qs start run rest,
    ps = qs ++ .key start run :: rest ∧ ∀ q ∈ qs, q.isKey = false := by
  have hsome : (ps.find? Piece.isKey).isSome = true := by
    rw [List.find?_isSome]
    simpa using h
  obtain ⟨p, hp⟩ := Option.isSome_iff_exists.mp hsome
  obtain ⟨hkey, qs, rest, rfl, hqs⟩ := List.find?_eq_some_iff_append.mp hp
  cases p with
  | text c => cases hkey
  | header scheme space credential => cases hkey
  | key start run => exact ⟨qs, start, run, rest, rfl, fun q hq => by simpa using hqs q hq⟩

/-- Of a text with a key, some text with the same outline leaves something else. -/
theorem exists_redactText_ne {s : String} (h : ¬KeyFree isAlnum s) :
    ∃ s', outline isAlnum s' = outline isAlnum s ∧
      redactText isAlnum s' ≠ redactText isAlnum s := by
  obtain ⟨ps, start, run, qs, hpieces, hps⟩ := exists_key h
  obtain ⟨rest₀, hcs, hrest₀⟩ := pieces_append hpieces
  obtain ⟨rest, rfl, hstarts, hqs⟩ := starts_of_pieces hrest₀
  obtain ⟨hbefore, hkey⟩ := hstarts
  have hkeys : ∀ run' : List Char, run'.all isKeyChar = true → run' ≠ [] →
      IsKey start run' rest := fun run' hrun' hne =>
    ⟨hkey.start_mem, List.all_eq_true.mp hrun', hne, hkey.ends⟩
  have hvariant : ∀ run', IsKey start run' rest → ∃ s' after,
      outline isAlnum s' = outline isAlnum s ∧ after.any (isWord isAlnum) = false ∧
        redactText isAlnum s' = String.ofList (ps.flatMap Piece.shown ++
          passes isAlnum (lastOr none (ps.flatMap Piece.chars)) after (start ++ run' ++ rest)) := by
    intro run' hkey'
    have hpieces' := pieces_of_key hkey' (hcs ▸ hpieces)
    obtain ⟨after, hafter, hout⟩ := passes_append hpieces' (wholeKeys_of_forall hps) (.refl none _)
    refine ⟨String.ofList (ps.flatMap Piece.chars ++ (start ++ run' ++ rest)), after, ?_, ?_, ?_⟩
    · rw [outline, outline, String.toList_ofList, hpieces', hpieces, List.map_append,
        List.map_append]
      rfl
    · obtain ⟨w, hw⟩ : ∃ w, start ++ run' ++ rest = 's' :: w := by
        have hmem := hkey.start_mem
        obtain rfl | rfl := eq_of_mem_keyStarts hmem
        · exact ⟨_, rfl⟩
        · exact ⟨_, rfl⟩
      rw [← hafter 's' (by rw [hw]; rfl) rfl, hbefore]
    · simp only [redactText, sub, String.toList_ofList]
      exact congrArg String.ofList hout
  have hshort := hkeys ['a'] rfl (by simp)
  have hlong := hkeys ['a', '-'] rfl (by simp)
  obtain ⟨s₁, after₁, houtline₁, hword₁, hout₁⟩ := hvariant ['a'] hshort
  obtain ⟨s₂, after₂, houtline₂, hword₂, hout₂⟩ := hvariant ['a', '-'] hlong
  by_cases hsame : redactText isAlnum s₁ = redactText isAlnum s
  · refine ⟨s₂, houtline₂, fun hsame₂ => ?_⟩
    have hequal := hsame.trans hsame₂.symm
    rw [hout₁, hout₂, String.ofList_inj, List.append_cancel_left_eq] at hequal
    exact passes_keys_ne hshort hlong hword₁ hword₂ hequal
  · exact ⟨s₁, houtline₁, hsame⟩

end Zyntry
