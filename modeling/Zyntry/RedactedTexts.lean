import Zyntry.CredentialPieces

/-!
# Redacted texts

Redacting a text again changes nothing. What is left of a text is left of its pieces one by one,
unless a key ends like the scheme of a header.
-/

namespace Zyntry

open Python

variable {isAlnum : Char → Bool} {before before' : Option Char} {cs rest : List Char}

/-! ## Nothing is found twice -/

/-- A word may start after one character exactly if it may start after the other. -/
def SameStart (isAlnum : Char → Bool) (before before' : Option Char) (cs : List Char) : Prop :=
  ∀ c ∈ cs.head?, c.isAlpha = true →
    before.any (isWord isAlnum) = before'.any (isWord isAlnum)

theorem SameStart.refl (before : Option Char) (cs : List Char) :
    SameStart isAlnum before before cs := fun _ _ _ => rfl

theorem mem_redactedText {c : Char} (h : c ∈ redactedText) : fold c ≠ 'b' ∧ c ≠ 's' := by
  have hchars : redactedText.all (fun c => fold c ≠ 'b' ∧ c ≠ 's') = true := by decide
  simpa using List.all_eq_true.mp hchars c h

theorem lastOr_redactedText (before : Option Char) : lastOr before redactedText = some ']' := rfl

theorem bearerRule_keepsBefore : (bearerRule isAlnum).KeepsBefore '[' := by
  intro before cs n text h
  rw [bearerRule_eq, Option.map_eq_some_iff] at h
  obtain ⟨piece, hpiece, h⟩ := h
  obtain ⟨-, scheme, space, token, padding, rest, -, rfl, rfl⟩ := exists_isHeader hpiece
  obtain ⟨-, rfl⟩ := Prod.mk.inj h
  refine ⟨scheme ++ space, "REDACTED]".toList, rfl, ?_⟩
  rw [List.append_assoc (scheme ++ space)]
  exact List.prefix_append _ _

theorem zyntryKeyRule_text {n : ℕ} {text : List Char}
    (h : zyntryKeyRule isAlnum before cs = some (n, text)) : text = redactedText := by
  unfold zyntryKeyRule at h
  dsimp only at h
  split_ifs at h
  obtain ⟨k, -, hk⟩ := Option.map_eq_some_iff.mp h
  exact (Prod.mk.inj hk).2.symm

theorem zyntryKeyRule_keepsBefore : (zyntryKeyRule isAlnum).KeepsBefore '[' := by
  intro before cs n text h
  rw [zyntryKeyRule_text h]
  exact ⟨[], "REDACTED]".toList, rfl, List.nil_prefix⟩

/-- A header in what a pattern has left was there before. -/
theorem headerAt_of_replaced {rule : Rule} (hkeeps : rule.KeepsBefore '[') {c : Char}
    {out : List Char} (hout : replaceAll rule 0 before (c :: cs) = c :: out)
    (hsame : SameStart isAlnum before before' (c :: cs))
    (h : headerAt isAlnum before' (c :: out) ≠ none) :
    headerAt isAlnum before (c :: cs) ≠ none := by
  obtain ⟨piece, hpiece⟩ := Option.ne_none_iff_exists'.mp h
  obtain ⟨hbefore, scheme, space, token, padding, rest, hheader, hcs, -⟩ := exists_isHeader hpiece
  obtain ⟨t, token, rfl⟩ := List.exists_cons_of_ne_nil hheader.token_ne
  have ht : isBearerChar t = true := hheader.token_forall t List.mem_cons_self
  obtain ⟨d, w, hd, hfold⟩ := fold_head_of_header h
  obtain ⟨rfl, -⟩ := List.cons.inj hd
  have hword : before.any (isWord isAlnum) = false := by
    rw [hsame c rfl (isAlpha_of_fold_eq_b hfold), hbefore]
  have hprefix : scheme ++ space ++ [t] <+: replaceAll rule 0 before (c :: cs) := by
    rw [hout, hcs]
    exact ⟨token ++ padding ++ rest, by simp⟩
  have hmark : '[' ∉ scheme ++ space ++ [t] := by
    rw [List.mem_append, List.mem_append, List.mem_singleton]
    rintro ((hmem | hmem) | rfl)
    · have hfolded : fold '[' ∈ "bearer".toList :=
        hheader.scheme_fold ▸ List.mem_map_of_mem hmem
      exact absurd hfolded (by decide)
    · exact absurd (hheader.space_forall _ hmem) (by decide)
    · exact absurd ht (by decide)
  exact headerAt_ne_none hword hheader.scheme_fold hheader.space_forall hheader.space_ne ht
    (prefix_of_replaceAll hkeeps hprefix hmark)

theorem headerAt_eq_none {c : Char} (h : fold c ≠ 'b') :
    headerAt isAlnum before (c :: cs) = none := by
  by_contra hne
  obtain ⟨d, w, hd, hfold⟩ := fold_head_of_header hne
  obtain ⟨rfl, -⟩ := List.cons.inj hd
  exact h hfold

theorem headerAt_masked {scheme space token padding : List Char}
    (h : IsHeader scheme space token padding rest) (out : List Char) :
    headerAt isAlnum before' (scheme ++ space ++ redactedText ++ out) = none := by
  have hlength := length_of_fold h.scheme_fold
  have hend : ∀ c ∈ (redactedText ++ out).head?, isSpace c = false := by
    intro c hc
    obtain rfl : '[' = c := Option.some.inj hc
    decide
  have htoken : (redactedText ++ out).takeWhile isBearerChar = [] :=
    List.takeWhile_cons_of_neg (by decide)
  unfold headerAt
  rw [List.append_assoc, List.append_assoc, List.take_left' hlength, List.drop_left' hlength]
  dsimp only
  rw [(takeWhile_run h.space_forall hend).1, (takeWhile_run h.space_forall hend).2, htoken,
    if_neg fun hmatch => hmatch.2.2.2 rfl]

/-- No header starts in what is left of a header. -/
theorem silent_masked {scheme space token padding : List Char}
    (h : IsHeader scheme space token padding rest) (out : List Char) :
    Silent (bearerRule isAlnum) before' (scheme ++ space ++ redactedText) out := by
  intro u c w hsplit
  rw [bearerRule_eq_none_iff]
  cases u with
  | nil =>
      rw [← List.nil_append (c :: w), ← hsplit]
      exact headerAt_masked h out
  | cons d u =>
      have hscheme := h.scheme_fold
      cases hcons : scheme with
      | nil =>
          rw [hcons] at hscheme
          cases hscheme
      | cons e scheme' =>
          rw [hcons] at hscheme hsplit
          apply headerAt_eq_none
          have htail : scheme' ++ space ++ redactedText = u ++ c :: w := (List.cons.inj hsplit).2
          have hmem : c ∈ scheme' ++ space ++ redactedText := by
            rw [htail]
            exact List.mem_append_right u List.mem_cons_self
          rw [List.mem_append, List.mem_append] at hmem
          obtain (hmem | hmem) | hmem := hmem
          · have hfolded : fold c ∈ "earer".toList := by
              rw [← show scheme'.map fold = "earer".toList from (List.cons.inj hscheme).2]
              exact List.mem_map_of_mem hmem
            intro hfold
            rw [hfold] at hfolded
            exact absurd hfolded (by decide)
          · intro hfold
            have halpha := isAlpha_of_fold_eq_b hfold
            rw [not_isAlpha_of_isSpace (h.space_forall c hmem)] at halpha
            cases halpha
          · exact (mem_redactedText hmem).1

theorem sameStart_of_header {scheme space token padding : List Char}
    (h : IsHeader scheme space token padding rest) :
    SameStart isAlnum (lastOr before (scheme ++ space ++ (token ++ padding))) (some ']') rest := by
  intro c hc halpha
  have hpadding : padding ≠ [] := by
    intro hnil
    have hbearer := (h.ends c hc).2 hnil
    rw [isBearerChar_of_isAlpha halpha] at hbearer
    cases hbearer
  rw [lastOr_append, lastOr_append]
  cases hlast : lastOr (lastOr (lastOr before (scheme ++ space)) token) padding with
  | none => rfl
  | some d =>
      rw [lastOr_eq_of_ne_nil _ none hpadding] at hlast
      obtain hmem | hnone := lastOr_mem hlast
      · rw [h.padding_forall d hmem]
        rfl
      · cases hnone

theorem replaceAll_header {scheme space token padding : List Char}
    (h : IsHeader scheme space token padding rest)
    (hbefore : before.any (isWord isAlnum) = false) :
    replaceAll (bearerRule isAlnum) 0 before (scheme ++ space ++ (token ++ padding) ++ rest) =
      scheme ++ space ++ redactedText ++ replaceAll (bearerRule isAlnum) 0
        (lastOr before (scheme ++ space ++ (token ++ padding))) rest := by
  apply replaceAll_match
  · simp [h.token_ne]
  · rw [bearerRule_eq, headerAt_of_isHeader h hbefore]
    rfl

/-- The first pattern finds nothing more in its result. -/
theorem not_occurs_replaced_headers (n : ℕ) (hn : cs.length ≤ n)
    (hsame : SameStart isAlnum before before' cs) :
    occurs (bearerRule isAlnum) before' (replaceAll (bearerRule isAlnum) 0 before cs) = false := by
  induction n generalizing cs before before' with
  | zero =>
      obtain rfl := List.length_eq_zero_iff.mp (Nat.le_zero.mp hn)
      rfl
  | succ n ih =>
      cases cs with
      | nil => rfl
      | cons c cs =>
          cases hpiece : headerAt isAlnum before (c :: cs) with
          | none =>
              have hout : replaceAll (bearerRule isAlnum) 0 before (c :: cs) =
                  c :: replaceAll (bearerRule isAlnum) 0 (some c) cs := by
                rw [replaceAll, bearerRule_eq_none_iff.mpr hpiece]
              have hnone : headerAt isAlnum before'
                  (c :: replaceAll (bearerRule isAlnum) 0 (some c) cs) = none := by
                by_contra hne
                exact headerAt_of_replaced bearerRule_keepsBefore hout hsame hne hpiece
              rw [hout, occurs, bearerRule_eq_none_iff.mpr hnone]
              exact ih (Nat.le_of_succ_le_succ hn) (.refl _ _)
          | some piece =>
              obtain ⟨hbefore, scheme, space, token, padding, rest, hheader, hcs, -⟩ :=
                exists_isHeader hpiece
              have hshort : rest.length ≤ n := by
                have hlengths := congrArg List.length hcs
                have hscheme := length_of_fold hheader.scheme_fold
                simp only [List.length_cons, List.length_append] at hlengths hn
                omega
              rw [hcs, replaceAll_header hheader hbefore,
                occurs_append (silent_masked hheader _)]
              refine ih hshort ?_
              rw [lastOr_append before', lastOr_redactedText]
              exact sameStart_of_header hheader

theorem getElem?_eq_getLast?_take {run : List Char} {k : ℕ} (h : k < run.length) :
    run[k]? = (run.take (k + 1)).getLast? := by
  rw [List.getLast?_take]
  simp [List.getElem?_eq_getElem h]

/-- What the second pattern has found: the part of a key up to a boundary. -/
theorem exists_part {n : ℕ} {text : List Char}
    (h : zyntryKeyRule isAlnum before cs = some (n, text)) : text = redactedText ∧
      before.any (isWord isAlnum) = false ∧ ∃ start part rest, start ∈ keyStarts ∧ part ≠ [] ∧
        (∀ c ∈ part, isKeyChar c = true) ∧ cs = start ++ part ++ rest ∧
        n = (start ++ part).length - 1 ∧
        wordBoundary isAlnum part.getLast? rest.head? = true := by
  have hfound : keyAt isAlnum before cs ≠ none := by
    intro hnone
    rw [zyntryKeyRule_eq_none hnone] at h
    cases h
  obtain ⟨piece, hpiece⟩ := Option.ne_none_iff_exists'.mp hfound
  obtain ⟨hbefore, start, run, rest, hkey, rfl, -⟩ := exists_isKey hpiece
  rw [zyntryKeyRule_of_isKey hkey hbefore, Option.map_eq_some_iff] at h
  obtain ⟨k, hk, h⟩ := h
  obtain ⟨rfl, rfl⟩ := Prod.mk.inj h
  have hlt := List.mem_of_find?_eq_some hk
  rw [List.mem_reverse, List.mem_range] at hlt
  have hboundary := List.find?_some hk
  refine ⟨rfl, hbefore, start, run.take (k + 1), run.drop (k + 1) ++ rest, hkey.start_mem, ?_,
    fun c hc => hkey.run_forall c (List.mem_of_mem_take hc), ?_, ?_, ?_⟩
  · rw [Ne, List.take_eq_nil_iff]
    exact fun hnil => hnil.elim (by simp) hkey.run_ne
  · rw [List.append_assoc, List.append_assoc, ← List.append_assoc (run.take _),
      List.take_append_drop]
  · rw [List.length_append, length_of_mem_keyStarts hkey.start_mem, List.length_take]
    omega
  · rw [getElem?_eq_getLast?_take hlt, ← (getElem?_append_head hlt).2] at hboundary
    rw [← hboundary, ← List.drop_append_of_le_length hlt, List.head?_drop]

theorem replaceAll_key {n : ℕ} {text : List Char} (hne : cs ≠ [])
    (h : zyntryKeyRule isAlnum before cs = some (n, text)) :
    ∃ m rest, cs = m ++ rest ∧ m ≠ [] ∧ before.any (isWord isAlnum) = false ∧
      wordBoundary isAlnum (lastOr before m) rest.head? = true ∧
      replaceAll (zyntryKeyRule isAlnum) 0 before cs =
        redactedText ++ replaceAll (zyntryKeyRule isAlnum) 0 (lastOr before m) rest := by
  obtain ⟨rfl, hbefore, start, part, rest, hstart, hpart, -, rfl, rfl, hboundary⟩ := exists_part h
  have hm : start ++ part ≠ [] := by simp [hpart]
  refine ⟨start ++ part, rest, rfl, hm, hbefore, ?_, replaceAll_match hm h⟩
  rw [lastOr_append, lastOr_of_ne_nil _ hpart]
  exact hboundary

theorem sameStart_of_boundary (h : wordBoundary isAlnum before rest.head? = true) :
    SameStart isAlnum before (some ']') rest := by
  intro c hc halpha
  have hbracket : (some ']').any (isWord isAlnum) = false := rfl
  rw [Option.mem_def.mp hc, wordBoundary, Option.any_some, isWord_of_isAlpha halpha] at h
  rw [hbracket]
  simpa using h

theorem silent_header_of_forall_ne (h : ∀ c ∈ cs, fold c ≠ 'b') (out : List Char) :
    Silent (bearerRule isAlnum) before cs out := by
  intro u c w hsplit
  rw [bearerRule_eq_none_iff]
  refine headerAt_eq_none (h c ?_)
  rw [hsplit]
  exact List.mem_append_right u List.mem_cons_self

theorem silent_redactedText (out : List Char) :
    Silent (bearerRule isAlnum) before redactedText out :=
  silent_header_of_forall_ne (fun _ hc => (mem_redactedText hc).1) out

/-- The second pattern makes no headers. -/
theorem not_occurs_header_replaced_keys (n : ℕ) (hn : cs.length ≤ n)
    (hsame : SameStart isAlnum before before' cs)
    (h : occurs (bearerRule isAlnum) before cs = false) :
    occurs (bearerRule isAlnum) before' (replaceAll (zyntryKeyRule isAlnum) 0 before cs) =
      false := by
  induction n generalizing cs before before' with
  | zero =>
      obtain rfl := List.length_eq_zero_iff.mp (Nat.le_zero.mp hn)
      rfl
  | succ n ih =>
      cases cs with
      | nil => rfl
      | cons c cs =>
          have hsilent := occurs_eq_false_iff.mp h
          cases hrule : zyntryKeyRule isAlnum before (c :: cs) with
          | none =>
              have hout : replaceAll (zyntryKeyRule isAlnum) 0 before (c :: cs) =
                  c :: replaceAll (zyntryKeyRule isAlnum) 0 (some c) cs := by
                rw [replaceAll, hrule]
              have hpiece : headerAt isAlnum before (c :: cs) = none := by
                rw [← bearerRule_eq_none_iff, ← List.append_nil (c :: cs)]
                exact hsilent [] c cs rfl
              have hnone : headerAt isAlnum before'
                  (c :: replaceAll (zyntryKeyRule isAlnum) 0 (some c) cs) = none := by
                by_contra hne
                exact headerAt_of_replaced zyntryKeyRule_keepsBefore hout hsame hne hpiece
              rw [hout, occurs, bearerRule_eq_none_iff.mpr hnone]
              exact ih (Nat.le_of_succ_le_succ hn) (.refl _ _)
                (occurs_eq_false_iff.mpr hsilent.tail)
          | some found =>
              obtain ⟨m, rest, hcs, hm, -, hboundary, hout⟩ :=
                replaceAll_key (List.cons_ne_nil c cs) hrule
              have hshort : rest.length ≤ n := by
                have hlengths := congrArg List.length hcs
                have hpos := List.length_pos_iff.mpr hm
                simp only [List.length_cons, List.length_append] at hlengths hn
                omega
              have hrest : occurs (bearerRule isAlnum) (lastOr before m) rest = false := by
                rw [hcs] at hsilent
                exact occurs_eq_false_iff.mpr (hsilent.suffix)
              rw [hout, occurs_append (silent_redactedText _), lastOr_redactedText]
              exact ih hshort (sameStart_of_boundary hboundary) hrest

theorem notMem_keyStart {start : List Char} (h : start ∈ keyStarts) : '[' ∉ start := by
  obtain rfl | rfl := eq_of_mem_keyStarts h <;> decide

/-- A part of a key at the start, up to a boundary, is found or is within what is found. -/
theorem zyntryKeyRule_ne_none {start part : List Char}
    (hbefore : before.any (isWord isAlnum) = false) (hstart : start ∈ keyStarts)
    (hpart : ∀ c ∈ part, isKeyChar c = true) (hne : part ≠ [])
    (hboundary : wordBoundary isAlnum part.getLast? rest.head? = true) :
    zyntryKeyRule isAlnum before (start ++ part ++ rest) ≠ none := by
  have hkey : IsKey start (part ++ rest.takeWhile isKeyChar) (rest.dropWhile isKeyChar) := by
    refine ⟨hstart, ?_, by simp [hne], head?_dropWhile rest⟩
    intro c hc
    rw [List.mem_append] at hc
    exact hc.elim (hpart c) (forall_mem_takeWhile rest c)
  have htext : start ++ part ++ rest = start ++ (part ++ rest.takeWhile isKeyChar) ++
      rest.dropWhile isKeyChar := by
    simp only [List.append_assoc, List.takeWhile_append_dropWhile]
  have hpos := List.length_pos_iff.mpr hne
  have hlt : part.length - 1 < (part ++ rest.takeWhile isKeyChar).length := by
    rw [List.length_append]
    omega
  rw [htext, zyntryKeyRule_of_isKey hkey hbefore, Ne, Option.map_eq_none_iff, keyMatch,
    List.find?_eq_none]
  intro hnone
  apply hnone (part.length - 1) (by rw [List.mem_reverse, List.mem_range]; exact hlt)
  rw [← (getElem?_append_head hlt).2, List.append_assoc, List.takeWhile_append_dropWhile,
    Nat.sub_add_cancel hpos, List.getElem?_append_right le_rfl, Nat.sub_self,
    List.getElem?_append_left (by omega), ← List.getLast?_eq_getElem?, ← List.head?_eq_getElem?]
  exact hboundary

/-- A key in what the second pattern has left was there before. -/
theorem zyntryKeyRule_of_replaced {c : Char} {out : List Char}
    (hout : replaceAll (zyntryKeyRule isAlnum) 0 before (c :: cs) = c :: out)
    (hsame : SameStart isAlnum before before' (c :: cs))
    (h : zyntryKeyRule isAlnum before' (c :: out) ≠ none) :
    zyntryKeyRule isAlnum before (c :: cs) ≠ none := by
  obtain ⟨found, hfound⟩ := Option.ne_none_iff_exists'.mp h
  obtain ⟨-, hbefore, start, part, rest, hstart, hne, hpart, hcs, -, hboundary⟩ :=
    exists_part hfound
  have hhead : c = 's' := by
    have hkey : keyAt isAlnum before' (c :: out) ≠ none := fun hnone =>
      h (zyntryKeyRule_eq_none hnone)
    obtain ⟨w, hw⟩ := head_of_key hkey
    exact (List.cons.inj hw).1
  have hword : before.any (isWord isAlnum) = false := by
    rw [hsame c rfl (by rw [hhead]; rfl), hbefore]
  have hmark : '[' ∉ start ++ part := by
    rw [List.mem_append]
    rintro (hmem | hmem)
    · exact notMem_keyStart hstart hmem
    · exact absurd (hpart _ hmem) (by decide)
  have hstarts : ∀ {before : Option Char} {cs : List Char} {n : ℕ} {text : List Char},
      zyntryKeyRule isAlnum before cs = some (n, text) → text.head? = some '[' := by
    intro before cs n text hrule
    rw [zyntryKeyRule_text hrule]
    rfl
  obtain ⟨rest₀, hcs₀, hrest⟩ := replaceAll_eq_append hstarts (hout.trans hcs) hmark
  rw [hcs₀]
  apply zyntryKeyRule_ne_none hword hstart hpart hne
  -- what comes after the key is the same, since no key starts at a boundary after a word
  cases rest₀ with
  | nil =>
      rw [hrest] at hboundary
      exact hboundary
  | cons d rest₀ =>
      cases hnext : zyntryKeyRule isAlnum (lastOr before (start ++ part)) (d :: rest₀) with
      | none =>
          rw [hrest, replaceAll, hnext] at hboundary
          exact hboundary
      | some found =>
          obtain ⟨n, text⟩ := found
          have hlast := (exists_part hnext).2.1
          rw [lastOr_append, lastOr_of_ne_nil _ hne] at hlast
          have hbracket : (some '[').any (isWord isAlnum) = false := rfl
          rw [hrest, replaceAll, hnext, zyntryKeyRule_text hnext, wordBoundary, hlast] at hboundary
          change (false != (some '[').any (isWord isAlnum)) = true at hboundary
          rw [hbracket] at hboundary
          cases hboundary

theorem silent_key_of_forall_ne (h : ∀ c ∈ cs, c ≠ 's') (out : List Char) :
    Silent (zyntryKeyRule isAlnum) before cs out := by
  intro u c w hsplit
  apply zyntryKeyRule_eq_none
  by_contra hne
  obtain ⟨w', hw⟩ := head_of_key hne
  refine h c ?_ (List.cons.inj hw).1
  rw [hsplit]
  exact List.mem_append_right u List.mem_cons_self

theorem silent_key_redactedText (out : List Char) :
    Silent (zyntryKeyRule isAlnum) before redactedText out :=
  silent_key_of_forall_ne (fun _ hc => (mem_redactedText hc).2) out

/-- The second pattern finds nothing more in its result. -/
theorem not_occurs_replaced_keys (n : ℕ) (hn : cs.length ≤ n)
    (hsame : SameStart isAlnum before before' cs) :
    occurs (zyntryKeyRule isAlnum) before' (replaceAll (zyntryKeyRule isAlnum) 0 before cs) =
      false := by
  induction n generalizing cs before before' with
  | zero =>
      obtain rfl := List.length_eq_zero_iff.mp (Nat.le_zero.mp hn)
      rfl
  | succ n ih =>
      cases cs with
      | nil => rfl
      | cons c cs =>
          cases hrule : zyntryKeyRule isAlnum before (c :: cs) with
          | none =>
              have hout : replaceAll (zyntryKeyRule isAlnum) 0 before (c :: cs) =
                  c :: replaceAll (zyntryKeyRule isAlnum) 0 (some c) cs := by
                rw [replaceAll, hrule]
              have hnone : zyntryKeyRule isAlnum before'
                  (c :: replaceAll (zyntryKeyRule isAlnum) 0 (some c) cs) = none := by
                by_contra hne
                exact zyntryKeyRule_of_replaced hout hsame hne hrule
              rw [hout, occurs, hnone]
              exact ih (Nat.le_of_succ_le_succ hn) (.refl _ _)
          | some found =>
              obtain ⟨m, rest, hcs, hm, -, hboundary, hout⟩ :=
                replaceAll_key (List.cons_ne_nil c cs) hrule
              have hshort : rest.length ≤ n := by
                have hlengths := congrArg List.length hcs
                have hpos := List.length_pos_iff.mpr hm
                simp only [List.length_cons, List.length_append] at hlengths hn
                omega
              rw [hout, occurs_append (silent_key_redactedText _), lastOr_redactedText]
              exact ih hshort (sameStart_of_boundary hboundary)

theorem redactText_redactText (isAlnum : Char → Bool) (s : String) :
    redactText isAlnum (redactText isAlnum s) = redactText isAlnum s := by
  rw [redactText_eq_self_iff]
  simp only [redactText, sub, String.toList_ofList]
  constructor
  · apply not_occurs_header_replaced_keys _ le_rfl (.refl _ _)
    exact not_occurs_replaced_headers _ le_rfl (.refl _ _)
  · exact not_occurs_replaced_keys _ le_rfl (.refl _ _)

end Zyntry
