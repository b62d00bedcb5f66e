import Zyntry.PythonText

/-!
# Substitution in a text of pieces

`re.sub` replaces the matches of a pattern from left to right. A part of a text in which no match
starts is copied, and what comes after it is replaced on its own. If every replacement begins with
a part of its match and then has a mark, the text that is copied up to a mark stood there before.
-/

namespace Python

variable {rule : Rule} {before : Option Char} {cs rest : List Char}

/-- The character before the end of a text. -/
def lastOr (before : Option Char) (cs : List Char) : Option Char := cs.getLast?.or before

@[simp] theorem lastOr_nil (before : Option Char) : lastOr before [] = before := rfl

@[simp] theorem lastOr_cons (before : Option Char) (c : Char) (cs : List Char) :
    lastOr before (c :: cs) = lastOr (some c) cs := by
  rw [lastOr, lastOr, List.getLast?_cons]
  cases cs.getLast? with
  | none => rfl
  | some d => rfl

theorem lastOr_append (before : Option Char) (cs cs' : List Char) :
    lastOr before (cs ++ cs') = lastOr (lastOr before cs) cs' := by
  rw [lastOr, lastOr, lastOr, List.getLast?_append, Option.or_assoc]

theorem lastOr_eq_of_ne_nil (before before' : Option Char) (h : cs ≠ []) :
    lastOr before cs = lastOr before' cs := by
  obtain ⟨c, cs, rfl⟩ := List.exists_cons_of_ne_nil h
  rw [lastOr_cons, lastOr_cons]

theorem lastOr_of_ne_nil (before : Option Char) (h : cs ≠ []) :
    lastOr before cs = cs.getLast? := by
  rw [lastOr_eq_of_ne_nil before none h, lastOr, Option.or_none]

theorem lastOr_mem {c : Char} (h : lastOr before cs = some c) : c ∈ cs ∨ before = some c := by
  rw [lastOr, Option.or_eq_some_iff] at h
  obtain h | ⟨-, h⟩ := h
  · exact .inl (List.mem_of_getLast? h)
  · exact .inr h

/-! ## The longest run at the start -/

theorem takeWhile_run {p : Char → Bool} {run : List Char} (hrun : ∀ c ∈ run, p c = true)
    (hrest : ∀ c ∈ rest.head?, p c = false) :
    (run ++ rest).takeWhile p = run ∧ (run ++ rest).dropWhile p = rest := by
  rw [List.takeWhile_append_of_pos hrun, List.dropWhile_append_of_pos hrun]
  cases rest with
  | nil => exact ⟨List.append_nil run, rfl⟩
  | cons c rest =>
      have hc : ¬p c = true := by simp [hrest c rfl]
      rw [List.takeWhile_cons_of_neg hc, List.dropWhile_cons_of_neg hc, List.append_nil]
      exact ⟨rfl, rfl⟩

theorem head?_dropWhile {p : Char → Bool} (cs : List Char) :
    ∀ c ∈ (cs.dropWhile p).head?, p c = false := by
  intro c hc
  have hnot := List.head?_dropWhile_not p cs
  rw [Option.mem_def.mp hc] at hnot
  simpa using hnot

theorem forall_mem_takeWhile {p : Char → Bool} (cs : List Char) :
    ∀ c ∈ cs.takeWhile p, p c = true := fun _ hc => List.mem_takeWhile_imp hc

/-! ## Where no match starts -/

/-- The characters of a match are skipped. -/
theorem replaceAll_skip (n : ℕ) : replaceAll rule n before cs =
    replaceAll rule 0 (lastOr before (cs.take n)) (cs.drop n) := by
  induction cs generalizing n before with
  | nil => cases n <;> simp [replaceAll]
  | cons c cs ih =>
      cases n with
      | zero => rfl
      | succ n => rw [replaceAll, ih, List.take_succ_cons, List.drop_succ_cons, lastOr_cons]

theorem replaceAll_of_match {n : ℕ} {text : List Char} (hne : cs ≠ [])
    (h : rule before cs = some (n, text)) : replaceAll rule 0 before cs =
      text ++ replaceAll rule 0 (lastOr before (cs.take (n + 1))) (cs.drop (n + 1)) := by
  obtain ⟨c, cs, rfl⟩ := List.exists_cons_of_ne_nil hne
  rw [replaceAll, h, List.take_succ_cons, List.drop_succ_cons, lastOr_cons]
  exact congrArg (text ++ ·) (replaceAll_skip n)

theorem replaceAll_match {m text : List Char} (hne : m ≠ [])
    (h : rule before (m ++ rest) = some (m.length - 1, text)) :
    replaceAll rule 0 before (m ++ rest) = text ++ replaceAll rule 0 (lastOr before m) rest := by
  have hlength : m.length - 1 + 1 = m.length := Nat.sub_add_cancel (List.length_pos_iff.mpr hne)
  rw [replaceAll_of_match (by simp [hne]) h, hlength, List.take_left, List.drop_left]

/-- No match of the pattern starts in the first part of a text. -/
def Silent (rule : Rule) (before : Option Char) (cs rest : List Char) : Prop :=
  ∀ u c w, cs = u ++ c :: w → rule (lastOr before u) (c :: w ++ rest) = none

theorem Silent.tail {c : Char} (h : Silent rule before (c :: cs) rest) :
    Silent rule (some c) cs rest := by
  intro u d w hcs
  rw [hcs] at h
  have hnone := h (c :: u) d w rfl
  rwa [lastOr_cons] at hnone

theorem Silent.suffix {m : List Char} (h : Silent rule before (m ++ cs) rest) :
    Silent rule (lastOr before m) cs rest := by
  intro u c w hcs
  rw [hcs] at h
  have hnone := h (m ++ u) c w (List.append_assoc m u (c :: w)).symm
  rwa [lastOr_append] at hnone

theorem replaceAll_append (h : Silent rule before cs rest) :
    replaceAll rule 0 before (cs ++ rest) = cs ++ replaceAll rule 0 (lastOr before cs) rest := by
  induction cs generalizing before with
  | nil => rfl
  | cons c cs ih =>
      have hnone : rule before (c :: (cs ++ rest)) = none := h [] c cs rfl
      rw [List.cons_append, replaceAll, hnone, lastOr_cons, ih h.tail]
      rfl

theorem occurs_eq_false_iff : occurs rule before cs = false ↔ Silent rule before cs [] := by
  induction cs generalizing before with
  | nil =>
      refine iff_of_true rfl ?_
      intro u c w hcs
      simp at hcs
  | cons c cs ih =>
      rw [occurs, Bool.or_eq_false_iff, ih, Option.isSome_eq_false_iff, Option.isNone_iff_eq_none]
      constructor
      · rintro ⟨hfirst, hlater⟩ u d w hcs
        cases u with
        | nil =>
            obtain ⟨rfl, rfl⟩ := List.cons.inj hcs
            rwa [List.append_nil]
        | cons e u =>
            obtain ⟨rfl, rfl⟩ := List.cons.inj hcs
            rw [lastOr_cons]
            exact hlater u d w rfl
      · intro h
        refine ⟨?_, h.tail⟩
        have hfirst := h [] c cs rfl
        rwa [List.append_nil] at hfirst

theorem occurs_append (h : Silent rule before cs rest) :
    occurs rule before (cs ++ rest) = occurs rule (lastOr before cs) rest := by
  induction cs generalizing before with
  | nil => rfl
  | cons c cs ih =>
      have hnone : rule before (c :: (cs ++ rest)) = none := h [] c cs rfl
      rw [List.cons_append, occurs, hnone, lastOr_cons, ← ih h.tail]
      rfl

/-! ## Marked replacements -/

/-- A replacement begins with the kept part of its match, and then has the mark. -/
def Rule.KeepsBefore (rule : Rule) (mark : Char) : Prop :=
  ∀ {before cs n text}, rule before cs = some (n, text) →
    ∃ kept later, text = kept ++ mark :: later ∧ kept <+: cs

/-- What is copied up to a mark stood there before. -/
theorem prefix_of_replaceAll {mark : Char} (hkeeps : rule.KeepsBefore mark) {q : List Char}
    (hq : q <+: replaceAll rule 0 before cs) (hmark : mark ∉ q) : q <+: cs := by
  induction cs generalizing q before with
  | nil => exact hq
  | cons c cs ih =>
      rw [replaceAll] at hq
      cases hrule : rule before (c :: cs) with
      | none =>
          rw [hrule] at hq
          cases q with
          | nil => exact List.nil_prefix
          | cons d q =>
              obtain ⟨rfl, hq⟩ := List.cons_prefix_cons.mp hq
              exact List.cons_prefix_cons.mpr
                ⟨rfl, ih hq fun hmem => hmark (List.mem_cons_of_mem _ hmem)⟩
      | some found =>
          obtain ⟨n, text⟩ := found
          obtain ⟨kept, later, rfl, hkept⟩ := hkeeps hrule
          rw [hrule] at hq
          dsimp only at hq
          rw [List.append_assoc] at hq
          -- a longer part of the replacement would have the mark
          obtain hshort | hlong := List.prefix_or_prefix_of_prefix hq (List.prefix_append _ _)
          · exact hshort.trans hkept
          · obtain ⟨more, rfl⟩ := hlong
            rw [List.prefix_append_right_inj] at hq
            cases more with
            | nil => rwa [List.append_nil]
            | cons d more =>
                obtain ⟨rfl, -⟩ := List.cons_prefix_cons.mp hq
                exact absurd (List.mem_append_right kept List.mem_cons_self) hmark

/-- The same, with what comes after it, when nothing of a match is kept. -/
theorem replaceAll_eq_append {mark : Char}
    (hstarts : ∀ {before cs n text}, rule before cs = some (n, text) → text.head? = some mark)
    {q out : List Char} (h : replaceAll rule 0 before cs = q ++ out) (hmark : mark ∉ q) :
    ∃ rest, cs = q ++ rest ∧ out = replaceAll rule 0 (lastOr before q) rest := by
  induction q generalizing before cs with
  | nil => exact ⟨cs, rfl, h.symm⟩
  | cons d q ih =>
      cases cs with
      | nil => simp [replaceAll] at h
      | cons c cs =>
          rw [replaceAll] at h
          cases hrule : rule before (c :: cs) with
          | none =>
              rw [hrule] at h
              change c :: replaceAll rule 0 (some c) cs = d :: (q ++ out) at h
              obtain ⟨rfl, hcopied⟩ := List.cons.inj h
              obtain ⟨rest, rfl, hout⟩ := ih hcopied fun hmem => hmark (List.mem_cons_of_mem _ hmem)
              exact ⟨rest, rfl, by rw [hout, lastOr_cons]⟩
          | some found =>
              obtain ⟨n, text⟩ := found
              have hhead := hstarts hrule
              rw [hrule] at h
              dsimp only at h
              cases text with
              | nil => cases hhead
              | cons e text =>
                  obtain rfl := Option.some.inj hhead
                  obtain ⟨rfl, -⟩ := List.cons.inj h
                  exact absurd List.mem_cons_self hmark

end Python
