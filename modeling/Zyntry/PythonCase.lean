import Zyntry.PythonText
import Mathlib

/-!
# Lower case

In lower case every character becomes some others, which are then lower case and which are
spaces exactly if it was one. So a text is lowered once and for all, and before or after it is
stripped.
-/

namespace Python

theorem lowerChar_eq_self {c : Char} (hupper : c.isUpper = false) (hdot : c ≠ 'İ')
    (hkelvin : c ≠ '\u212a') : lowerChar c = [c] := by
  rw [lowerChar, if_neg hdot, if_neg hkelvin, Char.toLower_eq_of_not_isUpper (by simp [hupper])]

theorem flatMap_lowerChar_lowerChar (c : Char) : (lowerChar c).flatMap lowerChar = lowerChar c := by
  by_cases hdot : c = 'İ'
  · subst hdot
    decide
  by_cases hkelvin : c = '\u212a'
  · subst hkelvin
    decide
  have hlower : lowerChar c = [c.toLower] := by rw [lowerChar, if_neg hdot, if_neg hkelvin]
  by_cases hupper : c.isUpper = true
  · have hletter : c.toLower.toNat ≤ 122 := by
      have hbound : c.toLower.isLower = true := by simp [Char.isAlpha, hupper]
      simp only [Char.isLower, Bool.and_eq_true, decide_eq_true_eq] at hbound
      exact hbound.2
    rw [hlower, List.flatMap_singleton]
    apply lowerChar_eq_self (by simp)
    · rintro heq
      simp [heq] at hletter
    · rintro heq
      simp [heq] at hletter
  · rw [hlower, Char.toLower_eq_of_not_isUpper hupper, List.flatMap_singleton]
    exact lowerChar_eq_self (by simpa using hupper) hdot hkelvin

theorem lower_lower (s : String) : lower (lower s) = lower s := by
  unfold lower
  rw [String.toList_ofList, List.flatMap_assoc]
  simp only [flatMap_lowerChar_lowerChar]

theorem lower_of_letters {s : String} (h : ∀ c ∈ s.toList, 'a' ≤ c ∧ c ≤ 'z') : lower s = s := by
  have hchars : ∀ cs : List Char, (∀ c ∈ cs, 'a' ≤ c ∧ c ≤ 'z') → cs.flatMap lowerChar = cs := by
    intro cs
    induction cs with
    | nil => simp
    | cons c cs ih =>
        intro h
        obtain ⟨⟨ha, hz⟩, hcs⟩ := List.forall_mem_cons.1 h
        have hz' : c.toNat ≤ 122 := hz
        have hself : lowerChar c = [c] := by
          apply lowerChar_eq_self
          · have hlower : c.isLower = true := by
              simp only [Char.isLower, Bool.and_eq_true, decide_eq_true_eq]
              exact ⟨ha, hz⟩
            simpa using Char.not_isUpper_of_isLower hlower
          · rintro rfl
            simp at hz'
          · rintro rfl
            simp at hz'
        rw [List.flatMap_cons, hself, ih hcs, List.singleton_append]
  rw [lower, hchars _ h, String.ofList_toList]

/-! ## Stripped text -/

theorem dropWhile_flatMap {f : Char → List Char} {p : Char → Bool}
    (hdrop : ∀ c, p c = true → ∀ d ∈ f c, p d = true)
    (hkeep : ∀ c, p c = false → ∀ d ∈ f c, p d = false) (hne : ∀ c, f c ≠ []) (cs : List Char) :
    (cs.flatMap f).dropWhile p = (cs.dropWhile p).flatMap f := by
  induction cs with
  | nil => rfl
  | cons c cs ih =>
      rw [List.flatMap_cons]
      by_cases hc : p c = true
      · rw [List.dropWhile_cons_of_pos hc, List.dropWhile_append_of_pos (hdrop c hc), ih]
      · rw [List.dropWhile_cons_of_neg hc, List.flatMap_cons]
        obtain ⟨d, ds, hd⟩ := List.exists_cons_of_ne_nil (hne c)
        have hpd : ¬p d = true := by simp [hkeep c (by simpa using hc) d (by simp [hd])]
        rw [hd, List.cons_append, List.dropWhile_cons_of_neg hpd]

theorem isSpace_eq_false {c : Char} (hlow : 65 ≤ c.toNat) (hhigh : c.toNat ≤ 122) :
    isSpace c = false := by
  simp only [isSpace, List.mem_cons, List.not_mem_nil, or_false, decide_eq_false_iff_not]
  omega

theorem isSpace_lowerChar {c d : Char} (hd : d ∈ lowerChar c) : isSpace d = isSpace c := by
  by_cases hdot : c = 'İ'
  · subst hdot
    have hchars : lowerChar 'İ' = ['i', '\u0307'] := by decide
    rw [hchars, List.mem_pair] at hd
    rcases hd with rfl | rfl
    · decide +kernel
    · decide +kernel
  by_cases hkelvin : c = '\u212a'
  · subst hkelvin
    have hchars : lowerChar '\u212a' = ['k'] := by decide
    rw [hchars, List.mem_singleton] at hd
    subst hd
    decide +kernel
  rw [lowerChar, if_neg hdot, if_neg hkelvin, List.mem_singleton] at hd
  subst hd
  by_cases hupper : c.isUpper = true
  · have hlower : c.toLower.isLower = true := by simp [Char.isAlpha, hupper]
    simp only [Char.isLower, Char.isUpper, Bool.and_eq_true, decide_eq_true_eq] at hlower hupper
    have hlow : 97 ≤ c.toLower.toNat := hlower.1
    have hhigh : c.toNat ≤ 90 := hupper.2
    rw [isSpace_eq_false (by omega) hlower.2, isSpace_eq_false hupper.1 (by omega)]
  · rw [Char.toLower_eq_of_not_isUpper (by simpa using hupper)]

theorem lowerChar_ne_nil (c : Char) : lowerChar c ≠ [] := by
  unfold lowerChar
  split_ifs <;> simp

theorem strip_flatMap_lowerChar (cs : List Char) :
    strip (cs.flatMap lowerChar) = (strip cs).flatMap lowerChar := by
  have hdrop : ∀ c, isSpace c = true → ∀ d ∈ lowerChar c, isSpace d = true :=
    fun c hc d hd => (isSpace_lowerChar hd).trans hc
  have hkeep : ∀ c, isSpace c = false → ∀ d ∈ lowerChar c, isSpace d = false :=
    fun c hc d hd => (isSpace_lowerChar hd).trans hc
  have hend : ∀ l : List Char, (l.flatMap lowerChar).rdropWhile isSpace =
      (l.rdropWhile isSpace).flatMap lowerChar := by
    intro l
    have hreverse := dropWhile_flatMap (f := fun c => (lowerChar c).reverse) (p := isSpace)
      (fun c hc d hd => hdrop c hc d (List.mem_reverse.mp hd))
      (fun c hc d hd => hkeep c hc d (List.mem_reverse.mp hd))
      (fun c => by simpa using lowerChar_ne_nil c) l.reverse
    rw [List.rdropWhile, List.rdropWhile, List.reverse_flatMap]
    refine (congrArg List.reverse hreverse).trans ?_
    rw [List.reverse_flatMap]
    congr 1
    exact funext fun c => List.reverse_reverse (lowerChar c)
  rw [strip, strip, dropWhile_flatMap hdrop hkeep lowerChar_ne_nil, hend]

theorem lower_stripped (s : String) : lower (stripped s) = stripped (lower s) := by
  unfold lower stripped
  rw [String.toList_ofList, String.toList_ofList, strip_flatMap_lowerChar]

end Python
