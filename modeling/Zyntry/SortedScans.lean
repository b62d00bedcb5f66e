import Mathlib.Data.List.Sort

/-!
# First matches in a sorted list

A list is sorted and then scanned for the first element that matches. The element found is known
by its place in the list that was sorted: it comes before every other match in the order, and on
a tie it stood before it.
-/

namespace SortedScans

variable {α : Type} {r : α → α → Prop} [DecidableRel r] {p : α → Bool}

/-- `x` goes before all other matches of a list. -/
def FirstMatch (r : α → α → Prop) (p : α → Bool) (l : List α) (x : α) : Prop :=
  ∃ ahead behind, l = ahead ++ x :: behind ∧ p x = true ∧
    (∀ y ∈ ahead, p y = true → ¬ r y x) ∧ ∀ y ∈ behind, p y = true → r x y

/-- Two positions of a list are the same, or one is before the other. -/
theorem positions {l ahead behind ahead' behind' : List α} {x y : α}
    (h : l = ahead ++ x :: behind) (h' : l = ahead' ++ y :: behind') :
    x = y ∨ (y ∈ behind ∧ x ∈ ahead') ∨ (y ∈ ahead ∧ x ∈ behind') := by
  rw [h] at h'
  obtain ⟨m, hahead', htail⟩ | ⟨m, hahead, htail⟩ := List.append_eq_append_iff.mp h'
  · cases m with
    | nil => exact .inl (List.cons.inj htail).1
    | cons z m =>
        obtain ⟨rfl, hbehind⟩ := List.cons.inj htail
        exact .inr (.inl ⟨by simp [hbehind], by simp [hahead']⟩)
  · cases m with
    | nil => exact .inl (List.cons.inj htail).1.symm
    | cons z m =>
        obtain ⟨rfl, hbehind⟩ := List.cons.inj htail
        exact .inr (.inr ⟨by simp [hahead], by simp [hbehind]⟩)

theorem find?_orderedInsert_of_not {a : α} (h : p a = false) (l : List α) :
    (l.orderedInsert r a).find? p = l.find? p := by
  induction l with
  | nil => simp [h]
  | cons b l ih =>
      rw [List.orderedInsert_cons]
      split_ifs
      · rw [List.find?_cons, h]
      · rw [List.find?_cons, List.find?_cons, ih]

theorem find?_orderedInsert [IsTrans α r] [Std.Total r] {a : α} (h : p a = true) {l : List α}
    (hl : l.Pairwise r) : (l.orderedInsert r a).find? p =
      some ((l.find? p).elim a fun b => if r a b then a else b) := by
  induction l with
  | nil => simp [h]
  | cons c l ih =>
      obtain ⟨hc, hl⟩ := List.pairwise_cons.mp hl
      by_cases hac : r a c
      · have hfound : ∀ b ∈ (c :: l).find? p, r a b := by
          intro b hb
          obtain rfl | hmem := List.mem_cons.mp (List.mem_of_find?_eq_some hb)
          · exact hac
          · exact Trans.trans hac (hc b hmem)
        rw [List.orderedInsert_cons_of_le _ _ hac, List.find?_cons, h]
        cases hb : (c :: l).find? p with
        | none => rfl
        | some b => simp [hfound b hb]
      · rw [List.orderedInsert_of_not_le _ _ hac, List.find?_cons, List.find?_cons, ih hl]
        cases hp : p c with
        | true => simp [hac]
        | false => rfl

variable [IsTrans α r] [Std.Total r]

theorem firstMatch_of_find? {l : List α} {x : α} (h : (l.insertionSort r).find? p = some x) :
    FirstMatch r p l x := by
  induction l generalizing x with
  | nil => cases h
  | cons a l ih =>
      rw [List.insertionSort_cons] at h
      cases ha : p a with
      | false =>
          rw [find?_orderedInsert_of_not ha] at h
          obtain ⟨ahead, behind, rfl, hx, hahead, hbehind⟩ := ih h
          refine ⟨a :: ahead, behind, rfl, hx, ?_, hbehind⟩
          intro y hy hpy
          obtain rfl | hy := List.mem_cons.mp hy
          · rw [ha] at hpy
            cases hpy
          · exact hahead y hy hpy
      | true =>
          rw [find?_orderedInsert ha (List.pairwise_insertionSort r l), Option.some.injEq] at h
          cases hb : (l.insertionSort r).find? p with
          | none =>
              rw [hb] at h
              obtain rfl : a = x := h
              refine ⟨[], l, rfl, ha, by simp, ?_⟩
              intro y hy hpy
              have hnone := List.find?_eq_none.mp hb y ((List.mem_insertionSort r).mpr hy)
              exact absurd hpy hnone
          | some b =>
              rw [hb, Option.elim_some] at h
              obtain ⟨ahead, behind, rfl, hpb, hahead, hbehind⟩ := ih hb
              split_ifs at h with hab
              · subst h
                refine ⟨[], _, rfl, ha, by simp, ?_⟩
                intro y hy hpy
                obtain hy | hy := List.mem_append.mp hy
                · have hby := (Std.Total.total (r := r) b y).resolve_right (hahead y hy hpy)
                  exact Trans.trans hab hby
                · obtain rfl | hy := List.mem_cons.mp hy
                  · exact hab
                  · exact Trans.trans hab (hbehind y hy hpy)
              · subst h
                refine ⟨a :: ahead, behind, rfl, hpb, ?_, hbehind⟩
                intro y hy hpy
                obtain rfl | hy := List.mem_cons.mp hy
                · exact hab
                · exact hahead y hy hpy

end SortedScans
