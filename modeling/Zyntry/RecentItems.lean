import Mathlib.Data.List.Pairwise
import Mathlib.Data.List.Sort
import Mathlib.Order.Basic

/-!
# The last items of a list and the newest of a collection

`lastN n l` is the end of a list, and `newest key n l` the items with the greatest keys, the
greatest first. A list that is cut to its last items after every append is the end of all that
was appended. What a window of the newest items has of a chronological list is an end of it.
-/

namespace RecentItems

variable {α β : Type*}

/-! ## Ends of a list -/

def lastN (n : ℕ) (l : List α) : List α := l.drop (l.length - n)

theorem lastN_suffix (n : ℕ) (l : List α) : lastN n l <:+ l := List.drop_suffix _ l

@[simp] theorem lastN_nil (n : ℕ) : lastN n ([] : List α) = [] := List.drop_nil

@[simp] theorem length_lastN (n : ℕ) (l : List α) : (lastN n l).length = min n l.length := by
  rw [lastN, List.length_drop]
  omega

theorem lastN_map (f : α → β) (n : ℕ) (l : List α) : lastN n (l.map f) = (lastN n l).map f := by
  rw [lastN, lastN, List.length_map, List.map_drop]

theorem lastN_eq_nil_iff {n : ℕ} {l : List α} (hn : n ≠ 0) : lastN n l = [] ↔ l = [] := by
  rw [← List.length_eq_zero_iff, ← List.length_eq_zero_iff (l := l), length_lastN]
  omega

/-- A suffix that is long enough has the same end. -/
theorem lastN_eq_of_suffix {n : ℕ} {l l' : List α} (h : l <:+ l')
    (hlength : min n l'.length ≤ l.length) : lastN n l = lastN n l' := by
  obtain ⟨before, rfl⟩ := h
  rw [List.length_append] at hlength
  unfold lastN
  rw [List.length_append]
  rcases Nat.lt_or_ge l.length n with hn | hn
  · have hbefore : before.length = 0 := by omega
    obtain rfl := List.length_eq_zero_iff.mp hbefore
    rw [List.nil_append, List.length_nil, Nat.zero_add]
  · have hdrop : before.length + l.length - n = before.length + (l.length - n) := by omega
    rw [hdrop, List.drop_length_add_append]

/-- Cutting before and after an append is cutting after it. -/
theorem lastN_append_singleton (n : ℕ) (l : List α) (a : α) :
    lastN n (lastN n l ++ [a]) = lastN n (l ++ [a]) := by
  obtain ⟨before, hbefore⟩ := lastN_suffix n l
  apply lastN_eq_of_suffix
  · exact ⟨before, by rw [← List.append_assoc, hbefore]⟩
  · simp only [List.length_append, length_lastN, List.length_singleton]
    omega

theorem mem_of_mem_lastN {n : ℕ} {l : List α} {a : α} (h : a ∈ lastN n l) : a ∈ l :=
  (lastN_suffix n l).subset h

/-! ## The newest items -/

variable (key : α → ℤ)

def newest (n : ℕ) (l : List α) : List α :=
  (l.insertionSort fun a b => key b ≤ key a).take n

variable {key}

theorem mem_of_mem_newest {n : ℕ} {l : List α} {a : α} (h : a ∈ newest key n l) : a ∈ l :=
  (List.mem_insertionSort _).mp (List.mem_of_mem_take h)

theorem pairwise_insertionSort_newest (l : List α) :
    (l.insertionSort fun a b => key b ≤ key a).Pairwise fun a b => key b ≤ key a := by
  have : Std.Total fun a b : α => key b ≤ key a := ⟨fun a b => le_total (key b) (key a)⟩
  have : IsTrans α fun a b => key b ≤ key a := ⟨fun a b c hab hbc => hbc.trans hab⟩
  exact List.pairwise_insertionSort _ l

/-- Those of the newest items that belong to a chronological list are an end of that list, in
its order. -/
theorem newest_filter_suffix {l chronological : List α} {p : α → Bool}
    (hperm : (l.filter p).Perm chronological)
    (hascending : chronological.Pairwise fun a b => key a < key b) (n : ℕ) :
    (newest key n l).reverse.filter p <:+ chronological := by
  have hsorted : (l.insertionSort fun a b => key b ≤ key a).filter p =
      chronological.reverse := by
    have hperm' : ((l.insertionSort fun a b => key b ≤ key a).filter p).Perm
        chronological.reverse :=
      ((List.perm_insertionSort _ l).filter p).trans
        (hperm.trans (List.reverse_perm chronological).symm)
    have hdescending : chronological.reverse.Pairwise fun a b => key b < key a :=
      List.pairwise_reverse.mpr hascending
    refine List.Perm.eq_of_pairwise ?_ ((pairwise_insertionSort_newest l).filter p)
      (hdescending.imp fun hlt => hlt.le) hperm'
    intro a b ha hb hba hab
    by_contra hne
    have hdistinct : chronological.reverse.Pairwise fun a b => key a ≠ key b :=
      hdescending.imp fun hlt => hlt.ne'
    have : Std.Symm fun a b : α => key a ≠ key b := ⟨fun _ _ h => h.symm⟩
    exact hdistinct.forall (hperm'.subset ha) hb hne (le_antisymm hab hba)
  have hprefix : (newest key n l).filter p <+: chronological.reverse := by
    rw [← hsorted]
    exact (List.take_prefix n _).filter p
  rw [List.filter_reverse]
  exact List.reverse_prefix.mp (by rwa [List.reverse_reverse])

end RecentItems
