import Mathlib.Logic.Function.Basic
import Mathlib.Data.List.Basic

/-!
# Objects of a database session

A session tracks some of the objects that a program makes. A flush writes the tracked objects to
their rows, and gives the new ones their keys. An object that is not tracked never gets a key, and
what is set on it reaches no row.
-/

/-- An object with its key, once it has a row. -/
structure Instance (K A : Type) where
  key : Option K
  columns : A

/-- The objects by their place in memory, and the rows before and after the open transaction. -/
structure ObjectSession (K A : Type) where
  heap : ℕ → Instance K A
  next : ℕ
  tracked : List ℕ
  tracked_lt : ∀ i ∈ tracked, i < next
  rows : K → Option A
  committed : K → Option A

namespace ObjectSession

variable {K A : Type}

theorem next_notMem (s : ObjectSession K A) : s.next ∉ s.tracked := fun h =>
  absurd (s.tracked_lt s.next h) (Nat.lt_irrefl s.next)

/-- A new object, at the place `next`. -/
def construct (columns : A) (s : ObjectSession K A) : ObjectSession K A :=
  { s with
    heap := Function.update s.heap s.next ⟨none, columns⟩
    next := s.next + 1
    tracked_lt := fun i hi => Nat.lt_succ_of_lt (s.tracked_lt i hi) }

/-- A new object that joins the session. -/
def add (columns : A) (s : ObjectSession K A) : ObjectSession K A :=
  { s.construct columns with
    tracked := s.tracked ++ [s.next]
    tracked_lt := by
      intro i hi
      rw [List.mem_append, List.mem_singleton] at hi
      obtain hi | rfl := hi
      · exact Nat.lt_succ_of_lt (s.tracked_lt i hi)
      · exact Nat.lt_succ_self s.next }

def setattr (i : ℕ) (f : A → A) (s : ObjectSession K A) : ObjectSession K A :=
  { s with heap := Function.update s.heap i { s.heap i with columns := f (s.heap i).columns } }

variable [DecidableEq K] (newKey : ℕ → K)

/-- One object is written to its row; a new one gets its key. -/
def flushObject (s : ObjectSession K A) (i : ℕ) : ObjectSession K A :=
  let key := (s.heap i).key.getD (newKey i)
  { s with
    heap := Function.update s.heap i ⟨some key, (s.heap i).columns⟩
    rows := Function.update s.rows key (some (s.heap i).columns) }

def flush (s : ObjectSession K A) : ObjectSession K A := s.tracked.foldl (flushObject newKey) s

def commit (s : ObjectSession K A) : ObjectSession K A :=
  { s.flush newKey with committed := (s.flush newKey).rows }

/-! ## What a flush leaves alone -/

variable {newKey} {s : ObjectSession K A} {i j : ℕ} {key : K} {columns : A}

/-- An object that is not tracked stays as it is. -/
theorem heap_foldl_of_notMem {tracked : List ℕ} (h : j ∉ tracked) :
    (tracked.foldl (flushObject newKey) s).heap j = s.heap j := by
  induction tracked generalizing s with
  | nil => rfl
  | cons i tracked ih =>
      rw [List.mem_cons, not_or] at h
      rw [List.foldl_cons, ih h.2]
      exact Function.update_of_ne h.1 _ _

theorem heap_flushObject (h : s.heap j = ⟨some key, columns⟩) :
    (s.flushObject newKey i).heap j = ⟨some key, columns⟩ := by
  by_cases hj : j = i
  · subst hj
    simp only [flushObject, Function.update_self, h, Option.getD_some]
  · exact (Function.update_of_ne hj _ _).trans h

theorem heap_foldl_of_key (tracked : List ℕ) (h : s.heap j = ⟨some key, columns⟩) :
    (tracked.foldl (flushObject newKey) s).heap j = ⟨some key, columns⟩ := by
  induction tracked generalizing s with
  | nil => exact h
  | cons i tracked ih => exact ih (heap_flushObject h)

theorem foldl_tracked (tracked : List ℕ) :
    (tracked.foldl (flushObject newKey) s).tracked = s.tracked ∧
      (tracked.foldl (flushObject newKey) s).next = s.next := by
  induction tracked generalizing s with
  | nil => exact ⟨rfl, rfl⟩
  | cons i tracked ih => exact ih

theorem flush_tracked : (s.flush newKey).tracked = s.tracked := (foldl_tracked s.tracked).1

/-! ## The object that joined last -/

/-- The object that joined the session last has its key. -/
structure LastTracked (s : ObjectSession K A) (i : ℕ) (key : K) (columns : A) : Prop where
  tracked_eq : ∃ others, s.tracked = others ++ [i]
  heap_eq : s.heap i = ⟨some key, columns⟩

theorem lastTracked_add (columns : A) (s : ObjectSession K A) :
    LastTracked ((s.add columns).flush newKey) s.next (newKey s.next) columns := by
  refine ⟨⟨s.tracked, flush_tracked⟩, ?_⟩
  have hheap : (s.add columns).heap s.next = ⟨none, columns⟩ := Function.update_self _ _ _
  have hlast : (s.tracked.foldl (flushObject newKey) (s.add columns)).heap s.next =
      ⟨none, columns⟩ := (heap_foldl_of_notMem s.next_notMem).trans hheap
  change ((s.tracked ++ [s.next]).foldl (flushObject newKey) (s.add columns)).heap s.next = _
  rw [List.foldl_append, List.foldl_cons, List.foldl_nil]
  simp only [flushObject, Function.update_self, hlast, Option.getD_none]

namespace LastTracked

theorem flush (h : LastTracked s i key columns) :
    LastTracked (s.flush newKey) i key columns := by
  obtain ⟨others, htracked⟩ := h.tracked_eq
  exact ⟨⟨others, flush_tracked.trans htracked⟩, heap_foldl_of_key s.tracked h.heap_eq⟩

theorem commit (h : LastTracked s i key columns) :
    LastTracked (s.commit newKey) i key columns :=
  ⟨h.flush.tracked_eq, h.flush.heap_eq⟩

omit [DecidableEq K] in
/-- Attributes that are set on another object are not its own. -/
theorem setattr (h : LastTracked s i key columns) (hne : j ≠ i) (f : A → A) :
    LastTracked (s.setattr j f) i key columns :=
  ⟨h.tracked_eq, (Function.update_of_ne hne.symm _ _).trans h.heap_eq⟩

/-- The row of the object is what the object has. -/
theorem rows_flush (h : LastTracked s i key columns) :
    (s.flush newKey).rows key = some columns := by
  obtain ⟨others, htracked⟩ := h.tracked_eq
  have hlast : (others.foldl (flushObject newKey) s).heap i = ⟨some key, columns⟩ :=
    heap_foldl_of_key others h.heap_eq
  rw [ObjectSession.flush, htracked, List.foldl_append, List.foldl_cons, List.foldl_nil]
  simp only [flushObject, hlast, Option.getD_some, Function.update_self]

theorem committed_commit (h : LastTracked s i key columns) :
    (s.commit newKey).committed key = some columns := h.rows_flush

end LastTracked

/-- An object that no session tracks has no key. -/
structure Untracked (s : ObjectSession K A) (i : ℕ) : Prop where
  notMem : i ∉ s.tracked
  key_eq : (s.heap i).key = none

namespace Untracked

omit [DecidableEq K] in
theorem construct (columns : A) (s : ObjectSession K A) :
    Untracked (s.construct columns) s.next := by
  refine ⟨s.next_notMem, ?_⟩
  rw [ObjectSession.construct]
  dsimp only
  rw [Function.update_self]

omit [DecidableEq K] in
theorem add (h : Untracked s i) (hlt : i < s.next) (columns : A) : Untracked (s.add columns) i := by
  have hne : i ≠ s.next := Nat.ne_of_lt hlt
  constructor
  · change i ∉ s.tracked ++ [s.next]
    rw [List.mem_append, List.mem_singleton, not_or]
    exact ⟨h.notMem, hne⟩
  · rw [← h.key_eq]
    exact congrArg Instance.key (Function.update_of_ne hne _ _)

omit [DecidableEq K] in
theorem setattr (h : Untracked s i) (f : A → A) : Untracked (s.setattr i f) i := by
  refine ⟨h.notMem, ?_⟩
  rw [← h.key_eq, ObjectSession.setattr]
  dsimp only
  rw [Function.update_self]

theorem flush (h : Untracked s i) : Untracked (s.flush newKey) i := by
  constructor
  · rw [flush_tracked]
    exact h.notMem
  · rw [← h.key_eq]
    exact congrArg Instance.key (heap_foldl_of_notMem h.notMem)

theorem commit (h : Untracked s i) : Untracked (s.commit newKey) i :=
  ⟨h.flush.notMem, h.flush.key_eq⟩

end Untracked

end ObjectSession
