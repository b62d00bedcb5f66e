import Mathlib.Algebra.BigOperators.Group.List.Basic
import Mathlib.Algebra.Order.BigOperators.Group.List
import Mathlib.Data.Int.Basic
import Mathlib.Data.List.Nodup
import Mathlib.Tactic.Ring
import Mathlib.Data.List.Sort
import Mathlib.Algebra.Order.Ring.Int

/-!
# Tables with a primary key

A `RowTable` is a list of rows in insertion order in which no primary key occurs
twice. Inserting keeps an existing row, updating rewrites the row of one key and
may not change the key. `total f` adds up a column expression over all rows, and
the lemmas say what each operation does to a lookup and to a total.
-/

structure RowTable (κ ρ : Type) (key : ρ → κ) where
  rows : List ρ
  nodup : (rows.map key).Nodup

namespace RowTable

variable {κ ρ : Type} {key : ρ → κ} [DecidableEq κ]

instance : Inhabited (RowTable κ ρ key) := ⟨⟨[], List.nodup_nil⟩⟩

/-- Rows given at once, for tables whose keys are known to be distinct. -/
def ofRows (rows : List ρ) (h : (rows.map key).Nodup) : RowTable κ ρ key := ⟨rows, h⟩

def single (row : ρ) : RowTable κ ρ key := ⟨[row], List.nodup_singleton (key row)⟩

def get? (t : RowTable κ ρ key) (k : κ) : Option ρ := t.rows.find? (fun r => key r = k)

def insert (t : RowTable κ ρ key) (r : ρ) : RowTable κ ρ key :=
  if h : key r ∈ t.rows.map key then t
  else ⟨t.rows ++ [r], by
    rw [List.map_append, List.nodup_append]
    refine ⟨t.nodup, by simp, ?_⟩
    intro a ha b hb
    simp only [List.map_cons, List.map_nil, List.mem_singleton] at hb
    exact fun he => h (hb ▸ he ▸ ha)⟩

def update (t : RowTable κ ρ key) (k : κ) (f : ρ → ρ) (hf : ∀ r, key (f r) = key r) :
    RowTable κ ρ key :=
  ⟨t.rows.map (fun r => if key r = k then f r else r), by
    have he : (t.rows.map (fun r => if key r = k then f r else r)).map key = t.rows.map key := by
      rw [List.map_map]
      apply List.map_congr_left
      intro r _
      simp only [Function.comp_apply]
      split_ifs
      · exact hf r
      · rfl
    rw [he]
    exact t.nodup⟩

def delete (t : RowTable κ ρ key) (k : κ) : RowTable κ ρ key :=
  ⟨t.rows.filter (fun r => key r ≠ k), t.nodup.sublist (List.filter_sublist.map key)⟩

/-- What a flush sends for a column: the value that a session has set, unless it is the one
that the session has loaded. -/
def sentColumn {β : Type} [DecidableEq β] (loaded current stored : β) : β :=
  if current = loaded then stored else current

/-- A column expression added up over all rows. -/
def total (t : RowTable κ ρ key) (f : ρ → ℤ) : ℤ := (t.rows.map f).sum

theorem sentColumn_self {β : Type} [DecidableEq β] (loaded stored : β) :
    sentColumn loaded loaded stored = stored := if_pos rfl

theorem sentColumn_loaded {β : Type} [DecidableEq β] (loaded current : β) :
    sentColumn loaded current loaded = current := by
  unfold sentColumn
  split_ifs with h
  · exact h.symm
  · rfl

/-! ## Lookups -/

theorem get?_some_key {t : RowTable κ ρ key} {k : κ} {r : ρ} (h : t.get? k = some r) :
    key r = k := by
  simpa using List.find?_some h

theorem get?_some_mem {t : RowTable κ ρ key} {k : κ} {r : ρ} (h : t.get? k = some r) :
    r ∈ t.rows := List.mem_of_find?_eq_some h

theorem get?_none_ne {t : RowTable κ ρ key} {k : κ} (h : t.get? k = none) :
    ∀ r ∈ t.rows, key r ≠ k := by
  intro r hr he
  simpa [he] using List.find?_eq_none.mp h r hr

theorem get?_none_notMem {t : RowTable κ ρ key} {k : κ} (h : t.get? k = none) :
    k ∉ t.rows.map key := by
  intro hk
  obtain ⟨r, hr, he⟩ := List.mem_map.mp hk
  exact get?_none_ne h r hr he

/-- A row is what its own key looks up: keys are unique. -/
theorem get?_of_mem {t : RowTable κ ρ key} {r : ρ} (h : r ∈ t.rows) :
    t.get? (key r) = some r := by
  obtain ⟨rows, hnd⟩ := t
  simp only [get?] at h ⊢
  induction rows with
  | nil => cases h
  | cons a rows ih =>
      simp only [List.map_cons, List.nodup_cons] at hnd
      rcases List.mem_cons.mp h with rfl | h
      · simp
      · have hne : key a ≠ key r := fun he => hnd.1 (he ▸ List.mem_map_of_mem h)
        rw [List.find?_cons_of_neg (by simpa using hne)]
        exact ih hnd.2 h

theorem get?_update_self (t : RowTable κ ρ key) (k : κ) (f : ρ → ρ)
    (hf : ∀ r, key (f r) = key r) : (t.update k f hf).get? k = (t.get? k).map f := by
  obtain ⟨rows, hnd⟩ := t
  simp only [get?, update, List.find?_map]
  clear hnd
  induction rows with
  | nil => rfl
  | cons a rows ih =>
      by_cases ha : key a = k
      · simp [ha, hf]
      · simp only [List.find?_cons, Function.comp_apply, ha, if_false, decide_false]
        exact ih

theorem get?_update_of_ne (t : RowTable κ ρ key) {k k' : κ} (hk : k' ≠ k) (f : ρ → ρ)
    (hf : ∀ r, key (f r) = key r) : (t.update k f hf).get? k' = t.get? k' := by
  obtain ⟨rows, hnd⟩ := t
  simp only [get?, update]
  clear hnd
  induction rows with
  | nil => rfl
  | cons a rows ih =>
      simp only [List.map_cons, List.find?_cons]
      by_cases ha : key a = k
      · have hne : decide (k = k') = false := decide_eq_false (Ne.symm hk)
        simp only [ha, if_true, hf, hne]
        exact ih
      · simp only [ha, if_false]
        by_cases ha' : key a = k'
        · simp [ha']
        · simp only [ha', decide_false]
          exact ih

theorem update_eq_self (t : RowTable κ ρ key) {k : κ} {f : ρ → ρ} (hf : ∀ r, key (f r) = key r)
    (h : ∀ r, t.get? k = some r → f r = r) :
    t.update k f hf = t := by
  have hrows : t.rows.map (fun r => if key r = k then f r else r) = t.rows := by
    refine (List.map_congr_left fun r hr => ?_).trans (List.map_id _)
    split_ifs with hkey
    · exact h r (hkey ▸ get?_of_mem hr)
    · rfl
  obtain ⟨rows, hnodup⟩ := t
  simp only [update, hrows]

theorem update_update (t : RowTable κ ρ key) (k : κ) {f g : ρ → ρ}
    (hf : ∀ r, key (f r) = key r) (hg : ∀ r, key (g r) = key r) :
    (t.update k f hf).update k g hg =
      t.update k (fun r => g (f r)) fun r => (hg (f r)).trans (hf r) := by
  simp only [update, mk.injEq, List.map_map]
  apply List.map_congr_left
  intro r _
  by_cases hkey : key r = k
  · simp [hkey, hf]
  · simp [hkey]

/-- A row whose key is taken is not inserted. -/
theorem insert_eq_self {t : RowTable κ ρ key} {r r' : ρ} (h : t.get? (key r) = some r') :
    t.insert r = t := by
  unfold insert
  rw [dif_pos]
  exact List.mem_map.mpr ⟨r', get?_some_mem h, get?_some_key h⟩

theorem get?_insert_self {t : RowTable κ ρ key} {r : ρ} (h : t.get? (key r) = none) :
    (t.insert r).get? (key r) = some r := by
  simp only [insert, dif_neg (get?_none_notMem h), get?] at h ⊢
  simp [List.find?_append, h]

theorem get?_insert_of_ne (t : RowTable κ ρ key) {r : ρ} {k : κ} (hk : k ≠ key r) :
    (t.insert r).get? k = t.get? k := by
  unfold insert
  split_ifs
  · rfl
  · simp [get?, List.find?_append, hk.symm]

theorem get?_insert_of_some {t : RowTable κ ρ key} {r r' : ρ} {k : κ} (h : t.get? k = some r') :
    (t.insert r).get? k = some r' := by
  unfold insert
  split_ifs
  · exact h
  · simp only [get?] at h ⊢
    simp [List.find?_append, h]

/-! ## Properties of every row -/

theorem rows_insert {t : RowTable κ ρ key} {r : ρ} (h : t.get? (key r) = none) :
    (t.insert r).rows = t.rows ++ [r] := by
  unfold insert
  rw [dif_neg (get?_none_notMem h)]

theorem mem_rows_insert {t : RowTable κ ρ key} {r r' : ρ} (h : r' ∈ (t.insert r).rows) :
    r' ∈ t.rows ∨ r' = r := by
  unfold insert at h
  split_ifs at h
  · exact .inl h
  · simpa using h

theorem mem_rows_of_delete {t : RowTable κ ρ key} {k : κ} {r : ρ} (h : r ∈ (t.delete k).rows) :
    r ∈ t.rows := List.mem_of_mem_filter h

theorem get?_delete (t : RowTable κ ρ key) (k k' : κ) :
    (t.delete k).get? k' = if k' = k then none else t.get? k' := by
  split_ifs with hk
  · rw [get?, List.find?_eq_none]
    intro r hr
    have hne := of_decide_eq_true (List.mem_filter.mp hr).2
    rwa [hk, decide_eq_true_eq]
  · rw [get?, get?, delete, List.find?_filter]
    congr 1
    funext r
    rw [decide_eq_decide, decide_eq_true_eq, decide_eq_true_eq]
    refine ⟨fun h => h.2, fun h => ⟨fun hr => ?_, h⟩⟩
    exact hk (h.symm.trans hr)

theorem mem_rows_deleteAll {t : RowTable κ ρ key} {ks : List κ} {r : ρ} :
    r ∈ (ks.foldl delete t).rows ↔ r ∈ t.rows ∧ key r ∉ ks := by
  induction ks generalizing t with
  | nil => simp
  | cons k ks ih =>
      rw [List.foldl_cons, ih]
      simp only [delete, List.mem_filter, decide_eq_true_eq, List.mem_cons, not_or, and_assoc]

theorem mem_rows_update {t : RowTable κ ρ key} {k : κ} {f : ρ → ρ}
    (hf : ∀ r, key (f r) = key r) {r' : ρ} (h : r' ∈ (t.update k f hf).rows) :
    (r' ∈ t.rows ∧ key r' ≠ k) ∨ ∃ r, t.get? k = some r ∧ r' = f r := by
  obtain ⟨r, hr, he⟩ := List.mem_map.mp h
  split_ifs at he with hk
  · exact .inr ⟨r, hk ▸ get?_of_mem hr, he.symm⟩
  · exact .inl ⟨he ▸ hr, he ▸ hk⟩

/-! ## Totals -/

theorem total_insert {t : RowTable κ ρ key} {r : ρ} (h : t.get? (key r) = none) (f : ρ → ℤ) :
    (t.insert r).total f = t.total f + f r := by
  unfold total insert
  rw [dif_neg (get?_none_notMem h)]
  simp

omit [DecidableEq κ] in
theorem total_congr {t : RowTable κ ρ key} {f g : ρ → ℤ} (h : ∀ r ∈ t.rows, f r = g r) :
    t.total f = t.total g := by
  unfold total
  rw [List.map_congr_left h]

omit [DecidableEq κ] in
theorem total_eq_zero {t : RowTable κ ρ key} {f : ρ → ℤ} (h : ∀ r ∈ t.rows, f r = 0) :
    t.total f = 0 := by
  unfold total
  apply List.sum_eq_zero
  intro x hx
  obtain ⟨r, hr, rfl⟩ := List.mem_map.mp hx
  exact h r hr

omit [DecidableEq κ] in
theorem total_nonneg {t : RowTable κ ρ key} {f : ρ → ℤ} (h : ∀ r ∈ t.rows, 0 ≤ f r) :
    0 ≤ t.total f := by
  apply List.sum_nonneg
  intro x hx
  obtain ⟨r, hr, rfl⟩ := List.mem_map.mp hx
  exact h r hr

/-- Two column expressions that agree outside the row of `k` have totals that
differ by that row's entries. -/
theorem total_eq_off {t : RowTable κ ρ key} {k : κ} {r : ρ} (hr : t.get? k = some r)
    {f g : ρ → ℤ} (h : ∀ r' ∈ t.rows, key r' ≠ k → g r' = f r') :
    t.total g = t.total f - f r + g r := by
  obtain ⟨rows, hnd⟩ := t
  simp only [get?, total] at *
  induction rows with
  | nil => cases hr
  | cons a rows ih =>
      simp only [List.map_cons, List.nodup_cons, List.sum_cons] at *
      by_cases ha : key a = k
      · have hra : a = r := by simpa [ha] using hr
        subst hra
        have hrest : rows.map g = rows.map f := by
          apply List.map_congr_left
          intro r' hr'
          refine h r' (List.mem_cons_of_mem a hr') (fun he => hnd.1 ?_)
          exact ha ▸ he ▸ List.mem_map_of_mem hr'
        rw [hrest]
        ring
      · rw [List.find?_cons_of_neg (by simpa using ha)] at hr
        have hrest := ih hnd.2 hr (fun r' hr' => h r' (List.mem_cons_of_mem a hr'))
        rw [hrest, h a List.mem_cons_self ha]
        ring

theorem total_update {t : RowTable κ ρ key} {k : κ} {r : ρ} (hr : t.get? k = some r)
    (f : ρ → ρ) (hf : ∀ r, key (f r) = key r) (g : ρ → ℤ) :
    (t.update k f hf).total g = t.total g - g r + g (f r) := by
  have he : (t.update k f hf).total g = t.total (fun r' => if key r' = k then g (f r') else g r') := by
    unfold total update
    rw [List.map_map]
    congr 1
    apply List.map_congr_left
    intro r' _
    simp only [Function.comp_apply]
    split_ifs <;> rfl
  rw [he, total_eq_off (f := g) hr]
  · rw [if_pos (get?_some_key hr)]
  · intro r' _ hne
    exact if_neg hne

omit [DecidableEq κ] in
theorem le_total {t : RowTable κ ρ key} {f : ρ → ℤ} (h : ∀ r ∈ t.rows, 0 ≤ f r) {r : ρ}
    (hr : r ∈ t.rows) : f r ≤ t.total f :=
  List.single_le_sum (fun x hx => by
    obtain ⟨r', hr', rfl⟩ := List.mem_map.mp hx
    exact h r' hr') _ (List.mem_map_of_mem hr)

end RowTable
