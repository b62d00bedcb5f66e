import Zyntry.RowTable

/-!
# References between tables

The rows of one table may name a row of another one by its key. `Refers` says that every
such name is the key of a row, and that the two rows stand in a relation. Writes to either
table keep it as long as the written row is related to what it names, or to what names it.
-/

namespace RowTable

variable {κ ρ κ' ρ' : Type} {key : ρ → κ} {key' : ρ' → κ'} [DecidableEq κ] [DecidableEq κ']
  {name : ρ → Option κ'} {R : ρ → ρ' → Prop} {t : RowTable κ ρ key} {u : RowTable κ' ρ' key'}

def Refers (name : ρ → Option κ') (R : ρ → ρ' → Prop) (t : RowTable κ ρ key)
    (u : RowTable κ' ρ' key') : Prop :=
  ∀ k r, t.get? k = some r → ∀ k', name r = some k' → ∃ r', u.get? k' = some r' ∧ R r r'

theorem Refers.empty : Refers name R (default : RowTable κ ρ key) u := by
  intro k r hr
  cases hr

theorem Refers.insert_target (h : Refers name R t u) (r' : ρ') : Refers name R t (u.insert r') := by
  intro k r hr k' hk'
  obtain ⟨r'', hr'', hR⟩ := h k r hr k' hk'
  exact ⟨r'', get?_insert_of_some hr'', hR⟩

/-- The rows that name the written one are related to what it becomes. -/
theorem Refers.update_target_of (h : Refers name R t u) {k' : κ'} {f : ρ' → ρ'}
    (hf : ∀ r', key' (f r') = key' r')
    (hR : ∀ k r, t.get? k = some r → name r = some k' → ∀ r', u.get? k' = some r' → R r r' →
      R r (f r')) :
    Refers name R t (u.update k' f hf) := by
  intro k r hr k'' hk''
  obtain ⟨r'', hr'', hR''⟩ := h k r hr k'' hk''
  by_cases he : k'' = k'
  · subst he
    exact ⟨f r'', by rw [get?_update_self, hr'']; rfl, hR k r hr hk'' r'' hr'' hR''⟩
  · exact ⟨r'', by rw [get?_update_of_ne u he]; exact hr'', hR''⟩

theorem Refers.update_target (h : Refers name R t u) {k' : κ'} {f : ρ' → ρ'}
    (hf : ∀ r', key' (f r') = key' r') (hR : ∀ r r', R r r' → R r (f r')) :
    Refers name R t (u.update k' f hf) :=
  h.update_target_of hf fun _ r _ _ r' _ => hR r r'

theorem Refers.insert_row (h : Refers name R t u) {r : ρ}
    (hr : ∀ k', name r = some k' → ∃ r', u.get? k' = some r' ∧ R r r') :
    Refers name R (t.insert r) u := by
  intro k r₁ hr₁ k' hk'
  by_cases he : k = key r
  · cases hold : t.get? k with
    | some r₂ =>
        obtain rfl : r₂ = r₁ := Option.some.inj ((get?_insert_of_some hold).symm.trans hr₁)
        exact h k r₂ hold k' hk'
    | none =>
        subst he
        obtain rfl : r = r₁ := Option.some.inj ((get?_insert_self hold).symm.trans hr₁)
        exact hr k' hk'
  · rw [get?_insert_of_ne t he] at hr₁
    exact h k r₁ hr₁ k' hk'

theorem Refers.update_row (h : Refers name R t u) {k : κ} {f : ρ → ρ}
    (hf : ∀ r, key (f r) = key r)
    (hr : ∀ r, t.get? k = some r → ∀ k', name (f r) = some k' →
      ∃ r', u.get? k' = some r' ∧ R (f r) r') :
    Refers name R (t.update k f hf) u := by
  intro k₁ r₁ hr₁ k' hk'
  by_cases he : k₁ = k
  · subst he
    rw [get?_update_self] at hr₁
    obtain ⟨r, hold, rfl⟩ := Option.map_eq_some_iff.mp hr₁
    exact hr r hold k' hk'
  · rw [get?_update_of_ne t he] at hr₁
    exact h k₁ r₁ hr₁ k' hk'

/-- One row of either table is written: the row must be related to what it then names, and
the other rows that name the target to what it becomes. -/
theorem Refers.update_both (h : Refers name R t u) {k : κ} {f : ρ → ρ}
    (hf : ∀ r, key (f r) = key r) {k' : κ'} {g : ρ' → ρ'} (hg : ∀ r', key' (g r') = key' r')
    (hrow : ∀ r, t.get? k = some r → ∀ x, name (f r) = some x →
      ∃ r', (u.update k' g hg).get? x = some r' ∧ R (f r) r')
    (hothers : ∀ i r, i ≠ k → t.get? i = some r → name r = some k' →
      ∀ r', u.get? k' = some r' → R r r' → R r (g r')) :
    Refers name R (t.update k f hf) (u.update k' g hg) := by
  intro i r hr x hx
  by_cases hi : i = k
  · subst hi
    rw [get?_update_self] at hr
    obtain ⟨r₀, hold, rfl⟩ := Option.map_eq_some_iff.mp hr
    exact hrow r₀ hold x hx
  · rw [get?_update_of_ne t hi] at hr
    obtain ⟨r', hr', hR⟩ := h i r hr x hx
    by_cases hx' : x = k'
    · subst hx'
      exact ⟨g r', by rw [get?_update_self, hr']; rfl, hothers i r hi hr hx r' hr' hR⟩
    · exact ⟨r', by rw [get?_update_of_ne u hx']; exact hr', hR⟩

end RowTable
