import Zyntry.RowTable

/-!
# Rows that exclude each other

`Exclusive P t` says that no two rows of a table stand in the relation `P`, as two rows with
one value in a column that ought to be unique would. It is kept by every write whose row
stands in the relation to none of the other rows.
-/

namespace RowTable

variable {κ ρ : Type} {key : ρ → κ} [DecidableEq κ] {P : ρ → ρ → Prop} {t : RowTable κ ρ key}

def Exclusive (P : ρ → ρ → Prop) (t : RowTable κ ρ key) : Prop :=
  ∀ r ∈ t.rows, ∀ r' ∈ t.rows, P r r' → key r = key r'

omit [DecidableEq κ] in
theorem exclusive_empty : Exclusive P (default : RowTable κ ρ key) := by
  intro r hr
  cases hr

theorem Exclusive.insert (h : Exclusive P t) (hsymm : ∀ r r', P r r' → P r' r) {row : ρ}
    (hrow : ∀ r ∈ t.rows, ¬P r row) : Exclusive P (t.insert row) := by
  intro r hr r' hr' hP
  rcases mem_rows_insert hr with hold | rfl
  · rcases mem_rows_insert hr' with hold' | rfl
    · exact h r hold r' hold' hP
    · exact absurd hP (hrow r hold)
  · rcases mem_rows_insert hr' with hold' | rfl
    · exact absurd (hsymm _ _ hP) (hrow r' hold')
    · rfl

theorem Exclusive.update (h : Exclusive P t) (hsymm : ∀ r r', P r r' → P r' r) {k : κ}
    {f : ρ → ρ} (hf : ∀ r, key (f r) = key r)
    (hrow : ∀ row, t.get? k = some row → ∀ r ∈ t.rows, key r ≠ k → ¬P r (f row)) :
    Exclusive P (t.update k f hf) := by
  intro r hr r' hr' hP
  rcases mem_rows_update hf hr with ⟨hold, hne⟩ | ⟨row, hrow₀, rfl⟩
  · rcases mem_rows_update hf hr' with ⟨hold', _⟩ | ⟨row', hrow', rfl⟩
    · exact h r hold r' hold' hP
    · exact absurd hP (hrow row' hrow' r hold hne)
  · rcases mem_rows_update hf hr' with ⟨hold', hne'⟩ | ⟨row', hrow', rfl⟩
    · exact absurd (hsymm _ _ hP) (hrow row hrow₀ r' hold' hne')
    · rw [Option.some.inj (hrow₀.symm.trans hrow')]

/-- A write that makes no new relation. -/
theorem Exclusive.update_of_imp (h : Exclusive P t) (hsymm : ∀ r r', P r r' → P r' r) {k : κ}
    {f : ρ → ρ} (hf : ∀ r, key (f r) = key r)
    (himp : ∀ row, t.get? k = some row → ∀ r, P r (f row) → P r row) :
    Exclusive P (t.update k f hf) := by
  refine h.update hsymm hf fun row hrow r hr hne hP => hne ?_
  exact (h r hr row (get?_some_mem hrow) (himp row hrow r hP)).trans (get?_some_key hrow)

end RowTable
