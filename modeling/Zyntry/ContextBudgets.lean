import Zyntry.ContextManager

/-!
# Budgets within a context

The parts of a budget are kept above floors: 256 tokens of output, 256 tokens of margin and one
token of input. They add up to the context of the model exactly if the floors and the output that
is asked for leave a token of it.
-/

namespace Zyntry

/-- The parts of a budget lie within the context of the model. -/
def ContextBudget.Fits (b : ContextBudget) : Prop :=
  b.workingInput + b.reservedOutput + b.safetyMargin ≤ b.modelContext

/-- A budget is returned, it fits, and so does every input that it admits. -/
def ContextManager.FitsContext (manager : ContextManager) (provider model : Option String)
    (requestedOutputTokens contextOverride : Option ℤ) : Prop :=
  ∃ b, manager.budgetFor provider model requestedOutputTokens contextOverride = .ok b ∧
    b.Fits ∧ ∀ input ≤ b.workingInput, input + b.reservedOutput ≤ b.modelContext

/-- Without the margin, more of the context is left than 256 tokens and than the smaller of the
output that is asked for and the output limit of the model. -/
def ContextManager.LeavesInput (manager : ContextManager) (provider model : Option String)
    (requestedOutputTokens contextOverride : Option ℤ) : Prop :=
  let info := modelInfoFor provider model (intOr contextOverride 128000)
  let context := max 1 (intOr contextOverride info.maxContext)
  ∃ margin, scaled context manager.safetyRatio = .ok margin ∧
    256 < context - max 256 margin ∧
    min (intOr requestedOutputTokens manager.defaultOutputTokens)
      (intOr (some info.maxOutputTokens) manager.defaultOutputTokens) <
        context - max 256 margin

theorem fits_iff {modelContext reservedOutput safetyMargin : ℤ}
    (h : 0 < max 1 (modelContext - reservedOutput - safetyMargin)) :
    (⟨modelContext, reservedOutput, safetyMargin, _, h⟩ : ContextBudget).Fits ↔
      reservedOutput < modelContext - safetyMargin := by
  unfold ContextBudget.Fits
  dsimp only
  omega

/-- A budget fits the context of the model exactly if the floors and the output leave a token. -/
theorem budgetFor_fitsContext_iff (manager : ContextManager) (provider model : Option String)
    (requestedOutputTokens contextOverride : Option ℤ) :
    manager.FitsContext provider model requestedOutputTokens contextOverride ↔
      manager.LeavesInput provider model requestedOutputTokens contextOverride := by
  unfold ContextManager.FitsContext ContextManager.LeavesInput ContextManager.budgetFor
  dsimp only
  cases hscaled : scaled (max 1 (intOr contextOverride
      (modelInfoFor provider model (intOr contextOverride 128000)).maxContext))
      manager.safetyRatio with
  | error e => simp
  | ok margin =>
      constructor
      · rintro ⟨b, hb, hfits, -⟩
        cases hb
        have hleft := (fits_iff _).mp hfits
        exact ⟨margin, rfl, by omega, by omega⟩
      · rintro ⟨_, hmargin, hfloor, houtput⟩
        cases hmargin
        refine ⟨_, rfl, (fits_iff _).mpr (by omega), fun input hinput => ?_⟩
        dsimp only at hinput ⊢
        omega

/-- 8192 tokens of output in a context of 4096. -/
theorem budgetFor_exceeds_context :
    ¬({} : ContextManager).FitsContext (some "openai") (some "gpt-4o") (some 8192) (some 4096) := by
  rintro ⟨b, hb, hfits, -⟩
  have hbudget : ({} : ContextManager).budgetFor (some "openai") (some "gpt-4o") (some 8192)
      (some 4096) = .ok ⟨4096, 8192, 327, 1, by decide⟩ := by decide +kernel
  cases hbudget.symm.trans hb
  exact absurd ((fits_iff _).mp hfits) (by decide)

end Zyntry
