import Mathlib.Data.List.Basic

/-!
# Runs of calls

A step function plays one call after another. `Along P` asks each call of a run to meet
`P` in the state that it finds, and an invariant that such calls keep holds at the end.
-/

namespace StepRuns

variable {σ κ : Type*} (step : σ → κ → σ)

def Along (P : σ → κ → Prop) : σ → List κ → Prop
  | _, [] => True
  | s, c :: calls => P s c ∧ Along P (step s c) calls

instance instDecidableAlong {P : σ → κ → Prop} [∀ s c, Decidable (P s c)] :
    (s : σ) → (calls : List κ) → Decidable (Along step P s calls)
  | _, [] => .isTrue trivial
  | s, c :: calls =>
      have : Decidable (Along step P (step s c) calls) := instDecidableAlong (step s c) calls
      inferInstanceAs (Decidable (P s c ∧ Along step P (step s c) calls))

variable {step}

theorem Along.invariant {P : σ → κ → Prop} {I : σ → Prop}
    (hstep : ∀ s c, I s → P s c → I (step s c)) {s : σ} {calls : List κ} (hs : I s)
    (h : Along step P s calls) : I (calls.foldl step s) := by
  induction calls generalizing s with
  | nil => exact hs
  | cons c calls ih => exact ih (hstep s c hs h.1) h.2

theorem Along.and {P Q : σ → κ → Prop} {s : σ} {calls : List κ} (hP : Along step P s calls)
    (hQ : Along step Q s calls) : Along step (fun s c => P s c ∧ Q s c) s calls := by
  induction calls generalizing s with
  | nil => trivial
  | cons c calls ih => exact ⟨⟨hP.1, hQ.1⟩, ih hP.2 hQ.2⟩

/-- What a condition means in the states of an invariant holds along a run of such calls. -/
theorem Along.imp {P Q : σ → κ → Prop} {I : σ → Prop} (himp : ∀ s c, I s → P s c → Q s c)
    (hstep : ∀ s c, I s → P s c → I (step s c)) {s : σ} {calls : List κ} (hs : I s)
    (h : Along step P s calls) : Along step Q s calls := by
  induction calls generalizing s with
  | nil => trivial
  | cons c calls ih => exact ⟨himp s c hs h.1, ih (hstep s c hs h.1) h.2⟩

/-- Two conditions that agree on every state of an invariant hold along the same runs. -/
theorem along_congr {P Q : σ → κ → Prop} {I : σ → Prop}
    (hiff : ∀ s c, I s → (P s c ↔ Q s c)) (hstep : ∀ s c, I s → P s c → I (step s c)) {s : σ}
    {calls : List κ} (hs : I s) : Along step P s calls ↔ Along step Q s calls := by
  induction calls generalizing s with
  | nil => exact Iff.rfl
  | cons c calls ih =>
      rw [Along, Along, ← hiff s c hs]
      exact and_congr_right fun hc => ih (hstep s c hs hc)

theorem along_append {P : σ → κ → Prop} {s : σ} {calls calls' : List κ} :
    Along step P s (calls ++ calls') ↔
      Along step P s calls ∧ Along step P (calls.foldl step s) calls' := by
  induction calls generalizing s with
  | nil => simp [Along]
  | cons c calls ih =>
      rw [List.cons_append, Along, Along, ih, List.foldl_cons, and_assoc]

end StepRuns
