import Mathlib.Logic.Relation
import Mathlib.Order.Basic
import Mathlib.Data.Nat.Notation

/-!
# Loops that need not end

A `while` loop as its body: from a state, a round either goes on with another state or
leaves the loop with a result. The loop is run for a number of rounds, and it ends if
some number of rounds is enough.
-/

namespace While

variable {σ β : Type*} {round : σ → σ ⊕ β}

/-- What the loop leaves with, if it does so within `n` rounds. -/
def run (round : σ → σ ⊕ β) : ℕ → σ → Option β
  | 0, _ => none
  | n + 1, s =>
      match round s with
      | .inl s' => run round n s'
      | .inr b => some b

def Ends (round : σ → σ ⊕ β) (s : σ) : Prop := ∃ n, (run round n s).isSome

theorem run_succ_of_inl {s s' : σ} (h : round s = .inl s') (n : ℕ) :
    run round (n + 1) s = run round n s' := by
  simp only [run, h]

theorem run_succ_of_inr {s : σ} {b : β} (h : round s = .inr b) (n : ℕ) :
    run round (n + 1) s = some b := by
  simp only [run, h]

/-- More rounds than are needed change nothing. -/
theorem run_mono {n m : ℕ} {s : σ} {b : β} (hrun : run round n s = some b) (hle : n ≤ m) :
    run round m s = some b := by
  induction n generalizing m s with
  | zero => cases hrun
  | succ n ih =>
    obtain ⟨m, rfl⟩ : ∃ k, m = k + 1 := ⟨m - 1, by omega⟩
    cases hround : round s with
    | inl s' =>
      rw [run_succ_of_inl hround] at hrun ⊢
      exact ih hrun (by omega)
    | inr b' =>
      rw [run_succ_of_inr hround] at hrun ⊢
      exact hrun

theorem run_unique {n m : ℕ} {s : σ} {b b' : β} (hn : run round n s = some b)
    (hm : run round m s = some b') : b = b' := by
  rcases Nat.le_total n m with hle | hle
  · exact Option.some.inj ((run_mono hn hle).symm.trans hm)
  · exact Option.some.inj (hn.symm.trans (run_mono hm hle))

/-- What holds at the start and is kept by every round holds when the loop leaves. -/
theorem run_invariant {I : σ → Prop} (hstep : ∀ s s', I s → round s = .inl s' → I s') {n : ℕ}
    {s : σ} {b : β} (hrun : run round n s = some b) (hs : I s) :
    ∃ s', I s' ∧ round s' = .inr b := by
  induction n generalizing s with
  | zero => cases hrun
  | succ n ih =>
    cases hround : round s with
    | inl s' =>
      rw [run_succ_of_inl hround] at hrun
      exact ih hrun (hstep s s' hs hround)
    | inr b' =>
      rw [run_succ_of_inr hround] at hrun
      cases hrun
      exact ⟨s, hs, hround⟩

/-- A measure that every round decreases, as long as an invariant holds. -/
theorem ends_of_measure {I : σ → Prop} (μ : σ → ℕ)
    (hstep : ∀ s s', I s → round s = .inl s' → I s' ∧ μ s' < μ s) {s : σ} (hs : I s) :
    Ends round s := by
  induction hμ : μ s using Nat.strongRecOn generalizing s with
  | ind k ih =>
    cases hround : round s with
    | inl s' =>
      obtain ⟨hs', hlt⟩ := hstep s s' hs hround
      obtain ⟨n, hn⟩ := ih (μ s') (hμ ▸ hlt) hs' rfl
      exact ⟨n + 1, by rwa [run_succ_of_inl hround]⟩
    | inr b => exact ⟨1, by rw [run_succ_of_inr hround]; rfl⟩

/-- A condition under which every round goes on, and comes to the condition again. -/
theorem not_ends_of_invariant {I : σ → Prop} (hstep : ∀ s, I s → ∃ s', round s = .inl s' ∧ I s')
    {s : σ} (hs : I s) : ¬Ends round s := by
  rintro ⟨n, hn⟩
  obtain ⟨b, hb⟩ := Option.isSome_iff_exists.mp hn
  have hkeep : ∀ s s', I s → round s = .inl s' → I s' := by
    intro s s' hs hround
    obtain ⟨s'', hround', hs''⟩ := hstep s hs
    cases hround.symm.trans hround'
    exact hs''
  obtain ⟨s', hs', hleave⟩ := run_invariant hkeep hb hs
  obtain ⟨s'', hgoes, _⟩ := hstep s' hs'
  cases hleave.symm.trans hgoes

/-- The states that the loop comes to. -/
def Reaches (round : σ → σ ⊕ β) : σ → σ → Prop :=
  Relation.ReflTransGen fun s s' => round s = .inl s'

theorem Reaches.invariant {I : σ → Prop} {s s' : σ} (h : Reaches round s s')
    (hstep : ∀ s₁ s₂, I s₁ → round s₁ = .inl s₂ → I s₂) (hs : I s) : I s' := by
  induction h with
  | refl => exact hs
  | tail _ hround ih => exact hstep _ _ ih hround

theorem Reaches.run {s s' : σ} {b : β} {n : ℕ} (h : Reaches round s s')
    (hrun : While.run round n s = some b) : ∃ m, While.run round m s' = some b := by
  induction h with
  | refl => exact ⟨n, hrun⟩
  | tail _ hround ih =>
      obtain ⟨m, hm⟩ := ih
      cases m with
      | zero => cases hm
      | succ m => exact ⟨m, by rwa [run_succ_of_inl hround] at hm⟩

/-- The loop leaves from a state that it comes to. -/
theorem reaches_of_run {s : σ} {b : β} {n : ℕ} (hrun : run round n s = some b) :
    ∃ s', Reaches round s s' ∧ round s' = .inr b := by
  refine run_invariant (I := Reaches round s) (fun s₁ s₂ hs₁ hround => ?_) hrun ?_
  · exact hs₁.tail hround
  · exact Relation.ReflTransGen.refl

/-- What every round increases, up to a bound. -/
theorem ends_of_bound (μ : σ → ℕ) (bound : ℕ) {s : σ}
    (hstep : ∀ s₁ s₂, Reaches round s s₁ → round s₁ = .inl s₂ → μ s₁ < μ s₂)
    (hbound : ∀ s', Reaches round s s' → μ s' ≤ bound) : Ends round s := by
  refine ends_of_measure (I := Reaches round s) (fun s' => bound - μ s') ?_ .refl
  intro s₁ s₂ hs₁ hround
  have hs₂ : Reaches round s s₂ := hs₁.tail hround
  have hlt := hstep s₁ s₂ hs₁ hround
  have hle := hbound s₂ hs₂
  exact ⟨hs₂, by omega⟩

/-- Two loops after each other, run for the same number of rounds. -/
theorem isSome_bind_iff {τ γ : Type*} {round' : τ → τ ⊕ γ} {f : β → τ} {s : σ} :
    (∃ n, ((run round n s).bind fun b => run round' n (f b)).isSome) ↔
      ∃ b, (∃ n, run round n s = some b) ∧ Ends round' (f b) := by
  constructor
  · rintro ⟨n, hn⟩
    obtain ⟨c, hc⟩ := Option.isSome_iff_exists.mp hn
    obtain ⟨b, hb, hrun⟩ := Option.bind_eq_some_iff.mp hc
    exact ⟨b, ⟨n, hb⟩, n, by rw [hrun]; rfl⟩
  · rintro ⟨b, ⟨n, hb⟩, m, hm⟩
    obtain ⟨c, hc⟩ := Option.isSome_iff_exists.mp hm
    refine ⟨n + m, ?_⟩
    rw [run_mono hb (by omega), Option.bind_some, run_mono hc (by omega)]
    rfl

end While
