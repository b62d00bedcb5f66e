import Zyntry.SqlCommits

/-!
# Tokens that are renewed

Commits may open a chain with its first tokens, renew a token by new ones, or end the chain
of a token. If only live tokens are renewed and an end leaves no live token in its chain,
then no token that ever descends from the chain's beginning is live after the end.
-/

namespace SqlProgram

/-- What the labels of commits say about tokens. -/
structure Renewals (L T : Type) where
  opened : L → List T
  /-- The token presented and the ones issued for it. -/
  renewed : L → Option (T × List T)
  ended : L → Option T
  renewed_of_ended : ∀ l t, ended l = some t → renewed l = none

namespace Renewals

variable {L T D : Type} {ρ : Renewals L T}

/-- The tokens that come, directly or by renewals, from a commit of the log. -/
inductive Descends (ρ : Renewals L T) (log : List L) (login : L) : T → Prop
  | opened {t : T} : login ∈ log → t ∈ ρ.opened login → Descends ρ log login t
  | renewed {p t : T} {l : L} {issued : List T} : Descends ρ log login p → l ∈ log →
      ρ.renewed l = some (p, issued) → t ∈ issued → Descends ρ log login t

namespace Descends

variable {log : List L} {login l : L} {t : T}

theorem login_mem (h : ρ.Descends log login t) : login ∈ log := by
  induction h with
  | opened hmem _ => exact hmem
  | renewed _ _ _ _ ih => exact ih

theorem append (h : ρ.Descends log login t) (later : List L) :
    ρ.Descends (log ++ later) login t := by
  induction h with
  | opened hmem ht => exact .opened (List.mem_append_left later hmem) ht
  | renewed _ hl hrenewed ht ih => exact .renewed ih (List.mem_append_left later hl) hrenewed ht

/-- A property of the first tokens that renewals hand on holds in the whole chain. -/
theorem of_closed {P : T → Prop} (h : ρ.Descends log login t)
    (hopened : ∀ t ∈ ρ.opened login, P t)
    (hrenewed : ∀ l ∈ log, ∀ p issued, ρ.renewed l = some (p, issued) → P p →
      ∀ t ∈ issued, P t) : P t := by
  induction h with
  | opened _ ht => exact hopened _ ht
  | renewed _ hl hrenew ht ih => exact hrenewed _ hl _ _ hrenew ih _ ht

/-- Without renewals a chain is what its first commit has issued. -/
theorem mem_opened (h : ρ.Descends log login t) (hnone : ∀ l ∈ log, ρ.renewed l = none) :
    login ∈ log ∧ t ∈ ρ.opened login := by
  cases h with
  | opened hmem ht => exact ⟨hmem, ht⟩
  | renewed _ hl hrenewed _ =>
      rw [hnone _ hl] at hrenewed
      cases hrenewed

/-- A commit that renews no token of the chain adds none to it. -/
theorem of_concat (hmem : login ∈ log)
    (hother : ∀ p issued, ρ.renewed l = some (p, issued) → ¬ρ.Descends log login p)
    (h : ρ.Descends (log ++ [l]) login t) : ρ.Descends log login t := by
  induction h with
  | opened _ ht => exact .opened hmem ht
  | renewed _ hl hrenewed ht ih =>
      rcases List.mem_append.1 hl with hl | hl
      · exact .renewed ih hl hrenewed ht
      · obtain rfl := List.mem_singleton.1 hl
        exact absurd ih (hother _ _ hrenewed)

end Descends

/-! ## Chains that have ended -/

section Dead

-- `P d t` says that the token `t` is dead in `d`
variable {G : List L → L → D → D → Prop} {P : D → T → Prop}
  (hstay : ∀ log l d d', G log l d d' → ∀ t, P d t → P d' t)
  (hlive : ∀ log l d d', G log l d d' → ∀ p issued, ρ.renewed l = some (p, issued) → ¬P d p)
include hstay hlive

theorem forall_dead_commit {log : List L} {l login : L} {d d' : D} (hg : G log l d d')
    (hmem : login ∈ log) (h : ∀ t, ρ.Descends log login t → P d t) :
    ∀ t, ρ.Descends (log ++ [l]) login t → P d' t := by
  intro t ht
  have hother : ∀ p issued, ρ.renewed l = some (p, issued) → ¬ρ.Descends log login p :=
    fun p issued hrenewed hp => hlive log l d d' hg p issued hrenewed (h p hp)
  exact hstay log l d d' hg t (h t (ht.of_concat hmem hother))

/-- After the end of a chain none of its tokens is live, whenever it was issued. -/
theorem dead_of_ended {log₀ log : List L} {d₀ d : D} (h : History G log₀ d₀ log d)
    (hended : ∀ log l d d', G log l d d' → ∀ t login, ρ.ended l = some t →
      ρ.Descends log login t → ∀ t', ρ.Descends log login t' → P d' t')
    (h₀ : ∀ l ∈ log₀, ρ.ended l = none) {before later : List L} {l login : L} {t : T}
    (hsplit : log = before ++ l :: later) (hl : ρ.ended l = some t)
    (hlogin : ρ.Descends before login t) : ∀ t', ρ.Descends log login t' → P d t' := by
  induction h generalizing before later with
  | start =>
      have hnone := h₀ l (by simp [hsplit])
      rw [hl] at hnone
      cases hnone
  | commit l' hhist hg ih =>
      rename_i log d d'
      rcases List.eq_nil_or_concat later with rfl | ⟨later, last, rfl⟩
      · obtain ⟨rfl, hlast⟩ := List.append_inj' hsplit rfl
        obtain rfl : l' = l := by simpa using hlast
        intro t' ht'
        have hother : ∀ p issued, ρ.renewed l' = some (p, issued) →
            ¬ρ.Descends log login p := by
          intro p issued hrenewed
          rw [ρ.renewed_of_ended l' t hl] at hrenewed
          cases hrenewed
        exact hended log l' d d' hg t login hl hlogin t' (ht'.of_concat hlogin.login_mem hother)
      · have hsplit' : log = before ++ l :: later := by
          have hinit : (before ++ l :: later) ++ [last] = log ++ [l'] := by simp [hsplit]
          exact (List.append_inj' hinit rfl).1.symm
        have hmem : login ∈ log := by
          rw [hsplit']
          exact List.mem_append_left _ hlogin.login_mem
        exact forall_dead_commit hstay hlive hg hmem (ih hsplit' hlogin)

end Dead

end Renewals
end SqlProgram
