import Zyntry.SqlCommits

/-!
# What is used under a lock

A program takes a resource with a locking statement and uses it in the commit that ends the
transaction. If the resource is only taken while it is still unused, then it is used at most
once, whatever else happens in between and wherever sessions crash.
-/

namespace SqlProgram

variable {S D R L E α β : Type}

/-- How a resource is taken and used: statements that take it, and commits that use it. -/
structure Usage (R L : Type) where
  resource : R
  takes : L → Bool
  uses : L → Bool

variable {u : Usage R L} {owns : Prop}

/-- The program uses the resource only in a transaction that has taken it. -/
def Locked (u : Usage R L) : Prop → SqlProgram D R L E α → Prop
  | _, .ret _ => True
  | _, .raise _ => True
  | owns, .select _ next => ∀ d, (next d).Locked u owns
  | owns, .lock l rows next =>
      ∀ d, (next d).Locked u (owns ∨ u.takes l = true ∧ u.resource ∈ rows d)
  | owns, .commit l _ next => (u.uses l = true → owns) ∧ next.Locked u False

section Locked

@[simp] theorem locked_ret {a : α} :
    (ret a : SqlProgram D R L E α).Locked u owns ↔ True := Iff.rfl

@[simp] theorem locked_raise {e : E} :
    (raise e : SqlProgram D R L E α).Locked u owns ↔ True := Iff.rfl

@[simp] theorem locked_query {l : L} {f : D → β} {k : β → SqlProgram D R L E α} :
    (query l f >>= k).Locked u owns ↔ ∀ d, (k (f d)).Locked u owns := Iff.rfl

@[simp] theorem locked_locking {l : L} {rows : D → List R} {f : D → β}
    {k : β → SqlProgram D R L E α} : (locking l rows f >>= k).Locked u owns ↔
      ∀ d, (k (f d)).Locked u (owns ∨ u.takes l = true ∧ u.resource ∈ rows d) := Iff.rfl

@[simp] theorem locked_write {l : L} {w : D → D} {k : Unit → SqlProgram D R L E α} :
    (SqlProgram.write l w >>= k).Locked u owns ↔
      (u.uses l = true → owns) ∧ (k ()).Locked u False := Iff.rfl

@[simp] theorem locked_ensure {p : Prop} [Decidable p] {e : E}
    {k : Unit → SqlProgram D R L E α} :
    (ensure p e >>= k).Locked u owns ↔ (p → (k ()).Locked u owns) := by
  unfold ensure
  split_ifs with hp <;> simp [hp]

@[simp] theorem locked_orRaise {o : Option β} {e : E} {k : β → SqlProgram D R L E α} :
    (orRaise o e >>= k).Locked u owns ↔ ∀ b, o = some b → (k b).Locked u owns := by
  cases o <;> simp [orRaise]

theorem Locked.mono {p : SqlProgram D R L E α} {owns' : Prop} (h : p.Locked u owns)
    (ho : owns → owns') : p.Locked u owns' := by
  induction p generalizing owns owns' with
  | ret a => trivial
  | raise e => trivial
  | select l next ih => exact fun d => ih d (h d) ho
  | lock l rows next ih => exact fun d => ih d (h d) (Or.imp_left ho)
  | commit l write next ih => exact ⟨fun hl => ho (h.1 hl), h.2⟩

end Locked

namespace World

variable [DecidableEq S] [DecidableEq R]

/-- The statement of a session takes the resource only if nothing committed has used it. -/
def TakesUnused (u : Usage R L) (w : World S D R L E α) (s : S) : Prop :=
  match w.session s with
  | .lock l rows _ => u.takes l = true → u.resource ∈ rows w.db → ∀ l' ∈ w.log, u.uses l' = false
  | _ => True

/-- What has been taken is owned and unused, and it has been used at most once. -/
structure UsedUnderLock (u : Usage R L) (w : World S D R L E α) : Prop where
  sessions : ∀ s, ∃ owns : Prop, (w.session s).Locked u owns ∧
    (owns → w.owner u.resource = some s ∧ ∀ l ∈ w.log, u.uses l = false)
  once : w.log.countP u.uses ≤ 1

omit [DecidableEq S] in
theorem owner_claimed_other {w : World S D R L E α} {s t : S} {rows : List R} {r : R}
    (hfree : ∀ r ∈ rows, w.owner r = none ∨ w.owner r = some s) (hts : t ≠ s)
    (h : w.owner r = some t) : w.claimed s rows r = some t := by
  unfold claimed
  split_ifs with hr
  · rcases hfree r hr with hnone | hself
    · rw [hnone] at h
      cases h
    · rw [hself] at h
      exact absurd (Option.some.inj h).symm hts
  · exact h

omit [DecidableEq R] in
theorem owner_freed_other {w : World S D R L E α} {s t : S} {r : R} (hts : t ≠ s)
    (h : w.owner r = some t) : w.freed s r = some t := by
  unfold freed
  rw [h, if_neg fun heq => hts (Option.some.inj heq)]

theorem UsedUnderLock.step {w w' : World S D R L E α} {s : S} (h : UsedUnderLock u w)
    (hok : TakesUnused u w s) (hstep : w.step s = some w') : UsedUnderLock u w' := by
  obtain ⟨owns, hlocked, howns⟩ := h.sessions s
  cases stepped hstep with
  | ret hp =>
      refine ⟨fun t => ?_, h.once⟩
      by_cases hts : t = s
      · subst hts
        exact ⟨False, by simp [hp], False.elim⟩
      · obtain ⟨owns', hlocked', howns'⟩ := h.sessions t
        exact ⟨owns', hlocked', fun ho => ⟨owner_freed_other hts (howns' ho).1, (howns' ho).2⟩⟩
  | raise hp =>
      refine ⟨fun t => ?_, h.once⟩
      by_cases hts : t = s
      · subst hts
        exact ⟨False, by simp [hp], False.elim⟩
      · obtain ⟨owns', hlocked', howns'⟩ := h.sessions t
        exact ⟨owns', hlocked', fun ho => ⟨owner_freed_other hts (howns' ho).1, (howns' ho).2⟩⟩
  | select hp =>
      refine ⟨fun t => ?_, h.once⟩
      by_cases hts : t = s
      · subst hts
        rw [hp] at hlocked
        exact ⟨owns, by simpa only [goto, Function.update_self] using hlocked w.db, howns⟩
      · simpa only [goto, Function.update_of_ne hts] using h.sessions t
  | @lock l rows next hp hfree =>
      refine ⟨fun t => ?_, h.once⟩
      by_cases hts : t = s
      · subst hts
        rw [hp] at hlocked
        refine ⟨owns ∨ u.takes l = true ∧ u.resource ∈ rows w.db,
          by simpa only [goto, Function.update_self] using hlocked w.db, ?_⟩
        rintro (ho | ⟨htakes, hmem⟩)
        · refine ⟨?_, (howns ho).2⟩
          show (if u.resource ∈ rows w.db then some t else w.owner u.resource) = some t
          rw [(howns ho).1, ite_self]
        · simp only [TakesUnused, hp] at hok
          exact ⟨if_pos hmem, hok htakes hmem⟩
      · obtain ⟨owns', hlocked', howns'⟩ := h.sessions t
        refine ⟨owns', by simpa only [goto, Function.update_of_ne hts] using hlocked', fun ho => ?_⟩
        exact ⟨owner_claimed_other hfree hts (howns' ho).1, (howns' ho).2⟩
  | @commit l write next hp =>
      rw [hp] at hlocked
      obtain ⟨huses, hnext⟩ := hlocked
      constructor
      · intro t
        by_cases hts : t = s
        · subst hts
          exact ⟨False, by simpa only [goto, Function.update_self] using hnext, False.elim⟩
        · obtain ⟨owns', hlocked', howns'⟩ := h.sessions t
          refine ⟨owns', by simpa only [goto, Function.update_of_ne hts] using hlocked', fun ho => ?_⟩
          refine ⟨owner_freed_other hts (howns' ho).1, fun l' hl' => ?_⟩
          rcases List.mem_append.1 hl' with hold | hnew
          · exact (howns' ho).2 l' hold
          · obtain rfl := List.mem_singleton.1 hnew
            -- the resource cannot have two owners
            by_contra hused
            have hself := (howns (huses (by simpa using hused))).1
            rw [(howns' ho).1] at hself
            exact hts (Option.some.inj hself)
      · rw [List.countP_append, List.countP_singleton]
        split_ifs with hl
        · have hunused := (howns (huses hl)).2
          have hzero : w.log.countP u.uses = 0 :=
            List.countP_eq_zero.2 fun l' hl' => by simp [hunused l' hl']
          omega
        · exact h.once

omit [DecidableEq R] in
theorem UsedUnderLock.crash {w : World S D R L E α} (h : UsedUnderLock u w) (s : S) (e : E) :
    UsedUnderLock u (w.crash s e) := by
  refine ⟨fun t => ?_, h.once⟩
  by_cases hts : t = s
  · subst hts
    exact ⟨False, by simp [World.crash, goto], False.elim⟩
  · obtain ⟨owns, hlocked, howns⟩ := h.sessions t
    refine ⟨owns, by simpa only [World.crash, goto, Function.update_of_ne hts] using hlocked,
      fun ho => ⟨owner_freed_other hts (howns ho).1, (howns ho).2⟩⟩

/-- A resource that is taken under a lock, and only while it is unused, is used once. -/
theorem Run.countP_uses_le_one {ok : World S D R L E α → S → Prop} {db : D}
    {session : S → SqlProgram D R L E α} {w : World S D R L E α}
    (h : Run ok (World.start db session) w)
    (hok : ∀ w s, ok w s → TakesUnused u w s) (hlocked : ∀ s, (session s).Locked u False) :
    w.log.countP u.uses ≤ 1 := by
  suffices hinv : UsedUnderLock u w from hinv.once
  induction h with
  | start => exact ⟨fun s => ⟨False, hlocked s, False.elim⟩, Nat.zero_le 1⟩
  | step s _ hs hstep ih => exact ih.step (hok _ _ hs) hstep
  | crash s e _ ih => exact ih.crash s e

end World

attribute [irreducible] Locked

end SqlProgram
