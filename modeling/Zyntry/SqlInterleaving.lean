import Zyntry.SqlProgram
import Mathlib.Data.Set.Basic

/-!
# Interleaved sessions under READ COMMITTED with row locks

A `World` is the committed database together with any number of sessions, each
running a program, and the table of row locks. One step runs one statement of
one session: it sees the latest committed state, a locking statement waits until
no other session owns what it asks for, and locks are kept to the commit (or to
the end of the session). A session may also crash between two statements.

`log` records the labels of the commits, oldest first, so that statements about
what was committed so far can be made in every state.
-/

namespace SqlProgram

variable {S D R L E α β : Type}

structure World (S D R L E α : Type) where
  db : D
  owner : R → Option S
  session : S → SqlProgram D R L E α
  log : List L

namespace World

variable [DecidableEq S] [DecidableEq R]

/-- The resources that session `s` owns. -/
def held (w : World S D R L E α) (s : S) : Set R := {r | w.owner r = some s}

def start (db : D) (session : S → SqlProgram D R L E α) : World S D R L E α :=
  ⟨db, fun _ => none, session, []⟩

def freed (w : World S D R L E α) (s : S) : R → Option S :=
  fun r => if w.owner r = some s then none else w.owner r

def claimed (w : World S D R L E α) (s : S) (rows : List R) : R → Option S :=
  fun r => if r ∈ rows then some s else w.owner r

def goto (w : World S D R L E α) (s : S) (p : SqlProgram D R L E α) :
    S → SqlProgram D R L E α := Function.update w.session s p

/-- The next statement of session `s`; `none` when it has to wait for a lock. A
finished session closes its connection, which frees its locks. -/
def step (w : World S D R L E α) (s : S) : Option (World S D R L E α) :=
  match w.session s with
  | .ret _ => some { w with owner := w.freed s }
  | .raise _ => some { w with owner := w.freed s }
  | .select _ next => some { w with session := w.goto s (next w.db) }
  | .lock _ rows next =>
      if ∀ r ∈ rows w.db, w.owner r = none ∨ w.owner r = some s then
        some { w with owner := w.claimed s (rows w.db), session := w.goto s (next w.db) }
      else none
  | .commit l write next =>
      some { db := write w.db, owner := w.freed s, session := w.goto s next, log := w.log ++ [l] }

/-- What one statement of session `s` makes of the world. -/
inductive Stepped (w : World S D R L E α) (s : S) : World S D R L E α → Prop
  | ret {a : α} : w.session s = .ret a → Stepped w s { w with owner := w.freed s }
  | raise {e : E} : w.session s = .raise e → Stepped w s { w with owner := w.freed s }
  | select {l : L} {next : D → SqlProgram D R L E α} : w.session s = .select l next →
      Stepped w s { w with session := w.goto s (next w.db) }
  | lock {l : L} {rows : D → List R} {next : D → SqlProgram D R L E α} :
      w.session s = .lock l rows next →
      (∀ r ∈ rows w.db, w.owner r = none ∨ w.owner r = some s) →
      Stepped w s
        { w with owner := w.claimed s (rows w.db), session := w.goto s (next w.db) }
  | commit {l : L} {write : D → D} {next : SqlProgram D R L E α} :
      w.session s = .commit l write next →
      Stepped w s
        { db := write w.db, owner := w.freed s, session := w.goto s next, log := w.log ++ [l] }

theorem stepped {w w' : World S D R L E α} {s : S} (h : w.step s = some w') : Stepped w s w' := by
  cases hp : w.session s with
  | ret a =>
      simp only [step, hp, Option.some.injEq] at h
      exact h ▸ .ret hp
  | raise e =>
      simp only [step, hp, Option.some.injEq] at h
      exact h ▸ .raise hp
  | select l next =>
      simp only [step, hp, Option.some.injEq] at h
      exact h ▸ .select hp
  | lock l rows next =>
      simp only [step, hp] at h
      split_ifs at h with hfree
      exact Option.some.inj h ▸ .lock hp hfree
  | commit l write next =>
      simp only [step, hp, Option.some.injEq] at h
      exact h ▸ .commit hp

theorem step_ret {w w' : World S D R L E α} {s : S} {a : α} (hp : w.session s = .ret a)
    (hstep : w.step s = some w') : w' = { w with owner := w.freed s } := by
  simp only [step, hp, Option.some.injEq] at hstep
  exact hstep.symm

theorem step_raise {w w' : World S D R L E α} {s : S} {e : E} (hp : w.session s = .raise e)
    (hstep : w.step s = some w') : w' = { w with owner := w.freed s } := by
  simp only [step, hp, Option.some.injEq] at hstep
  exact hstep.symm

theorem step_select {w w' : World S D R L E α} {s : S} {l : L} {next : D → SqlProgram D R L E α}
    (hp : w.session s = .select l next) (hstep : w.step s = some w') :
    w' = { w with session := w.goto s (next w.db) } := by
  simp only [step, hp, Option.some.injEq] at hstep
  exact hstep.symm

theorem step_lock {w w' : World S D R L E α} {s : S} {l : L} {rows : D → List R}
    {next : D → SqlProgram D R L E α} (hp : w.session s = .lock l rows next)
    (hstep : w.step s = some w') :
    w' = { w with owner := w.claimed s (rows w.db), session := w.goto s (next w.db) } := by
  simp only [step, hp] at hstep
  split_ifs at hstep
  exact (Option.some.inj hstep).symm

theorem step_commit {w w' : World S D R L E α} {s : S} {l : L} {write : D → D}
    {next : SqlProgram D R L E α} (hp : w.session s = .commit l write next)
    (hstep : w.step s = some w') :
    w' = ⟨write w.db, w.freed s, w.goto s next, w.log ++ [l]⟩ := by
  simp only [step, hp, Option.some.injEq] at hstep
  exact hstep.symm

def crash (w : World S D R L E α) (s : S) (e : E) : World S D R L E α :=
  { w with owner := w.freed s, session := w.goto s (.raise e) }

/-- The worlds reached from `w₀` when session `s` makes a step from `w` only if
`ok w s`. -/
inductive Run (ok : World S D R L E α → S → Prop) (w₀ : World S D R L E α) :
    World S D R L E α → Prop
  | start : Run ok w₀ w₀
  | step {w w' : World S D R L E α} (s : S) : Run ok w₀ w → ok w s → w.step s = some w' →
      Run ok w₀ w'
  | crash {w : World S D R L E α} (s : S) (e : E) : Run ok w₀ w → Run ok w₀ (w.crash s e)

/-- Every interleaving, without any restriction on the steps. -/
abbrev Reachable (w₀ w : World S D R L E α) : Prop := Run (fun _ _ => True) w₀ w

/-- Follow a schedule; a session that has to wait skips its turn. -/
def play (w : World S D R L E α) (schedule : List S) : World S D R L E α :=
  schedule.foldl (fun w s => (w.step s).getD w) w

theorem play_cons (w : World S D R L E α) (s : S) (schedule : List S) :
    w.play (s :: schedule) = ((w.step s).getD w).play schedule := rfl

/-- Every turn of the schedule is one that `ok` admits. -/
def Follows (ok : World S D R L E α → S → Prop) : List S → World S D R L E α → Prop
  | [], _ => True
  | s :: schedule, w => ok w s ∧ Follows ok schedule ((w.step s).getD w)

instance (ok : World S D R L E α → S → Prop) [∀ w s, Decidable (ok w s)] :
    ∀ schedule w, Decidable (Follows ok schedule w)
  | [], _ => .isTrue trivial
  | s :: schedule, w =>
      have := instDecidableFollows ok schedule ((w.step s).getD w)
      inferInstanceAs (Decidable (ok w s ∧ Follows ok schedule ((w.step s).getD w)))

theorem Run.play {ok : World S D R L E α → S → Prop} {w₀ w : World S D R L E α} (h : Run ok w₀ w)
    {schedule : List S} (hok : Follows ok schedule w) : Run ok w₀ (w.play schedule) := by
  induction schedule generalizing w with
  | nil => exact h
  | cons s schedule ih =>
      refine ih ?_ hok.2
      cases hs : w.step s with
      | none => simpa only [hs, Option.getD_none] using h
      | some w' => simpa only [hs, Option.getD_some] using h.step s hok.1 hs

theorem play_reachable (w : World S D R L E α) (schedule : List S) :
    Reachable w (w.play schedule) := by
  refine Run.start.play ?_
  generalize w = w'
  induction schedule generalizing w' with
  | nil => trivial
  | cons s schedule ih => exact ⟨trivial, ih _⟩

theorem Run.trans {ok : World S D R L E α → S → Prop} {w₀ w₁ w : World S D R L E α}
    (h₁ : Run ok w₀ w₁) (h : Run ok w₁ w) : Run ok w₀ w := by
  induction h with
  | start => exact h₁
  | step s _ hs hstep ih => exact ih.step s hs hstep
  | crash s e _ ih => exact ih.crash s e

/-! ## Where a result comes from -/

end World

/-- The program can return `b` when every statement it runs reads a state in `V`. -/
def MayReturn (V : D → Prop) : SqlProgram D R L E α → α → Prop
  | .ret a, b => a = b
  | .raise _, _ => False
  | .select _ next, b => ∃ d, V d ∧ MayReturn V (next d) b
  | .lock _ _ next, b => ∃ d, V d ∧ MayReturn V (next d) b
  | .commit _ _ next, b => MayReturn V next b

@[simp] theorem mayReturn_query {V : D → Prop} {l : L} {f : D → β}
    {k : β → SqlProgram D R L E α} {b : α} :
    (query l f >>= k).MayReturn V b ↔ ∃ d, V d ∧ (k (f d)).MayReturn V b := Iff.rfl

@[simp] theorem mayReturn_locking {V : D → Prop} {l : L} {rows : D → List R} {f : D → β}
    {k : β → SqlProgram D R L E α} {b : α} :
    (locking l rows f >>= k).MayReturn V b ↔ ∃ d, V d ∧ (k (f d)).MayReturn V b := Iff.rfl

@[simp] theorem mayReturn_write {V : D → Prop} {l : L} {w : D → D}
    {k : Unit → SqlProgram D R L E α} {b : α} :
    (write l w >>= k).MayReturn V b ↔ (k ()).MayReturn V b := Iff.rfl

@[simp] theorem mayReturn_ret {V : D → Prop} {a b : α} :
    (ret a : SqlProgram D R L E α).MayReturn V b ↔ a = b := Iff.rfl

@[simp] theorem mayReturn_raise {V : D → Prop} {e : E} {b : α} :
    (raise e : SqlProgram D R L E α).MayReturn V b ↔ False := Iff.rfl

theorem mayReturn_bind {V : D → Prop} {p : SqlProgram D R L E α}
    {f : α → SqlProgram D R L E β} {b : β} :
    (p >>= f).MayReturn V b ↔ ∃ a, p.MayReturn V a ∧ (f a).MayReturn V b := by
  induction p with
  | ret a => exact ⟨fun h => ⟨a, rfl, h⟩, fun ⟨_, ha, h⟩ => ha ▸ h⟩
  | raise e => exact ⟨fun h => h.elim, fun ⟨_, h, _⟩ => h.elim⟩
  | select l next ih =>
      constructor
      · rintro ⟨d, hd, h⟩
        obtain ⟨a, ha, hf⟩ := (ih d).mp h
        exact ⟨a, ⟨d, hd, ha⟩, hf⟩
      · rintro ⟨a, ⟨d, hd, ha⟩, hf⟩
        exact ⟨d, hd, (ih d).mpr ⟨a, ha, hf⟩⟩
  | lock l rows next ih =>
      constructor
      · rintro ⟨d, hd, h⟩
        obtain ⟨a, ha, hf⟩ := (ih d).mp h
        exact ⟨a, ⟨d, hd, ha⟩, hf⟩
      · rintro ⟨a, ⟨d, hd, ha⟩, hf⟩
        exact ⟨d, hd, (ih d).mpr ⟨a, ha, hf⟩⟩
  | commit l write next ih => exact ih

namespace World

variable [DecidableEq S] [DecidableEq R]

/-- The committed states that a run has been through. -/
def Visited (ok : World S D R L E α → S → Prop) (w₀ w : World S D R L E α) (d : D) : Prop :=
  ∃ w₁, Run ok w₀ w₁ ∧ Run ok w₁ w ∧ w₁.db = d

theorem session_step_other {w w' : World S D R L E α} {s t : S} (hst : s ≠ t)
    (hstep : w.step t = some w') : w'.session s = w.session s := by
  cases stepped hstep with
  | ret hp => rfl
  | raise hp => rfl
  | select hp => exact Function.update_of_ne hst _ _
  | lock hp hfree => exact Function.update_of_ne hst _ _
  | commit hp => exact Function.update_of_ne hst _ _

/-- A session that has no turn stays where it is. -/
theorem session_play_other {s : S} {schedule : List S} (hs : s ∉ schedule)
    (w : World S D R L E α) : (w.play schedule).session s = w.session s := by
  induction schedule generalizing w with
  | nil => rfl
  | cons t schedule ih =>
      obtain ⟨hst, hrest⟩ := List.ne_and_not_mem_of_not_mem_cons hs
      rw [play_cons, ih hrest]
      cases hstep : w.step t with
      | none => rfl
      | some w' => exact session_step_other hst hstep

/-- What is left of a program after a step is one of its continuations. -/
theorem mayReturn_of_step {V : D → Prop} {w w' : World S D R L E α} {s : S} {a : α}
    (hstep : w.step s = some w') (hV : V w.db) (h : (w'.session s).MayReturn V a) :
    (w.session s).MayReturn V a := by
  cases stepped hstep with
  | ret hp => exact h
  | raise hp => exact h
  | select hp =>
      simp only [goto, Function.update_self] at h
      rw [hp]
      exact ⟨w.db, hV, h⟩
  | lock hp hfree =>
      simp only [goto, Function.update_self] at h
      rw [hp]
      exact ⟨w.db, hV, h⟩
  | commit hp =>
      simp only [goto, Function.update_self] at h
      rw [hp]
      exact h

theorem mayReturn_of_run {ok : World S D R L E α → S → Prop} {w₀ w : World S D R L E α}
    (h : Run ok w₀ w) {s : S} {a : α} (V : D → Prop) (hV : ∀ d, Visited ok w₀ w d → V d)
    (hm : (w.session s).MayReturn V a) : (w₀.session s).MayReturn V a := by
  induction h with
  | start => exact hm
  | step t hrun ht hstep ih =>
      rename_i w w'
      have hstill : ∀ d, Visited ok w₀ w d → V d := by
        rintro d ⟨w₁, h₀, h₁, rfl⟩
        exact hV _ ⟨w₁, h₀, h₁.step t ht hstep, rfl⟩
      refine ih hstill ?_
      by_cases hst : s = t
      · subst hst
        exact mayReturn_of_step hstep (hstill _ ⟨w, hrun, .start, rfl⟩) hm
      · exact session_step_other hst hstep ▸ hm
  | crash t e hrun ih =>
      rename_i w
      have hstill : ∀ d, Visited ok w₀ w d → V d := by
        rintro d ⟨w₁, h₀, h₁, rfl⟩
        exact hV _ ⟨w₁, h₀, h₁.crash t e, rfl⟩
      refine ih hstill ?_
      by_cases hst : s = t
      · subst hst
        simp only [crash, goto, Function.update_self] at hm
        exact hm.elim
      · simpa only [crash, goto, Function.update_of_ne hst] using hm

/-- A session returns what its program can return on the states of the run. -/
theorem Run.mayReturn {ok : World S D R L E α → S → Prop} {w₀ w : World S D R L E α}
    (h : Run ok w₀ w) {s : S} {a : α} (hs : w.session s = .ret a) :
    (w₀.session s).MayReturn (Visited ok w₀ w) a := by
  refine mayReturn_of_run h _ (fun _ hd => hd) ?_
  rw [hs]
  rfl

/-! ## What a step does to the locks -/

omit [DecidableEq R] in
theorem held_freed_self (w w' : World S D R L E α) (s : S) (h : w'.owner = w.freed s) :
    w'.held s = ∅ := by
  ext r
  simp only [held, h, freed, Set.mem_ofPred_eq, Set.mem_empty_iff_false, iff_false]
  split_ifs with hr
  · simp
  · exact hr

omit [DecidableEq R] in
theorem held_freed_other (w w' : World S D R L E α) {s t : S} (hts : t ≠ s)
    (h : w'.owner = w.freed s) : w'.held t = w.held t := by
  ext r
  simp only [held, h, freed, Set.mem_ofPred_eq]
  split_ifs with hr
  · simp only [hr, Option.some.injEq, false_iff]
    exact fun he => hts he.symm
  · rfl

omit [DecidableEq S] in
theorem held_claimed_self (w w' : World S D R L E α) (s : S) (rows : List R)
    (h : w'.owner = w.claimed s rows) : w'.held s = w.held s ∪ {r | r ∈ rows} := by
  ext r
  simp only [held, h, claimed, Set.mem_ofPred_eq, Set.mem_union]
  split_ifs with hr <;> simp [hr]

omit [DecidableEq S] in
theorem held_claimed_other (w w' : World S D R L E α) {s t : S} (hts : t ≠ s) (rows : List R)
    (hfree : ∀ r ∈ rows, w.owner r = none ∨ w.owner r = some s)
    (h : w'.owner = w.claimed s rows) : w'.held t = w.held t := by
  ext r
  simp only [held, h, claimed, Set.mem_ofPred_eq]
  split_ifs with hr
  · rcases hfree r hr with hn | hs
    · simp only [hn, reduceCtorEq, Option.some.injEq, iff_false]
      exact fun he => hts he.symm
    · simp only [hs, Option.some.injEq]
  · rfl

omit [DecidableEq S] [DecidableEq R] in
theorem held_disjoint (w : World S D R L E α) {s t : S} (hts : t ≠ s) :
    ∀ r ∈ w.held t, r ∉ w.held s := by
  intro r ht hs
  simp only [held, Set.mem_ofPred_eq] at ht hs
  rw [ht] at hs
  exact hts (Option.some.inj hs)

/-! ## One session alone -/

/-- Left alone, a session that no lock stands in the way of computes exactly the
serial meaning of its program. -/
theorem play_alone (p : SqlProgram D R L E α) (s : S) (w : World S D R L E α)
    (hp : w.session s = p) (hfree : ∀ r, w.owner r = none ∨ w.owner r = some s) :
    ∃ n, (w.play (List.replicate n s)).db = (p.exec w.db).2 ∧
      match (p.exec w.db).1 with
      | .ok a => (w.play (List.replicate n s)).session s = .ret a
      | .error e => (w.play (List.replicate n s)).session s = .raise e := by
  induction p generalizing w with
  | ret a => exact ⟨0, rfl, hp⟩
  | raise e => exact ⟨0, rfl, hp⟩
  | select l next ih =>
      let w' : World S D R L E α := { w with session := w.goto s (next w.db) }
      have hstep : w.step s = some w' := by simp only [step, hp, w']
      obtain ⟨n, hn⟩ := ih w.db w' (Function.update_self s _ _) hfree
      refine ⟨n + 1, ?_⟩
      rw [List.replicate_succ, play_cons, hstep]
      exact hn
  | lock l rows next ih =>
      let w' : World S D R L E α :=
        { w with owner := w.claimed s (rows w.db), session := w.goto s (next w.db) }
      have hstep : w.step s = some w' := by
        simp only [step, hp]
        rw [if_pos (fun r _ => hfree r)]
      have hfree' : ∀ r, w'.owner r = none ∨ w'.owner r = some s := by
        intro r
        change (if r ∈ rows w.db then some s else w.owner r) = none ∨ _ = some s
        split_ifs with hr
        · exact .inr (by simp only [w', claimed, if_pos hr])
        · simpa only [w', claimed, if_neg hr] using hfree r
      obtain ⟨n, hn⟩ := ih w.db w' (Function.update_self s _ _) hfree'
      refine ⟨n + 1, ?_⟩
      rw [List.replicate_succ, play_cons, hstep]
      exact hn
  | commit l write next ih =>
      let w' : World S D R L E α :=
        { db := write w.db, owner := w.freed s, session := w.goto s next, log := w.log ++ [l] }
      have hstep : w.step s = some w' := by simp only [step, hp, w']
      have hfree' : ∀ r, w'.owner r = none ∨ w'.owner r = some s := by
        intro r
        left
        change (if w.owner r = some s then none else w.owner r) = none
        split_ifs with hr
        · rfl
        · exact (hfree r).resolve_right hr
      obtain ⟨n, hn⟩ := ih w' (Function.update_self s _ _) hfree'
      refine ⟨n + 1, ?_⟩
      rw [List.replicate_succ, play_cons, hstep]
      exact hn

end World
end SqlProgram
