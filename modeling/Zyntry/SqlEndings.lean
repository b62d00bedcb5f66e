import Zyntry.SqlCommits
import Zyntry.SqlFaults

/-!
# How a program ends

`Keeps` says what a program may commit and what it may return. `Ends` says how it ends when it
runs alone, with a result or with an exception, and in which state. Its rules are equivalences:
what they leave of a program is what its ending depends on.
-/

namespace SqlProgram

variable {D R L E α β γ : Type} {d : D}

/-- The result, or the exception, and the last state meet `post`. -/
def Ends (p : SqlProgram D R L E α) (d : D) (post : Except E α → D → Prop) : Prop :=
  post (p.exec d).1 (p.exec d).2

@[simp] theorem ends_ret {a : α} {post : Except E α → D → Prop} :
    (ret a : SqlProgram D R L E α).Ends d post ↔ post (.ok a) d := Iff.rfl

@[simp] theorem ends_raise {e : E} {post : Except E α → D → Prop} :
    (raise e : SqlProgram D R L E α).Ends d post ↔ post (.error e) d := Iff.rfl

@[simp] theorem ends_query {l : L} {f : D → α} {post : Except E α → D → Prop} :
    (query l f : SqlProgram D R L E α).Ends d post ↔ post (.ok (f d)) d := Iff.rfl

@[simp] theorem ends_locking {l : L} {rows : D → List R} {f : D → α}
    {post : Except E α → D → Prop} :
    (locking l rows f : SqlProgram D R L E α).Ends d post ↔ post (.ok (f d)) d := Iff.rfl

@[simp] theorem ends_write {l : L} {w : D → D} {post : Except E Unit → D → Prop} :
    (write l w : SqlProgram D R L E Unit).Ends d post ↔ post (.ok ()) (w d) := Iff.rfl

@[simp] theorem exec_ret (a : α) : (ret a : SqlProgram D R L E α).exec d = (.ok a, d) := rfl

@[simp] theorem exec_raise (e : E) : (raise e : SqlProgram D R L E α).exec d = (.error e, d) := rfl

@[simp] theorem exec_query (l : L) (f : D → α) :
    (query l f : SqlProgram D R L E α).exec d = (.ok (f d), d) := rfl

@[simp] theorem exec_write (l : L) (w : D → D) :
    (write l w : SqlProgram D R L E Unit).exec d = (.ok (), w d) := rfl

@[simp] theorem exec_orRaise (o : Option α) (e : E) :
    (orRaise o e : SqlProgram D R L E α).exec d =
      (match o with
        | some a => .ok a
        | none => .error e, d) := by
  cases o <;> rfl

@[simp] theorem exec_ensure (p : Prop) [Decidable p] (e : E) :
    (ensure p e : SqlProgram D R L E Unit).exec d = (if p then .ok () else .error e, d) := by
  unfold ensure
  split_ifs <;> rfl

@[simp] theorem exec_ofExcept (result : Except E α) :
    (ofExcept result : SqlProgram D R L E α).exec d = (result, d) := by
  cases result <;> rfl

theorem exec_bind_ok {p : SqlProgram D R L E α} {f : α → SqlProgram D R L E β} {d' : D} {a : α}
    (h : p.exec d = (.ok a, d')) : (p >>= f).exec d = (f a).exec d' := by
  rw [exec_bind, h]

theorem exec_bind_error {p : SqlProgram D R L E α} {f : α → SqlProgram D R L E β} {d' : D} {e : E}
    (h : p.exec d = (.error e, d')) : (p >>= f).exec d = (.error e, d') := by
  rw [exec_bind, h]

theorem ends_bind {p : SqlProgram D R L E α} {f : α → SqlProgram D R L E β}
    {post : Except E β → D → Prop} :
    (p >>= f).Ends d post ↔ p.Ends d fun result d' =>
      match result with
      | .ok a => (f a).Ends d' post
      | .error e => post (.error e) d' := by
  unfold Ends
  rcases h : p.exec d with ⟨a | e, d'⟩
  · rw [exec_bind_error h]
  · rw [exec_bind_ok h]

theorem ends_ignore {p : SqlProgram D R L E α} {post : Except E Unit → D → Prop} :
    p.ignore.Ends d post ↔ p.Ends d fun result d' =>
      match result with
      | .ok _ => post (.ok ()) d'
      | .error e => post (.error e) d' := ends_bind

theorem ends_catching {p : SqlProgram D R L E α} {h : E → SqlProgram D R L E α}
    {post : Except E α → D → Prop} :
    (p.catching h).Ends d post ↔ p.Ends d fun result d' =>
      match result with
      | .ok a => post (.ok a) d'
      | .error e => (h e).Ends d' post := by
  induction p generalizing d with
  | ret a => rfl
  | raise e => rfl
  | select l next ih => exact ih d
  | lock l rows next ih => exact ih d
  | commit l w next ih => exact ih

theorem bind_pure_eq (p : SqlProgram D R L E α) : (p >>= pure) = p := by
  induction p with
  | ret a => rfl
  | raise e => rfl
  | select l next ih => exact congrArg (select l) (funext ih)
  | lock l rows next ih => exact congrArg (lock l rows) (funext ih)
  | commit l w next ih => exact congrArg (commit l w) ih

instance : LawfulMonad (SqlProgram D R L E) :=
  LawfulMonad.mk' _ bind_pure_eq (fun _ _ => rfl) bind_assoc

/-- A handler that raises every error again. -/
theorem catching_raise_eq (p : SqlProgram D R L E α) : p.catching raise = p := by
  induction p with
  | ret a => rfl
  | raise e => rfl
  | select l next ih => exact congrArg (select l) (funext ih)
  | lock l rows next ih => exact congrArg (lock l rows) (funext ih)
  | commit l w next ih => exact congrArg (commit l w) ih

/-- A block that only renames errors may be left before its result is wrapped. -/
theorem catching_bind_pure (p : SqlProgram D R L E α) (g : α → β) (renamed : E → E) :
    (p >>= fun a => pure (g a)).catching (fun e => raise (renamed e)) =
      (p.catching (fun e => raise (renamed e)) >>= fun a => pure (g a)) := by
  induction p with
  | ret a => rfl
  | raise e => rfl
  | select l next ih => exact congrArg (select l) (funext ih)
  | lock l rows next ih => exact congrArg (lock l rows) (funext ih)
  | commit l w next ih => exact congrArg (commit l w) ih

/-- A `try` block and what follows it. -/
theorem ends_catching_bind {p : SqlProgram D R L E α} {h : E → SqlProgram D R L E α}
    {k : α → SqlProgram D R L E β} {post : Except E β → D → Prop} :
    (p.catching h >>= k).Ends d post ↔ p.Ends d fun result d' =>
      match result with
      | .ok a => (k a).Ends d' post
      | .error e => (h e >>= k).Ends d' post := by
  rw [ends_bind, ends_catching]
  rcases hexec : p.exec d with ⟨e | a, d'⟩
  · simp only [Ends, hexec, exec_bind]
    rcases (h e).exec d' with ⟨e' | a, d''⟩
    · rfl
    · rfl
  · simp only [Ends, hexec]

/-- A `try` block whose first part returns. -/
theorem ends_catching_of_ok {p : SqlProgram D R L E α} {f : α → SqlProgram D R L E β}
    {h : E → SqlProgram D R L E β} {k : β → SqlProgram D R L E γ} {a : α} {d' : D}
    {post : Except E γ → D → Prop} (hp : p.exec d = (.ok a, d')) :
    ((p >>= f).catching h >>= k).Ends d post ↔ ((f a).catching h >>= k).Ends d' post := by
  rw [ends_bind, ends_catching, ends_bind, Ends, hp, ends_bind, ends_catching]

/-- A `try` block whose first part fails. -/
theorem ends_catching_of_error {p : SqlProgram D R L E α} {f : α → SqlProgram D R L E β}
    {h : E → SqlProgram D R L E β} {k : β → SqlProgram D R L E γ} {e : E} {d' : D}
    {post : Except E γ → D → Prop} (hp : p.exec d = (.error e, d')) :
    ((p >>= f).catching h >>= k).Ends d post ↔ (h e >>= k).Ends d' post := by
  rw [ends_bind, ends_catching, ends_bind, Ends, hp, ends_bind]

theorem Ends.mono {p : SqlProgram D R L E α} {post post' : Except E α → D → Prop}
    (h : p.Ends d post) (hpost : ∀ result d', post result d' → post' result d') :
    p.Ends d post' := hpost _ _ h

/-- A part of a program that keeps `I`, where `I` is enough if it fails. -/
theorem Keeps.ends_bind {I : D → Prop} {p : SqlProgram D R L E α}
    {f : α → SqlProgram D R L E β} {post : Except E β → D → Prop} (hd : I d)
    (hp : p.Keeps I d fun a d' => (f a).Ends d' post)
    (hraised : ∀ e d', I d' → post (.error e) d') : (p >>= f).Ends d post := by
  induction p generalizing d with
  | ret a => exact hp
  | raise e => exact hraised e d hd
  | select l next ih => exact ih d hd hp
  | lock l rows next ih => exact ih d hd hp
  | commit l w next ih => exact ih hp.1 hp.2

/-- A part of a program that ends with `I`, where `I` is enough if it fails. -/
theorem ends_bind_iff {I : D → Prop} {p : SqlProgram D R L E α} {f : α → SqlProgram D R L E β}
    {post : Except E β → D → Prop} {next : α → D → Prop} (hp : p.Ends d fun _ d' => I d')
    (hraised : ∀ e d', I d' → post (.error e) d')
    (hreturned : ∀ a d', I d' → ((f a).Ends d' post ↔ next a d')) :
    (p >>= f).Ends d post ↔ p.Ends d fun result d' => ∀ a, result = .ok a → next a d' := by
  rw [ends_bind]
  rcases h : p.exec d with ⟨e | a, d'⟩
  · have hd' : I d' := by simpa only [Ends, h] using hp
    simp only [Ends, h]
    exact iff_of_true (hraised e d' hd') (by rintro a ⟨⟩)
  · have hd' : I d' := by simpa only [Ends, h] using hp
    have hnext := hreturned a d' hd'
    simp only [Ends, h, Except.ok.injEq, forall_eq'] at hnext ⊢
    exact hnext

/-- What a program keeps holds in the end, whether it returns or not. -/
theorem Keeps.ends {I : D → Prop} {p : SqlProgram D R L E α} {post : α → D → Prop}
    (h : p.Keeps I d post) (hd : I d) :
    p.Ends d fun result d' => I d' ∧ ∀ a, result = .ok a → post a d' := by
  induction p generalizing d with
  | ret a =>
      refine ⟨hd, ?_⟩
      rintro b ⟨⟩
      exact h
  | raise e => exact ⟨hd, fun a ha => by cases ha⟩
  | select l next ih => exact ih d h hd
  | lock l rows next ih => exact ih d h hd
  | commit l w next ih => exact ih h.2 h.1

/-! ## Endings of calls that are cut short -/

/-- The state after the first statements. -/
def after : ℕ → SqlProgram D R L E α → D → D
  | 0, _, d => d
  | _ + 1, .ret _, d => d
  | _ + 1, .raise _, d => d
  | n + 1, .select _ next, d => (next d).after n d
  | n + 1, .lock _ _ next, d => (next d).after n d
  | n + 1, .commit _ w next, d => next.after n (w d)

theorem exec_interrupt (e : E) (n : ℕ) (p : SqlProgram D R L E α) (d : D) :
    (p.interrupt e n).exec d = (.error e, p.after n d) := by
  induction n generalizing p d with
  | zero => rfl
  | succ n ih =>
      cases p with
      | ret a => rfl
      | raise e' => rfl
      | select l next => exact ih (next d) d
      | lock l rows next => exact ih (next d) d
      | commit l w next => exact ih next (w d)

theorem ends_interrupt {e : E} {n : ℕ} {p : SqlProgram D R L E α}
    {post : Except E α → D → Prop} :
    (p.interrupt e n).Ends d post ↔ post (.error e) (p.after n d) := by
  unfold Ends
  rw [exec_interrupt]

theorem Writes.interrupt {G : L → D → D → Prop} {p : SqlProgram D R L E α} (h : p.Writes G) (e : E)
    (n : ℕ) : (p.interrupt e n).Writes G := by
  induction n generalizing p with
  | zero => exact writes_raise e
  | succ n ih =>
      cases p with
      | ret a => exact writes_raise e
      | raise e' => exact writes_raise e
      | select l next => exact writes_select.mpr fun d => ih (writes_select.mp h d)
      | lock l rows next => exact writes_lock.mpr fun d => ih (writes_lock.mp h d)
      | commit l w next =>
          obtain ⟨hw, hnext⟩ := writes_commit.mp h
          exact writes_commit.mpr ⟨hw, ih hnext⟩

/-- What all commits of a program have in common holds from its beginning to its end. -/
theorem Writes.ends {G : D → D → Prop} {p : SqlProgram D R L E α} (h : p.Writes fun _ => G)
    (hrefl : ∀ d, G d d) (htrans : ∀ d d' d'', G d d' → G d' d'' → G d d'') :
    p.Ends d fun _ d' => G d d' := by
  induction p generalizing d with
  | ret a => exact hrefl d
  | raise e => exact hrefl d
  | select l next ih => exact ih d (writes_select.mp h d)
  | lock l rows next ih => exact ih d (writes_lock.mp h d)
  | commit l w next ih =>
      obtain ⟨hw, hnext⟩ := writes_commit.mp h
      exact htrans _ _ _ (hw d) (ih hnext)

/-! ## Programs that end with their commit -/

/-- A commit changes nothing, or it is the last statement. -/
def CommitsLast : SqlProgram D R L E α → Prop
  | .ret _ => True
  | .raise _ => True
  | .select _ next => ∀ d, (next d).CommitsLast
  | .lock _ _ next => ∀ d, (next d).CommitsLast
  | .commit _ w next => (∀ d, w d = d) ∧ next.CommitsLast ∨ ∃ a, next = .ret a

@[simp] theorem commitsLast_ret (a : α) : (ret a : SqlProgram D R L E α).CommitsLast := trivial

@[simp] theorem commitsLast_raise (e : E) : (raise e : SqlProgram D R L E α).CommitsLast := trivial

@[simp] theorem commitsLast_write (l : L) (w : D → D) :
    (write l w : SqlProgram D R L E Unit).CommitsLast := .inr ⟨(), rfl⟩

theorem CommitsLast.bind {p : SqlProgram D R L E α} {f : α → SqlProgram D R L E β}
    (hp : p.Writes fun _ d d' => d' = d) (hf : ∀ a, (f a).CommitsLast) :
    (p >>= f).CommitsLast := by
  induction p with
  | ret a => exact hf a
  | raise e => trivial
  | select l next ih => exact fun d => ih d (writes_select.mp hp d)
  | lock l rows next ih => exact fun d => ih d (writes_lock.mp hp d)
  | commit l w next ih =>
      obtain ⟨hid, hnext⟩ := writes_commit.mp hp
      exact .inl ⟨hid, ih hnext⟩

theorem CommitsLast.catching {p : SqlProgram D R L E α} {h : E → SqlProgram D R L E α}
    (hp : p.CommitsLast) (hh : ∀ e, (h e).CommitsLast) : (p.catching h).CommitsLast := by
  induction p with
  | ret a => trivial
  | raise e => exact hh e
  | select l next ih => exact fun d => ih d (hp d)
  | lock l rows next ih => exact fun d => ih d (hp d)
  | commit l w next ih =>
      obtain ⟨hid, hnext⟩ | ⟨a, rfl⟩ := hp
      · exact .inl ⟨hid, ih hnext⟩
      · exact .inr ⟨a, rfl⟩

/-- Such a program changes nothing if it fails, and what it has changed when it is cut short is
nothing or all. -/
theorem CommitsLast.ends {p : SqlProgram D R L E α} (hp : p.CommitsLast) (d : D) :
    (∀ e d', p.exec d = (.error e, d') → d' = d) ∧
      ∀ n, p.after n d = d ∨ ∃ a, p.exec d = (.ok a, p.after n d) := by
  induction p with
  | ret a =>
      refine ⟨fun e d' he => (by cases he), fun n => .inl ?_⟩
      cases n <;> rfl
  | raise e =>
      refine ⟨fun e d' he => (by cases he; rfl), fun n => .inl ?_⟩
      cases n <;> rfl
  | select l next ih =>
      refine ⟨(ih d (hp d)).1, fun n => ?_⟩
      cases n with
      | zero => exact .inl rfl
      | succ n => exact (ih d (hp d)).2 n
  | lock l rows next ih =>
      refine ⟨(ih d (hp d)).1, fun n => ?_⟩
      cases n with
      | zero => exact .inl rfl
      | succ n => exact (ih d (hp d)).2 n
  | commit l w next ih =>
      obtain ⟨hid, hnext⟩ | ⟨a, rfl⟩ := hp
      · simp only [exec, hid]
        refine ⟨(ih hnext).1, fun n => ?_⟩
        cases n with
        | zero => exact .inl rfl
        | succ n =>
            simp only [after, hid]
            exact (ih hnext).2 n
      · refine ⟨fun e d' he => (by cases he), fun n => ?_⟩
        cases n with
        | zero => exact .inl rfl
        | succ n => exact .inr ⟨a, by cases n <;> rfl⟩

theorem CommitsLast.map {p : SqlProgram D R L E α} (hp : p.CommitsLast) (g : α → β) :
    (p >>= fun a => pure (g a)).CommitsLast := by
  induction p with
  | ret a => trivial
  | raise e => trivial
  | select l next ih => exact fun d => ih d (hp d)
  | lock l rows next ih => exact fun d => ih d (hp d)
  | commit l w next ih =>
      obtain ⟨hid, hnext⟩ | ⟨a, rfl⟩ := hp
      · exact .inl ⟨hid, ih hnext⟩
      · exact .inr ⟨g a, rfl⟩

attribute [irreducible] CommitsLast

/-! ## Programs that change nothing when they fail -/

/-- The program fails, if at all, in the state in which it began. -/
def FailsClean (p : SqlProgram D R L E α) : Prop :=
  ∀ d, p.Ends d fun result d' => ∀ e, result = .error e → d' = d

theorem CommitsLast.failsClean {p : SqlProgram D R L E α} (hp : p.CommitsLast) : p.FailsClean := by
  intro d e he
  exact (hp.ends d).1 e _ (Prod.ext he rfl)

/-- A program that always returns. -/
def Returns (p : SqlProgram D R L E α) : Prop :=
  ∀ d, p.Ends d fun result _ => ∃ a, result = .ok a

theorem Returns.failsClean {p : SqlProgram D R L E α} (hp : p.Returns) : p.FailsClean := by
  intro d e he
  obtain ⟨a, ha⟩ := hp d
  rw [he] at ha
  cases ha

theorem returns_ret (a : α) : (ret a : SqlProgram D R L E α).Returns := fun _ => ⟨a, rfl⟩

theorem Returns.bind {p : SqlProgram D R L E α} {f : α → SqlProgram D R L E β} (hp : p.Returns)
    (hf : ∀ a, (f a).Returns) : (p >>= f).Returns := by
  intro d
  rw [ends_bind]
  obtain ⟨a, ha⟩ := hp d
  unfold Ends
  rw [ha]
  exact hf a _

/-- A handler that returns makes any program return. -/
theorem returns_catching {p : SqlProgram D R L E α} {h : E → SqlProgram D R L E α}
    (hh : ∀ e, (h e).Returns) : (p.catching h).Returns := by
  intro d
  rw [ends_catching]
  unfold Ends
  cases (p.exec d).1 with
  | ok a => exact ⟨a, rfl⟩
  | error e => exact hh e _

theorem returns_mapM {f : α → SqlProgram D R L E β} (hf : ∀ a, (f a).Returns) (items : List α) :
    (items.mapM f).Returns := by
  rw [← List.mapM'_eq_mapM]
  induction items with
  | nil => exact returns_ret []
  | cons a items ih =>
      exact (hf a).bind fun b => ih.bind fun bs => returns_ret (b :: bs)

/-- What a program does before it can change anything does not matter to how it fails. -/
theorem FailsClean.bind {p : SqlProgram D R L E α} {f : α → SqlProgram D R L E β}
    (hp : p.Writes fun _ d d' => d' = d) (hf : ∀ a, (f a).FailsClean) :
    (p >>= f).FailsClean := by
  intro d
  have hsame : p.Ends d fun _ d' => d' = d :=
    hp.ends (fun _ => rfl) fun _ _ _ h h' => h'.trans h
  rw [ends_bind]
  unfold Ends at hsame ⊢
  cases (p.exec d).1 with
  | ok a =>
      rw [hsame]
      exact hf a d
  | error e =>
      intro _ _
      exact hsame

end SqlProgram
