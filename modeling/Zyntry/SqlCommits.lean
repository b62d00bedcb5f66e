import Zyntry.SqlInterleaving

/-!
# Histories of commits

What sessions do to the database is told by their commits alone: the commit log of every
interleaving, and of every serial run, is a `History` in which each commit changes the state
as its program says and is made in a state that admits it.
-/

namespace SqlProgram

variable {S D R L E O α β : Type}

/-- From `d₀` with `log₀` committed, the commits of a run lead to `d` with `log` committed. -/
inductive History (G : List L → L → D → D → Prop) (log₀ : List L) (d₀ : D) : List L → D → Prop
  | start : History G log₀ d₀ log₀ d₀
  | commit {log : List L} {d d' : D} (l : L) : History G log₀ d₀ log d → G log l d d' →
      History G log₀ d₀ (log ++ [l]) d'

namespace History

variable {G : List L → L → D → D → Prop} {log₀ log : List L} {d₀ d : D}

theorem invariant {I : List L → D → Prop} (h : History G log₀ d₀ log d) (h₀ : I log₀ d₀)
    (hcommit : ∀ log l d d', I log d → G log l d d' → I (log ++ [l]) d') : I log d := by
  induction h with
  | start => exact h₀
  | commit l _ hg ih => exact hcommit _ l _ _ ih hg

theorem mono {G' : List L → L → D → D → Prop} (h : History G log₀ d₀ log d)
    (hG : ∀ log l d d', G log l d d' → G' log l d d') : History G' log₀ d₀ log d := by
  induction h with
  | start => exact .start
  | commit l _ hg ih => exact ih.commit l (hG _ _ _ _ hg)

/-- A history is one up to each of its commits and one from there on. -/
theorem split {l : L} {before later : List L} (h : History G [] d₀ (before ++ l :: later) d) :
    ∃ d₁ d₂, History G [] d₀ before d₁ ∧ G before l d₁ d₂ ∧
      History G (before ++ [l]) d₂ (before ++ l :: later) d := by
  generalize hlog : before ++ l :: later = log at h
  induction h generalizing later with
  | start => simp at hlog
  | commit l' hhist hg ih =>
      rename_i log d d'
      rcases List.eq_nil_or_concat later with rfl | ⟨later, last, rfl⟩
      · obtain ⟨rfl, hlast⟩ := List.append_inj' hlog rfl
        obtain rfl : l = l' := by simpa using hlast
        exact ⟨d, d', hhist, hg, .start⟩
      · have hinit : (before ++ l :: later) ++ [last] = log ++ [l'] := by simp [← hlog]
        obtain ⟨hbefore, hlast⟩ := List.append_inj' hinit rfl
        obtain ⟨d₁, d₂, hpre, hl, hpost⟩ := ih hbefore
        exact ⟨d₁, d₂, hpre, hl, hpost.commit l' hg⟩

/-- The state a log leads to, if each label tells what its commit writes. -/
def replay (effect : L → D → D) (d₀ : D) (log : List L) : D :=
  log.foldl (fun d l => effect l d) d₀

theorem eq_replay {effect : L → D → D} (h : History G [] d₀ log d)
    (heffect : ∀ log l d d', G log l d d' → d' = effect l d) : d = replay effect d₀ log := by
  refine h.invariant (I := fun log d => d = replay effect d₀ log) rfl ?_
  rintro log l d d' rfl hg
  rw [heffect _ _ _ _ hg, replay, replay, List.foldl_append, List.foldl_cons, List.foldl_nil]

/-- What has to be live to be used, and dies of its use for good, is used at most once. -/
theorem countP_le_one {used : L → Bool} {P : D → Prop} (h : History G [] d₀ log d)
    (huse : ∀ log l d d', G log l d d' → used l = true → P d ∧ ¬P d')
    (hdead : ∀ log l d d', G log l d d' → ¬P d → ¬P d') : log.countP used ≤ 1 := by
  have hinv : log.countP used ≤ 1 ∧ (log.countP used = 1 → ¬P d) := by
    refine h.invariant (I := fun log d => log.countP used ≤ 1 ∧ (log.countP used = 1 → ¬P d))
      (by simp) ?_
    intro log l d d' ⟨hle, hone⟩ hg
    rw [List.countP_append, List.countP_singleton]
    by_cases hl : used l = true
    · obtain ⟨hlive, hdies⟩ := huse log l d d' hg hl
      have hzero : log.countP used = 0 := by
        by_contra hne
        exact hone (by omega) hlive
      simp [hl, hzero, hdies]
    · rw [if_neg hl, Nat.add_zero]
      exact ⟨hle, fun h => hdead log l d d' hg (hone h)⟩
  exact hinv.1

end History

/-! ## Guards -/

def ensure (p : Prop) [Decidable p] (e : E) : SqlProgram D R L E Unit :=
  if p then .ret () else .raise e

def orRaise (o : Option α) (e : E) : SqlProgram D R L E α :=
  match o with
  | some a => .ret a
  | none => .raise e

def ofExcept : Except E α → SqlProgram D R L E α
  | .ok a => .ret a
  | .error e => .raise e

@[simp] theorem keeps_ensure {I : D → Prop} {p : Prop} [Decidable p] {e : E} {d : D}
    {post : Unit → D → Prop} :
    (ensure p e : SqlProgram D R L E Unit).Keeps I d post ↔ (p → post () d) := by
  unfold ensure
  split_ifs with hp <;> simp [hp]

@[simp] theorem keeps_orRaise {I : D → Prop} {o : Option α} {e : E} {d : D}
    {post : α → D → Prop} :
    (orRaise o e : SqlProgram D R L E α).Keeps I d post ↔ ∀ a, o = some a → post a d := by
  cases o <;> simp [orRaise]

@[simp] theorem keeps_ofExcept {I : D → Prop} {x : Except E α} {d : D} {post : α → D → Prop} :
    (ofExcept x : SqlProgram D R L E α).Keeps I d post ↔ ∀ a, x = .ok a → post a d := by
  cases x <;> simp [ofExcept]

/-- What a program that has come to its end returns. -/
def returned : SqlProgram D R L E α → Option α
  | .ret a => some a
  | _ => none

theorem returned_eq_some {p : SqlProgram D R L E α} {a : α} : p.returned = some a ↔ p = .ret a := by
  cases p <;> simp [returned]

theorem keeps_true (p : SqlProgram D R L E α) (d : D) :
    p.Keeps (fun _ => True) d fun _ _ => True := by
  induction p generalizing d with
  | ret a => trivial
  | raise e => trivial
  | select l next ih => exact ih d d
  | lock l rows next ih => exact ih d d
  | commit l write next ih => exact ⟨trivial, ih _⟩

/-! ## Interleavings -/

/-- Every commit of the program changes the state as `G` says, whatever was read before. -/
def Writes (G : L → D → D → Prop) : SqlProgram D R L E α → Prop
  | .ret _ => True
  | .raise _ => True
  | .select _ next => ∀ d, (next d).Writes G
  | .lock _ _ next => ∀ d, (next d).Writes G
  | .commit l write next => (∀ d, G l d (write d)) ∧ next.Writes G

section Writes

variable {G : L → D → D → Prop}

@[simp] theorem writes_ret (a : α) : (ret a : SqlProgram D R L E α).Writes G := trivial

@[simp] theorem writes_raise (e : E) : (raise e : SqlProgram D R L E α).Writes G := trivial

theorem writes_select {l : L} {next : D → SqlProgram D R L E α} :
    (select l next).Writes G ↔ ∀ d, (next d).Writes G := Iff.rfl

theorem writes_lock {l : L} {rows : D → List R} {next : D → SqlProgram D R L E α} :
    (lock l rows next).Writes G ↔ ∀ d, (next d).Writes G := Iff.rfl

theorem writes_commit {l : L} {write : D → D} {next : SqlProgram D R L E α} :
    (commit l write next).Writes G ↔ (∀ d, G l d (write d)) ∧ next.Writes G := Iff.rfl

@[simp] theorem writes_query (l : L) (f : D → β) : (query l f : SqlProgram D R L E β).Writes G :=
  fun _ => trivial

@[simp] theorem writes_locking (l : L) (rows : D → List R) (f : D → β) :
    (locking l rows f : SqlProgram D R L E β).Writes G := fun _ => trivial

@[simp] theorem writes_write {l : L} {write : D → D} :
    (SqlProgram.write l write : SqlProgram D R L E Unit).Writes G ↔ ∀ d, G l d (write d) :=
  ⟨fun h => h.1, fun h => ⟨h, trivial⟩⟩

@[simp] theorem writes_ensure {p : Prop} [Decidable p] {e : E} :
    (ensure p e : SqlProgram D R L E Unit).Writes G := by
  unfold ensure
  split <;> trivial

@[simp] theorem writes_orRaise {o : Option α} {e : E} :
    (orRaise o e : SqlProgram D R L E α).Writes G := by
  cases o <;> trivial

@[simp] theorem writes_ofExcept {result : Except E α} :
    (ofExcept result : SqlProgram D R L E α).Writes G := by
  cases result <;> trivial

theorem Writes.bind {p : SqlProgram D R L E α} {f : α → SqlProgram D R L E β} (hp : p.Writes G)
    (hf : ∀ a, (f a).Writes G) : (p >>= f).Writes G := by
  induction p with
  | ret a => exact hf a
  | raise e => trivial
  | select l next ih => exact fun d => ih d (hp d)
  | lock l rows next ih => exact fun d => ih d (hp d)
  | commit l write next ih => exact ⟨hp.1, ih hp.2⟩

theorem Writes.imp {G' : L → D → D → Prop} {p : SqlProgram D R L E α} (hp : p.Writes G)
    (h : ∀ l d d', G l d d' → G' l d d') : p.Writes G' := by
  induction p with
  | ret a => trivial
  | raise e => trivial
  | select l next ih => exact fun d => ih d (hp d)
  | lock l rows next ih => exact fun d => ih d (hp d)
  | commit l write next ih => exact ⟨fun d => h l d _ (hp.1 d), ih hp.2⟩

theorem writes_forEach {xs : List β} {f : β → SqlProgram D R L E Unit}
    (hf : ∀ x, (f x).Writes G) : (forEach xs f).Writes G := by
  induction xs with
  | nil => exact writes_ret _
  | cons x xs ih => exact (hf x).bind fun _ => ih

theorem Writes.catching {p : SqlProgram D R L E α} {f : E → SqlProgram D R L E α}
    (hp : p.Writes G) (hf : ∀ e, (f e).Writes G) : (p.catching f).Writes G := by
  induction p with
  | ret a => trivial
  | raise e => exact hf e
  | select l next ih => exact fun d => ih d (hp d)
  | lock l rows next ih => exact fun d => ih d (hp d)
  | commit l write next ih => exact ⟨hp.1, ih hp.2⟩

end Writes

namespace World

variable [DecidableEq S] [DecidableEq R] {G : L → D → D → Prop}

theorem writes_step {w w' : World S D R L E α} {s t : S} (hstep : w.step s = some w')
    (h : (w.session t).Writes G) : (w'.session t).Writes G := by
  by_cases hts : t = s
  · subst hts
    cases stepped hstep with
    | ret hp => exact h
    | raise hp => exact h
    | select hp =>
        rw [hp] at h
        simpa only [goto, Function.update_self] using h w.db
    | lock hp hfree =>
        rw [hp] at h
        simpa only [goto, Function.update_self] using h w.db
    | commit hp =>
        rw [hp] at h
        simpa only [goto, Function.update_self] using h.2
  · rwa [session_step_other hts hstep]

/-- What a step of such a session does to the state. -/
theorem writes_step_db {w w' : World S D R L E α} {s : S} (hstep : w.step s = some w')
    (h : (w.session s).Writes G) : w'.db = w.db ∨ ∃ l, G l w.db w'.db := by
  cases stepped hstep with
  | ret hp => exact .inl rfl
  | raise hp => exact .inl rfl
  | select hp => exact .inl rfl
  | lock hp hfree => exact .inl rfl
  | commit hp =>
      rw [hp] at h
      exact .inr ⟨_, h.1 w.db⟩

omit [DecidableEq R] in
theorem writes_crash {w : World S D R L E α} {s t : S} {e : E}
    (h : (w.session t).Writes G) : ((w.crash s e).session t).Writes G := by
  by_cases hts : t = s
  · subst hts
    simp only [crash, goto, Function.update_self]
    trivial
  · simpa only [crash, goto, Function.update_of_ne hts] using h

theorem Run.writes_session {ok : World S D R L E α → S → Prop} {w₀ w : World S D R L E α}
    (h : Run ok w₀ w) {t : S} (h₀ : (w₀.session t).Writes G) : (w.session t).Writes G := by
  induction h with
  | start => exact h₀
  | step s _ _ hstep ih => exact writes_step hstep ih
  | crash s e _ ih => exact writes_crash ih

theorem Run.writes {ok : World S D R L E α → S → Prop} {w₀ w : World S D R L E α}
    (h : Run ok w₀ w) (h₀ : ∀ s, (w₀.session s).Writes G) : ∀ s, (w.session s).Writes G :=
  fun s => h.writes_session (h₀ s)

/-- The next commit of a session is made in a state that `own` admits. -/
def Commits (own : List L → L → D → Prop) (w : World S D R L E α) (s : S) : Prop :=
  match w.session s with
  | .commit l _ _ => own w.log l w.db
  | _ => True

instance (own : List L → L → D → Prop) [∀ log l d, Decidable (own log l d)]
    (w : World S D R L E α) (s : S) : Decidable (Commits own w s) := by
  unfold Commits
  split <;> infer_instance

/-- The commits of an interleaving are a history. -/
theorem Run.history {own : List L → L → D → Prop} {w₀ w : World S D R L E α}
    (h : Run (Commits own) w₀ w) (hwrites : ∀ s, (w₀.session s).Writes G) :
    History (fun log l d d' => own log l d ∧ G l d d') w₀.log w₀.db w.log w.db := by
  induction h with
  | start => exact .start
  | step s hrun hok hstep ih =>
      cases stepped hstep with
      | ret hp => exact ih
      | raise hp => exact ih
      | select hp => exact ih
      | lock hp hfree => exact ih
      | commit hp =>
          have hs := hrun.writes hwrites s
          rw [hp] at hs
          simp only [Commits, hp] at hok
          exact ih.commit _ ⟨hok, hs.1 _⟩
  | crash s e _ ih => exact ih

end World

/-! ## Commits up to a result -/

/-- Every commit is as `G` says, and what the program returns satisfies `post`. -/
def WritesTo (G : L → D → D → Prop) : SqlProgram D R L E α → (α → Prop) → Prop
  | .ret a, post => post a
  | .raise _, _ => True
  | .select _ next, post => ∀ d, (next d).WritesTo G post
  | .lock _ _ next, post => ∀ d, (next d).WritesTo G post
  | .commit l write next, post => (∀ d, G l d (write d)) ∧ next.WritesTo G post

section WritesTo

variable {G : L → D → D → Prop}

theorem writesTo_bind {p : SqlProgram D R L E α} {f : α → SqlProgram D R L E β}
    {post : β → Prop} :
    (p >>= f).WritesTo G post ↔ p.WritesTo G fun a => (f a).WritesTo G post := by
  induction p with
  | ret a => rfl
  | raise e => rfl
  | select l next ih => exact forall_congr' ih
  | lock l rows next ih => exact forall_congr' ih
  | commit l write next ih => exact and_congr_right fun _ => ih

@[simp] theorem writesTo_ret {a : α} {post : α → Prop} :
    (ret a : SqlProgram D R L E α).WritesTo G post ↔ post a := Iff.rfl

@[simp] theorem writesTo_raise {e : E} {post : α → Prop} :
    (raise e : SqlProgram D R L E α).WritesTo G post := trivial

@[simp] theorem writesTo_write {l : L} {w : D → D} {post : Unit → Prop} :
    (SqlProgram.write l w : SqlProgram D R L E Unit).WritesTo G post ↔
      (∀ d, G l d (w d)) ∧ post () := Iff.rfl

@[simp] theorem writesTo_ensure {p : Prop} [Decidable p] {e : E} {post : Unit → Prop} :
    (ensure p e : SqlProgram D R L E Unit).WritesTo G post ↔ (p → post ()) := by
  unfold ensure
  split_ifs with hp <;> simp [hp]

@[simp] theorem writesTo_orRaise {o : Option α} {e : E} {post : α → Prop} :
    (orRaise o e : SqlProgram D R L E α).WritesTo G post ↔ ∀ a, o = some a → post a := by
  cases o <;> simp [orRaise]

@[simp] theorem writesTo_ofExcept {x : Except E α} {post : α → Prop} :
    (ofExcept x : SqlProgram D R L E α).WritesTo G post ↔ ∀ a, x = .ok a → post a := by
  cases x <;> simp [ofExcept]

@[simp] theorem writesTo_query {l : L} {f : D → β} {post : β → Prop} :
    (query l f : SqlProgram D R L E β).WritesTo G post ↔ ∀ d, post (f d) := Iff.rfl

theorem WritesTo.catching {p : SqlProgram D R L E α} {h : E → SqlProgram D R L E α}
    {post : α → Prop} (hp : p.WritesTo G post) (hh : ∀ e, (h e).WritesTo G post) :
    (p.catching h).WritesTo G post := by
  induction p with
  | ret a => exact hp
  | raise e => exact hh e
  | select l next ih => exact fun d => ih d (hp d)
  | lock l rows next ih => exact fun d => ih d (hp d)
  | commit l write next ih => exact ⟨hp.1, ih hp.2⟩

theorem WritesTo.mono {p : SqlProgram D R L E α} {post post' : α → Prop}
    (hp : p.WritesTo G post) (h : ∀ a, post a → post' a) : p.WritesTo G post' := by
  induction p with
  | ret a => exact h a hp
  | raise e => trivial
  | select l next ih => exact fun d => ih d (hp d)
  | lock l rows next ih => exact fun d => ih d (hp d)
  | commit l write next ih => exact ⟨hp.1, ih hp.2⟩

theorem WritesTo.writes {p : SqlProgram D R L E α} {post : α → Prop} (hp : p.WritesTo G post) :
    p.Writes G := by
  induction p with
  | ret a => trivial
  | raise e => trivial
  | select l next ih => exact fun d => ih d (hp d)
  | lock l rows next ih => exact fun d => ih d (hp d)
  | commit l write next ih => exact ⟨hp.1, ih hp.2⟩

end WritesTo

/-! ## Commits of a program that runs alone -/

/-- Run alone from `d` with `log` committed, every commit of the program is as `G` says. -/
def WritesFrom (G : List L → L → D → D → Prop) : SqlProgram D R L E α → List L → D → Prop
  | .ret _, _, _ => True
  | .raise _, _, _ => True
  | .select _ next, log, d => (next d).WritesFrom G log d
  | .lock _ _ next, log, d => (next d).WritesFrom G log d
  | .commit l write next, log, d => G log l d (write d) ∧ next.WritesFrom G (log ++ [l]) (write d)

section WritesFrom

variable {G : List L → L → D → D → Prop} {log : List L} {d : D}

theorem Writes.writesFrom {p : SqlProgram D R L E α}
    (h : p.Writes fun l d d' => ∀ log, G log l d d') (log : List L) (d : D) :
    p.WritesFrom G log d := by
  induction p generalizing log d with
  | ret a => trivial
  | raise e => trivial
  | select l next ih => exact ih d (h d) log d
  | lock l rows next ih => exact ih d (h d) log d
  | commit l write next ih => exact ⟨h.1 d log, ih h.2 _ _⟩

/-- What comes after a program that only reads knows what that program has returned. -/
theorem writesFrom_bind_of_reads {p : SqlProgram D R L E β} {k : β → SqlProgram D R L E α}
    (hp : p.Writes fun _ _ _ => False) :
    (p >>= k).WritesFrom G log d ↔
      ∀ b, (p.exec d).1 = .ok b → (k b).WritesFrom G log d := by
  induction p with
  | ret b => exact ⟨fun h b' hb => Except.ok.inj hb ▸ h, fun h => h b rfl⟩
  | raise e => exact ⟨nofun, fun _ => trivial⟩
  | select l next ih => exact ih d (hp d)
  | lock l rows next ih => exact ih d (hp d)
  | commit l write next ih => exact (hp.1 d).elim

/-- Reading after the last commit changes nothing. -/
theorem WritesFrom.bind_reads {p : SqlProgram D R L E β} {k : β → SqlProgram D R L E α}
    (hp : p.WritesFrom G log d) (hk : ∀ b, (k b).Writes fun _ _ _ => False) :
    (p >>= k).WritesFrom G log d := by
  induction p generalizing log d with
  | ret b => exact ((hk b).imp fun _ _ _ hfalse => hfalse.elim).writesFrom log d
  | raise e => trivial
  | select l next ih => exact ih d hp
  | lock l rows next ih => exact ih d hp
  | commit l write next ih => exact ⟨hp.1, ih hp.2⟩

@[simp] theorem writesFrom_ret (a : α) : (ret a : SqlProgram D R L E α).WritesFrom G log d :=
  trivial

@[simp] theorem writesFrom_raise (e : E) : (raise e : SqlProgram D R L E α).WritesFrom G log d :=
  trivial

@[simp] theorem writesFrom_query {l : L} {f : D → β} {k : β → SqlProgram D R L E α} :
    (query l f >>= k).WritesFrom G log d ↔ (k (f d)).WritesFrom G log d := Iff.rfl

@[simp] theorem writesFrom_locking {l : L} {rows : D → List R} {f : D → β}
    {k : β → SqlProgram D R L E α} :
    (locking l rows f >>= k).WritesFrom G log d ↔ (k (f d)).WritesFrom G log d := Iff.rfl

@[simp] theorem writesFrom_write {l : L} {w : D → D} {k : Unit → SqlProgram D R L E α} :
    (SqlProgram.write l w >>= k).WritesFrom G log d ↔
      G log l d (w d) ∧ (k ()).WritesFrom G (log ++ [l]) (w d) := Iff.rfl

@[simp] theorem writesFrom_ensure {p : Prop} [Decidable p] {e : E}
    {k : Unit → SqlProgram D R L E α} :
    (ensure p e >>= k).WritesFrom G log d ↔ (p → (k ()).WritesFrom G log d) := by
  unfold ensure
  split_ifs with hp <;> simp [hp]

@[simp] theorem writesFrom_orRaise {o : Option β} {e : E} {k : β → SqlProgram D R L E α} :
    (orRaise o e >>= k).WritesFrom G log d ↔ ∀ b, o = some b → (k b).WritesFrom G log d := by
  cases o <;> simp [orRaise]

@[simp] theorem writesFrom_ofExcept {x : Except E β} {k : β → SqlProgram D R L E α} :
    (ofExcept x >>= k).WritesFrom G log d ↔ ∀ b, x = .ok b → (k b).WritesFrom G log d := by
  cases x <;> simp [ofExcept]

end WritesFrom

/-! ## Serial runs -/

/-- The points at which a serial execution may stop: the labels committed so far and the
state they leave. -/
def stops : SqlProgram D R L E α → D → List (List L × D)
  | .ret _, d => [([], d)]
  | .raise _, d => [([], d)]
  | .select _ next, d => (next d).stops d
  | .lock _ _ next, d => (next d).stops d
  | .commit l write next, d =>
      ([], d) :: (next.stops (write d)).map fun stop => (l :: stop.1, stop.2)

/-- Calls one after the other, each to its end or to any point before. -/
inductive SerialLog (calls : O → SqlProgram D R L E α) (ok : List L → D → O → Prop) (d₀ : D) :
    List L → D → Prop
  | nil : SerialLog calls ok d₀ [] d₀
  | call {log later : List L} {d d' : D} (o : O) : SerialLog calls ok d₀ log d → ok log d o →
      (later, d') ∈ (calls o).stops d → SerialLog calls ok d₀ (log ++ later) d'

/-- The labels of the commits of a serial execution. -/
def execLog : SqlProgram D R L E α → D → List L
  | .ret _, _ => []
  | .raise _, _ => []
  | .select _ next, d => (next d).execLog d
  | .lock _ _ next, d => (next d).execLog d
  | .commit l write next, d => l :: next.execLog (write d)

theorem execLog_mem_stops (p : SqlProgram D R L E α) (d : D) :
    (p.execLog d, (p.exec d).2) ∈ p.stops d := by
  induction p generalizing d with
  | ret a => exact List.mem_singleton_self _
  | raise e => exact List.mem_singleton_self _
  | select l next ih => exact ih d d
  | lock l rows next ih => exact ih d d
  | commit l write next ih =>
      exact List.mem_cons_of_mem _ (List.mem_map.2 ⟨_, ih (write d), rfl⟩)

theorem WritesFrom.forall_execLog {P : L → Prop} {p : SqlProgram D R L E α} {log : List L} {d : D}
    (h : p.WritesFrom (fun _ l _ _ => P l) log d) : ∀ l ∈ p.execLog d, P l := by
  induction p generalizing log d with
  | ret a => exact fun l hl => absurd hl List.not_mem_nil
  | raise e => exact fun l hl => absurd hl List.not_mem_nil
  | select l next ih => exact ih d h
  | lock l rows next ih => exact ih d h
  | commit l write next ih => exact List.forall_mem_cons.2 ⟨h.1, ih h.2⟩

/-- Calls one after the other, each to its end: what is committed and the state. -/
def execCalls (calls : O → SqlProgram D R L E α) : List O → List L × D → List L × D
  | [], w => w
  | o :: os, w =>
      execCalls calls os (w.1 ++ (calls o).execLog w.2, ((calls o).exec w.2).2)

/-- Every call begins in a state that admits it. -/
def AdmitsCalls (calls : O → SqlProgram D R L E α) (ok : List L → D → O → Prop) :
    List O → List L × D → Prop
  | [], _ => True
  | o :: os, w => ok w.1 w.2 o ∧
      AdmitsCalls calls ok os (w.1 ++ (calls o).execLog w.2, ((calls o).exec w.2).2)

theorem admitsCalls_true (calls : O → SqlProgram D R L E α) (os : List O)
    (w : List L × D) : AdmitsCalls calls (fun _ _ _ => True) os w := by
  induction os generalizing w with
  | nil => trivial
  | cons o os ih => exact ⟨trivial, ih _⟩

theorem serialLog_execCalls {calls : O → SqlProgram D R L E α} {ok : List L → D → O → Prop}
    {d₀ : D} {os : List O} {w : List L × D} (h : SerialLog calls ok d₀ w.1 w.2)
    (hok : AdmitsCalls calls ok os w) :
    SerialLog calls ok d₀ (execCalls calls os w).1 (execCalls calls os w).2 := by
  induction os generalizing w with
  | nil => exact h
  | cons o os ih =>
      exact ih (h.call o hok.1 (execLog_mem_stops (calls o) w.2)) hok.2

theorem WritesFrom.history {G : List L → L → D → D → Prop} {p : SqlProgram D R L E α}
    {log₀ log later : List L} {d₀ d d' : D} (h : p.WritesFrom G log d)
    (hlog : History G log₀ d₀ log d) (hstop : (later, d') ∈ p.stops d) :
    History G log₀ d₀ (log ++ later) d' := by
  induction p generalizing log later d with
  | ret a =>
      obtain ⟨rfl, rfl⟩ : later = [] ∧ d' = d := by simpa [stops] using hstop
      simpa using hlog
  | raise e =>
      obtain ⟨rfl, rfl⟩ : later = [] ∧ d' = d := by simpa [stops] using hstop
      simpa using hlog
  | select l next ih => exact ih d h hlog hstop
  | lock l rows next ih => exact ih d h hlog hstop
  | commit l write next ih =>
      rcases List.mem_cons.1 hstop with heq | hmem
      · obtain ⟨rfl, rfl⟩ := Prod.mk.inj heq
        simpa using hlog
      · obtain ⟨stop, hnext, heq⟩ := List.mem_map.1 hmem
        obtain ⟨rfl, rfl⟩ := Prod.mk.inj heq
        simpa using ih h.2 (hlog.commit l h.1) hnext

/-- The commits of a serial run are a history. -/
theorem SerialLog.history {calls : O → SqlProgram D R L E α} {ok : List L → D → O → Prop}
    {G : List L → L → D → D → Prop} {d₀ d : D} {log : List L} (h : SerialLog calls ok d₀ log d)
    (hcall : ∀ log d o, ok log d o → (calls o).WritesFrom G log d) :
    History G [] d₀ log d := by
  induction h with
  | nil => exact .start
  | call o _ hok hstop ih => exact (hcall _ _ o hok).history ih hstop

-- programs are taken apart by the lemmas above and not by evaluating their guards
attribute [irreducible] Writes WritesFrom

end SqlProgram
