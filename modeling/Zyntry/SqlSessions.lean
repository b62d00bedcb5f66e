import Zyntry.SqlCommits

/-!
# Who has committed what

The labels of a session are signed with its name, so that the commit log of an interleaving
tells which commits are whose. What a program commits may then be described along its own
earlier commits, whatever the others do in between.
-/

namespace SqlProgram

variable {S D R L E α β : Type}

def signed (s : S) : SqlProgram D R L E α → SqlProgram D R (S × L) E α
  | .ret a => .ret a
  | .raise e => .raise e
  | .select l next => .select (s, l) fun d => (next d).signed s
  | .lock l rows next => .lock (s, l) rows fun d => (next d).signed s
  | .commit l write next => .commit (s, l) write (next.signed s)

/-- After its own commits `mine`, every commit of the program is as `G` says, and what it
returns is as `post` says, whatever it reads. -/
def Emits (G : List L → L → D → D → Prop) (post : List L → α → Prop) :
    SqlProgram D R L E α → List L → Prop
  | .ret a, mine => post mine a
  | .raise _, _ => True
  | .select _ next, mine => ∀ d, (next d).Emits G post mine
  | .lock _ _ next, mine => ∀ d, (next d).Emits G post mine
  | .commit l write next, mine => (∀ d, G mine l d (write d)) ∧ next.Emits G post (mine ++ [l])

section Emits

variable {G : List L → L → D → D → Prop} {post : List L → α → Prop} {mine : List L}

@[simp] theorem emits_ret {a : α} :
    (ret a : SqlProgram D R L E α).Emits G post mine ↔ post mine a := Iff.rfl

@[simp] theorem emits_raise {e : E} :
    (raise e : SqlProgram D R L E α).Emits G post mine ↔ True := Iff.rfl

@[simp] theorem emits_query {l : L} {f : D → β} {k : β → SqlProgram D R L E α} :
    (query l f >>= k).Emits G post mine ↔ ∀ d, (k (f d)).Emits G post mine := Iff.rfl

@[simp] theorem emits_locking {l : L} {rows : D → List R} {f : D → β}
    {k : β → SqlProgram D R L E α} :
    (locking l rows f >>= k).Emits G post mine ↔ ∀ d, (k (f d)).Emits G post mine := Iff.rfl

@[simp] theorem emits_write {l : L} {w : D → D} {k : Unit → SqlProgram D R L E α} :
    (SqlProgram.write l w >>= k).Emits G post mine ↔
      (∀ d, G mine l d (w d)) ∧ (k ()).Emits G post (mine ++ [l]) := Iff.rfl

@[simp] theorem emits_ensure {p : Prop} [Decidable p] {e : E} {k : Unit → SqlProgram D R L E α} :
    (ensure p e >>= k).Emits G post mine ↔ (p → (k ()).Emits G post mine) := by
  unfold ensure
  split_ifs with hp <;> simp [hp]

@[simp] theorem emits_orRaise {o : Option β} {e : E} {k : β → SqlProgram D R L E α} :
    (orRaise o e >>= k).Emits G post mine ↔ ∀ b, o = some b → (k b).Emits G post mine := by
  cases o <;> simp [orRaise]

@[simp] theorem emits_ofExcept {x : Except E β} {k : β → SqlProgram D R L E α} :
    (ofExcept x >>= k).Emits G post mine ↔ ∀ b, x = .ok b → (k b).Emits G post mine := by
  cases x <;> simp [ofExcept]

end Emits

/-! ## The log of one session -/

/-- What the session has committed. -/
def ofSession [DecidableEq S] (s : S) (log : List (S × L)) : List L :=
  (log.filter fun e => e.1 = s).map Prod.snd

section OfSession

variable [DecidableEq S] {s : S} {log : List (S × L)}

theorem ofSession_append_self (l : L) : ofSession s (log ++ [(s, l)]) = ofSession s log ++ [l] := by
  simp [ofSession]

theorem ofSession_append_other {t : S} (hts : t ≠ s) (l : L) :
    ofSession s (log ++ [(t, l)]) = ofSession s log := by
  simp [ofSession, hts]

theorem mem_ofSession {l : L} : l ∈ ofSession s log ↔ (s, l) ∈ log := by
  simp [ofSession]

/-- What only one session commits is counted in its own log. -/
theorem countP_ofSession {q : L → Bool} (h : ∀ e ∈ log, q e.2 = true → e.1 = s) :
    log.countP (fun e => q e.2) = (ofSession s log).countP q := by
  have hcongr : log.countP (fun e => q e.2) =
      log.countP fun e => decide (q e.2 = true ∧ e.1 = s) := by
    apply List.countP_congr
    intro e he
    simpa using h e he
  rw [hcongr, ofSession, List.countP_map, List.countP_filter]
  simp

end OfSession

/-- What is counted once is one entry. -/
theorem eq_of_countP_le_one {q : L → Bool} {log : List L} {a b : L} (h : log.countP q ≤ 1)
    (ha : a ∈ log) (hqa : q a = true) (hb : b ∈ log) (hqb : q b = true) : a = b := by
  have hlength : (log.filter q).length ≤ 1 := by rwa [← List.countP_eq_length_filter]
  have ha' : a ∈ log.filter q := List.mem_filter.2 ⟨ha, hqa⟩
  have hb' : b ∈ log.filter q := List.mem_filter.2 ⟨hb, hqb⟩
  cases hlog : log.filter q with
  | nil => simp [hlog] at ha'
  | cons c cs =>
      obtain rfl : cs = [] := List.length_eq_zero_iff.1 (by simpa [hlog] using hlength)
      rw [hlog, List.mem_singleton] at ha' hb'
      rw [ha', hb']

/-- What every session keeps true of its own log. -/
theorem History.forall_ofSession [DecidableEq S] {T : S → List L → Prop}
    {G : List (S × L) → S × L → D → D → Prop} {d₀ d : D} {log : List (S × L)}
    (h : History G [] d₀ log d) (h₀ : ∀ s, T s [])
    (hG : ∀ log e d d', G log e d d' → T e.1 (ofSession e.1 log ++ [e.2])) :
    ∀ s, T s (ofSession s log) := by
  refine h.invariant (I := fun log _ => ∀ s, T s (ofSession s log)) h₀ ?_
  rintro log ⟨t, l⟩ d d' ih hg s
  by_cases hts : t = s
  · subst hts
    rw [ofSession_append_self]
    exact hG log (t, l) d d' hg
  · rw [ofSession_append_other hts]
    exact ih s

/-! ## Interleavings of signed programs -/

namespace World

variable [DecidableEq S] [DecidableEq R]

/-- Any number of sessions that sign what they commit. -/
def startSigned (db : D) (program : S → SqlProgram D R L E α) : World S D R (S × L) E α :=
  start db fun s => (program s).signed s

/-- What is left of each session follows its own log. -/
def SignedBy (G : S → List L → L → D → D → Prop) (post : S → List L → α → Prop)
    (w : World S D R (S × L) E α) : Prop :=
  ∀ s, ∃ p : SqlProgram D R L E α, w.session s = p.signed s ∧
    p.Emits (G s) (post s) (ofSession s w.log)

variable {G : S → List L → L → D → D → Prop} {post : S → List L → α → Prop}

omit [DecidableEq R] in
/-- One session goes on, with the log as it was. -/
theorem SignedBy.goto {w : World S D R (S × L) E α} {s : S} {p : SqlProgram D R L E α}
    (h : SignedBy G post w) (hp : p.Emits (G s) (post s) (ofSession s w.log))
    {owner : R → Option S} : SignedBy G post
      { w with owner, session := w.goto s (p.signed s) } := by
  intro t
  by_cases hts : t = s
  · subst hts
    exact ⟨p, Function.update_self _ _ _, hp⟩
  · obtain ⟨q, hq, hqemits⟩ := h t
    exact ⟨q, (Function.update_of_ne hts _ _).trans hq, hqemits⟩

/-- A statement of a signed session leaves it signed, and its commit is as `G` says. -/
theorem SignedBy.step {w w' : World S D R (S × L) E α} {s : S} (h : SignedBy G post w)
    (hstep : w.step s = some w') : SignedBy G post w' ∧
      (w'.log = w.log ∧ w'.db = w.db ∨
        ∃ l, (∃ write next, w.session s = .commit (s, l) write next) ∧
        w'.log = w.log ++ [(s, l)] ∧ G s (ofSession s w.log) l w.db w'.db) := by
  obtain ⟨p, hp, hemits⟩ := h s
  cases p with
  | ret a =>
      obtain rfl := step_ret (hp.trans rfl) hstep
      exact ⟨h, .inl ⟨rfl, rfl⟩⟩
  | raise e =>
      obtain rfl := step_raise (hp.trans rfl) hstep
      exact ⟨h, .inl ⟨rfl, rfl⟩⟩
  | select l next =>
      obtain rfl := step_select (hp.trans rfl) hstep
      exact ⟨h.goto (hemits w.db), .inl ⟨rfl, rfl⟩⟩
  | lock l rows next =>
      obtain rfl := step_lock (hp.trans rfl) hstep
      exact ⟨h.goto (hemits w.db), .inl ⟨rfl, rfl⟩⟩
  | commit l write next =>
      obtain rfl := step_commit (hp.trans rfl) hstep
      refine ⟨fun t => ?_, .inr ⟨l, ⟨_, _, hp⟩, rfl, hemits.1 w.db⟩⟩
      by_cases hts : t = s
      · subst hts
        refine ⟨next, Function.update_self _ _ _, ?_⟩
        rw [ofSession_append_self]
        exact hemits.2
      · obtain ⟨q, hq, hqemits⟩ := h t
        refine ⟨q, (Function.update_of_ne hts _ _).trans hq, ?_⟩
        rw [ofSession_append_other (Ne.symm hts)]
        exact hqemits

omit [DecidableEq R] in
theorem SignedBy.crash {w : World S D R (S × L) E α} (h : SignedBy G post w) (s : S) (e : E) :
    SignedBy G post (w.crash s e) := by
  intro t
  by_cases hts : t = s
  · subst hts
    exact ⟨.raise e, Function.update_self _ _ _, trivial⟩
  · obtain ⟨q, hq, hqemits⟩ := h t
    exact ⟨q, (Function.update_of_ne hts _ _).trans hq, hqemits⟩

/-- The commits of an interleaving are a history in which each session goes on as its own
program says, and it returns what its program says. -/
theorem Run.signed_history {own : List (S × L) → S × L → D → Prop} {db : D}
    {program : S → SqlProgram D R L E α} {w : World S D R (S × L) E α}
    (h : Run (Commits own) (startSigned db program) w)
    (hprogram : ∀ s, (program s).Emits (G s) (post s) []) :
    History (fun log e d d' => own log e d ∧ G e.1 (ofSession e.1 log) e.2 d d') [] db w.log w.db ∧
      ∀ s a, w.session s = .ret a → post s (ofSession s w.log) a := by
  suffices hinv : SignedBy G post w ∧ History (fun log e d d' =>
      own log e d ∧ G e.1 (ofSession e.1 log) e.2 d d') [] db w.log w.db by
    refine ⟨hinv.2, fun s a ha => ?_⟩
    obtain ⟨p, hp, hemits⟩ := hinv.1 s
    rw [ha] at hp
    cases p with
    | ret b => exact (SqlProgram.ret.inj hp) ▸ hemits
    | _ => cases hp
  induction h with
  | start => exact ⟨fun s => ⟨program s, rfl, hprogram s⟩, .start⟩
  | step s _ hok hstep ih =>
      rename_i w w'
      obtain ⟨hsigned, hlog⟩ := ih.1.step hstep
      refine ⟨hsigned, ?_⟩
      rcases hlog with ⟨hlog, hdb⟩ | ⟨l, ⟨write, next, hs⟩, hlog, hg⟩
      · rw [hlog, hdb]
        exact ih.2
      · rw [hlog]
        simp only [Commits, hs] at hok
        exact ih.2.commit (s, l) ⟨hok, hg⟩
  | crash s e _ ih => exact ⟨ih.1.crash s e, ih.2⟩

end World

attribute [irreducible] Emits

end SqlProgram
