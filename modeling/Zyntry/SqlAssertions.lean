import Zyntry.SqlCommits

/-!
# Assertions that other sessions cannot break

A `Discipline` is what a group of clients agrees on: an invariant of the
committed state and the commit log, and for every commit the change it may make
given the locks its session owns. An assertion of one session is stable when no
commit of a session owning none of its locks can break it. `Sat` walks through a
program and asks that every commit obeys the discipline, where the facts known
at a commit are stable assertions collected on the way.

A discipline may also restrict the interleavings it speaks about: `own` is
assumed of the statement a session runs, and `compatible l m` of a commit
labelled `l` while another session stands before the statement `m`.
-/

namespace SqlProgram

variable {S D R L E α β : Type}

structure Discipline (D R L : Type) where
  inv : D → List L → Prop
  guarantee : Set R → L → D → D → Prop
  own : L → D → Prop
  compatible : L → L → Prop

/-- The label of the statement a session stands before. -/
def head : SqlProgram D R L E α → Option L
  | .ret _ => none
  | .raise _ => none
  | .select l _ => some l
  | .lock l _ _ => some l
  | .commit l _ _ => some l

/-- A session that has come to its end stays there, and changes nothing. -/
theorem World.step_of_head_none [DecidableEq S] [DecidableEq R] {w w' : World S D R L E α}
    {s : S} (hhead : (w.session s).head = none) (hstep : w.step s = some w') :
    w' = { w with owner := w.freed s } := by
  cases World.stepped hstep with
  | ret hp => rfl
  | raise hp => rfl
  | select hp =>
      rw [hp] at hhead
      cases hhead
  | lock hp hfree =>
      rw [hp] at hhead
      cases hhead
  | commit hp =>
      rw [hp] at hhead
      cases hhead

namespace Discipline

variable (Δ : Discipline D R L)

/-- `Q` survives every commit of a session that owns nothing of `H`, while this
session stands before the statement `m`. -/
def Stable (H : Set R) (m : L) (Q : D → Prop) : Prop :=
  ∀ d d' log H' l, Δ.inv d log → (∀ r ∈ H', r ∉ H) → Δ.compatible l m → Δ.guarantee H' l d d' →
    Q d → Q d'

theorem stable_true (H : Set R) (m : L) : Δ.Stable H m (fun _ => True) :=
  fun _ _ _ _ _ _ _ _ _ _ => trivial

theorem Stable.and {Δ : Discipline D R L} {H : Set R} {m : L} {Q Q' : D → Prop}
    (h : Δ.Stable H m Q) (h' : Δ.Stable H m Q') : Δ.Stable H m (fun d => Q d ∧ Q' d) :=
  fun d d' log H' l hi hd hc hg hq =>
    ⟨h d d' log H' l hi hd hc hg hq.1, h' d d' log H' l hi hd hc hg hq.2⟩

theorem Stable.mono_held {Δ : Discipline D R L} {H H₁ : Set R} {m : L} {Q : D → Prop}
    (h : Δ.Stable H m Q) (hsub : H ⊆ H₁) : Δ.Stable H₁ m Q :=
  fun d d' log H' l hi hd hc hg hq =>
    h d d' log H' l hi (fun r hr hrH => hd r hr (hsub hrH)) hc hg hq

/-- `Q` survives every commit of a session that owns nothing of `H`, whatever
statement comes next. -/
def Firm (H : Set R) (Q : D → Prop) : Prop := ∀ m, Δ.Stable H m Q

/-- `Q` survives every commit whatsoever. -/
def Lasting (Q : D → Prop) : Prop :=
  ∀ d d' log H' l, Δ.inv d log → Δ.guarantee H' l d d' → Q d → Q d'

theorem firm_true (H : Set R) : Δ.Firm H (fun _ => True) := fun m => Δ.stable_true H m

theorem Firm.and {Δ : Discipline D R L} {H : Set R} {Q Q' : D → Prop} (h : Δ.Firm H Q)
    (h' : Δ.Firm H Q') : Δ.Firm H (fun d => Q d ∧ Q' d) := fun m => (h m).and (h' m)

theorem Firm.mono_held {Δ : Discipline D R L} {H H₁ : Set R} {Q : D → Prop} (h : Δ.Firm H Q)
    (hsub : H ⊆ H₁) : Δ.Firm H₁ Q := fun m => (h m).mono_held hsub

theorem Lasting.firm {Δ : Discipline D R L} {Q : D → Prop} (h : Δ.Lasting Q) (H : Set R) :
    Δ.Firm H Q := fun _ d d' log H' l hi _ _ hg => h d d' log H' l hi hg

theorem lasting_true : Δ.Lasting (fun _ => True) := fun _ _ _ _ _ _ _ _ => trivial

/-- The program obeys the discipline from any moment where its session owns `H`
and `Q` holds; on return, `post` gets what is then owned and known. -/
def Sat : SqlProgram D R L E α → Set R → (D → Prop) → (α → Set R → (D → Prop) → Prop) → Prop
  | .ret a, H, Q, post => post a H Q
  | .raise _, _, _, _ => True
  | .select l next, H, Q, post => Δ.Stable H l Q ∧
      ∀ d log, Δ.inv d log → Δ.own l d → Q d → ∃ Q' : D → Prop, Q' d ∧ Sat (next d) H Q' post
  | .lock l rows next, H, Q, post => Δ.Stable H l Q ∧
      ∀ d log, Δ.inv d log → Δ.own l d → Q d →
        ∃ Q' : D → Prop, Q' d ∧ Sat (next d) (H ∪ {r | r ∈ rows d}) Q' post
  | .commit l write next, H, Q, post => Δ.Stable H l Q ∧
      ∀ d log, Δ.inv d log → Δ.own l d → Q d →
        Δ.guarantee H l d (write d) ∧ Δ.inv (write d) (log ++ [l]) ∧
          ∃ Q' : D → Prop, Q' (write d) ∧ Sat next ∅ Q' post

theorem sat_bind (p : SqlProgram D R L E α) (f : α → SqlProgram D R L E β) (H : Set R)
    (Q : D → Prop) (post : β → Set R → (D → Prop) → Prop)
    (h : Δ.Sat p H Q (fun a H' Q' => Δ.Sat (f a) H' Q' post)) : Δ.Sat (p >>= f) H Q post := by
  induction p generalizing H Q with
  | ret a => exact h
  | raise e => trivial
  | select l next ih =>
      refine ⟨h.1, fun d log hi ho hq => ?_⟩
      obtain ⟨Q', hq', hs⟩ := h.2 d log hi ho hq
      exact ⟨Q', hq', ih d H Q' hs⟩
  | lock l rows next ih =>
      refine ⟨h.1, fun d log hi ho hq => ?_⟩
      obtain ⟨Q', hq', hs⟩ := h.2 d log hi ho hq
      exact ⟨Q', hq', ih d _ Q' hs⟩
  | commit l write next ih =>
      refine ⟨h.1, fun d log hi ho hq => ?_⟩
      obtain ⟨hg, hi', Q', hq', hs⟩ := h.2 d log hi ho hq
      exact ⟨hg, hi', Q', hq', ih ∅ Q' hs⟩

theorem Sat.mono {Δ : Discipline D R L} {p : SqlProgram D R L E α} {H : Set R} {Q : D → Prop}
    {post post' : α → Set R → (D → Prop) → Prop} (h : Δ.Sat p H Q post)
    (hp : ∀ a H' Q', post a H' Q' → post' a H' Q') : Δ.Sat p H Q post' := by
  induction p generalizing H Q with
  | ret a => exact hp a H Q h
  | raise e => trivial
  | select l next ih =>
      refine ⟨h.1, fun d log hi ho hq => ?_⟩
      obtain ⟨Q', hq', hs⟩ := h.2 d log hi ho hq
      exact ⟨Q', hq', ih d hs⟩
  | lock l rows next ih =>
      refine ⟨h.1, fun d log hi ho hq => ?_⟩
      obtain ⟨Q', hq', hs⟩ := h.2 d log hi ho hq
      exact ⟨Q', hq', ih d hs⟩
  | commit l write next ih =>
      refine ⟨h.1, fun d log hi ho hq => ?_⟩
      obtain ⟨hg, hi', Q', hq', hs⟩ := h.2 d log hi ho hq
      exact ⟨hg, hi', Q', hq', ih hs⟩

/-- Go on from `d` with a firm assertion that holds there. -/
theorem Firm.known {Δ : Discipline D R L} {H : Set R} {Q : D → Prop} (hQ : Δ.Firm H Q) {d : D}
    (hq : Q d) {p : SqlProgram D R L E α} {post : α → Set R → (D → Prop) → Prop}
    (h : Δ.Firm H Q → Δ.Sat p H Q post) : ∃ Q' : D → Prop, Q' d ∧ Δ.Sat p H Q' post :=
  ⟨Q, hq, h hQ⟩

/-- In `d`, returning `a` while owning `H` establishes `post`. -/
def Reaches (post : α → Set R → (D → Prop) → Prop) (d : D) (a : α) (H : Set R) : Prop :=
  ∃ Q : D → Prop, Q d ∧ post a H Q

theorem reaches_true (d : D) (a : α) (H : Set R) :
    Reaches (fun (_ : α) (_ : Set R) (_ : D → Prop) => True) d a H :=
  ⟨fun _ => True, trivial, trivial⟩

/-- The loop rule: `J` relates what is owned and what is known between rounds. -/
theorem sat_forEach {J : Set R → (D → Prop) → Prop} {xs : List β}
    {f : β → SqlProgram D R L E Unit}
    (hf : ∀ x ∈ xs, ∀ H Q, J H Q → Δ.Sat (f x) H Q (fun _ H' Q' => J H' Q'))
    {H : Set R} {Q : D → Prop} (hJ : J H Q) :
    Δ.Sat (forEach xs f) H Q (fun _ H' Q' => J H' Q') := by
  induction xs generalizing H Q with
  | nil => exact hJ
  | cons x xs ih =>
      refine Δ.sat_bind (f x) (fun _ => forEach xs f) H Q _ ?_
      exact (hf x List.mem_cons_self H Q hJ).mono fun _ H' Q' hJ' =>
        ih (fun y hy => hf y (List.mem_cons_of_mem x hy)) hJ'

/-- One round of a loop turns `J` into `G`, and the others keep both. -/
theorem sat_forEach_mem {J G : Set R → (D → Prop) → Prop} {xs : List β} (x₀ : β)
    {f : β → SqlProgram D R L E Unit} (hx₀ : x₀ ∈ xs)
    (hJ : ∀ x ∈ xs, ∀ H Q, J H Q → Δ.Sat (f x) H Q (fun _ H' Q' => J H' Q'))
    (hG : ∀ x ∈ xs, ∀ H Q, G H Q → Δ.Sat (f x) H Q (fun _ H' Q' => G H' Q'))
    (h₀ : ∀ H Q, J H Q → Δ.Sat (f x₀) H Q (fun _ H' Q' => G H' Q'))
    {H : Set R} {Q : D → Prop} (h : J H Q) :
    Δ.Sat (forEach xs f) H Q (fun _ H' Q' => G H' Q') := by
  induction xs generalizing H Q with
  | nil => cases hx₀
  | cons x xs ih =>
      refine Δ.sat_bind (f x) (fun _ => forEach xs f) H Q _ ?_
      rcases List.mem_cons.mp hx₀ with rfl | hmem
      · exact (h₀ H Q h).mono fun _ H' Q' hg =>
          Δ.sat_forEach (fun y hy => hG y (List.mem_cons_of_mem _ hy)) hg
      · exact (hJ x List.mem_cons_self H Q h).mono fun _ H' Q' hj =>
          ih hmem (fun y hy => hJ y (List.mem_cons_of_mem x hy))
            (fun y hy => hG y (List.mem_cons_of_mem x hy)) hj

/-! ## Statements in sequence -/

theorem sat_query {H : Set R} {Q : D → Prop} {l : L} {f : D → β}
    {k : β → SqlProgram D R L E α} {post : α → Set R → (D → Prop) → Prop} (hQ : Δ.Stable H l Q)
    (h : ∀ d log, Δ.inv d log → Δ.own l d → Q d →
      ∃ Q' : D → Prop, Q' d ∧ Δ.Sat (k (f d)) H Q' post) :
    Δ.Sat (query l f >>= k) H Q post := ⟨hQ, h⟩

theorem sat_locking {H : Set R} {Q : D → Prop} {l : L} {rows : D → List R} {f : D → β}
    {k : β → SqlProgram D R L E α} {post : α → Set R → (D → Prop) → Prop} (hQ : Δ.Stable H l Q)
    (h : ∀ d log, Δ.inv d log → Δ.own l d → Q d →
      ∃ Q' : D → Prop, Q' d ∧ Δ.Sat (k (f d)) (H ∪ {r | r ∈ rows d}) Q' post) :
    Δ.Sat (locking l rows f >>= k) H Q post := ⟨hQ, h⟩

theorem sat_write {H : Set R} {Q : D → Prop} {l : L} {w : D → D}
    {k : Unit → SqlProgram D R L E α} {post : α → Set R → (D → Prop) → Prop}
    (hQ : Δ.Stable H l Q)
    (h : ∀ d log, Δ.inv d log → Δ.own l d → Q d →
      Δ.guarantee H l d (w d) ∧ Δ.inv (w d) (log ++ [l]) ∧
        ∃ Q' : D → Prop, Q' (w d) ∧ Δ.Sat (k ()) ∅ Q' post) :
    Δ.Sat (write l w >>= k) H Q post := ⟨hQ, h⟩

/-- A program whose commits the discipline admits in every state has nothing to remember. -/
theorem sat_of_writes {G : L → D → D → Prop}
    (hG : ∀ H l d d' log, G l d d' → Δ.inv d log → Δ.own l d →
      Δ.guarantee H l d d' ∧ Δ.inv d' (log ++ [l]))
    {p : SqlProgram D R L E α} (hp : p.Writes G) (H : Set R) :
    Δ.Sat p H (fun _ => True) fun _ _ _ => True := by
  induction p generalizing H with
  | ret a => trivial
  | raise e => trivial
  | select l next ih =>
      refine ⟨Δ.stable_true H l, fun d _ _ _ _ => ⟨fun _ => True, trivial, ?_⟩⟩
      exact ih d (writes_select.mp hp d) H
  | lock l rows next ih =>
      refine ⟨Δ.stable_true H l, fun d _ _ _ _ => ⟨fun _ => True, trivial, ?_⟩⟩
      exact ih d (writes_lock.mp hp d) _
  | commit l write next ih =>
      refine ⟨Δ.stable_true H l, fun d log hinv hown _ => ?_⟩
      obtain ⟨hwrite, hrest⟩ := writes_commit.mp hp
      obtain ⟨hguarantee, hnext⟩ := hG H l d (write d) log (hwrite d) hinv hown
      exact ⟨hguarantee, hnext, fun _ => True, trivial, ih hrest ∅⟩

/-- A handler that only renames the exception changes nothing. -/
theorem Sat.catching_raise {Δ : Discipline D R L} {p : SqlProgram D R L E α} {H : Set R}
    {Q : D → Prop} {post : α → Set R → (D → Prop) → Prop} (h : Δ.Sat p H Q post) (renamed : E → E) :
    Δ.Sat (p.catching fun e => .raise (renamed e)) H Q post := by
  induction p generalizing H Q with
  | ret a => exact h
  | raise e => trivial
  | select l next ih =>
      refine ⟨h.1, fun d log hi ho hq => ?_⟩
      obtain ⟨Q', hq', hsat⟩ := h.2 d log hi ho hq
      exact ⟨Q', hq', ih d hsat⟩
  | lock l rows next ih =>
      refine ⟨h.1, fun d log hi ho hq => ?_⟩
      obtain ⟨Q', hq', hsat⟩ := h.2 d log hi ho hq
      exact ⟨Q', hq', ih d hsat⟩
  | commit l write next ih =>
      refine ⟨h.1, fun d log hi ho hq => ?_⟩
      obtain ⟨hguarantee, hinv, Q', hq', hsat⟩ := h.2 d log hi ho hq
      exact ⟨hguarantee, hinv, Q', hq', ih hsat⟩

/-! ## Soundness over every interleaving -/

/-- A return establishes `P` of its value. -/
def Ensures (P : α → D → Prop) (a : α) (_ : Set R) (Q : D → Prop) : Prop := ∀ d, Q d → P a d

/-- The invariant holds, every session is where its program says it is, and what a
session has returned satisfies `post`. -/
def Fulfilled (post : S → α → D → Prop) (w : World S D R L E α) : Prop :=
  Δ.inv w.db w.log ∧
    ∀ s, ∃ Q : D → Prop, Q w.db ∧ Δ.Sat (w.session s) (w.held s) Q (Ensures (post s))

/-- The invariant holds and every session is where its program says it is. -/
def Obeyed (w : World S D R L E α) : Prop :=
  Δ.inv w.db w.log ∧
    ∀ s, ∃ Q : D → Prop, Q w.db ∧ Δ.Sat (w.session s) (w.held s) Q (fun _ _ _ => True)

theorem fulfilled_true (w : World S D R L E α) :
    Δ.Fulfilled (fun _ _ _ => True) w ↔ Δ.Obeyed w := by
  refine and_congr_right fun _ => forall_congr' fun s => exists_congr fun Q => ?_
  refine and_congr_right fun _ => ?_
  exact ⟨fun h => h.mono fun _ _ _ _ => trivial, fun h => h.mono fun _ _ _ _ _ _ => trivial⟩

/-- The interleavings the discipline speaks about. -/
def Permits (w : World S D R L E α) (s : S) : Prop :=
  (∀ l, (w.session s).head = some l → Δ.own l w.db) ∧
    ∀ l write next, w.session s = .commit l write next →
      ∀ t, t ≠ s → ∀ m, (w.session t).head = some m → Δ.compatible l m

theorem held_start (db : D) (session : S → SqlProgram D R L E α) (s : S) :
    (World.start (R := R) (L := L) db session).held s = ∅ := by
  ext r
  simp [World.held, World.start]

theorem fulfilled_start {post : S → α → D → Prop} {db : D} {session : S → SqlProgram D R L E α}
    (hi : Δ.inv db [])
    (hs : ∀ s, Δ.Sat (session s) ∅ (fun _ => True) (Ensures (post s))) :
    Δ.Fulfilled post (World.start db session) :=
  ⟨hi, fun s => ⟨fun _ => True, trivial, by rw [held_start]; exact hs s⟩⟩

theorem obeyed_start {db : D} {session : S → SqlProgram D R L E α} (hi : Δ.inv db [])
    (hs : ∀ s, Δ.Sat (session s) ∅ (fun _ => True) (fun _ _ _ => True)) :
    Δ.Obeyed (World.start db session) :=
  ⟨hi, fun s => ⟨fun _ => True, trivial, by rw [held_start]; exact hs s⟩⟩

variable {Δ}

/-- A session that has ended only keeps what it has returned. -/
theorem exists_sat_of_ended {P : α → D → Prop} {p : SqlProgram D R L E α} (hp : p.head = none)
    {d : D} (hP : ∀ a, p = .ret a → P a d) (H : Set R) :
    ∃ Q : D → Prop, Q d ∧ Δ.Sat p H Q (Ensures P) := by
  cases p with
  | ret a => exact ⟨P a, hP a rfl, fun _ h => h⟩
  | raise e => exact ⟨fun _ => True, trivial, trivial⟩
  | select l next => simp [head] at hp
  | lock l rows next => simp [head] at hp
  | commit l write next => simp [head] at hp

theorem Sat.returned {P : α → D → Prop} {p : SqlProgram D R L E α} {H : Set R} {Q : D → Prop}
    (h : Δ.Sat p H Q (Ensures P)) {d : D} (hq : Q d) : ∀ a, p = .ret a → P a d := by
  rintro a rfl
  exact h d hq

theorem Sat.stable {p : SqlProgram D R L E α} {H : Set R} {Q : D → Prop} {m : L}
    {post : α → Set R → (D → Prop) → Prop} (h : Δ.Sat p H Q post) (hm : p.head = some m) :
    Δ.Stable H m Q := by
  cases p with
  | ret a => simp [head] at hm
  | raise e => simp [head] at hm
  | select l next => simp only [head, Option.some.injEq] at hm; exact hm ▸ h.1
  | lock l rows next => simp only [head, Option.some.injEq] at hm; exact hm ▸ h.1
  | commit l write next => simp only [head, Option.some.injEq] at hm; exact hm ▸ h.1

theorem Fulfilled.returned {post : S → α → D → Prop} {w : World S D R L E α} {s : S} {a : α}
    (h : Δ.Fulfilled post w) (hs : w.session s = .ret a) : post s a w.db := by
  obtain ⟨Q, hq, hsat⟩ := h.2 s
  exact hsat.returned hq a hs

variable [DecidableEq S] {post : S → α → D → Prop}

/-- Only the stepping session moves when the database does not change. -/
theorem Fulfilled.step_quiet {w w' : World S D R L E α} {s : S} (h : Δ.Fulfilled post w)
    (hdb : w'.db = w.db) (hlog : w'.log = w.log)
    (hother : ∀ t, t ≠ s → w'.session t = w.session t ∧ w'.held t = w.held t)
    (hself : ∃ Q : D → Prop, Q w.db ∧
      Δ.Sat (w'.session s) (w'.held s) Q (Ensures (post s))) :
    Δ.Fulfilled post w' := by
  refine ⟨hdb ▸ hlog ▸ h.1, fun t => ?_⟩
  rw [hdb]
  by_cases hts : t = s
  · exact hts ▸ hself
  · rw [(hother t hts).1, (hother t hts).2]
    exact h.2 t

theorem Fulfilled.crash {w : World S D R L E α} (h : Δ.Fulfilled post w) (s : S) (e : E) :
    Δ.Fulfilled post (w.crash s e) := by
  have hself : (w.crash s e).session s = .raise e := Function.update_self s _ _
  refine h.step_quiet (s := s) rfl rfl (fun t hts => ⟨?_, World.held_freed_other w _ hts rfl⟩) ?_
  · simp only [World.crash, World.goto, Function.update_of_ne hts]
  · rw [hself]
    exact exists_sat_of_ended rfl (fun a ha => by cases ha) _

variable [DecidableEq R]

theorem Fulfilled.step {w w' : World S D R L E α} {s : S} (hpost : ∀ s a, Δ.Lasting (post s a))
    (h : Δ.Fulfilled post w) (hok : Δ.Permits w s) (hstep : w.step s = some w') :
    Δ.Fulfilled post w' := by
  obtain ⟨Q, hq, hsat⟩ := h.2 s
  cases World.stepped hstep with
  | ret hp =>
      exact h.step_quiet rfl rfl (fun t hts => ⟨rfl, World.held_freed_other w _ hts rfl⟩)
        (exists_sat_of_ended (by simp only [hp, head]) (hsat.returned hq) _)
  | raise hp =>
      exact h.step_quiet rfl rfl (fun t hts => ⟨rfl, World.held_freed_other w _ hts rfl⟩)
        (exists_sat_of_ended (by simp only [hp, head]) (hsat.returned hq) _)
  | @select l next hp =>
      rw [hp] at hsat
      obtain ⟨Q', hq', hsat'⟩ := hsat.2 _ _ h.1 (hok.1 l (by rw [hp]; rfl)) hq
      refine h.step_quiet (s := s) rfl rfl (fun t hts => ⟨?_, rfl⟩) ⟨Q', hq', ?_⟩
      · simp only [World.goto, Function.update_of_ne hts]
      · change Δ.Sat (w.goto s (next w.db) s) (w.held s) Q' _
        simpa only [World.goto, Function.update_self] using hsat'
  | @lock l rows next hp hfree =>
      rw [hp] at hsat
      obtain ⟨Q', hq', hsat'⟩ := hsat.2 _ _ h.1 (hok.1 l (by rw [hp]; rfl)) hq
      refine h.step_quiet (s := s) rfl rfl (fun t hts => ⟨?_, ?_⟩) ⟨Q', hq', ?_⟩
      · simp only [World.goto, Function.update_of_ne hts]
      · exact World.held_claimed_other w _ hts (rows w.db) hfree rfl
      · rw [World.held_claimed_self w _ s (rows w.db) rfl]
        simpa only [World.goto, Function.update_self] using hsat'
  | @commit l write next hp =>
      rw [hp] at hsat
      obtain ⟨hguar, hinv', Q', hq', hsat'⟩ := hsat.2 _ _ h.1 (hok.1 l (by rw [hp]; rfl)) hq
      refine ⟨hinv', fun t => ?_⟩
      by_cases hts : t = s
      · subst hts
        refine ⟨Q', hq', ?_⟩
        rw [World.held_freed_self w _ t rfl]
        simpa only [World.goto, Function.update_self] using hsat'
      · -- the commit of `s` is interference for the assertion of `t`
        rw [World.held_freed_other w _ hts rfl]
        obtain ⟨P, hP, hsatP⟩ := h.2 t
        simp only [World.goto, Function.update_of_ne hts]
        cases hm : (w.session t).head with
        | none =>
            exact exists_sat_of_ended hm
              (fun a ha => hpost t a _ _ _ _ l h.1 hguar (hsatP.returned hP a ha)) _
        | some m =>
            have hdisj : ∀ r ∈ w.held s, r ∉ w.held t :=
              World.held_disjoint w (fun he => hts he.symm)
            have hcomp := hok.2 l write next hp t hts m hm
            exact ⟨P, hsatP.stable hm _ _ _ _ l h.1 hdisj hcomp hguar hP, hsatP⟩

/-- The run rule: sessions that obey the discipline keep its invariant in every
world of every permitted interleaving, crashes included, and what they return
stays true. -/
theorem Fulfilled.run {ok : World S D R L E α → S → Prop} {w₀ w : World S D R L E α}
    (h : World.Run ok w₀ w) (hok : ∀ w s, ok w s → Δ.Permits w s)
    (hpost : ∀ s a, Δ.Lasting (post s a)) (h₀ : Δ.Fulfilled post w₀) : Δ.Fulfilled post w := by
  induction h with
  | start => exact h₀
  | step s _ hs hstep ih => exact ih.step hpost (hok _ _ hs) hstep
  | crash s e _ ih => exact ih.crash s e

theorem Obeyed.run {ok : World S D R L E α → S → Prop} {w₀ w : World S D R L E α}
    (h : World.Run ok w₀ w) (hok : ∀ w s, ok w s → Δ.Permits w s) (h₀ : Δ.Obeyed w₀) :
    Δ.Obeyed w :=
  (Δ.fulfilled_true w).mp (Fulfilled.run h hok (fun _ _ => Δ.lasting_true)
    ((Δ.fulfilled_true w₀).mpr h₀))

theorem Obeyed.step_lasting {w w' : World S D R L E α} {s : S} {Q : D → Prop} (h : Δ.Obeyed w)
    (hok : Δ.Permits w s) (hstep : w.step s = some w') (hQ : Δ.Lasting Q) (hq : Q w.db) :
    Q w'.db := by
  obtain ⟨P, hP, hsat⟩ := h.2 s
  cases World.stepped hstep with
  | ret hp => exact hq
  | raise hp => exact hq
  | select hp => exact hq
  | lock hp hfree => exact hq
  | @commit l write next hp =>
      rw [hp] at hsat
      have hguar := (hsat.2 _ _ h.1 (hok.1 l (by rw [hp]; rfl)) hP).1
      exact hQ _ _ _ _ l h.1 hguar hq

/-- A lasting assertion that holds in one world of a run holds in all later ones. -/
theorem Obeyed.run_lasting {ok : World S D R L E α → S → Prop} {w₀ w : World S D R L E α}
    {Q : D → Prop} (h : World.Run ok w₀ w) (hok : ∀ w s, ok w s → Δ.Permits w s)
    (h₀ : Δ.Obeyed w₀) (hQ : Δ.Lasting Q) (hq : Q w₀.db) : Q w.db := by
  induction h with
  | start => exact hq
  | step s hrun hs hstep ih => exact (Obeyed.run hrun hok h₀).step_lasting (hok _ _ hs) hstep hQ ih
  | crash s e _ ih => exact ih

end Discipline
end SqlProgram
