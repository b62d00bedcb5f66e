import Mathlib.Logic.Basic
import Mathlib.Data.List.Basic

/-!
# Database clients as programs of statements

A `SqlProgram` is a client of a database whose committed state has type `D`: it
reads the committed state by plain and by locking statements, and it changes it
only by a commit. What the client has read or changed so far lives in the
continuations, so pending writes are invisible to everybody else until they are
committed. Statements carry a label from `L`, lockable resources are elements
of `R`, and `E` is the type of exceptions.

The serial meaning of a program runs its statements back to back; its meaning
among other clients is given in `SqlInterleaving`.
-/

/-- A client program with result type `α`. A `lock` statement reads and, for the
rest of the transaction, owns the resources `rows d`; `commit` applies all the
writes of the transaction at once and frees what it owned. -/
inductive SqlProgram (D R L E : Type) (α : Type) : Type where
  | ret (a : α)
  | raise (e : E)
  | select (l : L) (next : D → SqlProgram D R L E α)
  | lock (l : L) (rows : D → List R) (next : D → SqlProgram D R L E α)
  | commit (l : L) (write : D → D) (next : SqlProgram D R L E α)

namespace SqlProgram

variable {D R L E α β γ : Type}

/-! ## Sequencing and exception handlers -/

def andThen : SqlProgram D R L E α → (α → SqlProgram D R L E β) → SqlProgram D R L E β
  | .ret a, f => f a
  | .raise e, _ => .raise e
  | .select l next, f => .select l (fun d => (next d).andThen f)
  | .lock l rows next, f => .lock l rows (fun d => (next d).andThen f)
  | .commit l write next, f => .commit l write (next.andThen f)

instance : Monad (SqlProgram D R L E) where
  pure := .ret
  bind := .andThen

/-- `try p except e: h e`, where the handler passes on what it does not catch. -/
def catching : SqlProgram D R L E α → (E → SqlProgram D R L E α) → SqlProgram D R L E α
  | .ret a, _ => .ret a
  | .raise e, h => h e
  | .select l next, h => .select l (fun d => (next d).catching h)
  | .lock l rows next, h => .lock l rows (fun d => (next d).catching h)
  | .commit l write next, h => .commit l write (next.catching h)

/-- A plain `SELECT` evaluated on the committed state. -/
def query (l : L) (f : D → β) : SqlProgram D R L E β := .select l (fun d => .ret (f d))

/-- A `SELECT ... FOR UPDATE`, or the insertion of rows under unique keys: the
client waits for the resources and then reads the latest committed state. -/
def locking (l : L) (rows : D → List R) (f : D → β) : SqlProgram D R L E β :=
  .lock l rows (fun d => .ret (f d))

def write (l : L) (w : D → D) : SqlProgram D R L E Unit := .commit l w (.ret ())

def forEach : List β → (β → SqlProgram D R L E Unit) → SqlProgram D R L E Unit
  | [], _ => .ret ()
  | x :: xs, f => (f x).andThen (fun _ => forEach xs f)

/-- Run for the effect only. -/
def ignore (p : SqlProgram D R L E α) : SqlProgram D R L E Unit := p.andThen (fun _ => .ret ())

@[simp] theorem pure_eq (a : α) : (pure a : SqlProgram D R L E α) = .ret a := rfl

@[simp] theorem ret_bind (a : α) (f : α → SqlProgram D R L E β) : (.ret a >>= f) = f a := rfl

@[simp] theorem raise_bind (e : E) (f : α → SqlProgram D R L E β) :
    (.raise e >>= f) = .raise e := rfl

@[simp] theorem select_bind (l : L) (next : D → SqlProgram D R L E α)
    (f : α → SqlProgram D R L E β) :
    (.select l next >>= f) = .select l (fun d => next d >>= f) := rfl

@[simp] theorem lock_bind (l : L) (rows : D → List R) (next : D → SqlProgram D R L E α)
    (f : α → SqlProgram D R L E β) :
    (.lock l rows next >>= f) = .lock l rows (fun d => next d >>= f) := rfl

@[simp] theorem commit_bind (l : L) (w : D → D) (next : SqlProgram D R L E α)
    (f : α → SqlProgram D R L E β) : (.commit l w next >>= f) = .commit l w (next >>= f) := rfl

/-! ## What a handler does to each statement -/

@[simp] theorem catching_ret (a : α) (h : E → SqlProgram D R L E α) :
    (.ret a : SqlProgram D R L E α).catching h = .ret a := rfl

@[simp] theorem catching_raise (e : E) (h : E → SqlProgram D R L E α) :
    (.raise e : SqlProgram D R L E α).catching h = h e := rfl

@[simp] theorem catching_query (l : L) (f : D → β) (k : β → SqlProgram D R L E α)
    (h : E → SqlProgram D R L E α) :
    (query l f >>= k).catching h = (query l f >>= fun b => (k b).catching h) := rfl

@[simp] theorem catching_locking (l : L) (rows : D → List R) (f : D → β)
    (k : β → SqlProgram D R L E α) (h : E → SqlProgram D R L E α) :
    (locking l rows f >>= k).catching h = (locking l rows f >>= fun b => (k b).catching h) := rfl

@[simp] theorem catching_write (l : L) (w : D → D) (k : Unit → SqlProgram D R L E α)
    (h : E → SqlProgram D R L E α) :
    (write l w >>= k).catching h = (write l w >>= fun u => (k u).catching h) := rfl

theorem bind_assoc (p : SqlProgram D R L E α) (f : α → SqlProgram D R L E β)
    (g : β → SqlProgram D R L E γ) : (p >>= f >>= g) = (p >>= fun a => f a >>= g) := by
  induction p with
  | ret a => rfl
  | raise e => rfl
  | select l next ih => exact congrArg (select l) (funext ih)
  | lock l rows next ih => exact congrArg (lock l rows) (funext ih)
  | commit l w next ih => exact congrArg (commit l w) ih

/-! ## The serial meaning -/

/-- Run the program alone. An exception discards the open transaction, so the
state that remains is the one of the last commit. -/
def exec : SqlProgram D R L E α → D → Except E α × D
  | .ret a, d => (.ok a, d)
  | .raise e, d => (.error e, d)
  | .select _ next, d => (next d).exec d
  | .lock _ _ next, d => (next d).exec d
  | .commit _ w next, d => next.exec (w d)

/-- The committed states a serial execution goes through, oldest first. A client
that stops early, for whatever reason, leaves the start state or one of these. -/
def commits : SqlProgram D R L E α → D → List D
  | .ret _, _ => []
  | .raise _, _ => []
  | .select _ next, d => (next d).commits d
  | .lock _ _ next, d => (next d).commits d
  | .commit _ w next, d => w d :: next.commits (w d)

theorem exec_of_toOption {p : SqlProgram D R L E α} {d : D} {a : α}
    (h : (p.exec d).1.toOption = some a) : p.exec d = (.ok a, (p.exec d).2) := by
  refine Prod.ext ?_ rfl
  cases he : (p.exec d).1 with
  | ok b => simpa [he, Except.toOption] using h
  | error e => simp [he, Except.toOption] at h

theorem exec_bind (p : SqlProgram D R L E α) (f : α → SqlProgram D R L E β) (d : D) :
    (p >>= f).exec d = match p.exec d with
      | (.ok a, d') => (f a).exec d'
      | (.error e, d') => (.error e, d') := by
  induction p generalizing d with
  | ret a => rfl
  | raise e => rfl
  | select l next ih => exact ih d d
  | lock l rows next ih => exact ih d d
  | commit l w next ih => exact ih (w d)

/-- The state an execution ends in is its start state or its last commit. -/
theorem exec_snd_mem (p : SqlProgram D R L E α) (d : D) : (p.exec d).2 ∈ d :: p.commits d := by
  induction p generalizing d with
  | ret a => exact List.mem_cons_self
  | raise e => exact List.mem_cons_self
  | select l next ih => exact ih d d
  | lock l rows next ih => exact ih d d
  | commit l w next ih => exact List.mem_cons_of_mem d (ih (w d))

/-! ## A calculus for serial invariants -/

/-- Run from `d`, every commit of the program leaves a state satisfying `I`, and
a normal return satisfies `post`. -/
def Keeps (I : D → Prop) : SqlProgram D R L E α → D → (α → D → Prop) → Prop
  | .ret a, d, post => post a d
  | .raise _, _, _ => True
  | .select _ next, d, post => (next d).Keeps I d post
  | .lock _ _ next, d, post => (next d).Keeps I d post
  | .commit _ w next, d, post => I (w d) ∧ next.Keeps I (w d) post

@[simp] theorem keeps_ret (I : D → Prop) (a : α) (d : D) (post : α → D → Prop) :
    (ret a : SqlProgram D R L E α).Keeps I d post ↔ post a d := Iff.rfl

@[simp] theorem keeps_raise (I : D → Prop) (e : E) (d : D) (post : α → D → Prop) :
    (raise e : SqlProgram D R L E α).Keeps I d post := trivial

@[simp] theorem keeps_query (I : D → Prop) (l : L) (f : D → β) (d : D) (post : β → D → Prop) :
    (query l f : SqlProgram D R L E β).Keeps I d post ↔ post (f d) d := Iff.rfl

@[simp] theorem keeps_locking (I : D → Prop) (l : L) (rows : D → List R) (f : D → β) (d : D)
    (post : β → D → Prop) :
    (locking l rows f : SqlProgram D R L E β).Keeps I d post ↔ post (f d) d := Iff.rfl

@[simp] theorem keeps_write (I : D → Prop) (l : L) (w : D → D) (d : D)
    (post : Unit → D → Prop) :
    (write l w : SqlProgram D R L E Unit).Keeps I d post ↔ I (w d) ∧ post () (w d) := Iff.rfl

theorem keeps_bind (I : D → Prop) (p : SqlProgram D R L E α) (f : α → SqlProgram D R L E β)
    (d : D) (post : β → D → Prop) :
    (p >>= f).Keeps I d post ↔ p.Keeps I d (fun a d' => (f a).Keeps I d' post) := by
  induction p generalizing d with
  | ret a => rfl
  | raise e => rfl
  | select l next ih => exact ih d d
  | lock l rows next ih => exact ih d d
  | commit l w next ih => exact and_congr_right fun _ => ih (w d)

theorem keeps_ignore {I : D → Prop} {p : SqlProgram D R L E α} {d : D}
    {post : Unit → D → Prop} :
    p.ignore.Keeps I d post ↔ p.Keeps I d (fun _ d' => post () d') :=
  keeps_bind I p (fun _ => ret ()) d post

theorem Keeps.mono {I : D → Prop} {p : SqlProgram D R L E α} {d : D}
    {post post' : α → D → Prop} (h : p.Keeps I d post) (hp : ∀ a d', post a d' → post' a d') :
    p.Keeps I d post' := by
  induction p generalizing d with
  | ret a => exact hp a d h
  | raise e => trivial
  | select l next ih => exact ih d h
  | lock l rows next ih => exact ih d h
  | commit l w next ih => exact ⟨h.1, ih h.2⟩

theorem Keeps.weaken {I I' : D → Prop} {p : SqlProgram D R L E α} {d : D} {post : α → D → Prop}
    (h : p.Keeps I d post) (hI : ∀ d', I d' → I' d') : p.Keeps I' d post := by
  induction p generalizing d with
  | ret a => exact h
  | raise e => trivial
  | select l next ih => exact ih d h
  | lock l rows next ih => exact ih d h
  | commit l w next ih => exact ⟨hI _ h.1, ih h.2⟩

/-- The loop rule: `J` holds before and after every round. -/
theorem keeps_forEach {I J : D → Prop} {xs : List β} {f : β → SqlProgram D R L E Unit}
    (hf : ∀ x ∈ xs, ∀ d, J d → (f x).Keeps I d (fun _ => J)) {d : D} (hd : J d) :
    (forEach xs f).Keeps I d (fun _ => J) := by
  induction xs generalizing d with
  | nil => exact hd
  | cons x xs ih =>
    refine (keeps_bind I (f x) (fun _ => forEach xs f) d _).mpr ?_
    exact (hf x List.mem_cons_self d hd).mono fun _ d' hd' =>
      ih (fun y hy => hf y (List.mem_cons_of_mem x hy)) hd'

/-- The handler starts from a state in which `I` holds, whatever it has to handle. -/
theorem keeps_catching {I : D → Prop} {p : SqlProgram D R L E α} {h : E → SqlProgram D R L E α}
    {d : D} {post : α → D → Prop} (hd : I d) (hp : p.Keeps I d post)
    (hh : ∀ e d', I d' → (h e).Keeps I d' post) : (p.catching h).Keeps I d post := by
  induction p generalizing d with
  | ret a => exact hp
  | raise e => exact hh e d hd
  | select l next ih => exact ih d hd hp
  | lock l rows next ih => exact ih d hd hp
  | commit l w next ih => exact ⟨hp.1, ih hp.1 hp.2⟩

theorem Keeps.commits {I : D → Prop} {p : SqlProgram D R L E α} {d : D}
    {post : α → D → Prop} (h : p.Keeps I d post) : ∀ d' ∈ p.commits d, I d' := by
  induction p generalizing d with
  | ret a => simp [SqlProgram.commits]
  | raise e => simp [SqlProgram.commits]
  | select l next ih => exact ih d h
  | lock l rows next ih => exact ih d h
  | commit l w next ih =>
    intro d' hd'
    rcases List.mem_cons.mp hd' with rfl | hd'
    · exact h.1
    · exact ih h.2 d' hd'

theorem Keeps.exec {I : D → Prop} {p : SqlProgram D R L E α} {d d' : D} {a : α}
    {post : α → D → Prop} (h : p.Keeps I d post) (he : p.exec d = (.ok a, d')) : post a d' := by
  induction p generalizing d with
  | ret b => simp only [SqlProgram.exec, Prod.mk.injEq, Except.ok.injEq] at he; exact he.1 ▸ he.2 ▸ h
  | raise e => simp [SqlProgram.exec] at he
  | select l next ih => exact ih d h he
  | lock l rows next ih => exact ih d h he
  | commit l w next ih => exact ih h.2 he

/-! ## Serial runs -/

/-- A serial run of calls. The call `o` may begin in `d` only if `ok d o`; it
leaves `d` or any state it has committed, so calls that fail, at whatever
statement, are part of the run with their open transaction rolled back. -/
inductive SerialRun {O : Type} (calls : O → SqlProgram D R L E α) (ok : D → O → Prop) (d₀ : D) :
    List O → D → Prop
  | nil : SerialRun calls ok d₀ [] d₀
  | call {os : List O} {d d' : D} (o : O) : SerialRun calls ok d₀ os d → ok d o →
      d' ∈ d :: (calls o).commits d → SerialRun calls ok d₀ (os ++ [o]) d'

theorem SerialRun.invariant {O : Type} {calls : O → SqlProgram D R L E α} {ok : D → O → Prop}
    {I : D → Prop} {d₀ d : D} {os : List O} (hrun : SerialRun calls ok d₀ os d) (h₀ : I d₀)
    (hcall : ∀ d o, I d → ok d o → (calls o).Keeps I d (fun _ _ => True)) : I d := by
  induction hrun with
  | nil => exact h₀
  | call o _ hok hmem ih =>
    rcases List.mem_cons.mp hmem with rfl | hmem
    · exact ih
    · exact (hcall _ o ih hok).commits _ hmem

/-- A serial run that keeps what the calls have returned. A call may return only
from a state that `ok` admits; one that fails leaves any state it has committed. -/
inductive SerialHistory {O : Type} (calls : O → SqlProgram D R L E α) (ok : D → O → Prop) (d₀ : D) :
    List (O × α) → D → Prop
  | nil : SerialHistory calls ok d₀ [] d₀
  | returned {hs : List (O × α)} {d d' : D} {o : O} {a : α} : SerialHistory calls ok d₀ hs d →
      ok d o → (calls o).exec d = (.ok a, d') → SerialHistory calls ok d₀ (hs ++ [(o, a)]) d'
  | failed {hs : List (O × α)} {d d' : D} (o : O) : SerialHistory calls ok d₀ hs d →
      d' ∈ (calls o).commits d → SerialHistory calls ok d₀ hs d'

theorem SerialHistory.invariant {O : Type} {calls : O → SqlProgram D R L E α}
    {ok : D → O → Prop} {I : List (O × α) → D → Prop} {d₀ d : D} {hs : List (O × α)}
    (hrun : SerialHistory calls ok d₀ hs d) (h₀ : I [] d₀)
    (hreturned : ∀ hs d o a d', I hs d → ok d o → (calls o).exec d = (.ok a, d') →
      I (hs ++ [(o, a)]) d')
    (hfailed : ∀ hs d o d', I hs d → d' ∈ (calls o).commits d → I hs d') : I hs d := by
  induction hrun with
  | nil => exact h₀
  | returned _ hok hexec ih => exact hreturned _ _ _ _ _ ih hok hexec
  | failed o _ hmem ih => exact hfailed _ _ o _ ih hmem

/-- Run the calls one after the other to their ends. -/
def execAll {O : Type} (calls : O → SqlProgram D R L E α) : List O → D → D
  | [], d => d
  | o :: os, d => execAll calls os ((calls o).exec d).2

/-- Every call of `execAll` begins in a state that admits it. -/
def Admits {O : Type} (calls : O → SqlProgram D R L E α) (ok : D → O → Prop) : List O → D → Prop
  | [], _ => True
  | o :: os, d => ok d o ∧ Admits calls ok os ((calls o).exec d).2

instance {O : Type} (calls : O → SqlProgram D R L E α) (ok : D → O → Prop)
    [∀ d o, Decidable (ok d o)] : ∀ os d, Decidable (Admits calls ok os d)
  | [], _ => .isTrue trivial
  | o :: os, d =>
      have := instDecidableAdmits calls ok os ((calls o).exec d).2
      inferInstanceAs (Decidable (ok d o ∧ Admits calls ok os ((calls o).exec d).2))

theorem SerialRun.append {O : Type} {calls : O → SqlProgram D R L E α} {ok : D → O → Prop}
    {d₀ d : D} {os : List O} (h : SerialRun calls ok d₀ os d) {os' : List O}
    (hok : Admits calls ok os' d) :
    SerialRun calls ok d₀ (os ++ os') (execAll calls os' d) := by
  induction os' generalizing os d with
  | nil => simpa only [List.append_nil, execAll] using h
  | cons o os' ih =>
    have hlast := ih (h.call o hok.1 (exec_snd_mem (calls o) d)) hok.2
    simpa only [List.append_assoc, List.singleton_append, execAll] using hlast

theorem serialRun_execAll {O : Type} {calls : O → SqlProgram D R L E α} {ok : D → O → Prop}
    {os : List O} {d : D} (hok : Admits calls ok os d) :
    SerialRun calls ok d os (execAll calls os d) := SerialRun.nil.append hok

end SqlProgram
