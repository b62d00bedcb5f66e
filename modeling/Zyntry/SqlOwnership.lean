import Zyntry.SqlInterleaving

/-!
# Owners and observers of a value

Sessions share a value that the database represents. An owner is a program that changes the
value only along a relation, as long as nobody else changes it; an observer leaves it alone and
copes with every change that an owner makes. What a step of either does to the value is told
here once, whichever lock or protocol decides who the owner is.
-/

namespace SqlProgram

variable {S D R L E α M : Type}

/-- What the program does, and returns, while it alone changes the value `m`. -/
def Owns (V : M → D → Prop) (grows : M → M → Prop) (post : M → α → Prop) :
    SqlProgram D R L E α → M → Prop
  | .ret a, m => post m a
  | .raise _, _ => True
  | .select _ next, m => ∀ d, V m d → (next d).Owns V grows post m
  | .lock _ _ next, m => ∀ d, V m d → (next d).Owns V grows post m
  | .commit _ write next, m => ∃ m', grows m m' ∧ (∀ d, V m d → V m' (write d)) ∧
      next.Owns V grows post m'

/-- The program leaves the value alone, however it has grown since `m`. -/
def Observes (V : M → D → Prop) (grows : M → M → Prop) (post : M → α → Prop) :
    SqlProgram D R L E α → M → Prop
  | .ret a, m => ∀ m', grows m m' → post m' a
  | .raise _, _ => True
  | .select _ next, m => ∀ m' d, grows m m' → V m' d → (next d).Observes V grows post m'
  | .lock _ _ next, m => ∀ m' d, grows m m' → V m' d → (next d).Observes V grows post m'
  | .commit _ write next, m => (∀ m' d, grows m m' → V m' d → V m' (write d)) ∧
      next.Observes V grows post m

section

variable {V : M → D → Prop} {grows : M → M → Prop} {post : M → α → Prop} {m m' : M}

@[simp] theorem owns_ret {a : α} :
    (ret a : SqlProgram D R L E α).Owns V grows post m ↔ post m a := Iff.rfl

@[simp] theorem owns_raise {e : E} : (raise e : SqlProgram D R L E α).Owns V grows post m := trivial

@[simp] theorem observes_ret {a : α} : (ret a : SqlProgram D R L E α).Observes V grows post m ↔
    ∀ m', grows m m' → post m' a := Iff.rfl

@[simp] theorem observes_raise {e : E} :
    (raise e : SqlProgram D R L E α).Observes V grows post m := trivial

@[simp] theorem owns_query {β : Type} {l : L} {f : D → β} {k : β → SqlProgram D R L E α} :
    (query l f >>= k).Owns V grows post m ↔ ∀ d, V m d → (k (f d)).Owns V grows post m := Iff.rfl

@[simp] theorem owns_write {l : L} {g : D → D} {k : Unit → SqlProgram D R L E α} :
    (write l g >>= k).Owns V grows post m ↔ ∃ m', grows m m' ∧ (∀ d, V m d → V m' (g d)) ∧
      (k ()).Owns V grows post m' := Iff.rfl

@[simp] theorem observes_query {β : Type} {l : L} {f : D → β} {k : β → SqlProgram D R L E α} :
    (query l f >>= k).Observes V grows post m ↔
      ∀ m' d, grows m m' → V m' d → (k (f d)).Observes V grows post m' := Iff.rfl

/-- A write that keeps the value. -/
theorem owns_write_of_keeps {l : L} {g : D → D} {k : Unit → SqlProgram D R L E α}
    (hrefl : ∀ m, grows m m) (hg : ∀ d, V m d → V m (g d)) (hk : (k ()).Owns V grows post m) :
    (write l g >>= k).Owns V grows post m := ⟨m, hrefl m, hg, hk⟩

theorem Observes.owns {p : SqlProgram D R L E α} (h : p.Observes V grows post m)
    (hrefl : ∀ m, grows m m) : p.Owns V grows post m := by
  induction p with
  | ret a => exact h m (hrefl m)
  | raise e => trivial
  | select l next ih => exact fun d hV => ih d (h m d (hrefl m) hV)
  | lock l rows next ih => exact fun d hV => ih d (h m d (hrefl m) hV)
  | commit l write next ih => exact ⟨m, hrefl m, fun d hV => h.1 m d (hrefl m) hV, ih h.2⟩

theorem Observes.mono {p : SqlProgram D R L E α} (h : p.Observes V grows post m)
    (htrans : ∀ m₁ m₂ m₃, grows m₁ m₂ → grows m₂ m₃ → grows m₁ m₃) (hm : grows m m') :
    p.Observes V grows post m' := by
  induction p with
  | ret a => exact fun m'' h' => h m'' (htrans _ _ _ hm h')
  | raise e => trivial
  | select l next ih => exact fun m'' d h' hV => h m'' d (htrans _ _ _ hm h') hV
  | lock l rows next ih => exact fun m'' d h' hV => h m'' d (htrans _ _ _ hm h') hV
  | commit l write next ih =>
      exact ⟨fun m'' d h' hV => h.1 m'' d (htrans _ _ _ hm h') hV, ih h.2⟩

end

namespace World

variable [DecidableEq S] [DecidableEq R] {V : M → D → Prop} {grows : M → M → Prop}
  {post : M → α → Prop} {m : M} {w w' : World S D R L E α} {s : S}

/-- A step of the owner. -/
theorem owns_step (hrefl : ∀ m, grows m m) (h : (w.session s).Owns V grows post m)
    (hV : V m w.db) (hstep : w.step s = some w') :
    ∃ m', grows m m' ∧ V m' w'.db ∧ (w'.session s).Owns V grows post m' := by
  cases stepped hstep with
  | ret hp => exact ⟨m, hrefl m, hV, h⟩
  | raise hp => exact ⟨m, hrefl m, hV, h⟩
  | select hp =>
      rw [hp] at h
      refine ⟨m, hrefl m, hV, ?_⟩
      simpa only [goto, Function.update_self] using h w.db hV
  | lock hp hfree =>
      rw [hp] at h
      refine ⟨m, hrefl m, hV, ?_⟩
      simpa only [goto, Function.update_self] using h w.db hV
  | commit hp =>
      rw [hp] at h
      obtain ⟨m', hm, hwrite, hnext⟩ := h
      refine ⟨m', hm, hwrite w.db hV, ?_⟩
      simpa only [goto, Function.update_self] using hnext

/-- A step of an observer. -/
theorem observes_step (hrefl : ∀ m, grows m m) (h : (w.session s).Observes V grows post m)
    (hV : V m w.db) (hstep : w.step s = some w') :
    V m w'.db ∧ (w'.session s).Observes V grows post m := by
  cases stepped hstep with
  | ret hp => exact ⟨hV, h⟩
  | raise hp => exact ⟨hV, h⟩
  | select hp =>
      rw [hp] at h
      refine ⟨hV, ?_⟩
      simpa only [goto, Function.update_self] using h m w.db (hrefl m) hV
  | lock hp hfree =>
      rw [hp] at h
      refine ⟨hV, ?_⟩
      simpa only [goto, Function.update_self] using h m w.db (hrefl m) hV
  | commit hp =>
      rw [hp] at h
      refine ⟨h.1 m w.db (hrefl m) hV, ?_⟩
      simpa only [goto, Function.update_self] using h.2

end World

end SqlProgram
