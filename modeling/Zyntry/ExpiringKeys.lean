import Mathlib.Data.Option.Basic
import Mathlib.Logic.Function.Basic
import Mathlib.Order.Basic

/-!
# Keys with a time to live

A store of values under keys, each with a deadline or without one, and a clock. A value is
there as long as its deadline lies ahead. The commands are those of a Redis server on plain
values: what they answer is a function of the live values only, and a dead entry is never
seen again.
-/

namespace ExpiringKeys

structure Entry (α : Type) where
  value : α
  deadline : Option ℕ := none
deriving DecidableEq

def Entry.Live {α : Type} (now : ℕ) (e : Entry α) : Prop := ∀ d ∈ e.deadline, now < d

instance Entry.instDecidableLive {α : Type} (now : ℕ) (e : Entry α) : Decidable (e.Live now) :=
  inferInstanceAs (Decidable (∀ d ∈ e.deadline, now < d))

structure Store (κ α : Type) where
  now : ℕ := 0
  entries : κ → Option (Entry α) := fun _ => none

namespace Store

variable {κ α : Type}

/-- The entry that a command finds. -/
def live (s : Store κ α) (k : κ) : Option (Entry α) :=
  (s.entries k).filter fun e => e.Live s.now

/-- `GET`. -/
def get? (s : Store κ α) (k : κ) : Option α := (s.live k).map Entry.value

def tick (n : ℕ) (s : Store κ α) : Store κ α := { s with now := s.now + n }

theorem live_eq_some {s : Store κ α} {k : κ} {e : Entry α} :
    s.live k = some e ↔ s.entries k = some e ∧ e.Live s.now := by
  simp [live, Option.filter_eq_some_iff]

theorem get?_eq_some {s : Store κ α} {k : κ} {v : α} :
    s.get? k = some v ↔ ∃ e, s.entries k = some e ∧ e.Live s.now ∧ e.value = v := by
  simp only [get?, Option.map_eq_some_iff, live_eq_some, and_assoc]

/-- The key is there and has no time to live. -/
def Lasts (s : Store κ α) (k : κ) : Prop := ∃ e, s.live k = some e ∧ e.deadline = none

theorem live_of_live_tick {n : ℕ} {s : Store κ α} {k : κ} {e : Entry α}
    (h : (s.tick n).live k = some e) : s.live k = some e := by
  rw [live_eq_some] at h ⊢
  refine ⟨h.1, ?_⟩
  intro d hd
  have hlt : s.now + n < d := h.2 d hd
  omega

theorem Lasts.of_tick {n : ℕ} {s : Store κ α} {k : κ} (h : (s.tick n).Lasts k) : s.Lasts k := by
  obtain ⟨e, he, hdeadline⟩ := h
  exact ⟨e, live_of_live_tick he, hdeadline⟩

@[simp] theorem now_tick (n : ℕ) (s : Store κ α) : (s.tick n).now = s.now + n := rfl

@[simp] theorem entries_tick (n : ℕ) (s : Store κ α) : (s.tick n).entries = s.entries := rfl

section Commands

variable [DecidableEq κ]

def put (k : κ) (e : Option (Entry α)) (s : Store κ α) : Store κ α :=
  { s with entries := Function.update s.entries k e }

@[simp] theorem now_put (k : κ) (e : Option (Entry α)) (s : Store κ α) :
    (s.put k e).now = s.now := rfl

@[simp] theorem entries_put_self (k : κ) (e : Option (Entry α)) (s : Store κ α) :
    (s.put k e).entries k = e := by simp only [put, Function.update_self]

theorem entries_put_of_ne {k k' : κ} (h : k' ≠ k) (e : Option (Entry α)) (s : Store κ α) :
    (s.put k e).entries k' = s.entries k' := by simp only [put, Function.update_of_ne h]

/-- `SET` with `EX`. -/
def setEx (k : κ) (v : α) (ttl : ℕ) (s : Store κ α) : Store κ α :=
  s.put k (some ⟨v, some (s.now + ttl)⟩)

/-- `SET` with `NX` and `EX`, and whether it has stored the value. -/
def setNx (k : κ) (v : α) (ttl : ℕ) (s : Store κ α) : Bool × Store κ α :=
  if (s.live k).isSome then (false, s) else (true, s.setEx k v ttl)

/-- `EXPIRE`, for a positive time. -/
def expire (k : κ) (ttl : ℕ) (s : Store κ α) : Store κ α :=
  match s.live k with
  | none => s
  | some e => s.put k (some { e with deadline := some (s.now + ttl) })

/-- The script that deletes a key if it has the given value. -/
def deleteIf [DecidableEq α] (k : κ) (v : α) (s : Store κ α) : Store κ α :=
  if s.get? k = some v then s.put k none else s

/-- `INCR`, and the value that it answers; a new key has no deadline. -/
def incr (k : κ) (s : Store κ ℕ) : ℕ × Store κ ℕ :=
  match s.live k with
  | none => (1, s.put k (some ⟨1, none⟩))
  | some e => (e.value + 1, s.put k (some { e with value := e.value + 1 }))

@[simp] theorem now_expire (k : κ) (ttl : ℕ) (s : Store κ α) : (s.expire k ttl).now = s.now := by
  unfold expire
  split
  · rfl
  · rfl

@[simp] theorem now_incr (k : κ) (s : Store κ ℕ) : (s.incr k).2.now = s.now := by
  unfold incr
  split
  · rfl
  · rfl

/-- A value that is there makes `SET NX` fail. -/
theorem setNx_of_live {k : κ} {s : Store κ α} {e : Entry α} (h : s.entries k = some e)
    (hlive : e.Live s.now) (v : α) (ttl : ℕ) : s.setNx k v ttl = (false, s) := by
  have hsome : s.live k = some e := live_eq_some.mpr ⟨h, hlive⟩
  rw [setNx, hsome]
  rfl

theorem setNx_fst_eq_true {k : κ} {v : α} {ttl : ℕ} {s : Store κ α}
    (h : (s.setNx k v ttl).1 = true) : (s.setNx k v ttl).2 = s.setEx k v ttl := by
  unfold setNx at h ⊢
  split_ifs at h ⊢
  · rfl

theorem get?_setNx_of_some {k : κ} {s : Store κ α} {v : α} (h : s.get? k = some v) (v' : α)
    (ttl : ℕ) : (s.setNx k v' ttl).2.get? k = some v := by
  obtain ⟨e, he, hlive, rfl⟩ := get?_eq_some.mp h
  rw [setNx_of_live he hlive]
  exact h

theorem deleteIf_of_ne [DecidableEq α] {k : κ} {s : Store κ α} {v : α} (h : s.get? k ≠ some v) :
    s.deleteIf k v = s := if_neg h

theorem now_deleteIf [DecidableEq α] (k : κ) (v : α) (s : Store κ α) :
    (s.deleteIf k v).now = s.now := by
  unfold deleteIf
  split_ifs
  · rfl
  · rfl

theorem live_put_self (k : κ) (e : Option (Entry α)) (s : Store κ α) :
    (s.put k e).live k = e.filter fun e => e.Live s.now := by
  rw [live, entries_put_self, now_put]

theorem live_put_of_ne {k k' : κ} (h : k' ≠ k) (e : Option (Entry α)) (s : Store κ α) :
    (s.put k e).live k' = s.live k' := by
  rw [live, entries_put_of_ne h, now_put, live]

/-! ## Keys without a time to live -/

omit [DecidableEq κ] in
theorem lasts_iff_live_tick {s : Store κ α} {k : κ} :
    s.Lasts k ↔ ∀ n, (s.tick n).live k ≠ none := by
  constructor
  · rintro ⟨e, he, hdeadline⟩ n hnone
    have hlive : (s.tick n).live k = some e := by
      rw [live_eq_some] at he ⊢
      refine ⟨he.1, ?_⟩
      simp only [Entry.Live, hdeadline, Option.mem_def, reduceCtorEq, false_implies, implies_true]
    rw [hlive] at hnone
    cases hnone
  · intro h
    obtain ⟨e, he⟩ := Option.ne_none_iff_exists'.mp (h 0)
    cases hdeadline : e.deadline with
    | none => exact ⟨e, live_of_live_tick he, hdeadline⟩
    | some d =>
        obtain ⟨e', he'⟩ := Option.ne_none_iff_exists'.mp (h d)
        obtain rfl : e' = e :=
          Option.some.inj ((live_eq_some.mp he').1.symm.trans (live_eq_some.mp he).1)
        have hlt : s.now + d < d := (live_eq_some.mp he').2 d hdeadline
        omega

theorem lasts_put_self {k : κ} {e : Option (Entry α)} {s : Store κ α} :
    (s.put k e).Lasts k ↔ ∃ e', e = some e' ∧ e'.deadline = none := by
  unfold Lasts
  rw [live_put_self]
  constructor
  · rintro ⟨e', he', hdeadline⟩
    exact ⟨e', (Option.filter_eq_some_iff.mp he').1, hdeadline⟩
  · rintro ⟨e', rfl, hdeadline⟩
    refine ⟨e', ?_, hdeadline⟩
    simp [Option.filter_eq_some_iff, Entry.Live, hdeadline]

theorem lasts_put_of_ne {k k' : κ} (h : k' ≠ k) (e : Option (Entry α)) (s : Store κ α) :
    (s.put k e).Lasts k' ↔ s.Lasts k' := by
  unfold Lasts
  rw [live_put_of_ne h]

theorem not_lasts_setEx_self (k : κ) (v : α) (ttl : ℕ) (s : Store κ α) :
    ¬(s.setEx k v ttl).Lasts k := by
  intro h
  obtain ⟨e, he, hdeadline⟩ := lasts_put_self.mp h
  obtain rfl := Option.some.inj he
  cases hdeadline

theorem not_lasts_expire_self (k : κ) (ttl : ℕ) (s : Store κ α) : ¬(s.expire k ttl).Lasts k := by
  intro h
  unfold expire at h
  split at h
  · next hnone =>
    obtain ⟨e, he, -⟩ := h
    cases hnone.symm.trans he
  · obtain ⟨e, he, hdeadline⟩ := lasts_put_self.mp h
    obtain rfl := Option.some.inj he
    cases hdeadline

theorem lasts_expire_of_ne {k k' : κ} (h : k' ≠ k) (ttl : ℕ) (s : Store κ α) :
    (s.expire k ttl).Lasts k' ↔ s.Lasts k' := by
  unfold expire
  split
  · rfl
  · exact lasts_put_of_ne h _ s

/-- A counter that was there keeps its deadline. -/
theorem lasts_incr_self {k : κ} {s : Store κ ℕ} :
    (s.incr k).2.Lasts k ↔ s.live k = none ∨ s.Lasts k := by
  unfold incr
  split
  · next hnone => simp [lasts_put_self, hnone]
  · next e he =>
    rw [lasts_put_self]
    simp only [Lasts, he, Option.some.injEq, exists_eq_left', reduceCtorEq, false_or]

theorem lasts_incr_of_ne {k k' : κ} (h : k' ≠ k) (s : Store κ ℕ) :
    (s.incr k).2.Lasts k' ↔ s.Lasts k' := by
  unfold incr
  split
  · exact lasts_put_of_ne h _ s
  · exact lasts_put_of_ne h _ s

theorem incr_of_none {k : κ} {s : Store κ ℕ} (h : s.live k = none) : (s.incr k).1 = 1 := by
  simp only [incr, h]

end Commands

end Store

end ExpiringKeys
