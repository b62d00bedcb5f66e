import Zyntry.ExpiringKeys
import Zyntry.StepRuns
import Mathlib.Data.List.Infix

/-!
# The cache of feature flags

Any number of clients read and write flags. A reader asks the cache, then the table, and
stores the row it has found; a writer holds the row from its flush to its commit. The world
remembers every row that was committed for a key, so that a row has a number, and a client
remembers how many writes of its key were committed when it began to read.
-/

namespace Zyntry

open ExpiringKeys StepRuns

def featureFlagCacheTtlSeconds : ℕ := 30

/-- A flag with the number of its write. -/
structure CachedFlag (Flag : Type) where
  flag : Flag
  number : ℕ
deriving DecidableEq

inductive FlagClient (Flag : Type) where
  | idle
  /-- The cache has no answer. -/
  | missed (key : String) (since : ℕ)
  | loaded (key : String) (since : ℕ) (row : Option Flag) (number : ℕ)
  | returned (key : String) (since : ℕ) (result : Option Flag) (number : ℕ)
  /-- The update is flushed, and the cache is still to be invalidated. -/
  | flushed (key : String) (row : Flag)
  /-- The method of the service has returned. -/
  | written (key : String) (row : Option Flag)
deriving DecidableEq

/-- Without an answer of Redis a command does nothing. -/
inductive FlagEvent (Flag : Type) where
  | getCache (client : ℕ) (key : String) (answers : Bool)
  | getRow (client : ℕ)
  | fillCache (client : ℕ) (answers : Bool)
  /-- `update_flag` up to its flush, for the attributes that it sets. -/
  | update (client : ℕ) (key : String) (change : Flag → Flag)
  | delete (client : ℕ) (key : String)
  | invalidate (client : ℕ) (answers : Bool)
  | commit (client : ℕ)
  /-- The request is over, and what it has not committed is undone. -/
  | finish (client : ℕ)
  /-- `invalidate`, called from elsewhere. -/
  | invalidateKey (key : String) (answers : Bool)
  | wait (seconds : ℕ)

structure FlagWorld (Flag : Type) where
  /-- The committed rows of a key, the current one last. -/
  rows : String → List (Option Flag)
  locks : String → Option ℕ := fun _ => none
  cache : Store String (CachedFlag Flag) := {}
  clients : ℕ → FlagClient Flag := fun _ => .idle

namespace FlagWorld

variable {Flag : Type}

def current (w : FlagWorld Flag) (key : String) : Option Flag := (w.rows key).getLast?.join

/-- The number of writes of a key that are committed. -/
def version (w : FlagWorld Flag) (key : String) : ℕ := (w.rows key).length

def setClient (w : FlagWorld Flag) (c : ℕ) (client : FlagClient Flag) : FlagWorld Flag :=
  { w with clients := Function.update w.clients c client }

def setLock (w : FlagWorld Flag) (key : String) (owner : Option ℕ) : FlagWorld Flag :=
  { w with locks := Function.update w.locks key owner }

def appendRow (w : FlagWorld Flag) (key : String) (row : Option Flag) : FlagWorld Flag :=
  { w with rows := Function.update w.rows key (w.rows key ++ [row]) }

def dropCached (w : FlagWorld Flag) (key : String) : FlagWorld Flag :=
  { w with cache := w.cache.put key none }

def storeCached (w : FlagWorld Flag) (key : String) (row : Option Flag) (number : ℕ) :
    FlagWorld Flag :=
  match row with
  | none => w
  | some flag => { w with cache := w.cache.setEx key ⟨flag, number⟩ featureFlagCacheTtlSeconds }

def step (w : FlagWorld Flag) : FlagEvent Flag → FlagWorld Flag
  | .getCache c key answers =>
      match w.clients c with
      | .idle =>
          match if answers then w.cache.get? key else none with
          | some cached =>
              w.setClient c (.returned key (w.version key) (some cached.flag) cached.number)
          | none => w.setClient c (.missed key (w.version key))
      | _ => w
  | .getRow c =>
      match w.clients c with
      | .missed key since => w.setClient c (.loaded key since (w.current key) (w.version key))
      | _ => w
  | .fillCache c answers =>
      match w.clients c with
      | .loaded key since row number =>
          (if answers then w.storeCached key row number else w).setClient c
            (.returned key since row number)
      | _ => w
  | .update c key change =>
      match w.clients c, w.locks key, w.current key with
      | .idle, none, some row => (w.setLock key (some c)).setClient c (.flushed key (change row))
      | _, _, _ => w
  | .delete c key =>
      match w.clients c, w.locks key, w.current key with
      | .idle, none, some _ => (w.setLock key (some c)).setClient c (.written key none)
      | _, _, _ => w
  | .invalidate c answers =>
      match w.clients c with
      | .flushed key row =>
          (if answers then w.dropCached key else w).setClient c (.written key (some row))
      | _ => w
  | .commit c =>
      match w.clients c with
      | .written key row => ((w.appendRow key row).setLock key none).setClient c .idle
      | _ => w
  | .finish c =>
      match w.clients c with
      | .flushed key _ => (w.setLock key none).setClient c .idle
      | .written key _ => (w.setLock key none).setClient c .idle
      | _ => w.setClient c .idle
  | .invalidateKey key answers => if answers then w.dropCached key else w
  | .wait seconds => { w with cache := w.cache.tick seconds }

/-- A write commits while the cache holds nothing for its key, and a reader stores only a row
that is still the current one. -/
def Timely (w : FlagWorld Flag) : FlagEvent Flag → Prop
  | .commit c =>
      match w.clients c with
      | .written key _ => w.cache.live key = none
      | _ => True
  | .fillCache c true =>
      match w.clients c with
      | .loaded key _ (some _) number => number = w.version key
      | _ => True
  | _ => True

/-! ## Coherence -/

/-- The row that the write of a number left. -/
def IsRow (w : FlagWorld Flag) (key : String) (row : Option Flag) (number : ℕ) : Prop :=
  number ≤ w.version key ∧ ((w.rows key).take number).getLast?.join = row

def ClientFresh (w : FlagWorld Flag) : FlagClient Flag → Prop
  | .missed key since => since ≤ w.version key
  | .loaded key since row number => since ≤ number ∧ w.IsRow key row number
  | .returned key since result number => since ≤ number ∧ w.IsRow key result number
  | _ => True

/-- The cache holds current rows only, and no client has an older row than there was when it
began. -/
structure Coherent (w : FlagWorld Flag) : Prop where
  cached : ∀ key e, w.cache.live key = some e →
    e.value.number = w.version key ∧ w.current key = some e.value.flag
  fresh : ∀ c, w.ClientFresh (w.clients c)

variable {w w' : FlagWorld Flag}

theorem isRow_current (w : FlagWorld Flag) (key : String) :
    w.IsRow key (w.current key) (w.version key) :=
  ⟨le_rfl, by rw [version, List.take_length]; rfl⟩

/-- Rows are only added. -/
def Extends (w w' : FlagWorld Flag) : Prop := ∀ key, w.rows key <+: w'.rows key

theorem extends_appendRow (w : FlagWorld Flag) (key : String) (row : Option Flag) :
    w.Extends (w.appendRow key row) := by
  intro key'
  by_cases hkey : key' = key
  · subst hkey
    simp [appendRow]
  · simp [appendRow, Function.update_of_ne hkey]

theorem Extends.version_le (h : w.Extends w') (key : String) : w.version key ≤ w'.version key :=
  (h key).length_le

theorem IsRow.of_extends {key : String} {row : Option Flag} {number : ℕ}
    (hrow : w.IsRow key row number) (h : w.Extends w') : w'.IsRow key row number := by
  refine ⟨hrow.1.trans (h.version_le key), ?_⟩
  obtain ⟨added, hadded⟩ := h key
  rw [← hadded, List.take_append_of_le_length hrow.1]
  exact hrow.2

theorem ClientFresh.of_extends {client : FlagClient Flag} (hclient : w.ClientFresh client)
    (h : w.Extends w') : w'.ClientFresh client := by
  cases client with
  | missed key since => exact le_trans hclient (h.version_le key)
  | loaded key since row number => exact ⟨hclient.1, hclient.2.of_extends h⟩
  | returned key since result number => exact ⟨hclient.1, hclient.2.of_extends h⟩
  | _ => trivial

/-- One client moves on, and rows and cache stay. -/
theorem Coherent.setClient (h : w.Coherent) {c : ℕ} {client : FlagClient Flag}
    (hclient : w.ClientFresh client) : (w.setClient c client).Coherent where
  cached := h.cached
  fresh := by
    intro c'
    by_cases hc : c' = c
    · subst hc
      simp only [FlagWorld.setClient, Function.update_self]
      exact hclient
    · simp only [FlagWorld.setClient, Function.update_of_ne hc]
      exact h.fresh c'

theorem Coherent.setLock (h : w.Coherent) (key : String) (owner : Option ℕ) :
    (w.setLock key owner).Coherent := ⟨h.cached, h.fresh⟩

/-- The cache changes, and holds current rows. -/
theorem Coherent.ofCache (h : w.Coherent) {cache : Store String (CachedFlag Flag)}
    (hcache : ∀ key e, cache.live key = some e →
      e.value.number = w.version key ∧ w.current key = some e.value.flag) :
    { w with cache }.Coherent := ⟨hcache, h.fresh⟩

theorem Coherent.dropCached (h : w.Coherent) (key : String) : (w.dropCached key).Coherent := by
  apply h.ofCache
  intro key' e he
  by_cases hkey : key' = key
  · subst hkey
    simp [Store.live_put_self] at he
  · rw [Store.live_put_of_ne hkey] at he
    exact h.cached key' e he

theorem Coherent.storeCached (h : w.Coherent) {key : String} {row : Option Flag} {number : ℕ}
    (hrow : w.IsRow key row number) (hcurrent : row ≠ none → number = w.version key) :
    (w.storeCached key row number).Coherent := by
  cases row with
  | none => exact h
  | some flag =>
    have hnumber := hcurrent (by simp)
    apply h.ofCache
    intro key' e he
    by_cases hkey : key' = key
    · subst hkey
      rw [Store.setEx, Store.live_put_self] at he
      obtain ⟨hentry, -⟩ := Option.filter_eq_some_iff.mp he
      obtain rfl := Option.some.inj hentry
      refine ⟨hnumber, ?_⟩
      rw [← hrow.2, hnumber, version, List.take_length]
      rfl
    · rw [Store.setEx, Store.live_put_of_ne hkey] at he
      exact h.cached key' e he

/-- A write is committed, with nothing cached for its key. -/
theorem Coherent.appendRow (h : w.Coherent) {key : String} (hnone : w.cache.live key = none)
    (row : Option Flag) : (w.appendRow key row).Coherent where
  cached := by
    intro key' e he
    by_cases hkey : key' = key
    · subst hkey
      exact absurd (hnone.symm.trans he) (by simp)
    · have hrows : (w.appendRow key row).rows key' = w.rows key' := Function.update_of_ne hkey ..
      rw [version, current, hrows]
      exact h.cached key' e he
  fresh := fun c => (h.fresh c).of_extends (extends_appendRow w key row)

theorem Coherent.isRow_cached (h : w.Coherent) {key : String} {cached : CachedFlag Flag}
    (hget : w.cache.get? key = some cached) :
    cached.number = w.version key ∧ w.IsRow key (some cached.flag) cached.number := by
  obtain ⟨e, he, hlive, rfl⟩ := Store.get?_eq_some.mp hget
  obtain ⟨hnumber, hflag⟩ := h.cached key e (Store.live_eq_some.mpr ⟨he, hlive⟩)
  exact ⟨hnumber, by rw [hnumber, ← hflag]; exact isRow_current w key⟩

/-- The step lemma: timely commits and fills keep the cache coherent. -/
theorem Coherent.step (h : w.Coherent) {e : FlagEvent Flag} (htimely : w.Timely e) :
    (w.step e).Coherent := by
  cases e with
  | getCache c key answers =>
    simp only [FlagWorld.step]
    cases hclient : w.clients c with
    | idle =>
      dsimp only
      cases hget : (if answers then w.cache.get? key else none) with
      | none => exact h.setClient le_rfl
      | some cached =>
        have hcached : w.cache.get? key = some cached := by
          cases answers with
          | true => exact hget
          | false => cases hget
        obtain ⟨hnumber, hrow⟩ := h.isRow_cached hcached
        exact h.setClient ⟨hnumber.ge, hrow⟩
    | _ => exact h
  | getRow c =>
    simp only [FlagWorld.step]
    cases hclient : w.clients c with
    | missed key since =>
      have hsince := h.fresh c
      rw [hclient] at hsince
      exact h.setClient ⟨hsince, isRow_current w key⟩
    | _ => exact h
  | fillCache c answers =>
    simp only [FlagWorld.step]
    cases hclient : w.clients c with
    | loaded key since row number =>
      have hloaded := h.fresh c
      rw [hclient] at hloaded
      cases answers with
      | false => exact h.setClient hloaded
      | true =>
        have hstored : (w.storeCached key row number).Coherent := by
          refine h.storeCached hloaded.2 fun hrow => ?_
          obtain ⟨flag, rfl⟩ := Option.ne_none_iff_exists'.mp hrow
          simp only [Timely, hclient] at htimely
          exact htimely
        refine hstored.setClient (ClientFresh.of_extends hloaded fun key' => ?_)
        cases row <;> exact List.prefix_rfl
    | _ => exact h
  | update c key change =>
    simp only [FlagWorld.step]
    split
    · exact (h.setLock key (some c)).setClient trivial
    · exact h
  | delete c key =>
    simp only [FlagWorld.step]
    split
    · exact (h.setLock key (some c)).setClient trivial
    · exact h
  | invalidate c answers =>
    simp only [FlagWorld.step]
    cases hclient : w.clients c with
    | flushed key row =>
      cases answers with
      | true => exact (h.dropCached key).setClient trivial
      | false => exact h.setClient trivial
    | _ => exact h
  | commit c =>
    simp only [FlagWorld.step]
    cases hclient : w.clients c with
    | written key row =>
      simp only [Timely, hclient] at htimely
      exact ((h.appendRow htimely row).setLock key none).setClient trivial
    | _ => exact h
  | finish c =>
    simp only [FlagWorld.step]
    cases hclient : w.clients c with
    | flushed key row => exact (h.setLock key none).setClient trivial
    | written key row => exact (h.setLock key none).setClient trivial
    | _ => exact h.setClient trivial
  | invalidateKey key answers =>
    cases answers with
    | true => exact h.dropCached key
    | false => exact h
  | wait seconds =>
    apply h.ofCache
    intro key e he
    exact h.cached key e (Store.live_of_live_tick he)

/-- Nothing is cached, and nobody is at work. -/
def start (rows : String → List (Option Flag)) : FlagWorld Flag := { rows }

theorem coherent_start (rows : String → List (Option Flag)) : (start rows).Coherent where
  cached := by
    intro key e he
    cases he
  fresh := fun _ => trivial

/-- A reader that finds an older row in the cache. -/
def ReadsStale (w : FlagWorld Flag) (reader : ℕ) (key : String) : Prop :=
  ∃ flag number, (w.step (.getCache reader key true)).clients reader =
    .returned key (w.version key) (some flag) number ∧ number < w.version key

theorem readsStale_of_cached {reader : ℕ} {key : String} (cached : CachedFlag Flag)
    (hidle : w.clients reader = .idle) (hget : w.cache.get? key = some cached)
    (hold : cached.number < w.version key) : w.ReadsStale reader key := by
  refine ⟨cached.flag, cached.number, ?_, hold⟩
  simp only [FlagWorld.step, hidle, if_true, hget, FlagWorld.setClient, Function.update_self]

/-- An event that is not timely leaves an older row in the cache, and the next reader gets
it. -/
theorem Coherent.readsStale (h : w.Coherent) {e : FlagEvent Flag} (hlate : ¬w.Timely e)
    {reader : ℕ} (hidle : w.clients reader = .idle) :
    ∃ key, (w.step e).ReadsStale reader key := by
  cases e with
  | commit c =>
    cases hclient : w.clients c with
    | written key row =>
      simp only [Timely, hclient] at hlate
      obtain ⟨entry, hentry⟩ := Option.ne_none_iff_exists'.mp hlate
      have hget : w.cache.get? key = some entry.value := by rw [Store.get?, hentry]; rfl
      have hother : reader ≠ c := by
        rintro rfl
        cases hidle.symm.trans hclient
      have hlonger : w.version key < (w.step (.commit c)).version key := by
        simp [FlagWorld.step, hclient, FlagWorld.setClient, FlagWorld.setLock,
          FlagWorld.appendRow, version]
      refine ⟨key, readsStale_of_cached entry.value ?_ ?_ ?_⟩
      · simp only [FlagWorld.step, hclient, FlagWorld.setClient, Function.update_of_ne hother]
        exact hidle
      · simp only [FlagWorld.step, hclient]
        exact hget
      · rw [(h.isRow_cached hget).1]
        exact hlonger
    | _ => simp [Timely, hclient] at hlate
  | fillCache c answers =>
    cases answers with
    | false => exact absurd trivial hlate
    | true =>
      cases hclient : w.clients c with
      | loaded key since row number =>
        cases row with
        | none => simp [Timely, hclient] at hlate
        | some flag =>
          simp only [Timely, hclient] at hlate
          have hrow := h.fresh c
          rw [hclient] at hrow
          have hother : reader ≠ c := by
            rintro rfl
            cases hidle.symm.trans hclient
          refine ⟨key, readsStale_of_cached ⟨flag, number⟩ ?_ ?_ ?_⟩
          · simp only [FlagWorld.step, hclient, FlagWorld.setClient, Function.update_of_ne hother]
            exact hidle
          · simp only [FlagWorld.step, hclient, if_true]
            refine Store.get?_eq_some.mpr ⟨_, Store.entries_put_self .., ?_, rfl⟩
            intro d hd
            obtain rfl := Option.some.inj hd
            exact Nat.lt_add_of_pos_right (by decide)
          · simp only [FlagWorld.step, hclient, if_true]
            exact lt_of_le_of_ne hrow.2.1 hlate
      | _ => simp [Timely, hclient] at hlate
  | _ => exact absurd trivial hlate

/-- In a run of timely events every answer is a row committed at or after the start of the
read. The first event that is not timely makes the next read answer an older row. -/
theorem getByKey_coherent (rows : String → List (Option Flag)) {events : List (FlagEvent Flag)}
    (h : Along step Timely (start rows) events) :
    (∀ c key since result number,
      (events.foldl step (start rows)).clients c = .returned key since result number →
        since ≤ number ∧ (events.foldl step (start rows)).IsRow key result number) ∧
      ∀ e reader, ¬(events.foldl step (start rows)).Timely e →
        (events.foldl step (start rows)).clients reader = .idle →
          ∃ key, ((events.foldl step (start rows)).step e).ReadsStale reader key := by
  have hcoherent := h.invariant (I := Coherent) (fun _ _ hw he => hw.step he) (coherent_start rows)
  refine ⟨?_, fun e reader hlate hidle => hcoherent.readsStale hlate hidle⟩
  intro c key since result number hreturned
  have hfresh := hcoherent.fresh c
  rw [hreturned] at hfresh
  exact hfresh

/-- One flag, which is on. -/
def betaRows (key : String) : List (Option Bool) := if key = "beta" then [some true] else []

/-- The flag is turned off, and read afterwards. -/
def timelyEvents : List (FlagEvent Bool) :=
  [.update 0 "beta" not, .invalidate 0 true, .commit 0, .getCache 1 "beta" true, .getRow 1,
    .fillCache 1 true]

theorem timelyEvents_coherent :
    2 ≤ 2 ∧ (timelyEvents.foldl step (start betaRows)).IsRow "beta" (some false) 2 := by
  have htimely : Along step Timely (start betaRows) timelyEvents :=
    ⟨trivial, trivial, rfl, trivial, trivial, rfl, trivial⟩
  exact (getByKey_coherent betaRows htimely).1 1 "beta" 2 (some false) 2 (by decide)

/-- A reader fills the cache between the invalidation and the commit of an update; a flag is
deleted while it is cached. -/
theorem lateEvents_stale :
    ([.update 0 "beta" not, .invalidate 0 true, .getCache 1 "beta" true, .getRow 1,
        .fillCache 1 true, .commit 0, .getCache 2 "beta" true].foldl step
      (start betaRows)).clients 2 = .returned "beta" 2 (some true) 1 ∧
    ([.getCache 1 "beta" true, .getRow 1, .fillCache 1 true, .delete 0 "beta", .commit 0,
        .getCache 2 "beta" true].foldl step (start betaRows)).clients 2 =
      .returned "beta" 2 (some true) 1 := by
  decide

end FlagWorld

end Zyntry
