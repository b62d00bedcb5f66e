import Zyntry.ExpiringKeys
import Zyntry.StepRuns
import Mathlib.Logic.Embedding.Basic

/-!
# The lock of a build

Build tasks of one runtime share a Redis key. A task sets the key to a token of its own
unless it is there, builds, and runs a script that deletes the key if it still has the
token. A task that cannot reach Redis builds without the lock. What Redis answers is an
input, and time passes between any two commands.
-/

namespace Zyntry

open ExpiringKeys

/-- How a command ends; with `lost` it is executed and then raises. -/
inductive RedisReply where
  | answered
  | lost
  | failed
deriving DecidableEq, Repr

/-- Where a task is. While it builds it knows whether Redis has answered; the time at which
the lock that it asked for runs out is kept along. -/
inductive TaskPhase where
  | waiting
  | building (redisAvailable : Bool) (lockEnds : ℕ)
  | releasing
  | over
deriving DecidableEq

structure BuildTasks (T : Type) where
  redis : Store String String
  phase : T → TaskPhase

/-- `ex=3600`, in milliseconds. -/
def buildLockTtl : ℕ := 3600 * 1000

inductive TaskEvent (T : Type) where
  | tick (n : ℕ)
  | acquire (task : T) (reply : RedisReply)
  | buildEnds (task : T)
  | release (task : T) (reply : RedisReply)
  | crash (task : T)
deriving DecidableEq

section

variable {T : Type} [DecidableEq T] (key : String) (token : T ↪ String)

def BuildTasks.goto (s : BuildTasks T) (t : T) (phase : TaskPhase) (redis : Store String String) :
    BuildTasks T := ⟨redis, Function.update s.phase t phase⟩

/-- `SET` of the task's token, if the key is not there. -/
def BuildTasks.acquire (s : BuildTasks T) (t : T) : RedisReply → BuildTasks T
  | .answered =>
      let answer := s.redis.setNx key (token t) buildLockTtl
      if answer.1 then s.goto t (.building true (s.redis.now + buildLockTtl)) answer.2
      else s.goto t .over answer.2
  | .lost =>
      s.goto t (.building false (s.redis.now + buildLockTtl))
        (s.redis.setNx key (token t) buildLockTtl).2
  | .failed => s.goto t (.building false (s.redis.now + buildLockTtl)) s.redis

def BuildTasks.release (s : BuildTasks T) (t : T) : RedisReply → BuildTasks T
  | .failed => s.goto t .over s.redis
  | _ => s.goto t .over (s.redis.deleteIf key (token t))

/-- `build_runtime_task`; an event that the phase of its task does not allow changes nothing. -/
def BuildTasks.step (s : BuildTasks T) : TaskEvent T → BuildTasks T
  | .tick n => { s with redis := s.redis.tick n }
  | .acquire t reply => if s.phase t = .waiting then s.acquire key token t reply else s
  | .buildEnds t =>
      match s.phase t with
      | .building true _ => s.goto t .releasing s.redis
      | .building false _ => s.goto t .over s.redis
      | _ => s
  | .release t reply => if s.phase t = .releasing then s.release key token t reply else s
  | .crash t => s.goto t .over s.redis

def BuildTasks.start (redis : Store String String) : BuildTasks T := ⟨redis, fun _ => .waiting⟩

def BuildTasks.Builds (s : BuildTasks T) (t : T) : Prop := ∃ b d, s.phase t = .building b d

/-- The key has the token of the task. -/
def BuildTasks.Holds (s : BuildTasks T) (t : T) : Prop := s.redis.get? key = some (token t)

/-- Redis does not fail a task that asks for the lock, and no time passes that outlives the
lock of a task that still builds. -/
def BuildTasks.InTime (s : BuildTasks T) : TaskEvent T → Prop
  | .acquire _ reply => reply = .answered
  | .tick n => ∀ t b d, s.phase t = .building b d → s.redis.now + n < d
  | _ => True

/-! ## One event -/

variable {key token} {s : BuildTasks T} {t u : T}

theorem goto_phase_self (phase : TaskPhase) (redis : Store String String) :
    (s.goto t phase redis).phase t = phase := by
  simp only [BuildTasks.goto, Function.update_self]

theorem goto_phase_of_ne (hne : u ≠ t) (phase : TaskPhase) (redis : Store String String) :
    (s.goto t phase redis).phase u = s.phase u := by
  simp only [BuildTasks.goto, Function.update_of_ne hne]

/-- The task builds under the lock that it has set. -/
def BuildTasks.Locked (key : String) (token : T ↪ String) (s : BuildTasks T) (t : T) (d : ℕ) :
    Prop := s.redis.entries key = some ⟨token t, some d⟩ ∧ s.redis.now < d

/-- Every task that builds has the lock. -/
def BuildTasks.AllLocked (key : String) (token : T ↪ String) (s : BuildTasks T) : Prop :=
  ∀ t b d, s.phase t = .building b d → b = true ∧ s.Locked key token t d

omit [DecidableEq T] in
theorem BuildTasks.Locked.live {d : ℕ} (h : s.Locked key token t d) :
    s.redis.entries key = some ⟨token t, some d⟩ ∧
      Entry.Live s.redis.now (⟨token t, some d⟩ : Entry String) := by
  refine ⟨h.1, ?_⟩
  intro d' hd'
  obtain rfl := Option.some.inj hd'
  exact h.2

omit [DecidableEq T] in
theorem BuildTasks.Locked.holds {d : ℕ} (h : s.Locked key token t d) : s.Holds key token t :=
  Store.get?_eq_some.mpr ⟨_, h.live.1, h.live.2, rfl⟩

/-- A step of one task that leaves the entry and the clock alone, and does not enter the
build, keeps the locks. -/
theorem BuildTasks.AllLocked.goto (hs : s.AllLocked key token) {phase : TaskPhase}
    {redis : Store String String} (hphase : ∀ b d, phase ≠ .building b d)
    (hnow : redis.now = s.redis.now)
    (hredis : ∀ u d, u ≠ t → s.Locked key token u d →
      redis.entries key = s.redis.entries key) :
    (s.goto t phase redis).AllLocked key token := by
  intro u b d hu
  by_cases hne : u = t
  · subst hne
    rw [goto_phase_self] at hu
    exact absurd hu (hphase b d)
  · rw [goto_phase_of_ne hne] at hu
    obtain ⟨hb, hlocked⟩ := hs u b d hu
    refine ⟨hb, ?_, ?_⟩
    · exact (hredis u d hne hlocked).trans hlocked.1
    · exact hnow.symm ▸ hlocked.2

theorem BuildTasks.AllLocked.acquire (hs : s.AllLocked key token)
    (hwaiting : s.phase t = .waiting) : (s.acquire key token t .answered).AllLocked key token := by
  unfold BuildTasks.acquire
  by_cases hstored : (s.redis.setNx key (token t) buildLockTtl).1 = true
  · simp only [hstored, if_true, Store.setNx_fst_eq_true hstored]
    intro u b d hu
    by_cases hne : u = t
    · subst hne
      rw [goto_phase_self] at hu
      obtain ⟨rfl, rfl⟩ := TaskPhase.building.inj hu
      refine ⟨rfl, Store.entries_put_self _ _ _, ?_⟩
      exact Nat.lt_add_of_pos_right (by decide)
    · -- a task that builds would have kept the lock from being set
      rw [goto_phase_of_ne hne] at hu
      have hlocked := (hs u b d hu).2
      rw [Store.setNx_of_live hlocked.live.1 hlocked.live.2] at hstored
      cases hstored
  · simp only [hstored, Bool.false_eq_true, if_false]
    have hredis : (s.redis.setNx key (token t) buildLockTtl).2 = s.redis := by
      unfold Store.setNx at hstored ⊢
      split_ifs at hstored ⊢
      · rfl
      · exact absurd rfl hstored
    exact hs.goto (by simp) (by rw [hredis]) fun _ _ _ _ => by rw [hredis]

theorem BuildTasks.AllLocked.release (hs : s.AllLocked key token) (reply : RedisReply) :
    (s.release key token t reply).AllLocked key token := by
  have hdelete : (s.goto t .over (s.redis.deleteIf key (token t))).AllLocked key token := by
    refine hs.goto (by simp) (Store.now_deleteIf _ _ _) fun u d hne hlocked => ?_
    rw [Store.deleteIf_of_ne]
    intro hget
    have htoken := hlocked.holds.symm.trans hget
    exact hne (token.injective (Option.some.inj htoken))
  cases reply with
  | answered => exact hdelete
  | lost => exact hdelete
  | failed => exact hs.goto (by simp) rfl fun _ _ _ _ => rfl

theorem BuildTasks.AllLocked.step (hs : s.AllLocked key token) (e : TaskEvent T) (he : s.InTime e) :
    (s.step key token e).AllLocked key token := by
  cases e with
  | tick n =>
      intro u b d hu
      obtain ⟨hb, hlocked⟩ := hs u b d hu
      exact ⟨hb, hlocked.1, he u b d hu⟩
  | acquire t reply =>
      obtain rfl : reply = .answered := he
      simp only [BuildTasks.step]
      split_ifs with hwaiting
      · exact hs.acquire hwaiting
      · exact hs
  | buildEnds t =>
      simp only [BuildTasks.step]
      split
      · exact hs.goto (by simp) rfl fun _ _ _ _ => rfl
      · exact hs.goto (by simp) rfl fun _ _ _ _ => rfl
      · exact hs
  | release t reply =>
      simp only [BuildTasks.step]
      split_ifs
      · exact hs.release reply
      · exact hs
  | crash t => exact hs.goto (by simp) rfl fun _ _ _ _ => rfl

/-- A lock is lost to time, or to the script of the task that has set it. -/
theorem BuildTasks.Holds.step (hu : s.Holds key token u) (e : TaskEvent T) :
    (s.step key token e).Holds key token u ∨
      (∃ n, e = .tick n) ∨ ∃ reply, e = .release u reply := by
  unfold BuildTasks.Holds at hu ⊢
  cases e with
  | tick n => exact .inr (.inl ⟨n, rfl⟩)
  | acquire t reply =>
      left
      simp only [BuildTasks.step]
      split_ifs
      · have hset := Store.get?_setNx_of_some hu (token t) buildLockTtl
        cases reply with
        | answered =>
            simp only [BuildTasks.acquire]
            split_ifs
            · exact hset
            · exact hset
        | lost => exact hset
        | failed => exact hu
      · exact hu
  | buildEnds t =>
      left
      simp only [BuildTasks.step]
      split
      · exact hu
      · exact hu
      · exact hu
  | release t reply =>
      by_cases hut : u = t
      · exact .inr (.inr ⟨reply, by rw [hut]⟩)
      · left
        have hkept : (s.redis.deleteIf key (token t)).get? key = some (token u) := by
          rw [Store.deleteIf_of_ne]
          · exact hu
          · intro hget
            exact hut (token.injective (Option.some.inj (hu.symm.trans hget)))
        simp only [BuildTasks.step]
        split_ifs
        · cases reply with
          | answered => exact hkept
          | lost => exact hkept
          | failed => exact hu
        · exact hu
  | crash t => exact .inl hu

/-! ## Runs -/

omit [DecidableEq T] in
theorem allLocked_start (redis : Store String String) :
    (BuildTasks.start redis : BuildTasks T).AllLocked key token := by
  intro t b d ht
  cases ht

/-- As long as Redis answers and builds end in time, no two tasks are inside a build. However
long a build takes and whatever Redis does, no task takes the lock of another one away. -/
theorem buildLock_safe (key : String) (token : T ↪ String) (redis : Store String String)
    (events : List (TaskEvent T)) :
    let s := events.foldl (BuildTasks.step key token) (BuildTasks.start redis)
    (StepRuns.Along (BuildTasks.step key token) BuildTasks.InTime (BuildTasks.start redis) events →
      ∀ t u, s.Builds t → s.Builds u → t = u) ∧
      ∀ e u, s.Holds key token u → ¬(s.step key token e).Holds key token u →
        (∃ n, e = .tick n) ∨ ∃ reply, e = .release u reply := by
  intro s
  constructor
  · intro hrun t u ht hu
    have hs : s.AllLocked key token :=
      hrun.invariant (fun _ e hs he => hs.step e he) (allLocked_start redis)
    obtain ⟨b, d, ht⟩ := ht
    obtain ⟨b', d', hu⟩ := hu
    have htoken := (hs t b d ht).2.holds.symm.trans (hs u b' d' hu).2.holds
    exact token.injective (Option.some.inj htoken)
  · intro e u hu hlost
    exact (hu.step e).resolve_left hlost

end

/-- Two tasks, the second of which comes while the first builds. -/
def twoBuilds : List (TaskEvent Bool) :=
  [.acquire true .answered, .tick 60000, .acquire false .answered]

def buildTokens : Bool ↪ String where
  toFun t := if t then "first" else "second"
  inj' t u h := by
    cases t <;> cases u <;> simp_all

theorem buildLock_safe_twoBuilds :
    let s := twoBuilds.foldl (BuildTasks.step "runtime:build:7" buildTokens)
      (BuildTasks.start {})
    s.phase true = .building true 3600000 ∧ s.phase false = .over ∧
      (∀ t u, s.Builds t → s.Builds u → t = u) := by
  have hsafe := buildLock_safe "runtime:build:7" buildTokens {} twoBuilds
  refine ⟨by decide, by decide, hsafe.1 ⟨rfl, ?_, rfl, trivial⟩⟩
  have hfirst : ((BuildTasks.start {}).step "runtime:build:7" buildTokens
      (.acquire true .answered)).phase true = .building true 3600000 := by decide
  have hsecond : ((BuildTasks.start {}).step "runtime:build:7" buildTokens
      (.acquire true .answered)).phase false = .waiting := by decide
  intro t b d ht
  cases t with
  | false => cases hsecond.symm.trans ht
  | true =>
      obtain ⟨rfl, rfl⟩ := TaskPhase.building.inj (hfirst.symm.trans ht)
      decide

end Zyntry
