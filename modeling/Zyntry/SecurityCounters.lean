import Zyntry.BuildLock

/-!
# The counters of the runtime security

A request raises a counter in Redis, and the request that has made the counter gives it its
time to live with a second command. Any command may fail, with or without having been
executed, and a request may be dropped between two commands. Requests interleave, time passes,
and an owner may clear a client.
-/

namespace Zyntry

open ExpiringKeys

inductive CounterCall where
  /-- `_enforce_rate_limit`. -/
  | rateLimit (runtimeId clientIp : String) (limit : ℕ) (failClosed : Bool)
  /-- `_record_violation`, if bans are enabled. -/
  | violation (runtimeId clientIp : String) (threshold banDuration : ℕ) (failClosed : Bool)
deriving DecidableEq

def blockKey (runtimeId clientIp : String) : String :=
  "runtime:security:block:" ++ runtimeId ++ ":" ++ clientIp

def violationsKey (runtimeId clientIp : String) : String :=
  "runtime:security:violations:" ++ runtimeId ++ ":" ++ clientIp

namespace CounterCall

def key : CounterCall → String
  | .rateLimit runtimeId clientIp _ _ => "runtime:security:rate:" ++ runtimeId ++ ":" ++ clientIp
  | .violation runtimeId clientIp _ _ _ => violationsKey runtimeId clientIp

/-- The time to live of the counter, in seconds. -/
def ttl : CounterCall → ℕ
  | .rateLimit _ _ _ _ => 60
  | .violation _ _ _ banDuration _ => banDuration

def failClosed : CounterCall → Bool
  | .rateLimit _ _ _ failClosed => failClosed
  | .violation _ _ _ _ failClosed => failClosed

end CounterCall

inductive CounterOutcome where
  | passed
  | limited
  | unavailable
deriving DecidableEq, Repr

inductive CounterPhase where
  | waiting
  | expiring (call : CounterCall)
  | blocking (runtimeId clientIp : String) (banDuration : ℕ) (failClosed : Bool)
  | over (outcome : CounterOutcome)
deriving DecidableEq

/-- An exception of Redis, by the failure mode of the policy. -/
def CounterPhase.raised (failClosed : Bool) : CounterPhase :=
  .over (if failClosed then .unavailable else .passed)

/-- What follows once the counter has its time to live. -/
def CounterCall.counted (count : ℕ) : CounterCall → CounterPhase
  | .rateLimit _ _ limit _ => .over (if limit < count then .limited else .passed)
  | .violation runtimeId clientIp threshold banDuration failClosed =>
      if threshold ≤ count then .blocking runtimeId clientIp banDuration failClosed
      else .over .passed

inductive CounterEvent (S : Type) where
  | tick (n : ℕ)
  | incr (session : S) (call : CounterCall) (reply : RedisReply)
  | expire (session : S) (reply : RedisReply)
  | block (session : S) (reply : RedisReply)
  | clear (runtimeId clientIp : String)
  | drop (session : S)
deriving DecidableEq

structure CounterState (S : Type) where
  redis : Store String ℕ
  phase : S → CounterPhase

namespace CounterState

variable {S : Type} [DecidableEq S]

def start (redis : Store String ℕ) : CounterState S := ⟨redis, fun _ => .waiting⟩

def goto (w : CounterState S) (s : S) (phase : CounterPhase) (redis : Store String ℕ) :
    CounterState S := ⟨redis, Function.update w.phase s phase⟩

def incr (w : CounterState S) (s : S) (call : CounterCall) : RedisReply → CounterState S
  | .answered =>
      let answer := w.redis.incr call.key
      w.goto s (if answer.1 = 1 then .expiring call else call.counted answer.1) answer.2
  | .lost => w.goto s (.raised call.failClosed) (w.redis.incr call.key).2
  | .failed => w.goto s (.raised call.failClosed) w.redis

def expire (w : CounterState S) (s : S) (call : CounterCall) : RedisReply → CounterState S
  | .answered => w.goto s (call.counted 1) (w.redis.expire call.key call.ttl)
  | .lost => w.goto s (.raised call.failClosed) (w.redis.expire call.key call.ttl)
  | .failed => w.goto s (.raised call.failClosed) w.redis

def block (w : CounterState S) (s : S) (key : String) (banDuration : ℕ) (failClosed : Bool) :
    RedisReply → CounterState S
  | .answered => w.goto s (.over .passed) (w.redis.setEx key 1 banDuration)
  | .lost => w.goto s (.raised failClosed) (w.redis.setEx key 1 banDuration)
  | .failed => w.goto s (.raised failClosed) w.redis

/-- One event; an event that the phase of its session does not allow changes nothing. -/
def step (w : CounterState S) : CounterEvent S → CounterState S
  | .tick n => { w with redis := w.redis.tick n }
  | .incr s call reply => if w.phase s = .waiting then w.incr s call reply else w
  | .expire s reply =>
      match w.phase s with
      | .expiring call => w.expire s call reply
      | _ => w
  | .block s reply =>
      match w.phase s with
      | .blocking runtimeId clientIp banDuration failClosed =>
          w.block s (blockKey runtimeId clientIp) banDuration failClosed reply
      | _ => w
  | .clear runtimeId clientIp =>
      { w with
        redis := (w.redis.put (blockKey runtimeId clientIp) none).put
          (violationsKey runtimeId clientIp) none }
  | .drop s => w.goto s (.over .unavailable) w.redis

/-- The session is about to give the counter its time to live. -/
def Expires (w : CounterState S) (key : String) : Prop :=
  ∃ s call, w.phase s = .expiring call ∧ call.key = key

/-- A key without a time to live is about to get one. -/
def Expiring (w : CounterState S) : Prop := ∀ key, w.redis.Lasts key → w.Expires key

/-- No session is between the two commands. -/
def AtRest (w : CounterState S) : Prop := ∀ s call, w.phase s ≠ .expiring call

/-- The event does not lose the second command: a counter is not made by a command whose
answer is lost, and the `EXPIRE` of a new counter is sent and executed. -/
def Keeps (w : CounterState S) : CounterEvent S → Prop
  | .incr s call reply =>
      w.phase s = .waiting → reply = .lost → (w.redis.live call.key).isSome = true
  | .expire _ reply => reply ≠ .failed
  | .drop s => ∀ call, w.phase s ≠ .expiring call
  | _ => True

/-! ## One event -/

variable {w : CounterState S} {s : S}

theorem goto_phase_self (phase : CounterPhase) (redis : Store String ℕ) :
    (w.goto s phase redis).phase s = phase := by
  simp only [goto, Function.update_self]

theorem goto_phase_of_ne {t : S} (hne : t ≠ s) (phase : CounterPhase) (redis : Store String ℕ) :
    (w.goto s phase redis).phase t = w.phase t := by
  simp only [goto, Function.update_of_ne hne]

/-- A session that is not about to expire a key may go on. -/
theorem Expires.goto {key : String} (h : w.Expires key)
    (hs : ∀ call, w.phase s = .expiring call → call.key ≠ key) (phase : CounterPhase)
    (redis : Store String ℕ) : (w.goto s phase redis).Expires key := by
  obtain ⟨t, call, ht, hkey⟩ := h
  have hne : t ≠ s := by
    rintro rfl
    exact hs call ht hkey
  exact ⟨t, call, (goto_phase_of_ne hne phase redis).trans ht, hkey⟩

/-- The next phase of a session must expire what its command has left without a time to live,
unless another session does. -/
theorem Expiring.goto (hw : w.Expiring) {phase : CounterPhase} {redis : Store String ℕ}
    (hs : ∀ call, w.phase s = .expiring call → ¬redis.Lasts call.key)
    (hredis : ∀ key, redis.Lasts key →
      w.redis.Lasts key ∨ ∃ call, phase = .expiring call ∧ call.key = key) :
    (w.goto s phase redis).Expiring := by
  intro key hkey
  obtain hkept | ⟨call, rfl, hcall⟩ := hredis key hkey
  · apply (hw key hkept).goto
    rintro call hphase rfl
    exact hs call hphase hkey
  · exact ⟨s, call, goto_phase_self _ _, hcall⟩

/-- A session without a second command pending goes on without touching the store. -/
theorem Expiring.goto_same (hw : w.Expiring) (hs : ∀ call, w.phase s ≠ .expiring call)
    (phase : CounterPhase) : (w.goto s phase w.redis).Expiring :=
  hw.goto (fun call h => absurd h (hs call)) fun _ h => .inl h

theorem Expiring.incr (hw : w.Expiring) (hwaiting : w.phase s = .waiting) {call : CounterCall}
    {reply : RedisReply} (hlost : reply = .lost → (w.redis.live call.key).isSome = true) :
    (w.incr s call reply).Expiring := by
  have hidle : ∀ c, w.phase s ≠ .expiring c := by simp [hwaiting]
  cases reply with
  | answered =>
      apply hw.goto fun c h => absurd h (hidle c)
      intro key hkey
      by_cases hk : key = call.key
      · subst hk
        obtain hnone | hlasts := Store.lasts_incr_self.mp hkey
        · -- the counter is new, so its value is one
          exact .inr ⟨call, if_pos (Store.incr_of_none hnone), rfl⟩
        · exact .inl hlasts
      · exact .inl ((Store.lasts_incr_of_ne hk w.redis).mp hkey)
  | lost =>
      apply hw.goto fun c h => absurd h (hidle c)
      intro key hkey
      left
      by_cases hk : key = call.key
      · subst hk
        obtain hnone | hlasts := Store.lasts_incr_self.mp hkey
        · have hsome := hlost rfl
          rw [hnone] at hsome
          cases hsome
        · exact hlasts
      · exact (Store.lasts_incr_of_ne hk w.redis).mp hkey
  | failed => exact hw.goto_same hidle _

theorem Expiring.expire (hw : w.Expiring) {call : CounterCall} (hs : w.phase s = .expiring call)
    {reply : RedisReply} (hreply : reply ≠ .failed) : (w.expire s call reply).Expiring := by
  have hexpire : ∀ phase,
      (w.goto s phase (w.redis.expire call.key call.ttl)).Expiring := by
    intro phase
    apply hw.goto
    · intro c hc
      obtain rfl := CounterPhase.expiring.inj (hs.symm.trans hc)
      exact Store.not_lasts_expire_self _ _ _
    · intro key hkey
      by_cases hk : key = call.key
      · subst hk
        exact absurd hkey (Store.not_lasts_expire_self _ _ _)
      · exact .inl ((Store.lasts_expire_of_ne hk _ _).mp hkey)
  cases reply with
  | answered => exact hexpire _
  | lost => exact hexpire _
  | failed => exact absurd rfl hreply

theorem Expiring.block (hw : w.Expiring) (hs : ∀ call, w.phase s ≠ .expiring call) (key : String)
    (banDuration : ℕ) (failClosed : Bool) (reply : RedisReply) :
    (w.block s key banDuration failClosed reply).Expiring := by
  have hset : ∀ phase, (w.goto s phase (w.redis.setEx key 1 banDuration)).Expiring := by
    intro phase
    apply hw.goto fun c h => absurd h (hs c)
    intro key' hkey'
    left
    by_cases hk : key' = key
    · subst hk
      exact absurd hkey' (Store.not_lasts_setEx_self _ _ _ _)
    · exact (Store.lasts_put_of_ne hk _ _).mp hkey'
  cases reply with
  | answered => exact hset _
  | lost => exact hset _
  | failed => exact hw.goto_same hs _

omit [DecidableEq S] in
theorem Expiring.remove (hw : w.Expiring) {redis : Store String ℕ}
    (h : ∀ key, redis.Lasts key → w.redis.Lasts key) :
    ({ w with redis := redis } : CounterState S).Expiring := by
  intro key hkey
  exact hw key (h key hkey)

theorem lasts_of_lasts_put_none {redis : Store String ℕ} {key key' : String}
    (h : (redis.put key none).Lasts key') : redis.Lasts key' := by
  by_cases hk : key' = key
  · subst hk
    obtain ⟨e, he, -⟩ := Store.lasts_put_self.mp h
    cases he
  · exact (Store.lasts_put_of_ne hk _ _).mp h

theorem Expiring.step (hw : w.Expiring) (e : CounterEvent S) (he : w.Keeps e) :
    (w.step e).Expiring := by
  cases e with
  | tick n => exact hw.remove fun _ h => h.of_tick
  | incr s call reply =>
      simp only [CounterState.step]
      split_ifs with hwaiting
      · exact hw.incr hwaiting (he hwaiting)
      · exact hw
  | expire s reply =>
      simp only [CounterState.step]
      split
      · next call hs => exact hw.expire hs he
      · exact hw
  | block s reply =>
      simp only [CounterState.step]
      split
      · next runtimeId clientIp banDuration failClosed hs =>
        exact hw.block (by simp [hs]) _ _ _ _
      · exact hw
  | clear runtimeId clientIp =>
      exact hw.remove fun _ h => lasts_of_lasts_put_none (lasts_of_lasts_put_none h)
  | drop s => exact hw.goto_same he _

/-! ## Runs -/

omit [DecidableEq S] in
theorem expiring_start {redis : Store String ℕ} (h : ∀ key, ¬redis.Lasts key) :
    (start redis : CounterState S).Expiring := by
  intro key hkey
  exact absurd hkey (h key)

/-- As long as no second command is lost, a key without a time to live is about to get one, and
once no session is between its two commands each key runs out some time. -/
theorem securityCounters_expire (redis : Store String ℕ) (hstart : ∀ key, ¬redis.Lasts key)
    (events : List (CounterEvent S))
    (hrun : StepRuns.Along step Keeps (start redis) events) :
    let w := events.foldl step (start redis)
    w.Expiring ∧ (w.AtRest → ∀ key,
      (∀ entry, w.redis.live key = some entry → entry.deadline ≠ none) ∧
        ∃ n, (w.redis.tick n).live key = none) := by
  intro w
  have hw : w.Expiring := hrun.invariant (fun _ e hs he => hs.step e he) (expiring_start hstart)
  refine ⟨hw, ?_⟩
  intro hrest key
  have hlasts : ¬w.redis.Lasts key := by
    intro hkey
    obtain ⟨s, call, hs, -⟩ := hw key hkey
    exact hrest s call hs
  constructor
  · intro entry hentry hdeadline
    exact hlasts ⟨entry, hentry, hdeadline⟩
  · rw [Store.lasts_iff_live_tick] at hlasts
    push Not at hlasts
    exact hlasts

end CounterState

/-! ## Two requests of one client -/

def oneRequestRule : CounterCall := .rateLimit "7" "203.0.113.9" 1 false

/-- The `EXPIRE` of the first request fails; the second one comes a year later. -/
def failedExpiry : List (CounterEvent Bool) :=
  [.incr true oneRequestRule .answered, .expire true .failed, .tick 31536000,
    .incr false oneRequestRule .answered]

/-- The counter has no time to live, however long one waits, and the client is limited. -/
theorem failedExpiry_lasts :
    let w := failedExpiry.foldl CounterState.step (CounterState.start {})
    w.AtRest ∧ w.phase true = .over .passed ∧ w.phase false = .over .limited ∧
      w.redis.live oneRequestRule.key = some ⟨2, none⟩ ∧
        ∀ n, (w.redis.tick n).live oneRequestRule.key ≠ none := by
  intro w
  have hlive : w.redis.live oneRequestRule.key = some ⟨2, none⟩ := by decide +kernel
  have hphase : ∀ s, w.phase s = .over .passed ∨ w.phase s = .over .limited := by
    decide +kernel
  refine ⟨?_, by decide +kernel, by decide +kernel, hlive, ?_⟩
  · intro s call hs
    obtain h | h := hphase s
    · cases h.symm.trans hs
    · cases h.symm.trans hs
  · exact Store.lasts_iff_live_tick.mp ⟨_, hlive, rfl⟩

/-- The same two requests, with every command answered. -/
def answeredExpiry : List (CounterEvent Bool) :=
  [.incr true oneRequestRule .answered, .expire true .answered, .tick 30,
    .incr false oneRequestRule .answered]

theorem securityCounters_expire_answered :
    let w := answeredExpiry.foldl CounterState.step (CounterState.start {})
    w.phase false = .over .limited ∧ w.redis.live oneRequestRule.key = some ⟨2, some 60⟩ ∧
      w.Expiring := by
  have hstart : ∀ key, ¬({} : Store String ℕ).Lasts key := by
    rintro key ⟨e, he, -⟩
    cases he
  have hexpire := CounterState.securityCounters_expire {} hstart answeredExpiry
    ⟨fun _ h => absurd h (by decide), (by decide : RedisReply.answered ≠ .failed), trivial,
      fun _ h => absurd h (by decide), trivial⟩
  exact ⟨by decide +kernel, by decide +kernel, hexpire.1⟩

end Zyntry
