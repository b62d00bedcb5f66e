import Zyntry.PythonText
import Mathlib.Data.NNRat.Lemmas
import Mathlib.Algebra.Order.Ring.NNRat
import Mathlib.Data.List.TakeWhile

/-!
# Provider health

A provider that has failed several times in a row is not tried for a while. The object keeps a
counter and a deadline for each provider; what they come to is a fact about the end of the
history. Times are readings of the monotonic clock, in seconds.
-/

namespace Zyntry

open Python

structure ProviderHealthState where
  provider : String
  consecutiveFailures : ℕ := 0
  totalFailures : ℕ := 0
  totalSuccesses : ℕ := 0
  lastLatencyMs : Option ℚ := none
  lastError : Option String := none
  unhealthyUntil : Option ℚ≥0 := none

/-- No deadline, one that is over, or one that is zero and false. -/
def ProviderHealthState.available (state : ProviderHealthState) (now : ℚ≥0) : Bool :=
  state.unhealthyUntil.all fun deadline => deadline = 0 ∨ deadline ≤ now

structure ProviderHealth where
  failureThreshold : ℕ
  cooldownSeconds : ℕ
  states : String → Option ProviderHealthState := fun _ => none
  failureThreshold_pos : 0 < failureThreshold
  cooldownSeconds_pos : 0 < cooldownSeconds

/-- `provider.strip().lower()`. -/
def providerKey (provider : String) : String := lower (stripped provider)

namespace ProviderHealth

/-- The constructor, with `max(1, ...)` for both settings. -/
def new (failureThreshold : ℤ := 3) (cooldownSeconds : ℤ := 30) : ProviderHealth where
  failureThreshold := (max 1 failureThreshold).toNat
  cooldownSeconds := (max 1 cooldownSeconds).toNat
  failureThreshold_pos := by omega
  cooldownSeconds_pos := by omega

def store (health : ProviderHealth) (provider : String) (state : ProviderHealthState) :
    ProviderHealth :=
  { health with states := Function.update health.states (providerKey provider) (some state) }

/-- `_get`, which creates the state of a provider on its first use. -/
def get (health : ProviderHealth) (provider : String) : ProviderHealth × ProviderHealthState :=
  match health.states (providerKey provider) with
  | some state => (health, state)
  | none =>
      let state : ProviderHealthState := { provider := providerKey provider }
      (health.store provider state, state)

def isAvailable (health : ProviderHealth) (provider : String) (now : ℚ≥0) :
    ProviderHealth × Bool :=
  let (health, state) := health.get provider
  (health, state.available now)

def recordSuccess (health : ProviderHealth) (provider : String) (latencyMs : Option ℚ) :
    ProviderHealth :=
  let (health, state) := health.get provider
  health.store provider
    { state with
      consecutiveFailures := 0
      totalSuccesses := state.totalSuccesses + 1
      lastLatencyMs := latencyMs
      lastError := none
      unhealthyUntil := none }

def recordFailure (health : ProviderHealth) (provider error : String) (now : ℚ≥0) :
    ProviderHealth :=
  let (health, state) := health.get provider
  let failures := state.consecutiveFailures + 1
  health.store provider
    { state with
      consecutiveFailures := failures
      totalFailures := state.totalFailures + 1
      lastError := some (String.ofList (error.toList.take 500))
      unhealthyUntil :=
        if health.failureThreshold ≤ failures then some (now + health.cooldownSeconds)
        else state.unhealthyUntil }

/-! ## Histories -/

inductive HealthEvent where
  | success (latencyMs : Option ℚ)
  | failure (error : String)
deriving DecidableEq, Repr

structure TimedEvent where
  time : ℚ≥0
  provider : String
  event : HealthEvent

def TimedEvent.failed (e : TimedEvent) : Bool := e.event matches .failure _

def record (health : ProviderHealth) (e : TimedEvent) : ProviderHealth :=
  match e.event with
  | .success latencyMs => health.recordSuccess e.provider latencyMs
  | .failure error => health.recordFailure e.provider error e.time

/-- Events in the order of their times. -/
structure History where
  events : List TimedEvent
  ordered : events.Pairwise fun e e' => e.time ≤ e'.time

def History.upTo (history : History) (t : ℚ≥0) : List TimedEvent :=
  history.events.takeWhile fun e => e.time ≤ t

/-- The failures of a provider in a row that its events end in, the last one first. -/
def recentFailures (provider : String) (events : List TimedEvent) : List TimedEvent :=
  (events.filter fun e => providerKey e.provider = providerKey provider).reverse.takeWhile
    TimedEvent.failed

/-- The threshold has been reached, and the cooldown of the last failure is not over. -/
def CoolsDown (health : ProviderHealth) (provider : String) (events : List TimedEvent)
    (t : ℚ≥0) : Prop :=
  health.failureThreshold ≤ (recentFailures provider events).length ∧
    ∃ last ∈ (recentFailures provider events).head?, t < last.time + health.cooldownSeconds

/-! ## Reading and writing a state -/

-- a key is compared, and never computed
attribute [local irreducible] providerKey

variable {health : ProviderHealth} {provider provider' : String}

theorem store_states (health : ProviderHealth) (provider : String)
    (state : ProviderHealthState) : (health.store provider state).states =
      Function.update health.states (providerKey provider) (some state) := rfl

theorem get_of_some {state : ProviderHealthState}
    (h : health.states (providerKey provider) = some state) :
    health.get provider = (health, state) := by
  rw [get, h]

theorem get_of_none (h : health.states (providerKey provider) = none) :
    health.get provider =
      (health.store provider { provider := providerKey provider },
        { provider := providerKey provider }) := by
  rw [get, h]

/-- The state of a provider, if it has one. -/
theorem get_snd (health : ProviderHealth) (provider : String) : (health.get provider).2 =
    (health.states (providerKey provider)).getD { provider := providerKey provider } := by
  cases hstate : health.states (providerKey provider) with
  | some state => rw [get_of_some hstate, Option.getD_some]
  | none => rw [get_of_none hstate, Option.getD_none]

theorem get_store (state : ProviderHealthState)
    (h : providerKey provider' = providerKey provider) :
    ((health.store provider state).get provider').2 = state := by
  rw [get_snd, h, store_states, Function.update_self, Option.getD_some]

theorem get_store_of_ne (state : ProviderHealthState)
    (h : providerKey provider' ≠ providerKey provider) :
    ((health.store provider state).get provider').2 = (health.get provider').2 := by
  rw [get_snd, get_snd, store_states, Function.update_of_ne h]

theorem get_get (health : ProviderHealth) (provider provider' : String) :
    ((health.get provider).1.get provider').2 = (health.get provider').2 := by
  cases hstate : health.states (providerKey provider) with
  | some state => rw [get_of_some hstate]
  | none =>
      rw [get_of_none hstate]
      by_cases hkey : providerKey provider' = providerKey provider
      · rw [get_store _ hkey, get_snd, hkey, hstate, Option.getD_none]
      · exact get_store_of_ne _ hkey

/-- Asking changes no answer. -/
theorem isAvailable_isAvailable (health : ProviderHealth) (provider provider' : String)
    (t t' : ℚ≥0) : ((health.isAvailable provider t).1.isAvailable provider' t').2 =
      (health.isAvailable provider' t').2 :=
  congrArg (ProviderHealthState.available · t') (get_get health provider provider')

theorem get_settings (health : ProviderHealth) (provider : String) :
    (health.get provider).1.failureThreshold = health.failureThreshold ∧
      (health.get provider).1.cooldownSeconds = health.cooldownSeconds := by
  unfold get
  split
  · exact ⟨rfl, rfl⟩
  · exact ⟨rfl, rfl⟩

theorem record_settings (health : ProviderHealth) (e : TimedEvent) :
    (health.record e).failureThreshold = health.failureThreshold ∧
      (health.record e).cooldownSeconds = health.cooldownSeconds := by
  unfold record
  split
  · exact get_settings health e.provider
  · exact get_settings health e.provider

/-! ## What the counter and the deadline remember -/

theorem recentFailures_concat (provider : String) (events : List TimedEvent) (e : TimedEvent) :
    recentFailures provider (events ++ [e]) =
      if providerKey e.provider = providerKey provider then
        if e.failed then e :: recentFailures provider events else []
      else recentFailures provider events := by
  unfold recentFailures
  rw [List.filter_append, List.reverse_append]
  by_cases hkey : providerKey e.provider = providerKey provider
  · cases hfailed : e.failed <;> simp [hkey, hfailed]
  · simp [hkey]

/-- The state of a provider after these failures in a row. -/
structure Remembers (health : ProviderHealth) (state : ProviderHealthState)
    (failures : List TimedEvent) : Prop where
  count : state.consecutiveFailures = failures.length
  deadline : state.unhealthyUntil =
    if health.failureThreshold ≤ failures.length then
      failures.head?.map fun last => last.time + (health.cooldownSeconds : ℚ≥0)
    else none

theorem remembers_new (failureThreshold cooldownSeconds : ℤ) (provider : String) :
    Remembers (new failureThreshold cooldownSeconds)
      ((new failureThreshold cooldownSeconds).get provider).2 [] where
  count := rfl
  deadline := by
    rw [List.length_nil,
      if_neg (Nat.not_le.mpr (new failureThreshold cooldownSeconds).failureThreshold_pos)]
    rfl

/-- One event: a failure is counted, a success ends the row. -/
theorem Remembers.record {events : List TimedEvent}
    (h : ∀ provider, Remembers health (health.get provider).2 (recentFailures provider events))
    (e : TimedEvent) (provider : String) :
    Remembers (health.record e) ((health.record e).get provider).2
      (recentFailures provider (events ++ [e])) := by
  obtain ⟨hthreshold, hcooldown⟩ := record_settings health e
  obtain ⟨hgetThreshold, hgetCooldown⟩ := get_settings health e.provider
  have hbefore := h provider
  rw [recentFailures_concat]
  by_cases hkey : providerKey e.provider = providerKey provider
  · rw [if_pos hkey]
    have hsame := h e.provider
    have hrecent : recentFailures e.provider events = recentFailures provider events := by
      rw [recentFailures, recentFailures, hkey]
    rw [hrecent] at hsame
    cases hevent : e.event with
    | success latencyMs =>
        have hfailed : e.failed = false := by rw [TimedEvent.failed, hevent]
        have hstate : (health.record e) = health.recordSuccess e.provider latencyMs := by
          rw [ProviderHealth.record, hevent]
        rw [hfailed, if_neg (by decide), hstate, recordSuccess, get_store _ hkey.symm]
        refine ⟨rfl, ?_⟩
        rw [List.length_nil, if_neg (Nat.not_le.mpr (ProviderHealth.failureThreshold_pos _))]
    | failure error =>
        have hfailed : e.failed = true := by rw [TimedEvent.failed, hevent]
        have hstate : (health.record e) = health.recordFailure e.provider error e.time := by
          rw [ProviderHealth.record, hevent]
        rw [hfailed, if_pos rfl]
        constructor
        · rw [hstate, recordFailure, get_store _ hkey.symm]
          exact congrArg (· + 1) hsame.count
        · rw [hthreshold, hcooldown, hstate, recordFailure, get_store _ hkey.symm]
          dsimp only
          rw [hgetThreshold, hgetCooldown, hsame.count, List.length_cons]
          split_ifs with hreached
          · rfl
          · rw [hsame.deadline, if_neg (by omega)]
  · rw [if_neg hkey]
    have hstate : ((health.record e).get provider).2 = (health.get provider).2 := by
      unfold ProviderHealth.record
      split
      · rw [recordSuccess, get_store_of_ne _ (Ne.symm hkey), get_get]
      · rw [recordFailure, get_store_of_ne _ (Ne.symm hkey), get_get]
    rw [hstate]
    exact ⟨hbefore.count, by rw [hthreshold, hcooldown]; exact hbefore.deadline⟩

theorem remembers_foldl (failureThreshold cooldownSeconds : ℤ) (events : List TimedEvent)
    (provider : String) :
    Remembers (events.foldl ProviderHealth.record (new failureThreshold cooldownSeconds))
      ((events.foldl ProviderHealth.record (new failureThreshold cooldownSeconds)).get provider).2
      (recentFailures provider events) := by
  induction events using List.reverseRecOn generalizing provider with
  | nil => exact remembers_new failureThreshold cooldownSeconds provider
  | append_singleton events e ih =>
      rw [List.foldl_append]
      exact Remembers.record ih e provider

theorem foldl_record_settings (health : ProviderHealth) (events : List TimedEvent) :
    (events.foldl ProviderHealth.record health).failureThreshold = health.failureThreshold ∧
      (events.foldl ProviderHealth.record health).cooldownSeconds = health.cooldownSeconds := by
  induction events generalizing health with
  | nil => exact ⟨rfl, rfl⟩
  | cons e events ih =>
      obtain ⟨hthreshold, hcooldown⟩ := record_settings health e
      rw [List.foldl_cons, ← hthreshold, ← hcooldown]
      exact ih (health.record e)

theorem Remembers.available_eq_false_iff {state : ProviderHealthState}
    {failures : List TimedEvent} (h : Remembers health state failures) (t : ℚ≥0) :
    state.available t = false ↔ health.failureThreshold ≤ failures.length ∧
      ∃ last ∈ failures.head?, t < last.time + health.cooldownSeconds := by
  unfold ProviderHealthState.available
  rw [h.deadline]
  by_cases hreached : health.failureThreshold ≤ failures.length
  · rw [if_pos hreached]
    cases failures with
    | nil => simp
    | cons last failures =>
        have hpos : last.time + (health.cooldownSeconds : ℚ≥0) ≠ 0 := by
          have hcooldown : (health.cooldownSeconds : ℚ≥0) ≠ 0 :=
            Nat.cast_ne_zero.mpr health.cooldownSeconds_pos.ne'
          exact fun hzero => hcooldown ((add_eq_zero_iff_of_nonneg zero_le zero_le).mp hzero).2
        have hlength : health.failureThreshold ≤ failures.length + 1 := hreached
        simp [hlength, hpos]
  · simp [hreached]

/-- A provider is not available exactly if the history up to then ends in enough of its failures
and the cooldown of the last one is not over. -/
theorem isAvailable_eq_false_iff (failureThreshold cooldownSeconds : ℤ) (history : History)
    (provider : String) (t : ℚ≥0) :
    (((history.upTo t).foldl ProviderHealth.record
        (new failureThreshold cooldownSeconds)).isAvailable provider t).2 = false ↔
      CoolsDown (new failureThreshold cooldownSeconds) provider (history.upTo t) t := by
  obtain ⟨hthreshold, hcooldown⟩ :=
    foldl_record_settings (new failureThreshold cooldownSeconds) (history.upTo t)
  have hstate := remembers_foldl failureThreshold cooldownSeconds (history.upTo t) provider
  unfold CoolsDown
  rw [← hthreshold, ← hcooldown]
  exact hstate.available_eq_false_iff t

end ProviderHealth

end Zyntry
