import Zyntry.RateLimiters

/-!
# The windows of the limiter in memory

The limiter keeps for each client the admitted times that the last window still held. What the
windows of the whole timeline hold follows from the kept times, since a time that has been
dropped lies before every later window.
-/

namespace Zyntry

structure LimitedRequest where
  client : String
  time : ℚ≥0
deriving DecidableEq

namespace InMemoryRateLimiter

variable (limit window : ℤ)

/-- `is_allowed`, on the times kept for all keys. -/
def isAllowedFor (store : String → List ℚ≥0) (r : LimitedRequest) :
    LimitDecision × (String → List ℚ≥0) :=
  let answer := isAllowed limit window (store r.client) r.time
  (answer.1, Function.update store r.client answer.2)

/-- The requests of a timeline, each with what the limiter decides on it. -/
def serve : (String → List ℚ≥0) → List LimitedRequest → List (LimitedRequest × Bool)
  | _, [] => []
  | store, r :: rest =>
      (r, (isAllowedFor limit window store r).1.allowed) ::
        serve (isAllowedFor limit window store r).2 rest

end InMemoryRateLimiter

/-- The times of the admitted requests of a client. -/
def admittedTimes (client : String) (log : List (LimitedRequest × Bool)) : List ℚ≥0 :=
  (log.filter fun e => e.1.client = client ∧ e.2 = true).map fun e => e.1.time

/-- The times of an interval of the length of the window that is open at one end. -/
def InHalfOpen (window : ℤ) (openLeft : Bool) (start : ℚ) (t : ℚ≥0) : Prop :=
  if openLeft then start < t ∧ t ≤ start + window else start ≤ t ∧ t < start + window

instance (window : ℤ) (openLeft : Bool) (start : ℚ) (t : ℚ≥0) :
    Decidable (InHalfOpen window openLeft start t) :=
  inferInstanceAs (Decidable (ite _ _ _))

/-- No half-open interval of the length of the window holds more than `limit` admitted requests of
a client, and a request is denied only if `limit` requests of its client were admitted in the
window that ends with it. -/
structure WindowLaw (limit window : ℤ) (log : List (LimitedRequest × Bool)) : Prop where
  admitted : ∀ (client : String) (openLeft : Bool) (start : ℚ),
    (((admittedTimes client log).filter fun t => InHalfOpen window openLeft start t).length : ℤ) ≤
      limit
  denied : ∀ before r after, log = before ++ (r, false) :: after →
    (((admittedTimes r.client before).filter fun t => InWindow window r.time t).length : ℤ) = limit

section

variable {limit window : ℤ}

theorem admittedTimes_append_self (log : List (LimitedRequest × Bool)) (r : LimitedRequest)
    (allowed : Bool) : admittedTimes r.client (log ++ [(r, allowed)]) =
      if allowed then admittedTimes r.client log ++ [r.time] else admittedTimes r.client log := by
  cases allowed <;> simp [admittedTimes]

theorem admittedTimes_append_of_ne {client : String} {r : LimitedRequest}
    (h : r.client ≠ client) (log : List (LimitedRequest × Bool)) (allowed : Bool) :
    admittedTimes client (log ++ [(r, allowed)]) = admittedTimes client log := by
  simp [admittedTimes, h]

/-- What the limiter has kept after the requests of a log. -/
structure KeepsAdmitted (limit window : ℤ) (log : List (LimitedRequest × Bool))
    (store : String → List ℚ≥0) : Prop where
  keeps : ∀ client, KeepsTimes window (log.map fun e => e.1.time) (admittedTimes client log)
    (store client)
  length_le : ∀ client, ((store client).length : ℤ) ≤ limit
  law : WindowLaw limit window log

theorem InHalfOpen.inWindow {openLeft : Bool} {start : ℚ} {now t : ℚ≥0}
    (hnow : InHalfOpen window openLeft start now) (h : InHalfOpen window openLeft start t) :
    InWindow window now t := by
  unfold InHalfOpen at hnow h
  unfold InWindow
  split_ifs at hnow h
  · linarith [hnow.2, h.1]
  · linarith [hnow.2, h.1]

/-- One more admitted request in a window that was not full. -/
theorem length_filter_append_le {times : List ℚ≥0} {now : ℚ≥0} {openLeft : Bool} {start : ℚ}
    (hlimit : ((times.filter fun t => InWindow window now t).length : ℤ) < limit)
    (hnow : InHalfOpen window openLeft start now) :
    (((times ++ [now]).filter fun t => InHalfOpen window openLeft start t).length : ℤ) ≤
      limit := by
  have hle : (times.filter fun t => InHalfOpen window openLeft start t).length ≤
      (times.filter fun t => InWindow window now t).length := by
    apply List.Sublist.length_le
    apply List.monotone_filter_right
    intro t ht
    rw [decide_eq_true_eq] at ht ⊢
    exact hnow.inWindow ht
  rw [List.filter_append, List.length_append]
  simp only [List.filter_cons, hnow, decide_true, if_true, List.filter_nil,
    List.length_singleton]
  omega

theorem KeepsTimes.mono {before before' spread timestamps : List ℚ≥0}
    (h : KeepsTimes window before spread timestamps) (hbefore : ∀ t ∈ before, t ∈ before') :
    KeepsTimes window before' spread timestamps :=
  fun now hnow => h now fun t ht => hnow t (hbefore t ht)

/-- The last entry of a log, or an earlier one. -/
theorem append_singleton_eq {α : Type} {log before after : List α} {e e' : α}
    (h : log ++ [e] = before ++ e' :: after) :
    (before = log ∧ e' = e) ∨ ∃ after', log = before ++ e' :: after' := by
  obtain rfl | ⟨after', last, rfl⟩ := after.eq_nil_or_concat
  · obtain ⟨rfl, he⟩ := List.append_inj' h rfl
    exact .inl ⟨rfl, (List.cons.inj he).1.symm⟩
  · refine .inr ⟨after', ?_⟩
    rw [List.concat_eq_append, ← List.cons_append, ← List.append_assoc] at h
    exact (List.append_inj' h rfl).1

section Step

variable {log : List (LimitedRequest × Bool)} {store : String → List ℚ≥0} {r : LimitedRequest}

/-- The window of a request is full of the admitted requests of its client. -/
def windowFull (limit window : ℤ) (log : List (LimitedRequest × Bool)) (r : LimitedRequest) :
    Bool :=
  limit ≤ ((admittedTimes r.client log).filter fun t => InWindow window r.time t).length

theorem KeepsAdmitted.kept_eq (h : KeepsAdmitted limit window log store)
    (hlog : ∀ e ∈ log, e.1.time ≤ r.time) :
    ((store r.client).filter fun t => InWindow window r.time t) =
      (admittedTimes r.client log).filter fun t => InWindow window r.time t := by
  apply h.keeps
  intro t ht
  obtain ⟨e, he, rfl⟩ := List.mem_map.mp ht
  exact hlog e he

theorem KeepsAdmitted.allowed_eq (h : KeepsAdmitted limit window log store)
    (hlog : ∀ e ∈ log, e.1.time ≤ r.time) :
    (InMemoryRateLimiter.isAllowedFor limit window store r).1.allowed =
      !windowFull limit window log r := by
  unfold windowFull
  rw [← h.kept_eq hlog]
  exact inMemory_allowed _ _

/-- What is kept for the client of the request. -/
theorem KeepsAdmitted.isAllowedFor_self (h : KeepsAdmitted limit window log store)
    (hlog : ∀ e ∈ log, e.1.time ≤ r.time) :
    (InMemoryRateLimiter.isAllowedFor limit window store r).2 r.client =
      ((admittedTimes r.client log).filter fun t => InWindow window r.time t) ++
        if windowFull limit window log r then [] else [r.time] := by
  have hself : (InMemoryRateLimiter.isAllowedFor limit window store r).2 r.client =
      (InMemoryRateLimiter.isAllowed limit window (store r.client) r.time).2 :=
    Function.update_self _ _ _
  rw [hself, inMemory_kept, h.kept_eq hlog]
  unfold windowFull
  by_cases hfull :
      limit ≤ ((admittedTimes r.client log).filter fun t => InWindow window r.time t).length
  · simp only [hfull, if_true, decide_true, List.append_nil]
  · simp only [hfull, if_false, decide_false, Bool.false_eq_true]

theorem InMemoryRateLimiter.isAllowedFor_of_ne {client : String} (hclient : r.client ≠ client) :
    (isAllowedFor limit window store r).2 client = store client :=
  Function.update_of_ne (Ne.symm hclient) _ _

theorem KeepsAdmitted.keeps_isAllowedFor (h : KeepsAdmitted limit window log store)
    (hlog : ∀ e ∈ log, e.1.time ≤ r.time) (client : String) :
    KeepsTimes window ((log ++ [(r, !windowFull limit window log r)]).map fun e => e.1.time)
      (admittedTimes client (log ++ [(r, !windowFull limit window log r)]))
      ((InMemoryRateLimiter.isAllowedFor limit window store r).2 client) := by
  rw [List.map_append]
  by_cases hclient : r.client = client
  · subst hclient
    rw [h.isAllowedFor_self hlog, admittedTimes_append_self]
    intro now hnow
    have hle : r.time ≤ now := hnow r.time (by simp)
    cases windowFull limit window log r with
    | true => simpa using filter_inWindow_filter hle _
    | false => simp [filter_inWindow_filter hle]
  · rw [admittedTimes_append_of_ne hclient, InMemoryRateLimiter.isAllowedFor_of_ne hclient]
    exact (h.keeps client).mono fun t ht => List.mem_append_left _ ht

theorem KeepsAdmitted.length_filter_le (h : KeepsAdmitted limit window log store)
    (hlog : ∀ e ∈ log, e.1.time ≤ r.time) :
    (((admittedTimes r.client log).filter fun t => InWindow window r.time t).length : ℤ) ≤
      limit := by
  rw [← h.kept_eq hlog]
  have hle := List.length_filter_le (fun t => decide (InWindow window r.time t)) (store r.client)
  have hstored := h.length_le r.client
  omega

theorem KeepsAdmitted.length_isAllowedFor_le (h : KeepsAdmitted limit window log store)
    (hlog : ∀ e ∈ log, e.1.time ≤ r.time) (client : String) :
    (((InMemoryRateLimiter.isAllowedFor limit window store r).2 client).length : ℤ) ≤ limit := by
  by_cases hclient : r.client = client
  · subst hclient
    have hle := h.length_filter_le hlog
    rw [h.isAllowedFor_self hlog, List.length_append]
    cases hfull : windowFull limit window log r with
    | true => simpa using hle
    | false =>
        have hroom : ¬limit ≤ _ := of_decide_eq_false hfull
        simp only [Bool.false_eq_true, if_false, List.length_singleton]
        omega
  · rw [InMemoryRateLimiter.isAllowedFor_of_ne hclient]
    exact h.length_le client

/-- The law goes on with what the limiter decides. -/
theorem KeepsAdmitted.windowLaw (h : KeepsAdmitted limit window log store)
    (hlog : ∀ e ∈ log, e.1.time ≤ r.time) :
    WindowLaw limit window (log ++ [(r, !windowFull limit window log r)]) := by
  constructor
  · intro client openLeft start
    by_cases hclient : r.client = client
    · subst hclient
      rw [admittedTimes_append_self]
      cases hfull : windowFull limit window log r with
      | true => simpa using h.law.admitted r.client openLeft start
      | false =>
          have hroom : ¬limit ≤ _ := of_decide_eq_false hfull
          by_cases hnow : InHalfOpen window openLeft start r.time
          · exact length_filter_append_le (not_le.mp hroom) hnow
          · simpa [List.filter_append, hnow] using h.law.admitted r.client openLeft start
    · rw [admittedTimes_append_of_ne hclient]
      exact h.law.admitted client openLeft start
  · intro before r' after hsplit
    obtain ⟨rfl, he⟩ | ⟨after', hlog'⟩ := append_singleton_eq hsplit
    · obtain ⟨rfl, hfull⟩ := Prod.mk.inj he
      have hle := h.length_filter_le hlog
      have hfull : windowFull limit window before r' = true := by simpa using hfull.symm
      have hge : limit ≤ _ := of_decide_eq_true hfull
      exact le_antisymm hle hge
    · exact h.law.denied before r' after' hlog'

theorem KeepsAdmitted.isAllowedFor (h : KeepsAdmitted limit window log store)
    (hlog : ∀ e ∈ log, e.1.time ≤ r.time) :
    KeepsAdmitted limit window
      (log ++ [(r, (InMemoryRateLimiter.isAllowedFor limit window store r).1.allowed)])
      (InMemoryRateLimiter.isAllowedFor limit window store r).2 := by
  rw [h.allowed_eq hlog]
  exact ⟨h.keeps_isAllowedFor hlog, h.length_isAllowedFor_le hlog, h.windowLaw hlog⟩

end Step

theorem KeepsAdmitted.serve {log : List (LimitedRequest × Bool)} {store : String → List ℚ≥0}
    {timeline : List LimitedRequest} (h : KeepsAdmitted limit window log store)
    (hlog : ∀ e ∈ log, ∀ r ∈ timeline, e.1.time ≤ r.time)
    (htimeline : timeline.Pairwise fun r r' => r.time ≤ r'.time) :
    WindowLaw limit window (log ++ InMemoryRateLimiter.serve limit window store timeline) := by
  induction timeline generalizing log store with
  | nil => simpa [InMemoryRateLimiter.serve] using h.law
  | cons r rest ih =>
      obtain ⟨hnext, hrest⟩ := List.pairwise_cons.mp htimeline
      have hlater : ∀ e ∈ log ++
          [(r, (InMemoryRateLimiter.isAllowedFor limit window store r).1.allowed)],
          ∀ r' ∈ rest, e.1.time ≤ r'.time := by
        intro e he r' hr'
        obtain he | rfl : e ∈ log ∨ e = _ := by simpa using he
        · exact hlog e he r' (by simp [hr'])
        · exact hnext r' hr'
      have hstep := h.isAllowedFor fun e he => hlog e he r (by simp)
      simpa [InMemoryRateLimiter.serve] using ih hstep hlater hrest

/-- From an empty store, whatever the clients of a timeline do. -/
theorem windowLaw_serve (hlimit : 1 ≤ limit) (window : ℤ) {timeline : List LimitedRequest}
    (htimeline : timeline.Pairwise fun r r' => r.time ≤ r'.time) :
    WindowLaw limit window (InMemoryRateLimiter.serve limit window (fun _ => []) timeline) := by
  have hempty : KeepsAdmitted limit window [] fun _ => [] := by
    refine ⟨fun _ _ _ => rfl, fun _ => by simp; omega, fun _ _ _ => ?_, ?_⟩
    · simp [admittedTimes]
      omega
    · intro before r after h
      simp at h
  simpa using hempty.serve (by simp) htimeline

/-- Three clients' requests, two of them in one window. -/
theorem windowLaw_serve_threeRequests :
    WindowLaw 1 60 (InMemoryRateLimiter.serve 1 60 (fun _ => [])
      [⟨"a", 100⟩, ⟨"b", 110⟩, ⟨"a", 120⟩, ⟨"a", 160⟩]) :=
  windowLaw_serve (by decide) 60 (by decide +kernel)

end

end Zyntry
