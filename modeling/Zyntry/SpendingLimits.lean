import Zyntry.BillingModel

/-!
# Spending limits

`check` locks the active limits of every scope of a request and compares each of
them with what its scope has spent and reserved since the start of the period.
The two sums are read by two statements.
-/

namespace Zyntry

open SqlProgram

/-- The scopes of a request: always its user, and what else it names. -/
def scopes (userId : Uuid) (ids : ScopeIds) : List (ScopeType × Uuid) :=
  (.user, userId) :: [ScopeType.organization, .project, .runtime, .apiKey].filterMap
    (fun scope => (scopeId (some userId) ids scope).map (fun id => (scope, id)))

structure CheckRequest where
  amount : ℤ
  userId : Uuid
  scope : ScopeIds
  now : ℕ
  excludeReservationId : Option Uuid := none

/-- The body of the loop over the limits of one scope. -/
def checkLimit (req : CheckRequest) (scope : ScopeType) (id : Uuid) (limit : SpendingLimit) :
    Sql Unit := do
  let start := periodStart limit.period req.now
  let spent ← query .sumSettled (fun d => d.settledSpend scope id start)
  let reserved ← query (.sumReserved limit.id)
    (fun d => d.reservedEstimates scope id start req.excludeReservationId)
  let projected := spent + reserved + req.amount
  if limit.amount < projected then
    .raise (.spendingLimit scope limit.period limit.amount projected)
  else
    pure ()

def checkScope (req : CheckRequest) (scope : ScopeType) (id : Uuid) : Sql Unit := do
  let limits ← locking .lockLimits
    (fun d => (d.activeLimits scope id).map (fun l => .spendingLimit l.id))
    (fun d => d.activeLimits scope id)
  forEach limits (checkLimit req scope id)

/-- `SpendingLimitService.check`. -/
def check (req : CheckRequest) : Sql Unit :=
  forEach (scopes req.userId req.scope) (fun s => checkScope req s.1 s.2)

/-! ## What an accepted check knows -/

/-- The comparison that `checkLimit` makes, evaluated at one state. -/
def Db.fitsUnder (d : Db) (req : CheckRequest) (limit : SpendingLimit) : Prop :=
  d.settledSpend limit.scopeType limit.scopeId (periodStart limit.period req.now) +
    d.reservedEstimates limit.scopeType limit.scopeId (periodStart limit.period req.now)
      req.excludeReservationId + req.amount ≤ limit.amount

theorem mem_scopes (userId : Uuid) (ids : ScopeIds) (scope : ScopeType) (id : Uuid) :
    (scope, id) ∈ scopes userId ids ↔ scopeId (some userId) ids scope = some id := by
  unfold scopes
  cases scope <;> simp [scopeId, eq_comm]

theorem mem_activeLimits {d : Db} {scope : ScopeType} {id : Uuid} {l : SpendingLimit} :
    l ∈ d.activeLimits scope id ↔
      l ∈ d.spendingLimits.rows ∧ l.scopeType = scope ∧ l.scopeId = id ∧ l.active = true := by
  simp [Db.activeLimits]

theorem keeps_checkLimit {I : Db → Prop} {req : CheckRequest} {l : SpendingLimit} {d : Db} :
    (checkLimit req l.scopeType l.scopeId l).Keeps I d
      (fun _ d' => d' = d ∧ d.fitsUnder req l) := by
  simp only [checkLimit, keeps_bind, keeps_query]
  split
  · trivial
  · next h => exact ⟨rfl, not_lt.mp h⟩

theorem keeps_checkScope {I : Db → Prop} {req : CheckRequest} {scope : ScopeType} {id : Uuid}
    {d : Db} :
    (checkScope req scope id).Keeps I d
      (fun _ d' => d' = d ∧ ∀ l ∈ d.activeLimits scope id, d.fitsUnder req l) := by
  simp only [checkScope, keeps_bind, keeps_locking]
  have hsub : ∀ l ∈ d.activeLimits scope id, l.scopeType = scope ∧ l.scopeId = id :=
    fun l hl => ⟨(mem_activeLimits.mp hl).2.1, (mem_activeLimits.mp hl).2.2.1⟩
  generalize d.activeLimits scope id = limits at hsub ⊢
  induction limits with
  | nil => exact ⟨rfl, by simp⟩
  | cons l limits ih =>
      obtain ⟨rfl, rfl⟩ := hsub l List.mem_cons_self
      refine (keeps_bind I _ (fun _ => forEach limits _) d _).mpr ?_
      refine keeps_checkLimit.mono ?_
      rintro _ _ ⟨rfl, hl⟩
      refine (ih fun l' hl' => hsub l' (List.mem_cons_of_mem l hl')).mono ?_
      rintro _ d' ⟨rfl, hrest⟩
      exact ⟨rfl, List.forall_mem_cons.mpr ⟨hl, hrest⟩⟩

/-- Run alone, `check` returns only if the amount fits under every active limit
of every scope of the request, and it changes nothing. -/
theorem keeps_check {I : Db → Prop} {req : CheckRequest} {d : Db} :
    (check req).Keeps I d (fun _ d' => d' = d ∧
      ∀ l ∈ d.spendingLimits.rows, l.active = true →
        scopeId (some req.userId) req.scope l.scopeType = some l.scopeId → d.fitsUnder req l) := by
  suffices h : ∀ ss : List (ScopeType × Uuid),
      (forEach ss (fun s => checkScope req s.1 s.2)).Keeps I d (fun _ d' => d' = d ∧
        ∀ s ∈ ss, ∀ l ∈ d.activeLimits s.1 s.2, d.fitsUnder req l) by
    refine (h _).mono ?_
    rintro _ _ ⟨rfl, hall⟩
    refine ⟨rfl, fun l hl hactive hscope => ?_⟩
    exact hall _ ((mem_scopes _ _ _ _).mpr hscope) l (mem_activeLimits.mpr ⟨hl, rfl, rfl, hactive⟩)
  intro ss
  induction ss with
  | nil => exact ⟨rfl, by simp⟩
  | cons s ss ih =>
      refine (keeps_bind I _ (fun _ => forEach ss _) d _).mpr ?_
      refine keeps_checkScope.mono ?_
      rintro _ _ ⟨rfl, hs⟩
      refine ih.mono ?_
      rintro _ d' ⟨rfl, hrest⟩
      exact ⟨rfl, List.forall_mem_cons.mpr ⟨hs, hrest⟩⟩

end Zyntry
