import Zyntry.SerialSpecs
import Zyntry.Pricing
import Zyntry.SqlFaults

/-!
# What the endpoints ask of billing

A request runs in one session. Its database calls can be cut short at any of
their statements (`attempt`), and whatever it does besides them is a `stage`
that passes or raises. Requests are executed one after the other here, so the
objects a session holds agree with their rows and none is passed along.
-/

namespace Zyntry

open SqlProgram

/-! ## Stages, calls and handlers -/

/-- How a database call is cut short. -/
inductive Interruption where
  | databaseError
  | cancelled
deriving DecidableEq, Repr

def Interruption.error : Interruption → Error
  | .databaseError => .databaseError
  | .cancelled => .cancelled

/-- The statement at which a call is cut short. -/
abbrev Fault := Option (ℕ × Interruption)

def attempt {α : Type} (fault : Fault) (p : Sql α) : Sql α :=
  match fault with
  | none => p
  | some (n, i) => p.interrupt i.error n

def stage (raised : Option Error) : Sql Unit :=
  match raised with
  | none => pure ()
  | some e => .raise e

/-- The database calls of a request, from the wallet to the answer. -/
inductive BillingCall where
  | getWallet
  | estimate
  | checkBudget
  | reserve
  | release
  | pricing
  | settle
  | recordUsage
  | commitEvent
  | rollback
  | remainingBalance
deriving DecidableEq, Repr

/-- `except Exception` does not catch a cancellation. -/
def Error.isException (e : Error) : Bool := e ≠ .cancelled

/-- After these errors the session refuses every statement but a rollback. -/
def Error.endsTransaction : Error → Bool
  | .integrityError => true
  | .databaseError => true
  | .pendingRollback => true
  | _ => false

/-- The next statement of a session in which `e` has been raised. -/
def afterError {α : Type} (e : Error) (p : Sql α) : Sql α :=
  if e.endsTransaction then .raise .pendingRollback else p

/-- `except Exception: handler`. -/
def onException {α : Type} (handler : Error → Sql α) (e : Error) : Sql α :=
  if e.isException then handler e else .raise e

/-- Release the reservation after `cause` and raise. -/
def releaseAndRaise {α : Type} (fault : Fault) (ctx : CallContext) (r : Reservation)
    (cause raised : Error) : Sql α := do
  let _ ← afterError cause (attempt fault (release {} ctx r.id))
  .raise raised

/-! ## The monthly budget -/

/-- Remember in the budget row that a threshold was reached. -/
def noteBudget (loaded b : Budget) : Sql Budget := do
  updateBudget loaded
  write (.commit .budget) (fun d => d.flushBudget loaded b)
  pure b

/-- `BillingService.check_budget`. -/
def checkBudget (userId : Uuid) (estimatedCost : ℤ) : Sql Bool := do
  let budget ← query .select (fun d => d.budgets.get? userId)
  match budget with
  | none => pure true
  | some b =>
      match b.monthlyLimit with
      | none => pure true
      | some limit =>
          let projectedSpend := b.currentSpend + estimatedCost
          if limit ≤ projectedSpend then
            if b.limitReached then pure false
            else do
              let _ ← noteBudget b { b with limitReached := true }
              pure false
          else do
            let b' ←
              if limit * 9 ≤ projectedSpend * 10 ∧ b.warning90Sent = false then
                noteBudget b { b with warning90Sent := true }
              else pure b
            if limit * 8 ≤ projectedSpend * 10 ∧ b'.warning80Sent = false then do
              let _ ← noteBudget b' { b' with warning80Sent := true }
              pure true
            else pure true

/-! ## Usage -/

/-- The log row that makes `record_usage` return early. -/
def Db.loggedUsage (d : Db) (userId : Uuid) (requestId : Option String) : Option UsageLog :=
  match truthy requestId with
  | none => none
  | some q => d.usageLogs.find? (fun l => l.userId = userId ∧ l.requestId = some q)

/-- `BillingService.record_usage`; `published` is what publishing the new row comes to. -/
def recordUsage (published : Option Error) (log : UsageLog) : Sql UsageLog := do
  let existing ← query .select (fun d => d.loggedUsage log.userId log.requestId)
  match existing with
  | some l => pure l
  | none => do
      insertUnique [] (fun _ => false)
      write (.commit .usage) (fun d => { d with usageLogs := d.usageLogs ++ [log] })
      stage published
      pure log

/-! ## What these calls keep -/

theorem keeps_stage {I : Db → Prop} {raised : Option Error} {d : Db} {post : Unit → Db → Prop} :
    (stage raised).Keeps I d post ↔ (raised = none → post () d) := by
  cases raised <;> simp [stage]

theorem keeps_attempt {α : Type} {I : Db → Prop} {fault : Fault} {p : Sql α} {d : Db}
    {post : α → Db → Prop} (h : p.Keeps I d post) : (attempt fault p).Keeps I d post := by
  cases fault with
  | none => exact h
  | some f => exact keeps_interrupt _ _ h

theorem keeps_onException {α : Type} {I : Db → Prop} {handler : Error → Sql α} {e : Error}
    {d : Db} {post : α → Db → Prop} (h : (handler e).Keeps I d post) :
    (onException handler e).Keeps I d post := by
  unfold onException
  split_ifs
  · exact h
  · trivial

theorem keeps_releaseAndRaise {α : Type} {I : Db → Prop} {fault : Fault} {ctx : CallContext}
    {r : Reservation} {cause raised : Error} {d : Db} {post : α → Db → Prop}
    (hnew : ∀ row w, ReleaseAccepted d r.id row w → I (releaseWrite row w ctx d)) :
    (releaseAndRaise fault ctx r cause raised).Keeps I d post := by
  unfold releaseAndRaise
  rw [keeps_bind]
  unfold afterError
  split_ifs
  · trivial
  · have hrelease : (release {} ctx r.id).Keeps I d (fun _ _ => True) :=
      keeps_release (fun _ _ _ => trivial) fun row w h => ⟨hnew row w h, trivial⟩
    exact keeps_attempt (hrelease.mono fun _ _ _ => trivial)

theorem keeps_noteBudget {I : Db → Prop} {loaded b : Budget} {d : Db} {post : Budget → Db → Prop} :
    (noteBudget loaded b).Keeps I d post ↔
      I (d.flushBudget loaded b) ∧ post b (d.flushBudget loaded b) := by
  simp only [noteBudget, updateBudget, keeps_bind, keeps_locking, keeps_write, pure_eq, keeps_ret]

/-- `check_budget` updates budget rows only. -/
theorem keeps_checkBudget {I : Db → Prop} {userId : Uuid} {estimatedCost : ℤ} {d : Db} (hd : I d)
    (hi : ∀ d loaded b, I d → I (d.flushBudget loaded b)) :
    (checkBudget userId estimatedCost).Keeps I d (fun _ => I) := by
  have hnote : ∀ d loaded b, I d → (noteBudget loaded b).Keeps I d (fun _ => I) :=
    fun d loaded b hd => keeps_noteBudget.mpr ⟨hi d loaded b hd, hi d loaded b hd⟩
  simp only [checkBudget, keeps_bind, keeps_query]
  cases d.budgets.get? userId with
  | none => exact hd
  | some b =>
      dsimp only
      cases b.monthlyLimit with
      | none => exact hd
      | some limit =>
          have hlast : ∀ (b' : Budget) (d' : Db), I d' →
              (if limit * 8 ≤ (b.currentSpend + estimatedCost) * 10 ∧ b'.warning80Sent = false then do
                let _ ← noteBudget b' { b' with warning80Sent := true }
                pure true
              else pure true : Sql Bool).Keeps I d' (fun _ => I) := by
            intro b' d' hd'
            split_ifs
            · rw [keeps_bind]
              exact hnote d' _ _ hd'
            · exact hd'
          dsimp only
          split_ifs
          · exact hd
          · rw [keeps_bind]
            exact hnote d _ _ hd
          · rw [keeps_bind]
            exact (hnote d _ _ hd).mono fun b' d' hd' => hlast b' d' hd'
          · exact hlast b d hd

/-- `record_usage` adds at most its row to the usage log. -/
theorem keeps_recordUsage {I : Db → Prop} {published : Option Error} {log : UsageLog} {d : Db}
    (hi : I { d with usageLogs := d.usageLogs ++ [log] }) :
    (recordUsage published log).Keeps I d (fun _ d' =>
      d' = d ∨ d' = { d with usageLogs := d.usageLogs ++ [log] }) := by
  simp only [recordUsage, keeps_bind, keeps_query]
  cases d.loggedUsage log.userId log.requestId with
  | some l => exact .inl rfl
  | none =>
      simp only [keeps_bind, keeps_insertUnique, keeps_write, keeps_stage, pure_eq, keeps_ret]
      exact fun _ => ⟨hi, fun _ => .inr trivial⟩

end Zyntry
