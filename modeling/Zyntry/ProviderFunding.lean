import Zyntry.BillingModel
import Zyntry.ProviderHealth
import Zyntry.PythonJson
import Zyntry.SqlAssertions

/-!
# Costs of the providers

The account of a provider is charged for a request under the lock of its row, and a usage event
with the key of the request is added in the same transaction. Amounts are in millionths.
-/

namespace Zyntry

open Python SqlProgram RowTable
open SqlProgram.World (Reachable start)

/-- `money`. -/
def micros (value : ℚ) : ℤ := roundHalfEven (value * 1000000)

/-! ## Rows -/

inductive ProviderFundingStatus where
  | unknown
  | healthy
  | low
  | awaitingRecharge
  | fundingUnsupported
  | error
  | disabled
deriving DecidableEq, Repr

structure ProviderFundingAccount where
  id : Uuid
  provider : String
  currentBalance : Option ℤ
  estimatedBalance : ℤ
  minimumBalance : ℤ
  status : ProviderFundingStatus
deriving DecidableEq

inductive FundingEventType where
  | usageCost
  | fundingCheck
  | balanceReconciled
deriving DecidableEq, Repr

/-- `usage:{request_id}`. -/
def usageKey (id : String) : String := "usage:" ++ id

/-- The usage event of a request has the key of the request. -/
structure ProviderFundingEvent where
  accountId : Uuid
  provider : String
  eventType : FundingEventType
  status : String
  amount : ℤ
  balanceAfter : Option ℤ
  requestId : Option String
  idempotencyKey : String
  keyed : eventType = .usageCost → ∀ id ∈ requestId, id ≠ "" → idempotencyKey = usageKey id
deriving DecidableEq

structure FundingDb where
  accounts : RowTable String ProviderFundingAccount (·.provider)
  events : RowTable String ProviderFundingEvent (·.idempotencyKey)

/-- The row of an account, and the values of the unique columns of an event. -/
inductive FundingRow where
  | account (provider : String)
  | key (key : String)
  | request (provider : String) (requestId : String) (eventType : FundingEventType)
deriving DecidableEq

inductive FundingStatement where
  | accountLocked
  | eventLooked
  | eventInserted
  | recorded (event : ProviderFundingEvent)
  | rolledBack

inductive FundingError where
  | invalidOperation
  | dataError
  | integrityError
deriving DecidableEq, Repr

abbrev FundingProgram := SqlProgram FundingDb FundingRow FundingStatement FundingError

namespace ProviderFundingAccount

variable (account : ProviderFundingAccount)

def effectiveBalance : ℤ := account.currentBalance.getD account.estimatedBalance

def balanceStatus : ProviderFundingStatus :=
  if account.effectiveBalance ≤ account.minimumBalance then .low else .healthy

/-- The account after a cost. -/
def charged (cost : ℤ) : ProviderFundingAccount :=
  let account := { account with
    estimatedBalance := max 0 (account.estimatedBalance - cost)
    currentBalance := account.currentBalance.map fun balance => max 0 (balance - cost) }
  { account with status := account.balanceStatus }

/-- The stored row after the flush of an object. -/
def flush (loaded new stored : ProviderFundingAccount) : ProviderFundingAccount :=
  { stored with
    currentBalance := sentColumn loaded.currentBalance new.currentBalance stored.currentBalance
    estimatedBalance :=
      sentColumn loaded.estimatedBalance new.estimatedBalance stored.estimatedBalance
    status := sentColumn loaded.status new.status stored.status }

theorem flush_provider (loaded new stored : ProviderFundingAccount) :
    (loaded.flush new stored).provider = stored.provider := rfl

end ProviderFundingAccount

namespace ProviderFundingEvent

variable (event : ProviderFundingEvent)

/-- The columns hold the values. -/
def Fits : Prop :=
  event.amount < 10 ^ 18 ∧ ∀ id ∈ event.requestId, id.length ≤ 128

instance : Decidable event.Fits := by
  unfold Fits
  infer_instance

def uniqueValues : List FundingRow :=
  .key event.idempotencyKey ::
    event.requestId.toList.map fun id => .request event.provider id event.eventType

/-- `uq_provider_funding_request_event`, where a request id is given. -/
def SameRequest (event' : ProviderFundingEvent) : Prop :=
  event.requestId.isSome ∧ event.requestId = event'.requestId ∧
    event.provider = event'.provider ∧ event.eventType = event'.eventType

instance (event' : ProviderFundingEvent) : Decidable (event.SameRequest event') := by
  unfold SameRequest
  infer_instance

end ProviderFundingEvent

namespace FundingDb

variable (d : FundingDb)

/-- No unique column has a value of the event. -/
def accepts (event : ProviderFundingEvent) : Bool :=
  (d.events.get? event.idempotencyKey).isNone && !d.events.rows.any (event.SameRequest ·)

/-- The commit of a charged account with its event. -/
def record (loaded new : ProviderFundingAccount) (event : ProviderFundingEvent) : FundingDb where
  accounts := d.accounts.update loaded.provider (loaded.flush new) (loaded.flush_provider new)
  events := d.events.insert event

end FundingDb

/-! ## Recording a cost -/

/-- A call of `record_provider_cost`; `freshId` is the text of the `uuid4` that it may draw. -/
structure ProviderCost where
  provider : String
  amount : ℚ
  requestId : Option String
  freshId : String

namespace ProviderCost

variable (call : ProviderCost)

def cost : ℤ := micros call.amount

def key : String := usageKey (orElse (call.requestId.getD "") call.freshId)

/-- The event of a call for an account that has been charged. -/
def event (account : ProviderFundingAccount) : ProviderFundingEvent where
  accountId := account.id
  provider := providerKey call.provider
  eventType := .usageCost
  status := "recorded"
  amount := call.cost
  balanceAfter := some account.estimatedBalance
  requestId := call.requestId
  idempotencyKey := call.key
  keyed := by
    intro _ id hid hne
    rw [key, Option.mem_def.mp hid, Option.getD_some, orElse, if_neg hne]

/-- The flush of an event, which waits for its unique values. -/
def insertEvent (event : ProviderFundingEvent) : FundingProgram Unit := do
  ensure event.Fits .dataError
  let accepted ← locking .eventInserted (fun _ => event.uniqueValues) fun d => d.accepts event
  ensure (accepted = true) .integrityError

/-- The rest of a call whose key has no event. -/
def recordNew (account : ProviderFundingAccount) :
    FundingProgram (Option ProviderFundingAccount) := do
  let charged := account.charged call.cost
  let event := call.event charged
  insertEvent event
  write (.recorded event) fun d => d.record account charged event
  return some charged

/-- `record_provider_cost`. A quantized value has at most 28 digits. -/
def recordProviderCost : FundingProgram (Option ProviderFundingAccount) := do
  ensure (|call.cost| < 10 ^ 28) .invalidOperation
  if call.cost ≤ 0 then return none
  else
    let account ← locking .accountLocked
      (fun d => (d.accounts.get? (providerKey call.provider)).toList.map fun a =>
        .account a.provider)
      fun d => d.accounts.get? (providerKey call.provider)
    match account with
    | none => return none
    | some account =>
        let existing ← query .eventLooked fun d => d.events.get? call.key
        if existing.isSome then return some account
        else call.recordNew account

/-- The handler in `record_usage`. -/
def rollBack (e : FundingError) :
    FundingProgram (Except FundingError (Option ProviderFundingAccount)) := do
  write .rolledBack id
  return .error e

/-- The session of a call. -/
def session : FundingProgram (Except FundingError (Option ProviderFundingAccount)) :=
  (call.recordProviderCost >>= fun account => ret (.ok account)).catching rollBack

end ProviderCost

/-! ## The law of the costs -/

/-- What is left of a balance after events, which is the balance itself when there are none. -/
def drawn (balance : ℤ) (events : List ProviderFundingEvent) : ℤ :=
  if events = [] then balance else max 0 (balance - (events.map (·.amount)).sum)

/-- The database stores the event of the call. An empty request id is stored with a fresh key. -/
def ProviderCost.Storable (call : ProviderCost) : Prop :=
  call.cost < 10 ^ 18 ∧ ∀ id ∈ call.requestId, id ≠ "" ∧ id.length ≤ 128

/-- The events that calls have added, in the order of their commits. -/
structure RecordedCosts {S : Type} (d₀ : FundingDb) (account : ProviderFundingAccount)
    (calls : S → ProviderCost) (d : FundingDb) (recorded : List ProviderFundingEvent) : Prop where
  events : d.events.rows = d₀.events.rows ++ recorded
  charged : ∀ e ∈ recorded, ∃ s, 0 < (calls s).cost ∧ e.idempotencyKey = (calls s).key ∧
    e.requestId = (calls s).requestId ∧ e.amount = (calls s).cost ∧ e.accountId = account.id ∧
    e.eventType = .usageCost
  balances : ∃ row, d.accounts.get? account.provider = some row ∧ row.id = account.id ∧
    row.estimatedBalance = drawn account.estimatedBalance recorded ∧
    row.currentBalance = account.currentBalance.map (drawn · recorded)
  balanceAfter : ∀ before e after, recorded = before ++ e :: after →
    e.balanceAfter = some (drawn account.estimatedBalance (before ++ [e]))

theorem drawn_append {balance : ℤ} {events : List ProviderFundingEvent} {e : ProviderFundingEvent}
    (he : 0 < e.amount) :
    drawn balance (events ++ [e]) = max 0 (drawn balance events - e.amount) := by
  rw [drawn, if_neg (List.append_ne_nil_of_right_ne_nil _ (List.cons_ne_nil _ _)),
    List.map_append, List.sum_append, List.map_singleton, List.sum_singleton]
  unfold drawn
  split_ifs with h
  · subst h
    simp
  · omega

section Recording

variable {S : Type} {d₀ d : FundingDb} {account : ProviderFundingAccount}
  {calls : S → ProviderCost} {recorded : List ProviderFundingEvent}

theorem recordedCosts_start (calls : S → ProviderCost)
    (h : d₀.accounts.get? account.provider = some account) :
    RecordedCosts d₀ account calls d₀ [] where
  events := (List.append_nil _).symm
  charged := List.forall_mem_nil _
  balances := by
    refine ⟨account, h, rfl, rfl, ?_⟩
    cases account.currentBalance <;> rfl
  balanceAfter before e after h := absurd h (List.append_ne_nil_of_right_ne_nil _
    (List.cons_ne_nil _ _)).symm

/-- An object that shows the stored row is flushed as it is. -/
theorem ProviderFundingAccount.flush_loaded (loaded new : ProviderFundingAccount) :
    loaded.flush new loaded = { loaded with
      currentBalance := new.currentBalance
      estimatedBalance := new.estimatedBalance
      status := new.status } := by
  unfold flush
  rw [sentColumn_loaded, sentColumn_loaded, sentColumn_loaded]

/-- A call that has found no event charges the account and adds its own. -/
theorem RecordedCosts.record (h : RecordedCosts d₀ account calls d recorded) {s : S}
    {row : ProviderFundingAccount} (hrow : d.accounts.get? account.provider = some row)
    (hcost : 0 < (calls s).cost) (hnew : d.events.get? (calls s).key = none) :
    RecordedCosts d₀ account calls
      (d.record row (row.charged (calls s).cost)
        ((calls s).event (row.charged (calls s).cost)))
      (recorded ++ [(calls s).event (row.charged (calls s).cost)]) := by
  obtain ⟨row', hrow', hid, hestimated, hcurrent⟩ := h.balances
  obtain rfl := Option.some.inj (hrow.symm.trans hrow')
  have hprovider : row.provider = account.provider := get?_some_key hrow
  have hcharged : drawn account.estimatedBalance
      (recorded ++ [(calls s).event (row.charged (calls s).cost)]) =
      (row.charged (calls s).cost).estimatedBalance := by
    rw [drawn_append hcost, ← hestimated]
    rfl
  refine ⟨?_, ?_, ?_, ?_⟩
  · rw [FundingDb.record, rows_insert hnew, h.events, List.append_assoc]
  · refine List.forall_mem_append.mpr ⟨h.charged, List.forall_mem_singleton.mpr ?_⟩
    exact ⟨s, hcost, rfl, rfl, rfl, hid, rfl⟩
  · refine ⟨row.flush (row.charged (calls s).cost) row, ?_, hid, ?_, ?_⟩
    · rw [FundingDb.record, hprovider, get?_update_self, hrow, Option.map_some]
    · rw [ProviderFundingAccount.flush_loaded, hcharged]
    · rw [ProviderFundingAccount.flush_loaded]
      change row.currentBalance.map (fun balance => max 0 (balance - (calls s).cost)) = _
      rw [hcurrent, Option.map_map]
      refine Option.map_congr fun balance _ => ?_
      exact (drawn_append (e := (calls s).event (row.charged (calls s).cost)) hcost).symm
  · intro before e after heq
    obtain rfl | ⟨after', last, rfl⟩ := after.eq_nil_or_concat
    · obtain ⟨rfl, he⟩ := List.append_inj' heq rfl
      obtain rfl := List.singleton_inj.mp he
      rw [hcharged]
      rfl
    · rw [List.concat_eq_append, ← List.cons_append, ← List.append_assoc] at heq
      exact h.balanceAfter before e after' (List.append_inj' heq rfl).1

/-- What the sessions that charge an account agree on. -/
def fundingDiscipline (d₀ : FundingDb) (account : ProviderFundingAccount)
    (calls : S → ProviderCost) : Discipline FundingDb FundingRow FundingStatement where
  inv d _ := ∃ recorded, RecordedCosts d₀ account calls d recorded
  guarantee H _ d d' := (.account account.provider ∉ H → d' = d) ∧
    ∀ key, (d.events.get? key).isSome → (d'.events.get? key).isSome
  own _ _ := True
  compatible _ _ := True

/-- Under the lock of the account everything stays as it is. -/
theorem firm_locked {H : Set FundingRow} (h : .account account.provider ∈ H) (d : FundingDb) :
    (fundingDiscipline d₀ account calls).Firm H (· = d) := by
  intro m d' d'' log H' l _ hdisjoint _ hguarantee hd'
  rw [hguarantee.1 fun hH' => hdisjoint _ hH' h]
  exact hd'

/-- What a session has established about its call when it returns. -/
def Answered (call : ProviderCost) :
    Except FundingError (Option ProviderFundingAccount) → FundingDb → Prop
  | .ok _, d => 0 < call.cost → (d.events.get? call.key).isSome
  | .error _, _ => 0 < call.cost → ¬ call.Storable

theorem lasting_answered (call : ProviderCost)
    (outcome : Except FundingError (Option ProviderFundingAccount)) :
    (fundingDiscipline d₀ account calls).Lasting (Answered call outcome) := by
  intro d d' log H l _ hguarantee h
  cases outcome with
  | ok result => exact fun hcost => hguarantee.2 _ (h hcost)
  | error e => exact h

theorem sat_rollBack {call : ProviderCost} (h : 0 < call.cost → ¬ call.Storable)
    (e : FundingError) {H : Set FundingRow} {Q : FundingDb → Prop}
    (hQ : (fundingDiscipline d₀ account calls).Firm H Q) :
    (fundingDiscipline d₀ account calls).Sat (ProviderCost.rollBack e) H Q
      (Discipline.Ensures (Answered call)) := by
  unfold ProviderCost.rollBack
  refine Discipline.sat_write _ (hQ _) fun d _ hinv _ _ => ?_
  exact ⟨⟨fun _ => rfl, fun _ hkey => hkey⟩, hinv, fun _ => True, trivial, fun _ _ => h⟩

/-- The unique columns refuse no event of a request whose key is free. -/
theorem accepts_event {call : ProviderCost} {row : ProviderFundingAccount}
    (hstorable : call.Storable) (hnew : d.events.get? call.key = none) :
    d.accepts (call.event row) = true := by
  have hkey : (d.events.get? (call.event row).idempotencyKey).isNone = true :=
    Option.isNone_iff_eq_none.mpr hnew
  rw [FundingDb.accepts, hkey, Bool.true_and, Bool.not_eq_true', List.any_eq_false]
  intro e he
  rw [decide_eq_true_eq]
  rintro ⟨hsome, hid, -, htype⟩
  obtain ⟨id, hcall⟩ := Option.isSome_iff_exists.mp hsome
  have hne : id ≠ "" := (hstorable.2 id hcall).1
  have hused : e.idempotencyKey = call.key := by
    rw [e.keyed htype.symm id (hid ▸ hcall) hne]
    exact ((call.event row).keyed rfl id hcall hne).symm
  exact get?_none_ne hnew e he hused

theorem sat_recordNew {s : S} {row : ProviderFundingAccount} {H : Set FundingRow}
    (hlock : .account account.provider ∈ H) (hrecorded : RecordedCosts d₀ account calls d recorded)
    (hrow : d.accounts.get? account.provider = some row) (hcost : 0 < (calls s).cost)
    (hnew : d.events.get? (calls s).key = none) :
    (fundingDiscipline d₀ account calls).Sat
      (((calls s).recordNew row >>= fun account => ret (.ok account)).catching
        ProviderCost.rollBack) H (· = d) (Discipline.Ensures (Answered (calls s))) := by
  have hfirm : (fundingDiscipline d₀ account calls).Firm H (· = d) := firm_locked hlock d
  unfold ProviderCost.recordNew ProviderCost.insertEvent ensure
  by_cases hfits : ((calls s).event (row.charged (calls s).cost)).Fits
  · simp only [if_pos hfits, ret_bind, bind_assoc, catching_locking]
    refine Discipline.sat_locking _ (hfirm _) fun d' _ _ _ hd' => ?_
    subst hd'
    refine ⟨(· = d'), rfl, ?_⟩
    have hfirm := hfirm.mono_held (Set.subset_union_left
      (t := {r | r ∈ ((calls s).event (row.charged (calls s).cost)).uniqueValues}))
    by_cases haccepts : d'.accepts ((calls s).event (row.charged (calls s).cost)) = true
    · simp only [if_pos haccepts, ret_bind, catching_write]
      refine Discipline.sat_write _ (hfirm _) fun d _ _ _ hd => ?_
      subst hd
      refine ⟨⟨fun hunlocked => absurd (Set.mem_union_left _ hlock) hunlocked, fun key hkey => ?_⟩,
        ⟨_, hrecorded.record hrow hcost hnew⟩,
        fun d => (d.events.get? (calls s).key).isSome, ?_, fun _ hkey _ => hkey⟩
      · obtain ⟨e, he⟩ := Option.isSome_iff_exists.mp hkey
        exact Option.isSome_iff_exists.mpr ⟨e, get?_insert_of_some he⟩
      · exact Option.isSome_iff_exists.mpr ⟨_, get?_insert_self hnew⟩
    · simp only [if_neg haccepts, raise_bind, catching_raise]
      exact sat_rollBack (fun _ hstorable => haccepts (accepts_event hstorable hnew)) _ hfirm
  · simp only [if_neg hfits, raise_bind, catching_raise]
    refine sat_rollBack (fun _ hstorable => hfits ⟨hstorable.1, ?_⟩) _ hfirm
    exact fun id hid => (hstorable.2 id hid).2

theorem sat_session (s : S) (hcalls : providerKey (calls s).provider = account.provider) :
    (fundingDiscipline d₀ account calls).Sat (calls s).session ∅ (fun _ => True)
      (Discipline.Ensures (Answered (calls s))) := by
  have htrue := (fundingDiscipline d₀ account calls).firm_true ∅
  unfold ProviderCost.session ProviderCost.recordProviderCost ensure
  by_cases hlarge : |(calls s).cost| < 10 ^ 28
  · simp only [if_pos hlarge, ret_bind]
    by_cases hcost : (calls s).cost ≤ 0
    · simp only [if_pos hcost]
      exact fun _ _ hpos => absurd hpos (by omega)
    · simp only [if_neg hcost, bind_assoc, catching_locking]
      refine Discipline.sat_locking _ (htrue _) fun d _ hinv _ _ => ?_
      obtain ⟨recorded, hrecorded⟩ := hinv
      obtain ⟨row, hrow, -⟩ := hrecorded.balances
      have hlock : FundingRow.account account.provider ∈ ∅ ∪
          {r | r ∈ (d.accounts.get? (providerKey (calls s).provider)).toList.map
            fun a => FundingRow.account a.provider} := by
        rw [hcalls, hrow]
        exact Or.inr (List.mem_singleton.mpr (congrArg _ (get?_some_key hrow).symm))
      refine ⟨(· = d), rfl, ?_⟩
      generalize ∅ ∪ {r | r ∈ (d.accounts.get? (providerKey (calls s).provider)).toList.map
            fun a => FundingRow.account a.provider} = H at hlock ⊢
      rw [hcalls, hrow]
      simp only [bind_assoc, catching_query]
      refine Discipline.sat_query _ (firm_locked hlock d _) fun d' _ _ _ hd' => ?_
      subst hd'
      refine ⟨(· = d'), rfl, ?_⟩
      by_cases hexisting : (d'.events.get? (calls s).key).isSome
      · simp only [if_pos hexisting]
        exact fun d hd _ => hd ▸ hexisting
      · simp only [if_neg hexisting]
        exact sat_recordNew hlock hrecorded hrow (by omega)
          (Option.not_isSome_iff_eq_none.mp hexisting)
  · simp only [if_neg hlarge, raise_bind, catching_raise]
    refine sat_rollBack (fun hpos hstorable => hlarge ?_) _ htrue
    rw [abs_of_pos hpos]
    exact hstorable.1.trans (by norm_num)

end Recording

/-! ## Interleavings -/

section Runs

variable {S : Type}

abbrev FundingWorld (S : Type) :=
  World S FundingDb FundingRow FundingStatement FundingError
    (Except FundingError (Option ProviderFundingAccount))

/-- Every call that has returned has an event with its key. -/
def EveryCallRecorded (calls : S → ProviderCost) (w : FundingWorld S) : Prop :=
  ∀ s outcome, w.session s = .ret outcome →
    ∃ e ∈ w.db.events.rows, e.idempotencyKey = (calls s).key

/-- What the calls for an account come to: an event for each key that had none, and nothing
else. -/
structure RecordsOnce (d₀ : FundingDb) (account : ProviderFundingAccount)
    (calls : S → ProviderCost) (w : FundingWorld S) (recorded : List ProviderFundingEvent) : Prop
    extends RecordedCosts d₀ account calls w.db recorded where
  nodup : (recorded.map (·.idempotencyKey)).Nodup
  fresh : ∀ e ∈ recorded, d₀.events.get? e.idempotencyKey = none
  answered : ∀ s outcome, w.session s = .ret outcome → 0 < (calls s).cost → (calls s).Storable →
    ∃ e ∈ w.db.events.rows, e.idempotencyKey = (calls s).key

/-- However the calls for an account are interleaved and wherever they crash, each key is charged
once. -/
theorem recordsOnce_run [DecidableEq S] (d₀ : FundingDb) (account : ProviderFundingAccount)
    (haccount : d₀.accounts.get? account.provider = some account) (calls : S → ProviderCost)
    (hcalls : ∀ s, providerKey (calls s).provider = account.provider) {w : FundingWorld S}
    (hrun : Reachable (start d₀ fun s => (calls s).session) w) :
    ∃ recorded, RecordsOnce d₀ account calls w recorded := by
  have hstart := Discipline.fulfilled_start (S := S) (fundingDiscipline d₀ account calls)
    ⟨[], recordedCosts_start calls haccount⟩ fun s => sat_session s (hcalls s)
  have hfulfilled : (fundingDiscipline d₀ account calls).Fulfilled
      (fun s => Answered (calls s)) w :=
    Discipline.Fulfilled.run hrun
      (fun _ _ _ => ⟨fun _ _ => trivial, fun _ _ _ _ _ _ _ _ => trivial⟩)
      (fun s outcome => lasting_answered (calls s) outcome) hstart
  obtain ⟨recorded, hrecorded⟩ := hfulfilled.1
  have hkeys := w.db.events.nodup
  rw [hrecorded.events, List.map_append, List.nodup_append] at hkeys
  obtain ⟨-, hnodup, hdisjoint⟩ := hkeys
  refine ⟨recorded, hrecorded, hnodup, ?_, ?_⟩
  · intro e he
    refine Option.eq_none_iff_forall_ne_some.mpr fun e' he' => ?_
    exact hdisjoint _ (List.mem_map_of_mem (get?_some_mem he')) _ (List.mem_map_of_mem he)
      (get?_some_key he')
  · intro s outcome hs hcost hstorable
    have hanswered := hfulfilled.returned hs
    cases outcome with
    | error e => exact absurd hstorable (hanswered hcost)
    | ok result =>
        obtain ⟨e, he⟩ := Option.isSome_iff_exists.mp (hanswered hcost)
        exact ⟨e, get?_some_mem he, get?_some_key he⟩

end Runs

/-- An account with a balance of 100. -/
def openaiFunding : ProviderFundingAccount :=
  ⟨⟨"a"⟩, "openai", some 100000000, 100000000, 50000000, .unknown⟩

def openaiFundingDb : FundingDb := ⟨.single openaiFunding, default⟩

def openaiCost (amount : ℚ) : ProviderCost := ⟨"openai", amount, some "req-1", "u"⟩

/-- Two sessions that record the cost of one request. -/
def sameRequestTwice : FundingWorld Bool :=
  start openaiFundingDb fun _ => (openaiCost 60).session

theorem recordsOnce_run_sameRequestTwice :
    (∃ recorded, RecordsOnce openaiFundingDb openaiFunding (fun _ => openaiCost 60)
      (sameRequestTwice.play [true, false, true, true, true, false, false]) recorded) ∧
    (sameRequestTwice.play [true, false, true, true, true, false, false]).db.accounts.rows.map
      (·.estimatedBalance) = [40000000] :=
  ⟨recordsOnce_run openaiFundingDb openaiFunding (by decide +kernel) (fun _ => openaiCost 60)
    (by decide +kernel) (sameRequestTwice.play_reachable _), by decide +kernel⟩

/-- A request without a cost leaves no event. -/
theorem everyCallRecorded_fails_without_cost :
    ¬ ∀ w, Reachable (start openaiFundingDb fun _ : Unit => (openaiCost 0).session) w →
      EveryCallRecorded (fun _ : Unit => openaiCost 0) w := by
  intro h
  have hcost : (openaiCost 0).cost = 0 := by decide +kernel
  have hreturned : (openaiCost 0).session = ret (.ok none) := by
    simp [ProviderCost.session, ProviderCost.recordProviderCost, ensure, hcost]
  obtain ⟨e, he, -⟩ := h _ .start () (.ok none) hreturned
  cases he

end Zyntry
