import Mathlib.Data.List.Basic
import Zyntry.BillingModel

/-!
# Pending sync schedules

`run_pending` lists the schedules and synchronizes the sources of those that are due. The repository
lists a hundred schedules, in the order in which the database happens to return them.
-/

namespace Zyntry

/-- A row of `sync_schedules`; times are in microseconds. -/
structure SyncSchedule where
  id : Uuid
  sourceId : Uuid
  frequency : String := "manual"
  status : String := "active"
  lastRunAt : Option ℤ := none
  nextRunAt : Option ℤ := none

inductive ScheduledSync where
  | synced (jobId : String)
  | failed (error : String)
  /-- The sync fails with the transaction, so that the next statement raises. -/
  | aborted (error : String)

structure TriggeredSync where
  sourceId : Uuid
  jobId : Option String := none
  status : String
  error : Option String := none

/-- What a call finds. -/
structure SchedulerCall where
  now : ℤ
  /-- The schedules, in the order in which the database returns them. -/
  schedules : List SyncSchedule
  /-- Whether a source is active; none if there is no such source. -/
  sourceActive : Uuid → Option Bool
  /-- What `sync_source` does for a schedule. -/
  sync : SyncSchedule → ScheduledSync

/-- `SyncScheduleRepository.list`. -/
def listSchedules (schedules : List SyncSchedule) (limit : ℕ) (offset : ℕ) : List SyncSchedule :=
  (schedules.drop offset).take limit

def hour : ℤ := 3600000000

/-- `_calculate_next_run`. -/
def calculateNextRun (frequency : String) (fromTime : ℤ) : Option ℤ :=
  if frequency = "hourly" then some (fromTime + hour)
  else if frequency = "daily" then some (fromTime + 24 * hour)
  else if frequency = "weekly" then some (fromTime + 7 * 24 * hour)
  else if frequency = "manual" then none
  else if frequency = "priority" then some fromTime
  else if frequency = "incremental" then some (fromTime + hour)
  else none

namespace SchedulerCall

variable (call : SchedulerCall)

/-- The schedule is active and its next run is due, and so is its source. -/
def due (schedule : SyncSchedule) : Bool :=
  schedule.status = "active" && schedule.nextRunAt.any (· ≤ call.now) &&
    (call.sourceActive schedule.sourceId).getD false

/-- The loop over the schedules of the page: those that are triggered, and whether a statement
raises outside of the handler. -/
def triggerAll : List SyncSchedule → List (SyncSchedule × ScheduledSync) × Bool
  | [] => ([], false)
  | schedule :: schedules =>
      if call.due schedule then
        match call.sync schedule with
        | .aborted error => ([(schedule, .aborted error)], true)
        | result =>
            let (triggered, raised) := triggerAll schedules
            ((schedule, result) :: triggered, raised)
      else triggerAll schedules

def page : List SyncSchedule := listSchedules call.schedules 100 0

def triggered : List (SyncSchedule × ScheduledSync) := (call.triggerAll call.page).1

end SchedulerCall

def TriggeredSync.ofResult (schedule : SyncSchedule) : ScheduledSync → TriggeredSync
  | .synced jobId => { sourceId := schedule.sourceId, jobId := some jobId, status := "triggered" }
  | .failed error => { sourceId := schedule.sourceId, status := "error", error := some error }
  | .aborted error => { sourceId := schedule.sourceId, status := "error", error := some error }

/-- The row of a schedule that was synchronized. -/
def SyncSchedule.advance (now : ℤ) (schedule : SyncSchedule) : SyncSchedule :=
  { schedule with
    lastRunAt := some now
    nextRunAt := calculateNextRun schedule.frequency now }

/-- `run_pending`: the answer, unless it raises, and the rows that it updates. -/
def runPending (call : SchedulerCall) : Option (List TriggeredSync) × List SyncSchedule :=
  (if (call.triggerAll call.page).2 then none
    else some (call.triggered.map fun (schedule, result) => .ofResult schedule result),
   call.triggered.filterMap fun
    | (schedule, .synced _) => some (schedule.advance call.now)
    | _ => none)

/-! ## Which schedules are triggered -/

variable {call : SchedulerCall} {schedules : List SyncSchedule}

def ScheduledSync.aborts : ScheduledSync → Bool
  | .aborted _ => true
  | _ => false

/-- A run ends with the first sync that aborts. -/
def untilAborted (call : SchedulerCall) : List SyncSchedule → List SyncSchedule
  | [] => []
  | schedule :: schedules =>
      schedule :: if (call.sync schedule).aborts then [] else untilAborted call schedules

theorem triggerAll_map (schedules : List SyncSchedule) :
    (call.triggerAll schedules).1.map Prod.fst = untilAborted call (schedules.filter call.due) := by
  induction schedules with
  | nil => rfl
  | cons schedule schedules ih =>
      rw [SchedulerCall.triggerAll]
      by_cases hdue : call.due schedule = true
      · rw [if_pos hdue, List.filter_cons_of_pos hdue, untilAborted]
        cases hsync : call.sync schedule with
        | aborted error => rfl
        | synced jobId => exact congrArg (schedule :: ·) ih
        | failed error => exact congrArg (schedule :: ·) ih
      · rw [if_neg hdue, List.filter_cons_of_neg hdue]
        exact ih

theorem untilAborted_initial (call : SchedulerCall) (schedules : List SyncSchedule) :
    untilAborted call schedules <+: schedules := by
  induction schedules with
  | nil => exact List.prefix_rfl
  | cons schedule schedules ih =>
      rw [untilAborted, List.prefix_cons_inj]
      split_ifs
      · exact List.nil_prefix
      · exact ih

/-- Only the last sync may abort. -/
def LastAborts (call : SchedulerCall) (schedules : List SyncSchedule) : Prop :=
  ∀ schedule ∈ schedules.dropLast, (call.sync schedule).aborts = false

theorem untilAborted_length_iff (schedules : List SyncSchedule) :
    (untilAborted call schedules).length = schedules.length ↔ LastAborts call schedules := by
  induction schedules with
  | nil => exact iff_of_true rfl fun _ h => absurd h List.not_mem_nil
  | cons schedule schedules ih =>
      rw [untilAborted]
      cases schedules with
      | nil =>
          refine iff_of_true ?_ fun _ h => absurd h List.not_mem_nil
          split_ifs <;> rfl
      | cons next later =>
          rw [LastAborts, List.dropLast_cons_of_ne_nil (List.cons_ne_nil next later),
            List.forall_mem_cons]
          cases haborts : (call.sync schedule).aborts with
          | true => simp
          | false =>
              rw [if_neg (by simp), List.length_cons, List.length_cons, Nat.succ_inj, ih]
              exact (and_iff_right rfl).symm

theorem filter_due_split (call : SchedulerCall) : call.schedules.filter call.due =
    call.page.filter call.due ++ (call.schedules.drop 100).filter call.due := by
  rw [← List.filter_append, SchedulerCall.page, listSchedules, List.drop_zero,
    List.take_append_drop]

/-- A call triggers exactly the due schedules if and only if none of them is behind the first
hundred schedules, and only the last sync may abort. -/
theorem runPending_triggers_iff (call : SchedulerCall) :
    (call.triggered.map Prod.fst).Perm (call.schedules.filter call.due) ↔
      (∀ schedule ∈ call.schedules.drop 100, call.due schedule = false) ∧
        LastAborts call (call.schedules.filter call.due) := by
  have hnone : (∀ schedule ∈ call.schedules.drop 100, call.due schedule = false) ↔
      (call.schedules.drop 100).filter call.due = [] := by
    simp [List.filter_eq_nil_iff]
  have hinitial := untilAborted_initial call (call.page.filter call.due)
  have hsplit := filter_due_split call
  rw [SchedulerCall.triggered, triggerAll_map, hnone]
  constructor
  · intro hperm
    have hlength := hperm.length_eq
    have hle := hinitial.length_le
    rw [hsplit, List.length_append] at hlength
    have hdrop : (call.schedules.drop 100).filter call.due = [] :=
      List.length_eq_zero_iff.mp (by omega)
    refine ⟨hdrop, ?_⟩
    rw [hsplit, hdrop, List.append_nil, ← untilAborted_length_iff]
    omega
  · rintro ⟨hdrop, hlast⟩
    rw [hsplit, hdrop, List.append_nil] at hlast ⊢
    rw [hinitial.eq_of_length ((untilAborted_length_iff _).mpr hlast)]

/-- A hundred and one schedules, all of them due. -/
def crowdedCall : SchedulerCall where
  now := 0
  schedules := (List.range 101).map fun n =>
    { id := ⟨toString n⟩, sourceId := ⟨"source"⟩, frequency := "hourly", nextRunAt := some 0 }
  sourceActive := fun _ => some true
  sync := fun _ => .synced "job"

theorem crowdedCall_due : crowdedCall.schedules.filter crowdedCall.due = crowdedCall.schedules := by
  rw [List.filter_eq_self]
  intro schedule hschedule
  obtain ⟨n, -, rfl⟩ := List.mem_map.mp hschedule
  rfl

/-- One of them is not triggered. -/
theorem crowdedCall_not_triggers :
    ¬(crowdedCall.triggered.map Prod.fst).Perm
      (crowdedCall.schedules.filter crowdedCall.due) := by
  intro hperm
  have hlength := hperm.length_eq
  have hle := (untilAborted_initial crowdedCall
    (crowdedCall.page.filter crowdedCall.due)).length_le
  have hcount : crowdedCall.schedules.length = 101 := by
    rw [crowdedCall, List.length_map, List.length_range]
  have hpage := List.length_filter_le crowdedCall.due crowdedCall.page
  have htake : crowdedCall.page.length ≤ 100 := by
    rw [SchedulerCall.page, listSchedules]
    exact List.length_take_le _ _
  rw [SchedulerCall.triggered, triggerAll_map, crowdedCall_due] at hlength
  omega

end Zyntry
