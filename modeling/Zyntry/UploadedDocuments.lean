import Zyntry.BuildLock
import Zyntry.CancelledBuilds
import Mathlib.Data.Finset.Insert
import Mathlib.Data.Fintype.Defs

/-!
# Documents that are uploaded around a build

An upload commits its document, looks at the status of the project's runtime, and has the
runtime built when the status is one of a few. A build reads the documents once, at the stage
that chunks them. The two meet in the status column and in the lock of the build tasks.
-/

namespace Zyntry

open SqlProgram
open RowTable (sentColumn)

/-- The status that a stage of the worker writes. -/
def BuildStage.writes : BuildStage → Option String
  | .collectSources => some "validating"
  | .validateSources => some "discovering"
  | .discoverResources => some "extracting"
  | .extractDocuments => some "cleaning"
  | .normalizeDocuments => some "chunking"
  | .generateEmbeddings => some "indexing"
  | .storeEmbeddings => some "building"
  | .buildRuntime => some "provisioning"
  | .cleanDocuments | .chunkDocuments | .generateApiKey | .activateRuntime => none

theorem stageMethod_writes (o : BuildOutcomes) (stage : BuildStage) (held : HeldRuntime) :
    (RuntimeWorker.stageMethod o stage held).WritesTo (fun _ _ _ => True) fun held' =>
      held'.current.status = stage.writes.getD held.current.status := by
  unfold RuntimeWorker.stageMethod
  rw [writesTo_bind, writesTo_raiseAny]
  intro _
  cases stage <;>
    simp [writesTo_bind, BuildStage.writes, updateRuntimeStatus, updateRuntimeCounts,
      HeldRuntime.ofRow]

/-- A worker inside `run`: the status of its copy of the runtime, the stages ahead of it, and
the documents that it has read. -/
structure BuildRun (D : Type) where
  held : String
  stages : List BuildStage
  read : Option (Finset D)

inductive WorkerPhase (D : Type) where
  | fresh
  | running (run : BuildRun D)
  /-- A stage has raised. -/
  | failing
  | ended

/-- The worker has read the documents without this one. -/
def WorkerPhase.Misses {D : Type} (d : D) : WorkerPhase D → Prop
  | .running run => ∃ read ∈ run.read, d ∉ read
  | _ => False

instance instDecidableMisses {D : Type} [DecidableEq D] {d : D} :
    (phase : WorkerPhase D) → Decidable (phase.Misses d)
  | .running run => inferInstanceAs (Decidable (∃ read ∈ run.read, d ∉ read))
  | .fresh | .failing | .ended => .isFalse id

/-- Who calls `enqueue_build`: the upload of a document, or any other request. -/
inductive BuildCaller (D R : Type) where
  | upload (document : D)
  | request (request : R)
deriving DecidableEq

inductive CallerPhase where
  | idle
  | committed
  /-- In `enqueue_build`, with the status that it has read. -/
  | asked (held : String)
  /-- The status is committed, the task is not sent. -/
  | sending
  | over
deriving DecidableEq

/-- What `enqueue_build` finds missing. -/
inductive BuildRequirement where
  | providerCredentials
  | connections
  | documents
deriving DecidableEq, Repr

def BuildRequirement.status : BuildRequirement → String
  | .providerCredentials => "awaiting_provider_credentials"
  | .connections => "awaiting_connections"
  | .documents => "awaiting_documents"

/-- `rebuildable_statuses` with `include_active`. -/
def rebuildableStatuses : List String := ["queued", "failed", "cancelled", "active"]

/-- One project, its runtime and the tasks that build it. -/
structure ProjectBuilds (T D R : Type) where
  tasks : BuildTasks T
  sent : T → Bool := fun _ => false
  workers : T → WorkerPhase D := fun _ => .fresh
  callers : BuildCaller D R → CallerPhase := fun _ => .idle
  status : String
  documents : Finset D
  /-- The documents that were read by the build that last made the runtime active. -/
  lastBuild : Finset D := ∅

inductive ProjectEvent (T D R : Type) where
  | upload (document : D)
  | look (caller : BuildCaller D R)
  | decide (caller : BuildCaller D R) (missing : Option BuildRequirement)
  | send (caller : BuildCaller D R) (task : T)
  | sendFails (caller : BuildCaller D R)
  /-- A task that no caller of `enqueue_build` has sent, such as a second delivery. -/
  | deliver (task : T)
  | tick (n : ℕ)
  | acquire (task : T) (reply : RedisReply)
  | load (task : T)
  | stage (task : T)
  | conclude (task : T)
  | stageFails (task : T)
  | runFails (task : T)
  | release (task : T) (reply : RedisReply)

namespace ProjectBuilds

section

variable {T D R : Type} [DecidableEq T] [DecidableEq D] [DecidableEq R]
variable (key : String) (token : T ↪ String)

def setCaller (s : ProjectBuilds T D R) (c : BuildCaller D R) (phase : CallerPhase)
    (status : String) : ProjectBuilds T D R :=
  { s with callers := Function.update s.callers c phase, status }

def setWorker (s : ProjectBuilds T D R) (t : T) (phase : WorkerPhase D) (status : String) :
    ProjectBuilds T D R :=
  { s with workers := Function.update s.workers t phase, status }

/-- `worker.run` returns or raises. -/
def endRun (s : ProjectBuilds T D R) (t : T) (status : String) : ProjectBuilds T D R :=
  { s.setWorker t .ended status with tasks := s.tasks.step key token (.buildEnds t) }

/-- The commit of an upload. -/
def upload (s : ProjectBuilds T D R) (d : D) : ProjectBuilds T D R :=
  { s.setCaller (.upload d) .committed s.status with documents := insert d s.documents }

/-- `_maybe_trigger_runtime` of an upload, and the first statement of `enqueue_build`. -/
def look (s : ProjectBuilds T D R) (c : BuildCaller D R) : ProjectBuilds T D R :=
  match c, s.callers c with
  | .upload _, .committed =>
      if s.status ∈ rebuildableStatuses then s.setCaller c (.asked s.status) s.status
      else s.setCaller c .over s.status
  | .request _, .idle => s.setCaller c (.asked s.status) s.status
  | _, _ => s

/-- The commit of `enqueue_build`. -/
def decide (s : ProjectBuilds T D R) (c : BuildCaller D R) (missing : Option BuildRequirement) :
    ProjectBuilds T D R :=
  match s.callers c, missing with
  | .asked held, none => s.setCaller c .sending (sentColumn held "building" s.status)
  | .asked held, some m => s.setCaller c .over (sentColumn held m.status s.status)
  | _, _ => s

def runStage (s : ProjectBuilds T D R) (t : T) (run : BuildRun D) (stage : BuildStage)
    (stages : List BuildStage) : ProjectBuilds T D R :=
  let held := stage.writes.getD run.held
  s.setWorker t
    (.running ⟨held, stages, if stage = .chunkDocuments then some s.documents else run.read⟩)
    (sentColumn run.held held s.status)

/-- The end of `run`. -/
def conclude (s : ProjectBuilds T D R) (t : T) (run : BuildRun D) : ProjectBuilds T D R :=
  if run.held ≠ "cancelled" ∧ run.held ≠ "failed" then
    { s.endRun key token t (sentColumn run.held "active" s.status) with
      lastBuild := run.read.getD ∅ }
  else s.endRun key token t s.status

/-- An event that the phase of its caller or task does not allow changes nothing. -/
def step (s : ProjectBuilds T D R) : ProjectEvent T D R → ProjectBuilds T D R
  | .upload d => if s.callers (.upload d) = .idle then s.upload d else s
  | .look c => s.look c
  | .decide c missing => s.decide c missing
  | .send c t =>
      if s.callers c = .sending ∧ s.sent t = false then
        { s.setCaller c .over s.status with sent := Function.update s.sent t true }
      else s
  | .sendFails c =>
      if s.callers c = .sending then s.setCaller c .over (sentColumn "building" "failed" s.status)
      else s
  | .deliver t => { s with sent := Function.update s.sent t true }
  | .tick n => { s with tasks := s.tasks.step key token (.tick n) }
  | .acquire t reply =>
      if s.sent t then { s with tasks := s.tasks.step key token (.acquire t reply) } else s
  | .load t =>
      match s.tasks.phase t, s.workers t with
      | .building _ _, .fresh => s.setWorker t (.running ⟨s.status, runtimeStages, none⟩) s.status
      | _, _ => s
  | .stage t =>
      match s.workers t with
      | .running run =>
          match run.stages with
          | [] => s
          | stage :: stages =>
              if run.held = "cancelled" then s else s.runStage t run stage stages
      | _ => s
  | .conclude t =>
      match s.workers t with
      | .running run =>
          if run.stages = [] ∨ run.held = "cancelled" then s.conclude key token t run else s
      | _ => s
  | .stageFails t =>
      match s.workers t with
      | .running _ => s.setWorker t .failing "failed"
      | _ => s
  | .runFails t =>
      match s.tasks.phase t, s.workers t with
      | _, .running _ | _, .failing => s.endRun key token t "failed"
      -- no runtime has been read
      | .building _ _, .fresh => s.endRun key token t s.status
      | _, _ => s
  | .release t reply => { s with tasks := s.tasks.step key token (.release t reply) }

/-- A runtime as it is created, in a project that may have documents. -/
def start (redis : ExpiringKeys.Store String String) (documents : Finset D) :
    ProjectBuilds T D R where
  tasks := .start redis
  status := "preconfigured"
  documents

/-- A task waits for its worker, or builds. -/
def Busy (s : ProjectBuilds T D R) (t : T) : Prop :=
  s.sent t = true ∧ s.tasks.phase t = .waiting ∨ s.tasks.Builds t

/-- The upload has committed its document and has not acted on the runtime's status. -/
def Uploading (s : ProjectBuilds T D R) (d : D) : Prop :=
  s.callers (.upload d) = .committed ∨ ∃ held, s.callers (.upload d) = .asked held

/-- An upload does not look at the status while a build is under way that misses its document. -/
def Awaited (s : ProjectBuilds T D R) : ProjectEvent T D R → Prop
  | .look (.upload d) => s.callers (.upload d) = .committed → ∀ t, ¬(s.workers t).Misses d
  | _ => True

instance instDecidableAwaited [Fintype T] (s : ProjectBuilds T D R) :
    (e : ProjectEvent T D R) → Decidable (s.Awaited e)
  | .look (.upload d) =>
      inferInstanceAs
        (Decidable (s.callers (.upload d) = .committed → ∀ t, ¬(s.workers t).Misses d))
  | .look (.request _) | .upload _ | .decide _ _ | .send _ _ | .sendFails _ | .deliver _ | .tick _
  | .acquire _ _ | .load _ | .stage _ | .conclude _ | .stageFails _ | .runFails _
  | .release _ _ => .isTrue trivial

/-! ## One event -/

/-- A build under way has read every document whose upload is past its look at the status, or
will read them; an active runtime has every document whose upload has acted on the status. -/
structure Covered (s : ProjectBuilds T D R) : Prop where
  running : ∀ t run, s.workers t = .running run →
    (run.read = none → .chunkDocuments ∈ run.stages) ∧
      ∀ read, run.read = some read → ∀ d ∈ s.documents,
        s.callers (.upload d) = .committed ∨ d ∈ read
  asked : ∀ d held, s.callers (.upload d) = .asked held → held ∈ rebuildableStatuses
  active : s.status = "active" → ∀ d ∈ s.documents, s.Uploading d ∨ d ∈ s.lastBuild

variable {key token} {s : ProjectBuilds T D R} {c : BuildCaller D R} {t : T} {d : D}

omit [DecidableEq T] in
theorem callers_setCaller_self (phase : CallerPhase) (status : String) :
    (s.setCaller c phase status).callers c = phase := Function.update_self _ _ _

omit [DecidableEq T] in
theorem callers_setCaller_of_ne {c' : BuildCaller D R} (hne : c' ≠ c) (phase : CallerPhase)
    (status : String) : (s.setCaller c phase status).callers c' = s.callers c' :=
  Function.update_of_ne hne _ _

omit [DecidableEq T] in
theorem callers_upload_self : (s.upload d).callers (.upload d) = .committed :=
  Function.update_self _ _ _

omit [DecidableEq T] in
theorem callers_upload_of_ne {d' : D} (hne : d' ≠ d) :
    (s.upload d).callers (.upload d') = s.callers (.upload d') :=
  Function.update_of_ne (by simpa using hne) _ _

omit [DecidableEq D] [DecidableEq R] in
theorem workers_setWorker_self (phase : WorkerPhase D) (status : String) :
    (s.setWorker t phase status).workers t = phase := Function.update_self _ _ _

omit [DecidableEq D] [DecidableEq R] in
theorem workers_setWorker_of_ne {u : T} (hne : u ≠ t) (phase : WorkerPhase D) (status : String) :
    (s.setWorker t phase status).workers u = s.workers u := Function.update_of_ne hne _ _

theorem chunkDocuments_mem_runtimeStages : .chunkDocuments ∈ runtimeStages := by decide

omit [DecidableEq T] [DecidableEq D] [DecidableEq R] in
theorem covered_start (redis : ExpiringKeys.Store String String) (documents : Finset D) :
    (start redis documents : ProjectBuilds T D R).Covered where
  running t run h := by cases h
  asked d held h := by cases h
  active h := absurd h (by simp [start])

omit [DecidableEq T] [DecidableEq D] [DecidableEq R] in
theorem Covered.tasks (hs : s.Covered) (tasks : BuildTasks T) (sent : T → Bool) :
    Covered { s with tasks, sent } := ⟨hs.running, hs.asked, hs.active⟩

omit [DecidableEq D] [DecidableEq R] in
/-- The worker of a task moves on, and writes no status that makes the runtime active. -/
theorem Covered.setWorker (hs : s.Covered) {phase : WorkerPhase D} {status : String}
    (hphase : ∀ run, phase = .running run → (run.read = none → .chunkDocuments ∈ run.stages) ∧
      ∀ read, run.read = some read → ∀ d ∈ s.documents,
        s.callers (.upload d) = .committed ∨ d ∈ read)
    (hstatus : status = "active" → s.status = "active") : (s.setWorker t phase status).Covered where
  running u run hu := by
    by_cases hne : u = t
    · subst hne
      rw [workers_setWorker_self] at hu
      exact hphase run hu
    · rw [workers_setWorker_of_ne hne] at hu
      exact hs.running u run hu
  asked := hs.asked
  active hactive := hs.active (hstatus hactive)

omit [DecidableEq D] [DecidableEq R] in
theorem Covered.endRun (hs : s.Covered) {status : String}
    (hstatus : status = "active" → s.status = "active") : (s.endRun key token t status).Covered :=
  (hs.setWorker (by simp) hstatus).tasks _ _

omit [DecidableEq T] in
/-- A caller goes on to a later phase. An upload that looks at the status is not missed by a
build, and one that stops uploading leaves the runtime inactive. -/
theorem Covered.setCaller (hs : s.Covered) {phase : CallerPhase} {status : String}
    (hmisses : ∀ d, c = .upload d → s.callers c = .committed → ∀ t, ¬(s.workers t).Misses d)
    (hasked : ∀ d held, c = .upload d → phase = .asked held → held ∈ rebuildableStatuses)
    (hstatus : status = "active" → s.status = "active" ∧
      ∀ d, c = .upload d → s.Uploading d → ∃ held, phase = .asked held) :
    (s.setCaller c phase status).Covered where
  running t run ht := by
    obtain ⟨hread, hdocuments⟩ := hs.running t run ht
    refine ⟨hread, fun read hrun d hd => ?_⟩
    rcases hdocuments read hrun d hd with hd' | hd'
    · by_cases hc : .upload d = c
      · right
        by_contra hmissed
        apply hmisses d hc.symm (hc ▸ hd') t
        rw [show s.workers t = .running run from ht]
        exact ⟨read, hrun, hmissed⟩
      · left
        rw [callers_setCaller_of_ne hc, hd']
    · exact .inr hd'
  asked d held hd := by
    by_cases hc : .upload d = c
    · subst hc
      rw [callers_setCaller_self] at hd
      exact hasked d held rfl hd
    · rw [callers_setCaller_of_ne hc] at hd
      exact hs.asked d held hd
  active hactive d hd := by
    obtain ⟨hbefore, huploading⟩ := hstatus hactive
    rcases hs.active hbefore d hd with hd' | hd'
    · left
      unfold Uploading
      by_cases hc : .upload d = c
      · subst hc
        rw [callers_setCaller_self]
        exact .inr (huploading d rfl hd')
      · rw [callers_setCaller_of_ne hc]
        exact hd'
    · exact .inr hd'

omit [DecidableEq T] in
theorem Covered.upload (hs : s.Covered) (d : D) : (s.upload d).Covered where
  running t run ht := by
    obtain ⟨hread, hdocuments⟩ := hs.running t run ht
    refine ⟨hread, fun read hrun d' hd' => ?_⟩
    by_cases hne : d' = d
    · left
      rw [hne]
      exact callers_upload_self
    · rw [callers_upload_of_ne hne]
      exact hdocuments read hrun d' (Finset.mem_of_mem_insert_of_ne hd' hne)
  asked d' held hd' := by
    by_cases hne : d' = d
    · subst hne
      cases callers_upload_self.symm.trans hd'
    · rw [callers_upload_of_ne hne] at hd'
      exact hs.asked d' held hd'
  active hactive d' hd' := by
    by_cases hne : d' = d
    · subst hne
      exact .inl (.inl callers_upload_self)
    · unfold Uploading
      rw [callers_upload_of_ne hne]
      exact hs.active hactive d' (Finset.mem_of_mem_insert_of_ne hd' hne)

omit [DecidableEq T] in
theorem Covered.look (hs : s.Covered) (c : BuildCaller D R) (hc : s.Awaited (.look c)) :
    (s.look c).Covered := by
  cases c with
  | upload d =>
      cases hphase : s.callers (.upload d) with
      | committed =>
          simp only [ProjectBuilds.look, hphase]
          have hmisses : ∀ d', BuildCaller.upload d = (.upload d' : BuildCaller D R) →
              s.callers (.upload d) = .committed → ∀ t, ¬(s.workers t).Misses d' := by
            rintro d' heq hcommitted
            cases heq
            exact hc hcommitted
          split_ifs with hrebuildable
          · refine hs.setCaller hmisses ?_ fun hactive => ⟨hactive, fun _ _ _ => ⟨_, rfl⟩⟩
            rintro d' held - hheld
            cases hheld
            exact hrebuildable
          · refine hs.setCaller hmisses (by simp) fun hactive => ?_
            rw [hactive] at hrebuildable
            exact absurd (by decide) hrebuildable
      | _ => simpa only [ProjectBuilds.look, hphase] using hs
  | request r =>
      cases hphase : s.callers (.request r) with
      | idle =>
          simp only [ProjectBuilds.look, hphase]
          exact hs.setCaller (by simp) (by simp) fun hactive => ⟨hactive, by simp⟩
      | _ => simpa only [ProjectBuilds.look, hphase] using hs

/-- What a session sends makes no runtime active unless it is, when the session has not set
its copy to active. -/
theorem eq_active_of_sentColumn {held status stored : String} (hstatus : status ≠ "active")
    (h : sentColumn held status stored = "active") : stored = "active" ∧ status = held := by
  unfold sentColumn at h
  split_ifs at h with heq
  · exact ⟨h, heq⟩
  · exact absurd h hstatus

omit [DecidableEq T] in
theorem Covered.decide (hs : s.Covered) (c : BuildCaller D R) (missing : Option BuildRequirement) :
    (s.decide c missing).Covered := by
  cases hphase : s.callers c with
  | asked held =>
      have hadvance : ∀ phase status, status ∉ rebuildableStatuses → (∀ held, phase ≠ .asked held) →
          (s.setCaller c phase (sentColumn held status s.status)).Covered := by
        intro phase status hstatus hasked
        apply hs.setCaller (by simp [hphase]) fun _ _ _ h => absurd h (hasked _)
        intro hactive
        have hne : status ≠ "active" := by
          rintro rfl
          exact hstatus (by decide)
        obtain ⟨hbefore, hheld⟩ := eq_active_of_sentColumn hne hactive
        refine ⟨hbefore, ?_⟩
        rintro d rfl -
        exact absurd (hs.asked d held hphase) (hheld ▸ hstatus)
      cases missing with
      | none =>
          simp only [ProjectBuilds.decide, hphase]
          exact hadvance _ _ (by decide) (by simp)
      | some m =>
          simp only [ProjectBuilds.decide, hphase]
          exact hadvance _ _ (by cases m <;> decide) (by simp)
  | _ => simpa only [ProjectBuilds.decide, hphase] using hs

theorem writes_ne_active {stage : BuildStage} {status : String}
    (h : stage.writes = some status) : status ≠ "active" := by
  rintro rfl
  cases stage <;> simp [BuildStage.writes] at h

omit [DecidableEq D] [DecidableEq R] in
theorem Covered.runStage (hs : s.Covered) {run : BuildRun D} (hrun : s.workers t = .running run)
    {stage : BuildStage} {stages : List BuildStage} (hstages : run.stages = stage :: stages) :
    (s.runStage t run stage stages).Covered := by
  obtain ⟨hread, hdocuments⟩ := hs.running t run hrun
  refine hs.setWorker ?_ ?_
  · rintro _ ⟨⟩
    by_cases hchunk : stage = .chunkDocuments
    · simp only [hchunk, if_true]
      refine ⟨by simp, ?_⟩
      rintro _ ⟨⟩ d hd
      exact .inr hd
    · simp only [hchunk, if_false]
      refine ⟨fun hnone => ?_, hdocuments⟩
      have hmem := hstages ▸ hread hnone
      exact (List.mem_cons.mp hmem).resolve_left (Ne.symm hchunk)
  · intro hactive
    cases hwrites : stage.writes with
    | none => simpa only [hwrites, Option.getD_none, RowTable.sentColumn_self] using hactive
    | some status =>
        rw [hwrites, Option.getD_some] at hactive
        exact (eq_active_of_sentColumn (writes_ne_active hwrites) hactive).1

omit [DecidableEq D] [DecidableEq R] in
theorem Covered.conclude (hs : s.Covered) {run : BuildRun D} (hrun : s.workers t = .running run)
    (hend : run.stages = [] ∨ run.held = "cancelled") : (s.conclude key token t run).Covered := by
  unfold ProjectBuilds.conclude
  split_ifs with hheld
  · obtain ⟨hread, hdocuments⟩ := hs.running t run hrun
    have hstages : run.stages = [] := hend.resolve_right hheld.1
    cases hreads : run.read with
    | none =>
        have hmem := hread hreads
        rw [hstages] at hmem
        cases hmem
    | some read =>
        have hended : (s.endRun key token t "ended").Covered := hs.endRun (by simp)
        refine ⟨hended.running, hended.asked, fun _ d hd => ?_⟩
        rcases hdocuments read hreads d hd with hcommitted | hmem
        · exact .inl (.inl hcommitted)
        · exact .inr hmem
  · exact hs.endRun id

theorem Covered.step (hs : s.Covered) (e : ProjectEvent T D R) (he : s.Awaited e) :
    (s.step key token e).Covered := by
  cases e with
  | upload d =>
      simp only [ProjectBuilds.step]
      split_ifs
      · exact hs.upload d
      · exact hs
  | look c => exact hs.look c he
  | decide c missing => exact hs.decide c missing
  | send c t =>
      simp only [ProjectBuilds.step]
      split_ifs with hsending
      · apply ProjectBuilds.Covered.tasks
        apply hs.setCaller (by simp [hsending.1]) (by simp)
        intro hactive
        refine ⟨hactive, ?_⟩
        rintro d rfl huploading
        simp [Uploading, hsending.1] at huploading
      · exact hs
  | sendFails c =>
      simp only [ProjectBuilds.step]
      split_ifs with hsending
      · refine hs.setCaller (by simp [hsending]) (by simp) fun hactive => ?_
        obtain ⟨-, heq⟩ := eq_active_of_sentColumn (by decide) hactive
        exact absurd heq (by decide)
      · exact hs
  | deliver t => exact hs.tasks _ _
  | tick n => exact hs.tasks _ _
  | acquire t reply =>
      simp only [ProjectBuilds.step]
      split_ifs
      · exact hs.tasks _ _
      · exact hs
  | load t =>
      simp only [ProjectBuilds.step]
      split
      · refine hs.setWorker ?_ id
        rintro _ ⟨⟩
        exact ⟨fun _ => chunkDocuments_mem_runtimeStages, by simp⟩
      · exact hs
  | stage t =>
      simp only [ProjectBuilds.step]
      split
      · next run hrun =>
          split
          · exact hs
          · next stage stages hstages =>
              split_ifs
              · exact hs
              · exact hs.runStage hrun hstages
      · exact hs
  | conclude t =>
      simp only [ProjectBuilds.step]
      split
      · next run hrun =>
          split_ifs with hend
          · exact hs.conclude hrun hend
          · exact hs
      · exact hs
  | stageFails t =>
      simp only [ProjectBuilds.step]
      split
      · exact hs.setWorker (by simp) (by simp)
      · exact hs
  | runFails t =>
      simp only [ProjectBuilds.step]
      split
      · exact hs.endRun (by simp)
      · exact hs.endRun (by simp)
      · exact hs.endRun id
      · exact hs
  | release t reply => exact hs.tasks _ _

/-! ## Runs -/

/-- In every order of uploads, requests and builds: as long as no upload looks at the status
while a build that misses its document is under way, an active runtime has been built from
every document whose upload has acted on the status. -/
theorem lastBuild_covers (key : String) (token : T ↪ String)
    (redis : ExpiringKeys.Store String String) (documents : Finset D)
    (events : List (ProjectEvent T D R))
    (hrun : StepRuns.Along (step key token) Awaited (start redis documents) events) :
    let s := events.foldl (step key token) (start redis documents)
    s.status = "active" → ∀ d ∈ s.documents, s.Uploading d ∨ d ∈ s.lastBuild := by
  intro s
  have hs : s.Covered := hrun.invariant (fun _ e hs he => hs.step e he) (covered_start _ _)
  exact hs.active

end

/-! ## An upload during a build -/

def buildTasks (t : Bool) (c : BuildCaller ℕ Unit) : List (ProjectEvent Bool ℕ Unit) :=
  [.decide c none, .send c t, .acquire t .answered, .load t]

/-- The stages up to the one that reads the documents, and the rest of a build. -/
def readingStages (t : Bool) : List (ProjectEvent Bool ℕ Unit) := List.replicate 7 (.stage t)

def laterStages (t : Bool) : List (ProjectEvent Bool ℕ Unit) :=
  List.replicate 5 (.stage t) ++ [.conclude t, .release t .answered]

/-- A project with one document is built; the second document comes after the build. -/
def uploadAfterBuild : List (ProjectEvent Bool ℕ Unit) :=
  .look (.request ()) :: buildTasks true (.request ()) ++ readingStages true ++ laterStages true ++
    [.upload 2, .look (.upload 2)] ++
    buildTasks false (.upload 2) ++ readingStages false ++ laterStages false

theorem lastBuild_covers_uploadAfterBuild :
    let s := uploadAfterBuild.foldl (step "runtime:build:7" buildTokens) (start {} {1})
    s.status = "active" ∧ 2 ∈ s.documents ∧ ∀ d ∈ s.documents, s.Uploading d ∨ d ∈ s.lastBuild := by
  intro s
  have hactive : s.status = "active" := by decide +kernel
  refine ⟨hactive, by decide +kernel, ?_⟩
  exact lastBuild_covers "runtime:build:7" buildTokens {} {1} uploadAfterBuild
    (by decide +kernel) hactive

/-- The second document comes when the build has read the first. -/
def uploadDuringBuild : List (ProjectEvent Bool ℕ Unit) :=
  .look (.request ()) :: buildTasks true (.request ()) ++ readingStages true ++
    [.upload 2, .look (.upload 2)] ++ laterStages true

theorem lastBuild_misses :
    let s := uploadDuringBuild.foldl (step "runtime:build:7" buildTokens) (start {} {1})
    (∀ t, ¬s.Busy t) ∧ s.status = "active" ∧
      2 ∈ s.documents ∧ ¬s.Uploading 2 ∧ 2 ∉ s.lastBuild := by
  intro s
  have hfirst : s.tasks.phase true = .over := by decide +kernel
  have hsecond : s.sent false = false ∧ s.tasks.phase false = .waiting := by decide +kernel
  have hupload : s.callers (.upload 2) = .over := by decide +kernel
  refine ⟨fun t => ?_, by decide +kernel, by decide +kernel, ?_, by decide +kernel⟩
  · cases t with
    | true => simp [Busy, BuildTasks.Builds, hfirst]
    | false => simp [Busy, BuildTasks.Builds, hsecond]
  · simp [Uploading, hupload]

end ProjectBuilds

end Zyntry
