import Zyntry.SyncJobs

/-!
# Cancelled syncs

A sync never looks at the status of its job, and its last commit sends a status of its own. So a
cancelled job stays cancelled exactly as long as the sync does not come to that commit.
-/

namespace Zyntry

open SqlProgram World

namespace SyncDatabase

def JobCancelled (d : SyncDatabase) : Prop := d.job.map SyncJob.status = some "cancelled"

def SourceCompleted (d : SyncDatabase) : Prop := d.source.map SyncSource.status = some "completed"

instance (d : SyncDatabase) : Decidable d.JobCancelled :=
  inferInstanceAs (Decidable (d.job.map SyncJob.status = some "cancelled"))

instance (d : SyncDatabase) : Decidable d.SourceCompleted :=
  inferInstanceAs (Decidable (d.source.map SyncSource.status = some "completed"))

end SyncDatabase

/-- The last commit of a sync. -/
def SyncLabel.Final (l : SyncLabel) : Prop := l = .completed ∨ l = .failed

instance (l : SyncLabel) : Decidable l.Final := inferInstanceAs (Decidable (_ ∨ _))

/-! ## The commits of the sync -/

/-- Only the last commit changes the status of the job, and it never makes it cancelled; only a
success marks the source completed. -/
structure SyncWrites (l : SyncLabel) (d d' : SyncDatabase) : Prop where
  label : l ≠ .cancelled
  back : d'.JobCancelled → d.JobCancelled
  stays : ¬l.Final → d.JobCancelled → d'.JobCancelled
  ends : l.Final → ¬d'.JobCancelled
  source : d'.SourceCompleted → l = .completed
  row : d.job.isSome → d'.job.isSome

theorem sourceCompleted_map {source : Option SyncSource} {job : Option SyncJob}
    {sourceRow : SyncSource}
    (h : SyncDatabase.SourceCompleted { source := source.map fun _ => sourceRow, job }) :
    sourceRow.status = "completed" := by
  obtain ⟨stored, hstored, hstatus⟩ := Option.map_eq_some_iff.mp h
  obtain ⟨-, -, rfl⟩ := Option.map_eq_some_iff.mp hstored
  exact hstatus

theorem HeldJob.flushed_status_of_same {job : HeldJob}
    (h : job.current.status = job.stored.status) (row : SyncJob) :
    (job.flushed row).status = row.status := if_pos h

theorem HeldJob.flushed_status_of_set {job : HeldJob}
    (h : job.current.status ≠ job.stored.status) (row : SyncJob) :
    (job.flushed row).status = job.current.status := if_neg h

section Stages

variable {G : SyncLabel → SyncDatabase → SyncDatabase → Prop} {l : SyncLabel} {job : HeldJob}
  {source sourceRow : SyncSource} {row : SyncJob}

theorem writesTo_updateJob {post : HeldJob → Prop} :
    (updateJob job row).WritesTo G post ↔ post { job with current := row } :=
  ⟨fun h => h ⟨none, none⟩, fun h _ => h⟩

theorem writesTo_saveStage {post : HeldJob → Prop}
    (hG : ∀ d : SyncDatabase, G l d
      { job := d.job.map (HeldJob.flushed { job with current := row }),
        source := d.source.map fun _ => sourceRow })
    (hpost : post (.ofRow row)) : (saveStage l job source row sourceRow).WritesTo G post := by
  unfold saveStage
  rw [writesTo_bind, writesTo_updateJob, writesTo_bind]
  intro _
  exact ⟨hG, hpost⟩

/-- A stage in between sends no status, and the source is not marked. -/
theorem writesTo_saveStage_between (hlabel : l ≠ .cancelled) (hfinal : ¬l.Final)
    (hjob : job.stored.status = "running") (hrow : row.status = "running")
    (hsource : sourceRow.status ≠ "completed") :
    (saveStage l job source row sourceRow).WritesTo SyncWrites
      fun job => job.stored.status = "running" ∧ job.current.status = "running" := by
  apply writesTo_saveStage
  · intro d
    have hstatus : (d.job.map (HeldJob.flushed { job with current := row })).map SyncJob.status =
        d.job.map SyncJob.status := by
      rw [Option.map_map]
      congr 1
      funext stored
      exact HeldJob.flushed_status_of_same (hrow.trans hjob.symm) stored
    refine ⟨hlabel, fun h => ?_, fun _ h => ?_, fun h => absurd h hfinal, fun h => ?_, ?_⟩
    · exact hstatus.symm.trans h
    · exact hstatus.trans h
    · exact absurd (sourceCompleted_map h) hsource
    · exact fun h => (Option.isSome_map).trans h
  · exact ⟨hrow, hrow⟩

/-- The last commit sends its status. -/
theorem writesTo_saveStage_final (hfinal : l.Final) (hjob : job.stored.status = "running")
    (hrow : row.status ≠ "running") (hcancelled : row.status ≠ "cancelled")
    (hsource : sourceRow.status = "completed" → l = .completed) :
    (saveStage l job source row sourceRow).WritesTo SyncWrites fun _ => True := by
  apply writesTo_saveStage
  · intro d
    have hnot : ¬SyncDatabase.JobCancelled
        { job := d.job.map (HeldJob.flushed { job with current := row }),
          source := d.source.map fun _ => sourceRow } := by
      intro h
      obtain ⟨stored, hstored, hstatus⟩ := Option.map_eq_some_iff.mp h
      obtain ⟨old, -, rfl⟩ := Option.map_eq_some_iff.mp hstored
      rw [HeldJob.flushed_status_of_set (hjob.symm ▸ hrow)] at hstatus
      exact hcancelled hstatus
    refine ⟨?_, fun h => absurd h hnot, fun h => absurd hfinal h, fun _ => hnot, fun h => ?_, ?_⟩
    · rintro rfl
      revert hfinal
      decide
    · exact hsource (sourceCompleted_map h)
    · exact fun h => (Option.isSome_map).trans h
  · trivial

end Stages

section Sync

variable {o : SyncOutcomes} {job : HeldJob} {source : SyncSource}

theorem writesTo_failSync (hjob : job.stored.status = "running") (message : String) :
    (failSync o job source message).WritesTo SyncWrites fun _ => True := by
  unfold failSync
  rw [writesTo_bind]
  refine WritesTo.mono (writesTo_saveStage_final (.inr rfl) hjob (by simp) (by simp) ?_)
    fun _ _ => trivial
  intro h
  exact absurd h (by simp)

theorem writesTo_completeSync (hjob : job.stored.status = "running") (stats : SyncStats) :
    (completeSync o job source stats).WritesTo SyncWrites fun _ => True := by
  unfold completeSync
  rw [writesTo_bind]
  exact WritesTo.mono (writesTo_saveStage_final (.inl rfl) hjob (by simp) (by simp)
    fun _ => rfl) fun _ _ => trivial

theorem writesTo_persistSync (hjob : job.stored.status = "running")
    (hcurrent : job.current.status = "running") (hsource : source.status ≠ "completed")
    (result : SyncResult) :
    (persistSync o job source result).WritesTo SyncWrites fun _ => True := by
  unfold persistSync
  split_ifs
  · dsimp only
    rw [writesTo_bind]
    refine WritesTo.mono (writesTo_saveStage_between (by decide) (by decide) hjob hcurrent hsource)
      fun job hheld => ?_
    cases o.persist with
    | error message => exact writesTo_failSync hheld.1 message
    | ok documents => exact writesTo_completeSync hheld.1 _
  · exact writesTo_completeSync hjob _

theorem writesTo_crawlSync (hjob : job.stored.status = "running")
    (hcurrent : job.current.status = "running") (hsource : source.status ≠ "completed") :
    (crawlSync o job source).WritesTo SyncWrites fun _ => True := by
  unfold crawlSync
  dsimp only
  rw [writesTo_bind]
  refine WritesTo.mono (writesTo_saveStage_between (by decide) (by decide) hjob hcurrent hsource)
    fun job hheld => ?_
  cases o.sync with
  | error message => exact writesTo_failSync hheld.1 message
  | ok result =>
    dsimp only
    split_ifs
    · exact writesTo_failSync hheld.1 _
    · have hcrawled : { source with syncProgress := 20 }.status ≠ "completed" := hsource
      exact writesTo_persistSync hheld.1 hheld.2 hcrawled result

/-- The first commit adds the job. -/
theorem syncWrites_started {job : SyncJob} (hjob : job.status = "running")
    (hsource : source.status ≠ "completed") (d : SyncDatabase) :
    SyncWrites .started d
      { job := d.job.or (some job), source := d.source.map fun _ => source } := by
  have hstatus : ∀ row, d.job = some row → (d.job.or (some job)).map SyncJob.status =
      d.job.map SyncJob.status := by
    rintro row hrow
    rw [hrow, Option.some_or]
  refine ⟨by decide, fun h => ?_, fun _ h => ?_, fun h => absurd h (by decide),
    fun h => absurd (sourceCompleted_map h) hsource, fun h => ?_⟩
  · cases hrow : d.job with
    | none =>
      unfold SyncDatabase.JobCancelled at h
      simp [hrow, hjob] at h
    | some row => exact (hstatus row hrow).symm.trans h
  · obtain ⟨row, hrow, -⟩ := Option.map_eq_some_iff.mp h
    exact (hstatus row hrow).trans h
  · obtain ⟨row, hrow⟩ := Option.isSome_iff_exists.mp h
    simp [hrow]

theorem writesTo_startSync : (startSync o source).WritesTo SyncWrites fun _ => True := by
  unfold startSync
  cases o.connector with
  | some message => trivial
  | none =>
    dsimp only
    rw [writesTo_bind]
    intro _
    rw [writesTo_bind, writesTo_write]
    exact ⟨syncWrites_started rfl (by simp), writesTo_crawlSync rfl rfl (by simp)⟩

theorem writes_syncSource : (syncSource o).Writes SyncWrites := by
  unfold syncSource
  refine Writes.bind (writes_query _ _) fun found => ?_
  cases found with
  | none => exact writes_raise _
  | some source => exact writesTo_startSync.writes

end Sync

/-! ## Interleavings -/

/-- A cancelled job stays cancelled, and the last commit of the sync meets none. -/
def syncDiscipline : Discipline SyncDatabase SyncRow SyncLabel where
  inv d log := (d.JobCancelled ↔ .cancelled ∈ log) ∧
    (d.job.isSome → d.SourceCompleted → .completed ∈ log) ∧
    log.Pairwise fun l l' => l = .cancelled → ¬l'.Final
  guarantee _ _ d d' := (d.JobCancelled → d'.JobCancelled) ∧ (d.job.isSome → d'.job.isSome)
  own l d := l.Final → ¬d.JobCancelled
  compatible _ _ := True

theorem syncDiscipline_of_syncWrites (H : Set SyncRow) (l : SyncLabel) (d d' : SyncDatabase)
    (log : List SyncLabel) (h : SyncWrites l d d') (hinv : syncDiscipline.inv d log)
    (hown : syncDiscipline.own l d) :
    syncDiscipline.guarantee H l d d' ∧ syncDiscipline.inv d' (log ++ [l]) := by
  obtain ⟨hcancelled, hcompleted, hlog⟩ := hinv
  have hstays : d.JobCancelled → d'.JobCancelled := by
    intro hd
    by_cases hfinal : l.Final
    · exact absurd hd (hown hfinal)
    · exact h.stays hfinal hd
  refine ⟨⟨hstays, h.row⟩, ⟨fun hd => ?_, fun hmem => ?_⟩, fun _ hd => ?_, ?_⟩
  · exact List.mem_append_left _ (hcancelled.mp (h.back hd))
  · obtain hmem | hmem := List.mem_append.mp hmem
    · exact hstays (hcancelled.mpr hmem)
    · exact absurd (List.mem_singleton.mp hmem).symm h.label
  · rw [h.source hd]
    exact List.mem_append_right _ (List.mem_singleton_self _)
  · rw [List.pairwise_append]
    refine ⟨hlog, List.pairwise_singleton _ _, ?_⟩
    rintro _ hmem l' hl' rfl
    rw [List.mem_singleton.mp hl']
    exact fun hfinal => hown hfinal (hcancelled.mpr hmem)

/-- What a cancel request knows of the job that it has read. -/
def ReadJob (row : SyncJob) (d : SyncDatabase) : Prop :=
  d.job.isSome ∧ (row.status = "cancelled" → d.JobCancelled)

theorem firm_readJob (row : SyncJob) (H : Set SyncRow) : syncDiscipline.Firm H (ReadJob row) :=
  fun _ _ _ _ _ _ _ _ _ hguarantee hread =>
    ⟨hguarantee.2 hread.1, fun hrow => hguarantee.1 (hread.2 hrow)⟩

theorem ReadJob.cancelled {row : SyncJob} {d : SyncDatabase} (h : ReadJob row d) (now : ℤ) :
    SyncDatabase.JobCancelled { d with job := d.job.map (HeldJob.flushed
      ⟨row, { row with status := "cancelled", completedAt := some now }⟩) } := by
  obtain ⟨stored, hstored⟩ := Option.isSome_iff_exists.mp h.1
  unfold SyncDatabase.JobCancelled
  rw [hstored, Option.map_some, Option.map_some]
  by_cases hrow : row.status = "cancelled"
  · have hcancelled := h.2 hrow
    rw [SyncDatabase.JobCancelled, hstored, Option.map_some] at hcancelled
    rwa [HeldJob.flushed_status_of_same hrow.symm]
  · rw [HeldJob.flushed_status_of_set (Ne.symm hrow)]

theorem sat_cancelJob {row : SyncJob} (now : ℤ) (H : Set SyncRow) :
    syncDiscipline.Sat (cancelJob now row) H (ReadJob row) fun _ _ _ => True := by
  refine ⟨firm_readJob row H _, fun d log _ _ hread => ⟨ReadJob row, hread, ?_⟩⟩
  refine ⟨firm_readJob row _ _, fun d log hinv _ hread => ?_⟩
  obtain ⟨-, hcompleted, hlog⟩ := hinv
  have hcancelled := hread.cancelled now
  refine ⟨⟨fun _ => hcancelled, fun _ => ?_⟩, ⟨⟨fun _ => ?_, fun _ => hcancelled⟩, ?_, ?_⟩,
    fun _ => True, trivial, trivial⟩
  · exact Option.isSome_map.trans hread.1
  · exact List.mem_append_right _ (List.mem_singleton_self _)
  · exact fun _ hsource => List.mem_append_left _ (hcompleted hread.1 hsource)
  · rw [List.pairwise_append]
    refine ⟨hlog, List.pairwise_singleton _ _, fun l _ l' hl' _ => ?_⟩
    rw [List.mem_singleton.mp hl']
    decide

theorem sat_cancelSync (now : ℤ) :
    syncDiscipline.Sat (cancelSync now) ∅ (fun _ => True) fun _ _ _ => True := by
  refine Discipline.sat_query _ (syncDiscipline.stable_true _ _) fun d log _ _ _ => ?_
  cases hrow : d.job with
  | none => exact ⟨fun _ => True, trivial, trivial⟩
  | some row =>
    refine ⟨ReadJob row, ⟨by rw [hrow]; rfl, fun hstatus => ?_⟩, sat_cancelJob now ∅⟩
    rw [SyncDatabase.JobCancelled, hrow, Option.map_some, hstatus]

section Runs

variable {S : Type} [DecidableEq S]

abbrev SyncWorld (S : Type) := World S SyncDatabase SyncRow SyncLabel SyncError Unit

/-- The sync does not come to its last commit while its job is cancelled. -/
def EndsUncancelled (w : SyncWorld S) (s : S) : Prop :=
  ∀ l, (w.session s).head = some l → l.Final → ¬w.db.JobCancelled

instance (w : SyncWorld S) (s : S) : Decidable (EndsUncancelled w s) :=
  inferInstanceAs (Decidable (∀ l ∈ (w.session s).head, l.Final → ¬w.db.JobCancelled))

variable {o : SyncOutcomes} {now : S → ℤ} {worker : S} {source : Option SyncSource}
  {w : SyncWorld S}

theorem obeyed_run
    (hrun : Run EndsUncancelled (start { source } (syncSessions o now worker)) w) :
    syncDiscipline.Obeyed w := by
  refine Discipline.Obeyed.run hrun (fun w s hok => ⟨hok, fun _ _ _ _ _ _ _ _ => trivial⟩)
    (Discipline.obeyed_start _ ?_ fun s => ?_)
  · refine ⟨⟨fun hd => ?_, fun hmem => ?_⟩, fun hsome => ?_, List.Pairwise.nil⟩
    · cases hd
    · cases hmem
    · cases hsome
  · unfold syncSessions
    split_ifs
    · exact Discipline.sat_of_writes _ syncDiscipline_of_syncWrites writes_syncSource ∅
    · exact sat_cancelSync (now s)

/-- A cancellation that is committed before the last commit of the sync lasts, and the source
is not marked completed, in every run in which the sync does not come to its last commit with a
cancelled job. Whenever it makes that commit, the job is not cancelled after it. -/
theorem cancelledSync_stays (o : SyncOutcomes) (now : S → ℤ) (worker : S)
    (source : Option SyncSource)
    (hrun : Run EndsUncancelled (start { source } (syncSessions o now worker)) w) :
    (∀ before later, w.log = before ++ .cancelled :: later → (∀ l ∈ before, ¬l.Final) →
      w.db.JobCancelled ∧ ¬w.db.SourceCompleted) ∧
      ∀ w' l, w.step worker = some w' → w'.log = w.log ++ [l] → l.Final →
        ¬w'.db.JobCancelled := by
  constructor
  · intro before later hlog hbefore
    obtain ⟨⟨hcancelled, hcompleted, hpairwise⟩, -⟩ := obeyed_run hrun
    rw [hlog] at hcancelled hcompleted hpairwise
    have hjob : w.db.JobCancelled :=
      hcancelled.mpr (List.mem_append_right _ List.mem_cons_self)
    refine ⟨hjob, fun hsource => ?_⟩
    obtain ⟨row, hrow, -⟩ := Option.map_eq_some_iff.mp hjob
    have hmem := hcompleted (by rw [hrow]; rfl) hsource
    obtain hmem | hmem := List.mem_append.mp hmem
    · exact hbefore _ hmem (.inl rfl)
    · obtain hmem | hmem := List.mem_cons.mp hmem
      · cases hmem
      · have htail := (List.pairwise_append.mp hpairwise).2.1
        exact List.rel_of_pairwise_cons htail hmem rfl (.inl rfl)
  · intro w' l hstep hlog hfinal
    have hwrites : (w.session worker).Writes SyncWrites := by
      apply hrun.writes_session
      simpa only [start, syncSessions, if_pos] using writes_syncSource
    cases stepped hstep with
    | ret hp => simp at hlog
    | raise hp => simp at hlog
    | select hp => simp at hlog
    | lock hp hfree => simp at hlog
    | commit hp =>
      rw [hp, writes_commit] at hwrites
      obtain rfl : _ = l := by simpa using hlog
      exact (hwrites.1 w.db).ends hfinal

end Runs

/-! ## A cancellation during the crawl -/

def docsSite : SyncSource := { sourceType := "website" }

/-- The crawl and the persisting succeed. -/
def goodCrawl : SyncOutcomes := { sync := .ok { total := 3 }, persist := .ok 3 }

/-- The crawl raises. -/
def badCrawl : SyncOutcomes := { sync := .error "timeout" }

/-- The sync is at its crawl, and the cancellation is committed. -/
def duringCrawl : List Bool := List.replicate 6 true ++ List.replicate 3 false

def docsSync (o : SyncOutcomes) : SyncWorld Bool :=
  start { source := some docsSite } (syncSessions o (fun _ => 0) true)

/-- The process of the sync dies after the cancellation. -/
theorem crashedSync_cancelled :
    let w := ((docsSync goodCrawl).play duringCrawl).crash true .stopped
    w.log = [.started, .crawling, .cancelled] ∧ w.db.JobCancelled ∧ ¬w.db.SourceCompleted := by
  have hplay : Run EndsUncancelled (docsSync goodCrawl)
      ((docsSync goodCrawl).play duringCrawl) := Run.start.play (by decide)
  refine ⟨by decide, ?_⟩
  exact (cancelledSync_stays goodCrawl (fun _ => 0) true (some docsSite)
    (hplay.crash true .stopped)).1 [.started, .crawling] [] (by decide) (by decide)

/-- The sync goes on after the cancellation: it ends completed, or failed. -/
theorem cancelledSync_ends :
    (let w := (docsSync goodCrawl).play (duringCrawl ++ List.replicate 9 true)
    w.log = [.started, .crawling, .cancelled, .persisting, .completed] ∧
      w.db.job.map SyncJob.status = some "completed" ∧ w.db.SourceCompleted) ∧
    (let w := (docsSync badCrawl).play (duringCrawl ++ List.replicate 9 true)
    w.log = [.started, .crawling, .cancelled, .failed] ∧
      w.db.job.map SyncJob.status = some "failed") := by
  decide

end Zyntry
