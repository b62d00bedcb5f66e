import Zyntry.RuntimeBuilds

/-!
# Cancelled builds

The worker never reads the status again after its first statement, so a cancel request
keeps its effect in two cases: it commits before the worker reads the row, or no status of
the worker is left to be written. In every interleaving in which cancel requests commit in
these cases only, the status stays cancelled.
-/

namespace Zyntry

open SqlProgram World

def IsCancelled (d : BuildDatabase) : Prop := d.runtime.map BuildRow.status = some "cancelled"

instance : DecidablePred IsCancelled := fun d =>
  inferInstanceAs (Decidable (d.runtime.map BuildRow.status = some "cancelled"))

/-- No commit of the worker makes a runtime cancelled. -/
def NeverCancels : BuildLabel → BuildDatabase → BuildDatabase → Prop := fun l d d' =>
  l ≠ .cancelled ∧ (IsCancelled d' → IsCancelled d) ∧ d'.runtime.isSome = d.runtime.isSome

def KeepsStatus : BuildLabel → BuildDatabase → BuildDatabase → Prop := fun _ d d' =>
  d'.runtime.map BuildRow.status = d.runtime.map BuildRow.status

/-- The status that the session would send is not that of a cancelled runtime. -/
def HeldRuntime.Active (held : HeldRuntime) : Prop :=
  held.current.status = held.stored.status ∨ held.current.status ≠ "cancelled"

theorem HeldRuntime.active_ofRow (row : BuildRow) : (HeldRuntime.ofRow row).Active := .inl rfl

theorem HeldRuntime.flushed_status_of_eq {held : HeldRuntime}
    (h : held.current.status = held.stored.status) (row : BuildRow) :
    (held.flushed row).status = row.status := if_pos h

theorem HeldRuntime.flushed_status_of_ne {held : HeldRuntime}
    (h : held.current.status ≠ held.stored.status) (row : BuildRow) :
    (held.flushed row).status = held.current.status := if_neg h

/-! ## The commits of the worker -/

section Writes

variable {G : BuildLabel → BuildDatabase → BuildDatabase → Prop}

@[simp] theorem writesTo_updateHeld {held : HeldRuntime} {row : BuildRow}
    {post : HeldRuntime → Prop} :
    (updateHeld held row).WritesTo G post ↔ post { held with current := row } :=
  ⟨fun h => h ⟨none, 0, [], [], false⟩, fun h _ => h⟩

@[simp] theorem writesTo_commitHeld {l : BuildLabel} {held : HeldRuntime}
    {also : BuildDatabase → BuildDatabase} {post : HeldRuntime → Prop} :
    (commitHeld l held also).WritesTo G post ↔
      (∀ d, G l d (also { d with runtime := d.runtime.map held.flushed })) ∧
        post (.ofRow held.current) := Iff.rfl

@[simp] theorem writesTo_raiseAny {message : Option String} {post : Unit → Prop} :
    (raiseAny message).WritesTo G post ↔ (message = none → post ()) := by
  cases message <;> simp [raiseAny]

end Writes

theorem neverCancels_flushed {held : HeldRuntime} (h : held.Active) {l : BuildLabel}
    (hl : l ≠ .cancelled) (d : BuildDatabase) :
    NeverCancels l d { d with runtime := d.runtime.map held.flushed } := by
  refine ⟨hl, fun hcancelled => ?_, Option.isSome_map⟩
  unfold IsCancelled at hcancelled ⊢
  cases hrow : d.runtime with
  | none => simp [hrow] at hcancelled
  | some row =>
      simp only [hrow, Option.map_some, Option.some.injEq] at hcancelled ⊢
      by_cases hsame : held.current.status = held.stored.status
      · rwa [HeldRuntime.flushed_status_of_eq hsame] at hcancelled
      · rw [HeldRuntime.flushed_status_of_ne hsame] at hcancelled
        exact (h.resolve_left hsame hcancelled).elim

/-- What a commit writes in other tables. -/
def OtherTables (also : BuildDatabase → BuildDatabase) : Prop :=
  ∀ d, (also d).runtime = d.runtime

theorem neverCancels_also {also : BuildDatabase → BuildDatabase} (halso : OtherTables also)
    {held : HeldRuntime} (h : held.Active) {l : BuildLabel} (hl : l ≠ .cancelled)
    (d : BuildDatabase) :
    NeverCancels l d (also { d with runtime := d.runtime.map held.flushed }) := by
  have hflushed := neverCancels_flushed h hl d
  unfold NeverCancels IsCancelled at hflushed ⊢
  rwa [halso]

theorem writesTo_commitActive {l : BuildLabel} {held : HeldRuntime}
    {also : BuildDatabase → BuildDatabase} (hl : l ≠ .cancelled) (h : held.Active)
    (halso : OtherTables also) :
    (commitHeld l held also).WritesTo NeverCancels HeldRuntime.Active :=
  writesTo_commitHeld.mpr ⟨neverCancels_also halso h hl, HeldRuntime.active_ofRow _⟩

section Worker

open RuntimeWorker

variable {o : BuildOutcomes} {held : HeldRuntime}

theorem writesTo_updateRuntimeStatus {status : String} (h : status ≠ "cancelled") :
    (updateRuntimeStatus status held).WritesTo NeverCancels HeldRuntime.Active := by
  unfold updateRuntimeStatus
  rw [writesTo_bind, writesTo_updateHeld]
  exact writesTo_commitActive (by simp) (.inr h) fun _ => rfl

/-- A column other than the status. -/
theorem writesTo_updateColumns (h : held.Active) {row : BuildRow} {l : BuildLabel}
    (hl : l ≠ .cancelled) {also : BuildDatabase → BuildDatabase} (hrow : row.status = held.current.status)
    (halso : OtherTables also) :
    (updateHeld held row >>= fun held => commitHeld l held also).WritesTo NeverCancels
      HeldRuntime.Active := by
  rw [writesTo_bind, writesTo_updateHeld]
  refine writesTo_commitActive hl ?_ halso
  unfold HeldRuntime.Active
  rwa [hrow]

theorem writesTo_updateRuntimeCounts (h : held.Active) {row : BuildRow}
    {also : BuildDatabase → BuildDatabase} (hrow : row.status = held.current.status)
    (halso : OtherTables also) :
    (updateRuntimeCounts held row also).WritesTo NeverCancels HeldRuntime.Active :=
  writesTo_updateColumns h (by simp) hrow halso

theorem writesTo_updateBuildProgress (stage : BuildStage) (h : held.Active) :
    (updateBuildProgress o stage held).WritesTo NeverCancels HeldRuntime.Active :=
  writesTo_updateColumns h (by simp) rfl fun _ => rfl

theorem writesTo_stageMethod (stage : BuildStage) (h : held.Active) :
    (stageMethod o stage held).WritesTo NeverCancels HeldRuntime.Active := by
  unfold stageMethod
  rw [writesTo_bind, writesTo_raiseAny]
  intro _
  cases stage with
  | collectSources => exact writesTo_updateRuntimeStatus (by decide)
  | validateSources => exact writesTo_updateRuntimeStatus (by decide)
  | discoverResources => exact writesTo_updateRuntimeStatus (by decide)
  | extractDocuments => exact writesTo_updateRuntimeStatus (by decide)
  | normalizeDocuments => exact writesTo_updateRuntimeStatus (by decide)
  | cleanDocuments => exact h
  | chunkDocuments => exact writesTo_updateRuntimeCounts h rfl fun _ => rfl
  | generateEmbeddings =>
      rw [writesTo_bind]
      refine (writesTo_updateRuntimeStatus (by decide)).mono fun held' hheld' => ?_
      exact writesTo_updateRuntimeCounts hheld' rfl fun _ => rfl
  | storeEmbeddings =>
      rw [writesTo_bind]
      refine WritesTo.mono (writesTo_updateRuntimeCounts h rfl fun _ => rfl) fun held' hheld' => ?_
      exact writesTo_updateRuntimeStatus (by decide)
  | buildRuntime => exact writesTo_updateRuntimeStatus (by decide)
  | generateApiKey =>
      rw [writesTo_bind]
      refine WritesTo.mono (writesTo_commitActive (by simp) h fun _ => rfl) fun held' hheld' => ?_
      exact writesTo_updateHeld.mpr hheld'
  | activateRuntime => exact writesTo_updateColumns h (by simp) rfl fun _ => rfl

theorem writesTo_markFailed {l : BuildLabel} (hl : l ≠ .cancelled) {e : BuildError}
    {also : BuildDatabase → BuildDatabase} (halso : OtherTables also) :
    (markFailed l e also).WritesTo NeverCancels fun _ => True := by
  unfold markFailed
  rw [writesTo_bind, writesTo_query]
  intro d
  cases d.runtime with
  | none =>
      refine ⟨fun d' => ?_, trivial⟩
      unfold NeverCancels IsCancelled
      rw [halso]
      exact ⟨hl, id, rfl⟩
  | some row =>
      dsimp only
      rw [writesTo_bind, writesTo_updateHeld, writesTo_bind]
      exact WritesTo.mono (writesTo_commitActive hl (.inr (show "failed" ≠ "cancelled" by decide))
        halso) fun _ _ => trivial

theorem writesTo_runStage (stage : BuildStage) (h : held.Active) :
    (runStage o stage held).WritesTo NeverCancels HeldRuntime.Active := by
  unfold runStage
  rw [writesTo_bind]
  refine WritesTo.mono (writesTo_updateBuildProgress stage h) fun held hheld => ?_
  rw [writesTo_bind]
  refine WritesTo.mono (writesTo_commitActive (by simp) hheld fun _ => rfl) fun held hheld => ?_
  rw [writesTo_bind, writesTo_raiseAny]
  intro _
  rw [writesTo_bind]
  refine ((writesTo_stageMethod stage hheld).catching fun e => ?_).mono fun held hheld => ?_
  · rw [writesTo_bind]
    exact WritesTo.mono (writesTo_markFailed (by simp) fun _ => rfl) fun _ _ => trivial
  · exact writesTo_commitActive (by simp) hheld fun _ => rfl

theorem writesTo_runStages (stages : List BuildStage) (h : held.Active) :
    (runStages o stages held).WritesTo NeverCancels HeldRuntime.Active := by
  induction stages generalizing held with
  | nil => exact h
  | cons stage stages ih =>
      unfold runStages
      split_ifs with hcancelled
      · exact h
      · rw [writesTo_bind]
        exact (writesTo_runStage stage h).mono fun held hheld => ih hheld

theorem writesTo_conclude : (conclude o held).WritesTo NeverCancels fun _ => True := by
  unfold conclude
  split_ifs with hstatus
  · rw [writesTo_bind, writesTo_updateHeld, writesTo_bind]
    refine WritesTo.mono (writesTo_commitActive (by simp) (.inr (show "active" ≠ "cancelled" by decide))
      fun _ => rfl) fun held hheld => ?_
    exact writesTo_raiseAny.mpr fun _ => trivial
  · trivial

theorem writesTo_build (h : held.Active) : (build o held).WritesTo NeverCancels fun _ => True := by
  unfold build
  refine ⟨fun d => ⟨(by simp), id, rfl⟩, ?_⟩
  change (raiseAny _ >>= _).WritesTo _ _
  rw [writesTo_bind, writesTo_raiseAny]
  intro _
  rw [writesTo_bind]
  exact (writesTo_runStages runtimeStages h).mono fun held _ => writesTo_conclude

theorem writes_run : (RuntimeWorker.run o).Writes NeverCancels := by
  unfold RuntimeWorker.run
  refine Writes.bind (writes_query _ _) fun found => ?_
  cases found with
  | none => exact writes_ret ()
  | some row =>
      refine (WritesTo.catching (writesTo_build (HeldRuntime.active_ofRow row)) fun e => ?_).writes
      rw [writesTo_bind]
      exact WritesTo.mono (writesTo_markFailed (by simp) fun _ => rfl) fun _ _ => trivial

end Worker

/-! ## The state of the sessions -/

/-- The copy of a cancel request before its commit. -/
def cancelling (row : BuildRow) : HeldRuntime := ⟨row, { row with status := "cancelled" }⟩

/-- What a cancel request may have before it: everything, its flush and its commit after it
has read a row, or its commit alone. A row that was read as cancelled still is. -/
inductive CancelStage (d : BuildDatabase) : BuildProgram Unit → Prop
  | unread : CancelStage d cancelRuntime
  | flush {row : BuildRow} : d.runtime.isSome → (row.status = "cancelled" → IsCancelled d) →
      CancelStage d (cancelRow row)
  | commit {row : BuildRow} : d.runtime.isSome → (row.status = "cancelled" → IsCancelled d) →
      CancelStage d (commitHeld .cancelled (cancelling row) id >>= fun _ => pure ())
  | done : CancelStage d (.ret ())
  | raised (e : BuildError) : CancelStage d (.raise e)

theorem CancelStage.mono {d d' : BuildDatabase} {p : BuildProgram Unit} (h : CancelStage d p)
    (hcancelled : IsCancelled d → IsCancelled d')
    (hrow : d'.runtime.isSome = d.runtime.isSome) : CancelStage d' p := by
  cases h with
  | unread => exact .unread
  | flush hsome hread => exact .flush (hrow ▸ hsome) fun hstatus => hcancelled (hread hstatus)
  | commit hsome hread => exact .commit (hrow ▸ hsome) fun hstatus => hcancelled (hread hstatus)
  | done => exact .done
  | raised e => exact .raised e

section Statements

variable {d : BuildDatabase} {l : BuildLabel}

theorem CancelStage.select {next : BuildDatabase → BuildProgram Unit}
    (h : CancelStage d (.select l next)) : CancelStage d (next d) := by
  generalize hp : SqlProgram.select l next = p at h
  cases h with
  | unread =>
      obtain ⟨-, rfl⟩ := SqlProgram.select.inj hp
      dsimp only [SqlProgram.andThen]
      cases hrow : d.runtime with
      | none => exact .raised _
      | some row =>
          refine .flush (by rw [hrow]; rfl) fun hstatus => ?_
          rw [IsCancelled, hrow, Option.map_some, hstatus]
  | flush => cases hp
  | commit => cases hp
  | done => cases hp
  | raised => cases hp

theorem CancelStage.lock {rows : BuildDatabase → List Unit}
    {next : BuildDatabase → BuildProgram Unit} (h : CancelStage d (.lock l rows next)) :
    CancelStage d (next d) := by
  generalize hp : SqlProgram.lock l rows next = p at h
  cases h with
  | unread => cases hp
  | flush hsome hread =>
      obtain ⟨-, -, rfl⟩ := SqlProgram.lock.inj hp
      exact .commit hsome hread
  | commit => cases hp
  | done => cases hp
  | raised => cases hp

theorem isCancelled_flushed {row : BuildRow} (hsome : d.runtime.isSome)
    (hread : row.status = "cancelled" → IsCancelled d) :
    IsCancelled { d with runtime := d.runtime.map (cancelling row).flushed } := by
  obtain ⟨stored, hstored⟩ := Option.isSome_iff_exists.mp hsome
  unfold IsCancelled at hread ⊢
  rw [hstored] at hread ⊢
  by_cases hstatus : row.status = "cancelled"
  · rw [Option.map_some, Option.map_some, HeldRuntime.flushed_status_of_eq hstatus.symm]
    exact hread hstatus
  · rw [Option.map_some, Option.map_some, HeldRuntime.flushed_status_of_ne (Ne.symm hstatus)]
    rfl

theorem CancelStage.committed {write : BuildDatabase → BuildDatabase} {next : BuildProgram Unit}
    (h : CancelStage d (.commit l write next)) :
    l = .cancelled ∧ IsCancelled (write d) ∧ (write d).runtime.isSome = d.runtime.isSome ∧
      next = .ret () := by
  generalize hp : SqlProgram.commit l write next = p at h
  cases h with
  | unread => cases hp
  | flush => cases hp
  | commit hsome hread =>
      obtain ⟨rfl, rfl, rfl⟩ := SqlProgram.commit.inj hp
      exact ⟨rfl, isCancelled_flushed hsome hread, Option.isSome_map, rfl⟩
  | done => cases hp
  | raised => cases hp

end Statements

theorem build_cancelled {o : BuildOutcomes} (hstart : o.published .started = none)
    {held : HeldRuntime} (hstatus : held.current.status = "cancelled") :
    RuntimeWorker.build o held =
      (write .chunksDeleted (fun d => { d with chunkRows := 0 }) >>= fun _ => .ret ()) := by
  simp [RuntimeWorker.build, RuntimeWorker.runStages, RuntimeWorker.conclude, runtimeStages,
    raiseAny, hstart, hstatus]

/-- A worker that reads a cancelled row has no status to write. -/
theorem keepsStatus_of_load {o : BuildOutcomes} (hstart : o.published .started = none)
    {l : BuildLabel} {next : BuildDatabase → BuildProgram Unit}
    (hp : RuntimeWorker.run o = .select l next) {d : BuildDatabase} (hd : IsCancelled d) :
    (next d).Writes KeepsStatus := by
  obtain ⟨-, rfl⟩ := SqlProgram.select.inj hp
  unfold IsCancelled at hd
  dsimp only [SqlProgram.andThen]
  cases hrow : d.runtime with
  | none => exact writes_ret ()
  | some row =>
      have hstatus : row.status = "cancelled" := by
        rw [hrow] at hd
        exact Option.some.inj hd
      have hbuild := build_cancelled hstart (show (HeldRuntime.ofRow row).current.status = _ from hstatus)
      simp only [hbuild, catching_write, catching_ret]
      exact writes_commit.mpr ⟨fun _ => rfl, writes_ret ()⟩

/-! ## Runs -/

section Runs

variable {S : Type} [DecidableEq S]

abbrev BuildWorld (S : Type) := World S BuildDatabase Unit BuildLabel BuildError Unit

/-- A cancel request commits only while the worker has not read the row, or when no status of
the worker is left to be written. -/
def CancelsInTime (o : BuildOutcomes) (worker : S) (w : BuildWorld S) (s : S) : Prop :=
  (w.session s).head = some .cancelled → w.session worker = RuntimeWorker.run o ∨
    (w.session worker).Writes KeepsStatus

structure CancelInvariant (o : BuildOutcomes) (worker : S) (w : BuildWorld S) : Prop where
  neverCancels : (w.session worker).Writes NeverCancels
  settled : IsCancelled w.db → w.session worker = RuntimeWorker.run o ∨
    (w.session worker).Writes KeepsStatus
  logged : .cancelled ∈ w.log → IsCancelled w.db
  requests : ∀ s, s ≠ worker → CancelStage w.db (w.session s)

variable {o : BuildOutcomes} {worker : S} {w w' : BuildWorld S}

theorem cancelInvariant_start (d : BuildDatabase) :
    CancelInvariant o worker (start d (buildSessions o worker)) where
  neverCancels := by
    simpa only [start, buildSessions, if_pos] using writes_run
  settled _ := .inl (if_pos rfl)
  logged h := absurd h List.not_mem_nil
  requests s hs := by
    simpa only [start, buildSessions, if_neg hs] using CancelStage.unread

theorem CancelInvariant.worker_step (h : CancelInvariant o worker w)
    (hstart : o.published .started = none) (hstep : w.step worker = some w') :
    CancelInvariant o worker w' := by
  have hothers : ∀ s, s ≠ worker → w'.session s = w.session s := fun s hs =>
    session_step_other hs hstep
  have hnever := writes_step hstep h.neverCancels
  cases stepped hstep with
  | ret hp => exact ⟨h.neverCancels, h.settled, h.logged, h.requests⟩
  | raise hp => exact ⟨h.neverCancels, h.settled, h.logged, h.requests⟩
  | select hp =>
      refine ⟨hnever, fun hd => .inr ?_, h.logged, fun s hs => hothers s hs ▸ h.requests s hs⟩
      simp only [goto, Function.update_self]
      rcases h.settled hd with hunread | hkeeps
      · exact keepsStatus_of_load hstart (hunread ▸ hp) hd
      · rw [hp] at hkeeps
        exact writes_select.mp hkeeps w.db
  | lock hp hfree =>
      refine ⟨hnever, fun hd => .inr ?_, h.logged, fun s hs => hothers s hs ▸ h.requests s hs⟩
      simp only [goto, Function.update_self]
      rcases h.settled hd with hunread | hkeeps
      · rw [hunread] at hp
        cases hp
      · rw [hp] at hkeeps
        exact writes_lock.mp hkeeps w.db
  | @commit l write next hp =>
      have hcommit := h.neverCancels
      rw [hp, writes_commit] at hcommit
      obtain ⟨hlabel, hback, hrow⟩ := hcommit.1 w.db
      have hkeeps : IsCancelled w.db → KeepsStatus l w.db (write w.db) ∧
          next.Writes KeepsStatus := by
        intro hd
        rcases h.settled hd with hunread | hkeeps
        · rw [hunread] at hp
          cases hp
        · rw [hp, writes_commit] at hkeeps
          exact ⟨hkeeps.1 w.db, hkeeps.2⟩
      have hstays : IsCancelled w.db → IsCancelled (write w.db) := fun hd =>
        (hkeeps hd).1.trans hd
      refine ⟨hnever, fun hd => .inr ?_, fun hlog => ?_, fun s hs => ?_⟩
      · simpa only [goto, Function.update_self] using (hkeeps (hback hd)).2
      · rcases List.mem_append.mp hlog with hold | hnew
        · exact hstays (h.logged hold)
        · exact absurd (List.mem_singleton.mp hnew).symm hlabel
      · rw [hothers s hs]
        exact (h.requests s hs).mono hstays hrow

theorem CancelInvariant.request_step (h : CancelInvariant o worker w) {s : S} (hs : s ≠ worker)
    (hok : CancelsInTime o worker w s) (hstep : w.step s = some w') :
    CancelInvariant o worker w' := by
  have hworker : w'.session worker = w.session worker := session_step_other (Ne.symm hs) hstep
  have hnever := writes_step hstep h.neverCancels
  have hothers : ∀ {t}, t ≠ s → w'.session t = w.session t := fun ht =>
    session_step_other ht hstep
  have hstage := h.requests s hs
  cases stepped hstep with
  | ret hp => exact ⟨h.neverCancels, h.settled, h.logged, h.requests⟩
  | raise hp => exact ⟨h.neverCancels, h.settled, h.logged, h.requests⟩
  | select hp =>
      rw [hp] at hstage
      refine ⟨hnever, fun hd => hworker ▸ h.settled hd, h.logged, fun t ht => ?_⟩
      by_cases hts : t = s
      · subst hts
        simpa only [goto, Function.update_self] using hstage.select
      · exact hothers hts ▸ h.requests t ht
  | lock hp hfree =>
      rw [hp] at hstage
      refine ⟨hnever, fun hd => hworker ▸ h.settled hd, h.logged, fun t ht => ?_⟩
      by_cases hts : t = s
      · subst hts
        simpa only [goto, Function.update_self] using hstage.lock
      · exact hothers hts ▸ h.requests t ht
  | commit hp =>
      rw [hp] at hstage
      obtain ⟨rfl, hcancelled, hrow, rfl⟩ := hstage.committed
      have hintime := hok (by rw [hp]; rfl)
      refine ⟨hnever, fun _ => hworker ▸ hintime, fun _ => hcancelled, fun t ht => ?_⟩
      by_cases hts : t = s
      · subst hts
        simpa only [goto, Function.update_self] using CancelStage.done
      · exact hothers hts ▸ (h.requests t ht).mono (fun _ => hcancelled) hrow

theorem CancelInvariant.crash (h : CancelInvariant o worker w) (s : S) (e : BuildError) :
    CancelInvariant o worker (w.crash s e) := by
  have hraised : (w.crash s e).session s = .raise e := Function.update_self s _ _
  have hothers : ∀ {t}, t ≠ s → (w.crash s e).session t = w.session t := fun ht =>
    Function.update_of_ne ht _ _
  refine ⟨writes_crash h.neverCancels, fun hd => ?_, h.logged, fun t ht => ?_⟩
  · by_cases hworker : worker = s
    · subst hworker
      rw [hraised]
      exact .inr (writes_raise e)
    · rw [hothers hworker]
      exact h.settled hd
  · by_cases hts : t = s
    · subst hts
      rw [hraised]
      exact .raised e
    · rw [hothers hts]
      exact h.requests t ht

theorem cancelInvariant_run {d : BuildDatabase} (hstart : o.published .started = none)
    (hrun : Run (CancelsInTime o worker) (start d (buildSessions o worker)) w) :
    CancelInvariant o worker w := by
  induction hrun with
  | start => exact cancelInvariant_start d
  | step s _ hok hstep ih =>
      by_cases hs : s = worker
      · subst hs
        exact ih.worker_step hstart hstep
      · exact ih.request_step hs hok hstep
  | crash s e _ ih => exact ih.crash s e

/-- Once a cancel request has committed, the runtime is cancelled in every state, if all of
them commit in time and the worker does not fail before its first stage. -/
theorem cancelledBuild_stays (o : BuildOutcomes) (worker : S) (d : BuildDatabase)
    (hstart : o.published .started = none)
    (hrun : Run (CancelsInTime o worker) (start d (buildSessions o worker)) w)
    (hcancelled : .cancelled ∈ w.log) : w.db.runtime.map BuildRow.status = some "cancelled" :=
  (cancelInvariant_run hstart hrun).logged hcancelled

end Runs

/-! ## A cancel request during a build -/

def plainBuild : BuildOutcomes := { buildId := "build-1", documents := 1, chunks := 2 }

def queuedRuntime : BuildDatabase := { runtime := some { status := "building" } }

/-- The request commits before the worker reads the row. -/
theorem cancelledBuild_stays_unread :
    let w := (start queuedRuntime (buildSessions plainBuild true)).play
      [false, false, false, true, true, true]
    (w.session true).returned = some () ∧
      w.db.runtime.map BuildRow.status = some "cancelled" := by
  have hin : ∀ w : BuildWorld Bool, (w.session true).head ≠ some .cancelled →
      CancelsInTime plainBuild true w true := fun w hne h => absurd h hne
  refine ⟨rfl, cancelledBuild_stays plainBuild true queuedRuntime rfl (Run.start.play ?_) ?_⟩
  · exact ⟨fun _ => .inl rfl, fun _ => .inl rfl, fun _ => .inl rfl, hin _ (by decide +kernel),
      hin _ (by decide +kernel), hin _ (by decide +kernel), trivial⟩
  · decide +kernel

/-- The request commits between two stages, and the build ends active. -/
theorem cancelledBuild_becomesActive :
    let w := (start queuedRuntime (buildSessions plainBuild true)).play
      (List.replicate 20 true ++ List.replicate 3 false ++ List.replicate 100 true)
    w.log.filter (· ∈ [.cancelled, .concluded]) = [.cancelled, .concluded] ∧
      (w.session true).returned = some () ∧
        w.db.runtime.map BuildRow.status = some "active" := by
  decide +kernel

end Zyntry
