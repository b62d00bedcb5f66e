import Zyntry.ProjectEnvironments
import Zyntry.UniqueRows

/-!
# Runtimes of a project and of a name

A project has at most one runtime, and an owner at most one of each name, only as far as the
lookups of a request still hold when it commits: nothing is locked between the two, and the
table has no unique constraint. A request to create a runtime that is made again is refused
by the check for duplicates before its own runtime is found.
-/

namespace Zyntry

open Python SqlProgram RowTable
open RowTable (sentColumn)

/-- Two runtimes are attached to one project. -/
def SameProject (r r' : RuntimeRow) : Prop := ∃ k, r.projectId = some k ∧ r'.projectId = some k

/-- Two runtimes of one owner have names that the database folds into one. -/
def SameName (N : NameFunctions) (r r' : RuntimeRow) : Prop :=
  r.userId = r'.userId ∧ N.sqlLower r.settings.name = N.sqlLower r'.settings.name

abbrev ProjectWorld (S : Type) := World S ProjectDb Unit ProjectStatement ProjectError Unit

structure UniqueRuntimes (N : NameFunctions) (d : ProjectDb) : Prop where
  attached : d.runtimes.Exclusive SameProject
  named : d.runtimes.Exclusive (SameName N)

theorem SameProject.symm (r r' : RuntimeRow) (h : SameProject r r') : SameProject r' r := by
  obtain ⟨k, hr, hr'⟩ := h
  exact ⟨k, hr', hr⟩

theorem SameName.symm {N : NameFunctions} (r r' : RuntimeRow) (h : SameName N r r') :
    SameName N r' r := ⟨h.1.symm, h.2.symm⟩

/-- What a commit may rely on. The lookups for a new runtime still find nothing, and they
fold its name as the database does; a name or a project that an update sets is that of no
other runtime; an attached runtime finds the project free but for the one it detaches. -/
def KeepsUnique (N : NameFunctions) : List ProjectStatement → ProjectStatement → ProjectDb → Prop
  | _, .created row, d => (d.byOwnerAndName N row.userId row.settings.name).isNone ∧
      (∀ k ∈ row.projectId, (d.byProject k).isNone) ∧
        N.sqlLower row.settings.name = N.lower (stripped row.settings.name)
  | _, .updated loaded new, d => ∀ stored ∈ d.runtimes.get? loaded.id, ∀ r ∈ d.runtimes.rows,
      r.id ≠ loaded.id →
        (new.settings.name ≠ loaded.settings.name → r.userId = stored.userId →
          N.sqlLower r.settings.name ≠ N.sqlLower new.settings.name) ∧
        (new.projectId ≠ loaded.projectId → ∀ k ∈ new.projectId, r.projectId ≠ some k)
  | _, .attached project runtime detached, d => runtime.projectId ≠ some project →
      ∀ r ∈ d.runtimes.rows, r.projectId = some project → r.id ≠ runtime.id →
        ∃ old ∈ detached, r.id = old.id
  | _, _, _ => True

/-! ## What the commits do to the runtimes -/

def RuntimeEffect : ProjectStatement → ProjectDb → ProjectDb → Prop
  | .created row, d, d' => d'.runtimes = d.runtimes.insert row
  | .updated loaded new, d, d' => ∃ set, d'.runtimes = (d.flushRuntime loaded new set).runtimes
  | .attached project runtime detached, d, d' =>
      (∀ old ∈ detached, old.projectId = some project) ∧
        ∃ p : ProjectRow, p.id = project ∧ d'.runtimes = (d.attach p runtime detached).runtimes
  | .switched _ runtime, d, d' => ∃ target,
      d'.runtimes = (d.flushRuntime runtime (runtime.switched target) noJson).runtimes
  | _, d, d' => d'.runtimes = d.runtimes

section Writes

variable {N : NameFunctions} {ipRule : String → Option String}
  {G : ProjectStatement → ProjectDb → ProjectDb → Prop}

@[simp] theorem writesTo_read {β : Type} {f : ProjectDb → β} {post : β → Prop} :
    (read f).WritesTo G post ↔ ∀ d, post (f d) := Iff.rfl

theorem writesTo_ownProject (user : ProjectUser) (id : ℕ) :
    (ownProject user id).WritesTo G fun p => p.id = id := by
  unfold ownProject
  simp only [writesTo_bind, writesTo_read, writesTo_orRaise, writesTo_ensure, pure_eq, writesTo_ret]
  exact fun d p hp _ => get?_some_key hp

theorem writesTo_createProject (user : ProjectUser) (id : ℕ) (body : ProjectCreate) :
    (createProject user id body).WritesTo RuntimeEffect fun _ => True := by
  unfold createProject
  simp only [writesTo_bind, writesTo_read, writesTo_orRaise, writesTo_ensure, writesTo_write,
    pure_eq, writesTo_ret]
  intros
  exact ⟨fun _ => rfl, trivial⟩

theorem writesTo_insertRuntime (row : RuntimeRow) :
    (insertRuntime row).WritesTo RuntimeEffect fun _ => True := by
  unfold insertRuntime
  simp only [writesTo_bind, writesTo_read, writesTo_ensure, writesTo_ofExcept, writesTo_write,
    pure_eq, writesTo_ret]
  intros
  exact ⟨fun _ => rfl, trivial⟩

theorem writesTo_getOrCreate (id : ℕ) (data : RuntimeCreate) (defaultUser : Option ℕ) :
    (getOrCreate N id data defaultUser).WritesTo RuntimeEffect fun _ => True := by
  unfold getOrCreate
  simp only [writesTo_bind, writesTo_orRaise, writesTo_ensure, writesTo_read]
  intro owner _ _ d
  cases d.byOwnerAndName N owner _ with
  | some duplicate => trivial
  | none =>
      cases data.projectId with
      | none => exact writesTo_insertRuntime _
      | some project =>
          simp only [writesTo_bind, writesTo_read]
          intro d'
          cases d'.byProject project with
          | some existing =>
              dsimp only
              split_ifs <;> trivial
          | none => exact writesTo_insertRuntime _

theorem writesTo_updateRuntimeRow (id : ℕ) (data : RuntimeRowPatch) :
    (updateRuntimeRow ipRule id data).WritesTo RuntimeEffect fun _ => True := by
  unfold updateRuntimeRow
  simp only [writesTo_bind, writesTo_read, writesTo_orRaise, writesTo_ofExcept, writesTo_ensure,
    writesTo_write, pure_eq, writesTo_ret]
  intros
  exact ⟨fun _ => ⟨_, rfl⟩, trivial⟩

theorem writesTo_attachableRuntime (user : ProjectUser) (project : ProjectRow)
    (settings : Option Fields) (runtimeId : ℕ) :
    (attachableRuntime user project settings runtimeId).WritesTo G fun _ => True := by
  unfold attachableRuntime
  simp only [writesTo_bind, writesTo_read, writesTo_orRaise, writesTo_ensure, pure_eq, writesTo_ret]
  intros
  trivial

theorem writesTo_updateProject (user : ProjectUser) (id : ℕ) (body : ProjectUpdate)
    (reconciled : Option String) :
    (updateProject user id body reconciled).WritesTo RuntimeEffect fun _ => True := by
  unfold updateProject
  rw [writesTo_bind]
  refine (writesTo_ownProject user id).mono fun project hid => ?_
  simp only [writesTo_bind, writesTo_ensure]
  intro _ _
  cases body.runtimeId with
  | none =>
      simp only [writesTo_bind, writesTo_read, writesTo_ensure, writesTo_write]
      exact fun _ _ => ⟨fun _ => rfl, trivial⟩
  | some requested =>
      cases requested with
      | none => trivial
      | some runtimeId =>
          simp only [writesTo_bind]
          refine (writesTo_attachableRuntime _ _ _ _).mono fun runtime _ => ?_
          simp only [writesTo_read, writesTo_ensure, writesTo_write]
          refine fun d _ _ _ => ⟨fun d' => ⟨fun old hold => ?_, project, hid, rfl⟩, trivial⟩
          obtain ⟨hfound, _⟩ := Option.mem_filter_iff.mp hold
          exact (ProjectDb.byProject_eq_some hfound).1

theorem writesTo_switchProjectEnvironment (user : ProjectUser) (id : ℕ) (target : Environment) :
    (switchProjectEnvironment user id target).WritesTo RuntimeEffect fun _ => True := by
  unfold switchProjectEnvironment
  rw [writesTo_bind]
  refine (writesTo_ownProject user id).mono fun project _ => ?_
  simp only [writesTo_bind, writesTo_read, writesTo_orRaise, writesTo_write]
  exact fun _ _ _ => ⟨fun _ => ⟨target, rfl⟩, trivial⟩

theorem writes_runProjectCall (call : ProjectCall) :
    (runProjectCall N ipRule call).Writes RuntimeEffect := by
  have hignore : ∀ {β : Type} {p : ProjectProgram β},
      p.WritesTo RuntimeEffect (fun _ => True) → p.ignore.Writes RuntimeEffect := by
    intro β p hp
    have hignored : p.ignore.WritesTo RuntimeEffect fun _ => True := writesTo_bind.mpr hp
    exact hignored.writes
  cases call with
  | createProject user id body => exact hignore (writesTo_createProject user id body)
  | updateProject user id body reconciled =>
      exact (writesTo_updateProject user id body reconciled).writes
  | createProjectRuntime user project id data =>
      refine hignore (writesTo_bind.mpr ((writesTo_ownProject user project).mono fun p _ => ?_))
      generalize ({ data with
        projectId := some project, organizationId := some p.organizationId
        userId := some user.id } : RuntimeCreate) = named
      exact writesTo_getOrCreate id named (some user.id)
  | getOrCreate id data defaultUser => exact hignore (writesTo_getOrCreate id data defaultUser)
  | updateRuntime id data => exact hignore (writesTo_updateRuntimeRow id data)
  | switchEnvironment user id target =>
      exact (writesTo_switchProjectEnvironment user id target).writes

end Writes

/-! ## One commit -/

section Commits

variable {N : NameFunctions} {d d' : ProjectDb}

theorem UniqueRuntimes.congr (hd : UniqueRuntimes N d) (h : d'.runtimes = d.runtimes) :
    UniqueRuntimes N d' := by
  constructor
  · rw [h]
    exact hd.attached
  · rw [h]
    exact hd.named

theorem UniqueRuntimes.insert (hd : UniqueRuntimes N d) {row : RuntimeRow}
    (hnew : (d.byOwnerAndName N row.userId row.settings.name).isNone ∧
      (∀ k ∈ row.projectId, (d.byProject k).isNone) ∧
        N.sqlLower row.settings.name = N.lower (stripped row.settings.name)) :
    UniqueRuntimes N { d with runtimes := d.runtimes.insert row } := by
  obtain ⟨hname, hproject, hfold⟩ := hnew
  rw [Option.isNone_iff_eq_none] at hname
  constructor
  · apply hd.attached.insert SameProject.symm
    rintro r hr ⟨k, hrk, hrow⟩
    have hfree := List.find?_eq_none.mp (Option.isNone_iff_eq_none.mp (hproject k hrow)) r hr
    simp [hrk] at hfree
  · apply hd.named.insert SameName.symm
    rintro r hr ⟨howner, hsame⟩
    have hfree := List.find?_eq_none.mp hname r hr
    rw [decide_eq_true_eq] at hfree
    exact hfree ⟨howner, hsame.trans hfold⟩

/-- A flush that sends no name and no project of another runtime. -/
theorem UniqueRuntimes.flush (hd : UniqueRuntimes N d) {loaded new : RuntimeRow}
    {set : JsonColumns}
    (hname : new.settings.name ≠ loaded.settings.name →
      ∀ stored ∈ d.runtimes.get? loaded.id, ∀ r ∈ d.runtimes.rows, r.id ≠ loaded.id →
        r.userId = stored.userId → N.sqlLower r.settings.name ≠ N.sqlLower new.settings.name)
    (hproject : new.projectId ≠ loaded.projectId →
      ∀ stored ∈ d.runtimes.get? loaded.id, ∀ r ∈ d.runtimes.rows, r.id ≠ loaded.id →
        ∀ k ∈ new.projectId, r.projectId ≠ some k) :
    UniqueRuntimes N (d.flushRuntime loaded new set) := by
  constructor
  · by_cases hsent : new.projectId = loaded.projectId
    · refine hd.attached.update_of_imp SameProject.symm (RuntimeRow.flushed_id _ _ _) ?_
      rintro stored - r ⟨k, hr, hstored⟩
      refine ⟨k, hr, ?_⟩
      simpa only [RuntimeRow.flushed, sentColumn, if_pos hsent] using hstored
    · refine hd.attached.update SameProject.symm (RuntimeRow.flushed_id _ _ _) ?_
      rintro stored hrow r hr hne ⟨k, hrk, hstored⟩
      simp only [RuntimeRow.flushed, sentColumn, if_neg hsent] at hstored
      exact hproject hsent stored hrow r hr hne k hstored hrk
  · by_cases hsent : new.settings.name = loaded.settings.name
    · refine hd.named.update_of_imp SameName.symm (RuntimeRow.flushed_id _ _ _) ?_
      rintro stored - r ⟨howner, hsame⟩
      refine ⟨howner, ?_⟩
      simpa only [RuntimeRow.flushed, StoredRuntime.flushed, sentColumn, if_pos hsent] using hsame
    · refine hd.named.update SameName.symm (RuntimeRow.flushed_id _ _ _) ?_
      rintro stored hstored r hr hne ⟨howner, hsame⟩
      simp only [RuntimeRow.flushed, StoredRuntime.flushed, sentColumn, if_neg hsent] at hsame
      exact hname hsent stored hstored r hr hne howner hsame

theorem UniqueRuntimes.attach (hd : UniqueRuntimes N d) {p : ProjectRow} {runtime : RuntimeRow}
    {detached : Option RuntimeRow} (hdetached : ∀ old ∈ detached, old.projectId = some p.id)
    (hfree : runtime.projectId ≠ some p.id → ∀ r ∈ d.runtimes.rows, r.projectId = some p.id →
      r.id ≠ runtime.id → ∃ old ∈ detached, r.id = old.id) :
    UniqueRuntimes N (d.attach p runtime detached) := by
  cases detached with
  | none =>
      refine hd.flush (fun hname => absurd rfl hname) ?_
      rintro hsent - - r hr hne k hk hrk
      cases hk
      obtain ⟨old, hold, -⟩ := hfree (Ne.symm hsent) r hr hrk hne
      cases hold
  | some old =>
      have hdetach : UniqueRuntimes N
          (d.flushRuntime old { old with projectId := none } noJson) := by
        refine hd.flush (fun hname => absurd rfl hname) ?_
        rintro - - - r - - k hk
        cases hk
      rw [ProjectDb.attach_some]
      refine hdetach.flush (fun hname => absurd rfl hname) ?_
      rintro hsent - - r hr hne k hk hrk
      cases hk
      rcases mem_rows_update (RuntimeRow.flushed_id old _ noJson) hr with
        ⟨hmem, hother⟩ | ⟨stored, -, rfl⟩
      · obtain ⟨old', hold', hid⟩ := hfree (Ne.symm hsent) r hmem hrk hne
        cases hold'
        exact hother hid
      · have hnone : none ≠ old.projectId := by
          rw [hdetached old rfl]
          exact (Option.some_ne_none p.id).symm
        simp only [RuntimeRow.flushed, sentColumn, if_neg hnone] at hrk
        cases hrk

theorem UniqueRuntimes.commit (hd : UniqueRuntimes N d) {log : List ProjectStatement}
    {l : ProjectStatement} (hnew : KeepsUnique N log l d) (heffect : RuntimeEffect l d d') :
    UniqueRuntimes N d' := by
  cases l with
  | read => exact hd.congr heffect
  | createdProject project => exact hd.congr heffect
  | savedProject project => exact hd.congr heffect
  | created row => exact (hd.insert hnew).congr heffect
  | updated loaded new =>
      obtain ⟨set, heffect⟩ := heffect
      have hflush : UniqueRuntimes N (d.flushRuntime loaded new set) := by
        apply hd.flush
        · intro hname stored hstored r hr hne
          exact (hnew stored hstored r hr hne).1 hname
        · intro hproject stored hstored r hr hne
          exact (hnew stored hstored r hr hne).2 hproject
      exact hflush.congr heffect
  | attached project runtime detached =>
      obtain ⟨hdetached, p, rfl, heffect⟩ := heffect
      exact (hd.attach hdetached hnew).congr heffect
  | switched project runtime =>
      obtain ⟨target, heffect⟩ := heffect
      have hflush : UniqueRuntimes N
          (d.flushRuntime runtime (runtime.switched target) noJson) := by
        apply hd.flush
        · exact fun hname => absurd rfl hname
        · exact fun hproject => absurd rfl hproject
      exact hflush.congr heffect

/-- No lookup is overtaken: the runtimes are unique in every state of an interleaving. -/
theorem uniqueRuntimes_run {S : Type} [DecidableEq S] {ipRule : String → Option String}
    {calls : S → ProjectCall} (hd : UniqueRuntimes N d) {w : ProjectWorld S}
    (hrun : World.Run (World.Commits (KeepsUnique N))
      (World.start d fun s => runProjectCall N ipRule (calls s)) w) : UniqueRuntimes N w.db := by
  have hhistory := hrun.history fun s => writes_runProjectCall (N := N) (calls s)
  refine hhistory.invariant (I := fun _ d => UniqueRuntimes N d) hd ?_
  rintro log l d d' hd ⟨hnew, heffect⟩
  exact hd.commit hnew heffect

end Commits

/-! ## The same request again -/

/-- The name that a request asks for. -/
def RuntimeCreate.runtimeName (data : RuntimeCreate) : String :=
  stripped (if data.settings.name = "" then "Default Runtime" else data.settings.name)

/-- Two requests for one runtime: the owner, the project and the name are the same. -/
structure SameRequest (data data' : RuntimeCreate) (defaultUser defaultUser' : Option ℕ) : Prop where
  owner : data'.userId.or defaultUser' = data.userId.or defaultUser
  project : data'.projectId = data.projectId
  name : data'.runtimeName = data.runtimeName

section Repeated

variable {N : NameFunctions} {d d' : ProjectDb} {data data' : RuntimeCreate}
  {defaultUser defaultUser' : Option ℕ} {id id' : ℕ} {row row' : RuntimeRow}

/-- What a request has found when it creates the runtime that it returns. -/
structure Created (N : NameFunctions) (data : RuntimeCreate) (defaultUser : Option ℕ)
    (d : ProjectDb) (row : RuntimeRow) (d' : ProjectDb) : Prop where
  owner : data.userId.or defaultUser = some row.userId
  name : row.settings.name = data.runtimeName
  project : row.projectId = data.projectId
  nonempty : data.runtimeName ≠ ""
  noName : d.byOwnerAndName N row.userId data.runtimeName = none
  noProject : ∀ k ∈ data.projectId, d.byProject k = none
  stored : d'.runtimes.rows = d.runtimes.rows ++ [row]

theorem keeps_insertRuntime_row {I : ProjectDb → Prop} {post : RuntimeRow → ProjectDb → Prop}
    (h : d.runtimes.get? row.id = none →
      I { d with runtimes := d.runtimes.insert row } ∧
        post row { d with runtimes := d.runtimes.insert row }) :
    (insertRuntime row).Keeps I d post := by
  unfold insertRuntime
  simp only [keeps_bind, keeps_read, keeps_ensure, keeps_ofExcept, keeps_write, pure_eq,
    keeps_ret, decide_eq_true_eq]
  rintro ⟨hnone, _⟩ _ _
  exact h hnone

theorem exec_insertRuntime (hexec : ((insertRuntime row).exec d).1 = .ok row') :
    d.runtimes.get? row'.id = none := by
  have hkeeps : (insertRuntime row).Keeps (fun _ => True) d fun r _ =>
      d.runtimes.get? r.id = none :=
    keeps_insertRuntime_row fun hnone => ⟨trivial, hnone⟩
  exact hkeeps.exec (Prod.ext hexec rfl)

theorem getOrCreate_created (hexec : (getOrCreate N id data defaultUser).exec d = (.ok row, d'))
    (hnew : d.runtimes.get? row.id = none) : Created N data defaultUser d row d' := by
  have hkeeps : (getOrCreate N id data defaultUser).Keeps (fun _ => True) d fun row d' =>
      d.runtimes.get? row.id = none → Created N data defaultUser d row d' := by
    unfold getOrCreate
    simp only [keeps_bind, keeps_orRaise, keeps_ensure, keeps_read]
    intro owner howner hname
    change data.runtimeName ≠ "" at hname
    generalize hasked : stripped (if data.settings.name = "" then "Default Runtime" else
      data.settings.name) = asked
    obtain rfl : data.runtimeName = asked := hasked
    cases hfound : d.byOwnerAndName N owner data.runtimeName with
    | some duplicate => trivial
    | none =>
        cases hproject : data.projectId with
        | none =>
            refine keeps_insertRuntime_row fun hnone => ⟨trivial, fun _ => ?_⟩
            exact ⟨howner, rfl, rfl, hname, hfound, by simp [hproject], rows_insert hnone⟩
        | some project =>
            simp only [keeps_bind, keeps_read]
            cases hattached : d.byProject project with
            | some existing =>
                have hstored := (ProjectDb.byProject_eq_some hattached).2
                dsimp only
                split_ifs
                · rw [pure_eq, keeps_ret]
                  intro hnone
                  exact absurd (hstored.symm.trans hnone) (Option.some_ne_none existing)
                · trivial
            | none =>
                refine keeps_insertRuntime_row fun hnone => ⟨trivial, fun _ => ?_⟩
                refine ⟨howner, rfl, rfl, hname, hfound, fun k hk => ?_, rows_insert hnone⟩
                cases hproject.symm.trans hk
                exact hattached
  exact hkeeps.exec hexec hnew

theorem Created.byOwnerAndName (h : Created N data defaultUser d row d') :
    d'.byOwnerAndName N row.userId data.runtimeName =
      if N.sqlLower row.settings.name = N.lower (stripped row.settings.name) then some row
      else none := by
  have hnone := h.noName
  unfold ProjectDb.byOwnerAndName at hnone ⊢
  rw [h.stored, List.find?_append, hnone, ← h.name]
  split_ifs with hfold <;> simp [hfold]

theorem Created.byProject (h : Created N data defaultUser d row d') {project : ℕ}
    (hproject : data.projectId = some project) : d'.byProject project = some row := by
  have hnone := h.noProject project hproject
  unfold ProjectDb.byProject at hnone ⊢
  rw [h.stored, List.find?_append, hnone]
  simp [h.project, hproject]

/-- The repeated request finds its own runtime only by the project, after the lookup of the
name has missed it. -/
theorem getOrCreate_again (hexec : (getOrCreate N id data defaultUser).exec d = (.ok row, d'))
    (hnew : d.runtimes.get? row.id = none)
    (hsame : SameRequest data data' defaultUser defaultUser') :
    ((getOrCreate N id' data' defaultUser').exec d').1 = .ok row ↔
      data.projectId ≠ none ∧
        N.sqlLower row.settings.name ≠ N.lower (stripped row.settings.name) := by
  have hcreated := getOrCreate_created hexec hnew
  have hname : stripped (if data'.settings.name = "" then "Default Runtime" else
      data'.settings.name) = data.runtimeName := hsame.name
  have hrow := hcreated.byOwnerAndName
  unfold getOrCreate
  simp only [hsame.owner, hcreated.owner, orRaise, ret_bind, hname, ensure,
    if_pos hcreated.nonempty, hsame.project, read, query, select_bind, exec, hrow]
  by_cases hfold : N.sqlLower row.settings.name = N.lower (stripped row.settings.name)
  · rw [if_pos hfold]
    refine iff_of_false (fun hagain => ?_) fun h => h.2 hfold
    have herror : Except.error (nameExists row) = Except.ok row := hagain
    cases herror
  · rw [if_neg hfold]
    cases hproject : data.projectId with
    | none =>
        refine iff_of_false (fun hagain => ?_) (fun h => h.1 rfl)
        have hmem : row ∈ d'.runtimes.rows := by simp [hcreated.stored]
        exact get?_none_ne (exec_insertRuntime hagain) row hmem rfl
    | some project =>
        simp [exec, hcreated.byProject hproject, ← hcreated.name, hfold]

end Repeated

/-- The runtimes are unique in every state of an interleaving that overtakes no lookup. A
request that is made again returns the runtime that it created if it names a project and the
database folds the name otherwise than Python does. -/
theorem runtimes_unique (N : NameFunctions) (ipRule : String → Option String) {S : Type}
    [DecidableEq S] (calls : S → ProjectCall) (d : ProjectDb) (hd : UniqueRuntimes N d) :
    (∀ w : ProjectWorld S, World.Run (World.Commits (KeepsUnique N))
      (World.start d fun s => runProjectCall N ipRule (calls s)) w → UniqueRuntimes N w.db) ∧
    ∀ id id' data data' defaultUser defaultUser' row d₁,
      (getOrCreate N id data defaultUser).exec d = (.ok row, d₁) →
      d.runtimes.get? row.id = none → SameRequest data data' defaultUser defaultUser' →
      (((getOrCreate N id' data' defaultUser').exec d₁).1 = .ok row ↔
        data.projectId ≠ none ∧
          N.sqlLower row.settings.name ≠ N.lower (stripped row.settings.name)) :=
  ⟨fun _ hrun => uniqueRuntimes_run hd hrun,
    fun _ _ _ _ _ _ _ _ hexec hnew hsame => getOrCreate_again hexec hnew hsame⟩

/-! ## Two requests for one project -/

instance KeepsUnique.decidable (N : NameFunctions) (log : List ProjectStatement) :
    (l : ProjectStatement) → (d : ProjectDb) → Decidable (KeepsUnique N log l d)
  | .created row, d => inferInstanceAs (Decidable
      ((d.byOwnerAndName N row.userId row.settings.name).isNone ∧
        (∀ k ∈ row.projectId, (d.byProject k).isNone) ∧
          N.sqlLower row.settings.name = N.lower (stripped row.settings.name)))
  | .updated loaded new, d => inferInstanceAs (Decidable
      (∀ stored ∈ d.runtimes.get? loaded.id, ∀ r ∈ d.runtimes.rows, r.id ≠ loaded.id →
        (new.settings.name ≠ loaded.settings.name → r.userId = stored.userId →
          N.sqlLower r.settings.name ≠ N.sqlLower new.settings.name) ∧
        (new.projectId ≠ loaded.projectId → ∀ k ∈ new.projectId, r.projectId ≠ some k)))
  | .attached project runtime detached, d => inferInstanceAs (Decidable
      (runtime.projectId ≠ some project →
        ∀ r ∈ d.runtimes.rows, r.projectId = some project → r.id ≠ runtime.id →
          ∃ old ∈ detached, r.id = old.id))
  | .read, _ => .isTrue trivial
  | .createdProject _, _ => .isTrue trivial
  | .savedProject _, _ => .isTrue trivial
  | .switched _ _, _ => .isTrue trivial

/-- `func.lower` under the C collation folds ASCII letters only. -/
def collatedNames : NameFunctions where
  sqlLower := String.map Char.toLower
  lower := String.map fun c => if c = 'É' then 'é' else c.toLower
  casefold := String.map fun c => if c = 'É' then 'é' else c.toLower

def shopProject : ProjectDb :=
  { emptyProjects with
    projects := RowTable.single { id := 1, organizationId := 1, name := "Shop", slug := "shop" } }

theorem uniqueRuntimes_shopProject (N : NameFunctions) : UniqueRuntimes N shopProject :=
  ⟨exclusive_empty, exclusive_empty⟩

def shopRuntime (name : String) : RuntimeCreate := { projectId := some 1, settings := { name } }

/-- A request for the project and one for another runtime of its owner. -/
def distinctRequests : Bool → ProjectCall
  | true => .getOrCreate 1 (shopRuntime "Main") (some 1)
  | false => .getOrCreate 2 { settings := { name := "Other" } } (some 1)

theorem runtimes_unique_distinct :
    let w := (World.start shopProject fun s =>
      runProjectCall collatedNames (fun _ => none) (distinctRequests s)).play
        [true, false, true, false, true, false, true]
    let request := getOrCreate collatedNames 1 (shopRuntime "École") (some 1)
    (w.db.runtimes.rows.map (·.projectId) = [none, some 1] ∧ UniqueRuntimes collatedNames w.db) ∧
      ∃ row, (request.exec shopProject).1 = .ok row ∧
        (request.exec (request.exec shopProject).2).1 = .ok row := by
  intro w request
  obtain ⟨hruns, hagain⟩ := runtimes_unique collatedNames (fun _ => none) distinctRequests
    shopProject (uniqueRuntimes_shopProject _)
  have hfollows : World.Follows (World.Commits (KeepsUnique collatedNames))
      [true, false, true, false, true, false, true]
      (World.start shopProject fun s =>
        runProjectCall collatedNames (fun _ => none) (distinctRequests s)) := by
    decide +kernel
  refine ⟨⟨by decide +kernel, hruns w (World.Run.start.play hfollows)⟩, ?_⟩
  have hname : (request.exec shopProject).1.toOption.map (·.settings.name) = some "École" := by
    decide +kernel
  obtain ⟨row, hrow, hrowName⟩ := Option.map_eq_some_iff.mp hname
  have hexec := exec_of_toOption hrow
  refine ⟨row, congrArg Prod.fst hexec, ?_⟩
  apply (hagain 1 1 _ _ _ _ row _ hexec rfl ⟨rfl, rfl, rfl⟩).mpr
  rw [hrowName]
  decide +kernel

/-- Two requests that have both looked before either commits attach two runtimes of one name
to the project, and a request that is made again is refused. -/
theorem runtimes_duplicated :
    let request : Bool → ProjectCall := fun s =>
      .getOrCreate (if s then 1 else 2) (shopRuntime "Main") (some 1)
    let run := runProjectCall plainNames fun _ => none
    let w := (World.start shopProject fun s => run (request s)).play
      (List.replicate 3 true ++ List.replicate 4 false ++ [true])
    ¬w.db.runtimes.Exclusive SameProject ∧ ¬w.db.runtimes.Exclusive (SameName plainNames) ∧
      ((getOrCreate plainNames 1 (shopRuntime "Main") (some 1)).exec
        (execAll run [request true] shopProject)).1.toOption.isNone = true := by
  intro request run w
  have hids : ∃ r ∈ w.db.runtimes.rows, ∃ r' ∈ w.db.runtimes.rows,
      (r.projectId = some 1 ∧ r'.projectId = some 1) ∧
        (r.userId = r'.userId ∧
          plainNames.sqlLower r.settings.name = plainNames.sqlLower r'.settings.name) ∧
        r.id ≠ r'.id := by
    decide +kernel
  obtain ⟨r, hr, r', hr', hproject, hname, hne⟩ := hids
  refine ⟨fun h => hne (h r hr r' hr' ⟨1, hproject⟩), fun h => hne (h r hr r' hr' hname), ?_⟩
  decide +kernel

end Zyntry
