import Zyntry.ProjectRuntimes

/-!
# Environments of projects and runtimes

A project names its environment in its settings, and a runtime has it in a column. Every
runtime that is attached to a project has the environment that the project names, as long as
no request changes one of the two behind the other's back: the condition says for each
request what it must bring.
-/

namespace Zyntry

open Python SqlProgram RowTable

/-- The runtime has the environment that the project names, if it names one. -/
def EnvironmentsMatch (r : RuntimeRow) (p : ProjectRow) : Prop :=
  environmentAgrees p.settings r.settings.environment = true

/-- Every attached runtime has the environment of its project. -/
def EnvironmentsAgree (d : ProjectDb) : Prop :=
  d.runtimes.Refers RuntimeRow.projectId EnvironmentsMatch d.projects

inductive ProjectCall where
  | createProject (user : ProjectUser) (id : ℕ) (body : ProjectCreate)
  | updateProject (user : ProjectUser) (id : ℕ) (body : ProjectUpdate)
      (reconciled : Option String)
  | createProjectRuntime (user : ProjectUser) (project id : ℕ) (data : RuntimeCreate)
  | getOrCreate (id : ℕ) (data : RuntimeCreate) (defaultUser : Option ℕ)
  | updateRuntime (id : ℕ) (data : RuntimeRowPatch)
  | switchEnvironment (user : ProjectUser) (id : ℕ) (target : Environment)

def runProjectCall (N : NameFunctions) (ipRule : String → Option String) :
    ProjectCall → ProjectProgram Unit
  | .createProject user id body => (createProject user id body).ignore
  | .updateProject user id body reconciled => updateProject user id body reconciled
  | .createProjectRuntime user project id data => (createProjectRuntime N user project id data).ignore
  | .getOrCreate id data defaultUser => (getOrCreate N id data defaultUser).ignore
  | .updateRuntime id data => (updateRuntimeRow ipRule id data).ignore
  | .switchEnvironment user id target => switchProjectEnvironment user id target

/-! ## What each request must bring -/

/-- The runtime is not the one that is found for the project. -/
def NotFirst (d : ProjectDb) (project : ℕ) (r : RuntimeRow) : Prop :=
  ∀ first ∈ d.byProject project, first.id ≠ r.id

/-- A runtime of the project that an update neither checks nor detaches. -/
def StaysAttached (d : ProjectDb) (project : ℕ) (body : ProjectUpdate) (r : RuntimeRow) : Prop :=
  r.projectId = some project ∧
    ∀ requested ∈ body.runtimeId.getD none, NotFirst d project r ∧ r.id ≠ requested

/-- The environment of a new runtime. -/
def RuntimeCreate.environment (data : RuntimeCreate) : String :=
  if data.settings.environment = "" then "development" else data.settings.environment

/-- A runtime that is created has the environment of its project. -/
def CreatesMatching (d : ProjectDb) (project : Option ℕ) (data : RuntimeCreate) : Prop :=
  ∀ k ∈ project, (d.byProject k).isNone → ∀ p ∈ d.projects.get? k,
    environmentAgrees p.settings data.environment = true

def KeepsEnvironments (d : ProjectDb) : ProjectCall → Prop
  | .createProject _ _ _ => True
  | .updateProject _ id body _ => ∀ p ∈ d.projects.get? id, ∀ settings ∈ body.newSettings p.settings,
      ∀ r ∈ d.runtimes.rows, StaysAttached d id body r →
        environmentAgrees settings r.settings.environment = true
  | .createProjectRuntime _ project _ data => CreatesMatching d (some project) data
  | .getOrCreate _ data _ => CreatesMatching d data.projectId data
  | .updateRuntime id data => ∀ r ∈ d.runtimes.get? id, ∀ k ∈ data.projectId.getD r.projectId,
      ∀ p ∈ d.projects.get? k,
        ∀ environment ∈ data.environment.getD (some r.settings.environment),
          environmentAgrees p.settings environment = true
  | .switchEnvironment _ id target => ∀ r ∈ d.runtimes.rows, r.projectId = some id →
      NotFirst d id r → r.settings.environment = target.value

instance NotFirst.decidable (d : ProjectDb) (project : ℕ) (r : RuntimeRow) :
    Decidable (NotFirst d project r) :=
  inferInstanceAs (Decidable (∀ first ∈ d.byProject project, first.id ≠ r.id))

instance StaysAttached.decidable (d : ProjectDb) (project : ℕ) (body : ProjectUpdate)
    (r : RuntimeRow) : Decidable (StaysAttached d project body r) :=
  inferInstanceAs (Decidable (r.projectId = some project ∧
    ∀ requested ∈ body.runtimeId.getD none, NotFirst d project r ∧ r.id ≠ requested))

instance CreatesMatching.decidable (d : ProjectDb) (project : Option ℕ) (data : RuntimeCreate) :
    Decidable (CreatesMatching d project data) :=
  inferInstanceAs (Decidable (∀ k ∈ project, (d.byProject k).isNone → ∀ p ∈ d.projects.get? k,
    environmentAgrees p.settings data.environment = true))

/-! ## Lookups -/

theorem ProjectDb.byProject_eq_some {d : ProjectDb} {project : ℕ} {r : RuntimeRow}
    (h : d.byProject project = some r) :
    r.projectId = some project ∧ d.runtimes.get? r.id = some r :=
  ⟨by simpa using List.find?_some h, get?_of_mem (List.mem_of_find?_eq_some h)⟩

@[simp] theorem keeps_read {β : Type} {I : ProjectDb → Prop} {f : ProjectDb → β} {d : ProjectDb}
    {post : β → ProjectDb → Prop} : (read f).Keeps I d post ↔ post (f d) d := Iff.rfl

theorem environmentAgrees_set (settings : Fields) (environment : String) :
    environmentAgrees (Json.set "environment" (.str environment) settings) environment = true := by
  simp [environmentAgrees, Json.lookup_set_self]

theorem EnvironmentsAgree.forall_rows {d : ProjectDb} (hd : EnvironmentsAgree d) :
    ∀ r ∈ d.runtimes.rows, ∀ k ∈ r.projectId, ∀ p ∈ d.projects.get? k,
      environmentAgrees p.settings r.settings.environment = true := by
  intro r hr k hk p hp
  obtain ⟨p', hp', hmatch⟩ := hd r.id r (get?_of_mem hr) k hk
  obtain rfl : p' = p := Option.some.inj (hp'.symm.trans hp)
  exact hmatch

/-! ## One request -/

variable {N : NameFunctions} {ipRule : String → Option String} {d : ProjectDb}

theorem keeps_ownProject {I : ProjectDb → Prop} {user : ProjectUser} {id : ℕ}
    {post : ProjectRow → ProjectDb → Prop}
    (h : ∀ p, d.projects.get? id = some p → post p d) : (ownProject user id).Keeps I d post := by
  unfold ownProject
  simp only [keeps_bind, keeps_read, keeps_orRaise, keeps_ensure, pure_eq, keeps_ret]
  exact fun p hp _ => h p hp

theorem keeps_createProject (hd : EnvironmentsAgree d) (user : ProjectUser) (id : ℕ)
    (body : ProjectCreate) :
    (createProject user id body).Keeps EnvironmentsAgree d fun _ _ => True := by
  unfold createProject
  simp only [keeps_bind, keeps_read, keeps_orRaise, keeps_ensure, keeps_write, pure_eq, keeps_ret]
  intro _ _ _ _ _ _ _
  exact ⟨hd.insert_target _, trivial⟩

theorem keeps_insertRuntime (hd : EnvironmentsAgree d) {row : RuntimeRow}
    (hrow : ∀ k ∈ row.projectId, ∀ p ∈ d.projects.get? k, EnvironmentsMatch row p) :
    (insertRuntime row).Keeps EnvironmentsAgree d fun _ _ => True := by
  unfold insertRuntime
  simp only [keeps_bind, keeps_read, keeps_ensure, keeps_ofExcept, keeps_write, pure_eq,
    keeps_ret, decide_eq_true_eq]
  rintro ⟨_, hproject⟩ _ _
  refine ⟨hd.insert_row fun k hk => ?_, trivial⟩
  obtain ⟨p, hp⟩ := Option.isSome_iff_exists.mp (hproject k hk)
  exact ⟨p, hp, hrow k hk p hp⟩

theorem keeps_getOrCreate (hd : EnvironmentsAgree d) {id : ℕ} {data : RuntimeCreate}
    {defaultUser : Option ℕ} (hnew : CreatesMatching d data.projectId data) :
    (getOrCreate N id data defaultUser).Keeps EnvironmentsAgree d fun _ _ => True := by
  unfold getOrCreate
  simp only [keeps_bind, keeps_orRaise, keeps_ensure, keeps_read]
  intro owner _ _
  cases d.byOwnerAndName N owner _ with
  | some duplicate => trivial
  | none =>
      cases hproject : data.projectId with
      | none =>
          refine keeps_insertRuntime hd fun k hk => ?_
          simp [RuntimeCreate.row, hproject] at hk
      | some project =>
          simp only [keeps_bind, keeps_read]
          cases hattached : d.byProject project with
          | some existing =>
              dsimp only
              split_ifs <;> trivial
          | none =>
              refine keeps_insertRuntime hd fun k hk p hp => ?_
              obtain rfl : project = k := by simpa [RuntimeCreate.row, hproject] using hk
              exact hnew project hproject (Option.isNone_iff_eq_none.mpr hattached) p hp

theorem keeps_createProjectRuntime (hd : EnvironmentsAgree d) {user : ProjectUser}
    {project id : ℕ} {data : RuntimeCreate} (hnew : CreatesMatching d (some project) data) :
    (createProjectRuntime N user project id data).Keeps EnvironmentsAgree d fun _ _ => True := by
  unfold createProjectRuntime
  rw [keeps_bind]
  refine keeps_ownProject fun p _ => ?_
  generalize hnamed : ({ data with
    projectId := some project, organizationId := some p.organizationId
    userId := some user.id } : RuntimeCreate) = named
  have hcreates : CreatesMatching d named.projectId named := hnamed ▸ hnew
  exact keeps_getOrCreate hd hcreates

theorem RuntimeRow.flushed_loaded_projectId (loaded new : RuntimeRow) (set : JsonColumns) :
    (loaded.flushed new set loaded).projectId = new.projectId := sentColumn_loaded _ _

theorem RuntimeRow.flushed_loaded_environment (loaded new : RuntimeRow) (set : JsonColumns) :
    (loaded.flushed new set loaded).settings.environment = new.settings.environment :=
  sentColumn_loaded _ _

theorem keeps_updateRuntimeRow (hd : EnvironmentsAgree d) {id : ℕ} {data : RuntimeRowPatch}
    (hnew : KeepsEnvironments d (.updateRuntime id data)) :
    (updateRuntimeRow ipRule id data).Keeps EnvironmentsAgree d fun _ _ => True := by
  unfold updateRuntimeRow
  simp only [keeps_bind, keeps_read, keeps_orRaise, keeps_ofExcept, keeps_ensure, keeps_write,
    pure_eq, keeps_ret, decide_eq_true_eq, and_true]
  intro loaded hloaded settings hsettings hproject
  have hid : loaded.id = id := get?_some_key hloaded
  obtain ⟨_, henvironment⟩ := updateRuntime_names (mapError_eq_ok.mp hsettings)
  refine Refers.update_row hd (RuntimeRow.flushed_id _ _ _) fun r hr k hk => ?_
  obtain rfl : loaded = r := Option.some.inj (hloaded.symm.trans (hid ▸ hr))
  rw [RuntimeRow.flushed_loaded_projectId] at hk
  have hexists : ∃ p, d.projects.get? k = some p := by
    rcases hproject with hsame | hhas
    · obtain ⟨p, hp, -⟩ := hd id loaded hloaded k (hsame ▸ hk)
      exact ⟨p, hp⟩
    · exact Option.isSome_iff_exists.mp (hhas k hk)
  obtain ⟨p, hp⟩ := hexists
  refine ⟨p, hp, ?_⟩
  unfold EnvironmentsMatch
  rw [RuntimeRow.flushed_loaded_environment]
  exact hnew loaded hloaded k hk p hp _ henvironment

theorem keeps_switchProjectEnvironment (hd : EnvironmentsAgree d) {user : ProjectUser} {id : ℕ}
    {target : Environment} (hnew : KeepsEnvironments d (.switchEnvironment user id target)) :
    (switchProjectEnvironment user id target).Keeps EnvironmentsAgree d fun _ _ => True := by
  unfold switchProjectEnvironment
  rw [keeps_bind]
  refine keeps_ownProject fun project hproject => ?_
  simp only [keeps_bind, keeps_read, keeps_orRaise, keeps_write, and_true]
  intro runtime hruntime
  obtain ⟨hattached, hget⟩ := ProjectDb.byProject_eq_some hruntime
  refine Refers.update_both hd (RuntimeRow.flushed_id _ _ _) (ProjectRow.withSettings_id _) ?_ ?_
  · intro r hr x hx
    obtain rfl : runtime = r := Option.some.inj (hget.symm.trans hr)
    rw [RuntimeRow.flushed_loaded_projectId] at hx
    obtain rfl : id = x := Option.some.inj (hattached.symm.trans hx)
    refine ⟨_, by rw [get?_update_self, hproject]; rfl, ?_⟩
    unfold EnvironmentsMatch
    rw [RuntimeRow.flushed_loaded_environment]
    exact environmentAgrees_set _ _
  · intro i r hi hr hname p _ _
    have hother : r.settings.environment = target.value := by
      refine hnew r (get?_some_mem hr) hname fun first hfirst heq => hi ?_
      obtain rfl : runtime = first := Option.some.inj (hruntime.symm.trans hfirst)
      exact (get?_some_key hr).symm.trans heq.symm
    unfold EnvironmentsMatch
    rw [hother]
    exact environmentAgrees_set _ _

/-! ## The update of a project -/

theorem ProjectUpdate.apply_settings (body : ProjectUpdate) (settings : Option Fields)
    (p : ProjectRow) : (body.apply settings p).settings = settings.getD p.settings := rfl

/-- An update without a runtime, for the runtimes that are attached. -/
theorem EnvironmentsAgree.saveProject (hd : EnvironmentsAgree d) {id : ℕ} {body : ProjectUpdate}
    {project : ProjectRow} (hproject : d.projects.get? id = some project)
    (hnew : ∀ settings ∈ body.newSettings project.settings, ∀ r ∈ d.runtimes.rows,
      r.projectId = some id → environmentAgrees settings r.settings.environment = true) :
    EnvironmentsAgree (d.saveProject id body (body.newSettings project.settings)) := by
  refine Refers.update_target_of hd (ProjectUpdate.apply_id _ _) fun k r hr hname p hp hmatch => ?_
  obtain rfl : project = p := Option.some.inj (hproject.symm.trans hp)
  unfold EnvironmentsMatch
  rw [ProjectUpdate.apply_settings]
  cases hsettings : body.newSettings project.settings with
  | none => exact hmatch
  | some settings => exact hnew settings hsettings r (get?_some_mem hr) hname

theorem EnvironmentsAgree.detach (hd : EnvironmentsAgree d) {old : RuntimeRow}
    (hold : d.runtimes.get? old.id = some old) :
    EnvironmentsAgree (d.flushRuntime old { old with projectId := none } noJson) := by
  refine Refers.update_row hd (RuntimeRow.flushed_id _ _ _) fun r hr k hk => ?_
  obtain rfl : old = r := Option.some.inj (hold.symm.trans hr)
  rw [RuntimeRow.flushed_loaded_projectId] at hk
  cases hk

theorem ProjectUpdate.newSettings_asDict {body : ProjectUpdate} {old settings : Fields}
    (h : body.newSettings old = some settings) : ∃ fields, settings = Json.asDict fields := by
  unfold ProjectUpdate.newSettings at h
  dsimp only at h
  split at h
  · obtain ⟨given, -, rfl⟩ := Option.map_eq_some_iff.mp h
    exact ⟨given, rfl⟩
  · obtain rfl := Option.some.inj h
    exact ⟨_, rfl⟩

/-- The check of a runtime looks at the merged settings, what is stored are the new ones. -/
theorem environmentAgrees_stored {body : ProjectUpdate} {old : Fields} {environment : String}
    (h : environmentAgrees (Json.update old ((body.newSettings old).getD [])) environment = true) :
    environmentAgrees ((body.newSettings old).getD old) environment = true := by
  cases hsettings : body.newSettings old with
  | none => simpa only [hsettings, Option.getD_none, Json.update, List.foldl_nil] using h
  | some settings =>
      obtain ⟨fields, rfl⟩ := ProjectUpdate.newSettings_asDict hsettings
      rw [hsettings, Option.getD_some] at h
      rw [Option.getD_some]
      unfold environmentAgrees at h ⊢
      rw [Json.lookup_update, Json.asDict_asDict] at h
      cases hlookup : Json.lookup "environment" (Json.asDict fields) with
      | none => rfl
      | some v => simpa only [hlookup, Option.some_or] using h

/-- An update with a runtime, once the one before it is detached. -/
theorem EnvironmentsAgree.attach (hd : EnvironmentsAgree d) {id : ℕ} {body : ProjectUpdate}
    {project : ProjectRow} {runtime : RuntimeRow} (hproject : d.projects.get? id = some project)
    (hruntime : d.runtimes.get? runtime.id = some runtime)
    (hchecked : environmentAgrees
      (Json.update project.settings ((body.newSettings project.settings).getD []))
      runtime.settings.environment = true)
    (hnew : ∀ settings ∈ body.newSettings project.settings, ∀ r ∈ d.runtimes.rows,
      r.projectId = some id → r.id ≠ runtime.id →
        environmentAgrees settings r.settings.environment = true) :
    EnvironmentsAgree ((d.flushRuntime runtime
      { runtime with
        projectId := some project.id, organizationId := some project.organizationId }
      noJson).saveProject id body (body.newSettings project.settings)) := by
  have hid : project.id = id := get?_some_key hproject
  refine Refers.update_both hd (RuntimeRow.flushed_id _ _ _) (ProjectUpdate.apply_id _ _) ?_ ?_
  · intro r hr x hx
    obtain rfl : runtime = r := Option.some.inj (hruntime.symm.trans hr)
    rw [RuntimeRow.flushed_loaded_projectId] at hx
    obtain rfl : id = x := hid.symm.trans (Option.some.inj hx)
    refine ⟨_, by rw [get?_update_self, hproject]; rfl, ?_⟩
    unfold EnvironmentsMatch
    rw [RuntimeRow.flushed_loaded_environment, ProjectUpdate.apply_settings]
    exact environmentAgrees_stored hchecked
  · intro i r hi hr hname p hp hmatch
    obtain rfl : project = p := Option.some.inj (hproject.symm.trans hp)
    unfold EnvironmentsMatch
    rw [ProjectUpdate.apply_settings]
    cases hsettings : body.newSettings project.settings with
    | none => exact hmatch
    | some settings =>
        exact hnew settings hsettings r (get?_some_mem hr) hname (get?_some_key hr ▸ hi)

theorem keeps_attachableRuntime {I : ProjectDb → Prop} {user : ProjectUser}
    {project : ProjectRow} {settings : Option Fields} {runtimeId : ℕ}
    {post : RuntimeRow → ProjectDb → Prop}
    (h : ∀ runtime, d.runtimes.get? runtimeId = some runtime →
      environmentAgrees (Json.update project.settings (settings.getD []))
        runtime.settings.environment = true → post runtime d) :
    (attachableRuntime user project settings runtimeId).Keeps I d post := by
  unfold attachableRuntime
  simp only [keeps_bind, keeps_read, keeps_orRaise, keeps_ensure, pure_eq, keeps_ret]
  exact fun runtime hruntime _ _ hchecked => h runtime hruntime hchecked

theorem ProjectDb.attach_some (d : ProjectDb) (project : ProjectRow) (runtime old : RuntimeRow) :
    d.attach project runtime (some old) =
      (d.flushRuntime old { old with projectId := none } noJson).flushRuntime runtime
        { runtime with
          projectId := some project.id, organizationId := some project.organizationId }
        noJson := rfl

/-- The runtime that is detached, if the first one found is another one. -/
theorem EnvironmentsAgree.attachRequested (hd : EnvironmentsAgree d) {id : ℕ}
    {user : ProjectUser} {reconciled : Option String} {body : ProjectUpdate}
    {project : ProjectRow} {runtime : RuntimeRow} (hproject : d.projects.get? id = some project)
    (hruntime : d.runtimes.get? runtime.id = some runtime)
    (hrequested : body.runtimeId = some (some runtime.id))
    (hchecked : environmentAgrees
      (Json.update project.settings ((body.newSettings project.settings).getD []))
      runtime.settings.environment = true)
    (hnew : KeepsEnvironments d (.updateProject user id body reconciled)) :
    EnvironmentsAgree ((d.attach project runtime
      ((d.byProject id).filter fun old => old.id ≠ runtime.id)).saveProject id body
        (body.newSettings project.settings)) := by
  have hstays : ∀ settings ∈ body.newSettings project.settings, ∀ r ∈ d.runtimes.rows,
      r.projectId = some id → r.id ≠ runtime.id → (∀ first ∈ d.byProject id, first.id ≠ r.id) →
        environmentAgrees settings r.settings.environment = true := by
    intro settings hsettings r hr hname hne hfirst
    refine hnew project hproject settings hsettings r hr ⟨hname, fun requested hmem => ?_⟩
    rw [hrequested] at hmem
    cases hmem
    exact ⟨hfirst, hne⟩
  cases hfound : d.byProject id with
  | none =>
      refine hd.attach hproject hruntime hchecked fun settings hsettings r hr hname hne => ?_
      refine hstays settings hsettings r hr hname hne fun first hfirst => ?_
      rw [hfound] at hfirst
      cases hfirst
  | some old =>
      obtain ⟨hattached, hold⟩ := ProjectDb.byProject_eq_some hfound
      by_cases hsame : old.id = runtime.id
      · rw [Option.filter_some_neg (by simpa using hsame)]
        refine hd.attach hproject hruntime hchecked fun settings hsettings r hr hname hne => ?_
        refine hstays settings hsettings r hr hname hne fun first hfirst => ?_
        rw [hfound] at hfirst
        cases hfirst
        exact fun heq => hne (heq.symm.trans hsame)
      · rw [Option.filter_some_pos (by simpa using hsame), ProjectDb.attach_some]
        have hproject' : (d.flushRuntime old { old with projectId := none } noJson).projects.get? id =
            some project := hproject
        refine (hd.detach hold).attach hproject' ?_ hchecked
          fun settings hsettings r hr hname hne => ?_
        · exact (get?_update_of_ne _ (Ne.symm hsame) _ (RuntimeRow.flushed_id _ _ _)).trans hruntime
        · rcases mem_rows_update (RuntimeRow.flushed_id old _ noJson) hr with
            ⟨hmem, hother⟩ | ⟨r₀, hr₀, rfl⟩
          · refine hstays settings hsettings r hmem hname hne fun first hfirst => ?_
            rw [hfound] at hfirst
            cases hfirst
            exact Ne.symm hother
          · obtain rfl : old = r₀ := Option.some.inj (hold.symm.trans hr₀)
            rw [RuntimeRow.flushed_loaded_projectId] at hname
            cases hname

theorem keeps_updateProject (hd : EnvironmentsAgree d) {user : ProjectUser} {id : ℕ}
    {body : ProjectUpdate} {reconciled : Option String}
    (hnew : KeepsEnvironments d (.updateProject user id body reconciled)) :
    (updateProject user id body reconciled).Keeps EnvironmentsAgree d fun _ _ => True := by
  unfold updateProject
  rw [keeps_bind]
  refine keeps_ownProject fun project hproject => ?_
  simp only [keeps_bind, keeps_ensure]
  intro _ _
  cases hrequested : body.runtimeId with
  | none =>
      simp only [keeps_bind, keeps_read, keeps_ensure, keeps_write, and_true]
      refine fun _ => hd.saveProject hproject fun settings hsettings r hr hname => ?_
      refine hnew project hproject settings hsettings r hr ⟨hname, fun requested hmem => ?_⟩
      rw [hrequested] at hmem
      cases hmem
  | some requested =>
      cases requested with
      | none => trivial
      | some runtimeId =>
          simp only [keeps_bind]
          refine keeps_attachableRuntime fun runtime hruntime hchecked => ?_
          simp only [keeps_read, keeps_ensure, keeps_write, and_true]
          obtain rfl : runtime.id = runtimeId := get?_some_key hruntime
          exact fun _ _ => hd.attachRequested hproject hruntime hrequested hchecked hnew

/-! ## Runs -/

theorem keeps_runProjectCall (hd : EnvironmentsAgree d) {call : ProjectCall}
    (hnew : KeepsEnvironments d call) :
    (runProjectCall N ipRule call).Keeps EnvironmentsAgree d fun _ _ => True := by
  cases call with
  | createProject user id body => exact keeps_ignore.mpr (keeps_createProject hd user id body)
  | updateProject user id body reconciled => exact keeps_updateProject hd hnew
  | createProjectRuntime user project id data =>
      exact keeps_ignore.mpr (keeps_createProjectRuntime hd hnew)
  | getOrCreate id data defaultUser => exact keeps_ignore.mpr (keeps_getOrCreate hd hnew)
  | updateRuntime id data => exact keeps_ignore.mpr (keeps_updateRuntimeRow hd hnew)
  | switchEnvironment user id target => exact keeps_switchProjectEnvironment hd hnew

/-- The environments agree in every state of a run whose requests bring what they must,
calls that fail included. -/
theorem environments_stayEqual (N : NameFunctions) (ipRule : String → Option String)
    (d₀ d : ProjectDb) (calls : List ProjectCall) (h₀ : EnvironmentsAgree d₀)
    (hrun : SerialRun (runProjectCall N ipRule) KeepsEnvironments d₀ calls d) :
    EnvironmentsAgree d :=
  hrun.invariant h₀ fun _ _ hd hnew => keeps_runProjectCall hd hnew

/-! ## Requests that separate the environments -/

instance KeepsEnvironments.decidable (d : ProjectDb) : (call : ProjectCall) →
    Decidable (KeepsEnvironments d call)
  | .createProject _ _ _ => .isTrue trivial
  | .updateProject _ id body _ => inferInstanceAs (Decidable (∀ p ∈ d.projects.get? id,
      ∀ settings ∈ body.newSettings p.settings, ∀ r ∈ d.runtimes.rows, StaysAttached d id body r →
        environmentAgrees settings r.settings.environment = true))
  | .createProjectRuntime _ project _ data =>
      inferInstanceAs (Decidable (CreatesMatching d (some project) data))
  | .getOrCreate _ data _ => inferInstanceAs (Decidable (CreatesMatching d data.projectId data))
  | .updateRuntime id data => inferInstanceAs (Decidable (∀ r ∈ d.runtimes.get? id,
      ∀ k ∈ data.projectId.getD r.projectId, ∀ p ∈ d.projects.get? k,
        ∀ environment ∈ data.environment.getD (some r.settings.environment),
          environmentAgrees p.settings environment = true))
  | .switchEnvironment _ id target => inferInstanceAs (Decidable (∀ r ∈ d.runtimes.rows,
      r.projectId = some id → NotFirst d id r → r.settings.environment = target.value))

def plainNames : NameFunctions := ⟨lower, lower, lower⟩

def projectOwner : ProjectUser := ⟨1, some 1⟩

def emptyProjects : ProjectDb := { organizations := [1], projects := default, runtimes := default }

theorem environmentsAgree_empty : EnvironmentsAgree emptyProjects := Refers.empty

/-- A project with a runtime, before anything is changed. -/
def projectSetup : List ProjectCall :=
  [.createProject projectOwner 1 { name := "Shop", slug := "shop" },
   .createProjectRuntime projectOwner 1 1 { settings := { name := "Main" } }]

/-- A project is renamed and switched, and its runtime is renamed. -/
def switchedProject : List ProjectCall :=
  projectSetup ++
    [.updateProject projectOwner 1 { name := some (some "Store") } none,
     .switchEnvironment projectOwner 1 .production,
     .updateRuntime 1 { name := some (some "Primary") }]

theorem environments_stayEqual_switched :
    let d := execAll (runProjectCall plainNames fun _ => none) switchedProject emptyProjects
    d.runtimes.rows.map (fun r => (r.projectId, r.settings.environment)) =
        [(some 1, "production")] ∧ EnvironmentsAgree d := by
  have hadmits : Admits (runProjectCall plainNames fun _ => none) KeepsEnvironments
      switchedProject emptyProjects := by decide +kernel
  have hagree := environments_stayEqual _ _ _ _ _ environmentsAgree_empty (serialRun_execAll hadmits)
  exact ⟨by decide +kernel, hagree⟩

/-- The update of a project that sets its environment leaves the runtime in the old one, and
so does the update of a runtime with the project. -/
theorem environments_separate :
    let run := fun call => execAll (runProjectCall plainNames fun _ => none)
      (projectSetup ++ [call]) emptyProjects
    ¬EnvironmentsAgree
        (run (.updateProject projectOwner 1 { environment := some (some .production) } none)) ∧
      ¬EnvironmentsAgree
        (run (.updateRuntime 1 { environment := some (some "production") })) := by
  intro run
  constructor
  · intro hagree
    exact absurd hagree.forall_rows (by decide +kernel)
  · intro hagree
    exact absurd hagree.forall_rows (by decide +kernel)

end Zyntry
