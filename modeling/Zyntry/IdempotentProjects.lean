import Zyntry.KeyedProjects
import Zyntry.ProjectEnvironments
import Zyntry.SqlAssertions
import Zyntry.SqlOwnership

/-!
# One project for one idempotency key

The lock keeps its promise as long as it is taken only before a project has been created, by a
request that is then alone: the first look for a record comes before the lock, so a request
may take it after another one has come to its end, and it may expire while its owner is at
work.
-/

namespace Zyntry

open Python SqlProgram RowTable
open World (goto stepped)

/-! ## Answers -/

/-- What the checks of a request say to the projects of `d`. -/
def ProjectDb.refusal (d : ProjectDb) (c : KeyedCall) : Option ProjectError :=
  if ¬(1 ≤ c.key.length ∧ c.key.length ≤ 255) then some invalidKey
  else
    match c.body.organizationId.or c.user.organizationId with
    | none => some missingOrganization
    | some organization =>
        if c.user.organizationId ≠ some organization then some foreignOrganization
        else if organization ∉ d.organizations then some (notFound "Organization not found")
        else
          match d.named organization c.body.name with
          | _ :: _ :: _ => some multipleRows
          | [_] => some nameConflict
          | [] =>
              if ∃ p ∈ d.projects.rows, p.organizationId = organization ∧ p.slug = c.body.slug then
                some slugConflict
              else none

/-- The answers that the requests may have: the one project that they have made, that another
one is still at work, or an error that has nothing to do with any of them. -/
inductive GoodAnswer (d : ProjectDb) (c : KeyedCall) (failures : String → Prop)
    (made : Option ProjectRow) : ProjectAnswer → Prop
  | project (p : ProjectRow) (h : made = some p) : GoodAnswer d c failures made (.ok p)
  | processing : GoodAnswer d c failures made (.error stillProcessing)
  | refused (e : ProjectError) (h : d.refusal c = some e) : GoodAnswer d c failures made (.error e)
  | failed (exc : String) (h : failures exc) :
      GoodAnswer d c failures made (.error (creationFailed exc))

/-- A project that has been made stays the one. -/
def Extends (made made' : Option ProjectRow) : Prop := made = none ∨ made' = made

theorem extends_refl (made : Option ProjectRow) : Extends made made := .inr rfl

theorem extends_trans (m₁ m₂ m₃ : Option ProjectRow) (h : Extends m₁ m₂) (h' : Extends m₂ m₃) :
    Extends m₁ m₃ := by
  rcases h with h | rfl
  · exact .inl h
  · exact h'

variable {d₀ : ProjectDb} {c : KeyedCall} {failures : String → Prop}
  {made made' : Option ProjectRow}

theorem GoodAnswer.grow {a : ProjectAnswer} (h : GoodAnswer d₀ c failures made a)
    (hextends : Extends made made') : GoodAnswer d₀ c failures made' a := by
  cases h with
  | project p hp =>
      rcases hextends with hnone | rfl
      · rw [hnone] at hp
        cases hp
      · exact .project p hp
  | processing => exact .processing
  | refused e he => exact .refused e he
  | failed exc hexc => exact .failed exc hexc

/-! ## The value that the lock protects -/

/-- The projects are those of the start and the one that the requests have made, and what is
recorded is its answer. -/
structure Holds (d₀ : ProjectDb) (requestHash : String) (made : Option ProjectRow)
    (d : KeyedDb) : Prop where
  rows : d.db.projects.rows = d₀.projects.rows ++ made.toList
  organizations : d.db.organizations = d₀.organizations
  fresh : ∀ p ∈ made, d₀.projects.get? p.id = none
  cached : ∀ record ∈ d.cache, record.requestHash = requestHash ∧ made = some record.response

/-- The statements that leave the list of granted locks alone. -/
def LeavesGrants (_ : KeyedStatement) (d d' : KeyedDb) : Prop := d'.granted = d.granted

theorem Holds.release {requestHash : String} {d : KeyedDb} (h : Holds d₀ requestHash made d)
    (token : ℕ) : Holds d₀ requestHash made (d.releaseLock token) := by
  unfold KeyedDb.releaseLock
  split_ifs
  · exact ⟨h.rows, h.organizations, h.fresh, h.cached⟩
  · exact h

theorem Holds.setLock {requestHash : String} {d : KeyedDb} (h : Holds d₀ requestHash made d)
    (token : ℕ) : Holds d₀ requestHash made (d.setLock token) := by
  unfold KeyedDb.setLock
  split
  · exact ⟨h.rows, h.organizations, h.fresh, h.cached⟩
  · exact h

theorem answerFrom_cached {requestHash : String} {d : KeyedDb} {record : IdempotencyRecord}
    (h : Holds d₀ requestHash made d) (hcache : d.cache = some record) :
    GoodAnswer d₀ c failures made (answerFrom requestHash record) := by
  obtain ⟨hhash, hmade⟩ := h.cached record hcache
  unfold answerFrom
  rw [if_neg (not_not_intro hhash)]
  exact .project _ hmade

section Programs

variable {hash : ProjectCreate → String} {r : KeyedRequest}

/-- A request that is alone in the section that the lock protects. -/
abbrev Sole (d₀ : ProjectDb) (hash : ProjectCreate → String) (c : KeyedCall)
    (failures : String → Prop) (p : KeyedProgram ProjectAnswer) (made : Option ProjectRow) : Prop :=
  p.Owns (Holds d₀ (hash c.body)) Extends (GoodAnswer d₀ c failures) made

/-- A session that leaves the projects alone. -/
abbrev Waits (d₀ : ProjectDb) (hash : ProjectCreate → String) (c : KeyedCall)
    (failures : String → Prop) (p : KeyedProgram ProjectAnswer) (made : Option ProjectRow) : Prop :=
  p.Observes (Holds d₀ (hash c.body)) Extends (GoodAnswer d₀ c failures) made

theorem waits_ret {a : ProjectAnswer} (h : GoodAnswer d₀ c failures made a) :
    Waits d₀ hash c failures (.ret a) made := fun _ hextends => h.grow hextends

theorem waits_pollCache (n : ℕ) (made : Option ProjectRow) :
    Waits d₀ hash c failures (pollCache (hash c.body) n) made := by
  induction n generalizing made with
  | zero => exact waits_ret .processing
  | succ n ih =>
      unfold pollCache readKeyed
      rw [Waits, observes_query]
      intro made' d hextends hd
      cases hcache : d.cache with
      | some record => exact waits_ret (answerFrom_cached hd hcache)
      | none =>
          dsimp only
          rw [observes_query]
          intro made'' d' _ _
          split_ifs
          · exact ih made''
          · exact waits_ret .processing

theorem sole_refuse {e : ProjectError} (h : GoodAnswer d₀ c failures made (.error e)) (token : ℕ) :
    Sole d₀ hash c failures (refuse token e) made := by
  unfold refuse releaseIdempotencyLock
  exact owns_write_of_keeps extends_refl (fun d hd => hd.release token) h

theorem Holds.get?_none {requestHash : String} {d : KeyedDb} (h : Holds d₀ requestHash none d)
    {id : ℕ} (hid : d₀.projects.get? id = none) : d.db.projects.get? id = none := by
  unfold RowTable.get? at hid ⊢
  rw [h.rows, Option.toList_none, List.append_nil]
  exact hid

/-- The slug of a new project is taken in the database of the start or not at all. -/
theorem Holds.slugTaken_iff {requestHash : String} {d : KeyedDb}
    (h : Holds d₀ requestHash none d) {id organization : ℕ} {slug : String}
    (hid : d₀.projects.get? id = none) : d.db.SlugTaken id organization slug ↔
      ∃ p ∈ d₀.projects.rows, p.organizationId = organization ∧ p.slug = slug := by
  unfold ProjectDb.SlugTaken
  rw [h.rows, Option.toList_none, List.append_nil]
  constructor
  · rintro ⟨p, hp, -, hslug⟩
    exact ⟨p, hp, hslug⟩
  · rintro ⟨p, hp, hslug⟩
    exact ⟨p, hp, get?_none_ne hid p hp, hslug⟩

theorem Holds.create {requestHash : String} {d : KeyedDb} (h : Holds d₀ requestHash none d)
    {project : ProjectRow} (hid : d₀.projects.get? project.id = none)
    (hfree : ¬d.db.SlugTaken project.id project.organizationId project.slug) :
    Holds d₀ requestHash (some project) { d with db := d.db.createProject project } := by
  have hnone := h.get?_none hid
  have hcreate : d.db.createProject project =
      { d.db with projects := d.db.projects.insert project } := if_pos ⟨hnone, hfree⟩
  rw [hcreate]
  refine ⟨?_, h.organizations, ?_, ?_⟩
  · rw [rows_insert hnone, h.rows]
    simp
  · rintro p hp
    cases hp
    exact hid
  · intro record hrecord
    cases (h.cached record hrecord).2

theorem sole_commitProject {organization : ℕ} (hid : d₀.projects.get? r.id = none)
    (hrefusal : (∃ p ∈ d₀.projects.rows, p.organizationId = organization ∧
      p.slug = c.body.slug) → d₀.refusal c = some slugConflict) :
    Sole d₀ hash c failures (commitProject hash c r (c.project r organization)) none := by
  unfold commitProject readKeyed releaseIdempotencyLock
  rw [Sole, owns_write]
  by_cases htaken : ∃ p ∈ d₀.projects.rows, p.organizationId = organization ∧ p.slug = c.body.slug
  · refine ⟨none, extends_refl none, fun d hd => ?_, ?_⟩
    · have hsame : d.db.createProject (c.project r organization) = d.db :=
        if_neg fun hfree => hfree.2 ((hd.slugTaken_iff hid).mpr htaken)
      rw [hsame]
      exact hd
    · rw [owns_query]
      intro d hd
      rw [hd.get?_none hid]
      exact sole_refuse (.refused _ (hrefusal htaken)) r.token
  · refine ⟨some (c.project r organization), .inl rfl, fun d hd => ?_, ?_⟩
    · exact hd.create hid fun hd' => htaken ((hd.slugTaken_iff hid).mp hd')
    · rw [owns_query]
      intro d hd
      have hmem : c.project r organization ∈ d.db.projects.rows := by simp [hd.rows]
      have hstored : d.db.projects.get? r.id = some (c.project r organization) :=
        get?_of_mem hmem
      rw [hstored]
      refine owns_write_of_keeps extends_refl (fun d' hd' => ?_) ?_
      · refine ⟨hd'.rows, hd'.organizations, hd'.fresh, ?_⟩
        rintro record hrecord
        cases hrecord
        exact ⟨rfl, rfl⟩
      · exact owns_write_of_keeps extends_refl (fun d' hd' => hd'.release r.token) (.project _ rfl)

theorem sole_createLocked (hid : d₀.projects.get? r.id = none)
    (hkey : 1 ≤ c.key.length ∧ c.key.length ≤ 255)
    (hfailure : ∀ exc ∈ r.failure, failures exc) :
    Sole d₀ hash c failures (createLocked hash c r) none := by
  have hrefuse : ∀ e, d₀.refusal c = some e →
      Sole d₀ hash c failures (refuse r.token e) none := fun e he =>
    sole_refuse (.refused e he) r.token
  unfold createLocked readKeyed
  cases horganization : c.body.organizationId.or c.user.organizationId with
  | none => exact hrefuse _ (by simp [ProjectDb.refusal, hkey, horganization])
  | some organization =>
      dsimp only
      by_cases hforeign : c.user.organizationId ≠ some organization
      · rw [if_pos hforeign]
        exact hrefuse _ (by simp [ProjectDb.refusal, hkey, horganization, hforeign])
      · rw [if_neg hforeign, Sole, owns_query]
        intro d hd
        rw [hd.organizations]
        by_cases hmissing : organization ∉ d₀.organizations
        · rw [if_pos hmissing]
          exact hrefuse _ (by simp [ProjectDb.refusal, hkey, horganization, hforeign, hmissing])
        · rw [if_neg hmissing, owns_query]
          intro d' hd'
          have hnamed : d'.db.named organization c.body.name =
              d₀.named organization c.body.name := by
            unfold ProjectDb.named
            rw [hd'.rows, Option.toList_none, List.append_nil]
          rw [hnamed]
          have hrest : d₀.refusal c = match d₀.named organization c.body.name with
              | _ :: _ :: _ => some multipleRows
              | [_] => some nameConflict
              | [] =>
                  if ∃ p ∈ d₀.projects.rows,
                    p.organizationId = organization ∧ p.slug = c.body.slug then some slugConflict
                  else none := by
            unfold ProjectDb.refusal
            rw [if_neg (not_not_intro hkey), horganization]
            dsimp only
            rw [if_neg hforeign, if_neg hmissing]
          match hrows : d₀.named organization c.body.name with
          | _ :: _ :: _ =>
              rw [hrows] at hrest
              exact .refused _ hrest
          | [_] =>
              rw [hrows] at hrest
              exact hrefuse _ hrest
          | [] =>
              rw [hrows] at hrest
              cases hfailed : r.failure with
              | some exc => exact sole_refuse (.failed exc (hfailure exc hfailed)) r.token
              | none =>
                  exact sole_commitProject hid fun htaken => hrest.trans (if_pos htaken)

theorem sole_lockAnswered (hid : d₀.projects.get? r.id = none)
    (hkey : 1 ≤ c.key.length ∧ c.key.length ≤ 255)
    (hfailure : ∀ exc ∈ r.failure, failures exc) :
    Sole d₀ hash c failures (lockAnswered hash c r) none := by
  unfold lockAnswered readKeyed
  rw [Sole, owns_query]
  intro d _
  split_ifs
  · exact sole_createLocked hid hkey hfailure
  · exact (waits_pollCache 100 none).owns extends_refl

theorem leavesGrants_release (l : KeyedStatement) (token : ℕ) (d : KeyedDb) :
    LeavesGrants l d (d.releaseLock token) := by
  unfold LeavesGrants KeyedDb.releaseLock
  split_ifs <;> rfl

theorem writes_refuse (token : ℕ) (e : ProjectError) : (refuse token e).Writes LeavesGrants :=
  Writes.bind (writes_write.mpr fun d => leavesGrants_release _ token d) fun _ => writes_ret _

theorem writes_pollCache (requestHash : String) (n : ℕ) :
    (pollCache requestHash n).Writes LeavesGrants := by
  induction n with
  | zero => exact writes_ret _
  | succ n ih =>
      unfold pollCache
      refine Writes.bind (writes_query _ _) fun cached => ?_
      cases cached with
      | some record => exact writes_ret _
      | none =>
          refine Writes.bind (writes_query _ _) fun locked => ?_
          split_ifs
          · exact ih
          · exact writes_ret _

theorem writes_commitProject (project : ProjectRow) :
    (commitProject hash c r project).Writes LeavesGrants := by
  unfold commitProject
  refine Writes.bind (writes_write.mpr fun _ => rfl) fun _ => ?_
  refine Writes.bind (writes_query _ _) fun stored => ?_
  split_ifs
  · refine Writes.bind (writes_write.mpr fun _ => rfl) fun _ => ?_
    exact Writes.bind (writes_write.mpr fun d => leavesGrants_release _ _ d) fun _ => writes_ret _
  · exact writes_refuse _ _

theorem writes_createLocked : (createLocked hash c r).Writes LeavesGrants := by
  unfold createLocked
  split
  · exact writes_refuse _ _
  · split_ifs
    · exact writes_refuse _ _
    · refine Writes.bind (writes_query _ _) fun organizations => ?_
      split_ifs
      · refine Writes.bind (writes_query _ _) fun rows => ?_
        split
        · exact writes_ret _
        · exact writes_refuse _ _
        · split
          · exact writes_refuse _ _
          · exact writes_commitProject _
      · exact writes_refuse _ _

theorem writes_lockAnswered : (lockAnswered hash c r).Writes LeavesGrants := by
  unfold lockAnswered
  refine Writes.bind (writes_query _ _) fun granted => ?_
  split_ifs
  · exact writes_createLocked
  · exact writes_pollCache _ _

end Programs

/-! ## Interleavings -/

section Runs

variable {S : Type} [DecidableEq S] {hash : ProjectCreate → String} {R : KeyedRequests S d₀}
  {w w' : KeyedWorld S} {s : S}

/-- A lock is taken only before a project is made, and once every request that has got it
before has come to its end. -/
def AcquiresAlone (R : KeyedRequests S d₀) (w : KeyedWorld S) (s : S) : Prop :=
  ∀ r ∈ R.request s, (w.session s).head = some (.locked r.token) → w.db.lock = none →
    (∀ p ∈ w.db.db.projects.rows, (d₀.projects.get? p.id).isSome) ∧
      ∀ t, ∀ r' ∈ R.request t, r'.token ∈ w.db.granted → (w.session t).head = none

/-- The commits of the requests fail with these exceptions. -/
def KeyedRequests.Fails (R : KeyedRequests S d₀) (exc : String) : Prop :=
  ∃ s, ∃ r ∈ R.request s, r.failure = some exc

/-- A request that has not got the lock. -/
inductive Outside (d₀ : ProjectDb) (hash : ProjectCreate → String) (c : KeyedCall)
    (failures : String → Prop) (r : KeyedRequest) (made : Option ProjectRow) :
    KeyedProgram ProjectAnswer → Prop
  | looking (hkey : 1 ≤ c.key.length ∧ c.key.length ≤ 255) :
      Outside d₀ hash c failures r made (lookForAnswer hash c r)
  | acquiring (hkey : 1 ≤ c.key.length ∧ c.key.length ≤ 255) :
      Outside d₀ hash c failures r made (acquireLock hash c r)
  | answered : Outside d₀ hash c failures r made (lockAnswered hash c r)
  | waiting {p : KeyedProgram ProjectAnswer} (hwaits : Waits d₀ hash c failures p made)
      (hwrites : p.Writes LeavesGrants) : Outside d₀ hash c failures r made p

/-- Where a session stands. -/
inductive InPlace (R : KeyedRequests S d₀) (hash : ProjectCreate → String) (c : KeyedCall)
    (granted : List ℕ) (made : Option ProjectRow) (s : S) (p : KeyedProgram ProjectAnswer) : Prop
  | timer (hs : R.request s = none) (hwaits : Waits d₀ hash c R.Fails p made)
      (hwrites : p.Writes LeavesGrants)
  | outside {r : KeyedRequest} (hs : R.request s = some r) (hout : r.token ∉ granted)
      (h : Outside d₀ hash c R.Fails r made p)
  | inside {r : KeyedRequest} (hs : R.request s = some r) (hin : r.token ∈ granted)
      (hsole : Sole d₀ hash c R.Fails p made) (hwrites : p.Writes LeavesGrants)

structure KeyedInvariant (R : KeyedRequests S d₀) (hash : ProjectCreate → String) (c : KeyedCall)
    (w : KeyedWorld S) (made : Option ProjectRow) : Prop where
  holds : Holds d₀ (hash c.body) made w.db
  place : ∀ s, InPlace R hash c w.db.granted made s (w.session s)
  alone : ∀ s t, ∀ r ∈ R.request s, ∀ r' ∈ R.request t, r.token ∈ w.db.granted →
    r'.token ∈ w.db.granted → (w.session s).head ≠ none → (w.session t).head ≠ none → s = t

theorem Outside.grow {r : KeyedRequest} {p : KeyedProgram ProjectAnswer}
    (h : Outside d₀ hash c failures r made p) (hextends : Extends made made') :
    Outside d₀ hash c failures r made' p := by
  cases h with
  | looking hkey => exact .looking hkey
  | acquiring hkey => exact .acquiring hkey
  | answered => exact .answered
  | waiting hwaits hwrites => exact .waiting (hwaits.mono extends_trans hextends) hwrites

theorem sole_grow_of_head {p : KeyedProgram ProjectAnswer} (hhead : p.head = none)
    (h : Sole d₀ hash c failures p made) (hextends : Extends made made') :
    Sole d₀ hash c failures p made' := by
  cases p with
  | ret a => exact GoodAnswer.grow h hextends
  | raise e => trivial
  | select l next => cases hhead
  | lock l rows next => cases hhead
  | commit l write next => cases hhead

omit [DecidableEq S] in
/-- The value grows under the eyes of a session, unless it is at work inside. -/
theorem InPlace.grow {granted : List ℕ} {p : KeyedProgram ProjectAnswer}
    (h : InPlace R hash c granted made s p) (hextends : Extends made made')
    (hhead : ∀ r ∈ R.request s, r.token ∈ granted → p.head = none) :
    InPlace R hash c granted made' s p := by
  cases h with
  | timer hs hwaits hwrites => exact .timer hs (hwaits.mono extends_trans hextends) hwrites
  | outside hs hout h => exact .outside hs hout (h.grow hextends)
  | inside hs hin hsole hwrites =>
      exact .inside hs hin (sole_grow_of_head (hhead _ hs hin) hsole hextends) hwrites

/-- A step that grants no lock. -/
theorem KeyedInvariant.moved (h : KeyedInvariant R hash c w made) (hstep : w.step s = some w')
    (hgranted : w'.db.granted = w.db.granted) (hextends : Extends made made')
    (hholds : Holds d₀ (hash c.body) made' w'.db)
    (hself : InPlace R hash c w.db.granted made' s (w'.session s))
    (hothers : made' = made ∨ ∀ t, t ≠ s → ∀ r ∈ R.request t, r.token ∈ w.db.granted →
      (w.session t).head = none) : KeyedInvariant R hash c w' made' := by
  have hsession : ∀ t, t ≠ s → w'.session t = w.session t := fun t ht =>
    World.session_step_other ht hstep
  have hlive : ∀ t, (w'.session t).head ≠ none → (w.session t).head ≠ none := by
    intro t hhead hnone
    by_cases hts : t = s
    · subst hts
      exact hhead (World.step_of_head_none hnone hstep ▸ hnone)
    · exact hhead (hsession t hts ▸ hnone)
  refine ⟨hholds, fun t => ?_, ?_⟩
  · rw [hgranted]
    by_cases hts : t = s
    · exact hts ▸ hself
    · rw [hsession t hts]
      rcases hothers with rfl | hothers
      · exact h.place t
      · exact (h.place t).grow hextends (hothers t hts)
  · rw [hgranted]
    exact fun t t' r hr r' hr' hin hin' hhead hhead' =>
      h.alone t t' r hr r' hr' hin hin' (hlive t hhead) (hlive t' hhead')

theorem granted_of_writes (hstep : w.step s = some w')
    (hwrites : (w.session s).Writes LeavesGrants) : w'.db.granted = w.db.granted := by
  rcases World.writes_step_db hstep hwrites with hdb | ⟨l, hgranted⟩
  · rw [hdb]
  · exact hgranted

/-- A step of a session that leaves the projects alone. -/
theorem KeyedInvariant.wait_step (h : KeyedInvariant R hash c w made)
    (hstep : w.step s = some w') (hwaits : Waits d₀ hash c R.Fails (w.session s) made)
    (hwrites : (w.session s).Writes LeavesGrants)
    (hplace : ∀ p, Waits d₀ hash c R.Fails p made → p.Writes LeavesGrants →
      InPlace R hash c w.db.granted made s p) : KeyedInvariant R hash c w' made := by
  obtain ⟨hholds, hwaits'⟩ := World.observes_step extends_refl hwaits h.holds hstep
  have hgranted := granted_of_writes hstep hwrites
  refine h.moved hstep hgranted (extends_refl made) hholds ?_ (.inl rfl)
  exact hplace _ hwaits' (World.writes_step hstep hwrites)

theorem KeyedInvariant.sole_step (h : KeyedInvariant R hash c w made)
    (hstep : w.step s = some w') {r : KeyedRequest} (hs : R.request s = some r)
    (hin : r.token ∈ w.db.granted) (hsole : Sole d₀ hash c R.Fails (w.session s) made)
    (hwrites : (w.session s).Writes LeavesGrants) :
    ∃ made', KeyedInvariant R hash c w' made' := by
  by_cases hhead : (w.session s).head = none
  · obtain rfl := World.step_of_head_none hhead hstep
    exact ⟨made, h.moved hstep rfl (extends_refl made) h.holds (h.place s) (.inl rfl)⟩
  · obtain ⟨made', hextends, hholds, hsole'⟩ := World.owns_step extends_refl hsole h.holds hstep
    have hgranted := granted_of_writes hstep hwrites
    refine ⟨made', h.moved hstep hgranted hextends hholds ?_ (.inr fun t hts r' hr' hin' => ?_)⟩
    · exact .inside hs hin hsole' (World.writes_step hstep hwrites)
    · by_contra hlive
      exact hts (h.alone t s r' hr' r hs hin' hin hlive hhead)

omit [DecidableEq S] in
theorem InPlace.cons {granted : List ℕ} {p : KeyedProgram ProjectAnswer} {token : ℕ}
    (h : InPlace R hash c granted made s p) (hne : ∀ r ∈ R.request s, r.token ≠ token) :
    InPlace R hash c (token :: granted) made s p := by
  cases h with
  | timer hs hwaits hwrites => exact .timer hs hwaits hwrites
  | outside hs hout h =>
      refine .outside hs (fun hmem => ?_) h
      rcases List.mem_cons.mp hmem with heq | hmem
      · exact hne _ hs heq
      · exact hout hmem
  | inside hs hin hsole hwrites => exact .inside hs (List.mem_cons_of_mem _ hin) hsole hwrites

omit [DecidableEq S] in
theorem KeyedInvariant.not_made (h : KeyedInvariant R hash c w made)
    (hold : ∀ p ∈ w.db.db.projects.rows, (d₀.projects.get? p.id).isSome) : made = none := by
  cases made with
  | none => rfl
  | some p =>
      have hmem : p ∈ w.db.db.projects.rows := by simp [h.holds.rows]
      have hsome := hold p hmem
      rw [h.holds.fresh p rfl] at hsome
      cases hsome

/-- `SET NX` is answered with OK. -/
theorem KeyedInvariant.acquire (h : KeyedInvariant R hash c w made) {r : KeyedRequest}
    (hs : R.request s = some r) (hsession : w.session s = acquireLock hash c r)
    (hkey : 1 ≤ c.key.length ∧ c.key.length ≤ 255) (hlock : w.db.lock = none)
    (hok : AcquiresAlone R w s) (hstep : w.step s = some w') :
    KeyedInvariant R hash c w' none := by
  obtain ⟨hold, hended⟩ := hok r hs (by rw [hsession]; rfl) hlock
  obtain rfl := h.not_made hold
  have hset : w.db.setLock r.token =
      { w.db with lock := some r.token, granted := r.token :: w.db.granted } := by
    unfold KeyedDb.setLock
    rw [hlock]
  obtain rfl := World.step_commit (hsession.trans rfl) hstep
  have hself : ∀ t, ∀ r' ∈ R.request t, r'.token ∈ r.token :: w.db.granted →
      (w.goto s (lockAnswered hash c r) t).head ≠ none → t = s := by
    intro t r' hr' hin hhead
    by_contra hts
    rcases List.mem_cons.mp hin with heq | hin
    · exact hts (R.token_injective t s r' r hr' hs heq)
    · rw [goto, Function.update_of_ne hts] at hhead
      exact hhead (hended t r' hr' hin)
  refine ⟨h.holds.setLock r.token, fun t => ?_, ?_⟩
  · dsimp only
    rw [hset]
    by_cases hts : t = s
    · subst hts
      rw [goto, Function.update_self]
      have hsole : Sole d₀ hash c R.Fails (lockAnswered hash c r) none :=
        sole_lockAnswered (R.id_fresh t r hs) hkey fun exc hexc => ⟨t, r, hs, hexc⟩
      exact .inside hs List.mem_cons_self hsole writes_lockAnswered
    · rw [goto, Function.update_of_ne hts]
      exact (h.place t).cons fun r' hr' heq => hts (R.token_injective t s r' r hr' hs heq)
  · dsimp only
    rw [hset]
    intro t t' r' hr' r'' hr'' hin hin' hhead hhead'
    exact (hself t r' hr' hin hhead).trans (hself t' r'' hr'' hin' hhead').symm

theorem KeyedInvariant.outside_step (h : KeyedInvariant R hash c w made) {r : KeyedRequest}
    (hs : R.request s = some r) (hout : r.token ∉ w.db.granted)
    (houtside : Outside d₀ hash c R.Fails r made (w.session s)) (hok : AcquiresAlone R w s)
    (hstep : w.step s = some w') : ∃ made', KeyedInvariant R hash c w' made' := by
  generalize hsession : w.session s = p at houtside
  cases houtside with
  | looking hkey =>
      have hread := World.step_select (hsession.trans rfl) hstep
      refine ⟨made, h.moved hstep (by rw [hread]) (extends_refl made) (by rw [hread]; exact h.holds)
        (.outside hs hout ?_) (.inl rfl)⟩
      rw [hread]
      dsimp only
      rw [goto, Function.update_self]
      cases hcache : w.db.cache with
      | some record => exact .waiting (waits_ret (answerFrom_cached h.holds hcache)) (writes_ret _)
      | none => exact .acquiring hkey
  | acquiring hkey =>
      cases hlock : w.db.lock with
      | none => exact ⟨none, h.acquire hs hsession hkey hlock hok hstep⟩
      | some token =>
          have hset : w.db.setLock r.token = w.db := by
            unfold KeyedDb.setLock
            rw [hlock]
          have hwrite := World.step_commit (hsession.trans rfl) hstep
          have hdb : w'.db = w.db := by
            rw [hwrite]
            exact hset
          refine ⟨made, h.moved hstep (by rw [hdb]) (extends_refl made) (hdb ▸ h.holds)
            (.outside hs hout ?_) (.inl rfl)⟩
          rw [hwrite]
          dsimp only
          rw [goto, Function.update_self]
          exact .answered
  | answered =>
      have hread := World.step_select (hsession.trans rfl) hstep
      refine ⟨made, h.moved hstep (by rw [hread]) (extends_refl made) (by rw [hread]; exact h.holds)
        (.outside hs hout ?_) (.inl rfl)⟩
      rw [hread]
      dsimp only
      rw [goto, Function.update_self]
      change Outside d₀ hash c R.Fails r made
        (if r.token ∈ w.db.granted then createLocked hash c r else pollCache (hash c.body) 100)
      rw [if_neg hout]
      exact .waiting (waits_pollCache 100 made) (writes_pollCache _ 100)
  | waiting hwaits hwrites =>
      subst hsession
      refine ⟨made, h.wait_step hstep hwaits hwrites fun p hp hp' => ?_⟩
      exact .outside hs hout (.waiting hp hp')

theorem KeyedInvariant.step (h : KeyedInvariant R hash c w made) (hok : AcquiresAlone R w s)
    (hstep : w.step s = some w') : ∃ made', KeyedInvariant R hash c w' made' := by
  cases h.place s with
  | timer hs hwaits hwrites =>
      exact ⟨made, h.wait_step hstep hwaits hwrites fun p hp hp' => .timer hs hp hp'⟩
  | outside hs hout houtside => exact h.outside_step hs hout houtside hok hstep
  | inside hs hin hsole hwrites => exact h.sole_step hstep hs hin hsole hwrites

omit [DecidableEq S] in
theorem InPlace.raise {granted : List ℕ} {p : KeyedProgram ProjectAnswer}
    (h : InPlace R hash c granted made s p) (e : ProjectError) :
    InPlace R hash c granted made s (.raise e) := by
  cases h with
  | timer hs hwaits hwrites => exact .timer hs trivial (writes_raise e)
  | outside hs hout h => exact .outside hs hout (.waiting trivial (writes_raise e))
  | inside hs hin hsole hwrites => exact .inside hs hin trivial (writes_raise e)

theorem KeyedInvariant.crash (h : KeyedInvariant R hash c w made) (s : S) (e : ProjectError) :
    KeyedInvariant R hash c (w.crash s e) made := by
  have hraised : (w.crash s e).session s = .raise e := Function.update_self s _ _
  have hothers : ∀ t, t ≠ s → (w.crash s e).session t = w.session t := fun t hts =>
    Function.update_of_ne hts _ _
  have hlive : ∀ t, ((w.crash s e).session t).head ≠ none → (w.session t).head ≠ none := by
    intro t hhead
    by_cases hts : t = s
    · rw [hts, hraised] at hhead
      exact absurd rfl hhead
    · rwa [hothers t hts] at hhead
  refine ⟨h.holds, fun t => ?_, fun t t' r hr r' hr' hin hin' hhead hhead' =>
    h.alone t t' r hr r' hr' hin hin' (hlive t hhead) (hlive t' hhead')⟩
  by_cases hts : t = s
  · rw [hts, hraised]
    exact (h.place s).raise e
  · rw [hothers t hts]
    exact h.place t

omit [DecidableEq S] in
theorem inPlace_start (s : S) : InPlace R hash c [] none s (R.session hash c s) := by
  unfold KeyedRequests.session
  cases hs : R.request s with
  | none =>
      refine .timer hs ⟨fun made d _ hd => ?_, trivial⟩ ?_
      · exact ⟨hd.rows, hd.organizations, hd.fresh, hd.cached⟩
      · exact writes_commit.mpr ⟨fun _ => rfl, writes_raise _⟩
  | some r =>
      refine .outside hs List.not_mem_nil ?_
      dsimp only
      unfold createProjectKeyed
      by_cases hkey : 1 ≤ c.key.length ∧ c.key.length ≤ 255
      · rw [if_neg (not_not_intro hkey)]
        exact .looking hkey
      · rw [if_pos hkey]
        exact .waiting (waits_ret (.refused _ (if_pos hkey))) (writes_ret _)

theorem keyedInvariant_run
    (hrun : World.Run (AcquiresAlone R) (World.start { db := d₀ } (R.session hash c)) w) :
    ∃ made, KeyedInvariant R hash c w made := by
  induction hrun with
  | start =>
      refine ⟨none, ⟨?_, inPlace_start, fun s t r _ r' _ hin => absurd hin List.not_mem_nil⟩⟩
      exact ⟨(List.append_nil _).symm, rfl, by rintro p ⟨⟩, by rintro record ⟨⟩⟩
  | step s _ hok hstep ih =>
      obtain ⟨made, h⟩ := ih
      exact h.step hok hstep
  | crash s e _ ih =>
      obtain ⟨made, h⟩ := ih
      exact ⟨made, h.crash s e⟩

omit [DecidableEq S] in
theorem InPlace.answer {granted : List ℕ} {a : ProjectAnswer}
    (h : InPlace R hash c granted made s (.ret a)) : GoodAnswer d₀ c R.Fails made a := by
  generalize hp : (.ret a : KeyedProgram ProjectAnswer) = p at h
  cases h with
  | timer hs hwaits hwrites =>
      subst hp
      exact hwaits made (extends_refl made)
  | inside hs hin hsole hwrites =>
      subst hp
      exact hsole
  | outside hs hout h =>
      cases h with
      | looking hkey => cases hp
      | acquiring hkey => cases hp
      | answered => cases hp
      | waiting hwaits hwrites =>
          subst hp
          exact hwaits made (extends_refl made)

/-- In every interleaving whose locks are taken alone and before a project is made, at most
one project is created, and a request that completes is answered with it, with the conflict of
a request that is still processing, or with an error that is none of the requests' own. -/
theorem createProject_once (d₀ : ProjectDb) (R : KeyedRequests S d₀)
    (hash : ProjectCreate → String) (c : KeyedCall)
    (hrun : World.Run (AcquiresAlone R) (World.start { db := d₀ } (R.session hash c)) w) :
    ∃ made : Option ProjectRow, w.db.db.projects.rows = d₀.projects.rows ++ made.toList ∧
      ∀ s a, (w.session s).returned = some a → GoodAnswer d₀ c R.Fails made a := by
  obtain ⟨made, h⟩ := keyedInvariant_run hrun
  refine ⟨made, h.holds.rows, fun s a hreturned => ?_⟩
  have hplace := h.place s
  rw [returned_eq_some.mp hreturned] at hplace
  exact hplace.answer

end Runs

/-! ## Two requests -/

instance AcquiresAlone.decidable {S : Type} [Fintype S] (R : KeyedRequests S d₀)
    (w : KeyedWorld S) (s : S) : Decidable (AcquiresAlone R w s) :=
  inferInstanceAs (Decidable (∀ r ∈ R.request s,
    (w.session s).head = some (.locked r.token) → w.db.lock = none →
      (∀ p ∈ w.db.db.projects.rows, (d₀.projects.get? p.id).isSome) ∧
        ∀ t, ∀ r' ∈ R.request t, r'.token ∈ w.db.granted → (w.session t).head = none))

def shopCall : KeyedCall where
  user := projectOwner
  key := "create-shop"
  body := { name := "Shop", slug := "shop" }

def twoTokens (s : Bool) : Option KeyedRequest :=
  some { token := if s then 1 else 2, id := if s then 1 else 2 }

theorem twoTokens_injective (s t : Bool) (r r' : KeyedRequest) (hs : twoTokens s = some r)
    (ht : twoTokens t = some r') (h : r.token = r'.token) : s = t := by
  cases hs
  cases ht
  cases s <;> cases t <;> simp at h ⊢

def twoRequests : KeyedRequests Bool emptyProjects where
  request := twoTokens
  token_injective := twoTokens_injective
  id_fresh _ _ _ := rfl

def twoSessions : KeyedWorld Bool :=
  World.start { db := emptyProjects } (twoRequests.session (fun body => body.name) shopCall)

/-- The name of the project that is answered, or the error. -/
def shownAnswer : ProjectAnswer → ℕ × String
  | .ok p => (201, p.name)
  | .error (.http status detail) => (status, detail)
  | .error _ => (500, "")

/-- The second request polls while the first one is at work. -/
def polledSchedule : List Bool :=
  [true, true, false, false, true, false, false, false] ++ List.replicate 8 true ++ [false]

theorem createProject_once_polled :
    let w := twoSessions.play polledSchedule
    (w.session true).returned.map shownAnswer = some (201, "Shop") ∧
      (w.session false).returned.map shownAnswer = some (201, "Shop") ∧
      ∃ made : Option ProjectRow, w.db.db.projects.rows = made.toList ∧
        ∀ s a, (w.session s).returned = some a →
          GoodAnswer emptyProjects shopCall twoRequests.Fails made a := by
  have hfollows : World.Follows (AcquiresAlone twoRequests) polledSchedule twoSessions := by
    decide +kernel
  exact ⟨by decide +kernel, by decide +kernel,
    createProject_once emptyProjects twoRequests _ shopCall (World.Run.start.play hfollows)⟩

/-- The second request looks for a record before the first one starts, and gets the lock after
it has ended. -/
theorem createProject_conflicts :
    let w := twoSessions.play ([false] ++ List.replicate 11 true ++ List.replicate 5 false)
    emptyProjects.refusal shopCall = none ∧
      (w.session true).returned.map shownAnswer = some (201, "Shop") ∧
      (w.session false).returned.map shownAnswer =
        some (409, "Project with this name already exists") := by
  refine ⟨rfl, ?_, ?_⟩ <;> decide +kernel

end Zyntry
