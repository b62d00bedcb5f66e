import Zyntry.OnboardingCompletion

/-!
# One runtime for an onboarding session

Calls to complete one session agree on its runtime as long as none of them commits a runtime
of its own to a session that has got another one since it was read. Calls that do not overlap
never do that, whatever crashes come between them.
-/

namespace Zyntry

open Python SqlProgram RowTable
open SqlProgram.World (Run start)

/-- A call commits to a session without a runtime, or it has found the runtime that the session
has. -/
def CompletesOnce : CompletionLabel → CompletionDb → Prop
  | .completed runtimeId created, d => d.session.createdRuntimeId = none ∨
      created = false ∧ d.session.createdRuntimeId = some runtimeId
  | _, _ => True

instance (l : CompletionLabel) (d : CompletionDb) : Decidable (CompletesOnce l d) := by
  cases l <;> unfold CompletesOnce <;> infer_instance

/-- Runtimes that were not there at the start are that of the session, which keeps it. -/
def completionDiscipline (d₀ : CompletionDb) :
    Discipline CompletionDb CompletionRow CompletionLabel where
  inv d _ := ∀ row ∈ d.runtimes.rows, row ∉ d₀.runtimes.rows →
    d.session.createdRuntimeId = some row.id
  guarantee _ _ d d' := ∀ id, d.session.createdRuntimeId = some id →
    d'.session.createdRuntimeId = some id
  own := CompletesOnce
  compatible _ _ := True

/-- What a call knows of the session that it has read. -/
def KeepsRuntime (loaded : OnboardingSession) (d : CompletionDb) : Prop :=
  ∀ id, loaded.createdRuntimeId = some id → d.session.createdRuntimeId = some id

section Calls

variable {engine : CompletionEngine} {d₀ : CompletionDb} {session : OnboardingSession}
  {call : CompletionCall} {prepared : CompletionEngine.Preparation}

theorem firm_keepsRuntime (H : Set CompletionRow) :
    (completionDiscipline d₀).Firm H (KeepsRuntime session) :=
  fun _ _ _ _ _ _ _ _ _ hguarantee hkeeps id hid => hguarantee id (hkeeps id hid)

/-- The flush of a completed session sets its runtime. -/
theorem createdRuntimeId_flushedSession (engine : CompletionEngine) (config : Fields) (now : ℤ)
    {stored : OnboardingSession} {runtimeId : Uuid}
    (hstored : session.createdRuntimeId = some runtimeId →
      stored.createdRuntimeId = some runtimeId) :
    (engine.flushedSession session (CompletionEngine.completed session runtimeId config now)
      stored).createdRuntimeId = some runtimeId := by
  change sentColumn session.createdRuntimeId (some runtimeId) stored.createdRuntimeId = _
  unfold sentColumn
  split_ifs with hsame
  · exact hstored hsame.symm
  · rfl

/-- The answer of a call has the runtime that it has committed. -/
def AnswersCommitted (result : OnboardedRuntime × Fields) (_ : Set CompletionRow)
    (Q : CompletionDb → Prop) : Prop :=
  ∀ d, Q d → d.session.createdRuntimeId = some result.1.id

theorem sat_finishSession {runtime : OnboardedRuntime} {created : Bool} {H : Set CompletionRow} :
    (completionDiscipline d₀).Sat (engine.finishSession session call prepared runtime created) H
      (KeepsRuntime session) AnswersCommitted := by
  unfold CompletionEngine.finishSession
  refine Discipline.sat_query _ (firm_keepsRuntime H _) fun d log _ _ hkeeps => ?_
  refine ⟨KeepsRuntime session, hkeeps, ?_⟩
  generalize (if prepared.enabledIntegrations.isEmpty then .ok []
    else engine.reconciled runtime prepared.enabledIntegrations d.store) = policies
  cases policies with
  | error e => trivial
  | ok rows =>
      refine Discipline.sat_locking _ (firm_keepsRuntime H _) fun d log _ _ hkeeps => ?_
      refine ⟨KeepsRuntime session, hkeeps, ?_⟩
      refine Discipline.sat_write _ (firm_keepsRuntime _ _) fun d log hinv hown hkeeps => ?_
      have hset := createdRuntimeId_flushedSession engine
        (CompletionEngine.completedConfig session prepared.config runtime) call.now
        (hkeeps runtime.id)
      have hown : d.session.createdRuntimeId = none ∨
          created = false ∧ d.session.createdRuntimeId = some runtime.id := hown
      refine ⟨fun id hid => ?_, fun row hrow hnew => ?_, fun d =>
        d.session.createdRuntimeId = some runtime.id, hset, fun _ h => h⟩
      · rcases hown with hnone | ⟨-, hsame⟩
        · cases hnone.symm.trans hid
        · rw [← hid, hsame]
          exact hset
      · cases created with
        | false =>
            rcases hown with hnone | ⟨-, hsame⟩
            · cases hnone.symm.trans (hinv row hrow hnew)
            · rw [← hinv row hrow hnew, hsame]
              exact hset
        | true =>
            rcases mem_rows_insert hrow with hold | rfl
            · rcases hown with hnone | ⟨hfalse, -⟩
              · cases hnone.symm.trans (hinv row hold hnew)
              · cases hfalse
            · exact hset

theorem sat_loadRuntime {id : Option Uuid} {H : Set CompletionRow}
    {k : Option OnboardedRuntime → CompletionProgram (OnboardedRuntime × Fields)}
    (hk : ∀ runtime, (completionDiscipline d₀).Sat (k runtime) H (KeepsRuntime session)
      AnswersCommitted) :
    (completionDiscipline d₀).Sat (CompletionEngine.loadRuntime id >>= k) H
      (KeepsRuntime session) AnswersCommitted := by
  cases id with
  | none => exact hk none
  | some id =>
      exact Discipline.sat_query _ (firm_keepsRuntime H _) fun d _ _ _ hkeeps =>
        ⟨KeepsRuntime session, hkeeps, hk _⟩

theorem sat_insertRuntime (runtime : OnboardedRuntime) {H : Set CompletionRow}
    {k : Unit → CompletionProgram (OnboardedRuntime × Fields)}
    (hk : (completionDiscipline d₀).Sat (k ()) (H ∪ {r | r ∈ [.runtime runtime.id]})
      (KeepsRuntime session) AnswersCommitted) :
    (completionDiscipline d₀).Sat (CompletionEngine.insertRuntime runtime >>= k) H
      (KeepsRuntime session) AnswersCommitted := by
  unfold CompletionEngine.insertRuntime
  rw [SqlProgram.bind_assoc]
  refine Discipline.sat_locking _ (firm_keepsRuntime H _) fun d log _ _ hkeeps => ?_
  refine ⟨KeepsRuntime session, hkeeps, ?_⟩
  unfold ensure
  split_ifs
  · exact hk
  · trivial

theorem sat_finishRuntime {name : String} {runtime existing : Option OnboardedRuntime}
    {H : Set CompletionRow} :
    (completionDiscipline d₀).Sat
      (engine.finishRuntime session call prepared name runtime existing) H
      (KeepsRuntime session) AnswersCommitted := by
  unfold CompletionEngine.finishRuntime
  cases runtime with
  | some runtime => exact sat_finishSession
  | none =>
      cases existing with
      | some existing =>
          dsimp only
          split_ifs
          · exact sat_finishSession
          · trivial
      | none =>
          dsimp only
          cases engine.newRuntime session call.userId call.newId prepared.config name
            prepared.environment with
          | error e => trivial
          | ok row => exact sat_insertRuntime row sat_finishSession

theorem sat_ensureOnboardingRuntime {H : Set CompletionRow} :
    (completionDiscipline d₀).Sat (engine.ensureOnboardingRuntime session call prepared) H
      (KeepsRuntime session) AnswersCommitted := by
  unfold CompletionEngine.ensureOnboardingRuntime
  refine sat_loadRuntime fun created => ?_
  cases prepared.runtimeName with
  | str name =>
      have hname : ∀ runtime, (completionDiscipline d₀).Sat (do
          let existing ← query .nameLooked fun d =>
            d.byOwnerAndName engine.names call.userId name
          engine.finishRuntime session call prepared name runtime existing) H
            (KeepsRuntime session) AnswersCommitted := fun runtime =>
        Discipline.sat_query _ (firm_keepsRuntime H _) fun d _ _ _ hkeeps =>
          ⟨KeepsRuntime session, hkeeps, sat_finishRuntime⟩
      dsimp only
      split_ifs
      · exact sat_loadRuntime hname
      · exact hname created
  | _ =>
      dsimp only
      split_ifs
      · exact sat_loadRuntime fun _ => trivial
      · trivial

/-- What a call returns is the runtime of the session. -/
def AnswersRuntime (response : OnboardingCompleteResponse) (d : CompletionDb) : Prop :=
  d.session.createdRuntimeId = some response.runtimeId

theorem lasting_answersRuntime (response : OnboardingCompleteResponse) :
    (completionDiscipline d₀).Lasting (AnswersRuntime response) :=
  fun _ _ _ _ _ _ hguarantee hresponse => hguarantee response.runtimeId hresponse

theorem sat_completeSession {H : Set CompletionRow} :
    (completionDiscipline d₀).Sat (engine.completeSession session call) H (KeepsRuntime session)
      (Discipline.Ensures AnswersRuntime) := by
  unfold CompletionEngine.completeSession
  split_ifs
  · cases engine.prepareAgain session call.req with
    | error e => trivial
    | ok prepared =>
        change (completionDiscipline d₀).Sat
          (engine.ensureOnboardingRuntime session call prepared >>= _) H _ _
        refine Discipline.sat_bind _ _ _ _ _ _ (sat_ensureOnboardingRuntime.mono ?_)
        exact fun _ _ _ hanswers => hanswers
  · cases engine.prepareDraft session call.req with
    | error e => trivial
    | ok draft =>
        obtain ⟨prepared, policies⟩ := draft
        change (completionDiscipline d₀).Sat
          (engine.ensureOnboardingRuntime session call prepared >>= _) H _ _
        refine Discipline.sat_bind _ _ _ _ _ _ (sat_ensureOnboardingRuntime.mono ?_)
        rintro ⟨runtime, config⟩ H' Q hanswers
        dsimp only
        cases engine.draftMessage prepared.runtimeName prepared.environment runtime.status config
          policies with
        | error e => trivial
        | ok message => exact hanswers

theorem sat_completeOnboarding (engine : CompletionEngine) (d₀ : CompletionDb)
    (call : CompletionCall) (H : Set CompletionRow) :
    (completionDiscipline d₀).Sat (engine.completeOnboarding call) H (fun _ => True)
      (Discipline.Ensures AnswersRuntime) := by
  unfold CompletionEngine.completeOnboarding
  cases (uuid call.req.sessionId).map Uuid.mk with
  | none => trivial
  | some sessionId =>
      refine Discipline.sat_query _ (Discipline.stable_true _ _ _) fun d _ _ _ _ => ?_
      refine ⟨KeepsRuntime d.session, fun _ hid => hid, ?_⟩
      unfold ensure
      split_ifs
      · exact sat_completeSession
      · trivial

end Calls

/-! ## Interleavings -/

section Runs

-- a call is known by `sat_completeOnboarding` from here on
attribute [local irreducible] CompletionEngine.completeOnboarding

variable {S : Type} [DecidableEq S]

abbrev CompletionWorld (S : Type) :=
  World S CompletionDb CompletionRow CompletionLabel CompletionError OnboardingCompleteResponse

/-- A session that stands before its commit may make it. -/
def CommitsOnce (w : CompletionWorld S) (s : S) : Prop :=
  ∀ l, (w.session s).head = some l → CompletesOnce l w.db

instance (w : CompletionWorld S) (s : S) : Decidable (CommitsOnce w s) :=
  inferInstanceAs (Decidable (∀ l ∈ (w.session s).head, CompletesOnce l w.db))

/-- The runtimes that a run has created and the runtimes that its calls have returned are one
and the same. -/
def OneRuntime (d₀ : CompletionDb) (w : CompletionWorld S) : Prop :=
  ∃ runtimeId, (∀ row ∈ w.db.runtimes.rows, row ∉ d₀.runtimes.rows → row.id = runtimeId) ∧
    ∀ s response, w.session s = .ret response → response.runtimeId = runtimeId

/-- However the calls for a session are interleaved and wherever they crash, they create and
return one runtime, if each of them commits to a session without a runtime or has found the one
that the session has. -/
theorem onboardingRuntime_once (engine : CompletionEngine) (d₀ : CompletionDb)
    (calls : S → CompletionCall) {w : CompletionWorld S}
    (hrun : Run CommitsOnce (start d₀ fun s => engine.completeOnboarding (calls s)) w) :
    OneRuntime d₀ w := by
  have hsat : ∀ s, (completionDiscipline d₀).Sat (engine.completeOnboarding (calls s)) ∅
      (fun _ => True) (Discipline.Ensures AnswersRuntime) := fun s =>
    sat_completeOnboarding engine d₀ (calls s) ∅
  have hinv : (completionDiscipline d₀).inv d₀ [] := fun row hrow hnew => absurd hrow hnew
  have hstart := Discipline.fulfilled_start (S := S) (completionDiscipline d₀) hinv hsat
  have hfulfilled : (completionDiscipline d₀).Fulfilled (fun _ => AnswersRuntime) w :=
    Discipline.Fulfilled.run hrun (fun w s hok => ⟨hok, fun _ _ _ _ _ _ _ _ => trivial⟩)
      (fun _ response => lasting_answersRuntime response) hstart
  have hreturned : ∀ s response, w.session s = .ret response →
      w.db.session.createdRuntimeId = some response.runtimeId :=
    fun s response hs => hfulfilled.returned hs
  cases hsession : w.db.session.createdRuntimeId with
  | none =>
      refine ⟨⟨""⟩, fun row hrow hnew => ?_, fun s response hs => ?_⟩
      · cases hsession.symm.trans (hfulfilled.1 row hrow hnew)
      · cases hsession.symm.trans (hreturned s response hs)
  | some runtimeId =>
      refine ⟨runtimeId, fun row hrow hnew => ?_, fun s response hs => ?_⟩
      · exact (Option.some.inj (hsession.symm.trans (hfulfilled.1 row hrow hnew))).symm
      · exact (Option.some.inj (hsession.symm.trans (hreturned s response hs))).symm

end Runs

/-! ## Calls one after the other -/

/-- The foreign key of the session's runtime. -/
def CompletionDb.HasRuntime (d : CompletionDb) : Prop :=
  ∀ id, d.session.createdRuntimeId = some id → (d.runtimes.get? id).isSome

/-- Every commit of a call is one that the condition admits. -/
def AdmittedCommits (_ : List CompletionLabel) (l : CompletionLabel) (d _ : CompletionDb) : Prop :=
  CompletesOnce l d

section Serial

variable {engine : CompletionEngine} {call : CompletionCall}
  {prepared : CompletionEngine.Preparation} {log : List CompletionLabel} {d : CompletionDb}

theorem writesFrom_finishSession {session : OnboardingSession} {runtime : OnboardedRuntime}
    {created : Bool} (h : CompletesOnce (.completed runtime.id created) d) :
    (engine.finishSession session call prepared runtime created).WritesFrom AdmittedCommits
      log d := by
  unfold CompletionEngine.finishSession
  simp only [writesFrom_query, writesFrom_ofExcept, writesFrom_locking, writesFrom_write]
  exact fun rows _ => ⟨h, writesFrom_ret _⟩

theorem writesFrom_finishRuntime {session : OnboardingSession} {name : String}
    {runtime existing : Option OnboardedRuntime}
    (h : ∀ id, d.session.createdRuntimeId = some id → ∃ r, runtime = some r ∧ r.id = id) :
    (engine.finishRuntime session call prepared name runtime existing).WritesFrom
      AdmittedCommits log d := by
  -- a session with a runtime has found it, and any commit fits to a session without one
  have hcommit : ∀ (r : OnboardedRuntime) (created : Bool),
      (d.session.createdRuntimeId.isSome → created = false ∧ runtime = some r) →
      CompletesOnce (.completed r.id created) d := by
    intro r created hfound
    cases hsession : d.session.createdRuntimeId with
    | none => exact Or.inl hsession
    | some id =>
        obtain ⟨r', hr', hid⟩ := h id hsession
        obtain ⟨hcreated, hr⟩ := hfound (by rw [hsession]; rfl)
        obtain rfl := Option.some.inj (hr'.symm.trans hr)
        exact Or.inr ⟨hcreated, hsession.trans (congrArg some hid.symm)⟩
  have hnone : runtime = none → d.session.createdRuntimeId.isSome → False := by
    intro hruntime hsession
    obtain ⟨id, hid⟩ := Option.isSome_iff_exists.mp hsession
    obtain ⟨r, hr, -⟩ := h id hid
    cases hruntime.symm.trans hr
  unfold CompletionEngine.finishRuntime
  cases runtime with
  | some runtime => exact writesFrom_finishSession (hcommit runtime false fun _ => ⟨rfl, rfl⟩)
  | none =>
      cases existing with
      | some existing =>
          dsimp only
          split_ifs
          · exact writesFrom_finishSession (hcommit existing false fun hs => (hnone rfl hs).elim)
          · exact writesFrom_raise _
      | none =>
          dsimp only
          rw [writesFrom_ofExcept]
          intro row _
          unfold CompletionEngine.insertRuntime
          rw [SqlProgram.bind_assoc, writesFrom_locking, writesFrom_ensure]
          exact fun _ => writesFrom_finishSession
            (hcommit row true fun hs => (hnone rfl hs).elim)

theorem writesFrom_loadRuntime {id : Option Uuid}
    {k : Option OnboardedRuntime → CompletionProgram (OnboardedRuntime × Fields)} :
    (CompletionEngine.loadRuntime id >>= k).WritesFrom AdmittedCommits log d ↔
      (k (id.bind d.runtimes.get?)).WritesFrom AdmittedCommits log d := by
  cases id with
  | none => rfl
  | some id => exact writesFrom_query

/-- A call that runs alone finds the runtime of its session. -/
theorem writesFrom_ensureOnboardingRuntime (hd : d.HasRuntime) :
    (engine.ensureOnboardingRuntime d.session call prepared).WritesFrom AdmittedCommits log d := by
  have hfound : ∀ id, d.session.createdRuntimeId = some id →
      ∃ r, d.session.createdRuntimeId.bind d.runtimes.get? = some r ∧ r.id = id := by
    intro id hid
    obtain ⟨r, hr⟩ := Option.isSome_iff_exists.mp (hd id hid)
    exact ⟨r, by rw [hid, Option.bind_some, hr], get?_some_key hr⟩
  unfold CompletionEngine.ensureOnboardingRuntime
  rw [writesFrom_loadRuntime]
  generalize d.session.createdRuntimeId.bind d.runtimes.get? = created at hfound
  cases prepared.runtimeName with
  | str name =>
      have hname : ∀ runtime, (∀ id, d.session.createdRuntimeId = some id →
          ∃ r, runtime = some r ∧ r.id = id) → WritesFrom AdmittedCommits (do
            let existing ← query .nameLooked fun d =>
              d.byOwnerAndName engine.names call.userId name
            engine.finishRuntime d.session call prepared name runtime existing) log d := by
        intro runtime hruntime
        rw [writesFrom_query]
        exact writesFrom_finishRuntime hruntime
      dsimp only
      split_ifs with hnone
      · rw [writesFrom_loadRuntime]
        refine hname _ fun id hid => ?_
        obtain ⟨r, rfl, -⟩ := hfound id hid
        cases hnone
      · exact hname created hfound
  | _ =>
      dsimp only
      split_ifs
      · rw [writesFrom_loadRuntime]
        exact writesFrom_raise _
      · exact writesFrom_raise _

/-- The commits of a call that runs alone meet the condition. -/
theorem writesFrom_completeOnboarding (hd : d.HasRuntime) :
    (engine.completeOnboarding call).WritesFrom AdmittedCommits log d := by
  unfold CompletionEngine.completeOnboarding
  rw [writesFrom_orRaise]
  intro sessionId _
  rw [writesFrom_query, writesFrom_ensure]
  intro _
  unfold CompletionEngine.completeSession
  split_ifs
  · rw [writesFrom_ofExcept]
    intro prepared _
    exact (writesFrom_ensureOnboardingRuntime hd).bind_reads fun _ => writes_ret _
  · rw [writesFrom_ofExcept]
    rintro ⟨prepared, policies⟩ _
    refine (writesFrom_ensureOnboardingRuntime hd).bind_reads ?_
    rintro ⟨runtime, config⟩
    dsimp only
    cases engine.draftMessage prepared.runtimeName prepared.environment runtime.status config
      policies with
    | error e => exact writes_raise _
    | ok message => exact writes_ret _

/-- Calls one after the other, each to its end or to a crash, meet the condition by
themselves. -/
theorem serialCompletions_admitted {d₀ : CompletionDb}
    (h : SerialLog engine.completeOnboarding (fun _ d _ => d.HasRuntime) d₀ log d) :
    History AdmittedCommits [] d₀ log d :=
  h.history fun _ _ _ hd => writesFrom_completeOnboarding hd

end Serial

/-! ## Calls that overlap -/

def capitalizeWord (s : String) : String :=
  match s.toList with
  | [] => ""
  | c :: cs => String.ofList (c.toUpper :: cs.map Char.toLower)

/-- An engine without integrations and requirements. -/
def plainEngine : CompletionEngine where
  registry := { definitions := [], aliases := [] }
  str := fun
    | .str s => s
    | _ => ""
  modelValidate := fun _ => none
  planDocument := fun _ _ _ _ => .ok .null
  names := { sqlLower := lower, lower := lower, casefold := lower }
  title := fun s => String.intercalate " " ((splitOn ' ' s).map capitalizeWord)
  capitalize := capitalizeWord
  extractRuntimeName := fun _ => none
  columnError := fun _ => none
  sameDocument := fun _ _ => false

/-- A draft for which nothing is chosen yet. -/
def newDraft : CompletionDb where
  session :=
    { id := ⟨"00000000-0000-0000-0000-000000000001"⟩
      userId := ⟨"00000000-0000-0000-0000-000000000002"⟩ }

def runtimeIdOf (second : Bool) : Uuid :=
  if second then ⟨"00000000-0000-0000-0000-00000000000b"⟩
  else ⟨"00000000-0000-0000-0000-00000000000a"⟩

/-- The user completes the session twice. -/
def completionCalls (second : Bool) : CompletionCall where
  userId := newDraft.session.userId
  req := { sessionId := "00000000-0000-0000-0000-000000000001" }
  now := 0
  newId := runtimeIdOf second

def twoCompletions : CompletionWorld Bool :=
  start newDraft fun s => plainEngine.completeOnboarding (completionCalls s)

/-- The first call dies before its commit, and the second one comes to its end. -/
def crashedCompletion : CompletionWorld Bool :=
  ((twoCompletions.play (List.replicate 5 false)).crash false .stopped).play
    (List.replicate 6 true)

theorem crashedCompletion_once :
    crashedCompletion.log = [.completed (runtimeIdOf true) true] ∧
      OneRuntime newDraft crashedCompletion := by
  have hplay : Run CommitsOnce twoCompletions (twoCompletions.play (List.replicate 5 false)) :=
    Run.start.play (by decide)
  have hrun : Run CommitsOnce twoCompletions crashedCompletion := by
    unfold crashedCompletion
    apply Run.play
    · exact hplay.crash false .stopped
    · decide
  exact ⟨by decide, onboardingRuntime_once plainEngine newDraft completionCalls hrun⟩

/-- Both calls have looked the name up before either of them commits. -/
def overlappingCompletions : CompletionWorld Bool :=
  twoCompletions.play ([false, false, true, true] ++ List.replicate 4 false ++
    List.replicate 4 true)

theorem overlappingCompletions_create_two :
    overlappingCompletions.db.runtimes.rows.map OnboardedRuntime.id =
      [runtimeIdOf false, runtimeIdOf true] ∧
    (∀ s, (overlappingCompletions.session s).returned.map OnboardingCompleteResponse.runtimeId =
      some (runtimeIdOf s)) ∧ ¬OneRuntime newDraft overlappingCompletions := by
  have hreturned : ∀ s, (overlappingCompletions.session s).returned.map
      OnboardingCompleteResponse.runtimeId = some (runtimeIdOf s) := by
    decide +kernel
  refine ⟨by decide, hreturned, ?_⟩
  rintro ⟨runtimeId, -, hone⟩
  have hsame : ∀ s, runtimeIdOf s = runtimeId := by
    intro s
    obtain ⟨response, hresponse, hid⟩ := Option.map_eq_some_iff.mp (hreturned s)
    rw [← hid]
    exact hone s response (returned_eq_some.mp hresponse)
  exact absurd ((hsame false).trans (hsame true).symm) (by decide)

end Zyntry
