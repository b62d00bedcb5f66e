import Zyntry.AssistantHandlers

/-!
# What a failed tool call leaves behind

A call that fails has changed nothing, with two exceptions. A key that is rotated is committed
before the handler asks the answer of the service for a method that it does not have, so every
rotation is reported as a failure. A build that the queue refuses has been committed as started,
and is then committed as failed.
-/

namespace Zyntry

open Python SqlProgram

/-- The runtimes, keys, tools and sources are the same. -/
structure ToolTables.Same (d d' : ToolTables) : Prop where
  runtimes : d'.runtimes = d.runtimes
  apiKeys : d'.apiKeys = d.apiKeys
  tools : d'.tools = d.tools
  sources : d'.sources = d.sources

theorem ToolTables.same_of_eq {d d' : ToolTables} (h : d' = d) : d.Same d' := by
  subst h
  exact ⟨rfl, rfl, rfl, rfl⟩

/-- If the program fails, the tables are what they were. -/
def LeavesTables {α : Type} (p : ToolProgram α) (d : ToolTables) : Prop :=
  p.Ends d fun result d' => ∀ e, result = .error e → d.Same d'

theorem leavesTables_of_failsClean {α : Type} {p : ToolProgram α} (hp : p.FailsClean)
    (d : ToolTables) : LeavesTables p d :=
  fun e he => ToolTables.same_of_eq (hp d e he)

theorem get?_saveRuntime (d : ToolTables) {row row' : AssistantRuntime}
    (h : d.runtimes.get? row'.id = some row) :
    (d.saveRuntime row').runtimes.get? row'.id = some row' := by
  have hid : row.id = row'.id := RowTable.get?_some_key h
  refine (RowTable.get?_update_self d.runtimes row'.id (fun r => { row' with id := r.id })
    fun _ => rfl).trans ?_
  rw [h, Option.map_some, hid]

theorem saveRuntime_same_iff (d : ToolTables) {row row' : AssistantRuntime}
    (h : d.runtimes.get? row'.id = some row) : d.Same (d.saveRuntime row') ↔ row' = row := by
  constructor
  · intro hsame
    have hget := get?_saveRuntime d h
    rw [hsame.runtimes, h] at hget
    exact (Option.some.inj hget).symm
  · rintro rfl
    have hself : (d.saveRuntime row').runtimes = d.runtimes := by
      apply RowTable.update_eq_self
      · exact fun _ => rfl
      · intro r hr
        obtain rfl := Option.some.inj (h.symm.trans hr)
        rfl
    exact ⟨hself, rfl, rfl, rfl⟩

/-- Of two changes of a row the last one counts. -/
theorem saveRuntime_saveRuntime_same_iff (d : ToolTables) {row row' row'' : AssistantRuntime}
    (h : d.runtimes.get? row'.id = some row) (hid : row''.id = row'.id) :
    d.Same ((d.saveRuntime row').saveRuntime row'') ↔ row'' = row := by
  have htwice : ((d.saveRuntime row').saveRuntime row'').runtimes =
      (d.saveRuntime row'').runtimes := by
    unfold ToolTables.saveRuntime
    simp only [hid, RowTable.update_update]
  rw [← saveRuntime_same_iff d (hid ▸ h)]
  constructor
  · intro hsame
    exact ⟨htwice ▸ hsame.runtimes, rfl, rfl, rfl⟩
  · intro hsame
    exact ⟨htwice.trans hsame.runtimes, rfl, rfl, rfl⟩

/-! ## Programs of the services -/

section

variable (services : ToolServices)

theorem writes_requireUuid {G : Unit → ToolTables → ToolTables → Prop} (text message : String) :
    (requireUuid text message).Writes G := writes_orRaise

theorem writes_flush {G : Unit → ToolTables → ToolTables → Prop}
    (change : ToolTables → ToolTables) : (services.flush change).Writes G := by
  unfold ToolServices.flush
  refine (writes_query _ _).bind fun refused => ?_
  cases refused with
  | none => exact writes_ret ()
  | some e => exact writes_raise e

theorem commitsLast_save (change : ToolTables → ToolTables) :
    (services.save change).CommitsLast := by
  unfold ToolServices.save
  exact CommitsLast.bind (writes_flush services change) fun _ => commitsLast_write () change

theorem exec_flush (change : ToolTables → ToolTables) (d : ToolTables) :
    (services.flush change).exec d =
      match services.flushError (change d) with
      | some e => (.error e, d)
      | none => (.ok (), d) := by
  change (match services.flushError (change d) with
    | some e => (raise e : ToolProgram Unit)
    | none => pure ()).exec d = _
  cases services.flushError (change d) <;> rfl

theorem exec_save (change : ToolTables → ToolTables) (d : ToolTables) :
    (services.save change).exec d =
      match services.flushError (change d) with
      | some e => (.error e, d)
      | none => (.ok (), change d) := by
  unfold ToolServices.save
  rw [exec_bind, exec_flush]
  cases services.flushError (change d) <;> rfl

end

namespace RuntimeAssistantTools

variable (self : RuntimeAssistantTools)

/-- The row of the assistant's runtime. -/
def runtime? (d : ToolTables) : Option AssistantRuntime :=
  ((uuid self.runtimeId).map Uuid.mk).bind d.runtimes.get?

theorem writes_getRuntime {G : Unit → ToolTables → ToolTables → Prop} :
    self.getRuntime.Writes G :=
  (writes_requireUuid _ _).bind fun _ => (writes_query _ _).bind fun _ => writes_orRaise

theorem exec_getRuntime_some {d : ToolTables} {row : AssistantRuntime}
    (h : self.runtime? d = some row) : self.getRuntime.exec d = (.ok row, d) := by
  obtain ⟨id, hid, hrow⟩ := Option.bind_eq_some_iff.mp h
  unfold getRuntime requireUuid
  rw [hid]
  change (orRaise (d.runtimes.get? id) _ : ToolProgram AssistantRuntime).exec d = _
  rw [hrow]
  rfl

theorem exec_getRuntime_none {d : ToolTables} (h : self.runtime? d = none) :
    ∃ e, self.getRuntime.exec d = (.error e, d) := by
  unfold getRuntime requireUuid
  cases hid : (uuid self.runtimeId).map Uuid.mk with
  | none => exact ⟨_, rfl⟩
  | some id =>
      have hrow : d.runtimes.get? id = none := by
        rw [runtime?, hid] at h
        exact h
      refine ⟨.valueError "Runtime not found", ?_⟩
      change (orRaise (d.runtimes.get? id) _ : ToolProgram AssistantRuntime).exec d = _
      rw [hrow]
      rfl

theorem runtime?_get? {d : ToolTables} {row : AssistantRuntime}
    (h : self.runtime? d = some row) : d.runtimes.get? row.id = some row := by
  obtain ⟨id, -, hrow⟩ := Option.bind_eq_some_iff.mp h
  obtain rfl : row.id = id := RowTable.get?_some_key hrow
  exact hrow

/-! ## Handlers that fail before they commit -/

theorem commitsLast_update (change : StoredRuntime → Except ToolError StoredRuntime) :
    (self.update change).CommitsLast := by
  unfold update
  apply CommitsLast.bind self.writes_getRuntime
  intro row
  apply CommitsLast.bind writes_ofExcept
  intro stored
  exact (commitsLast_save self.services _).map fun _ => _

theorem commitsLast_changed (change : StoredRuntime → Except ToolError StoredRuntime)
    (answer : Fields) : (self.changed change answer).CommitsLast :=
  (self.commitsLast_update change).map _

theorem commitsLast_updateStatus (status : String) : (self.updateStatus status).CommitsLast :=
  CommitsLast.bind self.writes_getRuntime fun _ => commitsLast_save self.services _

theorem commitsLast_await (row : AssistantRuntime) (status trigger : String) (answer : Fields) :
    (self.await row status trigger answer).CommitsLast :=
  (commitsLast_save self.services _).map _

theorem commitsLast_pausing (status : String) (answer : Json) :
    (do
      let _ ← self.getRuntime
      self.updateStatus status
      pure answer : ToolProgram Json).CommitsLast :=
  CommitsLast.bind self.writes_getRuntime fun _ =>
    (self.commitsLast_updateStatus status).map fun _ => answer

theorem commitsLast_revokeKey (apiKeyId : Json) :
    (self.services.revokeKey apiKeyId).CommitsLast := by
  unfold ToolServices.revokeKey
  apply CommitsLast.bind
  · cases apiKeyId with
    | str s => exact writes_requireUuid s _
    | _ => exact writes_raise _
  · intro id
    apply CommitsLast.bind (writes_query _ _)
    intro found
    apply CommitsLast.bind writes_orRaise
    intro key
    exact commitsLast_save self.services _

/-- What happens to a source is told in the answer. -/
theorem returns_syncOne (source : AssistantSource) : (self.syncOne source).Returns :=
  returns_catching fun _ => returns_ret _

theorem failsClean_syncSources : self.syncSources.FailsClean := by
  unfold syncSources
  apply FailsClean.bind self.writes_getRuntime
  intro row
  apply FailsClean.bind writes_orRaise
  intro projectId
  apply FailsClean.bind (writes_requireUuid _ _)
  intro project
  apply FailsClean.bind (writes_query _ _)
  intro sources
  have hreturns := (returns_mapM self.returns_syncOne sources).bind fun results =>
    returns_ret (Json.obj [("status", .str "completed"), ("synced", .int results.length),
      ("results", .arr results)])
  exact hreturns.failsClean

/-- Every handler but two fails before it commits anything. -/
theorem failsClean_body (name : String) (arguments : Fields) {handler : ToolHandler}
    (hrestart : handler ≠ .restartRuntime) (hrotate : handler ≠ .rotateApiKey) :
    (self.body name arguments handler).FailsClean := by
  unfold body
  cases handler with
  | reads required optional =>
      apply CommitsLast.failsClean
      apply CommitsLast.bind (writes_query _ _)
      intro answer
      cases answer with
      | ok result => exact commitsLast_ret result
      | error e => exact commitsLast_raise e
  | enableDynamicRouting => exact (self.commitsLast_changed _ _).failsClean
  | disableDynamicRouting => exact (self.commitsLast_changed _ _).failsClean
  | changeDefaultProvider => exact (self.commitsLast_changed _ _).failsClean
  | changeTemperature => exact (self.commitsLast_changed _ _).failsClean
  | changeMaxTokens => exact (self.commitsLast_changed _ _).failsClean
  | updateRuntimeConfiguration => exact (self.commitsLast_changed _ _).failsClean
  | syncSources => exact self.failsClean_syncSources
  | restartRuntime => exact absurd rfl hrestart
  | pauseRuntime => exact (self.commitsLast_pausing _ _).failsClean
  | resumeRuntime => exact (self.commitsLast_pausing _ _).failsClean
  | rotateApiKey => exact absurd rfl hrotate
  | revokeApiKey => exact ((self.commitsLast_revokeKey _).map fun _ => _).failsClean

end RuntimeAssistantTools

/-! ## Rotated keys -/

section

variable (services : ToolServices)

/-- The tables after the rotation of a key. -/
def rotatedTables (old : StoredApiKey) (d : ToolTables) : ToolTables :=
  (d.createApiKey (services.rotated old).1).revokeApiKey old.id

/-- The key is not revoked, and the database takes the one in its place. -/
structure Rotatable (keyId : Uuid) (d : ToolTables) (old : StoredApiKey) : Prop where
  stored : d.apiKeys.get? keyId = some old
  active : old.revoked = false
  free : d.apiKeys.get? services.newId = none
  created : services.flushError (d.createApiKey (services.rotated old).1) = none
  replaced : services.flushError (rotatedTables services old d) = none

/-- A key is rotated, or nothing is committed. -/
theorem exec_rotateKey (keyId : Uuid) (d : ToolTables) :
    (∃ old rotated, Rotatable services keyId d old ∧
        (services.rotateKey keyId).exec d = (.ok rotated, rotatedTables services old d)) ∨
      (¬ ∃ old, Rotatable services keyId d old) ∧
        ∃ e, (services.rotateKey keyId).exec d = (.error e, d) := by
  have hid : ∀ old, (services.rotated old).1.id = services.newId := fun _ => rfl
  unfold ToolServices.rotateKey
  simp only [exec_bind, exec_query, exec_orRaise]
  cases hold : d.apiKeys.get? keyId with
  | none =>
      refine .inr ⟨?_, _, rfl⟩
      rintro ⟨old, h⟩
      exact absurd (hold.symm.trans h.stored) (by simp)
  | some old =>
      have hfails (h : ¬ Rotatable services keyId d old) :
          ¬ ∃ old, Rotatable services keyId d old := by
        rintro ⟨old', hold'⟩
        obtain rfl := Option.some.inj (hold.symm.trans hold'.stored)
        exact h hold'
      simp only [exec_ensure, exec_flush, exec_save, hid]
      by_cases hactive : old.revoked = false
      · by_cases hfree : d.apiKeys.get? services.newId = none
        · cases hcreated : services.flushError (d.createApiKey (services.rotated old).1) with
          | some e =>
              refine .inr ⟨hfails fun h => ?_, e, by simp [hactive, hfree, hcreated]⟩
              exact absurd (hcreated.symm.trans h.created) (by simp)
          | none =>
              cases hreplaced : services.flushError
                  ((d.createApiKey (services.rotated old).1).revokeApiKey old.id) with
              | some e =>
                  refine .inr ⟨hfails fun h => ?_, e,
                    by simp [hactive, hfree, hcreated, hreplaced]⟩
                  exact absurd (hreplaced.symm.trans h.replaced) (by simp)
              | none =>
                  refine .inl ⟨old, ⟨(services.rotated old).1.toRead, (services.rotated old).2⟩,
                    ⟨hold, hactive, hfree, hcreated, hreplaced⟩, ?_⟩
                  simp [hactive, hfree, hcreated, hreplaced, rotatedTables]
        · refine .inr ⟨hfails fun h => hfree h.free, .other, ?_⟩
          simp [hactive, Option.isSome_iff_ne_none.mpr hfree]
      · refine .inr ⟨hfails fun h => hactive h.active,
          .valueError "API key is already revoked", ?_⟩
        simp [hactive]

theorem Rotatable.not_same {keyId : Uuid} {d : ToolTables} {old : StoredApiKey}
    (h : Rotatable services keyId d old) : ¬ d.Same (rotatedTables services old d) := by
  intro hsame
  have hold := h.stored
  obtain rfl : old.id = keyId := RowTable.get?_some_key hold
  have hne : old.id ≠ (services.rotated old).1.id := by
    intro heq
    rw [heq] at hold
    exact absurd (hold.symm.trans h.free) (by simp)
  have hget : (rotatedTables services old d).apiKeys.get? old.id =
      some { old with revoked := true } := by
    refine (RowTable.get?_update_self (d.createApiKey (services.rotated old).1).apiKeys old.id
      (fun key => { key with revoked := true }) fun _ => rfl).trans ?_
    rw [ToolTables.createApiKey, RowTable.get?_insert_of_ne _ hne, hold]
    rfl
  rw [hsame.apiKeys, hold] at hget
  have hrevoked := congrArg StoredApiKey.revoked (Option.some.inj hget)
  rw [h.active] at hrevoked
  cases hrevoked

end

namespace RuntimeAssistantTools

variable (self : RuntimeAssistantTools)

/-- The runtime has a key that can be rotated. -/
def RotatesKey (d : ToolTables) : Prop :=
  ∃ row ∈ self.runtime? d, ∃ keyId ∈ row.apiKeyId, ∃ old, Rotatable self.services keyId d old

theorem not_rotatesKey_of_none {d : ToolTables} (h : self.runtime? d = none) :
    ¬ self.RotatesKey d := by
  simp [RotatesKey, h]

theorem rotatesKey_iff {d : ToolTables} {row : AssistantRuntime}
    (h : self.runtime? d = some row) :
    self.RotatesKey d ↔ ∃ keyId ∈ row.apiKeyId, ∃ old, Rotatable self.services keyId d old := by
  simp [RotatesKey, h]

/-- A rotation that is carried out is reported as a failure. -/
theorem leavesTables_rotateApiKey (d : ToolTables) :
    LeavesTables self.rotateApiKey d ↔ ¬ self.RotatesKey d := by
  unfold LeavesTables rotateApiKey
  rw [ends_bind]
  unfold Ends
  cases hruntime : self.runtime? d with
  | none =>
      obtain ⟨e, he⟩ := self.exec_getRuntime_none hruntime
      rw [he]
      exact iff_of_true (fun _ _ => ToolTables.same_of_eq rfl)
        (self.not_rotatesKey_of_none hruntime)
  | some row =>
      rw [self.exec_getRuntime_some hruntime, self.rotatesKey_iff hruntime]
      dsimp only
      cases hkey : row.apiKeyId with
      | none => exact iff_of_true (fun e he => by cases he) (by simp)
      | some keyId =>
          have hkeys : (∃ key ∈ some keyId, ∃ old, Rotatable self.services key d old) ↔
              ∃ old, Rotatable self.services keyId d old := by simp
          rw [hkeys]
          dsimp only
          rcases exec_rotateKey self.services keyId d with
            ⟨old, rotated, hold, hexec⟩ | ⟨hnone, e, hexec⟩
          · rw [exec_bind_ok hexec]
            refine iff_of_false ?_ (not_not_intro ⟨old, hold⟩)
            intro h
            exact Rotatable.not_same self.services hold (h .other rfl)
          · rw [exec_bind_error hexec]
            exact iff_of_true (fun _ _ => ToolTables.same_of_eq rfl) hnone

/-! ## Builds that are not queued -/

/-- The row of a runtime whose build the queue has refused. -/
def leftRow (services : ToolServices) (row : AssistantRuntime) (reason : String)
    (d : ToolTables) : AssistantRuntime :=
  let building := row.building services.now
  let failed := building.unqueued reason
  match services.flushError ((d.saveRuntime building).saveRuntime failed) with
  | some _ => building
  | none => failed

/-- The runtime can be built, the queue refuses the build, and the row is not already as it is
then left. -/
def BuildRefused (d : ToolTables) : Prop :=
  ∃ row ∈ self.runtime? d, (self.services.buildGate row d = .passed) ∧
    ∃ reason ∈ self.services.queueError,
      self.services.flushError (d.saveRuntime (row.building self.services.now)) = none ∧
        leftRow self.services row reason d ≠ row

theorem not_buildRefused_of_none {d : ToolTables} (h : self.runtime? d = none) :
    ¬ self.BuildRefused d := by
  simp [BuildRefused, h]

theorem buildRefused_iff {d : ToolTables} {row : AssistantRuntime}
    (h : self.runtime? d = some row) :
    self.BuildRefused d ↔ self.services.buildGate row d = .passed ∧
      ∃ reason ∈ self.services.queueError,
        self.services.flushError (d.saveRuntime (row.building self.services.now)) = none ∧
          leftRow self.services row reason d ≠ row := by
  simp [BuildRefused, h]

/-- The only failure of a restart that changes anything is that of the queue. -/
theorem leavesTables_enqueueBuild (trigger : String) (d : ToolTables) :
    LeavesTables (self.enqueueBuild trigger) d ↔ ¬ self.BuildRefused d := by
  unfold LeavesTables enqueueBuild
  rw [ends_bind]
  unfold Ends
  cases hruntime : self.runtime? d with
  | none =>
      obtain ⟨e, he⟩ := self.exec_getRuntime_none hruntime
      rw [he]
      exact iff_of_true (fun _ _ => ToolTables.same_of_eq rfl)
        (self.not_buildRefused_of_none hruntime)
  | some row =>
      rw [self.exec_getRuntime_some hruntime, self.buildRefused_iff hruntime]
      simp only [exec_bind, exec_query]
      have hawait (status : String) (answer : Fields) :=
        leavesTables_of_failsClean (self.commitsLast_await row status trigger answer).failsClean d
      cases hgate : self.services.buildGate row d with
      | projectAttachment => exact iff_of_true (hawait _ _) (by simp)
      | providerCredentials requirements => exact iff_of_true (hawait _ _) (by simp)
      | connections slugs => exact iff_of_true (hawait _ _) (by simp)
      | documents formats => exact iff_of_true (hawait _ _) (by simp)
      | passed =>
          have hrow : d.runtimes.get? (row.building self.services.now).id = some row :=
            self.runtime?_get? hruntime
          simp only [exec_bind, exec_save]
          cases hstarted : self.services.flushError
              (d.saveRuntime (row.building self.services.now)) with
          | some e => exact iff_of_true (fun _ _ => ToolTables.same_of_eq rfl) (by simp)
          | none =>
              cases hqueue : self.services.queueError with
              | none => exact iff_of_true (fun e he => by cases he) (by simp)
              | some reason =>
                  have hleft : (True ∧ ∃ refused ∈ some reason,
                      (none : Option ToolException) = none ∧
                        leftRow self.services row refused d ≠ row) ↔
                      leftRow self.services row reason d ≠ row := by simp
                  rw [hleft, not_not]
                  simp only [exec_bind, exec_save, leftRow]
                  cases self.services.flushError ((d.saveRuntime
                      (row.building self.services.now)).saveRuntime
                        ((row.building self.services.now).unqueued reason)) with
                  | some e =>
                      simp only [Except.error.injEq, forall_eq']
                      exact saveRuntime_same_iff d hrow
                  | none =>
                      simp only [exec_raise, Except.error.injEq, forall_eq']
                      exact saveRuntime_saveRuntime_same_iff d hrow rfl

theorem leavesTables_restartRuntime (name : String) (arguments : Fields) (d : ToolTables) :
    LeavesTables (self.body name arguments .restartRuntime) d ↔ ¬ self.BuildRefused d := by
  rw [← self.leavesTables_enqueueBuild "assistant_restart" d]
  unfold LeavesTables
  change (self.enqueueBuild "assistant_restart" >>= _).Ends d _ ↔ _
  rw [ends_bind]
  unfold Ends
  cases (self.enqueueBuild "assistant_restart" |>.exec d).1 with
  | ok result => exact iff_of_true (fun e he => by cases he) fun e he => by cases he
  | error e => exact Iff.rfl

/-! ## Calls -/

/-- A call that is over as failed has left the tables as they were. -/
def FailsWithoutTrace (call : ToolCall) (d : ToolTables) : Prop :=
  (self.execute call).Ends d fun result d' => ∀ executed, result = .ok executed →
    executed.status ∈ ["error", "permission_denied"] → d.Same d'

/-- Every call is answered. -/
theorem returns_execute (call : ToolCall) : (self.execute call).Returns := by
  unfold execute
  cases toolMap.lookup call.name with
  | none => exact returns_ret _
  | some handler => exact returns_catching fun _ => returns_ret _

theorem failedCall_status (e : ToolException) :
    (failedCall e).status ∈ ["error", "permission_denied"] := by
  cases e <;> simp [failedCall]

theorem failsWithoutTrace_iff_called {call : ToolCall} {handler : ToolHandler}
    (h : toolMap.lookup call.name = some handler) (d : ToolTables) :
    self.FailsWithoutTrace call d ↔ LeavesTables (self.called call handler) d := by
  unfold FailsWithoutTrace execute LeavesTables
  rw [h]
  dsimp only
  rw [ends_catching, ends_bind]
  unfold Ends
  cases (self.called call handler |>.exec d).1 with
  | ok result =>
      refine iff_of_true ?_ fun e he => by cases he
      intro executed hexecuted hstatus
      obtain rfl := Except.ok.inj hexecuted
      simp at hstatus
  | error e =>
      constructor
      · intro hsame _ _
        exact hsame (failedCall e) rfl (failedCall_status e)
      · intro hsame _ _ _
        exact hsame e rfl

theorem leavesTables_called {call : ToolCall} {handler : ToolHandler} (d : ToolTables) :
    LeavesTables (self.called call handler) d ↔
      (handler.Accepts call.arguments →
        LeavesTables (self.body call.name call.arguments handler) d) := by
  unfold LeavesTables called
  rw [ends_bind]
  unfold Ends
  rw [exec_ensure]
  by_cases haccepts : handler.Accepts call.arguments
  · simp only [haccepts, if_true, true_imp_iff]
  · simp only [haccepts, if_false, false_imp_iff]
    exact iff_of_true (fun _ _ => ToolTables.same_of_eq rfl) trivial

theorem toolMap_rotateApiKey : ∀ entry ∈ toolMap, entry.2 = .rotateApiKey →
    entry.1 = "rotate_api_key" := by
  decide +kernel

theorem toolMap_restartRuntime : ∀ entry ∈ toolMap, entry.2 = .restartRuntime →
    entry.1 = "restart_runtime" := by
  decide +kernel

/-- A handler without keywords takes no arguments. -/
theorem accepts_iff_nil {handler : ToolHandler} (h : handler.keywords = ([], []))
    (arguments : Fields) : handler.Accepts arguments ↔ arguments = [] := by
  unfold ToolHandler.Accepts
  rw [h]
  constructor
  · rintro ⟨hknown, -⟩
    rw [List.eq_nil_iff_forall_not_mem]
    intro entry hentry
    exact absurd (hknown entry.1 (List.mem_map_of_mem hentry)) (by simp)
  · rintro rfl
    simp [Json.keys]

/-- A failed call has changed nothing, unless it has rotated the key of the runtime or has
started a build that the queue refused. -/
theorem failsWithoutTrace_iff (call : ToolCall) (d : ToolTables) :
    self.FailsWithoutTrace call d ↔
      ¬ (call.arguments = [] ∧ (call.name = "rotate_api_key" ∧ self.RotatesKey d ∨
        call.name = "restart_runtime" ∧ self.BuildRefused d)) := by
  have hrotate : toolMap.lookup "rotate_api_key" = some .rotateApiKey := by decide +kernel
  have hrestart : toolMap.lookup "restart_runtime" = some .restartRuntime := by decide +kernel
  cases hlookup : toolMap.lookup call.name with
  | none =>
      refine iff_of_true ?_ ?_
      · unfold FailsWithoutTrace execute
        rw [hlookup]
        exact fun _ _ _ => ToolTables.same_of_eq rfl
      · rintro ⟨-, ⟨hname, -⟩ | ⟨hname, -⟩⟩
        · rw [hname, hrotate] at hlookup
          cases hlookup
        · rw [hname, hrestart] at hlookup
          cases hlookup
  | some handler =>
      rw [self.failsWithoutTrace_iff_called hlookup, self.leavesTables_called]
      obtain ⟨before, after, hmap, -⟩ := List.lookup_eq_some_iff.mp hlookup
      have hentry : (call.name, handler) ∈ toolMap := by
        rw [hmap]
        simp
      by_cases hisRotate : handler = .rotateApiKey
      · subst hisRotate
        have hname := toolMap_rotateApiKey _ hentry rfl
        have hbody : LeavesTables (self.body call.name call.arguments .rotateApiKey) d ↔
            ¬ self.RotatesKey d := self.leavesTables_rotateApiKey d
        rw [accepts_iff_nil rfl, hbody]
        dsimp only at hname
        simp [hname]
      · by_cases hisRestart : handler = .restartRuntime
        · subst hisRestart
          have hname := toolMap_restartRuntime _ hentry rfl
          rw [accepts_iff_nil rfl, self.leavesTables_restartRuntime]
          dsimp only at hname
          simp [hname]
        · have hclean := self.failsClean_body call.name call.arguments hisRestart hisRotate
          refine iff_of_true (fun _ => leavesTables_of_failsClean hclean d) ?_
          rintro ⟨-, ⟨hname, -⟩ | ⟨hname, -⟩⟩
          · rw [hname, hrotate] at hlookup
            exact hisRotate (Option.some.inj hlookup).symm
          · rw [hname, hrestart] at hlookup
            exact hisRestart (Option.some.inj hlookup).symm

end RuntimeAssistantTools

/-! ## A runtime with a key -/

def builtRuntime : AssistantRuntime where
  id := ⟨"00000000-0000-0000-0000-000000000001"⟩
  projectId := some ⟨"00000000-0000-0000-0000-000000000003"⟩
  apiKeyId := some ⟨"00000000-0000-0000-0000-000000000002"⟩
  status := "active"

def builtRuntimeDb : ToolTables where
  runtimes := .single builtRuntime
  apiKeys := .single
    { id := ⟨"00000000-0000-0000-0000-000000000002"⟩
      name := "Runtime key"
      hashedKey := "hashed"
      keyPrefix := "sk_test_00000000" }

/-- Services of which nothing refuses anything. -/
def willingServices : ToolServices where
  now := 0
  newId := ⟨"00000000-0000-0000-0000-000000000004"⟩
  generateApiKey := fun keyType => keyType ++ "_11111111"
  hashToken := id
  isoformat := fun _ => "1970-01-01T00:00:00+00:00"
  ipRule := some
  providerRegistry := ["openai"]
  environmentKey := fun _ => some "sk-platform"
  decrypt := fun _ => none
  flushError := fun _ => none
  queueError := none
  answer := fun _ _ _ => .ok .null
  syncSource := fun _ => pure .null

/-- The key of the runtime is rotated, and the call is over as failed. -/
theorem rotated_key_reported_failed :
    ¬ RuntimeAssistantTools.FailsWithoutTrace ⟨willingServices, builtRuntime.id.str, none⟩
      ⟨"rotate_api_key", []⟩ builtRuntimeDb := by
  intro h
  have hcall : (((RuntimeAssistantTools.execute ⟨willingServices, builtRuntime.id.str, none⟩
      ⟨"rotate_api_key", []⟩).exec builtRuntimeDb).1.toOption.map ExecutedCall.status) =
        some "error" := by decide +kernel
  have hkey : ((((RuntimeAssistantTools.execute ⟨willingServices, builtRuntime.id.str, none⟩
      ⟨"rotate_api_key", []⟩).exec builtRuntimeDb).2.apiKeys.get?
        ⟨"00000000-0000-0000-0000-000000000002"⟩).map StoredApiKey.revoked) = some true := by
    decide +kernel
  obtain ⟨executed, hresult, hstatus⟩ := Option.map_eq_some_iff.mp hcall
  have hok := congrArg Prod.fst (exec_of_toOption hresult)
  have hsame := h executed hok (by rw [hstatus]; decide)
  rw [hsame.apiKeys] at hkey
  revert hkey
  decide +kernel

end Zyntry
