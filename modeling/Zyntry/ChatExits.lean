import Zyntry.ChatCompletions
import Zyntry.InvokeCharging
import Zyntry.InvokeExits

/-!
# The exits of the chat completions endpoint

The generator of a streamed answer stands in one `try` block, which nothing has entered before
the first step and which a client that goes away leaves without a release. For an answer in one
piece only the query of the pipeline is guarded.
-/

namespace Zyntry

open SqlProgram

namespace ChatCall

variable (c : ChatCall)

/-! ## Which exits are guarded -/

def Releases (r : Reservation) (d : Db) (e : Error) : Prop :=
  ReleaseAnswers (c.faults .release) r d e

/-- What a failure of the request log or of its commit leaves, which `except Exception`
swallows. -/
def logFailure : Option Error :=
  ((c.raises .requestLog).or ((c.faults .commitEvent).map fun f => f.2.error)).filter
    fun e => !e.isException

/-- What a request that has settled its reservation for an answer in one piece ends with. -/
def answerFailure (d : Db) (log : UsageLog) : Option Error :=
  (recordFailure (c.faults .recordUsage) (c.raises .published) d log).or
    ((c.raises .event).or (c.logFailure.or (c.raises .response)))

/-- What the handler of a stream raises after the commit of the settlement. -/
def afterSettled (e : Error) : Error :=
  if e.isException then handledError (c.faults .release) e e else e

/-- What a stream that has settled its reservation ends with. -/
def streamFailure (d : Db) (log : UsageLog) : Option Error :=
  ((recordFailure (c.faults .recordUsage) (c.raises .published) d log).or
    ((c.raises .event).or
      (((c.faults .commitEvent).map fun f => f.2.error).or (c.raises .response)))).map
        c.afterSettled

/-- In a stream, no error comes before the generator is entered, and none that its handler does
not answer with a release. -/
def StreamGuarded (r : Reservation) (d : Db) : Prop :=
  c.raises .streamStart = none ∧
    match (c.raises .pipeline).or (c.raises .answer) with
    | some e => c.Releases r d e
    | none =>
        c.faults .pricing = none ∧
          SettleGuarded (c.faults .settle) c.ctx r (settleRequest (c.actualCost d)) (c.Releases r d)
            (fun d' => c.streamFailure d' (c.usageLog (c.actualCost d))) d

/-- For an answer in one piece, no error comes between the query of the pipeline and the commit
of the settlement. -/
def AnswerGuarded (r : Reservation) (d : Db) : Prop :=
  match c.raises .pipeline with
  | some e => c.Releases r d e
  | none =>
      c.raises .answer = none ∧ c.faults .pricing = none ∧
        SettleGuarded (c.faults .settle) c.ctx r (settleRequest (c.actualCost d)) (fun _ => False)
          (fun d' => c.answerFailure d' (c.usageLog (c.actualCost d))) d

/-- The condition under which the request leaves no reservation behind. -/
def Guarded (d : Db) : Prop :=
  c.checks.Ends d fun result d' => ∀ estimated, result = .ok estimated →
    ReserveGuarded (c.faults .reserve) c.ctx (c.reserveRequest estimated)
      (if c.completion.request.stream then c.StreamGuarded else c.AnswerGuarded) d'

end ChatCall

/-! ## The parts of a request -/

section Parts

variable {d₀ d : Db} {α : Type} {c : ChatCall} {r : Reservation} {w : Wallet}

theorem addsNone_settleAnswer : AddsNone (c.settleAnswer r) := by
  apply Writes.bind (AddsNone.attempt (writes_query _ _) _)
  intro actual
  apply Writes.bind ((addsNone_settle r.id _).attempt _)
  intro _
  exact Writes.bind ((addsNone_recordUsage _ _).attempt _) fun _ => writes_ret _

theorem addsNone_onFailure (e : Error) : AddsNone (c.onFailure r e : Sql α) :=
  AddsNone.onException (addsNone_releaseAndRaise _ _ _ _)

theorem addsNone_commitEvent (fault : Fault) :
    AddsNone (attempt fault (write (.commit .event) id)) :=
  AddsNone.attempt (writes_write.mpr Db.SameReservations.refl) _

theorem addsNone_stream : AddsNone (c.stream r) := by
  apply Writes.bind (addsNone_stage _)
  intro _
  refine Writes.catching ?_ addsNone_onFailure
  apply Writes.bind (addsNone_stage _)
  intro _
  apply Writes.bind (addsNone_stage _)
  intro _
  apply Writes.bind addsNone_settleAnswer
  intro actual
  apply Writes.bind (addsNone_stage _)
  intro _
  apply Writes.bind (addsNone_commitEvent _)
  intro _
  exact Writes.bind (addsNone_stage _) fun _ => writes_ret _

theorem addsNone_answer : AddsNone (c.answer r) := by
  apply Writes.bind (Writes.catching (addsNone_stage _) addsNone_onFailure)
  intro _
  apply Writes.bind (addsNone_stage _)
  intro _
  apply Writes.bind addsNone_settleAnswer
  intro actual
  apply Writes.bind (addsNone_stage _)
  intro _
  apply Writes.bind
  · exact Writes.catching (Writes.bind (addsNone_stage _) fun _ => addsNone_commitEvent _)
      fun e => AddsNone.onException (writes_ret _)
  · intro _
    exact Writes.bind (addsNone_stage _) fun _ => writes_ret _

/-- Nothing is reserved or spent before the reservation. -/
theorem ends_chatChecks (c : ChatCall) (d : Db) : c.checks.Ends d fun _ d' => d.SameMoney d' := by
  have hkeeps : c.checks.Keeps d.SameMoney d fun _ => d.SameMoney := by
    simp only [ChatCall.checks, keeps_bind, keeps_stage]
    refine fun _ => keeps_attempt ((keeps_query _ _ _ _ _).mpr fun _ => ?_)
    refine keeps_attempt ((keeps_getWallet_sameMoney c.ctx c.userId).mono ?_)
    intro wallet d' hsame
    split_ifs
    · trivial
    · rw [keeps_bind]
      refine keeps_attempt ((keeps_checkBudget_sameMoney hsame _ _).mono ?_)
      intro allowed d'' hsame'
      cases allowed with
      | false => trivial
      | true => exact hsame'
  exact (hkeeps.ends (.refl d)).mono fun _ _ h => h.1

/-- What follows the settlement of an answer in one piece. -/
theorem failsWith_answer (log : UsageLog) (a : ChatAnswer) (d : Db) :
    FailsWith (attempt (c.faults .recordUsage) (recordUsage (c.raises .published) log) >>= fun _ =>
      stage (c.raises .event) >>= fun _ =>
        (stage (c.raises .requestLog) >>= fun _ =>
          attempt (c.faults .commitEvent) (write (.commit .event) id)).catching
            (onException fun _ => pure ()) >>= fun _ =>
          stage (c.raises .response) >>= fun _ => pure a) (c.answerFailure d log) d := by
  have hswallowed (e : Error) (d : Db) : FailsWith (onException (fun _ => pure ()) e : Sql Unit)
      (if e.isException then none else some e) d := by
    unfold onException
    split_ifs
    · exact failsWith_pure () d
    · exact failsWith_raise e d
  have hlog (d : Db) : FailsWith ((stage (c.raises .requestLog) >>= fun _ =>
      attempt (c.faults .commitEvent) (write (.commit .event) id)).catching
        (onException fun _ => pure ())) c.logFailure d := by
    have hcaught := ((failsWith_stage (c.raises .requestLog) d).bind fun _ d' _ =>
      failsWith_attempt_commit (c.faults .commitEvent) .event d').catching
        fun e d' _ => hswallowed e d'
    convert hcaught using 1
    unfold ChatCall.logFailure
    cases (c.raises .requestLog).or ((c.faults .commitEvent).map fun f => f.2.error) with
    | none => rfl
    | some e => cases h : e.isException <;> simp [Option.filter, h]
  apply (failsWith_recordUsage _ _ log d).bind
  intro _ d₁ _
  apply (failsWith_stage _ d₁).bind
  intro _ d₂ _
  apply (hlog d₂).bind
  intro _ d₃ _
  have hlast := (failsWith_stage (c.raises .response) d₃).bind fun _ d₄ _ => failsWith_pure a d₄
  rwa [Option.or_none] at hlast

theorem exec_actualCost (c : ChatCall) (d : Db) :
    (query .select c.actualCost : Sql ℤ).exec d = (.ok (c.actualCost d), d) := rfl

theorem after_actualCost (c : ChatCall) (d : Db) (n : ℕ) :
    (query .select c.actualCost : Sql ℤ).after n d = d := by
  cases n with
  | zero => rfl
  | succ n => cases n <;> rfl

/-- From the open reservation to the end of an answer in one piece. -/
theorem ends_answer (h : Standing d₀ r w d) :
    (c.answer r).Ends d fun result d' => (Finalised d₀ result d' ↔ c.AnswerGuarded r d) := by
  have hopen {result : Except Error ChatAnswer} {guarded : Prop} (hunguarded : ¬guarded) :
      Finalised d₀ result d ↔ guarded := iff_of_false (not_finalised_of_standing h) hunguarded
  unfold ChatCall.answer ChatCall.AnswerGuarded
  cases c.raises .pipeline with
  | some e => exact ends_of_handled (ends_releaseOnException h _ e)
  | none =>
      change (stage (c.raises .answer) >>= _).Ends d _
      rw [ends_stage]
      cases c.raises .answer with
      | some e => exact hopen (by simp)
      | none =>
      dsimp only
      unfold ChatCall.settleAnswer
      rw [bind_assoc, ends_bind, ends_attempt_of_reads (exec_actualCost c d) (after_actualCost c d)]
      cases c.faults .pricing with
      | some f => exact hopen (by simp)
      | none =>
      simp only [true_and]
      rw [bind_assoc, ← bind_pure_eq (attempt (c.faults .settle) _ >>= _),
        ← catching_raise_eq (attempt (c.faults .settle) _ >>= _)]
      apply ends_settle h
      · exact fun e => h.handled id e
      · exact fun _ => id
      · intro i d' row _ _
        exact ⟨i.error, rfl, by cases i <;> simp [Interruption.error, Error.isException]⟩
      · intro _ row d' _ _ _
        rw [bind_pure_eq, catching_raise_eq, bind_assoc]
        exact failsWith_answer _ _ d'

theorem exec_onFailure_of_closed {row : Reservation} (hrow : d.reservations.get? r.id = some row)
    (hclosed : row.status ≠ .reserved) (e : Error) :
    (c.onFailure r e : Sql α).exec d = (.error (c.afterSettled e), d) := by
  unfold ChatCall.onFailure ChatCall.afterSettled onException
  split_ifs
  · exact exec_releaseAndRaise_of_closed hrow hclosed _ _ _
  · rfl

theorem ChatCall.isException_afterSettled (c : ChatCall) (i : Interruption) :
    (c.afterSettled i.error).isException = false ↔ i = .cancelled := by
  cases i with
  | databaseError => simp [ChatCall.afterSettled, handledError, Interruption.error,
      Error.isException, Error.endsTransaction]
  | cancelled => simp [ChatCall.afterSettled, Interruption.error, Error.isException]

/-- What follows the settlement of a stream, in its `try` block. -/
theorem failsWith_stream {row : Reservation} (hrow : d.reservations.get? r.id = some row)
    (hclosed : row.status ≠ .reserved) (log : UsageLog) (a : ChatAnswer) :
    FailsWith ((attempt (c.faults .recordUsage) (recordUsage (c.raises .published) log) >>= fun _ =>
      stage (c.raises .event) >>= fun _ =>
        attempt (c.faults .commitEvent) (write (.commit .event) id) >>= fun _ =>
          stage (c.raises .response) >>= fun _ => pure a).catching (c.onFailure r))
      (c.streamFailure d log) d := by
  have hhandled (e : Error) (d' : Db) (hsame : d.SameMoney d') :
      FailsWith (c.onFailure r e : Sql ChatAnswer) (some (c.afterSettled e)) d' := by
    unfold FailsWith Ends
    rw [exec_onFailure_of_closed (hsame.reservations ▸ hrow) hclosed]
    exact ⟨.refl d', fun e' => by simp⟩
  unfold ChatCall.streamFailure
  rw [Option.map_eq_bind]
  refine FailsWith.catching ?_ hhandled
  apply (failsWith_recordUsage _ _ log d).bind
  intro _ d₁ _
  apply (failsWith_stage _ d₁).bind
  intro _ d₂ _
  apply (failsWith_attempt_commit _ _ d₂).bind
  intro _ d₃ _
  have hlast := (failsWith_stage (c.raises .response) d₃).bind fun _ d₄ _ => failsWith_pure a d₄
  rwa [Option.or_none] at hlast

/-- From the open reservation to the end of a stream. -/
theorem ends_stream (h : Standing d₀ r w d) :
    (c.stream r).Ends d fun result d' => (Finalised d₀ result d' ↔ c.StreamGuarded r d) := by
  have hopen (e : Error) : (c.onFailure r e : Sql ChatAnswer).Ends d
      (Handled d₀ r (c.Releases r d e)) := ends_releaseOnException h _ e
  have hhandled (e : Error) : (c.onFailure r e : Sql ChatAnswer).Ends d fun result d' =>
      (Finalised d₀ result d' ↔ c.Releases r d e) :=
    (hopen e).mono fun _ _ hhandled => hhandled.finalised_iff
  unfold ChatCall.stream ChatCall.StreamGuarded
  rw [ends_stage]
  cases c.raises .streamStart with
  | some e => exact iff_of_false (not_finalised_of_standing h) (by simp)
  | none =>
  dsimp only
  rw [and_iff_right rfl]
  cases c.raises .pipeline with
  | some e => exact hhandled e
  | none =>
  cases c.raises .answer with
  | some e => exact hhandled e
  | none =>
  simp only [stage, pure_eq, ret_bind, Option.or_none]
  unfold ChatCall.settleAnswer
  rw [bind_assoc, ← bind_pure_eq (catching _ _)]
  cases hpricing : c.faults .pricing with
  | some f =>
      obtain ⟨n, i⟩ := f
      have hexec : (attempt (some (n, i)) (query .select c.actualCost)).exec d =
          (.error i.error, d) := by
        rw [attempt, exec_interrupt, after_actualCost]
      rw [ends_catching_of_error hexec, bind_pure_eq]
      apply (hhandled i.error).mono
      intro result d' hfinal
      exact hfinal.trans (iff_of_false (not_releaseAnswers _ i) (by simp))
  | none =>
      rw [attempt, ends_catching_of_ok (exec_actualCost c d), bind_assoc]
      simp only [true_and]
      apply ends_settle h
      · exact hopen
      · exact not_releaseAnswers _
      · intro i d' row hrow hclosed
        exact ⟨_, exec_onFailure_of_closed hrow hclosed _, c.isException_afterSettled i⟩
      · intro _ row d' hrow hclosed _
        rw [bind_pure_eq, bind_assoc]
        exact failsWith_stream hrow hclosed _ _

end Parts

/-- `chat_completions` leaves no reservation behind exactly if it is guarded. -/
theorem chatCompletions_noneStranded_iff (c : ChatCall) (d : Db) :
    (chatCompletions c).Ends d (NoneStranded d) ↔ c.Guarded d := by
  apply ends_bind_iff (ends_chatChecks c d)
  · exact fun _ _ hsame => hsame.noneStranded _
  intro estimated d' hsame
  apply ends_reserve hsame
  · intro r
    split_ifs
    · exact addsNone_stream
    · exact addsNone_answer
  · intro r w d' hstanding _
    split_ifs
    · exact ends_stream hstanding
    · exact ends_answer hstanding

/-! ## Both endpoints -/

/-- A request to one of the endpoints that reserve before they call a model. -/
inductive MeteredRequest where
  | invoke (c : InvokeCall)
  | chatCompletions (c : ChatCall)

namespace MeteredRequest

/-- Whatever the request ends with, a reservation that it has made is settled or released, and
nothing is charged for an error. -/
def StrandsNone (q : MeteredRequest) (d : Db) : Prop :=
  match q with
  | .invoke c => (Zyntry.invoke c).Ends d (NoneStranded d)
  | .chatCompletions c => (Zyntry.chatCompletions c).Ends d (NoneStranded d)

def Guarded (q : MeteredRequest) (d : Db) : Prop :=
  match q with
  | .invoke c => c.Guarded d
  | .chatCompletions c => c.Guarded d

/-- A request leaves no reservation behind if its exits are guarded, and only then. -/
theorem strandsNone_iff_guarded (q : MeteredRequest) (d : Db) : q.StrandsNone d ↔ q.Guarded d := by
  cases q with
  | invoke c => exact invoke_noneStranded_iff c d
  | chatCompletions c => exact chatCompletions_noneStranded_iff c d

/-- A request for a source that is not connected: the 404 comes after the reservation. -/
def unconnectedSource : InvokeCall where
  ctx := { now := 0, newId := ⟨"r"⟩, newWalletId := ⟨"w2"⟩ }
  userId := ⟨"u"⟩
  requestId := "q"
  provider := "openai"
  model := "gpt-4o"
  preflightInputTokens := 10
  requestedOutputTokens := 1
  invocation := shortInvocation
  raises
    | .retrieval => some (.httpException 404 "sources_not_connected")
    | _ => none

def pricedUser : Db := { oneUser with pricingRules := [outputTokenRule] }

theorem strandsNone_fails_at_unconnectedSource :
    ¬ ∀ (q : MeteredRequest) (d : Db), q.StrandsNone d := by
  intro h
  have hends := h (.invoke unconnectedSource) pricedUser
  have hopen : (((Zyntry.invoke unconnectedSource).exec pricedUser).2.madeSince pricedUser).map
      Reservation.status = [.reserved] := by decide +kernel
  have hmem : ReservationStatus.reserved ∈
      (((Zyntry.invoke unconnectedSource).exec pricedUser).2.madeSince pricedUser).map
        Reservation.status := by
    rw [hopen]
    exact List.mem_singleton_self _
  obtain ⟨r, hr, hreserved⟩ := List.mem_map.mp hmem
  exact (hends (List.ne_nil_of_mem hr)).closed r hr hreserved

end MeteredRequest

end Zyntry
