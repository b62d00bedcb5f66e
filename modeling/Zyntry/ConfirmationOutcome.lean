import Zyntry.ActionConfirmations

/-!
# One confirmation, one outcome

A confirmation is read without a lock and its status is overwritten unconditionally, so a
request may act on a status that is no longer there. If every commit still finds the status
that its request goes by, only one request gets to resolve a confirmation, and all that
happens to it is what this request does.
-/

namespace Zyntry

open SqlProgram

variable {S : Type} [DecidableEq S]

abbrev actionStart (db : ActionDb) (requests : S → ResolutionRequest) :
    World S ActionDb Uuid (S × ActionStatement) ActionError ActionReply :=
  World.startSigned db fun s => (requests s).program

namespace ActionStatement

/-- The confirmation that a commit is about. -/
def subject : ActionStatement → Option Uuid
  | .refuse id _ => some id
  | .approve id => some id
  | .startExecution id _ => some id
  | .perform id => some id
  | .confirm id _ _ => some id
  | .finish id _ _ _ _ => some id
  | _ => none

/-- The status that the request of a commit goes by. -/
def found : ActionStatement → Option (Uuid × ConfirmationStatus)
  | .refuse id _ => some (id, .pending)
  | .approve id => some (id, .pending)
  | .confirm id _ _ => some (id, .pending)
  | .finish id found _ _ _ => some (id, found)
  | _ => none

/-- The status that a commit leaves. -/
def left : ActionStatement → Option (Uuid × ConfirmationStatus)
  | .confirm id _ _ => some (id, .confirmed)
  | l => l.outcome

/-- The action takes effect. -/
def executes (id : Uuid) : ActionStatement → Bool
  | .perform id' => id' = id
  | .confirm id' _ performs => id' = id && performs
  | .finish id' _ _ _ performs => id' = id && performs
  | _ => false

/-- A rejection, a cancellation, an expiry or a denial is recorded. -/
def refuses (id : Uuid) : ActionStatement → Bool
  | .refuse id' _ => id' = id
  | _ => false

def opens (id : Uuid) (l : ActionStatement) : Bool := l.found = some (id, .pending)

/-- A commit goes by a status that is no outcome, and leaves one that is not pending. -/
@[mk_iff proper_iff] structure Proper (l : ActionStatement) : Prop where
  left : ∀ p, l.left = some p → p.2 ≠ .pending
  outcome : ∀ p, l.outcome = some p → p.2 ≠ .pending ∧ p.2 ≠ .confirmed
  found : ∀ p, l.found = some p → p.2 = .pending ∨ p.2 = .confirmed
  overwrites : l.found.map Prod.fst = l.left.map Prod.fst

end ActionStatement

def ActionDb.StatusIs (d : ActionDb) (id : Uuid) (status : ConfirmationStatus) : Prop :=
  ∃ row ∈ d.confirmations.get? id, row.status = status

instance ActionDb.StatusIs.decidable (d : ActionDb) (id : Uuid) (status : ConfirmationStatus) :
    Decidable (d.StatusIs id status) := by
  unfold ActionDb.StatusIs
  infer_instance

/-- A commit finds the status that its request goes by. -/
def FoundAsRead (_ : List (S × ActionStatement)) (e : S × ActionStatement) (d : ActionDb) : Prop :=
  match e.2.found with
  | some (id, status) => d.StatusIs id status
  | none => True

instance FoundAsRead.decidable (log : List (S × ActionStatement)) (e : S × ActionStatement)
    (d : ActionDb) : Decidable (FoundAsRead log e d) := by
  unfold FoundAsRead
  split <;> infer_instance

/-! ## The commits of one request -/

namespace ResolutionTrace

variable {id : Uuid} {mine : List ActionStatement}

theorem subject_of_mem (h : ResolutionTrace id mine) : ∀ l ∈ mine, l.subject = some id := by
  cases h <;> simp [ActionStatement.subject]

theorem exists_opens (h : ResolutionTrace id mine) (hne : mine ≠ []) :
    ∃ l ∈ mine, l.opens id = true := by
  cases h <;> simp_all [ActionStatement.opens, ActionStatement.found]

theorem countP_executes_le_one (h : ResolutionTrace id mine) :
    mine.countP (ActionStatement.executes id) ≤ 1 := by
  cases h <;> simp [ActionStatement.executes, List.countP_cons] <;> split_ifs <;> simp

theorem countP_records_le_one (h : ResolutionTrace id mine) :
    mine.countP (ActionStatement.records id) ≤ 1 := by
  cases h <;> simp [ActionStatement.records, ActionStatement.outcome]

theorem countP_executes_eq_zero (h : ResolutionTrace id mine)
    (hrefuses : ∃ l ∈ mine, l.refuses id = true) :
    mine.countP (ActionStatement.executes id) = 0 := by
  cases h <;> simp_all [ActionStatement.executes, ActionStatement.refuses]

theorem proper (h : ResolutionTrace id mine) : ∀ l ∈ mine, l.Proper := by
  have hfinished : ∀ b, finishedStatus b ≠ .pending ∧ finishedStatus b ≠ .confirmed := by decide
  cases h with
  | refused ho =>
      rename_i outcome
      revert ho
      cases outcome <;>
        simp [ActionStatement.proper_iff, ActionStatement.left, ActionStatement.outcome,
          ActionStatement.found]
  | _ =>
      simp [ActionStatement.proper_iff, ActionStatement.left, ActionStatement.outcome,
        ActionStatement.found, hfinished]

end ResolutionTrace

/-! ## The status of a confirmation -/

theorem ActionDb.statusIs_setStatus {d : ActionDb} {id k : Uuid} {status o : ConfirmationStatus} :
    ({ d with confirmations := d.setStatus id status } : ActionDb).StatusIs k o ↔
      if k = id then o = status ∧ (d.confirmations.get? id).isSome else d.StatusIs k o := by
  unfold StatusIs setStatus
  split_ifs with hk
  · subst hk
    simp only [RowTable.get?_update_self]
    cases d.confirmations.get? k with
    | none => simp
    | some row => simp [eq_comm]
  · simp only [RowTable.get?_update_of_ne _ hk]

theorem ActionStatement.statusIs_effect {l : ActionStatement} {d : ActionDb} {k : Uuid}
    {o : ConfirmationStatus} : (l.effect d).StatusIs k o ↔
      match l.left with
      | some (id, status) =>
          if k = id then o = status ∧ (d.confirmations.get? id).isSome else d.StatusIs k o
      | none => d.StatusIs k o := by
  cases l with
  | refuse id outcome => exact ActionDb.statusIs_setStatus
  | approve id => exact ActionDb.statusIs_setStatus
  | confirm id execution performs => exact ActionDb.statusIs_setStatus
  | finish id found execution succeeds performs => exact ActionDb.statusIs_setStatus
  | _ => exact Iff.rfl

/-- A commit takes a confirmation out of the status that it goes by. -/
theorem ActionStatement.Proper.left_of_found {l : ActionStatement} (h : l.Proper) {id : Uuid}
    {status : ConfirmationStatus} (hfound : l.found = some (id, status)) :
    ∃ status', l.left = some (id, status') := by
  have hmap := h.overwrites
  rw [hfound, Option.map_some] at hmap
  obtain ⟨⟨id', status'⟩, hleft, rfl⟩ := Option.map_eq_some_iff.1 hmap.symm
  exact ⟨status', hleft⟩

theorem ActionStatement.Proper.found_of_left {l : ActionStatement} (h : l.Proper) {id : Uuid}
    {status' : ConfirmationStatus} (hleft : l.left = some (id, status')) :
    ∃ status, l.found = some (id, status) := by
  have hmap := h.overwrites
  rw [hleft, Option.map_some] at hmap
  obtain ⟨⟨id', status⟩, hfound, rfl⟩ := Option.map_eq_some_iff.1 hmap
  exact ⟨status, hfound⟩

theorem ActionStatement.left_of_outcome {l : ActionStatement}
    {p : Uuid × ConfirmationStatus} (h : l.outcome = some p) : l.left = some p := by
  cases l with
  | confirm id execution performs => cases h
  | _ => exact h

/-- A confirmation that is pending after a commit was so before. -/
theorem ActionStatement.Proper.pending_of_effect {l : ActionStatement} (h : l.Proper)
    {d : ActionDb} {k : Uuid} (hpending : (l.effect d).StatusIs k .pending) :
    d.StatusIs k .pending ∧ ∀ status, l.left ≠ some (k, status) := by
  rw [statusIs_effect] at hpending
  cases hleft : l.left with
  | none =>
      rw [hleft] at hpending
      exact ⟨hpending, nofun⟩
  | some p =>
      obtain ⟨id, status⟩ := p
      rw [hleft] at hpending
      dsimp only at hpending
      split_ifs at hpending with hk
      · exact absurd hpending.1.symm (h.left _ hleft)
      · refine ⟨hpending, ?_⟩
        rintro status' heq
        cases heq
        exact hk rfl

theorem ResolutionRequest.Trace.proper {r : ResolutionRequest} {mine : List ActionStatement}
    (h : r.Trace mine) : ∀ l ∈ mine, l.Proper := by
  unfold ResolutionRequest.Trace at h
  split at h
  · exact h.proper
  · intro l hl
    obtain ⟨seconds, rfl⟩ := h l hl
    exact ⟨nofun, nofun, nofun, rfl⟩

/-! ## Runs -/

/-- A commit that meets the condition, in the log of its session. -/
def ResolvingCommit (requests : S → ResolutionRequest) (log : List (S × ActionStatement))
    (e : S × ActionStatement) (d d' : ActionDb) : Prop :=
  FoundAsRead log e d ∧ d' = e.2.effect d ∧ (requests e.1).Trace (ofSession e.1 log ++ [e.2])

section Runs

variable {requests : S → ResolutionRequest} {db d : ActionDb} {log : List (S × ActionStatement)}
  (h : History (ResolvingCommit requests) [] db log d)
include h

theorem trace_ofSession (s : S) : (requests s).Trace (ofSession s log) := by
  refine h.forall_ofSession (T := fun s => (requests s).Trace) ?_ (fun _ _ _ _ hg => hg.2.2) s
  intro s
  unfold ResolutionRequest.Trace
  split
  · exact .start
  · exact fun l hl => absurd hl List.not_mem_nil

/-- A session that has committed something about a confirmation was asked to. -/
theorem resolutionTrace_of_mem {e : S × ActionStatement} (he : e ∈ log) {id : Uuid}
    (hid : e.2.subject = some id) : ResolutionTrace id (ofSession e.1 log) := by
  have htrace := trace_ofSession h e.1
  have hmem : e.2 ∈ ofSession e.1 log := mem_ofSession.2 he
  unfold ResolutionRequest.Trace at htrace
  split at htrace
  · have hsubject := htrace.subject_of_mem e.2 hmem
    rw [hid] at hsubject
    exact (Option.some.inj hsubject) ▸ htrace
  · obtain ⟨seconds, heq⟩ := htrace e.2 hmem
    rw [heq] at hid
    cases hid

/-- Only one commit goes by a confirmation that is pending. -/
theorem countP_opens_le_one (id : Uuid) : log.countP (fun e => e.2.opens id) ≤ 1 := by
  apply h.countP_le_one (P := fun d => d.StatusIs id .pending)
  · rintro log e d d' ⟨hfound, rfl, htrace⟩ hopens
    have hopens : e.2.found = some (id, .pending) := by simpa [ActionStatement.opens] using hopens
    have hproper := htrace.proper e.2 (List.mem_append_right _ (List.mem_singleton_self _))
    obtain ⟨status, hleft⟩ := hproper.left_of_found hopens
    refine ⟨?_, fun hpending => (hproper.pending_of_effect hpending).2 status hleft⟩
    simpa only [FoundAsRead, hopens] using hfound
  · rintro log e d d' ⟨hfound, rfl, htrace⟩ hdead hpending
    have hproper := htrace.proper e.2 (List.mem_append_right _ (List.mem_singleton_self _))
    exact hdead (hproper.pending_of_effect hpending).1

/-- Everything that is committed about a confirmation is committed by one session. -/
theorem session_unique {e e' : S × ActionStatement} (he : e ∈ log) (he' : e' ∈ log) {id : Uuid}
    (hid : e.2.subject = some id) (hid' : e'.2.subject = some id) : e.1 = e'.1 := by
  have hopens : ∀ e ∈ log, e.2.subject = some id → ∃ l, (e.1, l) ∈ log ∧ l.opens id = true := by
    intro e he hid
    have hne : ofSession e.1 log ≠ [] := List.ne_nil_of_mem (mem_ofSession.2 he)
    obtain ⟨l, hl, hopens⟩ := (resolutionTrace_of_mem h he hid).exists_opens hne
    exact ⟨l, mem_ofSession.1 hl, hopens⟩
  obtain ⟨l, hl, hlopens⟩ := hopens e he hid
  obtain ⟨l', hl', hlopens'⟩ := hopens e' he' hid'
  have heq : (e.1, l) = (e'.1, l') :=
    eq_of_countP_le_one (q := fun e => e.2.opens id) (countP_opens_le_one h id) hl hlopens hl'
      hlopens'
  exact (Prod.mk.inj heq).1

/-- What happens to a confirmation is what one request does. -/
theorem exists_trace {e : S × ActionStatement} (he : e ∈ log) {id : Uuid}
    (hid : e.2.subject = some id) : ResolutionTrace id (ofSession e.1 log) ∧
      ∀ q : ActionStatement → Bool, (∀ l, q l = true → l.subject = some id) →
        log.countP (fun e => q e.2) = (ofSession e.1 log).countP q := by
  refine ⟨resolutionTrace_of_mem h he hid, fun q hq => countP_ofSession fun e' he' hqe' => ?_⟩
  exact session_unique h he' he (hq _ hqe') hid

/-- What is recorded as the outcome stays. -/
theorem statusIs_of_outcome : ∀ e ∈ log, ∀ id outcome, e.2.outcome = some (id, outcome) →
    (outcome ≠ .pending ∧ outcome ≠ .confirmed) ∧ d.StatusIs id outcome := by
  refine h.invariant (I := fun log d => ∀ e ∈ log, ∀ id outcome, e.2.outcome = some (id, outcome) →
    (outcome ≠ .pending ∧ outcome ≠ .confirmed) ∧ d.StatusIs id outcome) (by simp) ?_
  rintro log e d d' ih ⟨hfound, rfl, htrace⟩ e' he' id outcome houtcome
  have hproper := htrace.proper e.2 (List.mem_append_right _ (List.mem_singleton_self _))
  rw [ActionStatement.statusIs_effect]
  rcases List.mem_append.1 he' with hold | hnew
  · obtain ⟨hfinal, hstatus⟩ := ih e' hold id outcome houtcome
    refine ⟨hfinal, ?_⟩
    cases hleft : e.2.left with
    | none => exact hstatus
    | some p =>
        obtain ⟨k, status⟩ := p
        dsimp only
        rw [if_neg]
        · exact hstatus
        · -- another commit for `id` would go by a status that is an outcome
          rintro rfl
          obtain ⟨status', hfoundEq⟩ := hproper.found_of_left hleft
          simp only [FoundAsRead, hfoundEq] at hfound
          obtain ⟨row, hrow, hrowStatus⟩ := hfound
          obtain ⟨row', hrow', hrowStatus'⟩ := hstatus
          obtain rfl : row = row' := Option.mem_unique hrow hrow'
          have hunresolved := hproper.found _ hfoundEq
          rw [← hrowStatus, hrowStatus'] at hunresolved
          exact hunresolved.elim hfinal.1 hfinal.2
  · obtain rfl := List.mem_singleton.1 hnew
    have hleft := ActionStatement.left_of_outcome houtcome
    obtain ⟨status, hfoundEq⟩ := hproper.found_of_left hleft
    simp only [FoundAsRead, hfoundEq] at hfound
    obtain ⟨row, hrow, -⟩ := hfound
    refine ⟨hproper.outcome _ houtcome, ?_⟩
    simp [hleft, Option.mem_def.1 hrow]

end Runs

theorem ActionStatement.subject_of_records {id : Uuid} {l : ActionStatement}
    (h : l.records id = true) : l.subject = some id := by
  cases l <;> simp_all [records, outcome, subject]

theorem ActionStatement.subject_of_executes {id : Uuid} {l : ActionStatement}
    (h : l.executes id = true) : l.subject = some id := by
  cases l <;> simp_all [executes, subject]

theorem ActionStatement.subject_of_refuses {id : Uuid} {l : ActionStatement}
    (h : l.refuses id = true) : l.subject = some id := by
  cases l <;> simp_all [refuses, subject]

/-- In every interleaving whose commits find the status that their requests go by, the action
of a confirmation takes effect at most once, at most one outcome is recorded, it stays, it is
there when a request replies, and after a refusal the action has not taken effect. -/
theorem confirmation_oneOutcome (db : ActionDb) (requests : S → ResolutionRequest)
    (w : World S ActionDb Uuid (S × ActionStatement) ActionError ActionReply)
    (hrun : World.Run (World.Commits FoundAsRead) (actionStart db requests) w) (id : Uuid) :
    w.log.countP (fun e => e.2.executes id) ≤ 1 ∧ w.log.countP (fun e => e.2.records id) ≤ 1 ∧
      (∀ s reply, w.session s = .ret reply → (requests s).confirmation = some id →
        w.log.countP (fun e => e.2.records id) = 1) ∧
      (∀ e ∈ w.log, ∀ outcome, e.2.outcome = some (id, outcome) → w.db.StatusIs id outcome) ∧
      ((∃ e ∈ w.log, e.2.refuses id = true) → w.log.countP (fun e => e.2.executes id) = 0) := by
  obtain ⟨h, hreplies⟩ := hrun.signed_history fun s => (requests s).emits_program
  have hexecutes : ∀ l : ActionStatement, l.executes id = true → l.subject = some id :=
    fun _ => ActionStatement.subject_of_executes
  have hrecords : ∀ l : ActionStatement, l.records id = true → l.subject = some id :=
    fun _ => ActionStatement.subject_of_records
  have hone : w.log.countP (fun e => e.2.executes id) ≤ 1 ∧
      w.log.countP (fun e => e.2.records id) ≤ 1 := by
    by_cases hsubject : ∃ e ∈ w.log, e.2.subject = some id
    · obtain ⟨e, he, hid⟩ := hsubject
      obtain ⟨htrace, hcount⟩ := exists_trace h he hid
      rw [hcount _ hexecutes, hcount _ hrecords]
      exact ⟨htrace.countP_executes_le_one, htrace.countP_records_le_one⟩
    · have hnone : ∀ q : ActionStatement → Bool, (∀ l, q l = true → l.subject = some id) →
          w.log.countP (fun e => q e.2) = 0 := by
        intro q hq
        exact List.countP_eq_zero.2 fun e he hqe => hsubject ⟨e, he, hq _ hqe⟩
      rw [hnone _ hexecutes, hnone _ hrecords]
      exact ⟨Nat.zero_le 1, Nat.zero_le 1⟩
  refine ⟨hone.1, hone.2, ?_, fun e he outcome ho => (statusIs_of_outcome h e he id outcome ho).2,
    ?_⟩
  · intro s reply hs hid
    obtain ⟨l, hl, hlrecords⟩ := hreplies s reply hs id hid
    have hpos : 0 < w.log.countP (fun e => e.2.records id) :=
      List.countP_pos_iff.2 ⟨(s, l), mem_ofSession.1 hl, hlrecords⟩
    have := hone.2
    omega
  · rintro ⟨e, he, hrefuses⟩
    obtain ⟨htrace, hcount⟩ := exists_trace h he (ActionStatement.subject_of_refuses hrefuses)
    rw [hcount _ hexecutes]
    exact htrace.countP_executes_eq_zero ⟨e.2, mem_ofSession.2 he, hrefuses⟩

/-! ## Two requests for one confirmation -/

def sendMessage : Confirmation where
  id := ⟨"c"⟩
  userId := ⟨"u"⟩
  projectId := ⟨"p"⟩
  provider := "slack"
  action := "send_message"
  arguments := []
  expiresAt := 600

def pauseRuntime : Confirmation where
  id := ⟨"c"⟩
  userId := ⟨"u"⟩
  projectId := ⟨"p"⟩
  provider := "runtime_assistant"
  action := "pause_runtime"
  arguments := [("runtime_id", .str (Uuid.str ⟨"r"⟩))]
  expiresAt := 600

def onePending (row : Confirmation) : ActionDb where
  confirmations := .single row

def approveBy (executionId : Uuid) : ResolutionRequest :=
  .approve { id := ⟨"c"⟩, userId := ⟨"u"⟩ } executionId {}

def approveOrReject : Bool → ResolutionRequest
  | false => approveBy ⟨"e1"⟩
  | true => .reject { id := ⟨"c"⟩, userId := ⟨"u"⟩ }

def approveTwice : Bool → ResolutionRequest
  | false => approveBy ⟨"e1"⟩
  | true => approveBy ⟨"e2"⟩

/-- One user confirms the pause and cancels it at the same time. -/
def confirmOrCancel (confirm : Bool) : ResolutionRequest :=
  .resolve { proposalId := ⟨"c"⟩, runtimeId := ⟨"r"⟩, projectId := ⟨"p"⟩, userId := ⟨"u"⟩,
             denied := fun _ => none, confirm, executionId := ⟨"e1"⟩, run := { commits := true } }

def oneAfterTheOther : List Bool := List.replicate 12 false ++ List.replicate 12 true

/-- Both read the row first. -/
def bothReadFirst : List Bool := [false, true] ++ oneAfterTheOther

theorem confirmation_oneOutcome_inTurn :
    let w := (actionStart (onePending sendMessage) approveOrReject).play oneAfterTheOther
    w.log.countP (fun e => e.2.executes ⟨"c"⟩) = 1 ∧
      (w.log.countP (fun e => e.2.executes ⟨"c"⟩) ≤ 1 ∧
        w.log.countP (fun e => e.2.records ⟨"c"⟩) ≤ 1) ∧
      w.db.StatusIs ⟨"c"⟩ .succeeded := by
  intro w
  have hrun : World.Run (World.Commits FoundAsRead)
      (actionStart (onePending sendMessage) approveOrReject) w :=
    World.Run.start.play (by decide +kernel)
  obtain ⟨hexecutes, hrecords, -, hstays, -⟩ :=
    confirmation_oneOutcome (onePending sendMessage) approveOrReject w hrun ⟨"c"⟩
  have happroved : (false, ActionStatement.approve ⟨"c"⟩) ∈ w.log := by decide +kernel
  exact ⟨by decide +kernel, ⟨hexecutes, hrecords⟩, hstays _ happroved _ rfl⟩

/-- Two requests that have both read the row both resolve it: the action is carried out
twice, or it is carried out and then recorded as cancelled. -/
theorem confirmation_resolvedTwice :
    (∃ w, World.Reachable (actionStart (onePending sendMessage) approveTwice) w ∧
      w.log.countP (fun e => e.2.executes ⟨"c"⟩) = 2 ∧
        w.log.countP (fun e => e.2.records ⟨"c"⟩) = 2) ∧
    ∃ w, World.Reachable (actionStart (onePending pauseRuntime) (fun b => confirmOrCancel !b)) w ∧
      w.log.countP (fun e => e.2.records ⟨"c"⟩) = 2 ∧
        (∃ e ∈ w.log, e.2.refuses ⟨"c"⟩ = true) ∧
        w.log.countP (fun e => e.2.executes ⟨"c"⟩) = 1 ∧ w.db.StatusIs ⟨"c"⟩ .cancelled :=
  ⟨⟨_, World.play_reachable _ bothReadFirst, by decide +kernel⟩,
    ⟨_, World.play_reachable _ bothReadFirst, by decide +kernel⟩⟩

end Zyntry
