import Zyntry.ReservationExits

/-!
# Requests that make one reservation

A request makes its reservation with one call of `reserve`, and what follows settles or releases
it, or leaves it open. What is common to the endpoints is told here: what their other billing
calls do to the reservations, and what has to be guarded around the call of `reserve`.
-/

namespace Zyntry

open SqlProgram

/-- No reservation is added or taken away. -/
def Db.SameReservations (d d' : Db) : Prop :=
  ∀ id, (d'.reservations.get? id).isSome = (d.reservations.get? id).isSome

/-- A request that began in `d₀` and has made a reservation leaves it settled or released, and
charges nothing if it ends with an error. -/
def NoneStranded {α : Type} (d₀ : Db) (result : Except Error α) (d : Db) : Prop :=
  d.madeSince d₀ ≠ [] → Finalised d₀ result d

/-- A call of `reserve` that is cut short is cut short before its commit, and a reservation that
it makes is `guarded` from there on. -/
def ReserveGuarded (fault : Fault) (ctx : CallContext) (req : ReserveRequest)
    (guarded : Reservation → Db → Prop) (d : Db) : Prop :=
  match fault with
  | some (n, _) => (reserve {} ctx req).after n d = d
  | none => ∀ r d', (reserve {} ctx req).exec d = (.ok r, d') → d' ≠ d → guarded r d'

theorem Db.SameReservations.madeSince_eq_nil_iff {d₀ d d' : Db} (h : d.SameReservations d') :
    d'.madeSince d₀ = [] ↔ d.madeSince d₀ = [] := by
  have hmade (d : Db) : d.madeSince d₀ = [] ↔
      ∀ id, (d.reservations.get? id).isSome → (d₀.reservations.get? id).isSome := by
    rw [List.eq_nil_iff_forall_not_mem]
    constructor
    · intro hnone id hid
      obtain ⟨r, hr⟩ := Option.isSome_iff_exists.mp hid
      obtain rfl : r.id = id := RowTable.get?_some_key hr
      by_contra hfresh
      exact hnone r (mem_madeSince.mpr ⟨hr, Option.not_isSome_iff_eq_none.mp hfresh⟩)
    · intro hold r hr
      obtain ⟨hrow, hfresh⟩ := mem_madeSince.mp hr
      have hsome := hold r.id (by rw [hrow, Option.isSome_some])
      rw [hfresh] at hsome
      cases hsome
  rw [hmade, hmade]
  exact forall_congr' fun id => by rw [h id]

/-! ## Calls that add no reservation -/

namespace Db.SameReservations

variable {d d' : Db}

theorem refl (d : Db) : d.SameReservations d := fun _ => rfl

theorem trans {d'' : Db} (h : d.SameReservations d') (h' : d'.SameReservations d'') :
    d.SameReservations d'' := fun id => (h' id).trans (h id)

theorem flushReservation (d : Db) (r new : Reservation) :
    d.SameReservations (d.flushReservation r new) := by
  intro id
  rw [Db.get?_flushReservation]
  split_ifs
  · exact Option.isSome_map
  · rfl

theorem settleWrite (r : Reservation) (w : Wallet) (budget : Option Budget) (req : SettleRequest)
    (ctx : CallContext) (d : Db) : d.SameReservations (settleWrite r w budget req ctx d) := by
  intro id
  rw [reservations_settleWrite]
  exact flushReservation d r _ id

theorem releaseWrite (r : Reservation) (w : Wallet) (ctx : CallContext) (d : Db) :
    d.SameReservations (releaseWrite r w ctx d) := flushReservation d r _

end Db.SameReservations

/-- No commit of the program adds a reservation or takes one away. -/
def AddsNone {α : Type} (p : Sql α) : Prop := p.Writes fun _ => Db.SameReservations

theorem AddsNone.ends {α : Type} {p : Sql α} (h : AddsNone p) (d : Db) :
    p.Ends d fun _ d' => d.SameReservations d' :=
  Writes.ends h .refl fun _ _ _ => .trans

section AddsNone

variable {α : Type} {ctx : CallContext}

theorem addsNone_stage (raised : Option Error) : AddsNone (stage raised) := by
  cases raised with
  | none => exact writes_ret _
  | some e => exact writes_raise _

theorem AddsNone.attempt {p : Sql α} (h : AddsNone p) (fault : Fault) :
    AddsNone (attempt fault p) := by
  cases fault with
  | none => exact h
  | some f => exact Writes.interrupt h _ _

theorem AddsNone.onException {handler : Error → Sql α} {e : Error} (h : AddsNone (handler e)) :
    AddsNone (onException handler e) := by
  unfold Zyntry.onException
  split_ifs
  · exact h
  · exact writes_raise _

theorem addsNone_settle (id : Uuid) (req : SettleRequest) : AddsNone (settle {} ctx id req) := by
  apply Writes.bind writes_lockReservation
  intro r
  split_ifs
  · exact writes_ret _
  · exact writes_raise _
  · apply Writes.bind writes_lockWallet
    intro w
    apply Writes.bind writes_authoriseAdditional
    intro _
    apply Writes.bind (writes_locking _ _ _)
    intro budget
    apply Writes.bind writes_insertUnique
    intro _
    apply Writes.bind writes_flushRelease
    intro _
    apply Writes.bind (writes_write.mpr (Db.SameReservations.settleWrite r w budget req ctx))
    intro _
    exact writes_ret _

theorem addsNone_release (id : Uuid) : AddsNone (release {} ctx id) := by
  apply Writes.bind writes_lockReservation
  intro r
  split_ifs
  · exact writes_ret _
  · apply Writes.bind writes_lockWallet
    intro w
    apply Writes.bind writes_insertUnique
    intro _
    apply Writes.bind (writes_write.mpr (Db.SameReservations.releaseWrite r w ctx))
    intro _
    exact writes_ret _

theorem addsNone_releaseAndRaise (fault : Fault) (r : Reservation) (cause raised : Error) :
    AddsNone (releaseAndRaise fault ctx r cause raised : Sql α) := by
  apply Writes.bind
  · unfold afterError
    split_ifs
    · exact writes_raise _
    · exact (addsNone_release r.id).attempt fault
  · intro _
    exact writes_raise _

theorem addsNone_getWallet (userId : Uuid) : AddsNone (getWallet {} ctx userId) := by
  apply Writes.bind (writes_query _ _)
  intro existing
  cases existing with
  | some w => exact writes_ret _
  | none =>
      apply Writes.catching
      · apply Writes.bind writes_insertUnique
        intro _
        exact Writes.bind (writes_write.mpr fun d _ => rfl) fun _ => writes_ret _
      · intro e
        unfold onIntegrityError
        split_ifs
        · apply Writes.bind (writes_write.mpr Db.SameReservations.refl)
          intro _
          apply Writes.bind (writes_query _ _)
          intro conflicted
          cases conflicted with
          | some w => exact writes_ret _
          | none => exact writes_raise _
        · exact writes_raise _

theorem addsNone_recordUsage (published : Option Error) (log : UsageLog) :
    AddsNone (recordUsage published log) := by
  apply Writes.bind (writes_query _ _)
  intro existing
  cases existing with
  | some l => exact writes_ret _
  | none =>
      apply Writes.bind writes_insertUnique
      intro _
      apply Writes.bind (writes_write.mpr fun d _ => rfl)
      intro _
      exact Writes.bind (addsNone_stage published) fun _ => writes_ret _

end AddsNone

/-! ## The reservation of a request -/

section

variable {d₀ d : Db} {r : Reservation} {w : Wallet}

theorem Standing.madeSince_ne_nil (h : Standing d₀ r w d) : d.madeSince d₀ ≠ [] :=
  List.ne_nil_of_mem (mem_madeSince.mpr ⟨h.row, h.made.fresh⟩)

theorem Standing.not_noneStranded {α : Type} (h : Standing d₀ r w d) (result : Except Error α) :
    ¬NoneStranded d₀ result d :=
  fun hfinal => not_finalised_of_standing h (hfinal h.madeSince_ne_nil)

theorem Db.SameMoney.noneStranded {α : Type} (h : d₀.SameMoney d) (result : Except Error α) :
    NoneStranded d₀ result d := fun hmade => absurd h.madeSince_eq_nil hmade

/-- From a request's call of `reserve` to its end, for a request that makes no other reservation:
the errors of the call are raised under other names, and `k` is what follows it. -/
theorem ends_reserve {β : Type} (hsame : d₀.SameMoney d) (fault : Fault) (ctx : CallContext)
    (req : ReserveRequest) (renamed : Error → Error) {k : Reservation → Sql β}
    {guarded : Reservation → Db → Prop} (hadds : ∀ r, AddsNone (k r))
    (hopen : ∀ r w d', Standing d₀ r w d' → r.userId = req.userId →
      (k r).Ends d' fun result d'' => (Finalised d₀ result d'' ↔ guarded r d')) :
    ((attempt fault (reserve {} ctx req)).catching (fun e => .raise (renamed e)) >>= k).Ends d
      (NoneStranded d₀) ↔ ReserveGuarded fault ctx req guarded d := by
  obtain ⟨hfails, hcut⟩ := (commitsLast_reserve ctx req).ends d
  have hnew {r : Reservation} {d' : Db} (hexec : (reserve {} ctx req).exec d = (.ok r, d'))
      (hne : d' ≠ d) : ∃ w, Standing d₀ r w d' ∧ r.userId = req.userId := by
    obtain rfl | ⟨w, -, rfl, -, hstanding⟩ := standing_of_reserved hsame hexec
    · exact absurd rfl hne
    · exact ⟨_, hstanding, rfl⟩
  rw [ends_catching_bind]
  unfold ReserveGuarded
  cases fault with
  | some fault =>
      obtain ⟨n, i⟩ := fault
      rw [attempt, ends_interrupt]
      dsimp only [raise_bind]
      rw [ends_raise]
      by_cases hafter : (reserve {} ctx req).after n d = d
      · rw [hafter]
        exact iff_of_true (hsame.noneStranded _) rfl
      · obtain hunchanged | ⟨r, hexec⟩ := hcut n
        · exact absurd hunchanged hafter
        · obtain ⟨w, hstanding, -⟩ := hnew hexec hafter
          exact iff_of_false (hstanding.not_noneStranded _) hafter
  | none =>
      rcases hexec : (reserve {} ctx req).exec d with ⟨e | r, d'⟩
      · obtain rfl := hfails e d' hexec
        rw [attempt, Ends, hexec]
        refine iff_of_true (hsame.noneStranded _) ?_
        rintro r d'' ⟨⟩
      · rw [attempt, Ends, hexec]
        have hk : (k r).Ends d' (NoneStranded d₀) ↔ (d' ≠ d → guarded r d') := by
          by_cases hunchanged : d' = d
          · subst hunchanged
            refine iff_of_true (((hadds r).ends d').mono ?_) fun hne => absurd rfl hne
            intro result d'' hsame' hmade
            exact absurd (hsame'.madeSince_eq_nil_iff.mpr hsame.madeSince_eq_nil) hmade
          · obtain ⟨w, hstanding, huser⟩ := hnew hexec hunchanged
            have hends : Finalised d₀ ((k r).exec d').1 ((k r).exec d').2 ↔ guarded r d' :=
              hopen r w d' hstanding huser
            have hmade : ((k r).exec d').2.madeSince d₀ ≠ [] :=
              mt ((hadds r).ends d').madeSince_eq_nil_iff.mp hstanding.madeSince_ne_nil
            rw [forall_prop_of_true hunchanged, ← hends]
            exact forall_prop_of_true hmade
        refine hk.trans ⟨?_, fun h => h r d' rfl⟩
        rintro hguarded r' d'' ⟨⟩ hne
        exact hguarded hne

end

/-! ## The settlement of a request -/

section Settlement

variable {d₀ d : Db} {r : Reservation} {w : Wallet} {ctx : CallContext}

/-- A handler answers `e` by releasing the reservation. -/
def ReleaseAnswers (fault : Fault) (r : Reservation) (d : Db) (e : Error) : Prop :=
  e.isException = true ∧ e.endsTransaction = false ∧ ReleaseCommits fault r d

/-- What `record_usage` raises. -/
def recordFailure (fault : Fault) (published : Option Error) (d : Db) (log : UsageLog) :
    Option Error :=
  match fault with
  | some (_, i) => some i.error
  | none => if (d.loggedUsage log.userId log.requestId).isSome then none else published

/-- The settlement of an open reservation fails in a way that is `handled`, or else it gets to its
commit, and what follows raises no error or the charge is zero. -/
def SettleGuarded (fault : Fault) (ctx : CallContext) (r : Reservation) (req : SettleRequest)
    (handled : Error → Prop) (failure : Db → Option Error) (d : Db) : Prop :=
  match fault with
  | some (n, i) =>
      (∃ row, (settle {} ctx r.id req).exec d = (.ok row, (settle {} ctx r.id req).after n d)) ∧
        (money req.actualAmount = 0 ∨ i = .cancelled)
  | none =>
      match (settle {} ctx r.id req).exec d with
      | (.error e, _) => handled e
      | (.ok _, d') => money req.actualAmount = 0 ∨ ∀ e ∈ failure d', e.isException = false

/-- `except Exception: release; raise`. -/
theorem ends_releaseOnException {α : Type} (h : Standing d₀ r w d) (fault : Fault) (e : Error) :
    (onException (fun e => releaseAndRaise fault ctx r e e) e : Sql α).Ends d
      (Handled d₀ r (ReleaseAnswers fault r d e)) := by
  unfold onException
  split_ifs with hexception
  · rw [ReleaseAnswers, and_iff_right hexception]
    exact ends_releaseAndRaise h _ _ _
  · exact h.handled (fun hr => hexception hr.1) _

theorem not_releaseAnswers (fault : Fault) (i : Interruption) :
    ¬ReleaseAnswers fault r d i.error := by
  rintro ⟨hexception, hsound, -⟩
  cases i with
  | databaseError => cases hsound
  | cancelled => cases hexception

/-- Recording the usage leaves wallets and reservations alone. -/
theorem ends_recordUsage (fault : Fault) (published : Option Error) (log : UsageLog) :
    (attempt fault (recordUsage published log)).Ends d
      fun result d' => (d'.wallets = d.wallets ∧ d'.reservations = d.reservations) ∧
        match recordFailure fault published d log with
        | none => ∃ l, result = .ok l
        | some e => result = .error e := by
  have hkeeps : (recordUsage published log).Keeps
      (fun d' => d'.wallets = d.wallets ∧ d'.reservations = d.reservations) d _ :=
    keeps_recordUsage ⟨rfl, rfl⟩
  unfold recordFailure
  cases fault with
  | some fault =>
      obtain ⟨n, i⟩ := fault
      have hfault : ((recordUsage published log).interrupt i.error n).Keeps
          (fun d' => d'.wallets = d.wallets ∧ d'.reservations = d.reservations) d
          fun _ _ => True := keeps_interrupt i.error n hkeeps
      have hends := hfault.ends ⟨rfl, rfl⟩
      rw [ends_interrupt] at hends
      rw [attempt, ends_interrupt]
      exact ⟨hends.1, rfl⟩
  | none =>
      refine ⟨(hkeeps.ends ⟨rfl, rfl⟩).1, ?_⟩
      simp only [attempt, recordUsage, query, select_bind, ret_bind, exec]
      cases d.loggedUsage log.userId log.requestId with
      | some l => exact ⟨l, rfl⟩
      | none =>
          cases published with
          | none => exact ⟨log, rfl⟩
          | some e => rfl

/-- The program moves no money, and ends with `failure` or returns. -/
def FailsWith {α : Type} (p : Sql α) (failure : Option Error) (d : Db) : Prop :=
  p.Ends d fun result d' => d.SameMoney d' ∧ ∀ e, result = .error e ↔ failure = some e

section FailsWith

variable {α β : Type} {p : Sql α} {failure later : Option Error}

theorem failsWith_pure (a : α) (d : Db) : FailsWith (pure a) none d :=
  ⟨.refl d, fun e => by simp⟩

theorem failsWith_raise (e : Error) (d : Db) : FailsWith (.raise e : Sql α) (some e) d :=
  ⟨.refl d, fun e' => by simp [exec]⟩

theorem failsWith_stage (raised : Option Error) (d : Db) : FailsWith (stage raised) raised d := by
  cases raised with
  | none => exact failsWith_pure () d
  | some e => exact failsWith_raise e d

theorem failsWith_attempt_commit (fault : Fault) (commit : Commit) (d : Db) :
    FailsWith (attempt fault (write (.commit commit) id)) (fault.map fun f => f.2.error) d := by
  cases fault with
  | none => exact failsWith_pure () d
  | some fault =>
      obtain ⟨n, i⟩ := fault
      have hafter : (write (.commit commit) id : Sql Unit).after n d = d := by
        cases n with
        | zero => rfl
        | succ n => cases n <;> rfl
      unfold FailsWith
      rw [attempt, ends_interrupt, hafter]
      exact ⟨.refl d, fun e => by simp⟩

theorem FailsWith.bind {f : α → Sql β} (hp : FailsWith p failure d)
    (hf : ∀ a d', d.SameMoney d' → FailsWith (f a) later d') :
    FailsWith (p >>= f) (failure.or later) d := by
  unfold FailsWith at hp ⊢
  rw [ends_bind]
  apply hp.mono
  rintro (e | a) d' ⟨hsame, hfailure⟩
  · obtain rfl := (hfailure e).mp rfl
    exact ⟨hsame, fun e' => by simp⟩
  · have hnone : failure = none := by
      cases failure with
      | none => rfl
      | some e => cases (hfailure e).mpr rfl
    subst hnone
    apply (hf a d' hsame).mono
    exact fun result d'' h => ⟨hsame.trans h.1, h.2⟩

theorem FailsWith.catching {handler : Error → Sql α} {raised : Error → Option Error}
    (hp : FailsWith p failure d)
    (hh : ∀ e d', d.SameMoney d' → FailsWith (handler e) (raised e) d') :
    FailsWith (p.catching handler) (failure.bind raised) d := by
  unfold FailsWith at hp ⊢
  rw [ends_catching]
  apply hp.mono
  rintro (e | a) d' ⟨hsame, hfailure⟩
  · obtain rfl := (hfailure e).mp rfl
    apply (hh e d' hsame).mono
    exact fun result d'' h => ⟨hsame.trans h.1, h.2⟩
  · have hnone : failure = none := by
      cases failure with
      | none => rfl
      | some e => cases (hfailure e).mpr rfl
    subst hnone
    exact ⟨hsame, fun e' => by simp⟩

theorem failsWith_recordUsage (fault : Fault) (published : Option Error) (log : UsageLog) (d : Db) :
    FailsWith (attempt fault (recordUsage published log)) (recordFailure fault published d log)
      d := by
  apply (ends_recordUsage fault published log).mono
  rintro result d' ⟨⟨hwallets, hreservations⟩, hfailure⟩
  refine ⟨.of_tables hwallets hreservations, fun e => ?_⟩
  cases hrecord : recordFailure fault published d log with
  | none =>
      rw [hrecord] at hfailure
      obtain ⟨l, rfl⟩ := hfailure
      simp
  | some e' =>
      rw [hrecord] at hfailure
      obtain rfl := hfailure
      simp

end FailsWith

/-- From the settlement of an open reservation to the end of the request: `handler` answers for
the errors of the settlement and of `k`, and `j` is what follows. -/
theorem ends_settle {α β : Type} (h : Standing d₀ r w d) (fault : Fault) (req : SettleRequest)
    {k : Reservation → Sql α} {handler : Error → Sql α} {j : α → Sql β} {handled : Error → Prop}
    {failure : Db → Option Error}
    (hopen : ∀ e, (handler e).Ends d (Handled d₀ r (handled e)))
    (hbroken : ∀ i : Interruption, ¬handled i.error)
    (hclosed : ∀ (i : Interruption) (d' : Db) (row : Reservation),
      d'.reservations.get? r.id = some row → row.status ≠ .reserved →
        ∃ e, (handler i.error).exec d' = (.error e, d') ∧ (e.isException = false ↔ i = .cancelled))
    (hafter : ∀ (a row : Reservation) (d' : Db), d'.reservations.get? r.id = some row →
      row.status ≠ .reserved → (d'.walletByUser r.userId).isSome →
        FailsWith ((k a).catching handler >>= j) (failure d') d') :
    ((attempt fault (settle {} ctx r.id req) >>= k).catching handler >>= j).Ends d
      fun result d' =>
        (Finalised d₀ result d' ↔ SettleGuarded fault ctx r req handled failure d) := by
  obtain ⟨hfails, hcut⟩ := (commitsLast_settle ctx r.id req).ends d
  unfold SettleGuarded
  cases fault with
  | some fault =>
      obtain ⟨n, i⟩ := fault
      have hexec : (attempt (some (n, i)) (settle {} ctx r.id req)).exec d =
          (.error i.error, (settle {} ctx r.id req).after n d) := exec_interrupt _ _ _ _
      rw [ends_catching_of_error hexec]
      obtain hunchanged | ⟨row, hcommitted⟩ := hcut n
      · rw [hunchanged]
        apply (ends_of_handled (hopen i.error)).mono
        intro result d' hfinal
        rw [hfinal]
        apply iff_of_false (hbroken i)
        rintro ⟨⟨row, hexec⟩, -⟩
        rw [hunchanged] at hexec
        exact h.not_settled (made_of_settled h hexec).1
      · obtain ⟨hmade, -⟩ := made_of_settled h hcommitted
        obtain ⟨row', hrow, hsettled⟩ := hmade.row
        obtain ⟨e, hraised, hexception⟩ := hclosed i _ row' hrow (by simp [hsettled])
        rw [Ends, exec_bind_error hraised, hmade.finalised_iff, and_iff_right (by decide)]
        simp only [Except.error.injEq, forall_eq', hexception]
        exact (and_iff_right ⟨row, hcommitted⟩).symm
  | none =>
      rcases hexec : (settle {} ctx r.id req).exec d with ⟨e | row, d'⟩
      · obtain rfl := hfails e d' hexec
        rw [attempt, ends_catching_of_error hexec]
        exact ends_of_handled (hopen e)
      · obtain ⟨hmade, hwallet⟩ := made_of_settled h hexec
        obtain ⟨row', hrow, hsettled⟩ := hmade.row
        rw [attempt, ends_catching_of_ok hexec]
        apply (hafter row row' d' hrow (by simp [hsettled]) hwallet).mono
        rintro result d'' ⟨hsame, herror⟩
        rw [(hmade.mono hsame).finalised_iff, and_iff_right (by decide)]
        simp only [herror, Option.mem_def]

end Settlement

end Zyntry
