import Zyntry.EndpointBilling
import Zyntry.SqlEndings

/-!
# How a request leaves its reservation

A request makes a reservation, and by its end the reservation should be settled or released,
whatever has happened in between. `Made` follows the one reservation that a request has made,
and the billing calls take it from one status to the next.
-/

namespace Zyntry

open SqlProgram

/-! ## What has become of a request's reservation -/

def Db.spentOf (d : Db) (id : Uuid) : ℤ := ((d.wallets.get? id).map Wallet.totalSpent).getD 0

/-- The reservations that were made since `d₀`. -/
def Db.madeSince (d d₀ : Db) : List Reservation :=
  d.reservations.rows.filter fun r => (d₀.reservations.get? r.id).isNone

/-- A request that began in `d₀` leaves none of its reservations open, and charges no wallet if
it ends with an error. A client that goes away is not an error. -/
structure Finalised {α : Type} (d₀ : Db) (result : Except Error α) (d : Db) : Prop where
  closed : ∀ r ∈ d.madeSince d₀, r.status ≠ .reserved
  uncharged : ∀ e, result = .error e → e.isException = true → ∀ id, d.spentOf id = d₀.spentOf id

/-- The same reservations and the same charges. -/
structure Db.SameMoney (d₀ d : Db) : Prop where
  reservations : d.reservations = d₀.reservations
  spent : ∀ id, d.spentOf id = d₀.spentOf id

/-- `r` is the only reservation that was made since `d₀`. -/
structure Db.Made (d₀ : Db) (r : Reservation) (status : ReservationStatus) (charged : ℤ)
    (d : Db) : Prop where
  fresh : d₀.reservations.get? r.id = none
  row : ∃ row, d.reservations.get? r.id = some row ∧ row.status = status
  others : ∀ id, id ≠ r.id → d.reservations.get? id = d₀.reservations.get? id
  charges : ∀ id, d.spentOf id = d₀.spentOf id + if id = r.walletId then charged else 0

theorem Db.SameMoney.refl (d : Db) : d.SameMoney d := ⟨rfl, fun _ => rfl⟩

theorem Db.SameMoney.trans {d₀ d d' : Db} (h : d₀.SameMoney d) (h' : d.SameMoney d') :
    d₀.SameMoney d' :=
  ⟨h'.reservations.trans h.reservations, fun id => (h'.spent id).trans (h.spent id)⟩

theorem Db.SameMoney.of_tables {d₀ d : Db} (hw : d.wallets = d₀.wallets)
    (hr : d.reservations = d₀.reservations) : d₀.SameMoney d :=
  ⟨hr, fun id => by rw [Db.spentOf, Db.spentOf, hw]⟩

theorem mem_madeSince {d d₀ : Db} {r : Reservation} :
    r ∈ d.madeSince d₀ ↔
      d.reservations.get? r.id = some r ∧ d₀.reservations.get? r.id = none := by
  simp only [Db.madeSince, List.mem_filter, Option.isNone_iff_eq_none]
  exact and_congr_left fun _ => ⟨RowTable.get?_of_mem, RowTable.get?_some_mem⟩

theorem Db.SameMoney.madeSince_eq_nil {d₀ d : Db} (h : d₀.SameMoney d) : d.madeSince d₀ = [] := by
  rw [List.eq_nil_iff_forall_not_mem]
  intro r hr
  obtain ⟨hrow, hfresh⟩ := mem_madeSince.mp hr
  rw [h.reservations, hfresh] at hrow
  cases hrow

namespace Db.Made

variable {d₀ d d' : Db} {r : Reservation} {status : ReservationStatus} {charged : ℤ}

theorem mono (h : d₀.Made r status charged d) (hsame : d.SameMoney d') :
    d₀.Made r status charged d' where
  fresh := h.fresh
  row := by
    rw [hsame.reservations]
    exact h.row
  others id hid := by
    rw [hsame.reservations]
    exact h.others id hid
  charges id := (hsame.spent id).trans (h.charges id)

theorem finalised_iff {α : Type} (h : d₀.Made r status charged d) {result : Except Error α} :
    Finalised d₀ result d ↔ status ≠ .reserved ∧
      (charged = 0 ∨ ∀ e, result = .error e → e.isException = false) := by
  obtain ⟨row, hrow, hstatus⟩ := h.row
  have hid : row.id = r.id := RowTable.get?_some_key hrow
  have hmade : ∀ r' ∈ d.madeSince d₀, r' = row := by
    intro r' hr'
    obtain ⟨hrow', hfresh⟩ := mem_madeSince.mp hr'
    by_cases hid' : r'.id = r.id
    · rw [hid', hrow] at hrow'
      exact (Option.some.inj hrow').symm
    · rw [h.others _ hid', hfresh] at hrow'
      cases hrow'
  have hself : row ∈ d.madeSince d₀ := by
    rw [mem_madeSince, hid]
    exact ⟨hrow, h.fresh⟩
  constructor
  · intro hfinal
    refine ⟨hstatus ▸ hfinal.closed row hself, ?_⟩
    by_cases hcharged : charged = 0
    · exact .inl hcharged
    · refine .inr fun e he => ?_
      by_contra hexception
      have hspent := hfinal.uncharged e he (by simpa using hexception) r.walletId
      rw [h.charges, if_pos rfl] at hspent
      omega
  · rintro ⟨hclosed, hcharged⟩
    constructor
    · intro r' hr'
      rw [hmade r' hr', hstatus]
      exact hclosed
    · intro e he hexception id
      obtain rfl | hquiet := hcharged
      · rw [h.charges, ite_self, add_zero]
      · rw [hquiet e he] at hexception
        cases hexception

end Db.Made

/-! ## A reservation that stands -/

/-- `r` was made since `d₀`, and is open in `d`. -/
structure Standing (d₀ : Db) (r : Reservation) (w : Wallet) (d : Db) : Prop where
  made : d₀.Made r .reserved 0 d
  row : d.reservations.get? r.id = some r
  reserved : r.status = .reserved
  wallet : d.wallets.get? r.walletId = some w
  owner : w.userId = r.userId

theorem get?_wallets_reserveWrite {ctx : CallContext} {req : ReserveRequest} {w : Wallet} {d : Db}
    (hw : d.wallets.get? w.id = some w) (id : Uuid) :
    (reserveWrite none w (req.reservation ctx w) ctx d).wallets.get? id =
      if id = w.id then some (w.afterReserve (money req.amount)) else d.wallets.get? id := by
  have h := Db.get?_flushWallet d w (w.afterReserve (money req.amount)) id
  by_cases hid : id = w.id
  · subst hid
    rw [if_pos rfl, hw] at h
    rw [if_pos rfl]
    refine h.trans (congrArg some ?_)
    simp [Wallet.flush, Wallet.afterReserve]
  · rw [if_neg hid] at h ⊢
    exact h

theorem standing_reserveWrite {d₀ d : Db} {ctx : CallContext} {req : ReserveRequest} {w : Wallet}
    (h : ReserveAccepted d ctx req w) (hsame : d₀.SameMoney d) :
    Standing d₀ (req.reservation ctx w) (w.afterReserve (money req.amount))
      (reserveWrite none w (req.reservation ctx w) ctx d) := by
  have hw := (walletByUser_get? h.wallet).1
  have hrow : (reserveWrite none w (req.reservation ctx w) ctx d).reservations.get? ctx.newId =
      some (req.reservation ctx w) := RowTable.get?_insert_self h.idFree
  refine ⟨⟨?_, ⟨_, hrow, rfl⟩, ?_, ?_⟩, hrow, rfl, ?_, ?_⟩
  · exact hsame.reservations ▸ h.idFree
  · intro id hid
    rw [← hsame.reservations]
    exact RowTable.get?_insert_of_ne _ hid
  · intro id
    rw [ite_self, add_zero, ← hsame.spent, Db.spentOf, get?_wallets_reserveWrite hw, Db.spentOf]
    split_ifs with hid
    · rw [hid, hw]
      rfl
    · rfl
  · exact (get?_wallets_reserveWrite hw w.id).trans (if_pos rfl)
  · exact (walletByUser_get? h.wallet).2

theorem not_finalised_of_standing {α : Type} {d₀ d : Db} {r : Reservation} {w : Wallet}
    (h : Standing d₀ r w d) {result : Except Error α} : ¬Finalised d₀ result d := by
  rw [h.made.finalised_iff]
  exact fun hfinal => hfinal.1 rfl

theorem Standing.not_settled {d₀ d : Db} {r : Reservation} {w : Wallet} {charged : ℤ}
    (h : Standing d₀ r w d) : ¬d₀.Made r .settled charged d := by
  intro hmade
  obtain ⟨row, hrow, hsettled⟩ := hmade.row
  obtain rfl : r = row := Option.some.inj (h.row.symm.trans hrow)
  rw [h.reserved] at hsettled
  cases hsettled

/-! ## Stages and calls -/

theorem ends_stage {α : Type} {raised : Option Error} {f : Unit → Sql α} {d : Db}
    {post : Except Error α → Db → Prop} :
    (stage raised >>= f).Ends d post ↔
      match raised with
      | none => (f ()).Ends d post
      | some e => post (.error e) d := by
  cases raised <;> rfl

/-- A call that leaves the state alone wherever it is cut short. -/
theorem ends_attempt_of_reads {α : Type} {p : Sql α} {d : Db} {a : α} {fault : Fault}
    {post : Except Error α → Db → Prop} (hexec : p.exec d = (.ok a, d))
    (hafter : ∀ n, p.after n d = d) :
    (attempt fault p).Ends d post ↔
      match fault with
      | none => post (.ok a) d
      | some (_, i) => post (.error i.error) d := by
  cases fault with
  | none => rw [attempt, Ends, hexec]
  | some fault => rw [attempt, ends_interrupt, hafter]

/-! ## Release -/

/-- The release of `r` finds its ledger key free, and is not cut short before its commit, which
is the fourth of its statements. -/
def ReleaseCommits (fault : Fault) (r : Reservation) (d : Db) : Prop :=
  d.ledgerHasKey (r.idempotencyKey ++ ":release") = false ∧ ∀ f ∈ fault, 4 ≤ f.1

/-- What a handler raises in the end if it finds the reservation settled or released. -/
def handledError (fault : Fault) (cause raised : Error) : Error :=
  if cause.endsTransaction then .pendingRollback
  else match fault with
    | some (_, i) => i.error
    | none => raised

section Release

variable {d₀ d : Db} {r : Reservation} {w : Wallet} {ctx : CallContext}

theorem made_releaseWrite (h : Standing d₀ r w d) :
    d₀.Made r .released 0 (releaseWrite r w ctx d) := by
  have hid : w.id = r.walletId := RowTable.get?_some_key h.wallet
  have hreservations (id : Uuid) := Db.get?_flushReservation (d.flushWallet w (w.afterRelease r)) r
    r.afterRelease id
  have hwallets (id : Uuid) := Db.get?_flushWallet d w (w.afterRelease r) id
  refine ⟨h.made.fresh, ⟨Reservation.flush r r.afterRelease r, ?_, ?_⟩, ?_, ?_⟩
  · refine (hreservations r.id).trans ?_
    rw [if_pos rfl]
    exact congrArg (Option.map _) h.row
  · exact changed_row _ _
  · intro id hne
    refine (hreservations id).trans ?_
    rw [if_neg hne]
    exact h.made.others id hne
  · intro id
    rw [← h.made.charges]
    change (((d.flushWallet w (w.afterRelease r)).wallets.get? id).map Wallet.totalSpent).getD 0 = _
    rw [hwallets, Db.spentOf]
    split_ifs with hw
    · rw [hw, hid, h.wallet]
      exact changed_same _ _
    · rfl

variable (ctx) in
/-- A release that is not cut short. -/
theorem exec_release (h : Standing d₀ r w d) : (release {} ctx r.id).exec d =
    if d.ledgerHasKey (r.idempotencyKey ++ ":release") then (.error .integrityError, d)
    else (.ok r.afterRelease, releaseWrite r w ctx d) := by
  simp only [release, lockReservation, lockWallet, flushLedger, insertUnique, locking,
    lock_bind, ret_bind, exec, h.row, h.wallet, h.reserved, Option.map_some,
    IdentityMap.reservation_empty, IdentityMap.wallet_empty, pure_eq, ne_eq, not_true,
    if_false, releaseLedger, ledgerKeyTaken]
  split_ifs
  · rfl
  · rfl

variable (ctx) in
/-- A release that is cut short. -/
theorem after_release (h : Standing d₀ r w d) (n : ℕ) : (release {} ctx r.id).after n d =
    if d.ledgerHasKey (r.idempotencyKey ++ ":release") = false ∧ 4 ≤ n then
      releaseWrite r w ctx d
    else d := by
  simp only [release, lockReservation, lockWallet, flushLedger, insertUnique, locking, lock_bind,
    ret_bind]
  rcases n with _ | _ | _ | _ | n
  · simp [after]
  · simp [after]
  · simp [after, h.row, h.reserved]
  · simp [after, h.row, h.reserved, h.wallet]
  · simp only [after, h.row, h.reserved, h.wallet, releaseLedger, ledgerKeyTaken, Option.map_some,
      IdentityMap.reservation_empty, IdentityMap.wallet_empty, pure_eq, ne_eq, not_true, if_false,
      ret_bind]
    have hlong : 4 ≤ n + 1 + 1 + 1 + 1 := by omega
    by_cases htaken : d.ledgerHasKey (r.idempotencyKey ++ ":release") = true
    · simp only [htaken, if_true, Bool.true_eq_false, false_and, if_false]
      rfl
    · simp only [Bool.eq_false_of_not_eq_true htaken, Bool.false_eq_true, if_false, true_and,
        hlong, if_true]
      cases n <;> rfl

/-- A handler has raised an error, and it has closed the reservation exactly if `closes`. -/
def Handled {α : Type} (d₀ : Db) (r : Reservation) (closes : Prop) (result : Except Error α)
    (d : Db) : Prop :=
  (∃ e, result = .error e) ∧ ∃ status, d₀.Made r status 0 d ∧ (status ≠ .reserved ↔ closes)

theorem Standing.handled {α : Type} {closes : Prop} (h : Standing d₀ r w d) (hcloses : ¬closes)
    (e : Error) : Handled d₀ r closes (.error e : Except Error α) d :=
  ⟨⟨e, rfl⟩, .reserved, h.made, iff_of_false (fun hne => hne rfl) hcloses⟩

theorem Handled.finalised_iff {α β : Type} {closes : Prop} {result : Except Error α}
    {result' : Except Error β} (h : Handled d₀ r closes result d) :
    Finalised d₀ result' d ↔ closes := by
  obtain ⟨-, status, hmade, hstatus⟩ := h
  rw [hmade.finalised_iff, hstatus]
  exact and_iff_left (.inl rfl)

theorem ends_of_handled {α β : Type} {closes : Prop} {p : Sql α} {k : α → Sql β}
    (h : p.Ends d (Handled d₀ r closes)) :
    (p >>= k).Ends d fun result d' => (Finalised d₀ result d' ↔ closes) := by
  rw [ends_bind]
  apply h.mono
  intro result d' hhandled
  obtain ⟨e, rfl⟩ := hhandled.1
  exact hhandled.finalised_iff

/-- A handler that has to release an open reservation does so unless the session is broken or the
release does not get to its commit. -/
theorem ends_releaseAndRaise {α : Type} (h : Standing d₀ r w d) (fault : Fault)
    (cause raised : Error) :
    (releaseAndRaise fault ctx r cause raised : Sql α).Ends d
      (Handled d₀ r (cause.endsTransaction = false ∧ ReleaseCommits fault r d)) := by
  have hreleased (hcommits : ReleaseCommits fault r d) (hsound : cause.endsTransaction = false)
      (e : Error) : Handled d₀ r (cause.endsTransaction = false ∧ ReleaseCommits fault r d)
        (.error e : Except Error α) (releaseWrite r w ctx d) :=
    ⟨⟨e, rfl⟩, .released, made_releaseWrite h, iff_of_true (by decide) ⟨hsound, hcommits⟩⟩
  rw [releaseAndRaise, ends_bind, afterError]
  by_cases hbroken : cause.endsTransaction = true
  · rw [if_pos hbroken, ends_raise]
    exact h.handled (by simp [hbroken]) _
  · have hsound : cause.endsTransaction = false := Bool.eq_false_of_not_eq_true hbroken
    rw [if_neg hbroken]
    cases fault with
    | none =>
        rw [attempt, Ends, exec_release ctx h]
        split_ifs with htaken
        · exact h.handled (by simp [ReleaseCommits, htaken]) _
        · exact hreleased (by simp [ReleaseCommits, htaken]) hsound _
    | some fault =>
        obtain ⟨n, i⟩ := fault
        rw [attempt, ends_interrupt, after_release ctx h]
        split_ifs with hcommits
        · exact hreleased (by simpa [ReleaseCommits] using hcommits) hsound _
        · exact h.handled (fun hcloses => hcommits (by simpa [ReleaseCommits] using hcloses.2)) _

/-- A handler leaves a reservation alone that is closed. -/
theorem exec_releaseAndRaise_of_closed {α : Type} {row : Reservation}
    (hrow : d.reservations.get? r.id = some row) (hclosed : row.status ≠ .reserved)
    (fault : Fault) (cause raised : Error) :
    (releaseAndRaise fault ctx r cause raised : Sql α).exec d =
      (.error (handledError fault cause raised), d) := by
  unfold releaseAndRaise afterError handledError
  cases cause.endsTransaction with
  | true => rfl
  | false =>
      rw [if_neg Bool.false_ne_true, if_neg Bool.false_ne_true]
      cases fault with
      | none =>
          refine exec_bind_ok (a := row) ?_
          simp only [attempt, release, lockReservation, locking, lock_bind, ret_bind, exec, hrow,
            Option.map_some, IdentityMap.reservation_empty, pure_eq, hclosed, ne_eq,
            not_false_eq_true, if_true]
      | some fault =>
          obtain ⟨n, i⟩ := fault
          refine exec_bind_error ?_
          rw [attempt, exec_interrupt]
          cases n with
          | zero => rfl
          | succ n =>
              simp only [release, lockReservation, locking, lock_bind, ret_bind, after, hrow,
                Option.map_some, IdentityMap.reservation_empty, pure_eq, hclosed, ne_eq,
                not_false_eq_true, if_true]
              cases n <;> rfl

end Release

/-! ## Settlement and reservation -/

section Settle

variable {G : Statement → Db → Db → Prop}

theorem writes_insertUnique {keys : List Resource} {taken : Db → Bool} :
    (insertUnique keys taken).Writes G := by
  apply Writes.bind (writes_locking _ _ _)
  intro violated
  split_ifs
  · exact writes_raise _
  · exact writes_ret _

theorem writes_lockReservation {held : IdentityMap} {id : Uuid} {purpose : Finaliser} :
    (lockReservation held id purpose).Writes G := by
  apply Writes.bind (writes_locking _ _ _)
  intro row
  cases row with
  | none => exact writes_raise _
  | some r => exact writes_ret _

theorem writes_lockWallet {held : IdentityMap} {id : Uuid} : (lockWallet held id).Writes G := by
  apply Writes.bind (writes_locking _ _ _)
  intro row
  cases row with
  | none => exact writes_raise _
  | some w => exact writes_ret _

theorem writes_check {req : CheckRequest} : (check req).Writes G := by
  apply writes_forEach
  intro s
  apply Writes.bind (writes_locking _ _ _)
  intro limits
  apply writes_forEach
  intro limit
  apply Writes.bind (writes_query _ _)
  intro spent
  apply Writes.bind (writes_query _ _)
  intro reserved
  dsimp only
  split_ifs
  · exact writes_raise _
  · exact writes_ret _

theorem writes_authoriseAdditional {ctx : CallContext} {r : Reservation} {w : Wallet} {actual : ℤ} :
    (authoriseAdditional ctx r w actual).Writes G := by
  unfold authoriseAdditional
  split_ifs
  · apply Writes.bind writes_check
    intro _
    split_ifs
    · exact writes_raise _
    · exact writes_ret _
  · exact writes_ret _

theorem writes_flushRelease {r : Reservation} {amount : ℤ} {currency : String}
    {ctx : CallContext} : (flushRelease r amount currency ctx).Writes G := by
  unfold flushRelease
  split_ifs
  · exact writes_insertUnique
  · exact writes_ret _

/-- The commit of a settlement is its last statement. -/
theorem commitsLast_settle (ctx : CallContext) (id : Uuid) (req : SettleRequest) :
    (settle {} ctx id req).CommitsLast := by
  apply CommitsLast.bind writes_lockReservation
  intro r
  split_ifs
  · simp
  · simp
  · apply CommitsLast.bind writes_lockWallet
    intro w
    apply CommitsLast.bind writes_authoriseAdditional
    intro _
    apply CommitsLast.bind (writes_locking _ _ _)
    intro budget
    apply CommitsLast.bind writes_insertUnique
    intro _
    apply CommitsLast.bind writes_flushRelease
    intro _
    exact (commitsLast_write _ _).map _

theorem writes_walletForUpdate {held : IdentityMap} {ctx : CallContext} {userId : Uuid} :
    (walletForUpdate held ctx userId).Writes G := by
  apply Writes.bind (writes_locking _ _ _)
  intro wallet
  cases wallet with
  | some w => exact writes_ret _
  | none => exact writes_insertUnique.bind fun _ => writes_ret _

/-- The commit of a reservation is its last statement, but for the rollback after a conflict. -/
theorem commitsLast_reserve (ctx : CallContext) (req : ReserveRequest) :
    (reserve {} ctx req).CommitsLast := by
  unfold reserve
  split_ifs
  · simp
  · apply CommitsLast.bind (writes_locking _ _ _)
    intro existing
    cases existing with
    | some r => simp
    | none =>
        apply CommitsLast.bind writes_check
        intro _
        apply CommitsLast.bind writes_walletForUpdate
        rintro ⟨wallet, created⟩
        dsimp only
        split_ifs
        · simp
        · simp
        · apply CommitsLast.catching
          · apply CommitsLast.bind writes_insertUnique
            intro _
            apply CommitsLast.bind writes_insertUnique
            intro _
            exact (commitsLast_write _ _).map _
          · intro e
            unfold onIntegrityError
            split_ifs
            · apply CommitsLast.bind (writes_write.mpr fun _ => rfl)
              intro _
              apply CommitsLast.bind (writes_query _ _)
              intro existing
              cases existing with
              | some r => simp
              | none => simp
            · simp

variable {d₀ d d' : Db} {ctx : CallContext}

theorem made_settleWrite {r : Reservation} {w : Wallet} (h : Standing d₀ r w d)
    (budget : Option Budget) (req : SettleRequest) :
    d₀.Made r .settled (money req.actualAmount) (settleWrite r w budget req ctx d) := by
  have hid : w.id = r.walletId := RowTable.get?_some_key h.wallet
  have hreservations (id : Uuid) := Db.get?_flushReservation d r
    (r.afterSettle (money req.actualAmount)) id
  have hwallets (id : Uuid) := Db.get?_flushWallet d w
    (w.afterSettle r (money req.actualAmount)) id
  refine ⟨h.made.fresh,
    ⟨Reservation.flush r (r.afterSettle (money req.actualAmount)) r, ?_, ?_⟩, ?_, ?_⟩
  · rw [reservations_settleWrite, hreservations, if_pos rfl, h.row]
    rfl
  · exact changed_row _ _
  · intro id hne
    rw [reservations_settleWrite, hreservations, if_neg hne]
    exact h.made.others id hne
  · intro id
    rw [Db.spentOf, wallets_settleWrite, hwallets]
    have hcharges := h.made.charges id
    rw [ite_self, add_zero, Db.spentOf] at hcharges
    by_cases hw : id = w.id
    · rw [if_pos hw, if_pos (hw.trans hid), ← hcharges, hw, hid, h.wallet]
      exact changed_row _ _
    · rw [if_neg hw, if_neg fun heq => hw (heq.trans hid.symm), add_zero, hcharges]

/-- The wallet of the reservation is still there. -/
theorem walletByUser_settleWrite {r : Reservation} {w : Wallet} (h : Standing d₀ r w d)
    (budget : Option Budget) (req : SettleRequest) :
    ((settleWrite r w budget req ctx d).walletByUser r.userId).isSome := by
  have hid : w.id = r.walletId := RowTable.get?_some_key h.wallet
  have hget := Db.get?_flushWallet d w (w.afterSettle r (money req.actualAmount)) w.id
  rw [if_pos rfl, hid, h.wallet] at hget
  rw [Db.walletByUser, wallets_settleWrite, List.find?_isSome]
  refine ⟨_, RowTable.get?_some_mem hget, ?_⟩
  rw [decide_eq_true_eq]
  exact h.owner

theorem made_of_settled {r row : Reservation} {w : Wallet} (h : Standing d₀ r w d)
    {req : SettleRequest} (hexec : (settle {} ctx r.id req).exec d = (.ok row, d')) :
    d₀.Made r .settled (money req.actualAmount) d' ∧ (d'.walletByUser r.userId).isSome := by
  have hkeeps : (settle {} ctx r.id req).Keeps (fun _ => True) d fun _ d' =>
      d₀.Made r .settled (money req.actualAmount) d' ∧ (d'.walletByUser r.userId).isSome := by
    apply keeps_settle
    · intro row hrow hclosed
      rw [h.row] at hrow
      exact absurd (Option.some.inj hrow ▸ h.reserved) hclosed
    · intro row w' haccepted
      have hrow : r = row := Option.some.inj (h.row.symm.trans haccepted.row)
      subst hrow
      have hw : w = w' := Option.some.inj (h.wallet.symm.trans haccepted.wallet)
      subst hw
      exact ⟨trivial, made_settleWrite h _ req, walletByUser_settleWrite h _ req⟩
  exact hkeeps.exec hexec

/-- What `reserve` returns if its reservation is a new one. -/
theorem standing_of_reserved {r : Reservation} {req : ReserveRequest} (hsame : d₀.SameMoney d)
    (hexec : (reserve {} ctx req).exec d = (.ok r, d')) :
    d' = d ∨ ∃ w, ReserveAccepted d ctx req w ∧ r = req.reservation ctx w ∧
      d' = reserveWrite none w r ctx d ∧
      Standing d₀ r (w.afterReserve (money req.amount)) d' := by
  have hkeeps : (reserve {} ctx req).Keeps (fun _ => True) d fun r d' =>
      d' = d ∨ ∃ w, ReserveAccepted d ctx req w ∧ r = req.reservation ctx w ∧
        d' = reserveWrite none w r ctx d ∧
        Standing d₀ r (w.afterReserve (money req.amount)) d' := by
    apply keeps_reserve trivial
    · exact fun _ _ => .inl rfl
    · intro w haccepted
      exact ⟨trivial, .inr ⟨w, haccepted, rfl, rfl, standing_reserveWrite haccepted hsame⟩⟩
  exact hkeeps.exec hexec

end Settle

end Zyntry
