import Zyntry.SessionSpecs
import Zyntry.WalletConservation

/-!
# Finalising a reservation once

Sessions that reserve and later settle or release what they got back run among
sessions that release or expire reservations. The status guard of `settle` and
`release` looks at the object that the reserving session still holds; behind it,
the unique ledger keys `:settled` and `:release` stop most second finalisations.
-/

namespace Zyntry

open SqlProgram SqlProgram.Discipline

/-! ## Sessions -/

inductive FinalisingCall where
  | reserveThenSettle (ctx : CallContext) (req : ReserveRequest) (later : CallContext)
      (settleReq : SettleRequest)
  | reserveThenRelease (ctx : CallContext) (req : ReserveRequest) (later : CallContext)
  | release (ctx : CallContext) (reservationId : Uuid)
  | expireReservations (ctx : CallContext) (limit : ℕ)

/-- The reserving session holds its reservation until it finalises it. -/
def runFinalisingCall : FinalisingCall → Sql Unit
  | .reserveThenSettle ctx req later settleReq => do
      let r ← reserve {} ctx req
      (settle { reservations := [r] } later r.id settleReq).ignore
  | .reserveThenRelease ctx req later => do
      let r ← reserve {} ctx req
      (release { reservations := [r] } later r.id).ignore
  | .release ctx id => (release {} ctx id).ignore
  | .expireReservations ctx limit => (expireReservations ctx limit).ignore

/-! ## What is expected of a run -/

/-- From `d₁` to the later state `d` of a run that began in `d₀`: a finalised
reservation stays as it is, the wallets hold exactly the estimates of the open
reservations besides what they held before, and what was settled and released
adds up to the estimate. -/
structure FinalisedOnce (d₀ d₁ d : Db) : Prop where
  kept : ∀ id r, d₁.reservations.get? id = some r → r.status ≠ .reserved →
    d.reservations.get? id = some r
  reservedBalance : ∀ id w, d.wallets.get? id = some w → ∃ w₀, d₀.wallets.get? id = some w₀ ∧
    w.reservedBalance - d.outstanding id = w₀.reservedBalance - d₀.outstanding id
  amounts : ∀ r ∈ d.reservations.rows, r.status ≠ .reserved →
    r.settledAmount.getD 0 + r.releasedAmount = r.estimatedAmount

/-- The ledger rows of a finalised reservation are there. -/
structure Recorded (d : Db) (r : Reservation) : Prop where
  unsettled : r.status = .reserved → r.settledAmount = none
  settledKey : r.status = .settled → d.ledgerHasKey (r.idempotencyKey ++ ":settled") = true
  releaseKey : r.status = .released ∨ (r.status = .settled ∧ 0 < r.releasedAmount) →
    d.ledgerHasKey (r.idempotencyKey ++ ":release") = true
  amounts : r.status ≠ .reserved → r.settledAmount.getD 0 + r.releasedAmount = r.estimatedAmount

theorem Recorded.of_frame {H : Set Resource} {d d' : Db} {r : Reservation} (h : Recorded d r)
    (hf : Frame H d d') : Recorded d' r :=
  ⟨h.unsettled, fun hr => hf.ledgerKept _ (h.settledKey hr),
    fun hr => hf.ledgerKept _ (h.releaseKey hr), h.amounts⟩

/-! ## The discipline -/

/-- A second finalisation of `row` runs into a ledger key that is taken. -/
def BlockedByKey (loaded row : Reservation) : Finaliser → Prop
  | .settle actual => row.status = .settled ∨
      (row.status = .released ∧ actual < loaded.estimatedAmount)
  | .release => row.status = .released ∨ (row.status = .settled ∧ 0 < row.releasedAmount)

/-- When the statement locks a reservation that the session takes for open, it is
open, or a ledger key will stop the session. -/
def LocksOpen : Statement → Db → Prop
  | .lockReservation id held purpose, d =>
      ∀ row ∈ d.reservations.get? id, (held.reservation row).status = .reserved →
        row.status = .reserved ∨ BlockedByKey (held.reservation row) row purpose
  | _, _ => True

/-- Rows stay as they are, or they leave `reserved`. -/
def Finalises (d d' : Db) : Prop :=
  ∀ id r, d.reservations.get? id = some r → ∃ r', d'.reservations.get? id = some r' ∧
    (r' = r ∨ (r.status = .reserved ∧ r'.status ≠ .reserved))

structure Held (d₀ d : Db) : Prop where
  recorded : ∀ r ∈ d.reservations.rows, Recorded d r
  reservedBalance : ∀ id w, d.wallets.get? id = some w → ∃ w₀, d₀.wallets.get? id = some w₀ ∧
    w.reservedBalance - d.outstanding id = w₀.reservedBalance - d₀.outstanding id

def finalisation (d₀ : Db) : SqlDiscipline where
  inv d _ := Held d₀ d
  guarantee H _ d d' := Frame H d d' ∧ Finalises d d'
  own := LocksOpen
  compatible _ _ := True

theorem framed_finalisation (d₀ : Db) : Framed (finalisation d₀) :=
  ⟨fun _ _ _ _ h => h.1, fun H d _ h =>
    ⟨⟨Frame.refl H d, fun _ r hr => ⟨r, hr, .inl rfl⟩⟩, h⟩⟩

/-- A finalised row never changes again. -/
theorem lasting_finalised (d₀ : Db) {id : Uuid} {r : Reservation} (hdone : r.status ≠ .reserved) :
    (finalisation d₀).Lasting (fun d => d.reservations.get? id = some r) := by
  intro d d' _ _ _ _ hg hq
  obtain ⟨r', hr', rfl | ⟨hopen, _⟩⟩ := hg.2 id r hq
  · exact hr'
  · exact absurd hopen hdone

/-- The object `r` of a session: its row is still the same, or it was finalised. -/
def Known (r : Reservation) (d : Db) : Prop :=
  ∃ row, d.reservations.get? r.id = some row ∧ row.identity = r.identity ∧
    (row = r ∨ row.status ≠ .reserved)

theorem lasting_known (d₀ : Db) (r : Reservation) : (finalisation d₀).Lasting (Known r) := by
  rintro d d' _ _ _ _ ⟨hf, hfin⟩ ⟨row, hrow, hsame, hopen⟩
  obtain ⟨row', hrow', hstep⟩ := hfin r.id row hrow
  obtain ⟨row'', hrow'', hsame'⟩ := hf.reservationIdentity r.id row hrow
  have he : row'' = row' := Option.some.inj (hrow''.symm.trans hrow')
  subst he
  refine ⟨row'', hrow', hsame'.trans hsame, ?_⟩
  rcases hstep with rfl | ⟨_, hdone⟩
  · exact hopen
  · exact .inr hdone

/-- The session's object is the row itself as long as the row is open. -/
theorem Known.eq_of_reserved {r row : Reservation} {d : Db} (h : Known r d)
    (hrow : d.reservations.get? r.id = some row) (hreserved : row.status = .reserved) :
    row = r := by
  obtain ⟨row', hrow', _, rfl | hdone⟩ := h
  · exact Option.some.inj (hrow.symm.trans hrow')
  · have he : row' = row := Option.some.inj (hrow'.symm.trans hrow)
    exact absurd hreserved (he ▸ hdone)

/-! ## The commits -/

/-- Both finalisers rewrite one open row and take its estimate out of its wallet. -/
theorem held_finalise {d₀ d d' : Db} {H : Set Resource} {r new : Reservation} {w w' : Wallet}
    (h : Held d₀ d) (hf : Frame H d d') (hr : d.reservations.get? r.id = some r)
    (hreserved : r.status = .reserved) (hdone : new.status ≠ .reserved)
    (hw : d.wallets.get? r.walletId = some w)
    (hreservations : d'.reservations = (d.flushReservation r new).reservations)
    (hwallets : d'.wallets = (d.flushWallet w w').wallets)
    (htaken : w'.reservedBalance = w.reservedBalance - r.estimatedAmount)
    (hrecorded : Recorded d' (Reservation.flush r new r)) :
    Finalises d d' ∧ Held d₀ d' := by
  have hout : ∀ id, d'.outstanding id =
      d.outstanding id - if r.walletId = id then r.estimatedAmount else 0 := by
    intro id
    have hflush := outstanding_flushReservation new hr id
    simp only [hreserved, hdone, and_true, and_false, if_false, add_zero] at hflush
    rw [← hflush, Db.outstanding, hreservations, Db.outstanding]
  have hwid : w.id = r.walletId := RowTable.get?_some_key hw
  refine ⟨fun id row hrow => ?_, fun r' hr' => ?_, fun id w'' hw'' => ?_⟩
  · rw [hreservations, Db.get?_flushReservation]
    by_cases hid : id = r.id
    · have he : row = r := Option.some.inj (hrow.symm.trans (hid ▸ hr))
      subst he
      rw [if_pos hid, hid, hr]
      refine ⟨_, rfl, .inr ⟨hreserved, ?_⟩⟩
      simpa only [Reservation.flush, changed_row] using hdone
    · rw [if_neg hid]
      exact ⟨row, hrow, .inl rfl⟩
  · rw [hreservations] at hr'
    rcases Db.mem_flushReservation hr' with ⟨hold, _⟩ | ⟨row, hrow, rfl⟩
    · exact (h.recorded r' hold).of_frame hf
    · have he : row = r := Option.some.inj (hrow.symm.trans hr)
      exact he ▸ hrecorded
  · rw [hwallets, Db.get?_flushWallet] at hw''
    rw [hout]
    by_cases hid : id = w.id
    · subst hid
      rw [if_pos rfl, hwid, hw] at hw''
      obtain rfl := Option.some.inj hw''
      obtain ⟨w₀, hw₀, hsame⟩ := h.reservedBalance w.id w (hwid ▸ hw)
      refine ⟨w₀, hw₀, ?_⟩
      rw [if_pos hwid.symm]
      simp only [Wallet.flush, changed_row]
      omega
    · rw [if_neg hid] at hw''
      rw [if_neg fun he => hid (hwid ▸ he.symm), sub_zero]
      exact h.reservedBalance id w'' hw''

theorem recorded_settleWrite {r : Reservation} {w : Wallet} {budget : Option Budget}
    {req : SettleRequest} {ctx : CallContext} {d : Db} :
    Recorded (settleWrite r w budget req ctx d)
      (Reservation.flush r (r.afterSettle (money req.actualAmount)) r) := by
  have hsettled : (settleWrite r w budget req ctx d).ledgerHasKey
      (r.idempotencyKey ++ ":settled") = true := by
    unfold settleWrite
    dsimp only
    split_ifs <;> simp [ledgerHasKey_addLedger, settledLedger]
  have hrelease : 0 < releaseAmount r (money req.actualAmount) →
      (settleWrite r w budget req ctx d).ledgerHasKey (r.idempotencyKey ++ ":release") = true := by
    intro hpos
    unfold settleWrite
    dsimp only
    rw [if_pos hpos]
    simp [ledgerHasKey_addLedger, releaseLedger]
  constructor
  · simp [Reservation.flush, Reservation.afterSettle]
  · exact fun _ => hsettled
  · simpa [Reservation.flush, Reservation.afterSettle] using hrelease
  · simp only [Reservation.flush, Reservation.afterSettle, changed_row, Option.getD_some,
      releaseAmount]
    omega

theorem recorded_releaseWrite {r : Reservation} {w : Wallet} {ctx : CallContext} {d : Db}
    (hunsettled : r.settledAmount = none) :
    Recorded (releaseWrite r w ctx d) (Reservation.flush r r.afterRelease r) := by
  constructor
  · exact fun _ => by simp [Reservation.flush, Reservation.afterRelease, hunsettled]
  · simp [Reservation.flush, Reservation.afterRelease]
  · exact fun _ => by simp [releaseWrite, ledgerHasKey_addLedger, releaseLedger, Reservation.flush]
  · simp [Reservation.flush, Reservation.afterRelease, hunsettled]

/-- A session that gets to its commit has locked an open row, which its object shows. -/
theorem open_of_locksOpen {d₀ d d₁ : Db} {id : Uuid} {held : IdentityMap} {purpose : Finaliser}
    {row : Reservation} (h : Held d₀ d) (hrow : d.reservations.get? id = some row)
    (hknown : Known (held.reservation row) d)
    (hlocked : LocksOpen (.lockReservation id held purpose) d₁)
    (hrow₁ : d₁.reservations.get? id = some row)
    (hreserved : (held.reservation row).status = .reserved)
    (hfree : Recorded d row → row.idempotencyKey = (held.reservation row).idempotencyKey →
      ¬ BlockedByKey (held.reservation row) row purpose) :
    held.reservation row = row ∧ row.status = .reserved := by
  have hid : (held.reservation row).id = id :=
    (held.reservation_id row).trans (RowTable.get?_some_key hrow)
  have hkey : row.idempotencyKey = (held.reservation row).idempotencyKey := by
    have ⟨row', hrow', hsame, _⟩ := hknown
    have he : row' = row := Option.some.inj (hrow'.symm.trans (hid ▸ hrow))
    exact Reservation.idempotencyKey_eq (he ▸ hsame)
  have hopen : row.status = .reserved :=
    (hlocked row hrow₁ hreserved).resolve_right
      (hfree (h.recorded row (RowTable.get?_some_mem hrow)) hkey)
  exact ⟨(hknown.eq_of_reserved (hid ▸ hrow) hopen).symm, hopen⟩

theorem settleWrite_finalisation {d₀ d : Db} {log : List Statement} {H : Set Resource}
    {held : IdentityMap} (hheld : held.wallets = []) {ctx : CallContext} {id : Uuid}
    {req : SettleRequest} {row : Reservation} {wallet : Wallet} {budget : Option Budget}
    (l : Statement) (hi : (finalisation d₀).inv d log) (hknown : Known (held.reservation row) d)
    (hready : SettleReady (finalisation d₀) held ctx id req H d row wallet budget) :
    (finalisation d₀).guarantee H l d
      (settleWrite (held.reservation row) (held.wallet wallet) budget req ctx d) ∧
    (finalisation d₀).inv
      (settleWrite (held.reservation row) (held.wallet wallet) budget req ctx d) (log ++ [l]) := by
  obtain ⟨d₁, _, _, hlocked, hrow₁⟩ := hready.locked
  obtain ⟨hsame, hopen⟩ := open_of_locksOpen hi hready.stored hknown hlocked hrow₁ hready.reserved
    (by
      rintro hrecorded hkey (hsettled | ⟨hreleased, hless⟩)
      · have htaken := hrecorded.settledKey hsettled
        rw [hkey, hready.settledFree] at htaken
        cases htaken
      · have htaken := hrecorded.releaseKey (.inl hreleased)
        have hadditional := additionalAmount_cases (held.reservation row) (money req.actualAmount)
        have hpos : 0 < releaseAmount (held.reservation row) (money req.actualAmount) := by
          unfold releaseAmount
          omega
        rw [hkey, hready.releaseFree hpos] at htaken
        cases htaken)
  have hframe := hready.frame
  have hwallet : held.wallet wallet = wallet := by simp [IdentityMap.wallet, hheld]
  have hfunded := hready.funded
  rw [hsame] at hfunded
  rw [hsame, hwallet] at hframe ⊢
  have hr : d.reservations.get? row.id = some row := by
    rw [RowTable.get?_some_key hready.stored]
    exact hready.stored
  obtain ⟨hfin, hi'⟩ := held_finalise hi hframe hr hopen (by simp [Reservation.afterSettle])
    hfunded (reservations_settleWrite row wallet budget req ctx d)
    (wallets_settleWrite row wallet budget req ctx d)
    (by simp only [Wallet.afterSettle]; omega) recorded_settleWrite
  exact ⟨⟨hframe, hfin⟩, hi'⟩

theorem releaseWrite_finalisation {d₀ d : Db} {log : List Statement} {H : Set Resource}
    {held : IdentityMap} (hheld : held.wallets = []) {ctx : CallContext} {id : Uuid}
    {row : Reservation} {wallet : Wallet} (l : Statement) (hi : (finalisation d₀).inv d log)
    (hknown : Known (held.reservation row) d)
    (hready : ReleaseReady (finalisation d₀) held ctx id H d row wallet) :
    (finalisation d₀).guarantee H l d
      (releaseWrite (held.reservation row) (held.wallet wallet) ctx d) ∧
    (finalisation d₀).inv
      (releaseWrite (held.reservation row) (held.wallet wallet) ctx d) (log ++ [l]) := by
  obtain ⟨d₁, _, _, hlocked, hrow₁⟩ := hready.locked
  obtain ⟨hsame, hopen⟩ := open_of_locksOpen hi hready.stored hknown hlocked hrow₁ hready.reserved
    (by
      intro hrecorded hkey hblocked
      have htaken := hrecorded.releaseKey hblocked
      rw [hkey, hready.releaseFree] at htaken
      cases htaken)
  have hframe := hready.frame
  have hwallet : held.wallet wallet = wallet := by simp [IdentityMap.wallet, hheld]
  have hfunded := hready.funded
  rw [hsame] at hfunded
  rw [hsame, hwallet] at hframe ⊢
  have hr : d.reservations.get? row.id = some row := by
    rw [RowTable.get?_some_key hready.stored]
    exact hready.stored
  have hrecorded := hi.recorded row (RowTable.get?_some_mem hr)
  obtain ⟨hfin, hi'⟩ := held_finalise hi hframe hr hopen (by simp [Reservation.afterRelease])
    hfunded rfl rfl rfl (recorded_releaseWrite (hrecorded.unsettled hopen))
  exact ⟨⟨hframe, hfin⟩, hi'⟩

theorem reserveWrite_finalisation {d₀ d : Db} {H : Set Resource} {ctx : CallContext}
    {req : ReserveRequest} {row : Wallet} (hi : Held d₀ d)
    (hready : ReserveReady (finalisation d₀) {} ctx req H d row) :
    Finalises d (reserveWrite none row (req.reservation ctx row) ctx d) ∧
      Held d₀ (reserveWrite none row (req.reservation ctx row) ctx d) := by
  have hout : ∀ id, (reserveWrite none row (req.reservation ctx row) ctx d).outstanding id =
      d.outstanding id + if row.id = id then money req.amount else 0 := by
    intro id
    refine (outstanding_addReservation (d := d) hready.idFree id).trans ?_
    simp [ReserveRequest.reservation]
  refine ⟨fun id r hr => ⟨r, RowTable.get?_insert_of_some hr, .inl rfl⟩, fun r hr => ?_,
    fun id w hw => ?_⟩
  · rcases RowTable.mem_rows_insert hr with hold | rfl
    · exact (hi.recorded r hold).of_frame hready.frame
    · constructor <;> simp [ReserveRequest.reservation]
  · have hw' : (d.flushWallet row (row.afterReserve (money req.amount))).wallets.get? id =
        some w := hw
    rw [Db.get?_flushWallet] at hw'
    rw [hout]
    by_cases hid : id = row.id
    · subst hid
      rw [if_pos rfl, hready.wallet] at hw'
      obtain rfl := Option.some.inj hw'
      obtain ⟨w₀, hw₀, hsame⟩ := hi.reservedBalance row.id row hready.wallet
      refine ⟨w₀, hw₀, ?_⟩
      rw [if_pos rfl]
      simp only [Wallet.flush, Wallet.afterReserve, changed_row]
      omega
    · rw [if_neg hid] at hw'
      rw [if_neg fun he => hid he.symm, add_zero]
      exact hi.reservedBalance id w hw'

/-! ## The sessions -/

theorem known_of_stored {r : Reservation} {d : Db} (h : d.reservations.get? r.id = some r) :
    Known r d := ⟨r, h, rfl, .inl rfl⟩

/-- `reserve` hands its caller an object that is the row, unless the row is finalised. -/
theorem sat_reserve_finalisation (d₀ : Db) (ctx : CallContext) (req : ReserveRequest) :
    (finalisation d₀).Sat (reserve {} ctx req) ∅ (fun _ => True) (fun r _ Q => Q = Known r) := by
  have htrue := (finalisation d₀).lasting_true
  have hstored : ∀ (d : Db) (r : Reservation) (H : Set Resource),
      d.reservations.get? r.id = some r →
      Reaches (fun r (_ : Set Resource) Q => Q = Known r) d r H :=
    fun d r H h => ⟨Known r, known_of_stored h, rfl⟩
  refine sat_reserve (K := ∅) (C := fun _ => True) (framed_finalisation d₀) htrue ?_
    (fun d _ r _ _ _ hkey _ => hstored d r _ (reservationByKey_get? hkey).1)
    (fun d _ r _ _ hkey => hstored d r _ (reservationByKey_get? hkey).1) ?_
  · intro H' _
    refine (sat_check (htrue.firm H') _).mono ?_
    rintro _ H'' _ ⟨_, rfl⟩
    exact ⟨Set.empty_subset _, htrue.firm H'', fun _ _ => ⟨trivial, trivial⟩⟩
  · intro d log H' row hi _ _ _ hready
    obtain ⟨hfin, hi'⟩ := reserveWrite_finalisation hi hready
    exact ⟨⟨hready.frame, hfin⟩, hi', hstored _ _ _ (RowTable.get?_insert_self hready.idFree)⟩

theorem sat_settle_finalisation (d₀ : Db) (ctx : CallContext) (r : Reservation)
    (req : SettleRequest) (H : Set Resource) :
    (finalisation d₀).Sat (settle { reservations := [r] } ctx r.id req) H (Known r)
      (fun _ _ _ => True) := by
  refine sat_settle (framed_finalisation d₀) (lasting_known d₀ r)
    (fun d _ _ _ _ _ _ _ => reaches_true d _ _) ?_
  intro d log H' row wallet budget hi hknown hready
  have hobject : ({ reservations := [r] } : IdentityMap).reservation row = r :=
    IdentityMap.reservation_single (RowTable.get?_some_key hready.stored)
  obtain ⟨hg, hi'⟩ := settleWrite_finalisation rfl _ hi (hobject.symm ▸ hknown) hready
  exact ⟨hg, hi', reaches_true _ _ _⟩

theorem sat_release_finalisation (d₀ : Db) (ctx : CallContext) (r : Reservation)
    (H : Set Resource) :
    (finalisation d₀).Sat (release { reservations := [r] } ctx r.id) H (Known r)
      (fun _ _ _ => True) := by
  refine sat_release (framed_finalisation d₀) (lasting_known d₀ r)
    (fun d _ _ _ _ _ _ _ => reaches_true d _ _) ?_
  intro d log H' row wallet hi hknown hready
  have hobject : ({ reservations := [r] } : IdentityMap).reservation row = r :=
    IdentityMap.reservation_single (RowTable.get?_some_key hready.stored)
  obtain ⟨hg, hi'⟩ := releaseWrite_finalisation rfl _ hi (hobject.symm ▸ hknown) hready
  exact ⟨hg, hi', reaches_true _ _ _⟩

/-- A session that holds no object sees the row itself. -/
theorem releaseWrite_finalisation_fresh {d₀ d : Db} {log : List Statement} {H : Set Resource}
    {ctx : CallContext} {id : Uuid} {row : Reservation} {wallet : Wallet} (l : Statement)
    (hi : (finalisation d₀).inv d log)
    (hready : ReleaseReady (finalisation d₀) {} ctx id H d row wallet) :
    (finalisation d₀).guarantee H l d (releaseWrite row wallet ctx d) ∧
    (finalisation d₀).inv (releaseWrite row wallet ctx d) (log ++ [l]) := by
  have hr : d.reservations.get? row.id = some row := by
    rw [RowTable.get?_some_key hready.stored]
    exact hready.stored
  have hknown : Known (({} : IdentityMap).reservation row) d := known_of_stored (r := row) hr
  exact releaseWrite_finalisation rfl l hi hknown hready

theorem sat_finalisation (d₀ : Db) (c : FinalisingCall) :
    (finalisation d₀).Sat (runFinalisingCall c) ∅ (fun _ => True) (fun _ _ _ => True) := by
  have hΔ := framed_finalisation d₀
  cases c with
  | reserveThenSettle ctx req later settleReq =>
      refine sat_bind _ _ _ _ _ _ ((sat_reserve_finalisation d₀ ctx req).mono ?_)
      rintro r H _ rfl
      exact sat_bind _ _ _ _ _ _ (sat_settle_finalisation d₀ later r settleReq H)
  | reserveThenRelease ctx req later =>
      refine sat_bind _ _ _ _ _ _ ((sat_reserve_finalisation d₀ ctx req).mono ?_)
      rintro r H _ rfl
      exact sat_bind _ _ _ _ _ _ (sat_release_finalisation d₀ later r H)
  | release ctx id =>
      refine sat_bind _ _ _ _ _ _ (sat_release hΔ (finalisation d₀).lasting_true
        (fun d _ _ _ _ _ _ _ => reaches_true d _ _) ?_)
      intro d log H row wallet hi _ hready
      obtain ⟨hg, hi'⟩ := releaseWrite_finalisation_fresh _ hi hready
      exact ⟨hg, hi', reaches_true _ _ _⟩
  | expireReservations ctx limit =>
      refine sat_bind _ _ _ _ _ _ (sat_expireReservations hΔ (fun _ _ => trivial) ?_)
      intro d log H id row wallet hi hready
      exact releaseWrite_finalisation_fresh _ hi hready

/-! ## Interleavings -/

abbrev FinalisingWorld (S : Type) := World S Db Resource Statement Error Unit

def LocksOpenReservation {S : Type} (w : FinalisingWorld S) (s : S) : Prop :=
  ∀ m ∈ (w.session s).head, LocksOpen m w.db

theorem finalisedOnce_of_locksOpenReservation {S : Type} [DecidableEq S] {db : Db}
    {calls : S → FinalisingCall} (hdb : ∀ r ∈ db.reservations.rows, Recorded db r)
    {w₁ w : FinalisingWorld S}
    (hrun₁ : World.Run LocksOpenReservation
      (World.start db (fun s => runFinalisingCall (calls s))) w₁)
    (hrun : World.Run LocksOpenReservation w₁ w) : FinalisedOnce db w₁.db w.db := by
  have hpermits : ∀ (w : FinalisingWorld S) s, LocksOpenReservation w s →
      (finalisation db).Permits w s :=
    fun w s hopen => ⟨fun m hm => hopen m hm, fun _ _ _ _ _ _ _ _ => trivial⟩
  have hstart : Held db db := ⟨hdb, fun id w hw => ⟨w, hw, rfl⟩⟩
  have hobeyed₁ := Obeyed.run hrun₁ hpermits
    (obeyed_start (finalisation db) hstart fun s => sat_finalisation db (calls s))
  have hheld : Held db w.db := (Obeyed.run hrun hpermits hobeyed₁).1
  constructor
  · intro id r hr hdone
    exact Obeyed.run_lasting hrun hpermits hobeyed₁ (lasting_finalised db hdone) hr
  · exact hheld.reservedBalance
  · exact fun r hr => (hheld.recorded r hr).amounts

/-! ## A reservation that expires before it is settled -/

instance (loaded row : Reservation) : ∀ p, Decidable (BlockedByKey loaded row p)
  | .settle _ => inferInstanceAs (Decidable (_ ∨ _))
  | .release => inferInstanceAs (Decidable (_ ∨ _))

instance (m : Statement) (d : Db) : Decidable (LocksOpen m d) := by
  unfold LocksOpen
  split <;> infer_instance

instance {S : Type} (w : FinalisingWorld S) (s : S) : Decidable (LocksOpenReservation w s) :=
  inferInstanceAs (Decidable (∀ m ∈ (w.session s).head, LocksOpen m w.db))

def oneWalletDb : Db where
  wallets := RowTable.single { id := ⟨"w"⟩, userId := ⟨"u"⟩, balance := 1000000 }

theorem recorded_oneWalletDb : ∀ r ∈ oneWalletDb.reservations.rows, Recorded oneWalletDb r := by
  intro r hr
  simp [oneWalletDb, default] at hr

/-- Session `true` reserves 5.0000 and settles it for `actual`; session `false`
expires reservations, long after the deadline. -/
def settleOrExpire (actual : Decimal) : Bool → FinalisingCall
  | true => .reserveThenSettle ⟨1, ⟨"r"⟩, ⟨"x"⟩⟩
      { userId := ⟨"u"⟩, amount := 5, requestId := "q", idempotencyKey := "k" }
      ⟨2000000000, ⟨"y"⟩, ⟨"x"⟩⟩ { actualAmount := actual }
  | false => .expireReservations ⟨1000000000, ⟨"z"⟩, ⟨"x"⟩⟩ 100

def settleOrExpireWorld (actual : Decimal) : FinalisingWorld Bool :=
  World.start oneWalletDb (fun s => runFinalisingCall (settleOrExpire actual s))

/-- The reservation is made and expires. -/
def expiredWorld (actual : Decimal) : FinalisingWorld Bool :=
  (settleOrExpireWorld actual).play (List.replicate 6 true ++ List.replicate 6 false)

/-- Settled for less than its estimate, the expired reservation stays released. -/
theorem finalisedOnce_of_locksOpenReservation_three :
    FinalisedOnce oneWalletDb (expiredWorld 3).db
      ((expiredWorld 3).play (List.replicate 8 true)).db := by
  have hok₁ : World.Follows LocksOpenReservation (List.replicate 6 true ++ List.replicate 6 false)
      (settleOrExpireWorld 3) := by decide +kernel
  have hok : World.Follows LocksOpenReservation (List.replicate 8 true) (expiredWorld 3) := by
    decide +kernel
  exact finalisedOnce_of_locksOpenReservation recorded_oneWalletDb (World.Run.start.play hok₁)
    (World.Run.start.play hok)

/-- Settled for its whole estimate, the expired reservation is finalised again. -/
theorem finalisedTwice_at_five :
    ¬ ∀ (db : Db) (calls : Bool → FinalisingCall) (w₁ w : FinalisingWorld Bool),
      (∀ r ∈ db.reservations.rows, Recorded db r) →
      World.Reachable (World.start db (fun s => runFinalisingCall (calls s))) w₁ →
      World.Reachable w₁ w → FinalisedOnce db w₁.db w.db := by
  intro h
  have hkept := (h oneWalletDb (settleOrExpire 5) (expiredWorld 5) _ recorded_oneWalletDb
    ((settleOrExpireWorld 5).play_reachable _)
    ((expiredWorld 5).play_reachable (List.replicate 8 true))).kept ⟨"r"⟩
  have hreleased : ((expiredWorld 5).db.reservations.get? ⟨"r"⟩).map Reservation.status =
      some .released := by decide +kernel
  have hsettled : (((expiredWorld 5).play (List.replicate 8 true)).db.reservations.get?
      ⟨"r"⟩).map Reservation.status = some .settled := by decide +kernel
  obtain ⟨r, hr, hstatus⟩ := Option.map_eq_some_iff.mp hreleased
  rw [hkept r hr (by simp [hstatus]), Option.map_some, hstatus] at hsettled
  cases hsettled

end Zyntry
