import Zyntry.SessionSpecs

/-!
# Whose reservation `reserve` returns

Sessions of any users reserve, settle and release under any keys, interleaved in
any way. Every stored reservation lies in the wallet of the user it belongs to,
and `reserve` returns either the reservation it has just made or the one that is
stored under the key; the unique constraint on keys spans all users.
-/

namespace Zyntry

open SqlProgram SqlProgram.Discipline

/-- Every reservation lies in a wallet of its user. -/
def WellOwned (d : Db) : Prop :=
  ∀ r ∈ d.reservations.rows, ∃ w, d.wallets.get? r.walletId = some w ∧ w.userId = r.userId

/-! ## Where the result of `reserve` comes from -/

theorem mayReturn_conflictedReservation {V : Db → Prop} {key : String} {r : Reservation}
    (h : (conflictedReservation key).MayReturn V r) : ∃ d, V d ∧ d.reservationByKey key = some r := by
  simp only [conflictedReservation, mayReturn_write, mayReturn_query] at h
  obtain ⟨d, hd, h⟩ := h
  cases hkey : d.reservationByKey key with
  | none =>
      rw [hkey] at h
      exact h.elim
  | some row =>
      rw [hkey] at h
      exact ⟨d, hd, h ▸ hkey⟩

theorem mayReturn_commitReservation {V : Db → Prop} {ctx : CallContext} {req : ReserveRequest}
    {w : Wallet} {created : Option Wallet} {r : Reservation}
    (h : (commitReservation ctx req w created).MayReturn V r) :
    r = req.reservation ctx w ∨ ∃ d, V d ∧ d.reservationByKey req.idempotencyKey = some r := by
  simp only [commitReservation, flushLedger, insertUnique, bind_assoc, catching_locking,
    mayReturn_locking] at h
  obtain ⟨d, _, h⟩ := h
  cases hx : reservationExists (req.reservation ctx w).id (req.reservation ctx w).idempotencyKey d with
  | true =>
      simp only [hx, if_true, raise_bind, catching_raise, onIntegrityError_self] at h
      exact .inr (mayReturn_conflictedReservation h)
  | false =>
      simp only [hx, Bool.false_eq_true, if_false, pure_eq, ret_bind, catching_locking,
        mayReturn_locking] at h
      obtain ⟨d', _, h⟩ := h
      cases ht : ledgerKeyTaken (reservationLedger (req.reservation ctx w) ctx).idempotencyKey d' with
      | true =>
          simp only [ht, if_true, raise_bind, catching_raise, onIntegrityError_self] at h
          exact .inr (mayReturn_conflictedReservation h)
      | false =>
          simp only [ht, Bool.false_eq_true, if_false, ret_bind, catching_write, catching_ret,
            mayReturn_write, mayReturn_ret] at h
          exact .inl h.symm

/-- The two return paths of `reserve`, and its normal return. -/
theorem mayReturn_reserve {V : Db → Prop} {ctx : CallContext} {req : ReserveRequest}
    {r : Reservation} (h : (reserve {} ctx req).MayReturn V r) :
    (∃ d w, V d ∧ d.walletByUser req.userId = some w ∧ r = req.reservation ctx w) ∨
      ∃ d, V d ∧ d.reservationByKey req.idempotencyKey = some r := by
  unfold reserve at h
  split_ifs at h with hpos
  · exact h.elim
  obtain ⟨d, hd, h⟩ := mayReturn_locking.mp h
  cases hkey : d.reservationByKey req.idempotencyKey with
  | some row =>
      simp only [hkey, Option.map_some, pure_eq, mayReturn_ret] at h
      exact .inr ⟨d, hd, hkey.trans (congrArg some h)⟩
  | none =>
      simp only [hkey, Option.map_none] at h
      obtain ⟨_, _, h⟩ := mayReturn_bind.mp h
      simp only [walletForUpdate, bind_assoc, mayReturn_locking] at h
      obtain ⟨d', hd', h⟩ := h
      cases hw : d'.walletByUser req.userId with
      | none =>
          -- a wallet created on the spot is empty and cannot pay
          simp only [hw, Option.map_none, bind_assoc] at h
          obtain ⟨_, _, h⟩ := mayReturn_bind.mp h
          simp only [pure_eq, ret_bind, ne_eq, not_true_eq_false, if_false,
            if_pos (not_le.mp hpos)] at h
          exact h.elim
      | some w =>
          simp only [hw, Option.map_some, pure_eq, ret_bind] at h
          split_ifs at h
          · exact h.elim
          · exact h.elim
          · rcases mayReturn_commitReservation h with hnew | hold
            · exact .inl ⟨d', w, hd', hw, hnew⟩
            · exact .inr hold

/-! ## Stored reservations lie in their users' wallets -/

def ownership : SqlDiscipline where
  inv d _ := WellOwned d
  guarantee H _ d d' := Frame H d d'
  own _ _ := True
  compatible _ _ := True

theorem framed_ownership : Framed ownership :=
  ⟨fun _ _ _ _ h => h, fun H d _ h => ⟨Frame.refl H d, h⟩⟩

/-- Wallets keep their users, so it is enough to look at the reservations. -/
theorem wellOwned_of_frame {H : Set Resource} {d d' : Db} (h : WellOwned d) (hf : Frame H d d')
    (hrows : ∀ r' ∈ d'.reservations.rows, (∃ r ∈ d.reservations.rows, r'.identity = r.identity) ∨
      ∃ w, d.wallets.get? r'.walletId = some w ∧ w.userId = r'.userId) : WellOwned d' := by
  have hkept : ∀ walletId userId, (∃ w, d.wallets.get? walletId = some w ∧ w.userId = userId) →
      ∃ w, d'.wallets.get? walletId = some w ∧ w.userId = userId := by
    rintro walletId userId ⟨w, hw, huser⟩
    obtain ⟨w', hw', huser'⟩ := hf.walletUser walletId w hw
    exact ⟨w', hw', huser'.trans huser⟩
  intro r' hr'
  rcases hrows r' hr' with ⟨r, hr, hsame⟩ | hnew
  · rw [Reservation.walletId_eq hsame, Reservation.userId_eq hsame]
    exact hkept r.walletId r.userId (h r hr)
  · exact hkept r'.walletId r'.userId hnew

theorem identity_of_mem_flush {d : Db} {r new r' : Reservation}
    (h : r' ∈ (d.flushReservation r new).reservations.rows) :
    ∃ row ∈ d.reservations.rows, r'.identity = row.identity := by
  rcases Db.mem_flushReservation h with ⟨hold, _⟩ | ⟨row, hrow, rfl⟩
  · exact ⟨r', hold, rfl⟩
  · exact ⟨row, RowTable.get?_some_mem hrow, rfl⟩

theorem sat_ownership (c : ReservationCall) :
    ownership.Sat (runReservation c) ∅ (fun _ => True) (fun _ _ _ => True) := by
  have htrue := ownership.lasting_true
  cases c with
  | reserve ctx req =>
      refine sat_reserve (K := ∅) (C := fun _ => True) framed_ownership htrue ?_
        (fun d _ _ _ _ _ _ _ => reaches_true d _ _) (fun d _ _ _ _ _ => reaches_true d _ _) ?_
      · intro H' _
        refine (sat_check (htrue.firm H') _).mono ?_
        rintro _ H'' _ ⟨_, rfl⟩
        exact ⟨Set.empty_subset _, htrue.firm H'', fun _ _ => ⟨trivial, trivial⟩⟩
      · intro d log H' row hi _ _ _ hready
        refine ⟨hready.frame, wellOwned_of_frame hi hready.frame ?_, reaches_true _ _ _⟩
        intro r' hr'
        rcases RowTable.mem_rows_insert hr' with hold | rfl
        · exact .inl ⟨r', hold, rfl⟩
        · exact .inr ⟨row, hready.wallet, hready.user⟩
  | settle ctx id req =>
      refine sat_settle framed_ownership htrue (fun d _ _ _ _ _ _ _ => reaches_true d _ _) ?_
      intro d log H' row wallet budget hi _ hready
      refine ⟨hready.frame, wellOwned_of_frame hi hready.frame ?_, reaches_true _ _ _⟩
      intro r' hr'
      rw [reservations_settleWrite] at hr'
      exact .inl (identity_of_mem_flush hr')
  | release ctx id =>
      refine sat_release framed_ownership htrue (fun d _ _ _ _ _ _ _ => reaches_true d _ _) ?_
      intro d log H' row wallet hi _ hready
      refine ⟨hready.frame, wellOwned_of_frame hi hready.frame ?_, reaches_true _ _ _⟩
      exact fun r' hr' => .inl (identity_of_mem_flush hr')

/-- Two funded users. -/
def twoUsers : Db where
  wallets := RowTable.ofRows
    [{ id := ⟨"wu"⟩, userId := ⟨"u"⟩, balance := 1000000 },
     { id := ⟨"wv"⟩, userId := ⟨"v"⟩, balance := 1000000 }] (by decide)

def reserveCall (id user : String) (amount : Decimal) (key : String) : CallContext × ReserveRequest :=
  (⟨1, ⟨id⟩, ⟨"x"⟩⟩,
    { userId := ⟨user⟩, amount := amount, requestId := "q", idempotencyKey := key })

def reserveFirst (id user : String) (amount : Decimal) (key : String) : List MeteredOperation :=
  [.reserve (reserveCall id user amount key).1 (reserveCall id user amount key).2]

theorem wellOwned_twoUsers : WellOwned twoUsers := by simp [WellOwned, twoUsers, default]

/-- What `reserveFirst "r1" "u" 2 "k"` reserves. -/
def firstReservation : Reservation :=
  (reserveCall "r1" "u" 2 "k").2.reservation (reserveCall "r1" "u" 2 "k").1
    { id := ⟨"wu"⟩, userId := ⟨"u"⟩ }

/-- Another user asks under the same key and is handed the first user's reservation. -/
example :
    let d := execAll runMetered (reserveFirst "r1" "u" 2 "k") twoUsers
    let again := reserveCall "r2" "v" 2 "k"
    (match ((reserve {} again.1 again.2).exec d).1 with
      | .ok r => r.userId
      | .error _ => ⟨"v"⟩) = (⟨"u"⟩ : Uuid) := by
  decide +kernel

end Zyntry
