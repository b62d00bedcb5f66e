import Zyntry.BillingService

/-!
# What a commit leaves alone

Row locks and unique keys protect rows: a commit of a session that owns the
resources `H` changes only rows among `H`, inserts only under keys among `H`, and
never touches the identity of a wallet or a reservation.
-/

namespace Zyntry

structure Frame (H : Set Resource) (d d' : Db) : Prop where
  wallet : ∀ id, Resource.wallet id ∉ H → d'.wallets.get? id = d.wallets.get? id
  walletUser : ∀ id row, d.wallets.get? id = some row →
    ∃ row', d'.wallets.get? id = some row' ∧ row'.userId = row.userId
  reservation : ∀ id, Resource.reservation id ∉ H →
    d'.reservations.get? id = d.reservations.get? id
  reservationIdentity : ∀ id row, d.reservations.get? id = some row →
    ∃ row', d'.reservations.get? id = some row' ∧ row'.identity = row.identity
  reservationKey : ∀ key, Resource.reservationKey key ∉ H → d.reservationByKey key = none →
    d'.reservationByKey key = none
  ledgerKey : ∀ key, Resource.ledgerKey key ∉ H → d.ledgerHasKey key = false →
    d'.ledgerHasKey key = false
  ledgerKept : ∀ key, d.ledgerHasKey key = true → d'.ledgerHasKey key = true
  transaction : ∀ id, Resource.transaction id ∉ H → d.transactions.get? id = none →
    d'.transactions.get? id = none
  limits : d'.spendingLimits = d.spendingLimits

namespace Frame

variable {H : Set Resource} {d d' d'' : Db}

theorem refl (H : Set Resource) (d : Db) : Frame H d d :=
  ⟨fun _ _ => rfl, fun _ row h => ⟨row, h, rfl⟩, fun _ _ => rfl, fun _ row h => ⟨row, h, rfl⟩,
    fun _ _ h => h, fun _ _ h => h, fun _ h => h, fun _ _ h => h, rfl⟩

theorem trans (h : Frame H d d') (h' : Frame H d' d'') : Frame H d d'' where
  wallet id hid := (h'.wallet id hid).trans (h.wallet id hid)
  walletUser id row hrow := by
    obtain ⟨row', hrow', huser⟩ := h.walletUser id row hrow
    obtain ⟨row'', hrow'', huser'⟩ := h'.walletUser id row' hrow'
    exact ⟨row'', hrow'', huser'.trans huser⟩
  reservation id hid := (h'.reservation id hid).trans (h.reservation id hid)
  reservationIdentity id row hrow := by
    obtain ⟨row', hrow', hsame⟩ := h.reservationIdentity id row hrow
    obtain ⟨row'', hrow'', hsame'⟩ := h'.reservationIdentity id row' hrow'
    exact ⟨row'', hrow'', hsame'.trans hsame⟩
  reservationKey key hkey hfree := h'.reservationKey key hkey (h.reservationKey key hkey hfree)
  ledgerKey key hkey hfree := h'.ledgerKey key hkey (h.ledgerKey key hkey hfree)
  ledgerKept key htaken := h'.ledgerKept key (h.ledgerKept key htaken)
  transaction id hid hfree := h'.transaction id hid (h.transaction id hid hfree)
  limits := h'.limits.trans h.limits

theorem flushWallet {w new : Wallet} (hw : Resource.wallet w.id ∈ H) :
    Frame H d (d.flushWallet w new) :=
  { refl H d with
    wallet := fun id hid => by
      rw [Db.get?_flushWallet, if_neg]
      rintro rfl
      exact hid hw
    walletUser := fun id row hrow => by
      rw [Db.get?_flushWallet, hrow]
      split_ifs
      · exact ⟨_, rfl, rfl⟩
      · exact ⟨row, rfl, rfl⟩ }

theorem flushReservation {r new : Reservation} (hr : Resource.reservation r.id ∈ H) :
    Frame H d (d.flushReservation r new) :=
  { refl H d with
    reservation := fun id hid => by
      rw [Db.get?_flushReservation, if_neg]
      rintro rfl
      exact hid hr
    reservationIdentity := fun id row hrow => by
      rw [Db.get?_flushReservation, hrow]
      split_ifs
      · exact ⟨_, rfl, rfl⟩
      · exact ⟨row, rfl, rfl⟩
    reservationKey := fun key _ hfree => by
      unfold Db.reservationByKey at hfree ⊢
      rw [List.find?_eq_none] at hfree ⊢
      intro r' hr'
      rcases Db.mem_flushReservation hr' with ⟨hold, _⟩ | ⟨row, hrow, rfl⟩
      · exact hfree r' hold
      · exact hfree row (RowTable.get?_some_mem hrow) }

theorem flushBudgetOf (budget : Option (Budget × Budget)) : Frame H d (flushBudgetOf budget d) := by
  cases budget with
  | none => exact refl H d
  | some b => exact { refl H d with }

theorem addLedger {l : BillingLedger} (hl : ∀ key, l.idempotencyKey = some key →
    Resource.ledgerKey key ∈ H) : Frame H d (d.addLedger l) :=
  { refl H d with
    ledgerKey := fun key hkey hfree => by
      have hne : l.idempotencyKey ≠ some key := fun he => hkey (hl key he)
      simp only [Db.ledgerHasKey, Db.addLedger, List.any_append, List.any_cons, List.any_nil,
        Bool.or_false, Bool.or_eq_false_iff, decide_eq_false_iff_not] at hfree ⊢
      exact ⟨hfree, hne⟩
    ledgerKept := fun key htaken => by
      simp only [Db.ledgerHasKey, Db.addLedger, List.any_append, Bool.or_eq_true] at htaken ⊢
      exact .inl htaken }

theorem addTransaction {t : WalletTransaction} (ht : Resource.transaction t.id ∈ H) :
    Frame H d (d.addTransaction t) :=
  { refl H d with
    transaction := fun id hid hfree => by
      refine (RowTable.get?_insert_of_ne d.transactions ?_).trans hfree
      rintro rfl
      exact hid ht }

theorem addWallet {w : Wallet} (hw : Resource.wallet w.id ∈ H) : Frame H d (d.addWallet w) :=
  { refl H d with
    wallet := fun id hid => by
      refine RowTable.get?_insert_of_ne d.wallets ?_
      rintro rfl
      exact hid hw
    walletUser := fun id row hrow => ⟨row, RowTable.get?_insert_of_some hrow, rfl⟩ }

theorem addReservation {r : Reservation} (hr : Resource.reservation r.id ∈ H)
    (hkey : Resource.reservationKey r.idempotencyKey ∈ H) : Frame H d (d.addReservation r) :=
  { refl H d with
    reservation := fun id hid => by
      refine RowTable.get?_insert_of_ne d.reservations ?_
      rintro rfl
      exact hid hr
    reservationIdentity := fun id row hrow => ⟨row, RowTable.get?_insert_of_some hrow, rfl⟩
    reservationKey := fun key hid hfree => by
      unfold Db.reservationByKey at hfree ⊢
      rw [List.find?_eq_none] at hfree ⊢
      intro r' hr'
      rcases RowTable.mem_rows_insert hr' with hold | rfl
      · exact hfree r' hold
      · have hne : r'.idempotencyKey ≠ key := fun he => hid (he ▸ hkey)
        simpa using hne }

/-! ## The commits of the billing services -/

theorem reserveWrite {w : Wallet} {r : Reservation} {ctx : CallContext}
    (hw : Resource.wallet w.id ∈ H) (hr : Resource.reservation r.id ∈ H)
    (hkey : Resource.reservationKey r.idempotencyKey ∈ H)
    (hledger : Resource.ledgerKey (r.idempotencyKey ++ ":reservation") ∈ H) :
    Frame H d (reserveWrite none w r ctx d) := by
  refine ((flushWallet hw).trans (addReservation hr hkey)).trans (addLedger ?_)
  rintro _ ⟨⟩
  exact hledger

theorem settleWrite {r : Reservation} {w : Wallet} {budget : Option Budget}
    {req : SettleRequest} {ctx : CallContext} (hw : Resource.wallet w.id ∈ H)
    (hr : Resource.reservation r.id ∈ H)
    (hsettled : Resource.ledgerKey (r.idempotencyKey ++ ":settled") ∈ H)
    (hrelease : 0 < releaseAmount r (money req.actualAmount) →
      Resource.ledgerKey (r.idempotencyKey ++ ":release") ∈ H) :
    Frame H d (settleWrite r w budget req ctx d) := by
  unfold Zyntry.settleWrite
  dsimp only
  split_ifs with hpos
  · refine ((((flushWallet hw).trans (flushReservation hr)).trans (flushBudgetOf _)).trans
      (addLedger ?_)).trans (addLedger ?_)
    · rintro _ ⟨⟩
      exact hsettled
    · rintro _ ⟨⟩
      exact hrelease hpos
  · refine (((flushWallet hw).trans (flushReservation hr)).trans (flushBudgetOf _)).trans
      (addLedger ?_)
    rintro _ ⟨⟩
    exact hsettled

theorem releaseWrite {r : Reservation} {w : Wallet} {ctx : CallContext}
    (hw : Resource.wallet w.id ∈ H) (hr : Resource.reservation r.id ∈ H)
    (hledger : Resource.ledgerKey (r.idempotencyKey ++ ":release") ∈ H) :
    Frame H d (releaseWrite r w ctx d) := by
  refine ((flushWallet hw).trans (flushReservation hr)).trans (addLedger ?_)
  rintro _ ⟨⟩
  exact hledger

theorem creditWrite {w : Wallet} {t : WalletTransaction} {budget : Option (Budget × Budget)}
    {l : BillingLedger} (hw : Resource.wallet w.id ∈ H) (ht : Resource.transaction t.id ∈ H)
    (hl : ∀ key, l.idempotencyKey = some key → Resource.ledgerKey key ∈ H) :
    Frame H d (creditWrite w t budget l d) :=
  (((addTransaction ht).trans (flushWallet hw)).trans (flushBudgetOf budget)).trans (addLedger hl)

theorem debitWrite {w : Wallet} {t : WalletTransaction} {budget : Option (Budget × Budget)}
    (hw : Resource.wallet w.id ∈ H) (ht : Resource.transaction t.id ∈ H) :
    Frame H d (debitWrite w t budget d) :=
  ((addTransaction ht).trans (flushWallet hw)).trans (flushBudgetOf budget)

end Frame
end Zyntry
