import Zyntry.SessionSpecs

/-!
# Wallet balances under concurrency

Sessions add credit, deduct credit, or call `get_wallet` and then `reserve`, in
any interleaving. Each of them computes the new balance from the wallet object
that `get_wallet` has loaded without a lock. No update is lost in an interleaving
where that object still shows the committed balance when the row is locked.
-/

namespace Zyntry

open SqlProgram SqlProgram.Discipline

/-! ## Sessions -/

inductive WalletCall where
  | addCredit (ctx : CallContext) (req : CreditRequest)
  | deductCredit (ctx : CallContext) (req : CreditRequest)
  | reserve (ctx : CallContext) (req : ReserveRequest)

/-- `get_wallet` and then `reserve`, in a session that keeps the wallet. -/
def reserveAfterGetWallet (ctx : CallContext) (req : ReserveRequest) : Sql Reservation := do
  let wallet ← getWallet {} ctx req.userId
  reserve { wallets := [wallet] } ctx req

def runWalletCall : WalletCall → Sql Unit
  | .addCredit ctx req => (addCredit ctx req).ignore
  | .deductCredit ctx req => (deductCredit ctx req).ignore
  | .reserve ctx req => (reserveAfterGetWallet ctx req).ignore

/-! ## What was committed -/

/-- What a commit adds to the balance of a wallet. -/
def Commit.delta (id : Uuid) : Commit → ℤ
  | .credit walletId amount => if walletId = id then amount else 0
  | .refund walletId amount => if walletId = id then amount else 0
  | .debit walletId amount => if walletId = id then -amount else 0
  | .reserve walletId amount => if walletId = id then -amount else 0
  | .settle walletId change => if walletId = id then change else 0
  | .release walletId amount => if walletId = id then amount else 0
  | .newWallet _ => 0
  | .budget => 0
  | .ledger => 0
  | .usage => 0
  | .event => 0
  | .webhookEvent => 0
  | .rollback => 0

def Statement.delta (id : Uuid) : Statement → ℤ
  | .commit c => c.delta id
  | _ => 0

def committedDelta (id : Uuid) (log : List Statement) : ℤ := (log.map (Statement.delta id)).sum

theorem committedDelta_append (id : Uuid) (log : List Statement) (c : Commit) :
    committedDelta id (log ++ [.commit c]) = committedDelta id log + c.delta id := by
  simp [committedDelta, Statement.delta]

/-! ## The discipline -/

/-- When the statement locks a wallet, the session's object for the locked row
shows its committed balance. -/
def FreshBalance : Statement → Db → Prop
  | .lockWallet id held, d =>
      ∀ row ∈ d.wallets.get? id, (held.wallet row).balance = row.balance
  | .lockWalletOf userId held, d =>
      ∀ row ∈ d.walletByUser userId, (held.wallet row).balance = row.balance
  | _, _ => True

/-- Every balance is the one in `d₀` plus what was committed, and it is not negative. -/
def Conserved (d₀ d : Db) (log : List Statement) : Prop :=
  ∀ id, d.balanceOf id = d₀.balanceOf id + committedDelta id log ∧ 0 ≤ d.balanceOf id

def walletUpdates (d₀ : Db) : SqlDiscipline where
  inv := Conserved d₀
  guarantee H _ d d' := Frame H d d'
  own := FreshBalance
  compatible _ _ := True

theorem conserved_quiet {d₀ d d' : Db} {log : List Statement} {c : Commit}
    (h : Conserved d₀ d log) (hsame : ∀ id, d'.balanceOf id = d.balanceOf id)
    (hc : ∀ id, c.delta id = 0) : Conserved d₀ d' (log ++ [.commit c]) := by
  intro id
  rw [hsame, committedDelta_append, hc, add_zero]
  exact h id

theorem framed_walletUpdates (d₀ : Db) : Framed (walletUpdates d₀) :=
  ⟨fun _ _ _ _ h => h, fun H d _ h =>
    ⟨Frame.refl H d, conserved_quiet h (fun _ => rfl) fun _ => rfl⟩⟩

/-- The commit of a session whose wallet object shows the committed balance. -/
theorem conserved_flushWallet {d₀ d d' : Db} {log : List Statement} {w row : Wallet}
    (new : Wallet) {c : Commit} (h : Conserved d₀ d log) (hrow : d.wallets.get? w.id = some row)
    (hfresh : w.balance = row.balance)
    (hd' : d'.wallets.get? = (d.flushWallet w new).wallets.get?) (hnonneg : 0 ≤ new.balance)
    (hc : ∀ id, c.delta id = if w.id = id then new.balance - w.balance else 0) :
    Conserved d₀ d' (log ++ [.commit c]) := by
  intro id
  rw [committedDelta_append, hc]
  by_cases hid : w.id = id
  · subst hid
    have hnew : d'.balanceOf w.id = new.balance := by
      rw [Db.balanceOf, hd', Db.get?_flushWallet, if_pos rfl, hrow]
      simp [Wallet.flush, hfresh]
    have hold := (h w.id).1
    rw [balanceOf_eq hrow] at hold
    rw [hnew, if_pos rfl]
    exact ⟨by omega, hnonneg⟩
  · have hsame : d'.balanceOf id = d.balanceOf id := by
      rw [Db.balanceOf, hd', Db.get?_flushWallet, if_neg (fun he => hid he.symm), Db.balanceOf]
    rw [hsame, if_neg hid, add_zero]
    exact h id

/-! ## Locking the wallet -/

/-- The session owns the row of the wallet `w`, and `w` shows its balance. -/
structure Locked (d₀ : Db) (w : Wallet) (H : Set Resource) (Q : Db → Prop) : Prop where
  firm : (walletUpdates d₀).Firm H Q
  owned : .wallet w.id ∈ H
  fresh : ∀ d, Q d → ∃ row, d.wallets.get? w.id = some row ∧ w.balance = row.balance

theorem Locked.mono {d₀ : Db} {w : Wallet} {H H' : Set Resource} {Q : Db → Prop}
    (h : Locked d₀ w H Q) (hsub : H ⊆ H') : Locked d₀ w H' Q :=
  ⟨h.firm.mono_held hsub, hsub h.owned, h.fresh⟩

theorem sat_getForUpdate_locked {d₀ : Db} {α : Type} {H : Set Resource} {w : Wallet}
    {k : Wallet → Sql α} {post : α → Set Resource → (Db → Prop) → Prop}
    (h : ∀ H' Q, Locked d₀ w H' Q → (walletUpdates d₀).Sat (k w) H' Q post) :
    (walletUpdates d₀).Sat (getForUpdate w >>= k) H (fun _ => True) post := by
  have hΔ := framed_walletUpdates d₀
  refine sat_getForUpdate (firm_true _ H) fun d _ row _ hown _ hrow H' _ howned => ?_
  have hid : row.id = w.id := RowTable.get?_some_key hrow
  have hfresh : w.balance = row.balance := by
    have hheld := hown row hrow
    simpa [IdentityMap.wallet, hid] using hheld
  refine ⟨fun d => d.wallets.get? w.id = some row, hrow, h _ _ ?_⟩
  exact ⟨hΔ.firm_wallet howned (some row), howned, fun d hd => ⟨row, hd, hfresh⟩⟩

/-! ## The operations -/

theorem sat_getWallet_walletUpdates (d₀ : Db) (ctx : CallContext) (userId : Uuid)
    {post : Wallet → Set Resource → (Db → Prop) → Prop}
    (hpost : ∀ w H, post w H (fun _ => True)) :
    (walletUpdates d₀).Sat (getWallet {} ctx userId) ∅ (fun _ => True) post := by
  refine sat_getWallet (framed_walletUpdates d₀) (lasting_true _)
    (fun d _ w H _ _ _ => ⟨fun _ => True, trivial, hpost w H⟩) ?_
  intro d log H' hi _ howned hfree
  refine ⟨Frame.addWallet howned, conserved_quiet hi ?_ fun _ => rfl,
    ⟨fun _ => True, trivial, hpost _ ∅⟩⟩
  exact balanceOf_addWallet hfree rfl

theorem sat_creditWallet_walletUpdates (d₀ : Db) (ctx : CallContext) (req : CreditRequest)
    (hpos : 0 < req.amount) (w : Wallet) (H : Set Resource) :
    (walletUpdates d₀).Sat (creditWallet ctx req w) H (fun _ => True) (fun _ _ _ => True) := by
  refine sat_creditWallet (framed_walletUpdates d₀) (walletUpdates d₀).lasting_true
    (fun d _ _ _ _ _ _ _ => reaches_true d _ _) ?_
  intro d log H' row reopened hi _ hready
  obtain ⟨d₁, _, _, hown, hrow₁⟩ := hready.locked
  have hid : row.id = w.id := RowTable.get?_some_key hready.stored
  have hfresh : w.balance = row.balance := by
    have hheld := hown row hrow₁
    simpa [IdentityMap.wallet, hid] using hheld
  have hnonneg := (hi w.id).2
  rw [balanceOf_eq hready.stored] at hnonneg
  refine ⟨hready.frame, ?_, reaches_true _ _ _⟩
  refine conserved_flushWallet (w.afterCredit req.amount) hi hready.stored hfresh ?_ ?_ ?_
  · exact congrArg _ (wallets_flushBudgetOf _ _)
  · simp only [Wallet.afterCredit]
    omega
  · intro id
    simp [Commit.delta, Wallet.afterCredit]

/-- What the debit of an accepted call leaves behind, before its ledger row. -/
theorem debitWrite_walletUpdates {d₀ d : Db} {log : List Statement} {H : Set Resource}
    {w : Wallet} {Q : Db → Prop} (hlocked : Locked d₀ w H Q) (hi : Conserved d₀ d log) (hq : Q d)
    {t : WalletTransaction} (ht : .transaction t.id ∈ H) (hfunds : t.amount ≤ w.balance)
    (budget : Option (Budget × Budget)) :
    Frame H d (debitWrite w t budget d) ∧
      Conserved d₀ (debitWrite w t budget d) (log ++ [.commit (.debit w.id t.amount)]) := by
  obtain ⟨row, hrow, hfresh⟩ := hlocked.fresh d hq
  refine ⟨Frame.debitWrite hlocked.owned ht, ?_⟩
  refine conserved_flushWallet (w.afterDebit t.amount) hi hrow hfresh ?_ ?_ ?_
  · exact congrArg _ (wallets_flushBudgetOf _ _)
  · simp only [Wallet.afterDebit]
    omega
  · intro id
    simp [Commit.delta, Wallet.afterDebit]

theorem sat_debitWallet (d₀ : Db) (ctx : CallContext) (req : CreditRequest) (w : Wallet)
    (H : Set Resource) :
    (walletUpdates d₀).Sat (debitWallet ctx req w) H (fun _ => True) (fun _ _ _ => True) := by
  have hΔ := framed_walletUpdates d₀
  refine sat_bind _ _ _ _ _ _ (sat_existingTransaction (firm_true _ H) ?_ ?_)
  · exact fun d _ _ _ _ _ _ _ => ⟨fun _ => True, trivial, trivial⟩
  · dsimp only
    split_ifs with hactive
    · trivial
    · refine sat_getForUpdate_locked fun H₁ Q₁ hlocked => ?_
      split_ifs with hfunds
      · trivial
      have hdebit : (debitTransaction ctx req w).amount ≤ w.balance := not_lt.mp hfunds
      refine sat_insertTransaction hΔ hlocked.firm fun H₂ hsub₂ ht₂ hfirm₂ => ?_
      refine sat_bind _ _ _ _ _ _ (sat_updateBudgetSpend hfirm₂ ?_ ?_)
      · -- the debit is still pending when its ledger row is added
        intro budget H₃ hsub₃
        refine sat_flushLedger hΔ rfl (hfirm₂.mono_held hsub₃) fun H₄ hsub₄ hkey₄ hfirm₄ => ?_
        refine sat_write _ (hfirm₄ _) fun d log hi _ hq => ?_
        have hsub : H₂ ⊆ H₄ := hsub₃.trans hsub₄
        obtain ⟨hframe, hi'⟩ := debitWrite_walletUpdates (hlocked.mono (hsub₂.trans hsub)) hi
          hq.1.1 (hsub ht₂) hdebit budget
        refine ⟨hframe.trans (Frame.addLedger ?_), hi', fun _ => True, trivial, trivial⟩
        rintro _ ⟨⟩
        exact hkey₄
      · -- the notification has committed the debit, and only the ledger row is left
        intro budget H₃ d log hsub₃ hi hq
        obtain ⟨hframe, hi'⟩ := debitWrite_walletUpdates (hlocked.mono (hsub₂.trans hsub₃)) hi
          hq.1 (hsub₃ ht₂) hdebit budget
        refine ⟨hframe, hi', ?_⟩
        refine sat_flushLedger hΔ rfl (firm_true _ ∅) fun H₄ _ hkey₄ hfirm₄ => ?_
        refine sat_write _ (hfirm₄ _) fun d log hi _ _ => ?_
        refine ⟨Frame.addLedger ?_, conserved_quiet hi (fun _ => rfl) fun _ => rfl,
          fun _ => True, trivial, trivial⟩
        rintro _ ⟨⟩
        exact hkey₄

theorem sat_reserve_walletUpdates (d₀ : Db) (held : IdentityMap) (ctx : CallContext)
    (req : ReserveRequest) (H : Set Resource) :
    (walletUpdates d₀).Sat (reserve held ctx req) H (fun _ => True) (fun _ _ _ => True) := by
  have htrue := (walletUpdates d₀).lasting_true
  refine sat_reserve (K := ∅) (C := fun _ => True) (framed_walletUpdates d₀) htrue ?_
    (fun d _ _ _ _ _ _ _ => reaches_true d _ _) (fun d _ _ _ _ _ => reaches_true d _ _) ?_
  · intro H' _
    refine (sat_check (htrue.firm H') _).mono ?_
    rintro _ H'' _ ⟨_, rfl⟩
    exact ⟨Set.empty_subset _, htrue.firm H'', fun _ _ => ⟨trivial, trivial⟩⟩
  · intro d log H' row hi _ _ _ hready
    refine ⟨hready.frame, ?_, reaches_true _ _ _⟩
    obtain ⟨d₁, _, _, hown, hrow₁⟩ := hready.locked
    have hid : (held.wallet row).id = row.id := held.wallet_id row
    have hrow : d.wallets.get? (held.wallet row).id = some row := hid ▸ hready.wallet
    have hfunds := hready.funds
    refine conserved_flushWallet ((held.wallet row).afterReserve (money req.amount)) hi hrow
      (hown row hrow₁) rfl ?_ ?_
    · simp only [Wallet.afterReserve]
      omega
    · intro id
      simp [Commit.delta, Wallet.afterReserve, hid]

theorem sat_walletUpdates (d₀ : Db) (c : WalletCall) :
    (walletUpdates d₀).Sat (runWalletCall c) ∅ (fun _ => True) (fun _ _ _ => True) := by
  cases c with
  | addCredit ctx req =>
      refine sat_bind _ _ _ _ _ _ ?_
      unfold addCredit
      split_ifs with hpos
      · trivial
      refine sat_bind _ _ _ _ _ _ (sat_getWallet_walletUpdates d₀ ctx req.userId fun w H => ?_)
      exact sat_creditWallet_walletUpdates d₀ ctx req (not_le.mp hpos) w H
  | deductCredit ctx req =>
      refine sat_bind _ _ _ _ _ _ ?_
      unfold deductCredit
      split_ifs with hpos
      · trivial
      refine sat_bind _ _ _ _ _ _ (sat_getWallet_walletUpdates d₀ ctx req.userId fun w H => ?_)
      exact sat_debitWallet d₀ ctx req w H
  | reserve ctx req =>
      refine sat_bind _ _ _ _ _ _ ?_
      refine sat_bind _ _ _ _ _ _ (sat_getWallet_walletUpdates d₀ ctx req.userId fun w H => ?_)
      exact sat_reserve_walletUpdates d₀ { wallets := [w] } ctx req H

/-! ## Interleavings -/

abbrev WalletWorld (S : Type) := World S Db Resource Statement Error Unit

/-- If session `s` is about to lock a wallet, its object shows the committed balance. -/
def LocksFreshBalance {S : Type} (w : WalletWorld S) (s : S) : Prop :=
  ∀ m ∈ (w.session s).head, FreshBalance m w.db

theorem balance_conserved_of_locksFreshBalance {S : Type} [DecidableEq S] {db : Db}
    {calls : S → WalletCall} (hdb : ∀ id, 0 ≤ db.balanceOf id) {w : WalletWorld S}
    (hrun : World.Run LocksFreshBalance (World.start db (fun s => runWalletCall (calls s))) w)
    (id : Uuid) :
    w.db.balanceOf id = db.balanceOf id + committedDelta id w.log ∧ 0 ≤ w.db.balanceOf id := by
  have hstart : Conserved db db [] := fun id => ⟨by simp [committedDelta], hdb id⟩
  have hobeyed := Obeyed.run (Δ := walletUpdates db) hrun ?_
    (obeyed_start _ hstart fun s => sat_walletUpdates db (calls s))
  · exact hobeyed.1 id
  · exact fun w s hfresh => ⟨fun m hm => hfresh m hm, fun _ _ _ _ _ _ _ _ => trivial⟩

/-! ## Two credits -/

instance (m : Statement) (d : Db) : Decidable (FreshBalance m d) := by
  unfold FreshBalance
  split <;> infer_instance

instance {S : Type} (w : WalletWorld S) (s : S) : Decidable (LocksFreshBalance w s) :=
  inferInstanceAs (Decidable (∀ m ∈ (w.session s).head, FreshBalance m w.db))

def fundedDb : Db where
  wallets := RowTable.single { id := ⟨"w"⟩, userId := ⟨"u"⟩, balance := 1000000 }

theorem balanceOf_fundedDb (id : Uuid) : 0 ≤ fundedDb.balanceOf id := by
  unfold Db.balanceOf
  cases h : fundedDb.wallets.get? id with
  | none => exact le_rfl
  | some row =>
      have hrow : row ∈ fundedDb.wallets.rows := RowTable.get?_some_mem h
      simp only [fundedDb, RowTable.single, List.mem_singleton] at hrow
      simp [hrow]

/-- Both sessions add 5.0000 to the same wallet. -/
def twoCredits : Bool → WalletCall
  | true => .addCredit ⟨1, ⟨"t"⟩, ⟨"x"⟩⟩ { userId := ⟨"u"⟩, amount := 50000, reason := "a" }
  | false => .addCredit ⟨1, ⟨"t'"⟩, ⟨"x"⟩⟩ { userId := ⟨"u"⟩, amount := 50000, reason := "b" }

def twoCreditsWorld : WalletWorld Bool :=
  World.start fundedDb (fun s => runWalletCall (twoCredits s))

theorem balance_conserved_of_locksFreshBalance_twoCredits :
    let w := twoCreditsWorld.play (List.replicate 7 true ++ List.replicate 7 false)
    w.db.balanceOf ⟨"w"⟩ = fundedDb.balanceOf ⟨"w"⟩ + committedDelta ⟨"w"⟩ w.log ∧
      0 ≤ w.db.balanceOf ⟨"w"⟩ := by
  have hok : World.Follows LocksFreshBalance (List.replicate 7 true ++ List.replicate 7 false)
      twoCreditsWorld := by decide +kernel
  exact balance_conserved_of_locksFreshBalance balanceOf_fundedDb (World.Run.start.play hok) _

/-- Both sessions run `get_wallet` before either of them locks the wallet, and the
second commit overwrites the balance that the first one has written. -/
theorem balance_lost_at_twoCredits :
    ¬ ∀ (db : Db) (calls : Bool → WalletCall) (w : WalletWorld Bool) (id : Uuid),
      (∀ id, 0 ≤ db.balanceOf id) →
      World.Reachable (World.start db (fun s => runWalletCall (calls s))) w →
      w.db.balanceOf id = db.balanceOf id + committedDelta id w.log ∧ 0 ≤ w.db.balanceOf id := by
  intro h
  have hlost := (h fundedDb twoCredits _ ⟨"w"⟩ balanceOf_fundedDb
    (twoCreditsWorld.play_reachable
      (true :: false :: List.replicate 6 true ++ List.replicate 6 false))).1
  exact absurd hlost (by decide +kernel)

end Zyntry
