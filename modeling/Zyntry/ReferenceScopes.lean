import Zyntry.StepRuns
import Zyntry.WalletConservation

/-!
# Whom a reference belongs to

Credits and deductions look for a transaction with their reference before they move money, and
return it if it is the only one. They look for the reference alone: what is found may have been
stored for another user, or by the other operation, or by a refund.
-/

namespace Zyntry

open SqlProgram

/-! ## What is returned -/

/-- The transaction is of this type and lies in the user's wallet. -/
def Db.OwnTransaction (d : Db) (userId : Uuid) (type : TransactionType) (t : WalletTransaction) :
    Prop :=
  t.type = type ∧ (d.walletByUser userId).map Wallet.id = some t.walletId

instance (d : Db) (userId : Uuid) (type : TransactionType) (t : WalletTransaction) :
    Decidable (d.OwnTransaction userId type t) :=
  inferInstanceAs (Decidable (t.type = type ∧
    (d.walletByUser userId).map Wallet.id = some t.walletId))

def Db.balanceFor (d : Db) (userId : Uuid) : ℤ :=
  ((d.walletByUser userId).map Wallet.balance).getD 0

/-- A call leads from `d` to `d'` and returns `t`, for its own user and of its own type. Only a
call that repeats calls of the same user and type leaves the money where it is. -/
structure ScopedReturn (type : TransactionType) (change : ℤ) (req : CreditRequest) (d d' : Db)
    (t : WalletTransaction) : Prop where
  own : d'.OwnTransaction req.userId type t
  moved : d'.balanceFor req.userId = d.balanceFor req.userId + change ∨
    d.storedUnder req.referenceId ≠ [] ∧
      ∀ t' ∈ d.storedUnder req.referenceId, d'.OwnTransaction req.userId type t'

/-- What is returned by an operation that begins in `d` is in its scope. -/
def ReturnsScoped (d : Db) : WalletOperation → Prop
  | .addCredit ctx req => ∀ t d', (addCredit ctx req).exec d = (.ok t, d') →
      ScopedReturn .credit req.amount req d d' t
  | .deductCredit ctx req => ∀ t d', (deductCredit ctx req).exec d = (.ok t, d') →
      ScopedReturn .debit (-req.amount) req d d' t
  | .refundTransaction _ _ _ _ => True
  | .metered _ => True

/-! ## What is looked up -/

/-- The only transaction under the reference of the call, if there is only one, is of the type of
the call and lies in the wallet that it opens. -/
def Db.FindsOwn (d : Db) (type : TransactionType) (ctx : CallContext) (req : CreditRequest) :
    Prop :=
  0 < req.amount → d.OpensWallet ctx req.userId →
    ∀ t, d.storedUnder req.referenceId = [t] →
      (d.openWallet ctx req.userId).OwnTransaction req.userId type t

def LooksUpOwn (d : Db) : WalletOperation → Prop
  | .addCredit ctx req => d.FindsOwn .credit ctx req
  | .deductCredit ctx req => d.FindsOwn .debit ctx req
  | .refundTransaction _ _ _ _ => True
  | .metered _ => True

section

variable {d : Db} {ctx : CallContext} {userId : Uuid}

theorem storedUnder_openWallet (d : Db) (ctx : CallContext) (userId : Uuid)
    (referenceId : Option String) :
    (d.openWallet ctx userId).storedUnder referenceId = d.storedUnder referenceId := by
  unfold Db.openWallet
  split <;> rfl

/-- A wallet that is opened is empty, as one that is not there. -/
theorem balanceFor_openWallet (h : d.OpensWallet ctx userId) :
    (d.openWallet ctx userId).balanceFor userId = d.balanceFor userId := by
  unfold Db.openWallet
  cases hw : d.walletByUser userId with
  | some w => rfl
  | none =>
      have hnew := walletByUser_addWallet (w := firstWallet ctx userId) (h hw) hw
      simp only [Db.balanceFor, hw]
      rw [show (firstWallet ctx userId).userId = userId from rfl] at hnew
      rw [hnew]
      rfl

theorem exec_getWallet (h : d.OpensWallet ctx userId) :
    ∃ w, (getWallet {} ctx userId).exec d = (.ok w, d.openWallet ctx userId) := by
  unfold getWallet Db.openWallet
  rw [exec_bind]
  cases hw : d.walletByUser userId with
  | some w => exact ⟨w, by simp [query, exec, hw, IdentityMap.wallet]⟩
  | none =>
      have hfree : walletExists (firstWallet ctx userId).id userId d = false := by
        simp [walletExists, firstWallet, h hw, hw]
      refine ⟨firstWallet ctx userId, ?_⟩
      simp [query, exec, hw, insertUnique, locking, hfree, catching]
      rfl

/-- A reference that has been used once ends the call with the transaction. -/
theorem exec_of_storedUnder {referenceId : Option String} {t : WalletTransaction}
    {p rest : Wallet → Sql WalletTransaction}
    (hp : ∀ w, p w = (existingTransaction referenceId >>= fun existing =>
      match existing with
      | some t => pure t
      | none => rest w))
    (hopens : d.OpensWallet ctx userId) (hstored : d.storedUnder referenceId = [t]) :
    (getWallet {} ctx userId >>= p).exec d = (.ok t, d.openWallet ctx userId) := by
  obtain ⟨w, hw⟩ := exec_getWallet hopens
  rw [exec_bind, hw]
  dsimp only
  rw [hp, exec_bind]
  rw [← storedUnder_openWallet d ctx userId] at hstored
  unfold existingTransaction
  unfold Db.storedUnder at hstored
  cases htruthy : truthy referenceId with
  | none => simp [htruthy] at hstored
  | some reference =>
      rw [htruthy, Option.elim_some] at hstored
      simp [getByReference, query, exec, hstored]

/-! ## One call -/

theorem walletByUser_flushWallet {w new : Wallet} (hw : d.walletByUser userId = some w)
    (hflush : Wallet.flush w new w = new) :
    (d.flushWallet w new).walletByUser userId = some new := by
  have hrows : (d.flushWallet w new).wallets.rows =
      d.wallets.rows.map fun r => if r.id = w.id then Wallet.flush w new r else r := rfl
  have hsame : ∀ r, (if r.id = w.id then Wallet.flush w new r else r).userId = r.userId := by
    intro r
    split_ifs <;> rfl
  unfold Db.walletByUser at hw ⊢
  rw [hrows, List.find?_map]
  simp only [Function.comp_def, hsame]
  rw [hw, Option.map_some, if_pos rfl, hflush]

variable {type : TransactionType} {change : ℤ} {req : CreditRequest} {t : WalletTransaction}

/-- The transaction that is found is returned. -/
theorem scopedReturn_of_stored (hfinds : d.FindsOwn type ctx req) (hpos : 0 < req.amount)
    (hopens : d.OpensWallet ctx req.userId)
    (hstored : (d.openWallet ctx req.userId).storedUnder req.referenceId = [t]) :
    ScopedReturn type change req d (d.openWallet ctx req.userId) t := by
  rw [storedUnder_openWallet] at hstored
  have hown := hfinds hpos hopens t hstored
  refine ⟨hown, .inr ⟨by simp [hstored], ?_⟩⟩
  intro t' ht'
  rw [hstored] at ht'
  rwa [List.mem_singleton.mp ht']

/-- A transaction of the wallet is returned, and the balance of the wallet is changed. -/
theorem scopedReturn_of_flushed {d' : Db} {w : Wallet} (hopens : d.OpensWallet ctx req.userId)
    (hw : (d.openWallet ctx req.userId).walletByUser req.userId = some w) (new : Wallet)
    (hflush : Wallet.flush w new w = new)
    (hwallets : d'.wallets = ((d.openWallet ctx req.userId).flushWallet w new).wallets)
    (hid : new.id = t.walletId) (htype : t.type = type) (hchange : new.balance = w.balance + change) :
    ScopedReturn type change req d d' t := by
  have hnew : d'.walletByUser req.userId = some new := by
    rw [Db.walletByUser, hwallets]
    exact walletByUser_flushWallet hw hflush
  refine ⟨⟨htype, by rw [hnew, Option.map_some, hid]⟩, .inl ?_⟩
  rw [← balanceFor_openWallet hopens, Db.balanceFor, Db.balanceFor, hnew, hw, Option.map_some,
    Option.map_some, Option.getD_some, Option.getD_some, hchange]

/-- A call that opens a wallet and looks up its reference is scoped exactly if it finds its own
transaction, provided that its other ways to return are. -/
theorem scoped_iff {p rest : Wallet → Sql WalletTransaction} {message : String}
    (hp : ∀ w, p w = (existingTransaction req.referenceId >>= fun existing =>
      match existing with
      | some t => pure t
      | none => rest w))
    (hkeeps : ∀ w, 0 < req.amount → d.OpensWallet ctx req.userId →
      (d.openWallet ctx req.userId).walletByUser req.userId = some w →
      (∀ t, (d.openWallet ctx req.userId).storedUnder req.referenceId = [t] →
        ScopedReturn type change req d (d.openWallet ctx req.userId) t) →
      (p w).Keeps (fun _ => True) (d.openWallet ctx req.userId) fun t d' =>
        ScopedReturn type change req d d' t) :
    (∀ t d', (if req.amount ≤ 0 then SqlProgram.raise (Error.valueError message)
        else getWallet {} ctx req.userId >>= p : Sql WalletTransaction).exec d = (.ok t, d') →
      ScopedReturn type change req d d' t) ↔ d.FindsOwn type ctx req := by
  constructor
  · intro h hpos hopens t hstored
    rw [if_neg (by omega)] at h
    exact (h t _ (exec_of_storedUnder hp hopens hstored)).own
  · intro hfinds t d' hexec
    split_ifs at hexec with hpos
    · cases hexec
    · rw [not_le] at hpos
      have hreturned : (getWallet {} ctx req.userId >>= p).Keeps (fun _ => True) d fun t d' =>
          ScopedReturn type change req d d' t := by
        apply keeps_afterWallet trivial fun _ _ => trivial
        intro w hopens _ hw
        apply hkeeps w hpos hopens hw
        intro t hstored
        exact scopedReturn_of_stored hfinds hpos hopens hstored
      exact hreturned.exec hexec

theorem addCredit_scoped_iff :
    (∀ t d', (addCredit ctx req).exec d = (.ok t, d') →
      ScopedReturn .credit req.amount req d d' t) ↔ d.FindsOwn .credit ctx req := by
  refine scoped_iff (fun _ => rfl) ?_
  intro w hpos hopens hw hold
  apply keeps_creditWallet hpos hw hold
  intro _
  refine ⟨trivial, scopedReturn_of_flushed hopens hw (w.afterCredit req.amount)
    (Wallet.flush_row _ _ rfl rfl rfl rfl) ?_ rfl rfl rfl⟩
  exact wallets_flushBudgetOf _ _

theorem deductCredit_scoped_iff :
    (∀ t d', (deductCredit ctx req).exec d = (.ok t, d') →
      ScopedReturn .debit (-req.amount) req d d' t) ↔ d.FindsOwn .debit ctx req := by
  refine scoped_iff (fun _ => rfl) ?_
  intro w hpos hopens hw hold
  apply keeps_debitWallet hpos hw hold
  intro _
  refine ⟨trivial, trivial, scopedReturn_of_flushed hopens hw (w.afterDebit req.amount)
    (Wallet.flush_row _ _ rfl rfl rfl rfl) ?_ rfl rfl (sub_eq_add_neg _ _)⟩
  exact wallets_flushBudgetOf _ _

theorem returnsScoped_iff (d : Db) (o : WalletOperation) : ReturnsScoped d o ↔ LooksUpOwn d o := by
  cases o with
  | addCredit ctx req => exact addCredit_scoped_iff
  | deductCredit ctx req => exact deductCredit_scoped_iff
  | refundTransaction ctx user id reason => exact Iff.rfl
  | metered o => exact Iff.rfl

end

/-! ## Histories -/

/-- An operation of a history, which is cut off after some of its commits or runs to its end. -/
structure HistoryStep where
  operation : WalletOperation
  cutAfter : Option ℕ := none

namespace HistoryStep

def play (d : Db) (s : HistoryStep) : Db :=
  match s.cutAfter with
  | some n => (d :: (runWallet s.operation).commits d).getD n d
  | none => ((runWallet s.operation).exec d).2

/-- If the step returns a transaction, it is one of its own. -/
def Scoped (d : Db) (s : HistoryStep) : Prop := s.cutAfter = none → ReturnsScoped d s.operation

def FindsOwn (d : Db) (s : HistoryStep) : Prop := s.cutAfter = none → LooksUpOwn d s.operation

/-- All that a history returns is in its scope exactly if no call of it finds a transaction of
another user or of another type alone under its reference. -/
theorem history_scoped_iff (d : Db) (steps : List HistoryStep) :
    StepRuns.Along play Scoped d steps ↔ StepRuns.Along play FindsOwn d steps := by
  apply StepRuns.along_congr (I := fun _ => True)
  · intro d s _
    exact imp_congr_right fun _ => returnsScoped_iff d s.operation
  · exact fun _ _ _ _ => trivial
  · trivial

/-- A call with the reference "r". -/
def referenced (user : String) (amount : ℤ) : CreditRequest where
  userId := ⟨user⟩
  amount := amount
  reason := "top-up"
  referenceId := some "r"

/-- Two users are credited under the same reference. -/
def sharedReference : List HistoryStep :=
  [{ operation := .addCredit ⟨1, ⟨"t1"⟩, ⟨"w1"⟩⟩ (referenced "u" 50000) },
    { operation := .addCredit ⟨2, ⟨"t2"⟩, ⟨"w2"⟩⟩ (referenced "v" 70000) }]

/-- What the first of them is credited with. -/
def firstTransaction : WalletTransaction where
  id := ⟨"t1"⟩
  walletId := ⟨"w1"⟩
  type := .credit
  amount := 50000
  balanceBefore := 0
  balanceAfter := 50000
  reason := "top-up"
  referenceId := some "r"

/-- The second user is handed the transaction of the first one. -/
theorem sharedReference_not_scoped : ¬ StepRuns.Along play Scoped {} sharedReference := by
  rintro ⟨-, hscoped, -⟩
  have hreturned := exec_of_toOption (a := firstTransaction)
    (p := addCredit ⟨2, ⟨"t2"⟩, ⟨"w2"⟩⟩ (referenced "v" 70000))
    (d := ((addCredit ⟨1, ⟨"t1"⟩, ⟨"w1"⟩⟩ (referenced "u" 50000)).exec {}).2) (by decide +kernel)
  have hown := (hscoped rfl _ _ hreturned).own
  exact absurd hown (by decide +kernel)

/-- A user who is credited under a reference is not debited under it. -/
example :
    ((deductCredit ⟨2, ⟨"t2"⟩, ⟨"w2"⟩⟩ (referenced "u" 20000)).exec
      ((addCredit ⟨1, ⟨"t1"⟩, ⟨"w1"⟩⟩ (referenced "u" 50000)).exec {}).2).1.toOption =
        some firstTransaction := by
  decide +kernel

end HistoryStep

end Zyntry
