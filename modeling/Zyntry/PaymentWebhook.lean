import Zyntry.EndpointBilling
import Zyntry.SessionSpecs

/-!
# The payment webhook

A delivery looks for its event among the processed ones, tops up the wallet, and
records the event in a transaction of its own. Deliveries that meet, or come again
after a crash in between, are stopped by the ledger key of the top-up, so the wallet
is credited once, and every delivery that succeeds has seen that credit.
-/

namespace Zyntry

open SqlProgram SqlProgram.Discipline

/-! ## The handler -/

/-- The metadata of an event after `uuid.UUID` and `Decimal`; `none` is what these reject. -/
structure TopupMetadata where
  userId : Option Uuid
  amount : Option Decimal
deriving DecidableEq

structure PaymentEvent where
  id : String
  type : String
  /-- `none` if the user or the amount is missing. -/
  metadata : Option TopupMetadata
deriving DecidableEq

/-- One delivery: what the checks of the request raise before the database is asked,
and what publishing the new balance raises. -/
structure Delivery where
  ctx : CallContext
  event : PaymentEvent
  rejected : Option Error := none
  published : Option Error := none

structure WebhookResponse where
  received : Bool := true
  deduplicated : Bool := false
deriving DecidableEq, Repr

/-- `add_credit` of an amount that the columns round to quanta. -/
def addCreditDecimal (ctx : CallContext) (userId : Uuid) (amount : Decimal) (reason : String)
    (referenceId : Option String) : Sql WalletTransaction :=
  if amount ≤ 0 then .raise (.valueError "Credit amount must be positive")
  else do
    let wallet ← getWallet {} ctx userId
    creditWallet ctx { userId, amount := numeric amount, reason, referenceId } wallet

theorem addCreditDecimal_toDecimal (ctx : CallContext) (req : CreditRequest) :
    addCreditDecimal ctx req.userId (toDecimal req.amount) req.reason req.referenceId =
      addCredit ctx req := by
  have hsign : toDecimal req.amount ≤ 0 ↔ req.amount ≤ 0 := by
    simpa [toDecimal] using toDecimal_le (m := req.amount) (n := 0)
  simp only [addCreditDecimal, addCredit, hsign, numeric_toDecimal]

/-- What the event asks `add_credit` for, in quanta. -/
def PaymentEvent.creditRequest (e : PaymentEvent) (userId : Uuid) (amount : Decimal) :
    CreditRequest where
  userId := userId
  amount := numeric amount
  reason := "Wallet top-up"
  referenceId := some e.id

/-- The branch for `collection.succeeded`. -/
def Delivery.topUp (c : Delivery) : Sql Unit :=
  if c.event.type = "collection.succeeded" then
    match c.event.metadata with
    | none => .raise (.httpException 400 "Missing metadata in Bachs event")
    | some m =>
        match m.userId with
        | none => .raise (.valueError "badly formed hexadecimal UUID string")
        | some userId => do
            let _ ← addCreditDecimal c.ctx userId (m.amount.getD 0) "Wallet top-up"
              (some c.event.id)
            let _ ← getWallet {} c.ctx userId
            stage c.published
  else pure ()

def Delivery.processed (c : Delivery) : ProcessedWebhookEvent where
  eventId := c.event.id
  source := "bachs"
  eventType := c.event.type
  status := "processed"
  receivedAt := c.ctx.now

/-- `bachs_webhook`. -/
def bachsWebhook (c : Delivery) : Sql WebhookResponse := do
  stage c.rejected
  let existing ← query .select (fun d => d.webhookEvents.get? c.event.id)
  match existing with
  | some _ => pure { deduplicated := true }
  | none => do
      c.topUp
      insertUnique [.webhookEvent c.event.id] (fun d => (d.webhookEvents.get? c.event.id).isSome)
      write (.commit .webhookEvent) (fun d => d.addWebhookEvent c.processed)
      pure {}

/-! ## Credited or not -/

/-- Nothing refers to the event, and the wallets hold what they held in `d₀`. -/
structure Uncredited (d₀ : Db) (e : PaymentEvent) (d : Db) : Prop where
  unreferenced : d.transactionsByReference e.id = []
  balances : ∀ id, d.balanceOf id = d₀.balanceOf id

/-- One transaction refers to the event: the amount of the event came into the wallet
of its user, and nothing else has happened to the wallets since `d₀`. -/
def CreditedOnce (d₀ : Db) (e : PaymentEvent) (d : Db) : Prop :=
  ∃ m ∈ e.metadata, ∃ userId ∈ m.userId, ∃ amount ∈ m.amount, 0 < amount ∧
    ∃ t w, d.transactionsByReference e.id = [t] ∧ t.amount = numeric amount ∧
      d.wallets.get? t.walletId = some w ∧ w.userId = userId ∧
      ∀ id, d.balanceOf id = d₀.balanceOf id + if id = t.walletId then numeric amount else 0

def PaymentEvent.topupKey (e : PaymentEvent) : String := "topup:" ++ e.id

/-- A state in which the event has not been delivered yet. -/
structure Undelivered (e : PaymentEvent) (d : Db) : Prop where
  unreferenced : d.transactionsByReference e.id = []
  keyFree : d.ledgerHasKey e.topupKey = false
  unprocessed : d.webhookEvents.get? e.id = none

structure WebhookInvariant (d₀ : Db) (e : PaymentEvent) (d : Db) : Prop where
  uncredited : d.ledgerHasKey e.topupKey = false → Uncredited d₀ e d
  credited : d.ledgerHasKey e.topupKey = true → CreditedOnce d₀ e d
  processed : (d.webhookEvents.get? e.id).isSome → d.ledgerHasKey e.topupKey = true

def deliveries (d₀ : Db) (e : PaymentEvent) : SqlDiscipline where
  inv d _ := WebhookInvariant d₀ e d
  guarantee H _ d d' := Frame H d d' ∧ (d'.ledgerHasKey e.topupKey = false →
    ∀ id row, d.wallets.get? id = some row → d'.wallets.get? id = some row)
  own _ _ := True
  compatible _ _ := True

theorem framed_deliveries (d₀ : Db) (e : PaymentEvent) : Framed (deliveries d₀ e) :=
  ⟨fun _ _ _ _ h => h.1, fun H d _ h => ⟨⟨Frame.refl H d, fun _ _ _ h => h⟩, h⟩⟩

section

variable {d₀ : Db} {e : PaymentEvent}

theorem lasting_credited :
    (deliveries d₀ e).Lasting (fun d => d.ledgerHasKey e.topupKey = true) :=
  fun _ _ _ _ _ _ hg hq => hg.1.ledgerKept _ hq

/-- The wallet that a session holds shows its row, unless the event has been credited. -/
def Loaded (e : PaymentEvent) (userId : Uuid) (w : Wallet) (d : Db) : Prop :=
  d.ledgerHasKey e.topupKey = false → d.wallets.get? w.id = some w ∧ w.userId = userId

theorem lasting_loaded (userId : Uuid) (w : Wallet) :
    (deliveries d₀ e).Lasting (Loaded e userId w) := by
  intro d d' _ _ _ _ hg hq hfree
  have hbefore : d.ledgerHasKey e.topupKey = false := by
    cases hkey : d.ledgerHasKey e.topupKey with
    | false => rfl
    | true => exact absurd (hg.1.ledgerKept _ hkey) (by simp [hfree])
  obtain ⟨hrow, huser⟩ := hq hbefore
  exact ⟨hg.2 hfree _ _ hrow, huser⟩

/-! ## The commits -/

theorem webhookInvariant_addWallet {d : Db} {w : Wallet} (h : WebhookInvariant d₀ e d)
    (hfree : d.wallets.get? w.id = none) (hempty : w.balance = 0) :
    WebhookInvariant d₀ e (d.addWallet w) := by
  refine ⟨fun hkey => ?_, fun hkey => ?_, h.processed⟩
  · obtain ⟨hnone, hbalances⟩ := h.uncredited hkey
    exact ⟨hnone, fun id => (balanceOf_addWallet hfree hempty id).trans (hbalances id)⟩
  · obtain ⟨m, hm, userId, hu, amount, ha, hpos, t, row, ht, hamount, hrow, huser, hbalances⟩ :=
      h.credited hkey
    exact ⟨m, hm, userId, hu, amount, ha, hpos, t, row, ht, hamount,
      RowTable.get?_insert_of_some hrow, huser,
      fun id => (balanceOf_addWallet hfree hempty id).trans (hbalances id)⟩

theorem transactionsByReference_creditWrite {d : Db} {w : Wallet} {t : WalletTransaction}
    {budget : Option (Budget × Budget)} {l : BillingLedger} {r : String}
    (hfree : d.transactions.get? t.id = none) (hr : t.referenceId = some r) :
    (creditWrite w t budget l d).transactionsByReference r = d.transactionsByReference r ++ [t] := by
  have hrows : (creditWrite w t budget l d).transactions.rows = d.transactions.rows ++ [t] := by
    have hinsert : (d.transactions.insert t).rows = d.transactions.rows ++ [t] := by
      simp only [RowTable.insert, dif_neg (RowTable.get?_none_notMem hfree)]
    cases budget <;> exact hinsert
  simp [Db.transactionsByReference, hrows, hr]

/-- The credit of the event, from a session whose wallet object shows its row. -/
theorem creditedOnce_creditWrite {d : Db} {w : Wallet} {ctx : CallContext} {m : TopupMetadata}
    {userId : Uuid} {amount : Decimal} (reopened : Option (Budget × Budget)) (l : BillingLedger)
    (hnone : Uncredited d₀ e d) (hrow : d.wallets.get? w.id = some w) (huser : w.userId = userId)
    (hfree : d.transactions.get? ctx.newId = none) (hm : m ∈ e.metadata) (hu : userId ∈ m.userId)
    (ha : amount ∈ m.amount) (hpos : 0 < amount) :
    CreditedOnce d₀ e (creditWrite w (creditTransaction ctx (e.creditRequest userId amount) w)
      reopened l d) := by
  set t := creditTransaction ctx (e.creditRequest userId amount) w
  have hwallets : (creditWrite w t reopened l d).wallets =
      (d.flushWallet w (w.afterCredit t.amount)).wallets :=
    wallets_flushBudgetOf reopened _
  have hnew : (creditWrite w t reopened l d).wallets.get? w.id =
      some (Wallet.flush w (w.afterCredit t.amount) w) := by
    rw [hwallets, Db.get?_flushWallet, if_pos rfl, hrow]
    rfl
  refine ⟨m, hm, userId, hu, amount, ha, hpos, t, _, ?_, rfl, hnew, huser, fun id => ?_⟩
  · rw [transactionsByReference_creditWrite hfree rfl, hnone.unreferenced]
    rfl
  · rw [← hnone.balances id]
    by_cases hid : id = w.id
    · subst hid
      have hafter : (Wallet.flush w (w.afterCredit t.amount) w).balance =
          w.balance + numeric amount := by
        simp only [Wallet.flush, Wallet.afterCredit, changed_row]
        rfl
      rw [balanceOf_eq hnew, balanceOf_eq hrow, hafter]
      simp [creditTransaction, t]
    · have hwallet : id ≠ t.walletId := hid
      rw [if_neg hwallet, add_zero, Db.balanceOf, hwallets, Db.get?_flushWallet, if_neg hid, Db.balanceOf]

/-! ## The handler among other deliveries -/

theorem sat_getWallet_deliveries (ctx : CallContext) (userId : Uuid) {H : Set Resource}
    {Q : Db → Prop} {post : Wallet → Set Resource → (Db → Prop) → Prop}
    (hQ : (deliveries d₀ e).Lasting Q)
    (hpost : ∀ d w H', Q d → Loaded e userId w d → Reaches post d w H') :
    (deliveries d₀ e).Sat (getWallet {} ctx userId) H Q post := by
  refine sat_getWallet (framed_deliveries d₀ e) hQ ?_ ?_
  · intro d _ w H' _ hq hw
    exact hpost d w H' hq fun _ => walletByUser_get? hw
  · intro d log H' hi hq howned hfree
    have hg : (deliveries d₀ e).guarantee H' (.commit (.newWallet ctx.newWalletId)) d
        (d.addWallet (firstWallet ctx userId)) :=
      ⟨Frame.addWallet howned, fun _ _ _ hrow => RowTable.get?_insert_of_some hrow⟩
    refine ⟨hg, webhookInvariant_addWallet hi hfree rfl, hpost _ _ ∅ ?_ fun _ => ?_⟩
    · exact hQ _ _ log _ _ hi hg hq
    · exact ⟨RowTable.get?_insert_self hfree, rfl⟩

theorem truthy_id (hid : e.id ≠ "") : truthy (some e.id) = some e.id := by
  simp [truthy, hid]

theorem ledgerReference_topup (hid : e.id ≠ "") (t : WalletTransaction) :
    ledgerReference "topup" (some e.id) t = e.topupKey := by
  simp only [ledgerReference, truthy_id hid, Option.getD_some, PaymentEvent.topupKey]
  rfl

/-- Once `add_credit` has returned, the event is credited, by this session or another. -/
theorem sat_addCredit_deliveries (hid : e.id ≠ "") (ctx : CallContext) {m : TopupMetadata}
    {userId : Uuid} (hm : m ∈ e.metadata) (hu : userId ∈ m.userId) (H : Set Resource) :
    (deliveries d₀ e).Sat (addCreditDecimal ctx userId (m.amount.getD 0) "Wallet top-up"
      (some e.id)) H (fun _ => True)
      (fun _ _ Q => Q = fun d => d.ledgerHasKey e.topupKey = true) := by
  unfold addCreditDecimal
  split_ifs with hpos
  · trivial
  have hamount : ∃ amount ∈ m.amount, 0 < amount ∧ m.amount.getD 0 = amount := by
    cases ha : m.amount with
    | none => simp [ha] at hpos
    | some amount => exact ⟨amount, rfl, by simpa [ha] using hpos, rfl⟩
  obtain ⟨amount, ha, hpos, hvalue⟩ := hamount
  rw [hvalue]
  refine sat_bind _ _ _ _ _ _
    (sat_getWallet_deliveries ctx userId (lasting_true _) fun d w H' _ hloaded => ?_)
  refine ⟨Loaded e userId w, hloaded, ?_⟩
  change (deliveries d₀ e).Sat (creditWallet ctx (e.creditRequest userId amount) w) H' _ _
  refine sat_creditWallet (framed_deliveries d₀ e) (lasting_loaded userId w) ?_ ?_
  · intro d log r t hi _ hr ht
    refine ⟨_, ?_, rfl⟩
    obtain rfl : e.id = r := Option.some.inj ((truthy_id hid).symm.trans hr)
    cases hkey : d.ledgerHasKey e.topupKey with
    | true => rfl
    | false =>
        rw [(hi.uncredited hkey).unreferenced] at ht
        cases ht
  · intro d log H' row reopened hi hloaded hready t l
    have hkey : d.ledgerHasKey e.topupKey = false := by
      rw [← ledgerReference_topup hid t]
      exact hready.ledgerFree
    obtain ⟨hrow, huser⟩ := hloaded hkey
    have hcredited := creditedOnce_creditWrite reopened
      (topupLedger ctx (e.creditRequest userId amount) w t) (hi.uncredited hkey) hrow huser hready.idFree hm hu ha hpos
    have htaken : (creditWrite w t reopened
        (topupLedger ctx (e.creditRequest userId amount) w t) d).ledgerHasKey e.topupKey = true :=
      (ledgerHasKey_addLedger _ _ _).trans (by simp [topupLedger, PaymentEvent.creditRequest,
        ledgerReference_topup hid])
    refine ⟨⟨hready.frame, fun hfree => ?_⟩, ⟨fun hfree => ?_, fun _ => hcredited, fun _ => htaken⟩,
      _, htaken, rfl⟩
    · exact absurd htaken (by simp [hfree])
    · exact absurd htaken (by simp [hfree])

theorem sat_topUp (hid : e.id ≠ "") (htype : e.type = "collection.succeeded") {c : Delivery}
    (hc : c.event = e) (H : Set Resource) :
    (deliveries d₀ e).Sat c.topUp H (fun _ => True)
      (fun _ _ Q => Q = fun d => d.ledgerHasKey e.topupKey = true) := by
  subst hc
  unfold Delivery.topUp
  rw [if_pos htype]
  cases hm : c.event.metadata with
  | none => trivial
  | some m =>
      dsimp only
      cases hu : m.userId with
      | none => trivial
      | some userId =>
          refine sat_bind _ _ _ _ _ _ ((sat_addCredit_deliveries hid c.ctx hm hu H).mono ?_)
          rintro _ H₁ _ rfl
          refine sat_bind _ _ _ _ _ _ (sat_getWallet_deliveries c.ctx userId lasting_credited ?_)
          intro d w H₂ hcredited _
          refine ⟨fun d => d.ledgerHasKey c.event.topupKey = true, hcredited, ?_⟩
          cases c.published with
          | none => rfl
          | some e => trivial

theorem webhookInvariant_addWebhookEvent {d : Db} (h : WebhookInvariant d₀ e d)
    (hcredited : d.ledgerHasKey e.topupKey = true) (p : ProcessedWebhookEvent) :
    WebhookInvariant d₀ e (d.addWebhookEvent p) :=
  ⟨fun hfree => ⟨(h.uncredited hfree).unreferenced, (h.uncredited hfree).balances⟩, fun hkey => h.credited hkey, fun _ => hcredited⟩

theorem frame_addWebhookEvent (H : Set Resource) (d : Db) (p : ProcessedWebhookEvent) :
    Frame H d (d.addWebhookEvent p) := { Frame.refl H d with }

theorem sat_bachsWebhook (hid : e.id ≠ "") (htype : e.type = "collection.succeeded")
    {c : Delivery} (hc : c.event = e) :
    (deliveries d₀ e).Sat (bachsWebhook c) ∅ (fun _ => True)
      (Ensures fun _ d => d.ledgerHasKey e.topupKey = true) := by
  unfold bachsWebhook
  cases c.rejected with
  | some e => trivial
  | none =>
      simp only [stage, pure_eq, ret_bind]
      refine sat_query _ (stable_true _ _ _) fun d log hi _ _ => ?_
      cases hprocessed : d.webhookEvents.get? c.event.id with
      | some p =>
          exact ⟨_, hi.processed (by rw [← hc, hprocessed]; rfl), fun _ h => h⟩
      | none =>
          refine ⟨fun _ => True, trivial, ?_⟩
          refine sat_bind _ _ _ _ _ _ ((sat_topUp hid htype hc ∅).mono ?_)
          rintro _ H₁ _ rfl
          refine sat_insertUnique (lasting_credited.firm H₁) fun d _ _ hkey _ H₂ _ _ => ?_
          refine ⟨_, hkey, sat_write _ (lasting_credited.firm H₂ _) fun d log hi _ hkey => ?_⟩
          refine ⟨⟨frame_addWebhookEvent H₂ d c.processed, fun _ _ _ hrow => hrow⟩,
            webhookInvariant_addWebhookEvent hi hkey c.processed, _, hkey, fun _ h => h⟩

end

/-- Any number of deliveries of an event, interleaved in any way and crashing
anywhere, credit the wallet at most once, and exactly once as soon as one of them
has returned. -/
theorem creditedOnce_of_deliveries {S : Type} [DecidableEq S] {db : Db} {e : PaymentEvent}
    {calls : S → Delivery} (hid : e.id ≠ "") (htype : e.type = "collection.succeeded")
    (hcalls : ∀ s, (calls s).event = e) (hdb : Undelivered e db)
    {w : World S Db Resource Statement Error WebhookResponse}
    (hrun : World.Reachable (World.start db (fun s => bachsWebhook (calls s))) w) :
    (Uncredited db e w.db ∨ CreditedOnce db e w.db) ∧
      ∀ s response, w.session s = .ret response → CreditedOnce db e w.db := by
  have hstart : WebhookInvariant db e db :=
    ⟨fun _ => ⟨hdb.unreferenced, fun _ => rfl⟩, fun h => by simp [hdb.keyFree] at h,
      fun h => by simp [hdb.unprocessed] at h⟩
  have hfulfilled := Fulfilled.run (Δ := deliveries db e) hrun
    (fun _ _ _ => ⟨fun _ _ => trivial, fun _ _ _ _ _ _ _ _ => trivial⟩)
    (fun _ _ => lasting_credited)
    (fulfilled_start _ hstart fun s => sat_bachsWebhook hid htype (hcalls s))
  have hinv : WebhookInvariant db e w.db := hfulfilled.1
  refine ⟨?_, fun s response hs => hinv.credited (hfulfilled.returned hs)⟩
  cases hkey : w.db.ledgerHasKey e.topupKey with
  | false => exact .inl (hinv.uncredited hkey)
  | true => exact .inr (hinv.credited hkey)

/-! ## A delivery after a crash -/

def fiveDollars : PaymentEvent where
  id := "evt"
  type := "collection.succeeded"
  metadata := some { userId := some ⟨"u"⟩, amount := some 5 }

def twoDeliveries (s : Bool) : Delivery where
  ctx := ⟨1, ⟨if s then "t1" else "t2"⟩, ⟨"x"⟩⟩
  event := fiveDollars

def emptyWallet : Db where
  wallets := RowTable.single { id := ⟨"w"⟩, userId := ⟨"u"⟩ }

def delivering : World Bool Db Resource Statement Error WebhookResponse :=
  World.start emptyWallet (fun s => bachsWebhook (twoDeliveries s))

/-- One delivery crashes after its credit, and then the other one runs. -/
def redelivered : World Bool Db Resource Statement Error WebhookResponse :=
  ((delivering.play (List.replicate 8 true)).crash true .exception).play (List.replicate 6 false)

theorem creditedOnce_of_deliveries_redelivered :
    CreditedOnce emptyWallet fiveDollars redelivered.db := by
  have hdb : Undelivered fiveDollars emptyWallet := ⟨by decide, by decide, by decide⟩
  have hcalls : ∀ s, (twoDeliveries s).event = fiveDollars := fun _ => rfl
  have hcrash : World.Reachable delivering
      ((delivering.play (List.replicate 8 true)).crash true .exception) :=
    .crash true _ (delivering.play_reachable _)
  have hrest : World.Follows (fun _ _ => True) (List.replicate 6 false)
      ((delivering.play (List.replicate 8 true)).crash true .exception) := by decide
  exact (creditedOnce_of_deliveries (by decide) rfl hcalls hdb (hcrash.play hrest)).2 false {} rfl

end Zyntry
