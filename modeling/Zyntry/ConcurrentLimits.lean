import Zyntry.SessionSpecs
import Zyntry.LimitInvariant

/-!
# A lifetime limit under concurrency

Sessions reserve, settle within the estimate and release in any interleaving.
`reserve` holds the row of the limit from its check to its commit, but `settle`
takes no lock on it and moves an amount from the sum that `check` reads second to
the sum that it reads first. The limit holds in every interleaving in which no
settlement commits between the two.
-/

namespace Zyntry

open SqlProgram SqlProgram.Discipline

/-- The actual amount of the settlement that is about to lock its row is within
the estimate of that row. -/
def WithinEstimate : Statement → Db → Prop
  | .lockReservation id _ (.settle actual), d =>
      ∀ r ∈ d.reservations.get? id, r.status = .reserved → actual ≤ r.estimatedAmount
  | _, _ => True

def IsSettlement : Statement → Prop
  | .commit (.settle _ _) => True
  | _ => False

/-- What the sessions that share the limit `l` agree on. -/
def sharedLimit (l : SpendingLimit) : SqlDiscipline where
  inv d _ := l ∈ d.spendingLimits.rows ∧ (∀ r ∈ d.reservations.rows, 0 ≤ r.estimatedAmount) ∧
    d.countedUnder l 0 ≤ l.amount
  guarantee H m d d' := Frame H d d' ∧
    (.spendingLimit l.id ∉ H → d'.countedUnder l 0 ≤ d.countedUnder l 0) ∧
    (¬ IsSettlement m → d'.settledSpend l.scopeType l.scopeId 0 =
      d.settledSpend l.scopeType l.scopeId 0)
  own := WithinEstimate
  compatible m next := IsSettlement m → next ≠ .sumReserved l.id

theorem framed_sharedLimit (l : SpendingLimit) : Framed (sharedLimit l) :=
  ⟨fun _ _ _ _ h => h.1, fun H d _ h =>
    ⟨⟨Frame.refl H d, fun _ => le_rfl, fun _ => rfl⟩, h⟩⟩

/-! ## What the check establishes -/

/-- The limit is locked and what it counts leaves room for `amount`. -/
structure Room (l : SpendingLimit) (amount : ℤ) (H : Set Resource) (Q : Db → Prop) : Prop where
  owned : .spendingLimit l.id ∈ H
  firm : (sharedLimit l).Firm H Q
  fits : ∀ d, Q d → d.countedUnder l 0 + amount ≤ l.amount

/-- While the limit is locked, what it counts does not grow. -/
theorem firm_countedUnder {l : SpendingLimit} {H : Set Resource}
    (h : .spendingLimit l.id ∈ H) (bound : ℤ) :
    (sharedLimit l).Firm H (fun d => d.countedUnder l 0 ≤ bound) :=
  fun _ _ _ _ _ _ _ hd _ hg hq => (hg.2.1 fun hr => hd _ hr h).trans hq

/-- The two sums of the limit itself. -/
theorem sat_checkLimit_room {l : SpendingLimit} (hlife : l.period = .lifetime)
    {req : CheckRequest} (hexclude : req.excludeReservationId = none) {H : Set Resource}
    (howned : .spendingLimit l.id ∈ H) :
    (sharedLimit l).Sat (checkLimit req l.scopeType l.scopeId l) H (fun _ => True)
      (fun _ H' Q' => Room l req.amount H' Q') := by
  have hstart : periodStart l.period req.now = 0 := by rw [hlife]; rfl
  refine Discipline.sat_query _ ((sharedLimit l).stable_true H _) fun d _ _ _ _ => ?_
  refine ⟨fun d' => d'.settledSpend l.scopeType l.scopeId 0 =
    d.settledSpend l.scopeType l.scopeId (periodStart l.period req.now), by rw [hstart], ?_⟩
  refine Discipline.sat_query _ ?_ fun d' _ _ _ hspent => ?_
  · -- between the two sums only settlements could change the first
    exact fun _ _ _ _ _ _ _ hc hg hq => (hg.2.2 fun hset => hc hset rfl).trans hq
  refine ⟨fun d'' => d''.countedUnder l 0 ≤ d'.countedUnder l 0, le_rfl, ?_⟩
  have hsum : d.settledSpend l.scopeType l.scopeId (periodStart l.period req.now) +
      d'.reservedEstimates l.scopeType l.scopeId (periodStart l.period req.now)
        req.excludeReservationId = d'.countedUnder l 0 := by
    rw [Db.countedUnder, hspent, hstart, hexclude]
  dsimp only
  rw [hsum]
  split_ifs with hover
  · trivial
  · exact ⟨howned, firm_countedUnder howned _, fun d'' hd'' => by omega⟩

theorem sat_checkScope_room {l : SpendingLimit} (hlife : l.period = .lifetime)
    (hactive : l.active = true) {req : CheckRequest}
    (hexclude : req.excludeReservationId = none) {H : Set Resource} :
    (sharedLimit l).Sat (checkScope req l.scopeType l.scopeId) H (fun _ => True)
      (fun _ H' Q' => Room l req.amount H' Q') := by
  refine Discipline.sat_locking _ ((sharedLimit l).stable_true H _) fun d _ hi _ _ => ?_
  have hmem : l ∈ d.activeLimits l.scopeType l.scopeId :=
    mem_activeLimits.mpr ⟨hi.1, rfl, rfl, hactive⟩
  refine ⟨fun _ => True, trivial, ?_⟩
  refine (sharedLimit l).sat_forEach_mem l
    (J := fun H Q => .spendingLimit l.id ∈ H ∧ Q = fun _ => True) hmem ?_ ?_ ?_
    ⟨.inr (List.mem_map_of_mem (f := fun l => Resource.spendingLimit l.id) hmem), rfl⟩
  · rintro l' _ H₁ _ ⟨howned, rfl⟩
    refine (sat_checkLimit (Discipline.lasting_true _ |>.firm H₁) req _ _ l').mono ?_
    rintro _ _ _ ⟨rfl, rfl⟩
    exact ⟨howned, rfl⟩
  · rintro l' _ H₁ Q₁ hroom
    refine (sat_checkLimit hroom.firm req _ _ l').mono ?_
    rintro _ _ _ ⟨rfl, rfl⟩
    exact hroom
  · rintro H₁ _ ⟨howned, rfl⟩
    exact sat_checkLimit_room hlife hexclude howned

/-- A check for a request in the scope of the limit makes room for its amount. -/
theorem sat_check_room {l : SpendingLimit} (hlife : l.period = .lifetime)
    (hactive : l.active = true) {req : CheckRequest}
    (hexclude : req.excludeReservationId = none)
    (hscope : scopeId (some req.userId) req.scope l.scopeType = some l.scopeId)
    {H : Set Resource} :
    (sharedLimit l).Sat (check req) H (fun _ => True)
      (fun _ H' Q' => Room l req.amount H' Q') := by
  refine (sharedLimit l).sat_forEach_mem (l.scopeType, l.scopeId)
    (J := fun _ Q => Q = fun _ => True) ((mem_scopes _ _ _ _).mpr hscope) ?_ ?_ ?_ rfl
  · rintro ⟨scope, id⟩ _ H₁ _ rfl
    refine (sat_checkScope (Discipline.lasting_true _ |>.firm H₁) req scope id).mono ?_
    rintro _ _ _ ⟨_, rfl⟩
    rfl
  · rintro ⟨scope, id⟩ _ H₁ Q₁ hroom
    refine (sat_checkScope hroom.firm req scope id).mono ?_
    rintro _ H₂ _ ⟨hsub, rfl⟩
    exact ⟨hsub hroom.owned, hroom.firm.mono_held hsub, hroom.fits⟩
  · rintro H₁ _ rfl
    exact sat_checkScope_room hlife hactive hexclude

/-! ## The three operations -/

theorem sat_reserve_sharedLimit {l : SpendingLimit} (hlife : l.period = .lifetime)
    (hactive : l.active = true) (ctx : CallContext) (req : ReserveRequest) :
    (sharedLimit l).Sat (reserve {} ctx req) ∅ (fun _ => True) (fun _ _ _ => True) := by
  have htrue := (sharedLimit l).lasting_true
  have hcommit : ∀ d log H row, (sharedLimit l).inv d log →
      ReserveReady (sharedLimit l) {} ctx req H d row →
      (scopeId (some req.userId) req.scope l.scopeType = some l.scopeId →
        .spendingLimit l.id ∈ H ∧ d.countedUnder l 0 + money req.amount ≤ l.amount) →
      (sharedLimit l).guarantee H (.commit (.reserve row.id (money req.amount))) d
        (reserveWrite none row (req.reservation ctx row) ctx d) ∧
      (sharedLimit l).inv (reserveWrite none row (req.reservation ctx row) ctx d)
        (log ++ [.commit (.reserve row.id (money req.amount))]) := by
    intro d log H row hi hready hroom
    have hcounted : (reserveWrite none row (req.reservation ctx row) ctx d).countedUnder l 0 =
        d.countedUnder l 0 +
          if scopeId (some req.userId) req.scope l.scopeType = some l.scopeId then
            money req.amount else 0 :=
      countedUnder_reserveWrite hready.idFree (Nat.zero_le ctx.now)
    refine ⟨⟨hready.frame, fun hfree => ?_, fun _ => ?_⟩, hi.1, ?_, ?_⟩
    · rw [hcounted, if_neg fun hscope => hfree (hroom hscope).1, add_zero]
    · exact settledSpend_addLedger_of_not ((d.flushWallet row _).addReservation _) _ rfl _ _ _
    · intro r hr
      rcases RowTable.mem_rows_insert hr with hold | rfl
      · exact hi.2.1 r hold
      · exact hready.positive.le
    · rw [hcounted]
      split_ifs with hscope
      · exact (hroom hscope).2
      · simpa only [add_zero] using hi.2.2
  by_cases hscope : scopeId (some req.userId) req.scope l.scopeType = some l.scopeId
  · refine sat_reserve (K := {.spendingLimit l.id})
      (C := fun d => d.countedUnder l 0 + money req.amount ≤ l.amount) (framed_sharedLimit l)
      htrue ?_ (fun d _ _ _ _ _ _ _ => reaches_true d _ _)
      (fun d _ _ _ _ _ => reaches_true d _ _) ?_
    · intro H' _
      refine (sat_check_room hlife hactive rfl hscope).mono ?_
      rintro _ H'' Q' ⟨howned, hfirm, hfits⟩
      exact ⟨Set.singleton_subset_iff.mpr howned, hfirm, fun d hd => ⟨trivial, hfits d hd⟩⟩
    · intro d log H' row hi hK _ hroom hready
      obtain ⟨hg, hi'⟩ := hcommit d log H' row hi hready
        fun _ => ⟨Set.singleton_subset_iff.mp hK, hroom⟩
      exact ⟨hg, hi', reaches_true _ _ _⟩
  · refine sat_reserve (K := ∅) (C := fun _ => True) (framed_sharedLimit l) htrue ?_
      (fun d _ _ _ _ _ _ _ => reaches_true d _ _)
      (fun d _ _ _ _ _ => reaches_true d _ _) ?_
    · intro H' _
      refine (sat_check (htrue.firm H') _).mono ?_
      rintro _ H'' _ ⟨_, rfl⟩
      exact ⟨Set.empty_subset _, htrue.firm H'', fun _ _ => ⟨trivial, trivial⟩⟩
    · intro d log H' row hi _ _ _ hready
      obtain ⟨hg, hi'⟩ := hcommit d log H' row hi hready fun hs => absurd hs hscope
      exact ⟨hg, hi', reaches_true _ _ _⟩

/-- A settlement moves at most its estimate from the reserved to the spent amount. -/
theorem settleWrite_sharedLimit {l : SpendingLimit} {ctx : CallContext} {id : Uuid}
    {req : SettleRequest} {d : Db} {log : List Statement} {H : Set Resource} {row : Reservation}
    {wallet : Wallet} {budget : Option Budget} (change : ℤ) (hi : (sharedLimit l).inv d log)
    (hready : SettleReady (sharedLimit l) {} ctx id req H d row wallet budget) :
    (sharedLimit l).guarantee H (.commit (.settle wallet.id change)) d
      (settleWrite row wallet budget req ctx d) ∧
    (sharedLimit l).inv (settleWrite row wallet budget req ctx d)
      (log ++ [.commit (.settle wallet.id change)]) := by
  obtain ⟨d₀, _, _, hwithin, hrow₀⟩ := hready.locked
  have hreserved : row.status = .reserved := hready.reserved
  have hle : money req.actualAmount ≤ row.estimatedAmount := hwithin row hrow₀ hreserved
  have hr : d.reservations.get? row.id = some row := by
    rw [RowTable.get?_some_key hready.stored]
    exact hready.stored
  have hnonneg := hready.nonneg
  have hadditional := additionalAmount_cases row (money req.actualAmount)
  have hcounted : (settleWrite row wallet budget req ctx d).countedUnder l 0 ≤
      d.countedUnder l 0 := by
    unfold Db.countedUnder
    rw [settledSpend_settleWrite, reservedEstimates_settleWrite hr hreserved]
    by_cases hscope : row.scopeId l.scopeType = some l.scopeId
    · rw [if_pos (c := 0 ≤ row.createdAt ∧ _) ⟨Nat.zero_le _, hscope⟩]
      split_ifs <;> omega
    · rw [if_neg fun hc => hscope hc.2.2, if_neg fun hc => hscope hc.2]
      omega
  refine ⟨⟨hready.frame, fun _ => hcounted, fun hset => absurd trivial hset⟩, ?_, ?_,
    hcounted.trans hi.2.2⟩
  · exact (spendingLimits_settleWrite row wallet budget req ctx d).symm ▸ hi.1
  · intro r' hr'
    rw [reservations_settleWrite] at hr'
    rcases mem_finalised hr hr' with hold | rfl
    · exact hi.2.1 r' hold
    · have hest := hi.2.1 row (RowTable.get?_some_mem hr)
      simp only [Reservation.flush, Reservation.afterSettle, changed_row]
      omega

theorem sat_settle_sharedLimit (l : SpendingLimit) (ctx : CallContext) (id : Uuid)
    (req : SettleRequest) :
    (sharedLimit l).Sat (settle {} ctx id req) ∅ (fun _ => True) (fun _ _ _ => True) := by
  refine sat_settle (framed_sharedLimit l) (sharedLimit l).lasting_true
    (fun d _ _ _ _ _ _ _ => reaches_true d _ _) ?_
  intro d log H row wallet budget hi _ hready
  obtain ⟨hg, hi'⟩ := settleWrite_sharedLimit (releaseAmount row (money req.actualAmount) -
    additionalAmount row (money req.actualAmount)) hi hready
  exact ⟨hg, hi', reaches_true _ _ _⟩

theorem releaseWrite_sharedLimit {l : SpendingLimit} {ctx : CallContext} {id : Uuid} {d : Db}
    {log : List Statement} {H : Set Resource} {row : Reservation} {wallet : Wallet}
    (hi : (sharedLimit l).inv d log)
    (hready : ReleaseReady (sharedLimit l) {} ctx id H d row wallet) :
    (sharedLimit l).guarantee H (.commit (.release wallet.id row.estimatedAmount)) d
      (releaseWrite row wallet ctx d) ∧
    (sharedLimit l).inv (releaseWrite row wallet ctx d)
      (log ++ [.commit (.release wallet.id row.estimatedAmount)]) := by
  have hreserved : row.status = .reserved := hready.reserved
  have hr : d.reservations.get? row.id = some row := by
    rw [RowTable.get?_some_key hready.stored]
    exact hready.stored
  have hest := hi.2.1 row (RowTable.get?_some_mem hr)
  have hcounted : (releaseWrite row wallet ctx d).countedUnder l 0 ≤ d.countedUnder l 0 :=
    countedUnder_releaseWrite_le hr hreserved hest l 0
  refine ⟨⟨hready.frame, fun _ => hcounted, fun _ => settledSpend_releaseWrite row wallet ctx d _ _ _⟩,
    hi.1, ?_, hcounted.trans hi.2.2⟩
  intro r' hr'
  rcases mem_finalised hr hr' with hold | rfl
  · exact hi.2.1 r' hold
  · simpa only [Reservation.flush, Reservation.afterRelease, changed_row] using hest

theorem sat_release_sharedLimit (l : SpendingLimit) (ctx : CallContext) (id : Uuid) :
    (sharedLimit l).Sat (release {} ctx id) ∅ (fun _ => True) (fun _ _ _ => True) := by
  refine sat_release (framed_sharedLimit l) (sharedLimit l).lasting_true
    (fun d _ _ _ _ _ _ _ => reaches_true d _ _) ?_
  intro d log H row wallet hi _ hready
  obtain ⟨hg, hi'⟩ := releaseWrite_sharedLimit hi hready
  exact ⟨hg, hi', reaches_true _ _ _⟩

theorem sat_sharedLimit {l : SpendingLimit} (hlife : l.period = .lifetime)
    (hactive : l.active = true) (c : ReservationCall) :
    (sharedLimit l).Sat (runReservation c) ∅ (fun _ => True) (fun _ _ _ => True) := by
  cases c with
  | reserve ctx req => exact sat_reserve_sharedLimit hlife hactive ctx req
  | settle ctx id req => exact sat_settle_sharedLimit l ctx id req
  | release ctx id => exact sat_release_sharedLimit l ctx id

/-! ## Interleavings -/

abbrev ReservationWorld (S : Type) := World S Db Resource Statement Error Reservation

/-- The settlement that session `s` is about to begin is within its estimate. -/
def SettlesWithinEstimate {S : Type} (w : ReservationWorld S) (s : S) : Prop :=
  ∀ m ∈ (w.session s).head, WithinEstimate m w.db

/-- Session `s` does not commit a settlement while another one is about to read
the second sum that it compares with the limit. -/
def NoSettlementBetweenSums {S : Type} (l : SpendingLimit) (w : ReservationWorld S) (s : S) :
    Prop :=
  (∃ m ∈ (w.session s).head, IsSettlement m) →
    ∀ t, t ≠ s → (w.session t).head ≠ some (.sumReserved l.id)

/-- The sessions start on a database whose limit is active and respected. -/
structure LimitShared (l : SpendingLimit) (db : Db) : Prop where
  limit : l ∈ db.spendingLimits.rows
  active : l.active = true
  lifetime : l.period = .lifetime
  estimates : ∀ r ∈ db.reservations.rows, 0 ≤ r.estimatedAmount
  counted : db.countedUnder l 0 ≤ l.amount

theorem limit_holds_of_noSettlementBetweenSums {S : Type} [DecidableEq S] {l : SpendingLimit}
    {db : Db} {calls : S → ReservationCall} (hdb : LimitShared l db) {w : ReservationWorld S}
    (hrun : World.Run (fun w s => SettlesWithinEstimate w s ∧ NoSettlementBetweenSums l w s)
      (World.start db (fun s => runReservation (calls s))) w) :
    w.db.countedUnder l 0 ≤ l.amount := by
  have hobeyed := Obeyed.run (Δ := sharedLimit l) hrun ?_
    (obeyed_start _ ⟨hdb.limit, hdb.estimates, hdb.counted⟩
      fun s => sat_sharedLimit hdb.lifetime hdb.active (calls s))
  · exact hobeyed.1.2.2
  · rintro w s ⟨hwithin, hbetween⟩
    refine ⟨fun m hm => hwithin m hm, fun m write next hp t hts next' hnext hset => ?_⟩
    have hhead : ∃ m ∈ (w.session s).head, IsSettlement m := ⟨m, by rw [hp]; rfl, hset⟩
    rintro rfl
    exact hbetween hhead t hts hnext

/-! ## A settlement between the two sums -/

instance (m : Statement) (d : Db) : Decidable (WithinEstimate m d) := by
  unfold WithinEstimate
  split <;> infer_instance

instance (m : Statement) : Decidable (IsSettlement m) := by
  unfold IsSettlement
  split <;> infer_instance

instance {S : Type} (w : ReservationWorld S) (s : S) : Decidable (SettlesWithinEstimate w s) :=
  inferInstanceAs (Decidable (∀ m ∈ (w.session s).head, WithinEstimate m w.db))

instance (l : SpendingLimit) (w : ReservationWorld Bool) (s : Bool) :
    Decidable (NoSettlementBetweenSums l w s) :=
  inferInstanceAs (Decidable ((∃ m ∈ (w.session s).head, IsSettlement m) → _))

/-- The user's limit of 10.0000 is used up by an open reservation. -/
def fullyReservedDb : Db where
  wallets := RowTable.single
    { id := ⟨"w"⟩, userId := ⟨"u"⟩, balance := 900000, reservedBalance := 100000 }
  reservations := RowTable.single
    { id := ⟨"r"⟩, walletId := ⟨"w"⟩, userId := ⟨"u"⟩, scope := {}, requestId := "q"
      idempotencyKey := "k", estimatedAmount := 100000, currency := "usd"
      resourceType := "runtime_execution", expiresAt := 900, createdAt := 0 }
  spendingLimits := RowTable.single tenDollarLimit

theorem limitShared_fullyReservedDb : LimitShared tenDollarLimit fullyReservedDb where
  limit := by decide
  active := rfl
  lifetime := rfl
  estimates := by decide
  counted := by decide

/-- Session `true` settles the open reservation for 6.0000, session `false`
reserves `amount`. -/
def settleAndReserve (amount : Decimal) : Bool → ReservationCall
  | true => .settle ⟨2, ⟨"y"⟩, ⟨"x"⟩⟩ ⟨"r"⟩ { actualAmount := 6 }
  | false => .reserve ⟨3, ⟨"r'"⟩, ⟨"x"⟩⟩
      { userId := ⟨"u"⟩, amount := amount, requestId := "q'", idempotencyKey := "k'" }

def settleAndReserveWorld (amount : Decimal) : ReservationWorld Bool :=
  World.start fullyReservedDb (fun s => runReservation (settleAndReserve amount s))

/-- First the whole settlement, then the whole reservation of 4.0000. -/
def settleFirst : List Bool := List.replicate 6 true ++ List.replicate 8 false

/-- The reservation begins, and the settlement commits between its two sums. -/
def settleBetweenSums : List Bool :=
  List.replicate 3 false ++ List.replicate 6 true ++ List.replicate 5 false

theorem limit_holds_of_noSettlementBetweenSums_four :
    ((settleAndReserveWorld 4).play settleFirst).db.countedUnder tenDollarLimit 0 ≤ 100000 := by
  have hok : World.Follows
      (fun w s => SettlesWithinEstimate w s ∧ NoSettlementBetweenSums tenDollarLimit w s) settleFirst
      (settleAndReserveWorld 4) := by decide +kernel
  exact limit_holds_of_noSettlementBetweenSums limitShared_fullyReservedDb
    (World.Run.start.play hok)

/-- The reservation of 10.0000 sees neither the 10.0000 reserved nor the 6.0000 spent. -/
theorem limit_fails_at_settlementBetweenSums :
    ¬ ∀ (l : SpendingLimit) (db : Db) (calls : Bool → ReservationCall) (w : ReservationWorld Bool),
      LimitShared l db →
      World.Run SettlesWithinEstimate (World.start db (fun s => runReservation (calls s))) w →
      w.db.countedUnder l 0 ≤ l.amount := by
  intro h
  have hok : World.Follows SettlesWithinEstimate settleBetweenSums (settleAndReserveWorld 10) := by
    decide +kernel
  exact absurd (h tenDollarLimit fullyReservedDb (settleAndReserve 10) _
    limitShared_fullyReservedDb (World.Run.start.play hok)) (by decide +kernel)

end Zyntry
