import Zyntry.ConnectionFlows

/-!
# What a state binds a connection to

A callback takes the slug of the new connection from its URL and all else from the row of the
state, which it reads without a lock and deletes without looking whether it is still there.
Connections are bound to the call that issued their state, and a state gives one connection,
if the row is still there when the callback commits and was issued for the slug of the URL.
-/

namespace Zyntry

open SqlProgram Python

variable {S : Type} [DecidableEq S]

abbrev flowStart (registry : IntegrationRegistry) (tenancy : Tenancy) (first : FirstRow)
    (db : FlowDb) (requests : S → FlowRequest) :
    World S FlowDb FlowLock (S × FlowStatement) IntegrationError FlowReply :=
  World.startSigned db fun s => (requests s).program registry tenancy first

deriving instance DecidableEq for OAuthState

/-- The state text that an authorization gives out. -/
def FlowRequest.flow : FlowRequest → Option String
  | .authorize _ _ _ flow => flow
  | _ => none

/-- The state is one that the request issues. -/
def FlowRequest.Issues (r : FlowRequest) (p : OAuthState) : Prop :=
  ∃ data, r = .authorize p.provider p.userId data (some p.state) ∧
    p.purpose = data.connectionMode ∧ Zyntry.runtimeUuid data.runtimeId = some p.runtimeId ∧
    p.endUserId = data.endUserId

/-- A connection is made from the state. -/
def FlowStatement.consumes (state : String) : FlowStatement → Bool
  | .connected pending _ _ => pending.state = state
  | _ => false

/-- A callback commits while the row of its state is still there, and for the slug that the
state was issued for. -/
def StateStored (_ : List (S × FlowStatement)) (e : S × FlowStatement) (d : FlowDb) : Prop :=
  match e.2 with
  | .connected pending connection _ =>
      d.store.oauthStates.get? pending.state = some pending ∧
        connection.integrationSlug = pending.provider
  | _ => True

instance StateStored.decidable (log : List (S × FlowStatement)) (e : S × FlowStatement)
    (d : FlowDb) : Decidable (StateStored log e d) := by
  unfold StateStored
  split <;> infer_instance

/-! ## The programs -/

/-- What a commit of the request is, after the commits `mine` of its own. -/
def FlowCommit (r : FlowRequest) (mine : List FlowStatement) (l : FlowStatement)
    (d d' : FlowDb) : Prop :=
  d' = l.effect d ∧
    match l with
    | .authorized p => mine = [] ∧ r.Issues p ∧ p.purpose ≠ ""
    | .connected p c _ => c.userId = p.userId ∧ c.runtimeId = p.runtimeId ∧
        c.endUserId = p.endUserId ∧ (p.purpose ≠ "" → c.connectionMode = p.purpose)
    | _ => True

section Programs

variable {registry : IntegrationRegistry} {tenancy : Tenancy} {first : FirstRow}
  (hmodes : ∀ slug definition, registry.get slug = some definition →
    "" ∉ definition.connectionModes)

theorem emits_commitFlow {l : FlowStatement} {α : Type} {k : Unit → FlowProgram α}
    {G : List FlowStatement → FlowStatement → FlowDb → FlowDb → Prop}
    {post : List FlowStatement → α → Prop} {mine : List FlowStatement} :
    (commitFlow l >>= k).Emits G post mine ↔
      (∀ d, G mine l d (l.effect d)) ∧ (k ()).Emits G post (mine ++ [l]) := emits_write

theorem runtimeUuid_of_authorizedRow {s : IntegrationStore} {slug : String}
    {data : ConnectionAuthorizeRequest} {runtimeId : Option Uuid}
    {row : Option RuntimeIntegration} (h : s.authorizedRow slug data = .ok (runtimeId, row)) :
    Zyntry.runtimeUuid data.runtimeId = some runtimeId := by
  unfold IntegrationStore.authorizedRow at h
  split at h
  · cases h
  · rename_i hid
    rw [hid, (Prod.mk.inj (Except.ok.inj h)).1]
  · rename_i hid
    split at h
    · cases h
    · rw [hid, (Prod.mk.inj (Except.ok.inj h)).1]

include hmodes in
theorem emits_authorizeFlow (slug : String) (userId : Option Uuid)
    (data : ConnectionAuthorizeRequest) (flow : Option String) :
    (authorizeFlow registry first slug userId data flow).Emits
      (FlowCommit (.authorize slug userId data flow)) (fun _ _ => True) [] := by
  unfold authorizeFlow
  simp only [emits_orRaise, emits_ensure, emits_query]
  intro definition hdefinition _ hmode d
  rw [emits_ofExcept]
  rintro ⟨runtimeId, row⟩ hrow
  rw [emits_query]
  intro d'
  split
  · unfold linkExistingRow
    split
    · split_ifs
      · rw [bind_assoc, emits_locking]
        intro d''
        rw [emits_commitFlow]
        exact ⟨fun _ => ⟨rfl, trivial⟩, emits_ret.2 trivial⟩
      · exact emits_ret.2 trivial
    · exact emits_ret.2 trivial
  · rw [emits_orRaise]
    rintro state rfl
    simp only [createState, flowClock, bind_assoc, emits_query, emits_locking, emits_ensure]
    intro now d'' _
    rw [emits_commitFlow]
    refine ⟨fun _ => ⟨rfl, rfl, ?_, ?_⟩, emits_ret.2 trivial⟩
    · exact ⟨data, rfl, rfl, runtimeUuid_of_authorizedRow hrow, rfl⟩
    · rintro hempty
      exact hmodes slug definition hdefinition (hempty ▸ hmode)

theorem emits_callbackFlow (r : FlowRequest) (slug state : String) (expectedUserId : Option Uuid)
    (exchanged : Except IntegrationError TokenData) (newId : Uuid) :
    (callbackFlow registry tenancy slug state expectedUserId exchanged newId).Emits
      (FlowCommit r) (fun _ _ => True) [] := by
  unfold callbackFlow flowClock
  simp only [emits_query, emits_orRaise, emits_ensure, emits_ofExcept, emits_locking]
  intro d pending _ now _ _ definition _ tokenData _ _ _ now' d' _ d'' d₃
  rw [emits_commitFlow]
  refine ⟨fun _ => ⟨rfl, rfl, rfl, rfl, fun hpurpose => ?_⟩, emits_ret.2 trivial⟩
  simp [OAuthState.connection, orElse, hpurpose]

include hmodes in
theorem FlowRequest.emits_program (r : FlowRequest) :
    (r.program registry tenancy first).Emits (FlowCommit r) (fun _ _ => True) [] := by
  cases r with
  | tick seconds =>
      rw [program, emits_commitFlow]
      exact ⟨fun _ => ⟨rfl, trivial⟩, emits_ret.2 trivial⟩
  | authorize slug userId data flow => exact emits_authorizeFlow hmodes slug userId data flow
  | callback slug state expectedUserId exchanged newId =>
      exact emits_callbackFlow _ slug state expectedUserId exchanged newId

end Programs

/-! ## Runs -/

/-- A commit that meets the condition, in the log of its session. -/
def BoundCommit (requests : S → FlowRequest) (log : List (S × FlowStatement))
    (e : S × FlowStatement) (d d' : FlowDb) : Prop :=
  StateStored log e d ∧ FlowCommit (requests e.1) (ofSession e.1 log) e.2 d d'

/-- What a history keeps: states and connections come from authorizations, and a state that
has been consumed is gone. -/
structure FlowInvariant (requests : S → FlowRequest) (log : List (S × FlowStatement))
    (d : FlowDb) : Prop where
  issued : ∀ s p, (s, .authorized p) ∈ log → (requests s).Issues p ∧ p.purpose ≠ ""
  pending : ∀ p ∈ d.store.oauthStates.rows, ∃ s, (s, .authorized p) ∈ log
  bound : ∀ t p c row, (t, .connected p c row) ∈ log → (∃ s, (s, .authorized p) ∈ log) ∧
    c.integrationSlug = p.provider ∧ c.userId = p.userId ∧ c.runtimeId = p.runtimeId ∧
      c.endUserId = p.endUserId ∧ (p.purpose ≠ "" → c.connectionMode = p.purpose)
  once : ∀ state, log.countP (fun e => e.2.consumes state) ≤ 1
  gone : ∀ e ∈ log, ∀ p ∈ d.store.oauthStates.rows, e.2.consumes p.state = false

/-- A pending state was there before or has just been issued, and it is not the one that a
connection has been made from. -/
theorem FlowStatement.pending_of_effect {l : FlowStatement} {d : FlowDb} {p : OAuthState}
    (h : p ∈ (l.effect d).store.oauthStates.rows) :
    (p ∈ d.store.oauthStates.rows ∨ l = .authorized p) ∧ l.consumes p.state = false := by
  cases l with
  | authorized q =>
      rcases RowTable.mem_rows_insert h with hold | rfl
      · exact ⟨.inl hold, rfl⟩
      · exact ⟨.inr rfl, rfl⟩
  | connected q c row =>
      obtain ⟨hmem, hne⟩ := List.mem_filter.1 h
      refine ⟨.inl hmem, ?_⟩
      have hstate : p.state ≠ q.state := by simpa using hne
      simpa [consumes] using hstate.symm
  | _ => exact ⟨.inl h, rfl⟩

theorem FlowStatement.consumes_iff {l : FlowStatement} {state : String} :
    l.consumes state = true ↔ ∃ p c row, l = .connected p c row ∧ p.state = state := by
  cases l <;> simp [consumes]

theorem FlowRequest.Issues.flow {r : FlowRequest} {p : OAuthState} (h : r.Issues p) :
    r.flow = some p.state := by
  obtain ⟨data, rfl, -⟩ := h
  rfl

section Invariant

variable {requests : S → FlowRequest}
  (hfresh : ∀ s t state, (requests s).flow = some state → (requests t).flow = some state → s = t)
  {log : List (S × FlowStatement)} {e : S × FlowStatement} {d d' : FlowDb}

include hfresh in
/-- A state that is issued has not been consumed: its text is new. -/
theorem unconsumed_of_issued (h : FlowInvariant requests log d)
    (hcommit : BoundCommit requests log e d d') {p : OAuthState} (he : e.2 = .authorized p) :
    ∀ e' ∈ log, e'.2.consumes p.state = false := by
  intro e' he'
  by_contra hconsumes
  obtain ⟨q, c, row, heq, hstate⟩ := FlowStatement.consumes_iff.1 (by simpa using hconsumes)
  obtain ⟨⟨s, hs⟩, -⟩ := h.bound e'.1 q c row (heq ▸ he')
  obtain ⟨-, -, hl⟩ := hcommit
  rw [he] at hl
  obtain ⟨hmine, hissues, -⟩ := hl
  have hsame : s = e.1 := hfresh s e.1 p.state (hstate ▸ (h.issued s q hs).1.flow) hissues.flow
  have hmem := mem_ofSession.2 (hsame ▸ hs)
  rw [hmine] at hmem
  cases hmem

include hfresh in
theorem flowInvariant_commit (h : FlowInvariant requests log d)
    (hcommit : BoundCommit requests log e d d') : FlowInvariant requests (log ++ [e]) d' := by
  have hunconsumed := fun p he => unconsumed_of_issued hfresh h hcommit (p := p) he
  obtain ⟨hstored, rfl, hl⟩ := hcommit
  refine ⟨?_, ?_, ?_, ?_, ?_⟩
  · intro s p hmem
    rcases List.mem_append.1 hmem with hold | hnew
    · exact h.issued s p hold
    · obtain rfl := List.mem_singleton.1 hnew
      exact hl.2
  · intro p hp
    rcases (FlowStatement.pending_of_effect hp).1 with hold | hnew
    · obtain ⟨s, hs⟩ := h.pending p hold
      exact ⟨s, List.mem_append_left _ hs⟩
    · exact ⟨e.1, List.mem_append_right _ (List.mem_singleton.2 (Prod.ext rfl hnew.symm))⟩
  · intro t p c row hmem
    rcases List.mem_append.1 hmem with hold | hnew
    · obtain ⟨⟨s, hs⟩, hfields⟩ := h.bound t p c row hold
      exact ⟨⟨s, List.mem_append_left _ hs⟩, hfields⟩
    · obtain rfl := List.mem_singleton.1 hnew
      obtain ⟨hrow, hslug⟩ := hstored
      obtain ⟨s, hs⟩ := h.pending p (RowTable.get?_some_mem hrow)
      exact ⟨⟨s, List.mem_append_left _ hs⟩, hslug, hl⟩
  · intro state
    rw [List.countP_append, List.countP_singleton]
    split_ifs with hconsumes
    · obtain ⟨p, c, row, heq, rfl⟩ := FlowStatement.consumes_iff.1 hconsumes
      simp only [StateStored, heq] at hstored
      have hzero : log.countP (fun e => e.2.consumes p.state) = 0 := by
        apply List.countP_eq_zero.2
        intro e' he'
        simp [h.gone e' he' p (RowTable.get?_some_mem hstored.1)]
      omega
    · exact h.once state
  · intro e' he' p hp
    obtain ⟨horigin, hself⟩ := FlowStatement.pending_of_effect hp
    rcases List.mem_append.1 he' with hold | hnew
    · rcases horigin with hpending | hissued
      · exact h.gone e' hold p hpending
      · exact hunconsumed p hissued e' hold
    · obtain rfl := List.mem_singleton.1 hnew
      exact hself

end Invariant

/-- In every interleaving in which states are random and each callback commits while the row
of its state is there and was issued for its slug, a connection has the slug, the mode, the
runtime, the user and the end user of the authorization that issued its state, and no state
gives two connections. -/
theorem connection_boundToState (registry : IntegrationRegistry) (tenancy : Tenancy)
    (first : FirstRow) (db : FlowDb) (requests : S → FlowRequest)
    (w : World S FlowDb FlowLock (S × FlowStatement) IntegrationError FlowReply)
    (hmodes : ∀ slug definition, registry.get slug = some definition →
      "" ∉ definition.connectionModes)
    (hnone : db.store.oauthStates.rows = [])
    (hfresh : ∀ s t state, (requests s).flow = some state → (requests t).flow = some state → s = t)
    (hrun : World.Run (World.Commits StateStored) (flowStart registry tenancy first db requests) w) :
    (∀ t pending c row, (t, .connected pending c row) ∈ w.log → ∃ s data,
      requests s =
          .authorize c.integrationSlug c.userId data (some pending.state) ∧
        c.connectionMode = data.connectionMode ∧
        Zyntry.runtimeUuid data.runtimeId = some c.runtimeId ∧ c.endUserId = data.endUserId) ∧
      ∀ state, w.log.countP (fun e => e.2.consumes state) ≤ 1 := by
  have hprogram : ∀ s, ((requests s).program registry tenancy first).Emits
      (FlowCommit (requests s)) (fun _ _ => True) [] := fun s => (requests s).emits_program hmodes
  have hhistory : History (BoundCommit requests) [] db w.log w.db :=
    (World.Run.signed_history hrun hprogram).1
  have hstart : FlowInvariant requests [] db := by
    refine ⟨?_, ?_, ?_, ?_, ?_⟩
    · intro s p h
      exact absurd h List.not_mem_nil
    · intro p h
      rw [hnone] at h
      exact absurd h List.not_mem_nil
    · intro t p c row h
      exact absurd h List.not_mem_nil
    · exact fun _ => Nat.zero_le 1
    · intro e h
      exact absurd h List.not_mem_nil
  have hinv : FlowInvariant requests w.log w.db :=
    hhistory.invariant hstart fun _ _ _ _ h hcommit => flowInvariant_commit hfresh h hcommit
  refine ⟨fun t pending c row hmem => ?_, hinv.once⟩
  obtain ⟨⟨s, hs⟩, hslug, huser, hruntime, hendUser, hmode⟩ := hinv.bound t pending c row hmem
  obtain ⟨⟨data, hrequest, hpurpose, huuid, hend⟩, hne⟩ := hinv.issued s pending hs
  refine ⟨s, data, ?_, (hmode hne).trans hpurpose, hruntime ▸ huuid, hendUser.trans hend⟩
  rw [hslug, huser]
  exact hrequest

/-! ## One authorization and two callbacks -/

/-- A part of the registry. -/
def oauthRegistry : IntegrationRegistry where
  definitions :=
    [("notion",
      { id := "int_notion"
        slug := "notion"
        name := "Notion"
        connectionModes := ["zyntry_managed"] }),
     ("slack",
      { id := "int_slack"
        slug := "slack"
        name := "Slack"
        connectionModes := ["zyntry_managed"] })]
  aliases := []

def noTenants : Tenancy where
  runtimes := fun _ => none
  users := fun _ => none
  projects := fun _ => none

def exchangedToken : Except IntegrationError TokenData := .ok { accessToken := .str "token" }

/-- An account is authorized for Notion, and two callbacks come with its state. -/
def callbacksUnder (slug : String) : Fin 3 → FlowRequest
  | 0 => .authorize "notion" (some ⟨"u1"⟩) {} (some "state")
  | 1 => .callback slug "state" none exchangedToken ⟨"c1"⟩
  | 2 => .callback slug "state" none exchangedToken ⟨"c2"⟩

def oneByOne : List (Fin 3) := (List.finRange 3).flatMap (List.replicate 8)

/-- Both callbacks read the state before one of them commits. -/
def bothCallbacksRead : List (Fin 3) :=
  (List.finRange 3).flatMap (fun s => List.replicate (if s.val = 0 then 8 else 1) s) ++ oneByOne

theorem callbacksUnder_flow {slug : String} {s t : Fin 3} {state : String}
    (hs : (callbacksUnder slug s).flow = some state)
    (ht : (callbacksUnder slug t).flow = some state) : s = t := by
  match s, t with
  | 0, 0 => rfl
  | 1, _ => cases hs
  | 2, _ => cases hs
  | 0, 1 => cases ht
  | 0, 2 => cases ht

theorem oauthRegistry_connectionModes (slug : String) (definition : IntegrationDefinition)
    (h : oauthRegistry.get slug = some definition) : "" ∉ definition.connectionModes := by
  have hall : ∀ definition ∈ oauthRegistry.definitions.map Prod.snd,
      "" ∉ definition.connectionModes := by decide
  exact hall definition (IntegrationRegistry.mem_of_get h)

theorem connection_boundToState_inTurn :
    let w := (flowStart oauthRegistry noTenants .head {} (callbacksUnder "notion")).play oneByOne
    w.log.countP (fun e => e.2.consumes "state") = 1 ∧
      w.log.countP (fun e => e.2.consumes "state") ≤ 1 := by
  intro w
  have hrun : World.Run (World.Commits StateStored)
      (flowStart oauthRegistry noTenants .head {} (callbacksUnder "notion")) w :=
    World.Run.start.play (by decide +kernel)
  have hbound := connection_boundToState oauthRegistry noTenants .head {}
    (callbacksUnder "notion") w oauthRegistry_connectionModes rfl
    (fun _ _ _ => callbacksUnder_flow) hrun
  exact ⟨by decide +kernel, hbound.2 "state"⟩

/-- A state that was issued for Notion gives a connection to Slack, and two callbacks that
have both read a state both make a connection. -/
theorem connection_ofOtherSlug_twice :
    (∃ w, World.Reachable
        (flowStart oauthRegistry noTenants .head {} (callbacksUnder "slack")) w ∧
      ∃ c ∈ w.db.store.connections.rows, ∀ s slug userId data flow,
        callbacksUnder "slack" s = .authorize slug userId data flow →
          slug ≠ c.integrationSlug) ∧
    ∃ w, World.Reachable
        (flowStart oauthRegistry noTenants .head {} (callbacksUnder "notion")) w ∧
      w.log.countP (fun e => e.2.consumes "state") = 2 := by
  refine ⟨⟨_, World.play_reachable _ oneByOne, ?_⟩,
    ⟨_, World.play_reachable _ bothCallbacksRead, by decide +kernel⟩⟩
  obtain ⟨c, hc, hslug⟩ : ∃ c ∈ ((flowStart oauthRegistry noTenants .head {}
      (callbacksUnder "slack")).play oneByOne).db.store.connections.rows,
      c.integrationSlug = "slack" := by decide +kernel
  refine ⟨c, hc, fun s slug userId data flow hrequest => ?_⟩
  rw [hslug]
  match s with
  | 0 =>
      cases hrequest
      decide
  | 1 | 2 => cases hrequest

end Zyntry
