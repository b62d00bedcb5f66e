import Zyntry.ActionProposals
import Zyntry.SqlAssertions

/-!
# Turns of the assistant

A chat request looks for a stored turn with its `client_request_id` before anything else, and
stores a turn of its own at the end. The database holds what belongs to one runtime and one user;
what the planner, the tools and the model come to is an input of the call.
-/

namespace Zyntry

open Python SqlProgram RowTable
open SqlProgram.World (Run start)

/-- The request schema admits from 8 to 128 characters. -/
@[ext] structure ClientRequestId where
  val : String
  length_mem : 8 ≤ val.length ∧ val.length ≤ 128
deriving DecidableEq

/-! ## Rows -/

structure AssistantConversation where
  id : Uuid
  title : String
  active : Bool
deriving DecidableEq

inductive MessageRole where
  | user
  | assistant
deriving DecidableEq, Repr

structure TurnMetadata where
  clientRequestId : Option String := none
  messageId : Option Uuid := none
  conversationId : Option Uuid := none
  actionProposal : Option Uuid := none
deriving DecidableEq

structure AssistantMessage where
  id : Uuid
  conversationId : Uuid
  role : MessageRole
  content : String
  metadata : TurnMetadata
  createdAt : ℤ
deriving DecidableEq

/-- A proposal with its primary key. -/
structure StoredProposal where
  id : Uuid
  proposal : Proposal

structure AssistantDb where
  runtime : Option StoredRuntime
  conversations : RowTable Uuid AssistantConversation (·.id)
  messages : RowTable Uuid AssistantMessage (·.id)
  proposals : RowTable Uuid StoredProposal (·.id)

namespace AssistantDb

variable (d : AssistantDb)

def isActive (id : Uuid) : Bool := (d.conversations.get? id).any (·.active)

/-- The page of answers that is searched, the newest first. -/
def recentAnswers : List AssistantMessage :=
  ((d.messages.rows.filter fun m =>
    m.role = .assistant ∧ d.isActive m.conversationId).insertionSort
      fun m m' => m'.createdAt ≤ m.createdAt).take 100

def findIdempotentResponse (clientRequestId : String) : Option AssistantMessage :=
  d.recentAnswers.find? fun m => m.metadata.clientRequestId.getD "" = clientRequestId

end AssistantDb

/-! ## The chat -/

inductive AssistantAction where
  | looked
  | conversationLooked
  | runtimeLooked
  | proposed (proposal : Uuid)
  | actionSaved (tool : String)
  | turnSaved (message : Uuid)
deriving DecidableEq

/-- A statement of a request. -/
structure AssistantStatement where
  request : Option ClientRequestId
  action : AssistantAction
deriving DecidableEq

structure AssistantResponse where
  message : String
  metadata : TurnMetadata
deriving DecidableEq

abbrev AssistantProgram := SqlProgram AssistantDb Unit AssistantStatement CommandError

/-- A request of the chat: what it asks, the first change that is planned for it, the tools whose
results are kept, the answer, and the ids and times of what it stores. -/
structure AssistantCall where
  runtimeId : Uuid
  projectId : Uuid
  userId : Uuid
  role : UserRole
  message : String
  conversationId : Option String
  clientRequestId : Option ClientRequestId
  pending : Option (String × Fields)
  toolResults : List String
  answer : String
  newConversationId : Uuid
  userMessageId : Uuid
  proposalId : Uuid
  messageId : Uuid
  proposedAt : ℕ
  askedAt : ℤ
  answeredAt : ℤ

namespace AssistantCall

variable (isAlnum : Char → Bool) (call : AssistantCall)

def statement (action : AssistantAction) : AssistantStatement := ⟨call.clientRequestId, action⟩

def resolveConversation : AssistantProgram AssistantConversation :=
  match call.conversationId.filter (· ≠ "") with
  | none =>
      let title := String.ofList ((orElse (String.ofList (call.message.toList.take 120))
        "Runtime investigation").toList.take 255)
      return ⟨call.newConversationId, title, true⟩
  | some text =>
      match uuid text with
      | none => raise (.valueError "Invalid conversation id")
      | some id => do
          let found ← query (call.statement .conversationLooked) fun d =>
            (d.conversations.get? ⟨id⟩).filter (·.active)
          orRaise found (.valueError "Conversation not found in this runtime scope")

/-- What is flushed before the first commit. The row of a conversation that was found is there. -/
def opened (conversation : AssistantConversation) (d : AssistantDb) : AssistantDb :=
  { d with
    conversations := d.conversations.insert conversation
    messages := d.messages.insert
      ⟨call.userMessageId, conversation.id, .user, redactText isAlnum call.message, {},
        call.askedAt⟩ }

/-- The proposal of a planned change; an error that is explained creates none. -/
def proposePending (conversation : AssistantConversation) : AssistantProgram (Option Uuid) :=
  match call.pending with
  | none => return none
  | some (action, arguments) => do
      let current ← query (call.statement .runtimeLooked) (·.runtime)
      match propose isAlnum current call.runtimeId call.projectId call.userId call.role action
        arguments call.proposedAt with
      | .ok proposal => do
          write (call.statement (.proposed call.proposalId)) fun d =>
            { call.opened isAlnum conversation d with
              proposals := d.proposals.insert ⟨call.proposalId, proposal⟩ }
          return some call.proposalId
      | .error .other => raise .other
      | .error _ => return none

/-- The turn that is stored. -/
def turn (conversation : AssistantConversation) (proposal : Option Uuid) : AssistantMessage where
  id := call.messageId
  conversationId := conversation.id
  role := .assistant
  content := redactText isAlnum call.answer
  metadata :=
    { clientRequestId := call.clientRequestId.map (·.val)
      messageId := some call.messageId
      conversationId := some conversation.id
      actionProposal := proposal }
  createdAt := call.answeredAt

/-- What comes after the proposal. -/
def answerTurn (conversation : AssistantConversation) (proposal : Option Uuid) :
    AssistantProgram AssistantResponse := do
  forEach call.toolResults fun tool =>
    write (call.statement (.actionSaved tool)) (call.opened isAlnum conversation)
  let turn := call.turn isAlnum conversation proposal
  write (call.statement (.turnSaved turn.id)) fun d =>
    let d := call.opened isAlnum conversation d
    { d with messages := d.messages.insert turn }
  return ⟨call.answer, turn.metadata⟩

/-- A request that has found no turn. -/
def newTurn : AssistantProgram AssistantResponse := do
  let conversation ← call.resolveConversation
  let proposal ← call.proposePending isAlnum conversation
  call.answerTurn isAlnum conversation proposal

/-- `RuntimeAssistantService.chat`. -/
def chat : AssistantProgram AssistantResponse :=
  match call.clientRequestId with
  | none => call.newTurn isAlnum
  | some id => do
      let existing ← query (call.statement .looked) (·.findIdempotentResponse id.val)
      match existing with
      | some message => return ⟨message.content, message.metadata⟩
      | none => call.newTurn isAlnum

end AssistantCall

/-! ## The law of a request id -/

section Law

variable {S : Type}

abbrev AssistantWorld (S : Type) :=
  World S AssistantDb Unit AssistantStatement CommandError AssistantResponse

/-- The turns that were stored for an id. -/
def turnsOf (id : ClientRequestId) (log : List AssistantStatement) : List Uuid :=
  log.filterMap fun l =>
    match l.action with
    | .turnSaved message => if l.request = some id then some message else none
    | _ => none

/-- The proposals that were stored for an id. -/
def proposalsOf (id : ClientRequestId) (log : List AssistantStatement) : List Uuid :=
  log.filterMap fun l =>
    match l.action with
    | .proposed proposal => if l.request = some id then some proposal else none
    | _ => none

/-- Requests with the id have stored at most one turn and one proposal, and those that have
returned have returned the turn. -/
structure AnswersOnce (id : ClientRequestId) (calls : S → AssistantCall) (w : AssistantWorld S) :
    Prop where
  turns : (turnsOf id w.log).length ≤ 1
  proposals : (proposalsOf id w.log).length ≤ 1
  stored : ∀ m ∈ w.db.messages.rows, m.metadata.clientRequestId = some id.val →
    m.id ∈ turnsOf id w.log
  returned : ∀ s response, (calls s).clientRequestId = some id → w.session s = .ret response →
    ∃ message, turnsOf id w.log = [message] ∧ response.metadata.messageId = some message

/-- A request with the id has looked for a turn and has not come to its end. -/
def InFlight (id : ClientRequestId) (w : AssistantWorld S) (s : S) : Prop :=
  ∃ l ∈ (w.session s).head, l.request = some id ∧ l.action ≠ .looked

/-- When a request looks for a turn with the id, no other one is in flight, and if one has stored
anything then its turn is on the page that is searched. -/
def LooksUpAlone (id : ClientRequestId) (w : AssistantWorld S) (s : S) : Prop :=
  (w.session s).head = some ⟨some id, .looked⟩ →
    (∀ t, ¬ InFlight id w t) ∧
      (turnsOf id w.log ≠ [] ∨ proposalsOf id w.log ≠ [] →
        (w.db.findIdempotentResponse id.val).isSome)

theorem turnsOf_append (id : ClientRequestId) (log : List AssistantStatement)
    (l : AssistantStatement) : turnsOf id (log ++ [l]) = turnsOf id log ++ turnsOf id [l] :=
  List.filterMap_append

theorem proposalsOf_append (id : ClientRequestId) (log : List AssistantStatement)
    (l : AssistantStatement) :
    proposalsOf id (log ++ [l]) = proposalsOf id log ++ proposalsOf id [l] :=
  List.filterMap_append

/-- The statements of other requests store nothing for the id. -/
theorem stores_nothing {id : ClientRequestId} {l : AssistantStatement} (h : l.request ≠ some id) :
    turnsOf id [l] = [] ∧ proposalsOf id [l] = [] := by
  obtain ⟨request, action⟩ := l
  cases action <;> simp_all [turnsOf, proposalsOf]

end Law

/-! ## What a request does -/

/-- What is left of a request with the id that has found no turn: it stores a proposal only if it
has not stored one, and it ends with its turn. -/
def Flies (id : ClientRequestId) (message : Uuid) :
    Bool → AssistantProgram AssistantResponse → Prop
  | _, .ret _ => False
  | _, .raise _ => True
  | proposed, .select l next => l.request = some id ∧ l.action ≠ .looked ∧
      ∀ d, Flies id message proposed (next d)
  | proposed, .lock l _ next => l.request = some id ∧ l.action ≠ .looked ∧
      ∀ d, Flies id message proposed (next d)
  | proposed, .commit l _ next => l.request = some id ∧
      match l.action with
      | .turnSaved m => m = message ∧ ∃ response, next = .ret response ∧
          response.metadata.messageId = some message
      | .proposed _ => proposed = false ∧ Flies id message true next
      | .looked => False
      | _ => Flies id message proposed next

theorem flies_raise {id : ClientRequestId} {message : Uuid} {proposed : Bool} (e : CommandError) :
    Flies id message proposed (.raise e) := trivial

theorem flies_query {β : Type} {id : ClientRequestId} {message : Uuid} {proposed : Bool}
    {l : AssistantStatement} {f : AssistantDb → β} {k : β → AssistantProgram AssistantResponse} :
    Flies id message proposed (query l f >>= k) ↔ l.request = some id ∧ l.action ≠ .looked ∧
      ∀ d, Flies id message proposed (k (f d)) := Iff.rfl

theorem flies_orRaise {β : Type} {id : ClientRequestId} {message : Uuid} {proposed : Bool}
    {o : Option β} {e : CommandError} {k : β → AssistantProgram AssistantResponse}
    (h : ∀ b, Flies id message proposed (k b)) :
    Flies id message proposed (orRaise o e >>= k) := by
  cases o with
  | none => exact flies_raise e
  | some b => exact h b

/-- A commit of a request adds its own turn, and no other message with a request id. -/
def AddsTurn (request : Option ClientRequestId) (l : AssistantStatement) (d d' : AssistantDb) :
    Prop :=
  l.request = request ∧ ∀ m ∈ d'.messages.rows, m ∈ d.messages.rows ∨
    m.metadata.clientRequestId = none ∨
    (l.action = .turnSaved m.id ∧ m.metadata.clientRequestId = request.map (·.val) ∧
      m.metadata.messageId = some m.id)

namespace AssistantCall

variable {isAlnum : Char → Bool} {call : AssistantCall} {id : ClientRequestId}
  {conversation : AssistantConversation}

theorem flies_forEach {proposed : Bool} {k : AssistantProgram AssistantResponse}
    (hid : call.clientRequestId = some id) (hk : Flies id call.messageId proposed k)
    (tools : List String) :
    Flies id call.messageId proposed (forEach tools (fun tool =>
      write (call.statement (.actionSaved tool)) (call.opened isAlnum conversation)) >>=
        fun _ => k) := by
  induction tools with
  | nil => exact hk
  | cons tool tools ih => exact ⟨hid, ih⟩

theorem flies_answerTurn (hid : call.clientRequestId = some id) (proposal : Option Uuid)
    (proposed : Bool) :
    Flies id call.messageId proposed (call.answerTurn isAlnum conversation proposal) := by
  refine flies_forEach hid ?_ call.toolResults
  exact And.intro hid ⟨rfl, _, rfl, rfl⟩

theorem flies_proposePending (hid : call.clientRequestId = some id)
    (conversation : AssistantConversation) : Flies id call.messageId false
      (call.proposePending isAlnum conversation >>= call.answerTurn isAlnum conversation) := by
  unfold proposePending
  cases call.pending with
  | none => exact flies_answerTurn hid none false
  | some pending =>
      dsimp only
      rw [bind_assoc]
      refine flies_query.mpr ⟨hid, AssistantAction.noConfusion, fun d => ?_⟩
      generalize propose isAlnum d.runtime call.runtimeId call.projectId call.userId call.role
        pending.1 pending.2 call.proposedAt = proposed
      cases proposed with
      | ok proposal => exact And.intro hid (And.intro rfl (flies_answerTurn hid _ true))
      | error e =>
          cases e with
          | other => exact flies_raise _
          | valueError message => exact flies_answerTurn hid none false
          | permissionError reason => exact flies_answerTurn hid none false

theorem flies_newTurn (hid : call.clientRequestId = some id) :
    Flies id call.messageId false (call.newTurn isAlnum) := by
  unfold newTurn resolveConversation
  cases call.conversationId.filter (· ≠ "") with
  | none => exact flies_proposePending hid _
  | some text =>
      dsimp only
      cases uuid text with
      | none => exact flies_raise _
      | some conversationId =>
          dsimp only
          rw [bind_assoc]
          refine flies_query.mpr ⟨hid, AssistantAction.noConfusion, fun d => ?_⟩
          exact flies_orRaise (flies_proposePending hid)

/-! ### What the commits of a request store -/

theorem addsTurn_opened (action : AssistantAction) (d : AssistantDb) :
    AddsTurn call.clientRequestId (call.statement action) d
      (call.opened isAlnum conversation d) := by
  refine ⟨rfl, fun m hm => ?_⟩
  rcases mem_rows_insert hm with hm | rfl
  · exact .inl hm
  · exact .inr (.inl rfl)

theorem writes_newTurn : (call.newTurn isAlnum).Writes (AddsTurn call.clientRequestId) := by
  unfold newTurn
  refine Writes.bind ?_ fun conversation => Writes.bind ?_ fun proposal => ?_
  · unfold resolveConversation
    cases call.conversationId.filter (· ≠ "") with
    | none => exact writes_ret _
    | some text =>
        dsimp only
        cases uuid text with
        | none => exact writes_raise _
        | some conversationId => exact (writes_query _ _).bind fun _ => writes_orRaise
  · unfold proposePending
    cases call.pending with
    | none => exact writes_ret _
    | some pending =>
        refine (writes_query _ _).bind fun current => ?_
        generalize propose isAlnum current call.runtimeId call.projectId call.userId call.role
          pending.1 pending.2 call.proposedAt = proposed
        cases proposed with
        | ok proposal =>
            refine (writes_write.mpr fun d => ?_).bind fun _ => writes_ret _
            exact addsTurn_opened (.proposed call.proposalId) d
        | error e =>
            cases e with
            | other => exact writes_raise _
            | valueError message => exact writes_ret _
            | permissionError reason => exact writes_ret _
  · refine (writes_forEach fun tool => writes_write.mpr fun d => addsTurn_opened _ d).bind
      fun _ => (writes_write.mpr fun d => ⟨rfl, fun m hm => ?_⟩).bind fun _ => writes_ret _
    rcases mem_rows_insert hm with hm | rfl
    · rcases mem_rows_insert hm with hm | rfl
      · exact .inl hm
      · exact .inr (.inl rfl)
    · exact .inr (.inr ⟨rfl, rfl, rfl⟩)

theorem writes_chat : (call.chat isAlnum).Writes (AddsTurn call.clientRequestId) := by
  unfold chat
  split
  · exact writes_newTurn
  · refine (writes_query _ _).bind fun existing => ?_
    cases existing with
    | none => exact writes_newTurn
    | some message => exact writes_ret _

end AssistantCall

/-! ## Interleavings -/

section Runs

variable {S : Type} {isAlnum : Char → Bool} {calls : S → AssistantCall} {id : ClientRequestId}
  {w w' : AssistantWorld S} {s t : S} {proposed : Bool}

/-- A request that has not started, or that has come to its end with the turn or an error. -/
def Settled (isAlnum : Char → Bool) (calls : S → AssistantCall) (id : ClientRequestId)
    (w : AssistantWorld S) (s : S) : Prop :=
  w.session s = (calls s).chat isAlnum ∨
    ((w.session s).head = none ∧ ∀ response, w.session s = .ret response →
      ∃ message, turnsOf id w.log = [message] ∧ response.metadata.messageId = some message)

/-- A request that has found no turn, when there was nothing of the id. -/
structure Busy (calls : S → AssistantCall) (id : ClientRequestId) (w : AssistantWorld S) (s : S)
    (proposed : Bool) : Prop where
  request : (calls s).clientRequestId = some id
  flies : Flies id (calls s).messageId proposed (w.session s)
  turns : turnsOf id w.log = []
  proposals : proposed = false → proposalsOf id w.log = []

/-- The rows with the id are the stored turns. -/
def KeepsTurns (id : ClientRequestId) (d : AssistantDb) (log : List AssistantStatement) : Prop :=
  ∀ m ∈ d.messages.rows, m.metadata.clientRequestId = some id.val →
    m.id ∈ turnsOf id log ∧ m.metadata.messageId = some m.id

/-- The requests with the id are settled, but for one that may be busy. -/
structure OneBusy (isAlnum : Char → Bool) (calls : S → AssistantCall) (id : ClientRequestId)
    (w : AssistantWorld S) (busy : Option S) : Prop where
  settled : ∀ s, (calls s).clientRequestId = some id → s ∉ busy → Settled isAlnum calls id w s
  busy : ∀ s ∈ busy, ∃ proposed, Busy calls id w s proposed

structure AtMostOne (id : ClientRequestId) (w : AssistantWorld S) : Prop where
  turns : (turnsOf id w.log).length ≤ 1
  proposals : (proposalsOf id w.log).length ≤ 1
  stored : KeepsTurns id w.db w.log

theorem KeepsTurns.commit {request : Option ClientRequestId} {l : AssistantStatement}
    {d d' : AssistantDb} {log : List AssistantStatement} (h : KeepsTurns id d log)
    (hadds : AddsTurn request l d d') : KeepsTurns id d' (log ++ [l]) := by
  intro m hm hid
  rw [turnsOf_append]
  rcases hadds.2 m hm with hold | hnone | ⟨haction, hrequest, hmessage⟩
  · exact ⟨List.mem_append_left _ (h m hold hid).1, (h m hold hid).2⟩
  · rw [hid] at hnone
    cases hnone
  · refine ⟨List.mem_append_right _ ?_, hmessage⟩
    rw [hid] at hrequest
    obtain ⟨id', hid', hval⟩ := Option.map_eq_some_iff.mp hrequest.symm
    obtain rfl := ClientRequestId.ext hval
    have hstored : turnsOf id' [l] = [m.id] := by
      simp [turnsOf, haction, hadds.1, hid']
    rw [hstored]
    exact List.mem_singleton_self _

/-- What has not been committed to leaves the requests as they are. -/
theorem Settled.congr (h : Settled isAlnum calls id w t) (hsession : w'.session t = w.session t)
    (hturns : turnsOf id w'.log = turnsOf id w.log) : Settled isAlnum calls id w' t := by
  unfold Settled
  rw [hsession, hturns]
  exact h

theorem Busy.congr (h : Busy calls id w t proposed) (hsession : w'.session t = w.session t)
    (hturns : turnsOf id w'.log = turnsOf id w.log)
    (hproposals : proposalsOf id w'.log = proposalsOf id w.log) :
    Busy calls id w' t proposed := by
  refine ⟨h.request, ?_, hturns.trans h.turns, fun hp => hproposals.trans (h.proposals hp)⟩
  rw [hsession]
  exact h.flies

/-- Without a stored turn no request has returned, and a turn that is stored now makes no
difference to it. -/
theorem Settled.of_no_turn (h : Settled isAlnum calls id w t)
    (hturns : turnsOf id w.log = []) (hsession : w'.session t = w.session t) :
    Settled isAlnum calls id w' t := by
  unfold Settled
  rw [hsession]
  refine h.imp_right fun ⟨hended, hreturned⟩ => ⟨hended, fun response hresponse => ?_⟩
  obtain ⟨message, hmessage, -⟩ := hreturned response hresponse
  rw [hturns] at hmessage
  cases hmessage

theorem settled_raise {e : CommandError} (h : w.session s = .raise e) :
    Settled isAlnum calls id w s := by
  refine .inr ?_
  rw [h]
  exact ⟨rfl, fun _ hresponse => by cases hresponse⟩

/-- A busy request that is not in flight has failed. -/
theorem Busy.settled (h : Busy calls id w s proposed) (hflight : ¬ InFlight id w s) :
    Settled isAlnum calls id w s := by
  have hflies := h.flies
  unfold InFlight at hflight
  cases hp : w.session s with
  | raise e => exact settled_raise hp
  | ret response =>
      rw [hp] at hflies
      exact hflies.elim
  | select l next =>
      rw [hp] at hflies hflight
      exact absurd ⟨l, rfl, hflies.1, hflies.2.1⟩ hflight
  | lock l rows next =>
      rw [hp] at hflies hflight
      exact absurd ⟨l, rfl, hflies.1, hflies.2.1⟩ hflight
  | commit l write next =>
      rw [hp] at hflies hflight
      refine absurd ⟨l, rfl, hflies.1, fun hlooked => ?_⟩ hflight
      have hnever := hflies.2
      rw [hlooked] at hnever
      exact hnever

/-! ### Steps -/

theorem chat_of_request {call : AssistantCall} (hid : call.clientRequestId = some id) :
    call.chat isAlnum = .select ⟨some id, .looked⟩ fun d =>
      (d.findIdempotentResponse id.val).elim (call.newTurn isAlnum) fun m =>
        .ret ⟨m.content, m.metadata⟩ := by
  have hlooked : call.statement .looked = ⟨some id, .looked⟩ := by
    rw [AssistantCall.statement, hid]
  unfold AssistantCall.chat
  rw [hlooked]
  split
  · next hnone =>
      rw [hid] at hnone
      cases hnone
  · next id' hid' =>
      obtain rfl := Option.some.inj (hid.symm.trans hid')
      refine congrArg (SqlProgram.select _) (funext fun d => ?_)
      dsimp only
      cases d.findIdempotentResponse id.val with
      | none => rfl
      | some m => rfl

/-- The turn that is found is the stored one. -/
theorem AtMostOne.found (h : AtMostOne id w) {m : AssistantMessage}
    (hm : w.db.findIdempotentResponse id.val = some m) :
    turnsOf id w.log = [m.id] ∧ m.metadata.messageId = some m.id := by
  unfold AssistantDb.findIdempotentResponse at hm
  have hid : m.metadata.clientRequestId = some id.val := by
    have hget := List.find?_some hm
    rw [decide_eq_true_eq] at hget
    cases hc : m.metadata.clientRequestId with
    | some val => exact congrArg some (by simpa [hc] using hget)
    | none =>
        rw [hc, Option.getD_none] at hget
        have hlength := id.length_mem.1
        rw [← hget] at hlength
        exact absurd hlength (by decide)
  have hrow : m ∈ w.db.messages.rows := by
    have hpage := List.mem_of_mem_take (List.mem_of_find?_eq_some hm)
    exact List.mem_of_mem_filter ((List.mem_insertionSort _).mp hpage)
  obtain ⟨hmem, hmessage⟩ := h.stored m hrow hid
  refine ⟨?_, hmessage⟩
  obtain ⟨turn, hturn⟩ := List.length_eq_one_iff.mp
    (le_antisymm h.turns (List.length_pos_of_mem hmem))
  rw [hturn, List.mem_singleton] at hmem
  rw [hturn, hmem]

/-- What a request comes to when it looks for a turn. -/
theorem AtMostOne.look (h : AtMostOne id w) (hid : (calls s).clientRequestId = some id)
    (hfound : turnsOf id w.log ≠ [] ∨ proposalsOf id w.log ≠ [] →
      (w.db.findIdempotentResponse id.val).isSome)
    (hlog : w'.log = w.log) (hsession : w'.session s =
      (w.db.findIdempotentResponse id.val).elim ((calls s).newTurn isAlnum) fun m =>
        .ret ⟨m.content, m.metadata⟩) :
    Settled isAlnum calls id w' s ∨ Busy calls id w' s false := by
  cases hm : w.db.findIdempotentResponse id.val with
  | some m =>
      obtain ⟨hturns, hmessage⟩ := h.found hm
      rw [hm, Option.elim_some] at hsession
      refine .inl (.inr ?_)
      rw [hsession, hlog]
      refine ⟨rfl, fun response hresponse => ⟨m.id, hturns, ?_⟩⟩
      cases hresponse
      exact hmessage
  | none =>
      rw [hm, Option.elim_none] at hsession
      rw [hm, Option.isSome_none] at hfound
      have hnothing : ¬(turnsOf id w.log ≠ [] ∨ proposalsOf id w.log ≠ []) := fun hstored =>
        Bool.noConfusion (hfound hstored)
      rw [not_or, not_not, not_not] at hnothing
      refine .inr ⟨hid, ?_, hlog ▸ hnothing.1, fun _ => hlog ▸ hnothing.2⟩
      rw [hsession]
      exact AssistantCall.flies_newTurn hid

section Steps

variable [DecidableEq S] {busy : Option S}

/-- A step that stores nothing for the id and moves only `s`. -/
theorem OneBusy.move (h : OneBusy isAlnum calls id w busy)
    (hother : ∀ t, t ≠ s → w'.session t = w.session t)
    (hturns : turnsOf id w'.log = turnsOf id w.log)
    (hproposals : proposalsOf id w'.log = proposalsOf id w.log)
    (hsettled : (calls s).clientRequestId = some id → s ∉ busy → Settled isAlnum calls id w' s)
    (hbusy : s ∈ busy → ∃ proposed, Busy calls id w' s proposed) :
    OneBusy isAlnum calls id w' busy := by
  refine ⟨fun t ht hidle => ?_, fun t ht => ?_⟩
  · by_cases hts : t = s
    · subst hts
      exact hsettled ht hidle
    · exact (h.settled t ht hidle).congr (hother t hts) hturns
  · by_cases hts : t = s
    · subst hts
      exact hbusy ht
    · obtain ⟨proposed, hbusy⟩ := h.busy t ht
      exact ⟨proposed, hbusy.congr (hother t hts) hturns hproposals⟩

/-- Alone, a request that looks for a turn becomes settled or busy. -/
theorem OneBusy.look (h : OneBusy isAlnum calls id w busy) (hatMost : AtMostOne id w)
    (hid : (calls s).clientRequestId = some id) (hunstarted : w.session s = (calls s).chat isAlnum)
    (hok : LooksUpAlone id w s) (hstep : w.step s = some w') :
    ∃ busy', OneBusy isAlnum calls id w' busy' := by
  rw [chat_of_request hid] at hunstarted
  obtain ⟨hflight, hfound⟩ := hok (by rw [hunstarted]; rfl)
  have hsettled : ∀ t, (calls t).clientRequestId = some id → Settled isAlnum calls id w t := by
    intro t ht
    by_cases hbusy : t ∈ busy
    · obtain ⟨proposed, hbusy⟩ := h.busy t hbusy
      exact hbusy.settled (hflight t)
    · exact h.settled t ht hbusy
  have hworld := World.step_select hunstarted hstep
  have hself : w'.session s =
      (w.db.findIdempotentResponse id.val).elim ((calls s).newTurn isAlnum) fun m =>
        .ret ⟨m.content, m.metadata⟩ := by
    rw [hworld]
    exact Function.update_self s _ _
  have hlog : w'.log = w.log := by rw [hworld]
  have hothers : ∀ t, (calls t).clientRequestId = some id → t ≠ s →
      Settled isAlnum calls id w' t := fun t ht hts =>
    (hsettled t ht).congr (World.session_step_other hts hstep) (by rw [hlog])
  have hlooked : Settled isAlnum calls id w' s ∨ Busy calls id w' s false :=
    hatMost.look hid hfound hlog hself
  rcases hlooked with hdone | hbusy
  · refine ⟨none, fun t ht _ => ?_, fun t ht => by cases ht⟩
    by_cases hts : t = s
    · exact hts ▸ hdone
    · exact hothers t ht hts
  · refine ⟨some s, fun t ht hidle => ?_, fun t ht => ?_⟩
    · exact hothers t ht fun hts => hidle (hts ▸ rfl)
    · obtain rfl := Option.some.inj ht
      exact ⟨false, hbusy⟩

/-- A commit of the busy request that stores neither a proposal nor a turn. -/
theorem OneBusy.commit_quiet (h : OneBusy isAlnum calls id w (some s)) (hatMost : AtMostOne id w)
    (hbusy : Busy calls id w s proposed)
    (hflies : Flies id (calls s).messageId proposed (w'.session s))
    (hturns : turnsOf id w'.log = turnsOf id w.log)
    (hproposals : proposalsOf id w'.log = proposalsOf id w.log)
    (hstored : KeepsTurns id w'.db w'.log) (hother : ∀ t, t ≠ s → w'.session t = w.session t) :
    AtMostOne id w' ∧ OneBusy isAlnum calls id w' (some s) := by
  refine ⟨⟨hturns ▸ hatMost.turns, hproposals ▸ hatMost.proposals, hstored⟩, ?_⟩
  refine h.move hother hturns hproposals (fun _ hidle => absurd rfl hidle) fun _ => ?_
  exact ⟨proposed, hbusy.request, hflies, hturns.trans hbusy.turns,
    fun hfalse => hproposals.trans (hbusy.proposals hfalse)⟩

omit [DecidableEq S] in
theorem OneBusy.commit_proposal (h : OneBusy isAlnum calls id w (some s))
    (hbusy : Busy calls id w s proposed)
    (hflies : Flies id (calls s).messageId true (w'.session s)) {proposal : Uuid}
    (hturns : turnsOf id w'.log = []) (hproposals : proposalsOf id w'.log = [proposal])
    (hstored : KeepsTurns id w'.db w'.log) (hother : ∀ t, t ≠ s → w'.session t = w.session t) :
    AtMostOne id w' ∧ OneBusy isAlnum calls id w' (some s) := by
  refine ⟨⟨by simp [hturns], by simp [hproposals], hstored⟩, ?_, ?_⟩
  · intro t ht hidle
    have hts : t ≠ s := fun hts => hidle (hts ▸ rfl)
    exact (h.settled t ht hidle).of_no_turn hbusy.turns (hother t hts)
  · intro t ht
    obtain rfl := Option.some.inj ht
    exact ⟨true, hbusy.request, hflies, hturns, fun hfalse => Bool.noConfusion hfalse⟩

/-- The busy request is settled with its turn. -/
theorem OneBusy.commit_turn (h : OneBusy isAlnum calls id w (some s)) (hatMost : AtMostOne id w)
    (hbusy : Busy calls id w s proposed) {response : AssistantResponse}
    (hself : w'.session s = .ret response)
    (hresponse : response.metadata.messageId = some (calls s).messageId)
    (hturns : turnsOf id w'.log = [(calls s).messageId])
    (hproposals : proposalsOf id w'.log = proposalsOf id w.log)
    (hstored : KeepsTurns id w'.db w'.log) (hother : ∀ t, t ≠ s → w'.session t = w.session t) :
    AtMostOne id w' ∧ OneBusy isAlnum calls id w' none := by
  refine ⟨⟨by simp [hturns], hproposals ▸ hatMost.proposals, hstored⟩, ?_,
    fun t ht => by cases ht⟩
  intro t ht _
  by_cases hts : t = s
  · subst hts
    refine .inr ?_
    rw [hself]
    refine ⟨rfl, fun response' hreturned => ⟨_, hturns, ?_⟩⟩
    cases hreturned
    exact hresponse
  · refine (h.settled t ht fun hbusy => hts ?_).of_no_turn hbusy.turns (hother t hts)
    exact (Option.some.inj hbusy).symm

/-- A commit of the busy request stores its proposal, or its turn, with which it is settled. -/
theorem OneBusy.commit {l : AssistantStatement} {write : AssistantDb → AssistantDb}
    {next : AssistantProgram AssistantResponse} (h : OneBusy isAlnum calls id w (some s))
    (hatMost : AtMostOne id w) (hp : w.session s = .commit l write next)
    (hstored : KeepsTurns id w'.db w'.log) (hlog : w'.log = w.log ++ [l])
    (hself : w'.session s = next) (hother : ∀ t, t ≠ s → w'.session t = w.session t) :
    AtMostOne id w' ∧ ∃ busy', OneBusy isAlnum calls id w' busy' := by
  obtain ⟨proposed, hbusy⟩ := h.busy s rfl
  have hflies := hbusy.flies
  rw [hp] at hflies
  obtain ⟨request, action⟩ := l
  obtain ⟨hrequest, hflies⟩ := hflies
  obtain rfl : request = some id := hrequest
  have hturns : turnsOf id w'.log = turnsOf id [⟨some id, action⟩] := by
    rw [hlog, turnsOf_append, hbusy.turns, List.nil_append]
  have hproposals : proposalsOf id w'.log =
      proposalsOf id w.log ++ proposalsOf id [⟨some id, action⟩] := by
    rw [hlog, proposalsOf_append]
  have hquiet : turnsOf id [⟨some id, action⟩] = [] → proposalsOf id [⟨some id, action⟩] = [] →
      Flies id (calls s).messageId proposed next →
      AtMostOne id w' ∧ ∃ busy', OneBusy isAlnum calls id w' busy' := by
    intro hnoTurn hnoProposal hflies
    rw [hnoTurn, ← hbusy.turns] at hturns
    rw [hnoProposal, List.append_nil] at hproposals
    exact (h.commit_quiet hatMost hbusy (hself ▸ hflies) hturns hproposals hstored hother).imp_right
      fun hbusy' => ⟨some s, hbusy'⟩
  cases action with
  | looked => exact hflies.elim
  | conversationLooked => exact hquiet rfl rfl hflies
  | runtimeLooked => exact hquiet rfl rfl hflies
  | actionSaved tool => exact hquiet rfl rfl hflies
  | proposed proposal =>
      obtain ⟨hfirst, hflies⟩ := hflies
      have hstart : proposalsOf id w'.log = [proposal] := by
        rw [hproposals, hbusy.proposals hfirst]
        simp [proposalsOf]
      exact (h.commit_proposal hbusy (hself ▸ hflies) hturns hstart hstored hother).imp_right
        fun hbusy' => ⟨some s, hbusy'⟩
  | turnSaved message =>
      obtain ⟨rfl, response, rfl, hresponse⟩ := hflies
      have hturn : turnsOf id w'.log = [(calls s).messageId] := by
        rw [hturns]
        simp [turnsOf]
      exact (h.commit_turn hatMost hbusy hself hresponse hturn
        (hproposals.trans (List.append_nil _)) hstored hother).imp_right fun hdone => ⟨none, hdone⟩

omit [DecidableEq S] in
theorem AtMostOne.congr (h : AtMostOne id w) (hdb : w'.db = w.db) (hlog : w'.log = w.log) :
    AtMostOne id w' := by
  obtain ⟨hturns, hproposals, hstored⟩ := h
  refine ⟨?_, ?_, ?_⟩
  · rwa [hlog]
  · rwa [hlog]
  · rwa [hdb, hlog]

/-- A step of the busy request. -/
theorem OneBusy.step_busy (h : OneBusy isAlnum calls id w (some s)) (hatMost : AtMostOne id w)
    (hwrites : (w.session s).Writes (AddsTurn (calls s).clientRequestId))
    (hstep : w.step s = some w') :
    AtMostOne id w' ∧ ∃ busy', OneBusy isAlnum calls id w' busy' := by
  have hother : ∀ t, t ≠ s → w'.session t = w.session t :=
    fun t hts => World.session_step_other hts hstep
  obtain ⟨proposed, hbusy⟩ := h.busy s rfl
  have hflies := hbusy.flies
  -- a step without a commit
  have quiet : w'.db = w.db → w'.log = w.log →
      Flies id (calls s).messageId proposed (w'.session s) →
      AtMostOne id w' ∧ ∃ busy', OneBusy isAlnum calls id w' busy' := by
    intro hdb hlog hflies
    refine ⟨hatMost.congr hdb hlog, some s, h.move hother (by rw [hlog]) (by rw [hlog])
      (fun _ hidle => absurd rfl hidle) fun _ => ⟨proposed, hbusy.request, hflies, ?_, ?_⟩⟩
    · rw [hlog]
      exact hbusy.turns
    · rw [hlog]
      exact hbusy.proposals
  cases World.stepped hstep with
  | ret hp => exact quiet rfl rfl hflies
  | raise hp => exact quiet rfl rfl hflies
  | select hp =>
      rw [hp] at hflies
      refine quiet rfl rfl ?_
      simpa only [World.goto, Function.update_self] using hflies.2.2 w.db
  | lock hp hfree =>
      rw [hp] at hflies
      refine quiet rfl rfl ?_
      simpa only [World.goto, Function.update_self] using hflies.2.2 w.db
  | commit hp =>
      rw [hp] at hwrites
      exact h.commit hatMost hp (hatMost.stored.commit ((writes_commit.mp hwrites).1 w.db)) rfl
        (Function.update_self s _ _) hother

/-- A step of a request with another id or with none. -/
theorem OneBusy.step_other (h : OneBusy isAlnum calls id w busy) (hatMost : AtMostOne id w)
    (hid : (calls s).clientRequestId ≠ some id)
    (hwrites : (w.session s).Writes (AddsTurn (calls s).clientRequestId))
    (hstep : w.step s = some w') : AtMostOne id w' ∧ OneBusy isAlnum calls id w' busy := by
  have hother : ∀ t, t ≠ s → w'.session t = w.session t :=
    fun t hts => World.session_step_other hts hstep
  have moved : turnsOf id w'.log = turnsOf id w.log → proposalsOf id w'.log = proposalsOf id w.log →
      OneBusy isAlnum calls id w' busy := by
    intro hturns hproposals
    refine h.move hother hturns hproposals (fun hs => absurd hs hid) fun hs => ?_
    obtain ⟨_, hbusy⟩ := h.busy s hs
    exact absurd hbusy.request hid
  cases World.stepped hstep with
  | ret hp => exact ⟨hatMost.congr rfl rfl, moved rfl rfl⟩
  | raise hp => exact ⟨hatMost.congr rfl rfl, moved rfl rfl⟩
  | select hp => exact ⟨hatMost.congr rfl rfl, moved rfl rfl⟩
  | lock hp hfree => exact ⟨hatMost.congr rfl rfl, moved rfl rfl⟩
  | @commit l write next hp =>
      rw [hp] at hwrites
      have hadds := (writes_commit.mp hwrites).1 w.db
      have hnothing : turnsOf id [l] = [] ∧ proposalsOf id [l] = [] :=
        stores_nothing (hadds.1 ▸ hid)
      obtain ⟨hnoTurn, hnoProposal⟩ := hnothing
      have hturns : turnsOf id (w.log ++ [l]) = turnsOf id w.log := by
        rw [turnsOf_append, hnoTurn, List.append_nil]
      have hproposals : proposalsOf id (w.log ++ [l]) = proposalsOf id w.log := by
        rw [proposalsOf_append, hnoProposal, List.append_nil]
      exact ⟨⟨hturns ▸ hatMost.turns, hproposals ▸ hatMost.proposals, hatMost.stored.commit hadds⟩,
        moved hturns hproposals⟩

/-- The step lemma of the law. -/
theorem OneBusy.step (h : OneBusy isAlnum calls id w busy) (hatMost : AtMostOne id w)
    (hwrites : (w.session s).Writes (AddsTurn (calls s).clientRequestId))
    (hok : LooksUpAlone id w s) (hstep : w.step s = some w') :
    AtMostOne id w' ∧ ∃ busy', OneBusy isAlnum calls id w' busy' := by
  by_cases hid : (calls s).clientRequestId = some id
  · by_cases hbusy : s ∈ busy
    · obtain rfl : busy = some s := hbusy
      exact h.step_busy hatMost hwrites hstep
    · rcases h.settled s hid hbusy with hunstarted | ⟨hended, hreturned⟩
      · refine ⟨?_, h.look hatMost hid hunstarted hok hstep⟩
        rw [chat_of_request hid] at hunstarted
        have hworld := World.step_select hunstarted hstep
        exact hatMost.congr (by rw [hworld]) (by rw [hworld])
      · obtain rfl := World.step_of_head_none hended hstep
        exact ⟨hatMost.congr rfl rfl, busy, h.move (fun _ _ => rfl) rfl rfl
          (fun _ _ => .inr ⟨hended, hreturned⟩) fun hs => absurd hs hbusy⟩
  · obtain ⟨hatMost', h'⟩ := h.step_other hatMost hid hwrites hstep
    exact ⟨hatMost', busy, h'⟩

/-- A crash settles its request. -/
theorem OneBusy.crash (h : OneBusy isAlnum calls id w busy) (s : S) (e : CommandError) :
    ∃ busy', OneBusy isAlnum calls id (w.crash s e) busy' := by
  have hself : (w.crash s e).session s = .raise e := Function.update_self s _ _
  have hother : ∀ t, t ≠ s → (w.crash s e).session t = w.session t :=
    fun t hts => Function.update_of_ne hts _ _
  by_cases hbusy : s ∈ busy
  · obtain rfl : busy = some s := hbusy
    refine ⟨none, fun t ht _ => ?_, fun t ht => by cases ht⟩
    by_cases hts : t = s
    · subst hts
      exact settled_raise hself
    · refine (h.settled t ht fun hbusy => hts ?_).congr (hother t hts) rfl
      exact (Option.some.inj hbusy).symm
  · exact ⟨busy, h.move hother rfl rfl (fun _ _ => settled_raise hself)
      fun hs => absurd hs hbusy⟩

end Steps

/-! ### Runs -/

variable [DecidableEq S]

/-- As long as requests look for a turn alone and can find it, an id has one turn and one
proposal. -/
theorem answersOnce_run (isAlnum : Char → Bool) (d₀ : AssistantDb) (calls : S → AssistantCall)
    (id : ClientRequestId)
    (hfirst : ∀ m ∈ d₀.messages.rows, m.metadata.clientRequestId ≠ some id.val)
    {w : AssistantWorld S}
    (hrun : Run (LooksUpAlone id) (start d₀ fun s => (calls s).chat isAlnum) w) :
    AnswersOnce id calls w := by
  have hinv : AtMostOne id w ∧ ∃ busy, OneBusy isAlnum calls id w busy := by
    have hwrites : ∀ s, ((start d₀ fun s => (calls s).chat isAlnum :
        AssistantWorld S).session s).Writes (AddsTurn (calls s).clientRequestId) :=
      fun s => AssistantCall.writes_chat
    induction hrun with
    | start =>
        refine ⟨⟨Nat.zero_le 1, Nat.zero_le 1, fun m hm hid => absurd hid (hfirst m hm)⟩, none, ?_⟩
        exact ⟨fun s _ _ => .inl rfl, fun s hs => by cases hs⟩
    | step s hrun hok hstep ih =>
        obtain ⟨hatMost, busy, h⟩ := ih
        exact h.step hatMost (hrun.writes_session (hwrites s)) hok hstep
    | crash s e hrun ih =>
        obtain ⟨hatMost, busy, h⟩ := ih
        exact ⟨hatMost.congr rfl rfl, h.crash s e⟩
  obtain ⟨hatMost, busy, h⟩ := hinv
  refine ⟨hatMost.turns, hatMost.proposals, fun m hm hid => (hatMost.stored m hm hid).1, ?_⟩
  intro s response hid hreturned
  by_cases hbusy : s ∈ busy
  · obtain ⟨proposed, hbusy⟩ := h.busy s hbusy
    have hflies := hbusy.flies
    rw [hreturned] at hflies
    exact hflies.elim
  · rcases h.settled s hid hbusy with hunstarted | ⟨-, hturn⟩
    · rw [hreturned, chat_of_request hid] at hunstarted
      cases hunstarted
    · exact hturn response hreturned

end Runs

/-! ### A request and its retry -/

instance {S : Type} (id : ClientRequestId) (w : AssistantWorld S) (s : S) :
    Decidable (InFlight id w s) :=
  inferInstanceAs (Decidable (∃ l ∈ (w.session s).head, l.request = some id ∧ l.action ≠ .looked))

instance {S : Type} [Fintype S] (id : ClientRequestId) (w : AssistantWorld S) (s : S) :
    Decidable (LooksUpAlone id w s) :=
  inferInstanceAs (Decidable ((w.session s).head = some ⟨some id, .looked⟩ →
    (∀ t, ¬ InFlight id w t) ∧ (turnsOf id w.log ≠ [] ∨ proposalsOf id w.log ≠ [] →
      (w.db.findIdempotentResponse id.val).isSome)))

def retriedId : ClientRequestId := ⟨"request-1", by decide⟩

/-- The request, and its retry with new rows. -/
def retriedCall (retry : Bool) : AssistantCall where
  runtimeId := ⟨"r"⟩
  projectId := ⟨"p"⟩
  userId := ⟨"u"⟩
  role := .developer
  message := "status"
  conversationId := none
  clientRequestId := some retriedId
  pending := none
  toolResults := []
  answer := "healthy"
  newConversationId := if retry then ⟨"c2"⟩ else ⟨"c1"⟩
  userMessageId := if retry then ⟨"q2"⟩ else ⟨"q1"⟩
  proposalId := if retry then ⟨"a2"⟩ else ⟨"a1"⟩
  messageId := if retry then ⟨"m2"⟩ else ⟨"m1"⟩
  proposedAt := 0
  askedAt := 0
  answeredAt := 1

def retriedWorld : AssistantWorld Bool :=
  start ⟨none, default, default, default⟩ fun retry =>
    (retriedCall retry).chat Char.isAlphanum

theorem answersOnce_run_retry :
    AnswersOnce retriedId retriedCall (retriedWorld.play [false, false, true]) :=
  answersOnce_run Char.isAlphanum ⟨none, default, default, default⟩ retriedCall retriedId
    (fun _ hm => absurd hm List.not_mem_nil) (Run.start.play (by decide +kernel))

/-- Two requests with one id that look for a turn before either has stored one. -/
theorem answersOnce_fails_for_overlap :
    ¬ ∀ w, World.Reachable retriedWorld w → AnswersOnce retriedId retriedCall w := by
  intro h
  have hturns := (h _ (retriedWorld.play_reachable [false, true, false, true])).turns
  revert hturns
  decide +kernel

end Zyntry
