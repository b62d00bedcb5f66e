import Zyntry.JsonEquality
import Zyntry.MemoryRetention

/-!
# What a fresh assistant's memory reloads

An instance of the assistant's memory keeps its messages, actions and recommendations, and
saves each of them as a record. A fresh instance asks for the newest 150 records of the project
and takes from these the records of its runtime, user and conversation.
-/

namespace Zyntry

open Python RecentItems

structure HistoryMessage where
  role : String
  content : String
  timestamp : ℤ
deriving DecidableEq, Repr

/-- What an instance keeps; its conversation is whatever JSON a record has for it. -/
structure KeptMemory where
  conversation : Option Json := none
  chatHistory : List HistoryMessage := []
  previousActions : List Fields := []
  recommendations : List Fields := []

structure ContextSummary where
  chatTurns : ℕ
  recentActions : List (Option Json)
  pendingRecommendations : ℕ
  lastInteraction : Option String

section

variable (isAlnum : Char → Bool) (isoformat : ℤ → String)

/-- `get_context_summary`. -/
def KeptMemory.contextSummary (m : KeptMemory) : ContextSummary where
  chatTurns := m.chatHistory.length
  recentActions := (lastN 5 m.previousActions).map (Json.lookup "action")
  pendingRecommendations := ((lastN 5 m.recommendations).filter fun recommendation =>
    !(Json.lookup "applied" recommendation).any Json.truthy).length
  lastInteraction := m.chatHistory.getLast?.map fun message => isoformat message.timestamp

/-! ## Loading -/

/-- A record of the runtime and the user. -/
def AssistantMemory.labels (a : AssistantMemory) (r : MemoryRecord) : Bool :=
  (Json.lookup "runtime_id" r.value).any (·.equals (.str a.runtimeId)) &&
    (Json.lookup "user_id" r.value).any (·.equals (.str a.userId))

def AssistantMemory.inConversation (a : AssistantMemory) (conversation : Json)
    (r : MemoryRecord) : Bool :=
  a.labels r && ((Json.lookup "conversation_id" r.value).getD .null).equals conversation

/-- The conversation that is loaded: the given one, or that of the latest record with one. -/
def AssistantMemory.loadedConversation (a : AssistantMemory) (records : List MemoryRecord) :
    Option Json :=
  match a.conversationId with
  | some conversationId => some (.str conversationId)
  | none =>
      (records.find? fun r =>
        a.labels r && (Json.lookup "conversation_id" r.value).any Json.truthy).bind fun r =>
          Json.lookup "conversation_id" r.value

def loadedMessage (r : MemoryRecord) : HistoryMessage where
  role := if r.key = "" then "user" else r.key
  content := r.content.getD ""
  timestamp := r.createdAt

def loadedEntry (r : MemoryRecord) : Fields :=
  [("key", .str r.key), ("value", .obj r.value), ("timestamp", .str (isoformat r.createdAt))]

def ofType (memoryType : String) (r : MemoryRecord) : Bool := r.memoryType = memoryType

/-- `load`. -/
def AssistantMemory.load (a : AssistantMemory) (Q : MemoryQueries) (runtimes : Runtimes)
    (rows : List MemoryRecord) : Except MemoryError KeptMemory := do
  let projectId ← a.projectId runtimes
  let records := listByScope Q projectId none none (100 + 50) rows
  match a.loadedConversation records with
  | none => return {}
  | some conversation =>
      let kept := records.reverse.filter (a.inConversation conversation)
      return {
        conversation := some conversation
        chatHistory := lastN 100 ((kept.filter (ofType "chat")).map loadedMessage)
        previousActions := lastN 50 ((kept.filter (ofType "action")).map (loadedEntry isoformat))
        recommendations :=
          lastN 50 ((kept.filter (ofType "recommendation")).map (loadedEntry isoformat)) }

/-! ## Saving -/

inductive SaveCall where
  | chatMessage (role content : String)
  | action (actionName : String) (result : Json)
  | recommendation (category title description : String) (actions : List String)

/-- The type of a call's record. -/
def SaveCall.memoryType : SaveCall → String
  | chatMessage .. => "chat"
  | action .. => "action"
  | recommendation .. => "recommendation"

/-- What a save keeps in memory. -/
def SaveCall.keep (now : ℤ) (m : KeptMemory) : SaveCall → KeptMemory
  | chatMessage role content =>
      let message := { role, content := redactText isAlnum content, timestamp := now }
      { m with chatHistory := lastN 100 (m.chatHistory ++ [message]) }
  | action actionName result =>
      let entry : Fields :=
        [("action", .str actionName), ("result", redactSensitive isAlnum result),
         ("timestamp", .str (isoformat now))]
      { m with previousActions := lastN 50 (m.previousActions ++ [entry]) }
  | recommendation category title description actions =>
      let entry : Fields :=
        [("category", .str category), ("title", .str title), ("description", .str description),
         ("actions", .arr (actions.map Json.str)), ("timestamp", .str (isoformat now)),
         ("applied", .bool false)]
      { m with recommendations := lastN 50 (m.recommendations ++ [entry]) }

def SaveCall.write (a : AssistantMemory) (runtimes : Runtimes) (now : ℤ) (id : ℕ) :
    SaveCall → Except MemoryError MemoryWrite
  | chatMessage role content =>
      saveChatMessage isAlnum isoformat a runtimes now id role content
  | action actionName result => saveAction isAlnum isoformat a runtimes now id actionName result
  | recommendation category title description actions =>
      saveRecommendation isoformat a runtimes now id category title description actions

end

/-! ## Runs -/

/-- An instance with a conversation, on a runtime of a project. -/
structure AssistantSession where
  memory : AssistantMemory
  conversationId : String
  conversation : memory.conversationId = some conversationId
  runtimes : Runtimes
  projectId : String
  attached : memory.projectId runtimes = .ok projectId

/-- The records that the session's saves make. -/
def AssistantSession.owns (a : AssistantSession) (r : MemoryRecord) : Bool :=
  decide (r.projectId = a.projectId) && a.memory.inConversation (.str a.conversationId) r &&
    ["chat", "action", "recommendation"].contains r.memoryType

/-- A record of another user, conversation or writer. -/
structure OtherRecord (a : AssistantSession) where
  record : MemoryRecord
  other : a.owns record = false

/-- A saved record, and the time that its instance remembers for it. -/
structure SavedRecord where
  record : MemoryRecord
  timestamp : ℤ

def SavedRecord.message (save : SavedRecord) : HistoryMessage where
  role := save.record.key
  content := save.record.content.getD ""
  timestamp := save.timestamp

/-- The table's rows, what the instance keeps, and what it has saved so far. -/
structure AssistantRun where
  clock : ℤ
  rows : List MemoryRecord := []
  kept : KeptMemory
  saves : List SavedRecord := []

/-- A save takes its time after a pause and its record's time after a delay. -/
inductive AssistantStep (a : AssistantSession) where
  | save (call : SaveCall) (pause delay id : ℕ)
  | other (record : OtherRecord a)

section

variable (isAlnum : Char → Bool) (isoformat : ℤ → String) (Q : MemoryQueries)
  (a : AssistantSession)

def assistantStep (s : AssistantRun) : AssistantStep a → AssistantRun
  | .save call pause delay id =>
      let now := s.clock + 1 + pause
      let kept := call.keep isAlnum isoformat now s.kept
      match call.write isAlnum isoformat a.memory a.runtimes now id with
      | .ok (.create record) =>
          let stored := { record with createdAt := now + delay }
          { clock := now + delay, rows := s.rows ++ [stored], kept,
            saves := s.saves ++ [⟨stored, now⟩] }
      | _ => { s with kept }
  | .other record => { s with rows := s.rows ++ [record.record] }

def assistantRun (start : ℤ) (steps : List (AssistantStep a)) : AssistantRun :=
  steps.foldl (assistantStep isAlnum isoformat a)
    { clock := start, kept := { conversation := some (.str a.conversationId) } }

/-- A fresh instance has the same history and gives the same summary. -/
def AssistantRun.Reloads (s : AssistantRun) : Prop :=
  ∃ loaded, a.memory.load isoformat Q a.runtimes s.rows = .ok loaded ∧
    loaded.chatHistory = s.kept.chatHistory ∧
    loaded.contextSummary isoformat = s.kept.contextSummary isoformat

def savesOf (memoryType : String) (saves : List SavedRecord) : List SavedRecord :=
  saves.filter fun save => ofType memoryType save.record

/-- The newest records of the project. -/
def AssistantRun.window (s : AssistantRun) : List MemoryRecord :=
  listByScope Q a.projectId none none (100 + 50) s.rows

/-- No action was saved, the last messages have a role and the time of their record, and the
newest records of the project have enough of the session's messages and recommendations. -/
structure AssistantRun.Reloadable (s : AssistantRun) : Prop where
  actions : savesOf "action" s.saves = []
  messages : ∀ save ∈ lastN 100 (savesOf "chat" s.saves),
    save.record.key ≠ "" ∧ save.record.createdAt = save.timestamp
  enoughMessages : min 100 (savesOf "chat" s.saves).length ≤
    ((s.window Q a).filter fun r => a.owns r && ofType "chat" r).length
  enoughRecommendations : min 5 (savesOf "recommendation" s.saves).length ≤
    ((s.window Q a).filter fun r => a.owns r && ofType "recommendation" r).length

end

/-! ## What a save records -/

variable {isAlnum : Char → Bool} {isoformat : ℤ → String} {Q : MemoryQueries}
  {a : AssistantSession} {s : AssistantRun}

theorem any_equals_str {v : Option Json} {text : String} :
    v.any (·.equals (.str text)) = true ↔ v = some (.str text) := by
  cases v <;> simp

theorem AssistantSession.owns_iff {r : MemoryRecord} :
    a.owns r = true ↔ r.projectId = a.projectId ∧
      Json.lookup "runtime_id" r.value = some (.str a.memory.runtimeId) ∧
      Json.lookup "user_id" r.value = some (.str a.memory.userId) ∧
      Json.lookup "conversation_id" r.value = some (.str a.conversationId) ∧
      r.memoryType ∈ ["chat", "action", "recommendation"] := by
  have hconversation : (Json.lookup "conversation_id" r.value).getD .null =
      .str a.conversationId ↔
        Json.lookup "conversation_id" r.value = some (.str a.conversationId) := by
    cases Json.lookup "conversation_id" r.value <;> simp
  simp only [AssistantSession.owns, AssistantMemory.inConversation, AssistantMemory.labels,
    Bool.and_eq_true, decide_eq_true_eq, any_equals_str,
    Json.equals_str, hconversation, List.contains_iff_mem, and_assoc]

/-- Each of the three savers creates a record that the session owns. -/
theorem AssistantSession.exists_create (a : AssistantSession) (now : ℤ) (id : ℕ)
    (memoryType : String) (htype : memoryType ∈ ["chat", "action", "recommendation"])
    (key : String) (content : Option String) (value : Fields) :
    ∃ record, a.memory.create a.runtimes now id memoryType key content value =
        .ok (.create record) ∧
      (∀ createdAt, a.owns { record with createdAt } = true) ∧
      record.memoryType = memoryType ∧ record.key = key ∧ record.content = content := by
  unfold AssistantMemory.create
  rw [a.attached]
  refine ⟨_, rfl, fun createdAt => AssistantSession.owns_iff.mpr ⟨rfl, ?_, ?_, ?_, htype⟩,
    rfl, rfl, rfl⟩
  · simp [Json.lookup]
  · simp [Json.lookup]
  · simp [Json.lookup, a.conversation]

theorem SaveCall.exists_write (call : SaveCall) (a : AssistantSession) (now : ℤ) (id : ℕ) :
    ∃ record, call.write isAlnum isoformat a.memory a.runtimes now id = .ok (.create record) ∧
      (∀ createdAt, a.owns { record with createdAt } = true) ∧
      record.memoryType = call.memoryType ∧
      ∀ role content, call = .chatMessage role content →
        record.key = role ∧ record.content = some (redactText isAlnum content) := by
  cases call with
  | chatMessage role content =>
    obtain ⟨record, hwrite, howns, htype, hkey, hcontent⟩ :=
      a.exists_create now id "chat" (by decide) role (redactText isAlnum content)
        [("timestamp", .str (isoformat now))]
    refine ⟨record, hwrite, howns, htype, ?_⟩
    rintro role content ⟨⟩
    exact ⟨hkey, hcontent⟩
  | action actionName result =>
    obtain ⟨record, hwrite, howns, htype, -⟩ :=
      a.exists_create now id "action" (by decide) actionName none
        [("result", redactSensitive isAlnum result), ("timestamp", .str (isoformat now))]
    exact ⟨record, hwrite, howns, htype, nofun⟩
  | recommendation category title description actions =>
    obtain ⟨record, hwrite, howns, htype, -⟩ :=
      a.exists_create now id "recommendation" (by decide) category title
        [("description", .str description), ("actions", .arr (actions.map Json.str)),
         ("timestamp", .str (isoformat now)), ("applied", .bool false)]
    exact ⟨record, hwrite, howns, htype, nofun⟩

/-! ## Invariant -/

/-- The kept entries are the last of as many as were saved, and each has the property. -/
def KeptAs (cap : ℕ) (kept : List Fields) (count : ℕ) (P : Fields → Prop) : Prop :=
  ∃ entries, kept = lastN cap entries ∧ entries.length = count ∧ ∀ entry ∈ entries, P entry

theorem KeptAs.append {cap count : ℕ} {kept : List Fields} {P : Fields → Prop}
    (h : KeptAs cap kept count P) {entry : Fields} (hentry : P entry) :
    KeptAs cap (lastN cap (kept ++ [entry])) (count + 1) P := by
  obtain ⟨entries, rfl, rfl, hall⟩ := h
  refine ⟨entries ++ [entry], lastN_append_singleton cap entries entry, List.length_append, ?_⟩
  intro e he
  rcases List.mem_append.mp he with he | he
  · exact hall e he
  · rwa [List.mem_singleton.mp he]

/-- The table has the saves in the order of their times, and the instance keeps the last of
them. -/
structure AssistantRun.Recorded (a : AssistantSession) (s : AssistantRun) : Prop where
  owned : s.rows.filter a.owns = s.saves.map SavedRecord.record
  ascending : (s.saves.map SavedRecord.record).Pairwise fun r r' => r.createdAt < r'.createdAt
  past : ∀ save ∈ s.saves, save.record.createdAt ≤ s.clock
  history : s.kept.chatHistory = lastN 100 ((savesOf "chat" s.saves).map SavedRecord.message)
  actions : KeptAs 50 s.kept.previousActions (savesOf "action" s.saves).length fun entry =>
    (Json.lookup "action" entry).isSome
  recommendations : KeptAs 50 s.kept.recommendations (savesOf "recommendation" s.saves).length
    fun entry => Json.lookup "applied" entry = some (.bool false)

theorem savesOf_append (memoryType : String) (saves : List SavedRecord) (save : SavedRecord) :
    savesOf memoryType (saves ++ [save]) = savesOf memoryType saves ++
      if save.record.memoryType = memoryType then [save] else [] := by
  unfold savesOf
  rw [List.filter_append]
  congr 1
  by_cases htype : save.record.memoryType = memoryType
  · simp [ofType, htype]
  · simp [ofType, htype]

theorem AssistantRun.Recorded.other (hs : s.Recorded a) (record : OtherRecord a) :
    (assistantStep isAlnum isoformat a s (.other record)).Recorded a := by
  refine { hs with owned := ?_ }
  change (s.rows ++ [record.record]).filter a.owns = _
  rw [List.filter_append, hs.owned, List.filter_cons_of_neg (by simp [record.other]),
    List.filter_nil, List.append_nil]
  rfl

/-- What a save does: the record, with the time of its row, is stored and remembered. -/
theorem assistantStep_save (isAlnum : Char → Bool) (isoformat : ℤ → String) (a : AssistantSession)
    (s : AssistantRun) (call : SaveCall) (pause delay id : ℕ) :
    ∃ record, a.owns record = true ∧ record.createdAt = s.clock + 1 + pause + delay ∧
      record.memoryType = call.memoryType ∧
      (∀ role content, call = .chatMessage role content →
        record.key = role ∧ record.content = some (redactText isAlnum content)) ∧
      assistantStep isAlnum isoformat a s (.save call pause delay id) =
        { clock := s.clock + 1 + pause + delay
          rows := s.rows ++ [record]
          kept := call.keep isAlnum isoformat (s.clock + 1 + pause) s.kept
          saves := s.saves ++ [⟨record, s.clock + 1 + pause⟩] } := by
  obtain ⟨record, hwrite, howns, htype, hchat⟩ :=
    @SaveCall.exists_write isAlnum isoformat call a (s.clock + 1 + pause) id
  refine ⟨{ record with createdAt := s.clock + 1 + pause + delay }, howns _, rfl, htype, hchat, ?_⟩
  simp only [assistantStep, hwrite]

theorem AssistantRun.Recorded.save (hs : s.Recorded a) (call : SaveCall) (pause delay id : ℕ) :
    (assistantStep isAlnum isoformat a s (.save call pause delay id)).Recorded a := by
  obtain ⟨record, howns, hcreated, htype, hchat, hstep⟩ :=
    assistantStep_save isAlnum isoformat a s call pause delay id
  rw [hstep]
  constructor
  · dsimp only
    rw [List.filter_append, hs.owned, List.map_append, List.filter_cons_of_pos howns]
    rfl
  · dsimp only
    rw [List.map_append, List.pairwise_append]
    refine ⟨hs.ascending, List.pairwise_singleton _ _, ?_⟩
    intro r hr r' hr'
    obtain ⟨save, hsave, rfl⟩ := List.mem_map.mp hr
    rw [List.map_singleton, List.mem_singleton] at hr'
    rw [hr', hcreated]
    have hpast := hs.past save hsave
    omega
  · dsimp only
    intro save hsave
    rcases List.mem_append.mp hsave with hsave | hsave
    · have hpast := hs.past save hsave
      omega
    · rw [List.mem_singleton.mp hsave]
      exact hcreated.le
  · simp only [savesOf_append, htype]
    cases call with
    | chatMessage role content =>
      obtain ⟨hkey, hcontent⟩ := hchat role content rfl
      simp only [SaveCall.keep, SaveCall.memoryType, if_true, List.map_append, List.map_singleton]
      rw [hs.history, lastN_append_singleton]
      simp only [SavedRecord.message, hkey, hcontent, Option.getD_some]
    | action actionName result => simpa [SaveCall.keep, SaveCall.memoryType] using hs.history
    | recommendation category title description actions =>
      simpa [SaveCall.keep, SaveCall.memoryType] using hs.history
  · simp only [savesOf_append, htype]
    cases call with
    | chatMessage role content => simpa [SaveCall.keep, SaveCall.memoryType] using hs.actions
    | action actionName result =>
      simpa [SaveCall.keep, SaveCall.memoryType] using hs.actions.append rfl
    | recommendation category title description actions =>
      simpa [SaveCall.keep, SaveCall.memoryType] using hs.actions
  · simp only [savesOf_append, htype]
    cases call with
    | chatMessage role content =>
      simpa [SaveCall.keep, SaveCall.memoryType] using hs.recommendations
    | action actionName result =>
      simpa [SaveCall.keep, SaveCall.memoryType] using hs.recommendations
    | recommendation category title description actions =>
      simpa [SaveCall.keep, SaveCall.memoryType] using hs.recommendations.append rfl

theorem AssistantRun.recorded (isAlnum : Char → Bool) (isoformat : ℤ → String)
    (a : AssistantSession) (start : ℤ) (steps : List (AssistantStep a)) :
    (assistantRun isAlnum isoformat a start steps).Recorded a := by
  unfold assistantRun
  have hstart : AssistantRun.Recorded a
      { clock := start, kept := { conversation := some (.str a.conversationId) } } := by
    refine ⟨rfl, .nil, fun _ hsave => absurd hsave List.not_mem_nil, rfl, ?_, ?_⟩
    · exact ⟨[], rfl, rfl, nofun⟩
    · exact ⟨[], rfl, rfl, nofun⟩
  generalize AssistantRun.mk start [] { conversation := some (.str a.conversationId) } [] = s
    at hstart ⊢
  induction steps generalizing s with
  | nil => exact hstart
  | cons step steps ih =>
    apply ih
    cases step with
    | save call pause delay id => exact hstart.save call pause delay id
    | other record => exact hstart.other record

/-! ## What is loaded -/

theorem AssistantRun.window_eq : s.window Q a = newest MemoryRecord.createdAt (100 + 50)
    (Q.arrange (s.rows.filter fun r => r.projectId = a.projectId)) := by
  unfold AssistantRun.window listByScope newestRows
  congr 3
  funext r
  simp

/-- The session's records of a type among the newest of the project. -/
def AssistantRun.loadedOf (Q : MemoryQueries) (a : AssistantSession) (memoryType : String)
    (s : AssistantRun) : List MemoryRecord :=
  (s.window Q a).reverse.filter fun r => a.owns r && ofType memoryType r

/-- They are the last of its saves of that type. -/
theorem AssistantRun.Recorded.loadedOf_suffix (hs : s.Recorded a) (memoryType : String) :
    s.loadedOf Q a memoryType <:+ (savesOf memoryType s.saves).map SavedRecord.record := by
  have hperm : ((Q.arrange (s.rows.filter fun r => r.projectId = a.projectId)).filter
      a.owns).Perm (s.saves.map SavedRecord.record) := by
    refine ((Q.perm _).filter a.owns).trans (.of_eq ?_)
    rw [List.filter_filter, ← hs.owned]
    apply List.filter_congr
    intro r _
    cases howns : a.owns r with
    | false => rfl
    | true => simp [(AssistantSession.owns_iff.mp howns).1]
  have hsuffix := (newest_filter_suffix hperm hs.ascending (100 + 50)).filter (ofType memoryType)
  rw [List.filter_filter, List.filter_map, ← AssistantRun.window_eq] at hsuffix
  unfold AssistantRun.loadedOf
  simp only [Bool.and_comm (a.owns _)]
  exact hsuffix

theorem AssistantRun.kept_eq {memoryType : String}
    (htype : memoryType ∈ ["chat", "action", "recommendation"]) :
    ((s.window Q a).reverse.filter (a.memory.inConversation (.str a.conversationId))).filter
      (ofType memoryType) = s.loadedOf Q a memoryType := by
  unfold AssistantRun.loadedOf
  rw [List.filter_filter]
  apply List.filter_congr
  intro r hr
  have hproject : r.projectId = a.projectId := by
    rw [List.mem_reverse, AssistantRun.window_eq] at hr
    have hrow := (Q.perm _).subset (mem_of_mem_newest hr)
    exact of_decide_eq_true (List.mem_filter.mp hrow).2
  cases hof : ofType memoryType r with
  | false => simp
  | true =>
    have hmem : r.memoryType ∈ ["chat", "action", "recommendation"] := by
      rwa [of_decide_eq_true hof]
    rw [AssistantSession.owns, decide_eq_true hproject, List.contains_iff_mem.mpr hmem]
    simp

theorem AssistantSession.load_eq (isoformat : ℤ → String) (Q : MemoryQueries)
    (a : AssistantSession) (s : AssistantRun) :
    a.memory.load isoformat Q a.runtimes s.rows = .ok {
      conversation := some (.str a.conversationId)
      chatHistory := lastN 100 ((s.loadedOf Q a "chat").map loadedMessage)
      previousActions := lastN 50 ((s.loadedOf Q a "action").map (loadedEntry isoformat))
      recommendations :=
        lastN 50 ((s.loadedOf Q a "recommendation").map (loadedEntry isoformat)) } := by
  rw [← AssistantRun.kept_eq (by decide), ← AssistantRun.kept_eq (by decide),
    ← AssistantRun.kept_eq (by decide)]
  unfold AssistantMemory.load AssistantMemory.loadedConversation
  rw [a.attached, a.conversation]
  rfl

/-! ## When it is what was saved -/

theorem loadedMessage_eq_iff {save : SavedRecord} :
    loadedMessage save.record = save.message ↔
      save.record.key ≠ "" ∧ save.record.createdAt = save.timestamp := by
  simp only [loadedMessage, SavedRecord.message, HistoryMessage.mk.injEq, true_and]
  refine and_congr_left fun _ => ?_
  split_ifs with hkey
  · simp [hkey]
  · simp [hkey]

theorem histories_eq_iff {loaded : List MemoryRecord} {saves : List SavedRecord}
    (hsuffix : loaded <:+ saves.map SavedRecord.record) :
    lastN 100 (loaded.map loadedMessage) = lastN 100 (saves.map SavedRecord.message) ↔
      (∀ save ∈ lastN 100 saves,
        save.record.key ≠ "" ∧ save.record.createdAt = save.timestamp) ∧
      min 100 saves.length ≤ loaded.length := by
  have hmessages (henough : min 100 saves.length ≤ loaded.length) :
      lastN 100 (loaded.map loadedMessage) = lastN 100 (saves.map SavedRecord.message) ↔
        ∀ save ∈ lastN 100 saves,
          save.record.key ≠ "" ∧ save.record.createdAt = save.timestamp := by
    have hlast : lastN 100 loaded = (lastN 100 saves).map SavedRecord.record := by
      rw [lastN_eq_of_suffix hsuffix (by rwa [List.length_map]), lastN_map]
    rw [lastN_map, hlast, lastN_map, List.map_map, List.map_inj_left]
    exact forall₂_congr fun save _ => loadedMessage_eq_iff
  constructor
  · intro hsame
    have henough : min 100 saves.length ≤ loaded.length := by
      have hlength := congrArg List.length hsame
      simp only [length_lastN, List.length_map] at hlength
      omega
    exact ⟨(hmessages henough).mp hsame, henough⟩
  · exact fun ⟨hall, henough⟩ => (hmessages henough).mpr hall

theorem recentActions_eq_iff (isoformat : ℤ → String) {kept : List Fields} {count : ℕ}
    {loaded : List MemoryRecord}
    (hkept : KeptAs 50 kept count fun entry => (Json.lookup "action" entry).isSome)
    (hlength : loaded.length ≤ count) :
    (lastN 5 (lastN 50 (loaded.map (loadedEntry isoformat)))).map (Json.lookup "action") =
        (lastN 5 kept).map (Json.lookup "action") ↔ count = 0 := by
  obtain ⟨entries, rfl, rfl, hall⟩ := hkept
  constructor
  · intro hsame
    by_contra hne
    have hsome : (lastN 5 (lastN 50 entries)) ≠ [] := by
      rw [Ne, lastN_eq_nil_iff (by decide), lastN_eq_nil_iff (by decide)]
      exact fun h => hne (List.length_eq_zero_iff.mpr h)
    obtain ⟨entry, hentry⟩ := List.exists_mem_of_ne_nil _ hsome
    have hmem := List.mem_map_of_mem (f := Json.lookup "action") hentry
    rw [← hsame] at hmem
    obtain ⟨entry', hentry', hlookup⟩ := List.mem_map.mp hmem
    obtain ⟨r, -, rfl⟩ := List.mem_map.mp (mem_of_mem_lastN (mem_of_mem_lastN hentry'))
    have hpresent : (Json.lookup "action" entry).isSome = true :=
      hall entry (mem_of_mem_lastN (mem_of_mem_lastN hentry))
    rw [← hlookup] at hpresent
    cases hpresent
  · intro hzero
    rw [List.length_eq_zero_iff.mp hzero, List.length_eq_zero_iff.mp (by omega : loaded.length = 0)]
    rfl

theorem pendingRecommendations_eq_iff (isoformat : ℤ → String) {kept : List Fields}
    {count : ℕ} {loaded : List MemoryRecord}
    (hkept : KeptAs 50 kept count fun entry =>
      Json.lookup "applied" entry = some (.bool false)) (hlength : loaded.length ≤ count) :
    ((lastN 5 (lastN 50 (loaded.map (loadedEntry isoformat)))).filter fun entry =>
        !(Json.lookup "applied" entry).any Json.truthy).length =
      ((lastN 5 kept).filter fun entry =>
        !(Json.lookup "applied" entry).any Json.truthy).length ↔
      min 5 count ≤ loaded.length := by
  obtain ⟨entries, rfl, rfl, hall⟩ := hkept
  rw [List.filter_eq_self.mpr, List.filter_eq_self.mpr]
  · simp only [length_lastN, List.length_map]
    omega
  · intro entry hentry
    rw [hall entry (mem_of_mem_lastN (mem_of_mem_lastN hentry))]
    rfl
  · intro entry hentry
    obtain ⟨r, -, rfl⟩ := List.mem_map.mp (mem_of_mem_lastN (mem_of_mem_lastN hentry))
    rfl

theorem AssistantRun.Recorded.reloads_iff_reloadable (hs : s.Recorded a) :
    s.Reloads isoformat Q a ↔ s.Reloadable Q a := by
  have hlength (memoryType : String) :
      (s.loadedOf Q a memoryType).length ≤ (savesOf memoryType s.saves).length := by
    simpa using (hs.loadedOf_suffix (Q := Q) memoryType).length_le
  have hwindow (memoryType : String) : (s.loadedOf Q a memoryType).length =
      ((s.window Q a).filter fun r => a.owns r && ofType memoryType r).length := by
    rw [AssistantRun.loadedOf, List.filter_reverse, List.length_reverse]
  have hhistory := histories_eq_iff (hs.loadedOf_suffix (Q := Q) "chat")
  have hactions := recentActions_eq_iff isoformat hs.actions (hlength "action")
  have hpending := pendingRecommendations_eq_iff isoformat hs.recommendations
    (hlength "recommendation")
  rw [← hs.history, hwindow] at hhistory
  rw [hwindow] at hpending
  rw [List.length_eq_zero_iff] at hactions
  unfold AssistantRun.Reloads
  rw [a.load_eq]
  constructor
  · rintro ⟨loaded, hloaded, hchat, hsummary⟩
    obtain rfl := Except.ok.inj hloaded
    obtain ⟨hmessages, henough⟩ := hhistory.mp hchat
    exact ⟨hactions.mp (congrArg ContextSummary.recentActions hsummary), hmessages, henough,
      hpending.mp (congrArg ContextSummary.pendingRecommendations hsummary)⟩
  · rintro ⟨hnone, hmessages, henough, hrecommendations⟩
    have hchat := hhistory.mpr ⟨hmessages, henough⟩
    refine ⟨_, rfl, hchat, ?_⟩
    simp only [KeptMemory.contextSummary, ContextSummary.mk.injEq]
    exact ⟨by rw [hchat], hactions.mpr hnone, hpending.mpr hrecommendations, by rw [hchat]⟩

/-- After every run, whatever others write in between, a fresh instance reloads what was saved
exactly if the run is reloadable. -/
theorem reloads_iff (isAlnum : Char → Bool) (isoformat : ℤ → String) (Q : MemoryQueries)
    (a : AssistantSession) (start : ℤ) (steps : List (AssistantStep a)) :
    (assistantRun isAlnum isoformat a start steps).Reloads isoformat Q a ↔
      (assistantRun isAlnum isoformat a start steps).Reloadable Q a :=
  (AssistantRun.recorded isAlnum isoformat a start steps).reloads_iff_reloadable

/-! ## A saved action, and a crowded project -/

def crewSession : AssistantSession where
  memory := { runtimeId := chatRuntime, userId := "crew", conversationId := some "deploy" }
  conversationId := "deploy"
  conversation := rfl
  runtimes := fun runtime => if runtime = chatRuntime then some (some chatProject) else none
  projectId := chatProject
  attached := by
    refine AssistantMemory.projectId_eq chatRuntime ?_ ?_
    · exact uuid_chatRuntime
    · exact if_pos rfl

def restartSaved : List (AssistantStep crewSession) :=
  [.save (.action "restart" (.obj [])) 0 0 1]

def projectNote : OtherRecord crewSession where
  record := { id := 2, key := "note", value := [], projectId := chatProject, createdAt := 5 }
  other := by simp [AssistantSession.owns, AssistantMemory.inConversation, AssistantMemory.labels,
    Json.lookup]

/-- A message, and 150 records of others. -/
def messageCrowdedOut : List (AssistantStep crewSession) :=
  .save (.chatMessage "user" "Is it up?") 0 0 1 :: List.replicate 150 (.other projectNote)

theorem crewSession_not_reloaded :
    ¬(assistantRun (fun _ => false) (fun _ => "") crewSession 0 restartSaved).Reloads
        (fun _ => "") rowOrder crewSession ∧
      ¬(assistantRun (fun _ => false) (fun _ => "") crewSession 0 messageCrowdedOut).Reloads
        (fun _ => "") rowOrder crewSession := by
  rw [(AssistantRun.recorded _ _ _ _ _).reloads_iff_reloadable,
    (AssistantRun.recorded _ _ _ _ _).reloads_iff_reloadable]
  constructor
  · intro hreloadable
    have hactions := congrArg List.length hreloadable.actions
    revert hactions
    decide +kernel
  · intro hreloadable
    have henough := hreloadable.enoughMessages
    revert henough
    decide +kernel

end Zyntry
