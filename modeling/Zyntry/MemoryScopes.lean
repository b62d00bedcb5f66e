import Zyntry.SensitiveText
import Zyntry.StepRuns
import Zyntry.UniqueRows

/-!
# Memory records and their scopes

Two services write one table. The memory service looks a record up by its scope before it
adds one; a summary is looked up by its parent key, and the runtime assistant adds a record
for every message, action and recommendation. The lookup by scope fails when two rows match.
-/

namespace Zyntry

open Python StepRuns

structure MemoryScope where
  projectId : String
  key : String
  userId : Option String := none
  conversationId : Option String := none
  sessionId : Option String := none
deriving DecidableEq, Repr

structure MemoryRecord where
  id : ℕ
  key : String
  value : Fields
  content : Option String := none
  memoryType : String := "long_term"
  projectId : String
  userId : Option String := none
  conversationId : Option String := none
  sessionId : Option String := none
  pinned : Bool := false
  expiresAt : Option ℤ := none
  parentKey : Option String := none
  createdAt : ℤ

def MemoryRecord.scope (r : MemoryRecord) : MemoryScope :=
  ⟨r.projectId, r.key, r.userId, r.conversationId, r.sessionId⟩

abbrev MemoryTable := RowTable ℕ MemoryRecord MemoryRecord.id

inductive MemoryError where
  | valueError
  | overflowError
  | multipleResultsFound
deriving DecidableEq, Repr

/-- `scalar_one_or_none`. -/
def scalarOneOrNone {α : Type} : List α → Except MemoryError (Option α)
  | [] => .ok none
  | [a] => .ok (some a)
  | _ => .error .multipleResultsFound

def getByKeyAndScope (t : MemoryTable) (scope : MemoryScope) :
    Except MemoryError (Option MemoryRecord) :=
  scalarOneOrNone (t.rows.filter fun r => r.scope = scope)

def getByParentKey (t : MemoryTable) (parentKey : String) :
    Except MemoryError (Option MemoryRecord) :=
  scalarOneOrNone (t.rows.filter fun r => r.parentKey = some parentKey)

/-- What a call sends to the table; a refused write leaves the table alone. -/
inductive MemoryWrite where
  | nothing
  | create (record : MemoryRecord)
  /-- The row of the id gets these columns. -/
  | replace (record : MemoryRecord)
  | delete (ids : List ℕ)

def MemoryWrite.apply (t : MemoryTable) : MemoryWrite → MemoryTable
  | .nothing => t
  | .create record => t.insert record
  | .replace record => t.update record.id (fun r => { record with id := r.id }) fun _ => rfl
  | .delete ids => ids.foldl RowTable.delete t

/-! ## The memory service -/

/-- `uuid.UUID(s) if s else None`. -/
def parseUuid (s : Option String) : Except MemoryError (Option String) :=
  match s.filter (· ≠ "") with
  | none => .ok none
  | some s =>
      match uuid s with
      | some id => .ok (some id)
      | none => .error .valueError

/-- `DEFAULT_TTL_BY_TYPE`, in hours. -/
def defaultTtlByType (memoryType : String) : Option ℤ :=
  ([("session", some 24), ("conversation", some (7 * 24)), ("long_term", some (365 * 24)),
    ("project", none)].lookup memoryType).join

def microseconds (seconds : ℤ) : ℤ := seconds * 1000000

structure AddMemory where
  key : String
  value : Fields := []
  content : String := ""
  memoryType : String := "long_term"
  projectId : Option String := none
  userId : Option String := none
  conversationId : Option String := none
  sessionId : Option String := none
  ttl : Option ℤ := none
  pinned : Bool := false

def AddMemory.expiresAt (a : AddMemory) (now : ℤ) : Except MemoryError (Option ℤ) :=
  if a.pinned then .ok none
  else
    match a.ttl.or ((defaultTtlByType a.memoryType).map (· * 3600)) with
    | none => .ok none
    | some ttl =>
        let expires := now + microseconds ttl
        if minDatetime ≤ expires ∧ expires ≤ maxDatetime then .ok (some expires)
        else .error .overflowError

def AddMemory.updated (a : AddMemory) (uid cid : Option String) (expiresAt : Option ℤ)
    (existing : MemoryRecord) : MemoryRecord :=
  { existing with
    value := if a.value.isEmpty then existing.value else a.value
    content := if a.content = "" then existing.content else some a.content
    memoryType := a.memoryType
    userId := uid.or existing.userId
    conversationId := cid.or existing.conversationId
    sessionId := (a.sessionId.filter (· ≠ "")).or existing.sessionId
    pinned := a.pinned
    expiresAt := expiresAt.or existing.expiresAt }

def addMemory (now : ℤ) (id : ℕ) (a : AddMemory) (t : MemoryTable) :
    Except MemoryError MemoryWrite := do
  let pid ← parseUuid a.projectId
  let uid ← parseUuid a.userId
  let cid ← parseUuid a.conversationId
  let expiresAt ← a.expiresAt now
  match pid with
  | none => .error .valueError
  | some pid =>
      match ← getByKeyAndScope t ⟨pid, a.key, uid, cid, a.sessionId⟩ with
      | some existing => return .replace (a.updated uid cid expiresAt existing)
      | none =>
          return .create
            { id, key := a.key, value := a.value, content := some a.content,
              memoryType := a.memoryType, projectId := pid, userId := uid,
              conversationId := cid, sessionId := a.sessionId, pinned := a.pinned, expiresAt,
              createdAt := now }

/-- The lookup of `get_memory` and `delete_memory`, which know a project, a key and a user. -/
def findMemory (key : String) (projectId userId : Option String) (t : MemoryTable) :
    Except MemoryError (Option MemoryRecord) :=
  match projectId.filter (· ≠ "") with
  | none => .ok none
  | some projectId =>
      match uuid projectId with
      | none => .error .valueError
      | some pid => do getByKeyAndScope t { projectId := pid, key, userId := ← parseUuid userId }

def MemoryRecord.Expired (now : ℤ) (r : MemoryRecord) : Prop :=
  (∃ expires ∈ r.expiresAt, expires < now) ∧ r.pinned = false

instance (now : ℤ) : DecidablePred (MemoryRecord.Expired now) := fun r =>
  inferInstanceAs (Decidable ((∃ expires ∈ r.expiresAt, expires < now) ∧ r.pinned = false))

def getMemory (now : ℤ) (key : String) (projectId userId : Option String) (t : MemoryTable) :
    Except MemoryError (Option MemoryRecord) := do
  return (← findMemory key projectId userId t).filter fun r => ¬r.Expired now

def deleteMemory (key : String) (projectId userId : Option String) (t : MemoryTable) :
    Except MemoryError MemoryWrite := do
  match ← findMemory key projectId userId t with
  | none => return .nothing
  | some record => return .delete [record.id]

def cleanupExpired (now : ℤ) (t : MemoryTable) : MemoryWrite :=
  .delete ((t.rows.filter fun r => r.Expired now).map MemoryRecord.id)

def buildSummary (chunks : List String) : String :=
  if chunks.length ≤ 3 then String.intercalate "\n\n" chunks
  else String.intercalate "\n\n" (chunks.take 2 ++
    [s!"... {chunks.length - 4} omitted messages ..."] ++ chunks.drop (chunks.length - 2))

/-- The messages of a conversation, the oldest first; `arrange` is the order in which a query
returns its rows. -/
def conversationMessages (arrange : List MemoryRecord → List MemoryRecord) (cid : String)
    (t : MemoryTable) : List MemoryRecord :=
  ((arrange (t.rows.filter fun r => r.conversationId = some cid)).filter fun r =>
      r.content.getD "" ≠ "" ∧ r.parentKey.getD "" = "").insertionSort
    fun r r' => r.createdAt ≤ r'.createdAt

def summarizeConversation (arrange : List MemoryRecord → List MemoryRecord) (now : ℤ) (id : ℕ)
    (conversationId : String) (t : MemoryTable) : Except MemoryError MemoryWrite :=
  match uuid conversationId with
  | none => .error .valueError
  | some cid =>
      match conversationMessages arrange cid t with
      | [] => .ok .nothing
      | first :: rest => do
          let messages := first :: rest
          let summaryContent := buildSummary (messages.map fun r => r.content.getD "")
          let summaryKey := "conversation_summary:" ++ conversationId
          let value : Fields :=
            [("conversation_id", .str conversationId),
             ("session_id", (first.sessionId.map Json.str).getD .null),
             ("message_count", .int messages.length), ("summary", .str summaryContent)]
          match ← getByParentKey t summaryKey with
          | some existing => return .replace { existing with value, content := summaryContent }
          | none =>
              return .create
                { id, key := summaryKey, value, content := summaryContent,
                  memoryType := "conversation", projectId := first.projectId,
                  userId := first.userId, conversationId := cid, sessionId := first.sessionId,
                  parentKey := summaryKey, createdAt := now }

/-! ## The assistant's memory -/

/-- A runtime and the project that it is attached to. -/
abbrev Runtimes := String → Option (Option String)

structure AssistantMemory where
  runtimeId : String
  userId : String := "system"
  conversationId : Option String := none

def AssistantMemory.projectId (a : AssistantMemory) (runtimes : Runtimes) :
    Except MemoryError String :=
  match uuid a.runtimeId with
  | none => .error .valueError
  | some runtimeId =>
      match (runtimes runtimeId).join with
      | some projectId => .ok projectId
      | none => .error .valueError

/-- The record that each of the three savers creates, without a look at the table. -/
def AssistantMemory.create (a : AssistantMemory) (runtimes : Runtimes) (now : ℤ) (id : ℕ)
    (memoryType key : String) (content : Option String) (value : Fields) :
    Except MemoryError MemoryWrite := do
  let projectId ← a.projectId runtimes
  let owner : Fields :=
    [("runtime_id", .str a.runtimeId), ("user_id", .str a.userId),
     ("conversation_id", (a.conversationId.map Json.str).getD .null)]
  return .create
    { id, key, value := owner ++ value, content, memoryType, projectId, createdAt := now }

section

variable (isAlnum : Char → Bool) (isoformat : ℤ → String)

def saveChatMessage (a : AssistantMemory) (runtimes : Runtimes) (now : ℤ) (id : ℕ)
    (role content : String) : Except MemoryError MemoryWrite :=
  a.create runtimes now id "chat" role (redactText isAlnum content)
    [("timestamp", .str (isoformat now))]

/-- `result` is the encoded result. -/
def saveAction (a : AssistantMemory) (runtimes : Runtimes) (now : ℤ) (id : ℕ)
    (actionName : String) (result : Json) : Except MemoryError MemoryWrite :=
  a.create runtimes now id "action" actionName none
    [("result", redactSensitive isAlnum result), ("timestamp", .str (isoformat now))]

def saveRecommendation (a : AssistantMemory) (runtimes : Runtimes) (now : ℤ) (id : ℕ)
    (category title description : String) (actions : List String) :
    Except MemoryError MemoryWrite :=
  a.create runtimes now id "recommendation" category title
    [("description", .str description), ("actions", .arr (actions.map Json.str)),
     ("timestamp", .str (isoformat now)), ("applied", .bool false)]

end

/-! ## Runs -/

/-- What is not in the table: the order of a query's rows, and texts. -/
structure MemoryContext where
  arrange : List MemoryRecord → List MemoryRecord := id
  isAlnum : Char → Bool := fun _ => false
  isoformat : ℤ → String := fun _ => ""

inductive MemoryCall where
  | addMemory (a : AddMemory)
  | getMemory (key : String) (projectId userId : Option String)
  | deleteMemory (key : String) (projectId userId : Option String)
  | cleanupExpired
  | summarizeConversation (conversationId : String)
  | saveChatMessage (a : AssistantMemory) (role content : String)
  | saveAction (a : AssistantMemory) (actionName : String) (result : Json)
  | saveRecommendation (a : AssistantMemory) (category title description : String)
      (actions : List String)

/-- A call at a time, with the id of a new record, and whether the database takes the write. -/
structure MemoryStep where
  call : MemoryCall
  now : ℤ
  id : ℕ := 0
  accepted : Bool := true
  runtimes : Runtimes := fun _ => none

variable (M : MemoryContext)

def MemoryStep.write (k : MemoryStep) (t : MemoryTable) : Except MemoryError MemoryWrite :=
  match k.call with
  | .addMemory a => Zyntry.addMemory k.now k.id a t
  | .getMemory key projectId userId => do
      let _ ← Zyntry.getMemory k.now key projectId userId t
      return .nothing
  | .deleteMemory key projectId userId => Zyntry.deleteMemory key projectId userId t
  | .cleanupExpired => return Zyntry.cleanupExpired k.now t
  | .summarizeConversation conversationId =>
      Zyntry.summarizeConversation M.arrange k.now k.id conversationId t
  | .saveChatMessage a role content =>
      Zyntry.saveChatMessage M.isAlnum M.isoformat a k.runtimes k.now k.id role content
  | .saveAction a actionName result =>
      Zyntry.saveAction M.isAlnum M.isoformat a k.runtimes k.now k.id actionName result
  | .saveRecommendation a category title description actions =>
      Zyntry.saveRecommendation M.isoformat a k.runtimes k.now k.id category title description
        actions

/-- A call that raises, or whose write is refused, leaves the table alone. -/
def memoryStep (t : MemoryTable) (k : MemoryStep) : MemoryTable :=
  match k.write M t with
  | .ok w => if k.accepted then w.apply t else t
  | .error _ => t

/-- A record that the step creates has a scope of its own. -/
def CreatesOwnScope (t : MemoryTable) (k : MemoryStep) : Prop :=
  ∀ record, k.write M t = .ok (.create record) → k.accepted = true → t.get? record.id = none →
    ∀ r ∈ t.rows, r.scope ≠ record.scope

/-- No two records have one scope. -/
abbrev ScopesUnique (t : MemoryTable) : Prop :=
  t.Exclusive fun r r' => r.scope = r'.scope

/-! ## Lookups -/

variable {M} {t : MemoryTable} {k : MemoryStep} {scope : MemoryScope}

theorem scalarOneOrNone_ok_iff {α : Type} {l : List α} :
    (∃ a, scalarOneOrNone l = .ok a) ↔ l.length ≤ 1 := by
  match l with
  | [] => simp [scalarOneOrNone]
  | [a] => simp [scalarOneOrNone]
  | a :: b :: l => simp [scalarOneOrNone]

theorem eq_singleton_of_scalarOneOrNone {α : Type} {l : List α} {a : α}
    (h : scalarOneOrNone l = .ok (some a)) : l = [a] := by
  match l with
  | [] => cases h
  | [b] =>
    cases h
    rfl
  | b :: b' :: l => cases h

theorem eq_nil_of_scalarOneOrNone {α : Type} {l : List α} (h : scalarOneOrNone l = .ok none) :
    l = [] := by
  match l with
  | [] => rfl
  | [b] => cases h
  | b :: b' :: l => cases h

theorem getByKeyAndScope_some {r : MemoryRecord}
    (h : getByKeyAndScope t scope = .ok (some r)) : r ∈ t.rows ∧ r.scope = scope := by
  have hmem : r ∈ t.rows.filter fun r => r.scope = scope := by
    rw [eq_singleton_of_scalarOneOrNone h]
    exact List.mem_singleton_self r
  simpa using List.mem_filter.mp hmem

theorem getByKeyAndScope_none (h : getByKeyAndScope t scope = .ok none) :
    ∀ r ∈ t.rows, r.scope ≠ scope := by
  intro r hr
  simpa using List.filter_eq_nil_iff.mp (eq_nil_of_scalarOneOrNone h) r hr

theorem getByParentKey_some {parentKey : String} {r : MemoryRecord}
    (h : getByParentKey t parentKey = .ok (some r)) : r ∈ t.rows := by
  have hmem : r ∈ t.rows.filter fun r => r.parentKey = some parentKey := by
    rw [eq_singleton_of_scalarOneOrNone h]
    exact List.mem_singleton_self r
  exact (List.mem_filter.mp hmem).1

/-- The rows of one scope have one id if scopes are unique. -/
theorem ScopesUnique.length_le (h : ScopesUnique t) (scope : MemoryScope) :
    (t.rows.filter fun r => r.scope = scope).length ≤ 1 := by
  have hnodup : ((t.rows.filter fun r => r.scope = scope).map MemoryRecord.id).Nodup :=
    t.nodup.sublist (List.filter_sublist.map _)
  have hsame : ∀ r ∈ t.rows.filter (fun r => r.scope = scope),
      ∀ r' ∈ t.rows.filter (fun r => r.scope = scope), r.id = r'.id := by
    intro r hr r' hr'
    obtain ⟨hrow, hscope⟩ := List.mem_filter.mp hr
    obtain ⟨hrow', hscope'⟩ := List.mem_filter.mp hr'
    exact h r hrow r' hrow' ((of_decide_eq_true hscope).trans (of_decide_eq_true hscope').symm)
  by_contra hlong
  obtain ⟨r, r', rest, hrows⟩ : ∃ r r' rest, t.rows.filter (fun r => r.scope = scope) =
      r :: r' :: rest := by
    match hrows : t.rows.filter fun r => r.scope = scope with
    | [] => simp [hrows] at hlong
    | [r] => simp [hrows] at hlong
    | r :: r' :: rest => exact ⟨r, r', rest, hrows⟩
  rw [hrows] at hnodup hsame
  have hid : r.id = r'.id := hsame r (by simp) r' (by simp)
  simp [hid] at hnodup

theorem ScopesUnique.lookup (h : ScopesUnique t) (scope : MemoryScope) :
    ∃ r, getByKeyAndScope t scope = .ok r :=
  scalarOneOrNone_ok_iff.mpr (h.length_le scope)

/-- Two rows of one scope. -/
theorem lookup_raises {r r' : MemoryRecord} (hr : r ∈ t.rows) (hr' : r' ∈ t.rows)
    (hid : r.id ≠ r'.id) (hscope : r.scope = r'.scope) :
    getByKeyAndScope t r'.scope = .error .multipleResultsFound := by
  have hmem : r ∈ t.rows.filter fun row => row.scope = r'.scope := by simp [hr, hscope]
  have hmem' : r' ∈ t.rows.filter fun row => row.scope = r'.scope := by simp [hr']
  unfold getByKeyAndScope
  match hrows : t.rows.filter fun row => row.scope = r'.scope with
  | [] => simp [hrows] at hmem
  | [row] =>
    rw [hrows, List.mem_singleton] at hmem hmem'
    exact absurd (congrArg MemoryRecord.id (hmem.trans hmem'.symm)) hid
  | row :: row' :: rest =>
    rw [hrows]
    rfl

/-! ## Writes -/

/-- The columns of a replaced row leave its scope as it was. -/
def MemoryWrite.KeepsScope (t : MemoryTable) : MemoryWrite → Prop
  | .replace record => ∃ r ∈ t.rows, r.id = record.id ∧ record.scope = r.scope
  | _ => True

theorem AddMemory.updated_scope (a : AddMemory) {pid : String} {uid cid : Option String}
    (expiresAt : Option ℤ) {existing : MemoryRecord}
    (h : existing.scope = ⟨pid, a.key, uid, cid, a.sessionId⟩) :
    (a.updated uid cid expiresAt existing).scope = existing.scope := by
  simp only [MemoryRecord.scope, MemoryScope.mk.injEq] at h
  obtain ⟨-, -, huser, hconversation, hsession⟩ := h
  have hfiltered : (a.sessionId.filter (· ≠ "")).or a.sessionId = a.sessionId := by
    cases hid : a.sessionId with
    | none => rfl
    | some s =>
      by_cases hs : s = ""
      · simp [Option.filter, hs]
      · simp [Option.filter, hs]
  simp only [MemoryRecord.scope, AddMemory.updated, huser, hconversation, hsession, hfiltered,
    Option.or_self]

/-- What `add_memory` writes. -/
theorem addMemory_writes {now : ℤ} {id : ℕ} {a : AddMemory} {w : MemoryWrite}
    (h : addMemory now id a t = .ok w) :
    w.KeepsScope t ∧ ∀ record, w = .create record → ∀ r ∈ t.rows, r.scope ≠ record.scope := by
  unfold addMemory at h
  obtain ⟨pid, -, h⟩ := bind_eq_ok.mp h
  obtain ⟨uid, -, h⟩ := bind_eq_ok.mp h
  obtain ⟨cid, -, h⟩ := bind_eq_ok.mp h
  obtain ⟨expiresAt, -, h⟩ := bind_eq_ok.mp h
  cases pid with
  | none => cases h
  | some pid =>
    obtain ⟨existing, hlookup, h⟩ := bind_eq_ok.mp h
    cases existing with
    | none =>
      cases h
      refine ⟨trivial, ?_⟩
      rintro record ⟨⟩
      exact getByKeyAndScope_none hlookup
    | some existing =>
      cases h
      obtain ⟨hmem, hscope⟩ := getByKeyAndScope_some hlookup
      refine ⟨⟨existing, hmem, rfl, a.updated_scope expiresAt hscope⟩, ?_⟩
      rintro record ⟨⟩

theorem keepsScope_deleteMemory {key : String} {projectId userId : Option String}
    {w : MemoryWrite} (h : deleteMemory key projectId userId t = .ok w) : w.KeepsScope t := by
  unfold deleteMemory at h
  obtain ⟨record, -, h⟩ := bind_eq_ok.mp h
  cases record <;> cases h <;> trivial

theorem keepsScope_summarizeConversation {arrange : List MemoryRecord → List MemoryRecord}
    {now : ℤ} {id : ℕ} {conversationId : String} {w : MemoryWrite}
    (h : summarizeConversation arrange now id conversationId t = .ok w) : w.KeepsScope t := by
  unfold summarizeConversation at h
  cases hcid : uuid conversationId with
  | none =>
    rw [hcid] at h
    cases h
  | some cid =>
    simp only [hcid] at h
    cases hmessages : conversationMessages arrange cid t with
    | nil =>
      rw [hmessages] at h
      cases h
      trivial
    | cons first rest =>
      simp only [hmessages] at h
      obtain ⟨existing, hlookup, h⟩ := bind_eq_ok.mp h
      cases existing with
      | none =>
        cases h
        trivial
      | some existing =>
        cases h
        exact ⟨existing, getByParentKey_some hlookup, rfl, rfl⟩

theorem keepsScope_create {a : AssistantMemory} {runtimes : Runtimes} {now : ℤ} {id : ℕ}
    {memoryType key : String} {content : Option String} {value : Fields} {w : MemoryWrite}
    (h : a.create runtimes now id memoryType key content value = .ok w) : w.KeepsScope t := by
  obtain ⟨projectId, -, h⟩ := bind_eq_ok.mp h
  cases h
  trivial

theorem MemoryStep.keepsScope {w : MemoryWrite} (h : k.write M t = .ok w) : w.KeepsScope t := by
  unfold MemoryStep.write at h
  cases hcall : k.call with
  | addMemory a =>
    rw [hcall] at h
    exact (addMemory_writes h).1
  | getMemory key projectId userId =>
    rw [hcall] at h
    obtain ⟨record, -, h⟩ := bind_eq_ok.mp h
    cases h
    trivial
  | deleteMemory key projectId userId =>
    rw [hcall] at h
    exact keepsScope_deleteMemory h
  | cleanupExpired =>
    rw [hcall] at h
    cases h
    trivial
  | summarizeConversation conversationId =>
    rw [hcall] at h
    exact keepsScope_summarizeConversation h
  | saveChatMessage a role content =>
    rw [hcall] at h
    exact keepsScope_create h
  | saveAction a actionName result =>
    rw [hcall] at h
    exact keepsScope_create h
  | saveRecommendation a category title description actions =>
    rw [hcall] at h
    exact keepsScope_create h

/-- `add_memory` creates a record only where its lookup found none. -/
theorem createsOwnScope_addMemory {a : AddMemory} (hcall : k.call = .addMemory a) :
    CreatesOwnScope M t k := by
  intro record hwrite _ _
  unfold MemoryStep.write at hwrite
  rw [hcall] at hwrite
  exact (addMemory_writes hwrite).2 record rfl

theorem ScopesUnique.delete (h : ScopesUnique t) (ids : List ℕ) :
    ScopesUnique (ids.foldl RowTable.delete t) := by
  intro r hr r' hr' hscope
  exact h r (RowTable.mem_rows_deleteAll.mp hr).1 r' (RowTable.mem_rows_deleteAll.mp hr').1 hscope

/-- The step lemma. -/
theorem ScopesUnique.step (h : ScopesUnique t) (hk : CreatesOwnScope M t k) :
    ScopesUnique (memoryStep M t k) := by
  have hsymm : ∀ r r' : MemoryRecord, r.scope = r'.scope → r'.scope = r.scope :=
    fun _ _ hscope => hscope.symm
  unfold memoryStep
  cases hwrite : k.write M t with
  | error e => exact h
  | ok w =>
    dsimp only
    split_ifs with haccepted
    · have hkeeps := MemoryStep.keepsScope hwrite
      cases w with
      | nothing => exact h
      | create record =>
        cases hid : t.get? record.id with
        | none => exact h.insert hsymm (hk record hwrite haccepted hid)
        | some r =>
          rw [MemoryWrite.apply, RowTable.insert_eq_self hid]
          exact h
      | replace record =>
        obtain ⟨r₀, hr₀, hid, hscope⟩ := hkeeps
        refine RowTable.Exclusive.update_of_imp (f := fun r => { record with id := r.id }) h hsymm
          (fun _ => rfl) fun row hrow r hP => ?_
        have hrow₀ : row = r₀ := by
          rw [← hid, RowTable.get?_of_mem hr₀] at hrow
          exact (Option.some.inj hrow).symm
        rw [hrow₀, ← hscope]
        exact hP
      | delete ids => exact h.delete ids
    · exact h

/-- A record created in a scope that another record has. -/
theorem memoryStep_raises {record : MemoryRecord} (hwrite : k.write M t = .ok (.create record))
    (haccepted : k.accepted = true) (hid : t.get? record.id = none) {r : MemoryRecord}
    (hr : r ∈ t.rows) (hscope : r.scope = record.scope) :
    getByKeyAndScope (memoryStep M t k) record.scope = .error .multipleResultsFound := by
  have hstep : memoryStep M t k = t.insert record := by
    unfold memoryStep
    simp only [hwrite, haccepted, if_true, MemoryWrite.apply]
  have hrows : (t.insert record).rows = t.rows ++ [record] := RowTable.rows_insert hid
  rw [hstep]
  refine lookup_raises ?_ ?_ (RowTable.get?_none_ne hid r hr) hscope
  · rw [hrows]
    exact List.mem_append_left _ hr
  · rw [hrows]
    exact List.mem_append_right _ (List.mem_singleton_self record)

/-- In a run in which each record is created in a scope of its own, scopes stay unique and no
lookup by scope fails. The first other record makes the lookup of its scope fail. -/
theorem memoryScopes_unique (M : MemoryContext) {steps : List MemoryStep}
    (h : Along (memoryStep M) (CreatesOwnScope M) default steps) :
    ScopesUnique (steps.foldl (memoryStep M) default) ∧
      (∀ scope, ∃ r, getByKeyAndScope (steps.foldl (memoryStep M) default) scope = .ok r) ∧
      ∀ k, ¬CreatesOwnScope M (steps.foldl (memoryStep M) default) k →
        ∃ scope, getByKeyAndScope (memoryStep M (steps.foldl (memoryStep M) default) k) scope =
          .error .multipleResultsFound := by
  have hunique : ScopesUnique (steps.foldl (memoryStep M) default) :=
    h.invariant (I := ScopesUnique) (fun _ _ ht hk => ht.step hk) RowTable.exclusive_empty
  refine ⟨hunique, hunique.lookup, fun k hk => ?_⟩
  unfold CreatesOwnScope at hk
  push Not at hk
  obtain ⟨record, hwrite, haccepted, hid, r, hr, hscope⟩ := hk
  exact ⟨record.scope, memoryStep_raises hwrite haccepted hid hr hscope⟩

/-! ## Two messages of one role -/

def chatRuntime : String := "00000000-0000-0000-0000-000000000001"

def chatProject : String := "00000000-0000-0000-0000-000000000002"

def chatStep (id : ℕ) (content : String) : MemoryStep where
  call := .saveChatMessage { runtimeId := chatRuntime } "user" content
  now := 0
  id := id
  runtimes := fun runtime => if runtime = chatRuntime then some (some chatProject) else none

theorem uuid_chatRuntime : uuid chatRuntime = some chatRuntime := by decide +kernel

theorem AssistantMemory.projectId_eq {a : AssistantMemory} {runtimes : Runtimes}
    {projectId : String} (runtimeId : String) (hid : uuid a.runtimeId = some runtimeId)
    (hproject : runtimes runtimeId = some (some projectId)) :
    a.projectId runtimes = .ok projectId := by
  unfold AssistantMemory.projectId
  rw [hid]
  dsimp only
  rw [hproject]
  rfl

theorem projectId_chatStep (id : ℕ) (content : String) :
    AssistantMemory.projectId { runtimeId := chatRuntime } (chatStep id content).runtimes =
      .ok chatProject := by
  refine AssistantMemory.projectId_eq chatRuntime ?_ ?_
  · exact uuid_chatRuntime
  · dsimp only [chatStep]
    exact if_pos rfl

theorem exists_write_chatStep (id : ℕ) (content : String) (t : MemoryTable) :
    ∃ record, (chatStep id content).write {} t = .ok (.create record) ∧ record.id = id ∧
      record.scope = { projectId := chatProject, key := "user" } := by
  have hwrite : (chatStep id content).write {} t = saveChatMessage (fun _ => false) (fun _ => "")
      { runtimeId := chatRuntime } (chatStep id content).runtimes 0 id "user" content := rfl
  rw [hwrite, saveChatMessage, AssistantMemory.create, projectId_chatStep]
  exact ⟨_, rfl, rfl, rfl⟩

theorem exists_rows_chatStep (content : String) :
    ∃ record, (memoryStep {} default (chatStep 1 content)).rows = [record] ∧ record.id = 1 ∧
      record.scope = { projectId := chatProject, key := "user" } := by
  obtain ⟨record, hwrite, hid, hscope⟩ := exists_write_chatStep 1 content default
  refine ⟨record, ?_, hid, hscope⟩
  have hstep : memoryStep {} default (chatStep 1 content) =
      (default : MemoryTable).insert record := by
    unfold memoryStep
    rw [hwrite]
    rfl
  rw [hstep]
  exact RowTable.rows_insert rfl

/-- The second message of the same role has no scope of its own. -/
theorem not_createsOwnScope_chatStep (content content' : String) :
    ¬CreatesOwnScope {} (memoryStep {} default (chatStep 1 content)) (chatStep 2 content') := by
  obtain ⟨first, hrows, hid, hscope⟩ := exists_rows_chatStep content
  obtain ⟨record, hwrite, hid', hscope'⟩ := exists_write_chatStep 2 content'
    (memoryStep {} default (chatStep 1 content))
  intro hown
  have hfresh : (memoryStep {} default (chatStep 1 content)).get? record.id = none := by
    simp [RowTable.get?, hrows, hid, hid']
  exact hown record hwrite rfl hfresh first (by rw [hrows]; exact List.mem_singleton_self first)
    (hscope.trans hscope'.symm)

theorem chatSteps_unique :
    ScopesUnique (memoryStep {} default (chatStep 1 "What failed?")) ∧
      ∃ scope, getByKeyAndScope (memoryStep {} (memoryStep {} default (chatStep 1 "What failed?"))
        (chatStep 2 "And why?")) scope = .error .multipleResultsFound := by
  have hrun : Along (memoryStep {}) (CreatesOwnScope {}) default [chatStep 1 "What failed?"] := by
    refine ⟨fun record _ _ _ r hr => ?_, trivial⟩
    cases hr
  have hunique := memoryScopes_unique {} hrun
  rw [List.foldl_cons, List.foldl_nil] at hunique
  exact ⟨hunique.1, hunique.2.2 _ (not_createsOwnScope_chatStep "What failed?" "And why?")⟩

theorem chatSteps_fail :
    getMemory 0 "user" (some chatProject) none
      ([chatStep 1 "What failed?", chatStep 2 "And why?"].foldl (memoryStep {}) default) =
        .error .multipleResultsFound := by
  obtain ⟨first, hrows, hid, hscope⟩ := exists_rows_chatStep "What failed?"
  obtain ⟨record, hwrite, hid', hscope'⟩ := exists_write_chatStep 2 "And why?"
    (memoryStep {} default (chatStep 1 "What failed?"))
  have hfresh : (memoryStep {} default (chatStep 1 "What failed?")).get? record.id = none := by
    simp [RowTable.get?, hrows, hid, hid']
  have hraises := memoryStep_raises hwrite rfl hfresh
    (by rw [hrows]; exact List.mem_singleton_self first) (hscope.trans hscope'.symm)
  have huuid : uuid chatProject = some chatProject := by decide +kernel
  have hproject : (some chatProject).filter (· ≠ "") = some chatProject := by decide
  have hfind : findMemory "user" (some chatProject) none
      (memoryStep {} (memoryStep {} default (chatStep 1 "What failed?"))
        (chatStep 2 "And why?")) = .error .multipleResultsFound := by
    unfold findMemory
    rw [hproject]
    dsimp only
    rw [huuid, ← hraises, hscope']
    rfl
  unfold getMemory
  rw [List.foldl_cons, List.foldl_cons, List.foldl_nil, hfind]
  rfl

end Zyntry
