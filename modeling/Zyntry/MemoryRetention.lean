import Zyntry.MemoryScopes
import Zyntry.RecentItems

/-!
# Retention of memory records

The expiry of a record should be the one that the latest `add_memory` prescribes. Three reads
of the memory service leave out what has expired; the two contexts that go into prompts do
not look at the expiry.
-/

namespace Zyntry

open Python RecentItems StepRuns

/-! ## Reads -/

/-- What the database decides: the order of a query's rows where none is asked for, and which
texts a pattern is like. -/
structure MemoryQueries where
  arrange : List MemoryRecord → List MemoryRecord
  perm : ∀ rows, (arrange rows).Perm rows
  ilike : String → String → Bool

inductive MemoryReadError where
  | memory (error : MemoryError)
  | negativeLimit
deriving DecidableEq, Repr

section

variable (Q : MemoryQueries)

/-- `order_by(created_at.desc()).limit(limit)`. -/
def newestRows (limit : ℕ) (rows : List MemoryRecord) : List MemoryRecord :=
  newest MemoryRecord.createdAt limit (Q.arrange rows)

def listByScope (projectId : String) (userId memoryType : Option String) (limit : ℕ)
    (rows : List MemoryRecord) : List MemoryRecord :=
  newestRows Q limit (rows.filter fun r =>
    r.projectId = projectId ∧ userId.all (r.userId = some ·) ∧
      (memoryType.filter (· ≠ "")).all (r.memoryType = ·))

def searchRecords (projectId query : String) (userId memoryType : Option String) (limit : ℕ)
    (t : MemoryTable) : List MemoryRecord :=
  let pattern := "%" ++ query ++ "%"
  newestRows Q (limit * 3) (t.rows.filter fun r =>
    r.projectId = projectId ∧ (r.content.any (Q.ilike pattern) ∨ Q.ilike pattern r.key) ∧
      userId.all (r.userId = some ·) ∧ (memoryType.filter (· ≠ "")).all (r.memoryType = ·))

/-- The project and the user of a read; without a project it finds nothing. -/
def readScope (projectId userId : Option String) :
    Except MemoryReadError (Option (String × Option String)) :=
  match projectId.filter (· ≠ "") with
  | none => .ok none
  | some projectId =>
      match uuid projectId, parseUuid userId with
      | some pid, .ok uid => .ok (some (pid, uid))
      | _, _ => .error (.memory .valueError)

/-- The rows of a read that has a limit. -/
def limitedRows (projectId userId : Option String) (limit : ℤ)
    (query : String → Option String → ℕ → List MemoryRecord) :
    Except MemoryReadError (List MemoryRecord) := do
  match ← readScope projectId userId with
  | none => return []
  | some (pid, uid) =>
      if limit < 0 then throw .negativeLimit
      return query pid uid limit.toNat

def unexpired (now : ℤ) (records : List MemoryRecord) : List MemoryRecord :=
  records.filter fun r => ¬r.Expired now

/-- `_compute_text_score`, in tenths. -/
def computeTextScore (queryLower content key : String) : ℕ :=
  (if isInfix queryLower (lower key) then 3 else 0) +
    if isInfix queryLower (lower content) then 10 else 0

def foundBySearch (query : String) (projectId userId memoryType : Option String) (limit : ℤ)
    (t : MemoryTable) : Except MemoryReadError (List MemoryRecord) :=
  limitedRows projectId userId limit fun pid uid limit =>
    searchRecords Q pid query uid memoryType limit t

def searchMemories (now : ℤ) (query : String) (projectId userId memoryType : Option String)
    (limit : ℤ) (t : MemoryTable) : Except MemoryReadError (List (MemoryRecord × ℕ)) := do
  let records ← foundBySearch Q query projectId userId memoryType limit t
  let scored := (unexpired now records).map fun r =>
    (r, computeTextScore (lower query) (r.content.getD "") r.key)
  return (scored.insertionSort fun entry entry' => entry'.2 ≤ entry.2).take limit.toNat

def foundByList (projectId userId memoryType : Option String) (limit : ℤ) (t : MemoryTable) :
    Except MemoryReadError (List MemoryRecord) :=
  limitedRows projectId userId limit fun pid uid limit =>
    listByScope Q pid uid memoryType limit t.rows

def listMemories (now : ℤ) (projectId userId memoryType : Option String) (limit : ℤ)
    (t : MemoryTable) : Except MemoryReadError (List MemoryRecord) := do
  return unexpired now (← foundByList Q projectId userId memoryType limit t)

/-- The messages that `_get_conversation_context` puts into a prompt. -/
def recentMessages (conversationId : String) (projectId userId : Option String)
    (t : MemoryTable) : List MemoryRecord :=
  match uuid conversationId, parseUuid projectId, parseUuid userId with
  | some cid, .ok pid, .ok uid =>
      let records := Q.arrange (t.rows.filter fun r =>
        r.conversationId = some cid ∧ pid.all (r.projectId = ·) ∧ uid.all (r.userId = some ·))
      lastN 10 <| (records.filter fun r =>
          r.content.getD "" ≠ "" ∧ r.parentKey.getD "" = "").insertionSort
        fun r r' => r.createdAt ≤ r'.createdAt
  | _, _, _ => []

def getConversationContext (conversationId : String) (projectId userId : Option String)
    (t : MemoryTable) : Option String :=
  match recentMessages Q conversationId projectId userId t with
  | [] => none
  | recent => some (String.intercalate "\n" (recent.map fun r => r.content.getD ""))

/-- The records that `_get_memory_context` puts into a prompt. -/
def contextRecords (projectId query : String) (userId : Option String) (t : MemoryTable) :
    List MemoryRecord :=
  match userId.filter (· ≠ ""), uuid projectId, parseUuid userId with
  | some _, some pid, .ok uid =>
      (searchRecords Q pid query uid none 5 t).filter fun r => r.content.getD "" ≠ ""
  | _, _, _ => []

def getMemoryContext (projectId query : String) (userId : Option String) (t : MemoryTable) :
    Option String :=
  match contextRecords Q projectId query userId t with
  | [] => none
  | records => some (String.intercalate "\n" (records.map fun r =>
      "[memory:" ++ r.key ++ "] " ++ String.ofList ((r.content.getD "").toList.take 500)))

end

inductive MemoryRead where
  | getMemory (key : String) (projectId userId : Option String)
  | searchMemories (query : String) (projectId userId memoryType : Option String) (limit : ℤ)
  | listMemories (projectId userId memoryType : Option String) (limit : ℤ)
  | conversationContext (conversationId : String) (projectId userId : Option String)
  | memoryContext (projectId query : String) (userId : Option String)

namespace MemoryRead

variable (Q : MemoryQueries)

/-- The records that the query of a read returns, for a context those that it uses. -/
def found (t : MemoryTable) : MemoryRead → List MemoryRecord
  | getMemory key projectId userId => (findMemory key projectId userId t).toOption.join.toList
  | searchMemories query projectId userId memoryType limit =>
      (foundBySearch Q query projectId userId memoryType limit t).toOption.getD []
  | listMemories projectId userId memoryType limit =>
      (foundByList Q projectId userId memoryType limit t).toOption.getD []
  | conversationContext conversationId projectId userId =>
      recentMessages Q conversationId projectId userId t
  | memoryContext projectId query userId => contextRecords Q projectId query userId t

/-- The records that a read shows. -/
def shown (now : ℤ) (t : MemoryTable) : MemoryRead → List MemoryRecord
  | getMemory key projectId userId =>
      (Zyntry.getMemory now key projectId userId t).toOption.join.toList
  | searchMemories query projectId userId memoryType limit =>
      ((Zyntry.searchMemories Q now query projectId userId memoryType limit t).toOption.getD
        []).map Prod.fst
  | listMemories projectId userId memoryType limit =>
      (Zyntry.listMemories Q now projectId userId memoryType limit t).toOption.getD []
  | conversationContext conversationId projectId userId =>
      recentMessages Q conversationId projectId userId t
  | memoryContext projectId query userId => contextRecords Q projectId query userId t

/-- A search shows no more entries than its limit. -/
def HasRoom (n : ℕ) : MemoryRead → Prop
  | searchMemories _ _ _ _ limit => (n : ℤ) < limit
  | _ => True

/-- A read hides a record that it finds if it has room for it and does not show it. -/
def Hides (now : ℤ) (t : MemoryTable) (read : MemoryRead) (r : MemoryRecord) : Prop :=
  r ∈ read.found Q t ∧ r ∉ read.shown Q now t ∧ read.HasRoom (read.shown Q now t).length

end MemoryRead

/-! ## Runs -/

/-- The expiry that a write prescribes. -/
def AddMemory.prescribed (a : AddMemory) (now : ℤ) : Option ℤ :=
  if a.pinned then none
  else (a.ttl.or ((defaultTtlByType a.memoryType).map (· * 3600))).map (now + microseconds ·)

/-- The scope in which `add_memory` looks for a record. -/
def AddMemory.scope (a : AddMemory) : Option MemoryScope :=
  match parseUuid a.projectId, parseUuid a.userId, parseUuid a.conversationId with
  | .ok (some pid), .ok uid, .ok cid => some ⟨pid, a.key, uid, cid, a.sessionId⟩
  | _, _, _ => none

/-- The table, and for each row what the latest `add_memory` of it prescribed. -/
structure RetentionState where
  table : MemoryTable := default
  prescribed : ℕ → Option ℤ := fun _ => none

inductive RetentionCall where
  | addMemory (a : AddMemory)
  | deleteMemory (key : String) (projectId userId : Option String)
  | cleanupExpired
  | read (read : MemoryRead)

/-- A call at a time, with the id of a new record, and whether the database takes the write. -/
structure RetentionStep where
  call : RetentionCall
  now : ℤ
  id : ℕ := 0
  accepted : Bool := true

/-- The write of a call, if it is one. -/
def RetentionCall.memoryCall : RetentionCall → Option MemoryCall
  | addMemory a => some (.addMemory a)
  | deleteMemory key projectId userId => some (.deleteMemory key projectId userId)
  | cleanupExpired => some .cleanupExpired
  | read _ => none

def RetentionStep.table (k : RetentionStep) (t : MemoryTable) : MemoryTable :=
  match k.call.memoryCall with
  | none => t
  | some call => memoryStep {} t { call, now := k.now, id := k.id, accepted := k.accepted }

/-- The row that an accepted `add_memory` writes. -/
def writtenRow (t : MemoryTable) : MemoryWrite → Option ℕ
  | .create record => if (t.get? record.id).isNone then some record.id else none
  | .replace record => some record.id
  | _ => none

def RetentionStep.written (k : RetentionStep) (t : MemoryTable) : Option (ℕ × Option ℤ) :=
  match k.call with
  | .addMemory a =>
      match addMemory k.now k.id a t with
      | .ok w =>
          if k.accepted then (writtenRow t w).map fun id => (id, a.prescribed k.now) else none
      | .error _ => none
  | _ => none

def retentionStep (s : RetentionState) (k : RetentionStep) : RetentionState where
  table := k.table s.table
  prescribed :=
    match k.written s.table with
    | none => s.prescribed
    | some (id, expiry) => Function.update s.prescribed id expiry

section

variable (Q : MemoryQueries)

/-- Every record has the expiry of its latest write, a record without one is neither cleaned
up nor hidden, and no read shows a record whose lifetime has elapsed. -/
structure Retains (s : RetentionState) (k : RetentionStep) : Prop where
  expiry : ∀ r ∈ (retentionStep s k).table.rows,
    r.expiresAt = (retentionStep s k).prescribed r.id
  kept : k.call = .cleanupExpired → ∀ r ∈ s.table.rows, s.prescribed r.id = none →
    r ∈ (retentionStep s k).table.rows
  visible : ∀ read, k.call = .read read → ∀ r, s.prescribed r.id = none →
    ¬read.Hides Q k.now s.table r
  elapsed : ∀ read, k.call = .read read → ∀ r ∈ read.shown Q k.now s.table,
    ∀ expiry ∈ s.prescribed r.id, k.now ≤ expiry

/-- A write without expiry finds no record that has one, and a context for a prompt uses no
record that has expired. -/
def RespectsRetention (s : RetentionState) (k : RetentionStep) : Prop :=
  match k.call with
  | .addMemory a => k.accepted = true → a.prescribed k.now = none →
      ∀ r ∈ s.table.rows, a.scope = some r.scope → r.expiresAt = none
  | .read (.conversationContext conversationId projectId userId) =>
      ∀ r ∈ recentMessages Q conversationId projectId userId s.table, ¬r.Expired k.now
  | .read (.memoryContext projectId query userId) =>
      ∀ r ∈ contextRecords Q projectId query userId s.table, ¬r.Expired k.now
  | _ => True

end

/-! ## Reads find rows of the table -/

variable {Q : MemoryQueries} {t : MemoryTable} {r : MemoryRecord} {now : ℤ}

theorem mem_of_mem_newestRows {limit : ℕ} {rows : List MemoryRecord}
    (h : r ∈ newestRows Q limit rows) : r ∈ rows :=
  (Q.perm rows).mem_iff.mp (mem_of_mem_newest h)

theorem mem_of_mem_searchRecords {projectId query : String} {userId memoryType : Option String}
    {limit : ℕ} (h : r ∈ searchRecords Q projectId query userId memoryType limit t) :
    r ∈ t.rows :=
  List.mem_of_mem_filter (mem_of_mem_newestRows h)

theorem mem_of_mem_listByScope {projectId : String} {userId memoryType : Option String}
    {limit : ℕ} {rows : List MemoryRecord}
    (h : r ∈ listByScope Q projectId userId memoryType limit rows) : r ∈ rows :=
  List.mem_of_mem_filter (mem_of_mem_newestRows h)

theorem mem_of_mem_limitedRows {projectId userId : Option String} {limit : ℤ}
    {query : String → Option String → ℕ → List MemoryRecord}
    (hquery : ∀ pid uid n, ∀ r ∈ query pid uid n, r ∈ t.rows) {records : List MemoryRecord}
    (h : limitedRows projectId userId limit query = .ok records) (hr : r ∈ records) :
    r ∈ t.rows := by
  obtain ⟨scope, -, h⟩ := bind_eq_ok.mp h
  cases scope with
  | none =>
    cases h
    cases hr
  | some scope =>
    dsimp only at h
    split_ifs at h
    · cases h
    · cases h
      exact hquery _ _ _ r hr

theorem mem_of_mem_recentMessages {conversationId : String} {projectId userId : Option String}
    (h : r ∈ recentMessages Q conversationId projectId userId t) : r ∈ t.rows := by
  unfold recentMessages at h
  split at h
  · have hsorted := (List.mem_insertionSort _).mp (mem_of_mem_lastN h)
    have harranged := (Q.perm _).mem_iff.mp (List.mem_of_mem_filter hsorted)
    exact List.mem_of_mem_filter harranged
  · cases h

theorem mem_of_mem_contextRecords {projectId query : String} {userId : Option String}
    (h : r ∈ contextRecords Q projectId query userId t) : r ∈ t.rows := by
  unfold contextRecords at h
  split at h
  · exact mem_of_mem_searchRecords (List.mem_of_mem_filter h)
  · cases h

theorem mem_of_findMemory {key : String} {projectId userId : Option String}
    (h : findMemory key projectId userId t = .ok (some r)) : r ∈ t.rows := by
  unfold findMemory at h
  split at h
  · cases h
  · split at h
    · cases h
    · obtain ⟨uid, -, h⟩ := bind_eq_ok.mp h
      exact (getByKeyAndScope_some h).1

theorem mem_of_foundBySearch {query : String} {projectId userId memoryType : Option String}
    {limit : ℤ} {records : List MemoryRecord}
    (h : foundBySearch Q query projectId userId memoryType limit t = .ok records)
    (hr : r ∈ records) : r ∈ t.rows := by
  unfold foundBySearch at h
  refine mem_of_mem_limitedRows ?_ h hr
  intro pid uid n row hrow
  exact mem_of_mem_searchRecords hrow

theorem mem_of_foundByList {projectId userId memoryType : Option String} {limit : ℤ}
    {records : List MemoryRecord}
    (h : foundByList Q projectId userId memoryType limit t = .ok records) (hr : r ∈ records) :
    r ∈ t.rows := by
  unfold foundByList at h
  refine mem_of_mem_limitedRows ?_ h hr
  intro pid uid n row hrow
  exact mem_of_mem_listByScope hrow

theorem exists_of_mem_getD {ε α : Type} {x : Except ε (List α)} {a : α}
    (h : a ∈ x.toOption.getD []) : ∃ l, x = .ok l ∧ a ∈ l := by
  cases x with
  | error e => cases h
  | ok l => exact ⟨l, rfl, h⟩

theorem MemoryRead.mem_of_mem_found {read : MemoryRead} (h : r ∈ read.found Q t) :
    r ∈ t.rows := by
  cases read with
  | getMemory key projectId userId =>
    dsimp only [MemoryRead.found] at h
    cases hfind : findMemory key projectId userId t with
    | error e =>
      rw [hfind] at h
      cases h
    | ok found =>
      rw [hfind] at h
      have hfound : found = some r := Option.mem_toList.mp h
      rw [hfound] at hfind
      exact mem_of_findMemory hfind
  | searchMemories query projectId userId memoryType limit =>
    dsimp only [MemoryRead.found] at h
    obtain ⟨records, hfound, hr⟩ := exists_of_mem_getD h
    exact mem_of_foundBySearch hfound hr
  | listMemories projectId userId memoryType limit =>
    dsimp only [MemoryRead.found] at h
    obtain ⟨records, hfound, hr⟩ := exists_of_mem_getD h
    exact mem_of_foundByList hfound hr
  | conversationContext conversationId projectId userId =>
    dsimp only [MemoryRead.found] at h
    exact mem_of_mem_recentMessages h
  | memoryContext projectId query userId =>
    dsimp only [MemoryRead.found] at h
    exact mem_of_mem_contextRecords h

/-! ## What a read shows -/

theorem mem_unexpired {records : List MemoryRecord} :
    r ∈ unexpired now records ↔ r ∈ records ∧ ¬r.Expired now := by
  simp [unexpired]

theorem shown_getMemory (key : String) (projectId userId : Option String) :
    (MemoryRead.getMemory key projectId userId).shown Q now t =
      unexpired now ((MemoryRead.getMemory key projectId userId).found Q t) := by
  simp only [MemoryRead.shown, MemoryRead.found, getMemory]
  cases findMemory key projectId userId t with
  | error e => rfl
  | ok found =>
    cases found with
    | none => rfl
    | some record =>
      change ((some record).filter fun r => decide ¬r.Expired now).toList =
        [record].filter fun r => decide ¬r.Expired now
      by_cases hexpired : record.Expired now
      · simp [Option.filter, hexpired]
      · simp [Option.filter, hexpired]

theorem shown_listMemories (projectId userId memoryType : Option String) (limit : ℤ) :
    (MemoryRead.listMemories projectId userId memoryType limit).shown Q now t =
      unexpired now ((MemoryRead.listMemories projectId userId memoryType limit).found Q t) := by
  simp only [MemoryRead.shown, MemoryRead.found, listMemories]
  cases foundByList Q projectId userId memoryType limit t with
  | error e => rfl
  | ok records => rfl

/-- A search shows the best of the records that have not expired. -/
theorem shown_searchMemories (query : String) (projectId userId memoryType : Option String)
    (limit : ℤ) :
    ∃ entries : List (MemoryRecord × ℕ), (entries.map Prod.fst).Perm (unexpired now
        ((MemoryRead.searchMemories query projectId userId memoryType limit).found Q t)) ∧
      (MemoryRead.searchMemories query projectId userId memoryType limit).shown Q now t =
        (entries.take limit.toNat).map Prod.fst := by
  simp only [MemoryRead.shown, MemoryRead.found, searchMemories]
  cases foundBySearch Q query projectId userId memoryType limit t with
  | error e => exact ⟨[], .nil, by rw [List.take_nil]; rfl⟩
  | ok records =>
    refine ⟨_, ?_, rfl⟩
    refine ((List.perm_insertionSort _ _).map Prod.fst).trans (.of_eq ?_)
    rw [List.map_map]
    exact List.map_id _

def MemoryRead.LooksAtExpiry : MemoryRead → Prop
  | getMemory .. => True
  | searchMemories .. => True
  | listMemories .. => True
  | _ => False

theorem MemoryRead.LooksAtExpiry.mem_shown {read : MemoryRead} (h : read.LooksAtExpiry)
    (hr : r ∈ read.shown Q now t) : r ∈ read.found Q t ∧ ¬r.Expired now := by
  cases read with
  | getMemory key projectId userId =>
    rw [shown_getMemory] at hr
    exact mem_unexpired.mp hr
  | searchMemories query projectId userId memoryType limit =>
    obtain ⟨entries, hperm, hshown⟩ := @shown_searchMemories Q t now query projectId
      userId memoryType limit
    rw [hshown, List.map_take] at hr
    exact mem_unexpired.mp (hperm.mem_iff.mp (List.mem_of_mem_take hr))
  | listMemories projectId userId memoryType limit =>
    rw [shown_listMemories] at hr
    exact mem_unexpired.mp hr
  | conversationContext conversationId projectId userId => cases h
  | memoryContext projectId query userId => cases h

theorem MemoryRead.mem_of_mem_shown {read : MemoryRead} (h : r ∈ read.shown Q now t) :
    r ∈ t.rows := by
  cases read with
  | getMemory key projectId userId =>
    have hlooks : (getMemory key projectId userId).LooksAtExpiry := trivial
    exact mem_of_mem_found (hlooks.mem_shown h).1
  | searchMemories query projectId userId memoryType limit =>
    have hlooks : (searchMemories query projectId userId memoryType limit).LooksAtExpiry := trivial
    exact mem_of_mem_found (hlooks.mem_shown h).1
  | listMemories projectId userId memoryType limit =>
    have hlooks : (listMemories projectId userId memoryType limit).LooksAtExpiry := trivial
    exact mem_of_mem_found (hlooks.mem_shown h).1
  | conversationContext conversationId projectId userId =>
    dsimp only [MemoryRead.shown] at h
    exact mem_of_mem_recentMessages h
  | memoryContext projectId query userId =>
    dsimp only [MemoryRead.shown] at h
    exact mem_of_mem_contextRecords h

/-- A read hides only what has expired. -/
theorem MemoryRead.Hides.expired {read : MemoryRead} (h : read.Hides Q now t r) :
    r.Expired now := by
  obtain ⟨hfound, hshown, hroom⟩ := h
  by_contra hexpired
  cases read with
  | getMemory key projectId userId =>
    rw [shown_getMemory] at hshown
    exact hshown (mem_unexpired.mpr ⟨hfound, hexpired⟩)
  | searchMemories query projectId userId memoryType limit =>
    obtain ⟨entries, hperm, hentries⟩ := @shown_searchMemories Q t now query projectId
      userId memoryType limit
    rw [hentries] at hshown hroom
    have hall : entries.length ≤ limit.toNat := by
      simp only [MemoryRead.HasRoom, List.length_map, List.length_take] at hroom
      omega
    rw [List.take_of_length_le hall] at hshown
    exact hshown (hperm.mem_iff.mpr (mem_unexpired.mpr ⟨hfound, hexpired⟩))
  | listMemories projectId userId memoryType limit =>
    rw [shown_listMemories] at hshown
    exact hshown (mem_unexpired.mpr ⟨hfound, hexpired⟩)
  | conversationContext conversationId projectId userId => exact hshown hfound
  | memoryContext projectId query userId => exact hshown hfound

/-! ## Writes -/

theorem AddMemory.eq_prescribed {a : AddMemory} {expiry : Option ℤ}
    (h : a.expiresAt now = .ok expiry) : expiry = a.prescribed now := by
  unfold AddMemory.expiresAt at h
  unfold AddMemory.prescribed
  split_ifs at h with hpinned
  · cases h
    rw [if_pos hpinned]
  · rw [if_neg hpinned]
    cases httl : a.ttl.or ((defaultTtlByType a.memoryType).map (· * 3600)) with
    | none =>
      rw [httl] at h
      cases h
      rfl
    | some ttl =>
      rw [httl] at h
      dsimp only at h
      split_ifs at h
      cases h
      rfl

theorem AddMemory.expiresAt_eq_none {a : AddMemory} (h : a.prescribed now = none) :
    a.expiresAt now = .ok none := by
  unfold AddMemory.prescribed at h
  unfold AddMemory.expiresAt
  split_ifs at h ⊢
  · rfl
  · rw [Option.map_eq_none_iff.mp h]

theorem AddMemory.prescribed_pinned {a : AddMemory} (h : a.pinned = true) :
    a.prescribed now = none := if_pos h

theorem AddMemory.scope_eq_some {a : AddMemory} {scope : MemoryScope}
    (h : a.scope = some scope) :
    ∃ pid uid cid, parseUuid a.projectId = .ok (some pid) ∧ parseUuid a.userId = .ok uid ∧
      parseUuid a.conversationId = .ok cid ∧ scope = ⟨pid, a.key, uid, cid, a.sessionId⟩ := by
  unfold AddMemory.scope at h
  split at h
  · next pid uid cid hpid huid hcid => exact ⟨pid, uid, cid, hpid, huid, hcid, by cases h; rfl⟩
  · cases h

/-- What `add_memory` writes: into the record of its scope, or a new record. -/
theorem addMemory_cases {id : ℕ} {a : AddMemory} {w : MemoryWrite}
    (h : addMemory now id a t = .ok w) :
    (∃ existing ∈ t.rows, a.scope = some existing.scope ∧
      ∃ uid cid, w = .replace (a.updated uid cid (a.prescribed now) existing)) ∨
    ∃ record, w = .create record ∧ record.expiresAt = a.prescribed now ∧
      record.pinned = a.pinned := by
  unfold addMemory at h
  obtain ⟨pid, hpid, h⟩ := bind_eq_ok.mp h
  obtain ⟨uid, huid, h⟩ := bind_eq_ok.mp h
  obtain ⟨cid, hcid, h⟩ := bind_eq_ok.mp h
  obtain ⟨expiry, hexpiry, h⟩ := bind_eq_ok.mp h
  rw [AddMemory.eq_prescribed hexpiry] at h
  cases pid with
  | none => cases h
  | some pid =>
    obtain ⟨existing, hlookup, h⟩ := bind_eq_ok.mp h
    cases existing with
    | none =>
      cases h
      exact .inr ⟨_, rfl, rfl, rfl⟩
    | some existing =>
      cases h
      obtain ⟨hmem, hscope⟩ := getByKeyAndScope_some hlookup
      refine .inl ⟨existing, hmem, ?_, uid, cid, rfl⟩
      rw [AddMemory.scope, hpid, huid, hcid, hscope]

/-- A write without expiry into a record that the lookup finds. -/
theorem addMemory_replaces (id : ℕ) {a : AddMemory} {existing : MemoryRecord}
    (hunique : ScopesUnique t) (hmem : existing ∈ t.rows) (hscope : a.scope = some existing.scope)
    (hexpiry : a.prescribed now = none) :
    ∃ uid cid, addMemory now id a t = .ok (.replace (a.updated uid cid none existing)) := by
  obtain ⟨pid, uid, cid, hpid, huid, hcid, hexisting⟩ := AddMemory.scope_eq_some hscope
  have hlookup : getByKeyAndScope t existing.scope = .ok (some existing) := by
    obtain ⟨found, hfound⟩ := hunique.lookup existing.scope
    cases found with
    | none => exact absurd rfl (getByKeyAndScope_none hfound existing hmem)
    | some record =>
      obtain ⟨hrow, hsame⟩ := getByKeyAndScope_some hfound
      have hid : record.id = existing.id := hunique record hrow existing hmem hsame
      have hget := RowTable.get?_of_mem hrow
      rw [hid, RowTable.get?_of_mem hmem] at hget
      rw [hfound, Option.some.inj hget]
  refine ⟨uid, cid, ?_⟩
  rw [hexisting] at hlookup
  unfold addMemory
  rw [hpid, huid, hcid, AddMemory.expiresAt_eq_none hexpiry]
  change (getByKeyAndScope t ⟨pid, a.key, uid, cid, a.sessionId⟩ >>= _) = _
  rw [hlookup]
  rfl

/-! ## Steps -/

variable {s : RetentionState} {k : RetentionStep}

/-- The invariant of a run. -/
structure RetentionState.Consistent (s : RetentionState) : Prop where
  scopes : ScopesUnique s.table
  expiry : ∀ r ∈ s.table.rows, r.expiresAt = s.prescribed r.id
  pinned : ∀ r ∈ s.table.rows, r.pinned = true → r.expiresAt = none

theorem RetentionState.consistent_empty : RetentionState.Consistent {} where
  scopes := RowTable.exclusive_empty
  expiry r hr := by cases hr
  pinned r hr := by cases hr

theorem RetentionState.Consistent.expired_iff {r : MemoryRecord} (h : s.Consistent)
    (hr : r ∈ s.table.rows) :
    r.Expired now ↔ ∃ expiry ∈ s.prescribed r.id, expiry < now := by
  rw [← h.expiry r hr]
  refine ⟨And.left, fun hexpired => ⟨hexpired, ?_⟩⟩
  obtain ⟨expiry, hexpiry, -⟩ := hexpired
  by_contra hpinned
  rw [h.pinned r hr (Bool.eq_true_of_not_eq_false hpinned)] at hexpiry
  cases hexpiry

theorem ScopesUnique.retentionStep (h : ScopesUnique s.table) (k : RetentionStep) :
    ScopesUnique (retentionStep s k).table := by
  change ScopesUnique (k.table s.table)
  unfold RetentionStep.table
  cases hcall : k.call with
  | addMemory a => exact h.step (createsOwnScope_addMemory rfl)
  | read read => exact h
  | deleteMemory key projectId userId =>
    refine h.step fun record hwrite => ?_
    obtain ⟨found, -, hfound⟩ := bind_eq_ok.mp hwrite
    cases found <;> cases hfound
  | cleanupExpired =>
    refine h.step fun record hwrite => ?_
    cases hwrite

/-- An `add_memory` that writes nothing. -/
theorem retentionStep_refused {a : AddMemory} (hcall : k.call = .addMemory a)
    (h : k.accepted = false ∨ ∃ e, addMemory k.now k.id a s.table = .error e) :
    retentionStep s k = s := by
  have htable : k.table s.table = s.table := by
    unfold RetentionStep.table
    rw [hcall]
    dsimp only [RetentionCall.memoryCall, memoryStep, MemoryStep.write]
    rcases h with h | ⟨e, h⟩
    · rw [h]
      cases addMemory k.now k.id a s.table <;> rfl
    · rw [h]
  have hwritten : k.written s.table = none := by
    unfold RetentionStep.written
    rw [hcall]
    dsimp only
    rcases h with h | ⟨e, h⟩
    · rw [h]
      cases addMemory k.now k.id a s.table <;> rfl
    · rw [h]
  simp only [retentionStep, htable, hwritten]

/-- An `add_memory` whose write the database takes. -/
theorem retentionStep_addMemory {a : AddMemory} {w : MemoryWrite}
    (hcall : k.call = .addMemory a) (haccepted : k.accepted = true)
    (h : addMemory k.now k.id a s.table = .ok w) :
    (retentionStep s k).table = w.apply s.table ∧
      (retentionStep s k).prescribed =
        match writtenRow s.table w with
        | none => s.prescribed
        | some id => Function.update s.prescribed id (a.prescribed k.now) := by
  constructor
  · change k.table s.table = _
    unfold RetentionStep.table
    rw [hcall]
    dsimp only [RetentionCall.memoryCall, memoryStep, MemoryStep.write]
    rw [h, haccepted]
    rfl
  · have hwritten : k.written s.table =
        (writtenRow s.table w).map fun id => (id, a.prescribed k.now) := by
      unfold RetentionStep.written
      rw [hcall]
      dsimp only
      rw [h, haccepted]
      rfl
    simp only [retentionStep, hwritten]
    cases writtenRow s.table w <;> rfl

/-- Every record has the expiry of its latest write, and a pinned one has none. -/
theorem rows_of_create {a : AddMemory} {record : MemoryRecord} (hs : s.Consistent)
    (hcall : k.call = .addMemory a) (haccepted : k.accepted = true)
    (h : addMemory k.now k.id a s.table = .ok (.create record))
    (hexpiry : record.expiresAt = a.prescribed k.now) (hpinned : record.pinned = a.pinned) :
    ∀ r ∈ (retentionStep s k).table.rows, r.expiresAt = (retentionStep s k).prescribed r.id ∧
      (r.pinned = true → r.expiresAt = none) := by
  obtain ⟨htable, hprescribed⟩ := retentionStep_addMemory hcall haccepted h
  intro r hr
  rw [htable, MemoryWrite.apply] at hr
  rw [hprescribed]
  cases hget : s.table.get? record.id with
  | some row =>
    rw [RowTable.insert_eq_self hget] at hr
    simp only [writtenRow, hget, Option.isNone_some, Bool.false_eq_true, if_false]
    exact ⟨hs.expiry r hr, hs.pinned r hr⟩
  | none =>
    rw [RowTable.rows_insert hget] at hr
    simp only [writtenRow, hget, Option.isNone_none, if_true]
    rcases List.mem_append.mp hr with hr | hr
    · rw [Function.update_of_ne (RowTable.get?_none_ne hget r hr)]
      exact ⟨hs.expiry r hr, hs.pinned r hr⟩
    · obtain rfl := List.mem_singleton.mp hr
      rw [Function.update_self, hexpiry, hpinned]
      exact ⟨rfl, AddMemory.prescribed_pinned⟩

theorem rows_of_replace {a : AddMemory} {existing : MemoryRecord} {uid cid : Option String}
    (hs : s.Consistent) (hcall : k.call = .addMemory a) (haccepted : k.accepted = true)
    (hmem : existing ∈ s.table.rows) (h : addMemory k.now k.id a s.table =
      .ok (.replace (a.updated uid cid (a.prescribed k.now) existing))) :
    (∀ r ∈ (retentionStep s k).table.rows,
        r.expiresAt = (retentionStep s k).prescribed r.id) ↔
      (a.prescribed k.now).or existing.expiresAt = a.prescribed k.now := by
  obtain ⟨htable, hprescribed⟩ := retentionStep_addMemory hcall haccepted h
  have hget := RowTable.get?_of_mem hmem
  rw [htable, hprescribed]
  dsimp only [writtenRow, MemoryWrite.apply, AddMemory.updated]
  constructor
  · intro hall
    have hself := RowTable.get?_update_self s.table existing.id
      (fun r => { a.updated uid cid (a.prescribed k.now) existing with id := r.id }) fun _ => rfl
    rw [hget] at hself
    have hrow := hall _ (RowTable.get?_some_mem hself)
    dsimp only [AddMemory.updated] at hrow
    rwa [Function.update_self] at hrow
  · intro hsame r hr
    obtain ⟨hrow, hne⟩ | ⟨row, hrow, rfl⟩ := RowTable.mem_rows_update _ hr
    · rw [Function.update_of_ne hne]
      exact hs.expiry r hrow
    · dsimp only
      rw [RowTable.get?_some_key hrow, Function.update_self]
      exact hsame

theorem pinned_of_replace {a : AddMemory} {existing : MemoryRecord} {uid cid : Option String}
    (hs : s.Consistent) (hcall : k.call = .addMemory a) (haccepted : k.accepted = true)
    (h : addMemory k.now k.id a s.table =
      .ok (.replace (a.updated uid cid (a.prescribed k.now) existing)))
    (hsame : (a.prescribed k.now).or existing.expiresAt = a.prescribed k.now) :
    ∀ r ∈ (retentionStep s k).table.rows, r.pinned = true → r.expiresAt = none := by
  obtain ⟨htable, -⟩ := retentionStep_addMemory hcall haccepted h
  rw [htable]
  dsimp only [MemoryWrite.apply]
  intro r hr
  obtain ⟨hrow, -⟩ | ⟨row, -, rfl⟩ := RowTable.mem_rows_update _ hr
  · exact hs.pinned r hrow
  · intro hpinned
    dsimp only [AddMemory.updated] at hpinned ⊢
    rw [hsame]
    exact AddMemory.prescribed_pinned hpinned

theorem retentionStep_deleteMemory {key : String} {projectId userId : Option String}
    (hcall : k.call = .deleteMemory key projectId userId) :
    (retentionStep s k).prescribed = s.prescribed ∧
      ∀ r ∈ (retentionStep s k).table.rows, r ∈ s.table.rows := by
  have hwritten : k.written s.table = none := by
    unfold RetentionStep.written
    rw [hcall]
  refine ⟨by simp only [retentionStep, hwritten], ?_⟩
  change ∀ r ∈ (k.table s.table).rows, r ∈ s.table.rows
  unfold RetentionStep.table
  rw [hcall]
  dsimp only [RetentionCall.memoryCall, memoryStep, MemoryStep.write]
  generalize hwrite : deleteMemory key projectId userId s.table = result
  intro r hr
  cases result with
  | error e => exact hr
  | ok w =>
    dsimp only at hr
    split_ifs at hr
    · obtain ⟨found, -, hfound⟩ := bind_eq_ok.mp hwrite
      cases found <;> cases hfound
      · exact hr
      · exact RowTable.mem_rows_of_delete hr
    · exact hr

/-- A cleanup deletes what has expired, and nothing else. -/
theorem retentionStep_cleanupExpired (hcall : k.call = .cleanupExpired) :
    (retentionStep s k).prescribed = s.prescribed ∧
      ∀ r, r ∈ (retentionStep s k).table.rows ↔
        r ∈ s.table.rows ∧ (k.accepted = true → ¬r.Expired k.now) := by
  have hwritten : k.written s.table = none := by
    unfold RetentionStep.written
    rw [hcall]
  refine ⟨by simp only [retentionStep, hwritten], fun r => ?_⟩
  change r ∈ (k.table s.table).rows ↔ _
  unfold RetentionStep.table
  rw [hcall]
  dsimp only [RetentionCall.memoryCall, memoryStep, MemoryStep.write, cleanupExpired]
  cases k.accepted with
  | false => exact ⟨fun hr => ⟨hr, nofun⟩, And.left⟩
  | true =>
    change r ∈ (List.foldl RowTable.delete s.table _).rows ↔ _
    rw [RowTable.mem_rows_deleteAll]
    refine and_congr_right fun hr => ?_
    have hexpired : r.id ∈ ((s.table.rows.filter fun r => r.Expired k.now).map
        MemoryRecord.id) ↔ r.Expired k.now := by
      rw [List.mem_map]
      constructor
      · rintro ⟨row, hrow, hid⟩
        obtain ⟨hmem, hexpired⟩ := List.mem_filter.mp hrow
        have hget := RowTable.get?_of_mem hmem
        rw [hid, RowTable.get?_of_mem hr] at hget
        obtain rfl := Option.some.inj hget
        exact of_decide_eq_true hexpired
      · exact fun hexpired => ⟨r, List.mem_filter.mpr ⟨hr, decide_eq_true hexpired⟩, rfl⟩
    rw [hexpired]
    exact ⟨fun h _ => h, fun h => h rfl⟩

theorem retentionStep_read {read : MemoryRead} (hcall : k.call = .read read) :
    retentionStep s k = s := by
  have htable : k.table s.table = s.table := by
    unfold RetentionStep.table
    rw [hcall]
    rfl
  have hwritten : k.written s.table = none := by
    unfold RetentionStep.written
    rw [hcall]
  simp only [retentionStep, htable, hwritten]

/-! ## Retention -/

theorem add_retains_iff {a : AddMemory} (hs : s.Consistent) (hcall : k.call = .addMemory a) :
    (∀ r ∈ (retentionStep s k).table.rows,
        r.expiresAt = (retentionStep s k).prescribed r.id) ↔
      (k.accepted = true → a.prescribed k.now = none →
        ∀ r ∈ s.table.rows, a.scope = some r.scope → r.expiresAt = none) := by
  constructor
  · intro hexpiry haccepted hnone r hr hscope
    obtain ⟨uid, cid, hwrite⟩ := addMemory_replaces k.id hs.scopes hr hscope hnone
    rw [← hnone] at hwrite
    have hsame := (rows_of_replace hs hcall haccepted hr hwrite).mp hexpiry
    rwa [hnone, Option.none_or] at hsame
  · intro hrespects
    cases haccepted : k.accepted with
    | false =>
      rw [retentionStep_refused hcall (.inl haccepted)]
      exact hs.expiry
    | true =>
      cases hwrite : addMemory k.now k.id a s.table with
      | error e =>
        rw [retentionStep_refused hcall (.inr ⟨e, hwrite⟩)]
        exact hs.expiry
      | ok w =>
        obtain ⟨existing, hmem, hscope, uid, cid, rfl⟩ | ⟨record, rfl, hexpiry, hpinned⟩ :=
          addMemory_cases hwrite
        · apply (rows_of_replace hs hcall haccepted hmem hwrite).mpr
          cases hprescribed : a.prescribed k.now with
          | some expiry => rfl
          | none => exact hrespects haccepted hprescribed existing hmem hscope
        · exact fun r hr => (rows_of_create hs hcall haccepted hwrite hexpiry hpinned r hr).1

/-- In a consistent state a read shows nothing that has elapsed if it shows nothing expired. -/
theorem RetentionState.Consistent.elapsed_iff {read : MemoryRead} (hs : s.Consistent) :
    (∀ r ∈ read.shown Q now s.table, ∀ expiry ∈ s.prescribed r.id, now ≤ expiry) ↔
      ∀ r ∈ read.shown Q now s.table, ¬r.Expired now := by
  refine forall₂_congr fun r hr => ?_
  rw [hs.expired_iff (MemoryRead.mem_of_mem_shown hr)]
  simp only [not_exists, not_and, not_lt]

theorem RetentionState.Consistent.visible {read : MemoryRead} {r : MemoryRecord}
    (hs : s.Consistent) (h : s.prescribed r.id = none) : ¬read.Hides Q now s.table r := by
  intro hhides
  obtain ⟨expiry, hexpiry, -⟩ :=
    (hs.expired_iff (MemoryRead.mem_of_mem_found hhides.1)).mp hhides.expired
  rw [h] at hexpiry
  cases hexpiry

theorem read_retains_iff {read : MemoryRead} (hs : s.Consistent) (hcall : k.call = .read read) :
    (∀ r ∈ read.shown Q k.now s.table, ∀ expiry ∈ s.prescribed r.id, k.now ≤ expiry) ↔
      RespectsRetention Q s k := by
  unfold RespectsRetention
  rw [hcall]
  have hlooks (h : read.LooksAtExpiry) :
      ∀ r ∈ read.shown Q k.now s.table, ∀ expiry ∈ s.prescribed r.id, k.now ≤ expiry :=
    hs.elapsed_iff.mpr fun r hr => (h.mem_shown hr).2
  cases read with
  | getMemory key projectId userId => exact iff_of_true (hlooks trivial) trivial
  | searchMemories query projectId userId memoryType limit =>
    exact iff_of_true (hlooks trivial) trivial
  | listMemories projectId userId memoryType limit => exact iff_of_true (hlooks trivial) trivial
  | conversationContext conversationId projectId userId =>
    exact hs.elapsed_iff
  | memoryContext projectId query userId =>
    exact hs.elapsed_iff

/-- A call that neither cleans up nor reads only has to keep the expiries. -/
theorem retains_of_expiry (hcleanup : k.call ≠ .cleanupExpired)
    (hread : ∀ read, k.call ≠ .read read)
    (h : ∀ r ∈ (retentionStep s k).table.rows,
      r.expiresAt = (retentionStep s k).prescribed r.id) : Retains Q s k where
  expiry := h
  kept hcall := absurd hcall hcleanup
  visible read hcall := absurd hcall (hread read)
  elapsed read hcall := absurd hcall (hread read)

theorem retains_cleanupExpired (hs : s.Consistent) (hcall : k.call = .cleanupExpired) :
    Retains Q s k := by
  obtain ⟨hprescribed, hrows⟩ := retentionStep_cleanupExpired (s := s) hcall
  refine ⟨?_, ?_, ?_, ?_⟩
  · intro r hr
    rw [hprescribed]
    exact hs.expiry r ((hrows r).mp hr).1
  · intro _ r hr hnone
    refine (hrows r).mpr ⟨hr, fun _ hexpired => ?_⟩
    obtain ⟨expiry, hexpiry, -⟩ := (hs.expired_iff hr).mp hexpired
    rw [hnone] at hexpiry
    cases hexpiry
  · rw [hcall]
    nofun
  · rw [hcall]
    nofun

theorem retains_iff (hs : s.Consistent) : Retains Q s k ↔ RespectsRetention Q s k := by
  cases hcall : k.call with
  | addMemory a =>
    have hrespects := (add_retains_iff hs hcall).symm
    unfold RespectsRetention
    rw [hcall]
    dsimp only
    rw [hrespects]
    refine ⟨Retains.expiry, retains_of_expiry ?_ ?_⟩
    · rw [hcall]
      nofun
    · rw [hcall]
      nofun
  | deleteMemory key projectId userId =>
    obtain ⟨hprescribed, hrows⟩ := retentionStep_deleteMemory (s := s) hcall
    refine iff_of_true (retains_of_expiry ?_ ?_ ?_) (by simp [RespectsRetention, hcall])
    · rw [hcall]
      nofun
    · rw [hcall]
      nofun
    · intro r hr
      rw [hprescribed]
      exact hs.expiry r (hrows r hr)
  | cleanupExpired =>
    exact iff_of_true (retains_cleanupExpired hs hcall) (by simp [RespectsRetention, hcall])
  | read read =>
    rw [← read_retains_iff hs hcall]
    refine ⟨fun h => h.elapsed read hcall, fun h => ⟨?_, ?_, ?_, ?_⟩⟩
    · rw [retentionStep_read hcall]
      exact hs.expiry
    · rw [hcall]
      nofun
    · exact fun _ _ r hnone => hs.visible hnone
    · intro read' hread
      obtain rfl : read = read' := RetentionCall.read.inj (hcall.symm.trans hread)
      exact h

/-- The step lemma. -/
theorem RetentionState.Consistent.step (hs : s.Consistent) (h : Retains Q s k) :
    (retentionStep s k).Consistent := by
  refine ⟨hs.scopes.retentionStep k, h.expiry, ?_⟩
  cases hcall : k.call with
  | deleteMemory key projectId userId =>
    exact fun r hr => hs.pinned r ((retentionStep_deleteMemory hcall).2 r hr)
  | cleanupExpired =>
    exact fun r hr => hs.pinned r (((retentionStep_cleanupExpired hcall).2 r).mp hr).1
  | read read =>
    rw [retentionStep_read hcall]
    exact hs.pinned
  | addMemory a =>
    cases haccepted : k.accepted with
    | false =>
      rw [retentionStep_refused hcall (.inl haccepted)]
      exact hs.pinned
    | true =>
      cases hwrite : addMemory k.now k.id a s.table with
      | error e =>
        rw [retentionStep_refused hcall (.inr ⟨e, hwrite⟩)]
        exact hs.pinned
      | ok w =>
        obtain ⟨existing, hmem, -, uid, cid, rfl⟩ | ⟨record, rfl, hexpiry, hpinned⟩ :=
          addMemory_cases hwrite
        · exact pinned_of_replace hs hcall haccepted hwrite
            ((rows_of_replace hs hcall haccepted hmem hwrite).mp h.expiry)
        · exact fun r hr => (rows_of_create hs hcall haccepted hwrite hexpiry hpinned r hr).2

/-- Retention follows the latest write along exactly those runs in which no write without
expiry meets a record that has one, and no prompt uses an expired record. -/
theorem runs_retain_iff (Q : MemoryQueries) (steps : List RetentionStep) :
    Along retentionStep (Retains Q) {} steps ↔
      Along retentionStep (RespectsRetention Q) {} steps :=
  along_congr (I := RetentionState.Consistent) (fun _ _ => retains_iff)
    (fun _ _ => RetentionState.Consistent.step) RetentionState.consistent_empty

/-! ## A record that is written again, and one that is only read -/

def rowOrder : MemoryQueries where
  arrange := id
  perm _ := .refl _
  ilike pattern text := pattern = "%" ++ text ++ "%"

def memoryProject : String := "00000000-0000-0000-0000-000000000001"

def memoryConversation : String := "00000000-0000-0000-0000-000000000002"

def minuteNote : AddMemory where
  key := "note"
  content := "deploy is frozen"
  projectId := memoryProject
  conversationId := memoryConversation
  ttl := some 60

def noteStep : RetentionStep where
  call := .addMemory minuteNote
  now := 0
  id := 1

/-- The note for a minute, then the same note as a record of the project, without expiry. -/
def rewrittenNote : List RetentionStep :=
  [noteStep,
   { call := .addMemory { minuteNote with memoryType := "project", ttl := none },
     now := microseconds 1, id := 2 }]

/-- The note for a minute, and a prompt two minutes later. -/
def promptedNote : List RetentionStep :=
  [noteStep,
   { call := .read (.conversationContext memoryConversation memoryProject none),
     now := microseconds 120 }]

theorem notes_not_retained :
    ¬Along retentionStep (Retains rowOrder) {} rewrittenNote ∧
      ¬Along retentionStep (Retains rowOrder) {} promptedNote := by
  constructor
  · rintro ⟨-, hsecond, -⟩
    have hrows : ((rewrittenNote.foldl retentionStep {}).table.rows.all fun r =>
        r.expiresAt = (rewrittenNote.foldl retentionStep {}).prescribed r.id) = false := by
      decide +kernel
    have hexpiry : ((rewrittenNote.foldl retentionStep {}).table.rows.all fun r =>
        r.expiresAt = (rewrittenNote.foldl retentionStep {}).prescribed r.id) = true :=
      List.all_eq_true.mpr fun r hr => decide_eq_true (hsecond.expiry r hr)
    rw [hrows] at hexpiry
    cases hexpiry
  · rintro ⟨-, hread, -⟩
    have hshown : ((recentMessages rowOrder memoryConversation memoryProject none
        (retentionStep {} noteStep).table).any fun r =>
          (retentionStep {} noteStep).prescribed r.id = some (microseconds 60)) = true := by
      decide +kernel
    obtain ⟨r, hr, hexpiry⟩ := List.any_eq_true.mp hshown
    have hlate := hread.elapsed _ rfl r hr _ (of_decide_eq_true hexpiry)
    revert hlate
    decide

end Zyntry
