import Zyntry.PythonText
import Zyntry.StepRuns

/-!
# The polls of a watcher

A watcher asks for the items of its lists one request after the other and keeps one cursor,
the stamp of the last item that it has handled. While a poll runs, the source goes on changing,
so that a poll is a sequence of steps: a request is answered, and the items of the answer are
handled one by one. What is stamped later than what is for the service to say, in `instant`.
-/

namespace Zyntry

open Python StepRuns

inductive WatchedList where
  | slackMessages (channel : String)
  | slackReactions
  /-- A table under its quoted name. -/
  | postgresTable (table : String)
  | notionDatabase (id : String)
  | notionBlocks (rootPageId : String)
deriving DecidableEq, Repr

namespace WatchedList

/-- The request for the list names the cursor. -/
def filtered : WatchedList → Bool
  | .slackMessages _ => true
  | .slackReactions => false
  | .postgresTable _ => true
  | .notionDatabase _ => true
  | .notionBlocks _ => false

/-- Slack can answer that it is not `ok`, and then its items are not looked at. -/
def accepts (list : WatchedList) (ok : Bool) : Bool :=
  match list with
  | .slackMessages _ => ok
  | .slackReactions => ok
  | _ => true

end WatchedList

/-- An item as the service shows it, its values as texts. An item that has changed is another
item. -/
structure WatchedItem where
  list : WatchedList
  fields : List (String × Option String)
deriving DecidableEq, Repr

namespace WatchedItem

/-- `item.get(key, "")`, where `None` is no better than no text. -/
def text (v : WatchedItem) (key : String) : String := (v.fields.lookup key).join.getD ""

/-- `str(row.get("updated_at", ""))`. -/
def updatedAt (v : WatchedItem) : String :=
  match v.fields.lookup "updated_at" with
  | none => ""
  | some none => "None"
  | some (some s) => s

/-- What the cursor becomes when the item is handled, unless it is empty. -/
def stamp (v : WatchedItem) : String :=
  match v.list with
  | .slackMessages _ => v.text "ts"
  | .slackReactions => ""
  | .postgresTable _ => v.updatedAt
  | .notionDatabase _ => v.text "last_edited_time"
  | .notionBlocks _ => v.text "last_edited_time"

end WatchedItem

structure WatchRequest where
  list : WatchedList
  since : Option String := none
  limit : Option ℕ := none
deriving DecidableEq, Repr

def isPostgresName (part : String) : Bool :=
  match part.toList with
  | [] => false
  | c :: cs => (c.isAlpha || c = '_') && cs.all fun c => c.isAlphanum || c = '_'

/-- `_safe_postgres_identifier`; a value that is no text is `none`. -/
def safePostgresIdentifier (value : Option String) : Option String := do
  let parts := splitOn '.' (← value)
  if parts.length ≤ 2 ∧ parts.all isPostgresName then
    some (".".intercalate (parts.map fun part => "\"" ++ part ++ "\""))
  else none

/-- The connector of a watcher; what is not configured is empty. -/
inductive WatcherConfig where
  | slack (token channelId : String)
  | postgres (dsn : String) (tables : List (Option String))
  | notion (token : String) (databases : List String) (rootPageId : String)
deriving Repr

namespace WatcherConfig

/-- The requests of a poll, where `now` is in seconds. -/
def requests (c : WatcherConfig) (now : ℤ) (cursor : Option String) : List WatchRequest :=
  match c with
  | .slack token channelId =>
      if token = "" then []
      else
        (if channelId = "" then []
          else [⟨.slackMessages channelId, some (cursor.getD (toString (now - 86400))),
            some 100⟩]) ++ [⟨.slackReactions, none, some 100⟩]
  | .postgres dsn tables =>
      if dsn = "" then []
      else
        (tables.filterMap safePostgresIdentifier).map fun table =>
          ⟨.postgresTable table, cursor, if cursor.isSome then none else some 100⟩
  | .notion token databases rootPageId =>
      if token = "" then []
      else
        (databases.map fun id => ⟨.notionDatabase id, cursor, some 100⟩) ++
          [⟨.notionBlocks rootPageId, none, none⟩]

def lists (c : WatcherConfig) : List WatchedList :=
  (c.requests 0 none).map WatchRequest.list

/-- Every poll asks for the same lists. -/
theorem map_list_requests (c : WatcherConfig) (now : ℤ) (cursor : Option String) :
    (c.requests now cursor).map WatchRequest.list = c.lists := by
  unfold lists requests
  cases c with
  | slack token channelId => dsimp only; split_ifs <;> rfl
  | postgres dsn tables => dsimp only; split_ifs <;> simp
  | notion token databases rootPageId => dsimp only; split_ifs <;> simp

/-- A request for a filtered list names the cursor, once there is one; any other names none. -/
theorem since_requests {c : WatcherConfig} {now : ℤ} {cursor : Option String} {r : WatchRequest}
    (hr : r ∈ c.requests now cursor) :
    (r.list.filtered = true → ∀ k, cursor = some k → r.since = some k) ∧
      (r.list.filtered = false → r.since = none) := by
  unfold requests at hr
  cases c with
  | slack token channelId =>
    dsimp only at hr
    split_ifs at hr
    · cases hr
    · obtain rfl := List.mem_singleton.mp hr
      simp [WatchedList.filtered]
    · obtain rfl | hr := List.mem_cons.mp hr
      · constructor
        · intro _ k hk
          rw [hk, Option.getD_some]
        · intro hlist
          cases hlist
      · obtain rfl := List.mem_singleton.mp hr
        simp [WatchedList.filtered]
  | postgres dsn tables =>
    dsimp only at hr
    by_cases hdsn : dsn = ""
    · rw [if_pos hdsn] at hr
      cases hr
    · rw [if_neg hdsn] at hr
      obtain ⟨table, -, rfl⟩ := List.mem_map.mp hr
      simp [WatchedList.filtered]
  | notion token databases rootPageId =>
    dsimp only at hr
    split_ifs at hr
    · cases hr
    · obtain hr | hr := List.mem_append.mp hr
      · obtain ⟨id, -, rfl⟩ := List.mem_map.mp hr
        simp [WatchedList.filtered]
      · obtain rfl := List.mem_singleton.mp hr
        simp [WatchedList.filtered]

end WatcherConfig

structure WatchState where
  /-- What the source holds. -/
  items : List WatchedItem
  cursor : Option String := none
  emitted : List WatchedItem := []
  /-- The rest of the answer that is being handled. -/
  rows : List WatchedItem := []
  /-- The rest of the requests of the poll. -/
  requests : List WatchRequest := []
deriving DecidableEq, Repr

inductive WatchEvent where
  /-- The source changes. -/
  | edit (items : List WatchedItem)
  | poll (now : ℤ)
  | answer (ok : Bool) (rows : List WatchedItem)
  /-- The next item sets the cursor, and its event is written down or gets lost. -/
  | handle (delivered : Bool)
  /-- A request fails, or the poll is cancelled. -/
  | abort
deriving DecidableEq, Repr

namespace WatchState

def Idle (s : WatchState) : Prop := s.rows = [] ∧ s.requests = []

instance (s : WatchState) : Decidable s.Idle := inferInstanceAs (Decidable (_ ∧ _))

/-- `if stamp: self.last_sync_timestamp = stamp`. -/
def advance (cursor : Option String) (v : WatchedItem) : Option String :=
  if v.stamp = "" then cursor else some v.stamp

def step (c : WatcherConfig) (s : WatchState) : WatchEvent → WatchState
  | .edit items => { s with items }
  | .poll now => if s.Idle then { s with requests := c.requests now s.cursor } else s
  | .answer ok rows =>
      match s.rows, s.requests with
      | [], r :: requests =>
          { s with rows := if r.list.accepts ok then rows else [], requests }
      | _, _ => s
  | .handle delivered =>
      match s.rows with
      | [] => s
      | v :: rows =>
          { s with
            rows
            cursor := advance s.cursor v
            emitted := if delivered then s.emitted ++ [v] else s.emitted }
  | .abort => { s with rows := [], requests := [] }

end WatchState

end Zyntry
