import Zyntry.PythonDict
import Zyntry.RowTable

/-!
# Project tools

The rows of a project's tools and the calls that create and update them. Whether a tool
only reads is a flag inside its JSON schema: the creation writes it there, and an update
that brings a schema replaces the old one as a whole. A schema without the flag counts as
read-only.
-/

namespace Zyntry

open Python

/-- A row of `tools`. -/
structure ToolRow where
  id : ℕ
  name : String
  description : Option String := none
  schema : Json
  implementation : Option String
  projectId : Option ℕ

abbrev ToolTable := RowTable ℕ ToolRow ToolRow.id

inductive ToolKind where
  | http
  | openapi
  | database
  | connector

def ToolKind.value : ToolKind → String
  | .http => "http"
  | .openapi => "openapi"
  | .database => "database"
  | .connector => "connector"

structure ToolCreate where
  name : String
  description : Option String := none
  schema : List (String × Json) := []
  implementation : Option String := none
  projectId : Option ℕ := none
  kind : ToolKind := .http
  openapiSpec : Option (List (String × Json)) := none
  readOnly : Bool := true
  databaseType : Option String := none

/-- Only the fields that are set; `some none` is an explicit null. A tool has no column
for `is_active`. -/
structure ToolUpdate where
  name : Option (Option String) := none
  description : Option (Option String) := none
  schema : Option (Option (List (String × Json))) := none
  implementation : Option (Option String) := none
  isActive : Option (Option Bool) := none

inductive ToolServiceError where
  | toolNotFound
  | integrityError
deriving DecidableEq, Repr

def jsonOrNull {α : Type} (toJson : α → Json) (value : Option α) : Json :=
  (value.map toJson).getD .null

/-- The entry `_zyntry_custom` of a new tool's schema. -/
def ToolCreate.custom (data : ToolCreate) : Json :=
  .obj [("kind", .str data.kind.value), ("read_only", .bool data.readOnly),
    ("database_type", jsonOrNull .str data.databaseType),
    ("openapi_spec", jsonOrNull .obj data.openapiSpec)]

def ToolCreate.row (data : ToolCreate) (id : ℕ) : ToolRow where
  id := id
  name := data.name
  description := data.description
  schema := .obj (Json.set "_zyntry_custom" data.custom data.schema)
  implementation := data.implementation
  projectId := data.projectId

/-- `create_tool`, which draws `id` for the new row. -/
def createTool (tools : ToolTable) (id : ℕ) (data : ToolCreate) : ToolTable :=
  tools.insert (data.row id)

/-- The attributes that `update_tool` sets. -/
def ToolUpdate.setAttributes (data : ToolUpdate) (tool : ToolRow) : ToolRow :=
  { tool with
    name := (data.name.getD none).getD tool.name
    description := data.description.getD tool.description
    schema := (data.schema.map (jsonOrNull .obj)).getD tool.schema
    implementation := data.implementation.getD tool.implementation }

theorem ToolUpdate.setAttributes_id (data : ToolUpdate) (tool : ToolRow) :
    (data.setAttributes tool).id = tool.id := rfl

/-- `update_tool`; the name is the one column that may not become null. -/
def updateTool (tools : ToolTable) (id : ℕ) (data : ToolUpdate) :
    Except ToolServiceError ToolTable :=
  match tools.get? id with
  | none => .error .toolNotFound
  | some _ =>
      if data.name = some none then .error .integrityError
      else .ok (tools.update id data.setAttributes data.setAttributes_id)

/-! ## The read-only flag -/

/-- The fields of a value that should be a dict. -/
def dictFields : Json → List (String × Json)
  | .obj fields => fields
  | _ => []

/-- The flag that a schema holds. -/
def schemaIsReadOnly (schema : Json) : Bool :=
  let fields := dictFields schema
  let custom := dictFields ((Json.lookup "_zyntry_custom" fields).getD .null)
  let value := (Json.lookup "read_only" custom).getD
    ((Json.lookup "read_only" fields).getD (.bool true))
  match value with
  | .bool false => false
  | _ => true

/-- `tool_is_read_only`. -/
def toolIsReadOnly (tool : ToolRow) : Bool := schemaIsReadOnly tool.schema

/-- A new tool is read-only as its creation says, whatever else its schema holds. -/
theorem toolIsReadOnly_row (data : ToolCreate) (id : ℕ) :
    toolIsReadOnly (data.row id) = data.readOnly := by
  have hcustom : Json.lookup "_zyntry_custom" (dictFields (data.row id).schema) =
      some data.custom := Json.lookup_set_self _ _ _
  have hflag : Json.lookup "read_only" (dictFields data.custom) = some (.bool data.readOnly) := rfl
  unfold toolIsReadOnly schemaIsReadOnly
  simp only [hcustom, Option.getD_some, hflag]
  cases data.readOnly with
  | true => rfl
  | false => rfl

/-! ## Sequences of calls -/

inductive ToolOperation where
  | create (id : ℕ) (data : ToolCreate)
  | update (id : ℕ) (data : ToolUpdate)

/-- The tools after a call; one that fails has written nothing. -/
def afterToolOperation (tools : ToolTable) : ToolOperation → ToolTable
  | .create id data => createTool tools id data
  | .update id data => ((updateTool tools id data).toOption).getD tools

def afterToolOperations (tools : ToolTable) (calls : List ToolOperation) : ToolTable :=
  calls.foldl afterToolOperation tools

/-- The schema that a call stores for a tool which exists. -/
def ToolOperation.storedSchema (id : ℕ) : ToolOperation → Option Json
  | .create _ _ => none
  | .update id' data =>
      if id' = id ∧ data.name ≠ some none then data.schema.map (jsonOrNull .obj) else none

/-- The schema that some calls store last. -/
def lastSchema (id : ℕ) (calls : List ToolOperation) : Option Json :=
  (calls.filterMap (ToolOperation.storedSchema id)).getLast?

theorem lastSchema_cons (id : ℕ) (schema : Json) (call : ToolOperation)
    (calls : List ToolOperation) : (lastSchema id (call :: calls)).getD schema =
      (lastSchema id calls).getD ((call.storedSchema id).getD schema) := by
  unfold lastSchema
  cases hstored : call.storedSchema id with
  | none => rw [List.filterMap_cons_none hstored, Option.getD_none]
  | some stored =>
      rw [List.filterMap_cons_some hstored, List.getLast?_cons, Option.getD_some,
        Option.getD_some]

/-- A tool stays where it is, with the schema that was stored last. -/
theorem get?_afterToolOperation {tools : ToolTable} {id : ℕ} {tool : ToolRow}
    (h : tools.get? id = some tool) (call : ToolOperation) :
    ∃ tool', (afterToolOperation tools call).get? id = some tool' ∧
      tool'.projectId = tool.projectId ∧
        tool'.schema = (call.storedSchema id).getD tool.schema := by
  cases call with
  | create id' data =>
      exact ⟨tool, RowTable.get?_insert_of_some h, rfl, rfl⟩
  | update id' data =>
      by_cases hid : id' = id
      · subst hid
        simp only [afterToolOperation, updateTool, ToolOperation.storedSchema, h]
        by_cases hname : data.name = some none
        · rw [if_pos hname, if_neg fun hset => hset.2 hname]
          exact ⟨tool, h, rfl, rfl⟩
        · rw [if_neg hname, if_pos ⟨trivial, hname⟩]
          refine ⟨data.setAttributes tool, ?_, rfl, rfl⟩
          have hself := RowTable.get?_update_self tools id' data.setAttributes
            data.setAttributes_id
          rwa [h, Option.map_some] at hself
      · have hstored : (ToolOperation.update id' data).storedSchema id = none :=
          if_neg fun hset => hid hset.1
        rw [hstored]
        refine ⟨tool, ?_, rfl, rfl⟩
        simp only [afterToolOperation, updateTool]
        cases hget : tools.get? id' with
        | none => exact h
        | some other =>
            dsimp only
            split_ifs
            · exact h
            · exact (RowTable.get?_update_of_ne tools (Ne.symm hid) _ data.setAttributes_id).trans h

theorem get?_afterToolOperations {tools : ToolTable} {id : ℕ} {tool : ToolRow}
    (h : tools.get? id = some tool) (calls : List ToolOperation) :
    ∃ tool', (afterToolOperations tools calls).get? id = some tool' ∧
      tool'.projectId = tool.projectId ∧
        tool'.schema = (lastSchema id calls).getD tool.schema := by
  induction calls generalizing tools tool with
  | nil => exact ⟨tool, h, rfl, rfl⟩
  | cons call calls ih =>
      obtain ⟨next, hnext, hproject, hschema⟩ := get?_afterToolOperation h call
      obtain ⟨tool', hget, hproject', hschema'⟩ := ih hnext
      refine ⟨tool', hget, hproject'.trans hproject, hschema'.trans ?_⟩
      rw [hschema, lastSchema_cons]

end Zyntry
