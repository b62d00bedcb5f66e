import Zyntry.InvokeTools

/-!
# Tools that write

A tool that was created with `read_only = False` stays out of a request without actions
exactly if no context source selects it, and the tool loop either still finds the flag in
the schema that was stored last or does not come to the tool.
-/

namespace Zyntry

open Python

/-- `get_by_project`. -/
def projectTools (tools : ToolTable) (project : ℕ) : List ToolRow :=
  tools.rows.filter fun tool => tool.projectId = some project

/-- The loop comes to a tool after those read-only ones that stand before it. -/
theorem mem_loopTools_iff {x : ToolInvocation} {tool : ToolRow} :
    tool ∈ x.loopTools ↔ ∃ before after, x.tools = before ++ tool :: after ∧
      toolIsReadOnly tool = true ∧
        (before.filter toolIsReadOnly).length < maxToolSteps x.config := by
  unfold ToolInvocation.loopTools
  generalize maxToolSteps x.config = steps
  generalize x.tools = tools
  induction tools generalizing steps with
  | nil => simp
  | cons t tools ih =>
      constructor
      · intro h
        by_cases ht : toolIsReadOnly t = true
        · rw [List.filter_cons_of_pos ht] at h
          cases steps with
          | zero => simp at h
          | succ steps =>
              rcases List.mem_cons.mp h with rfl | h
              · exact ⟨[], tools, rfl, ht, Nat.succ_pos steps⟩
              · obtain ⟨before, after, rfl, htool, hlt⟩ := (ih steps).mp h
                refine ⟨t :: before, after, rfl, htool, ?_⟩
                rw [List.filter_cons_of_pos ht, List.length_cons]
                omega
        · rw [List.filter_cons_of_neg ht] at h
          obtain ⟨before, after, rfl, htool, hlt⟩ := (ih steps).mp h
          refine ⟨t :: before, after, rfl, htool, ?_⟩
          rwa [List.filter_cons_of_neg ht]
      · rintro ⟨before, after, htools, htool, hlt⟩
        cases before with
        | nil =>
            obtain ⟨rfl, -⟩ := List.cons.inj htools
            rw [List.filter_cons_of_pos htool]
            cases steps with
            | zero => simp at hlt
            | succ steps => exact List.mem_cons_self
        | cons u before =>
            obtain ⟨rfl, hrest⟩ := List.cons.inj htools
            by_cases ht : toolIsReadOnly t = true
            · rw [List.filter_cons_of_pos ht, List.length_cons] at hlt
              rw [List.filter_cons_of_pos ht]
              cases steps with
              | zero => omega
              | succ steps =>
                  refine List.mem_cons_of_mem t ((ih steps).mpr ⟨before, after, hrest, htool, ?_⟩)
                  omega
            · rw [List.filter_cons_of_neg ht] at hlt ⊢
              exact (ih steps).mpr ⟨before, after, hrest, htool, hlt⟩

section WriteTool

variable (T : TextMethods) {tools : ToolTable} {before after : List ToolOperation} {id project : ℕ}
  {data : ToolCreate} {x : ToolInvocation}

/-- Nothing calls the tool `id`, whatever course the request takes. -/
def ToolInvocation.Spares (x : ToolInvocation) (id : ℕ) : Prop :=
  ∀ o, ∀ e ∈ x.executions T o, e.tool.id ≠ id

/-- The schema that the calls store last for the tool has the flag `False`. -/
def KeepsWriteFlag (id : ℕ) (calls : List ToolOperation) : Prop :=
  ∀ schema ∈ lastSchema id calls, schemaIsReadOnly schema = false

/-- A created tool is in the table, with the schema that was stored last. -/
theorem get?_created (hnew : (afterToolOperations tools before).get? id = none) :
    ∃ tool, (afterToolOperations tools (before ++ .create id data :: after)).get? id = some tool ∧
      tool.schema = (lastSchema id after).getD (data.row id).schema := by
  have hcreated : (createTool (afterToolOperations tools before) id data).get? id =
      some (data.row id) := RowTable.get?_insert_self hnew
  obtain ⟨tool, hget, -, hschema⟩ := get?_afterToolOperations hcreated after
  refine ⟨tool, ?_, hschema⟩
  rw [afterToolOperations, List.foldl_append]
  exact hget

/-- A tool created to write counts as such as long as its flag is kept. -/
theorem toolIsReadOnly_created (hwrites : data.readOnly = false) {tool : ToolRow}
    (hschema : tool.schema = (lastSchema id after).getD (data.row id).schema) :
    toolIsReadOnly tool = false ↔ KeepsWriteFlag id after := by
  unfold KeepsWriteFlag toolIsReadOnly
  rw [hschema]
  cases lastSchema id after with
  | none => simpa [toolIsReadOnly] using (toolIsReadOnly_row data id).trans hwrites
  | some schema => simp

end WriteTool

/-! ## A renamed tool and a tool with a new schema -/

/-- A tool that posts invoices. -/
def invoiceTool : ToolCreate where
  name := "Invoices"
  implementation := some "https://billing.test/invoices"
  projectId := some 1
  readOnly := false

def renameTool : ToolUpdate := { name := some (some "Invoice export") }

/-- A schema that says nothing about the flag. -/
def describeTool : ToolUpdate := { schema := some (some [("type", .str "object")]) }

def ownerUser : AccessUser where
  id := 1
  isSuperuser := false
  settings := .null

/-- A request without actions, by the owner of the runtime. -/
def invoiceInvocation (calls : List ToolOperation) (contextSources : List String) :
    ToolInvocation where
  runtime := some ⟨1, .null⟩
  user := ownerUser
  scopes := ["read"]
  request := { contextSources }
  tools := projectTools (afterToolOperations default calls) 1

end Zyntry
