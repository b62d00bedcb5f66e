import Zyntry.RoleHints
import Zyntry.Redaction
import Zyntry.Tools

/-!
# The tools that an invocation calls

A request calls a project's tools in one of two places: a request that names context
sources calls every tool whose connector or display name it names, any other request may
run the bounded loop over the read-only tools. The access policy is consulted before,
about the request alone; what it says about the role's tools and sources is not looked at
where the tools are chosen.
-/

namespace Zyntry

open Python

/-- What `requires_action_confirmation` says about an action comes with it. -/
structure RequestedAction where
  provider : String
  action : String
  requiresConfirmation : Bool

/-- The part of `InvokeRequest` that decides which tools are called. -/
structure InvokeRequest where
  actions : List RequestedAction := []
  contextSources : List String := []

/-- An invocation: the runtime if the project has one, the caller with the scopes of the
API key, and the tools of the project in the order of the database. -/
structure ToolInvocation where
  runtime : Option AccessRuntime
  user : AccessUser
  scopes : List String
  request : InvokeRequest
  tools : List ToolRow

/-- How a round of the tool loop ends. -/
inductive RoundOutcome where
  | continues
  | stops
  | raises
deriving DecidableEq, Repr

/-- What the other stages of the handler end in. -/
structure InvokeOutcomes where
  /-- The API key, the project and the runtime are found and belong together. -/
  found : Bool
  /-- The environment, the security checks, the wallet and the budgets admit the request. -/
  admitted : Bool
  /-- The context is assembled and the first model call returns a text. -/
  answered : Bool
  /-- The budget and the model call after each tool. -/
  rounds : ℕ → RoundOutcome

inductive ToolPath where
  | contextSource
  | toolLoop
deriving DecidableEq, Repr

structure ToolExecution where
  path : ToolPath
  tool : ToolRow

section Definitions

variable (T : TextMethods)

/-! ## Choosing tools -/

/-- `schema.get("_zyntry_connection", {})`. -/
def ToolRow.connection (tool : ToolRow) : Json :=
  (Json.lookup "_zyntry_connection" (dictFields tool.schema)).getD (.obj [])

/-- `str(connection.get("connector") or default).strip().lower()`, which fails on a
connection that is no dict. -/
def ToolRow.connectorOr (tool : ToolRow) (default : String) : Option String :=
  match tool.connection with
  | .obj fields => some (normalizedText T (Json.lookup "connector" fields) default)
  | _ => none

def ToolRow.connector (tool : ToolRow) : Option String := tool.connectorOr T ""

/-- `tool.name.strip().lower().replace(" ", "_")`. -/
def ToolRow.displayName (tool : ToolRow) : String :=
  replaceChars [' '] '_' (T.lower (stripped tool.name))

def InvokeRequest.requestedSources (request : InvokeRequest) : List String :=
  (request.contextSources.filter fun item => stripped item ≠ "").map
    fun item => T.lower (stripped item)

/-- The request names the tool's connector or its display name. -/
def InvokeRequest.Selects (request : InvokeRequest) (tool : ToolRow) : Prop :=
  (∃ connector ∈ tool.connector T, connector ∈ request.requestedSources T) ∨
    tool.displayName T ∈ request.requestedSources T

instance InvokeRequest.decidableSelects (request : InvokeRequest) (tool : ToolRow) :
    Decidable (request.Selects T tool) :=
  inferInstanceAs (Decidable (_ ∨ _))

/-- A `SourceRecordSet` can be made under the name of the tool's source. -/
def ToolRow.HasSourceName (tool : ToolRow) : Prop :=
  ∃ name ∈ tool.connectorOr T tool.name, 1 ≤ name.length ∧ name.length ≤ 128

instance ToolRow.decidableHasSourceName (tool : ToolRow) : Decidable (tool.HasSourceName T) :=
  inferInstanceAs (Decidable (∃ _ ∈ _, _))

/-- The tools that the context sources call: all that are selected, up to the first whose
records cannot be kept. -/
def readSources (request : InvokeRequest) : List ToolRow → List ToolRow
  | [] => []
  | tool :: tools =>
      if request.Selects T tool then
        tool :: if tool.HasSourceName T then readSources request tools else []
      else readSources request tools

/-- The loop over `read_only_tools[:max_tool_steps]`. -/
def loopRounds (rounds : ℕ → RoundOutcome) : ℕ → List ToolRow → List ToolRow
  | _, [] => []
  | step, tool :: tools =>
      tool :: if rounds step = .continues then loopRounds rounds (step + 1) tools else []

namespace ToolInvocation

/-- The configuration that the tool loop is set up from. -/
def config (x : ToolInvocation) : Json :=
  match x.runtime with
  | some runtime => redact runtime.config
  | none => .obj []

/-- The scopes of the key and the access policy admit the request. -/
def Authorised (x : ToolInvocation) : Prop :=
  ("read" ∈ x.scopes ∨ "*" ∈ x.scopes) ∧
    (x.request.actions ≠ [] → "write" ∈ x.scopes ∨ "*" ∈ x.scopes) ∧
      ∀ runtime ∈ x.runtime, Permits T runtime x.user x.scopes
        (x.request.actions.any RequestedAction.requiresConfirmation) x.request.contextSources

instance decidablePermits (runtime : AccessRuntime) (user : AccessUser) (scopes : List String)
    (requiresWrite : Bool) (sources : List String) :
    Decidable (Permits T runtime user scopes requiresWrite sources) :=
  decidable_of_iff _ exists_ok_iff.symm

instance decidableAuthorised (x : ToolInvocation) : Decidable (x.Authorised T) :=
  inferInstanceAs (Decidable (_ ∧ _ ∧ _))

/-- Choosing the tools goes through the connections of all of them. -/
def sourceCalls (x : ToolInvocation) : List ToolRow :=
  if x.request.contextSources ≠ [] ∧ ∀ tool ∈ x.tools, (tool.connector T).isSome then
    readSources T x.request x.tools
  else []

/-- The request leaves the tool loop on. -/
def LoopEnabled (x : ToolInvocation) : Prop :=
  x.request.contextSources = [] ∧ x.request.actions = [] ∧ autonomousToolLoop x.config = true

instance decidableLoopEnabled (x : ToolInvocation) : Decidable x.LoopEnabled :=
  inferInstanceAs (Decidable (_ ∧ _ ∧ _))

/-- `read_only_tools[:max_tool_steps]`. -/
def loopTools (x : ToolInvocation) : List ToolRow :=
  (x.tools.filter toolIsReadOnly).take (maxToolSteps x.config)

def loopCalls (x : ToolInvocation) (o : InvokeOutcomes) : List ToolRow :=
  if x.LoopEnabled ∧ o.answered = true then loopRounds o.rounds 1 x.loopTools else []

/-- The tools that `invoke` calls, in this order. -/
def executions (x : ToolInvocation) (o : InvokeOutcomes) : List ToolExecution :=
  if o.found = true ∧ x.Authorised T ∧ o.admitted = true then
    (x.sourceCalls T).map (ToolExecution.mk .contextSource) ++
      (x.loopCalls o).map (ToolExecution.mk .toolLoop)
  else []

/-- The entry of the access policy that `authorize_runtime_request` resolves. -/
def rolePolicy (x : ToolInvocation) : Option RoleCapabilities :=
  match x.runtime with
  | none => none
  | some runtime =>
      match normalizeAccessPolicy T runtime.accessControl with
      | .error _ => none
      | .ok policy =>
          if runtime.accessControl.truthy = true ∧ policy.enabled = true then
            some (policy.rolePolicy (requestRole T runtime x.user x.scopes))
          else none

end ToolInvocation

end Definitions

/-! ## Which tools can be called -/

theorem mem_of_mem_loopRounds {rounds : ℕ → RoundOutcome} {step : ℕ} {tools : List ToolRow}
    {tool : ToolRow} (h : tool ∈ loopRounds rounds step tools) : tool ∈ tools := by
  induction tools generalizing step with
  | nil => exact h
  | cons t tools ih =>
      rw [loopRounds] at h
      rcases List.mem_cons.mp h with rfl | h
      · exact List.mem_cons_self
      · split_ifs at h
        · exact List.mem_cons_of_mem t (ih h)
        · exact absurd h List.not_mem_nil

theorem loopRounds_continues (step : ℕ) (tools : List ToolRow) :
    loopRounds (fun _ => .continues) step tools = tools := by
  induction tools generalizing step with
  | nil => rfl
  | cons t tools ih => rw [loopRounds, if_pos rfl, ih]

section Calls

variable (T : TextMethods)

/-- A tool is called for the context sources if it is selected, and all that are selected
before it have a name for their records. -/
theorem mem_readSources_iff {request : InvokeRequest} {tools : List ToolRow} {tool : ToolRow} :
    tool ∈ readSources T request tools ↔
      ∃ before after, tools = before ++ tool :: after ∧ request.Selects T tool ∧
        ∀ t ∈ before, request.Selects T t → t.HasSourceName T := by
  induction tools with
  | nil => simp [readSources]
  | cons t tools ih =>
      have hlater : (∃ before after, tools = before ++ tool :: after ∧ request.Selects T tool ∧
            ∀ u ∈ before, request.Selects T u → u.HasSourceName T) →
          (request.Selects T t → t.HasSourceName T) →
          ∃ before after, t :: tools = before ++ tool :: after ∧ request.Selects T tool ∧
            ∀ u ∈ before, request.Selects T u → u.HasSourceName T := by
        rintro ⟨before, after, rfl, hselects, hbefore⟩ ht
        exact ⟨t :: before, after, rfl, hselects, List.forall_mem_cons.mpr ⟨ht, hbefore⟩⟩
      rw [readSources]
      constructor
      · intro h
        split_ifs at h with hselects hname
        · rcases List.mem_cons.mp h with rfl | h
          · exact ⟨[], tools, rfl, hselects, by simp⟩
          · exact hlater (ih.mp h) fun _ => hname
        · obtain rfl : tool = t := by simpa using h
          exact ⟨[], tools, rfl, hselects, by simp⟩
        · exact hlater (ih.mp h) fun ht => absurd ht hselects
      · rintro ⟨before, after, htools, hselects, hbefore⟩
        cases before with
        | nil =>
            obtain ⟨rfl, -⟩ := List.cons.inj htools
            rw [if_pos hselects]
            exact List.mem_cons_self
        | cons u before =>
            obtain ⟨rfl, hrest⟩ := List.cons.inj htools
            obtain ⟨hu, hbefore⟩ := List.forall_mem_cons.mp hbefore
            have hmem := ih.mpr ⟨before, after, hrest, hselects, hbefore⟩
            by_cases ht : request.Selects T t
            · rw [if_pos ht, if_pos (hu ht)]
              exact List.mem_cons_of_mem t hmem
            · rwa [if_neg ht]

/-- The context sources select the tool, and all that are selected before it have a name for
their records. -/
def ToolInvocation.CallsBySource (x : ToolInvocation) (tool : ToolRow) : Prop :=
  x.request.contextSources ≠ [] ∧ (∀ t ∈ x.tools, (t.connector T).isSome) ∧
    ∃ before after, x.tools = before ++ tool :: after ∧ x.request.Selects T tool ∧
      ∀ t ∈ before, x.request.Selects T t → t.HasSourceName T

theorem mem_sourceCalls_iff {x : ToolInvocation} {tool : ToolRow} :
    tool ∈ x.sourceCalls T ↔ x.CallsBySource T tool := by
  unfold ToolInvocation.sourceCalls ToolInvocation.CallsBySource
  split_ifs with hsources
  · rw [mem_readSources_iff]
    simp only [ne_eq, hsources.1, not_false_eq_true, true_and]
    exact ⟨fun h => ⟨hsources.2, h⟩, And.right⟩
  · simp only [List.not_mem_nil, false_iff]
    exact fun h => hsources ⟨h.1, h.2.1⟩

/-- The tools that some course of the request calls. -/
theorem exists_mem_executions_iff {x : ToolInvocation} {e : ToolExecution} :
    (∃ o, e ∈ x.executions T o) ↔
      x.Authorised T ∧ (e.path = .contextSource ∧ e.tool ∈ x.sourceCalls T ∨
        e.path = .toolLoop ∧ x.LoopEnabled ∧ e.tool ∈ x.loopTools) := by
  constructor
  · rintro ⟨o, he⟩
    unfold ToolInvocation.executions at he
    split_ifs at he with hstages
    · refine ⟨hstages.2.1, ?_⟩
      rcases List.mem_append.mp he with he | he
      · obtain ⟨tool, htool, rfl⟩ := List.mem_map.mp he
        exact .inl ⟨rfl, htool⟩
      · obtain ⟨tool, htool, rfl⟩ := List.mem_map.mp he
        unfold ToolInvocation.loopCalls at htool
        split_ifs at htool with hloop
        · exact .inr ⟨rfl, hloop.1, mem_of_mem_loopRounds htool⟩
        · exact absurd htool List.not_mem_nil
    · exact absurd he List.not_mem_nil
  · rintro ⟨hauthorised, hcall⟩
    refine ⟨⟨true, true, true, fun _ => .continues⟩, ?_⟩
    rw [ToolInvocation.executions, if_pos ⟨rfl, hauthorised, rfl⟩, List.mem_append]
    obtain ⟨path, tool⟩ := e
    rcases hcall with ⟨rfl, hsource⟩ | ⟨rfl, hloop, htool⟩
    · exact .inl (List.mem_map_of_mem hsource)
    · refine .inr (List.mem_map_of_mem ?_)
      rwa [ToolInvocation.loopCalls, if_pos ⟨hloop, rfl⟩, loopRounds_continues]

end Calls

end Zyntry
