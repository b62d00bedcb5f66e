import Zyntry.InvokeTools

/-!
# The access policy of the tools that are called

The access policy resolved for a request is enforced for every tool that the request calls
exactly if it happens to fit: the tool loop never asks whether the role may use tools, and
a tool that is selected by its display name is not looked up among the allowed sources.
-/

namespace Python

/-- Text methods for which stripping does not depend on the case. -/
structure CasedText extends TextMethods where
  lower_stripped : ∀ s, lower (stripped s) = stripped (lower s)

end Python

namespace Zyntry

open Python

/-! ## What the policy says about a call -/

section Policy

variable (T : CasedText)

/-- The connector of the tool is one of the allowed sources, if there are any. -/
def RoleCapabilities.CoversConnector (entry : RoleCapabilities) (tool : ToolRow) : Prop :=
  entry.allowedSources ≠ [] →
    ∃ connector ∈ tool.connector T.toTextMethods, connector ∈ entry.allowedSources

/-- The entry of the policy allows a call. -/
structure ToolExecution.Allowed (e : ToolExecution) (entry : RoleCapabilities) : Prop where
  useTools : e.path = .toolLoop → entry.canUseTools = true
  readSources : entry.canReadSources = true
  connector : entry.CoversConnector T e.tool

namespace ToolInvocation

/-- Whatever course the request takes, it calls only tools that the policy allows. -/
def EnforcesPolicy (x : ToolInvocation) : Prop :=
  ∀ o, ∀ e ∈ x.executions T.toTextMethods o, ∀ entry ∈ x.rolePolicy T.toTextMethods,
    e.Allowed T entry

/-- The context sources call the tool, and none of them names its connector. -/
def CallsByName (x : ToolInvocation) (tool : ToolRow) : Prop :=
  x.CallsBySource T.toTextMethods tool ∧ ∀ connector ∈ tool.connector T.toTextMethods,
    connector ∉ x.request.requestedSources T.toTextMethods

/-- The entry allows what is called without asking it. -/
structure WithinPolicy (x : ToolInvocation) (entry : RoleCapabilities) : Prop where
  useTools : x.LoopEnabled → x.loopTools ≠ [] → entry.canUseTools = true
  readSources : x.LoopEnabled → x.loopTools ≠ [] → entry.canReadSources = true
  loopConnectors : x.LoopEnabled → ∀ tool ∈ x.loopTools, entry.CoversConnector T tool
  namedConnectors : ∀ tool, x.CallsByName T tool → entry.CoversConnector T tool

end ToolInvocation

/-- The entry of an authorised request lets its sources through. -/
theorem admits_of_rolePolicy {x : ToolInvocation} (hauthorised : x.Authorised T.toTextMethods)
    {entry : RoleCapabilities} (h : entry ∈ x.rolePolicy T.toTextMethods) :
    (∃ requiresWrite,
      entry.Admits T.toTextMethods requiresWrite x.request.contextSources) ∧
      ∀ s ∈ entry.allowedSources, IsNormalised T.toTextMethods s := by
  unfold ToolInvocation.rolePolicy at h
  cases hruntime : x.runtime with
  | none => simp [hruntime] at h
  | some runtime =>
      simp only [hruntime] at h
      cases hpolicy : normalizeAccessPolicy T.toTextMethods runtime.accessControl with
      | error e => simp [hpolicy] at h
      | ok policy =>
          simp only [hpolicy] at h
          split_ifs at h with henforced
          · obtain rfl := Option.some.inj h
            obtain ⟨policy', hpolicy', hadmits⟩ :=
              (permits_iff T.toTextMethods).mp (hauthorised.2.2 runtime hruntime)
            obtain rfl : policy = policy' := Except.ok.inj (hpolicy.symm.trans hpolicy')
            exact ⟨⟨_, hadmits henforced⟩, normalised_rolePolicy T.toTextMethods hpolicy _⟩
          · simp at h

/-- A source that the policy lets through is named as the policy names it. -/
theorem mem_allowedSources_of_requested {request : InvokeRequest} {entry : RoleCapabilities}
    {source : String} {requiresWrite : Bool}
    (hadmits : entry.Admits T.toTextMethods requiresWrite request.contextSources)
    (hnormalised : ∀ s ∈ entry.allowedSources, IsNormalised T.toTextMethods s)
    (hallowed : entry.allowedSources ≠ [])
    (h : source ∈ request.requestedSources T.toTextMethods) : source ∈ entry.allowedSources := by
  obtain ⟨item, hitem, rfl⟩ := List.mem_map.mp h
  have hmem : item ∈ request.contextSources := List.mem_of_mem_filter hitem
  have hlower : T.lower item ∈ entry.allowedSources :=
    hadmits.allowed (List.ne_nil_of_mem hmem) hallowed (List.mem_map_of_mem hmem)
  obtain ⟨text, htext⟩ := hnormalised _ hlower
  have hstripped : T.lower (stripped item) = T.lower item := by
    rw [T.lower_stripped, ← htext, ← T.lower_stripped, stripped_stripped]
  rwa [hstripped]

end Policy

/-! ## A role that may not use tools -/

def asciiCasedText : CasedText where
  toTextMethods := asciiText
  lower_stripped := lower_stripped

/-- Support may read the source `crm` and may not use tools. -/
def supportRuntime : AccessRuntime where
  userId := 1
  config := .obj [("access_control", .obj [("roles", .obj [("support",
    .obj [("can_use_tools", .bool false), ("allowed_sources", .arr [.str "crm"])])])])]

def supportUser : AccessUser where
  id := 2
  isSuperuser := false
  settings := .obj [("role", .str "support")]

def supportEntry : RoleCapabilities := ⟨⟨true, true, false, false⟩, ["crm"]⟩

/-- A tool of the connector `ledger` that is displayed as `CRM`. -/
def ledgerTool : ToolRow where
  id := 1
  name := "CRM"
  schema := .obj [("_zyntry_connection", .obj [("connector", .str "ledger")])]
  implementation := some "https://ledger.test/query"
  projectId := some 1

def supportInvocation (contextSources : List String) : ToolInvocation where
  runtime := some supportRuntime
  user := supportUser
  scopes := ["read"]
  request := { contextSources }
  tools := [ledgerTool]

end Zyntry
