import Zyntry.BillingModel
import Zyntry.NormalChanges
import Zyntry.SensitiveText

/-!
# Proposed actions

The assistant stores an action with its arguments, and executes it when the owner of the
proposal confirms it. The stored arguments are the redacted ones, and they are also what
the tool is called with.
-/

namespace Zyntry

open Python

/-! ## Permissions -/

inductive UserRole where
  | viewer
  | developer
  | admin
  | owner
deriving DecidableEq, Repr

def UserRole.value : UserRole → String
  | .viewer => "viewer"
  | .developer => "developer"
  | .admin => "admin"
  | .owner => "owner"

/-- `ROLE_HIERARCHY`. -/
def UserRole.level : UserRole → ℕ
  | .viewer => 0
  | .developer => 1
  | .admin => 2
  | .owner => 3

inductive ActionType where
  | read
  | write
  | execute
  | admin
deriving DecidableEq, Repr

structure ToolDefinition where
  name : String
  requiredPermission : UserRole
  actionType : ActionType
  dangerous : Bool := false

/-- `ALLOWED_COMMANDS`. -/
def allowedCommands : List String :=
  ["restart_runtime", "sync_sources", "rebuild_embeddings", "clear_cache", "pause_runtime",
   "resume_runtime", "test_provider", "test_tool", "run_health_check", "enable_dynamic_routing",
   "disable_dynamic_routing", "change_default_provider", "change_temperature",
   "change_max_tokens", "update_runtime_configuration"]

/-- The definitions of the tools that can be proposed. -/
def toolDefinitions : List ToolDefinition :=
  [⟨"enable_dynamic_routing", .developer, .write, false⟩,
   ⟨"disable_dynamic_routing", .developer, .write, false⟩,
   ⟨"change_default_provider", .developer, .write, false⟩,
   ⟨"change_temperature", .developer, .write, false⟩,
   ⟨"change_max_tokens", .developer, .write, false⟩,
   ⟨"update_runtime_configuration", .developer, .write, false⟩,
   ⟨"sync_sources", .developer, .execute, false⟩,
   ⟨"rebuild_embeddings", .developer, .execute, false⟩,
   ⟨"clear_cache", .developer, .execute, false⟩,
   ⟨"restart_runtime", .admin, .execute, true⟩,
   ⟨"run_health_check", .viewer, .read, false⟩,
   ⟨"pause_runtime", .admin, .execute, true⟩,
   ⟨"resume_runtime", .admin, .execute, false⟩,
   ⟨"test_provider", .developer, .execute, false⟩,
   ⟨"test_tool", .developer, .execute, false⟩]

/-- Why `has_permission` denies the use of a tool; `none` if it allows it. -/
def permissionDenied (role : UserRole) (tool : ToolDefinition) : Option String :=
  if tool.dangerous ∧ role.level < UserRole.admin.level then
    some "Dangerous actions require admin role or higher"
  else if tool.actionType = .admin ∧ role.level < UserRole.admin.level then
    some "Admin actions require admin role or higher"
  else if tool.actionType = .execute ∧ role.level < UserRole.developer.level then
    some "Execute actions require developer role or higher"
  else if role.level < tool.requiredPermission.level then
    some s!"Insufficient permissions: requires {tool.requiredPermission.value}"
  else none

/-- The reason of `check_tool_permission`. -/
def toolDenied (role : UserRole) (action : String) : Option String :=
  match toolDefinitions.find? fun tool => tool.name = action with
  | some tool => permissionDenied role tool
  | none => some s!"Unknown tool: {action}"

/-! ## Proposals -/

inductive CommandError where
  | valueError (message : String)
  | permissionError (reason : String)
  | other
deriving DecidableEq, Repr

def ToolError.raised : ToolError → CommandError
  | .valueError message => .valueError message
  | .other => .other

inductive ProposalStatus where
  | pending
  | expired
  | cancelled
  | permissionDenied
  | executed
  | failed
deriving DecidableEq, Repr

/-- An `ActionConfirmation`. -/
structure Proposal where
  userId : Uuid
  projectId : Uuid
  action : String
  arguments : Fields
  risk : String
  status : ProposalStatus := .pending
  expiresAt : ℕ

/-- A pair that `dict` accepts; other pairs have keys that no change can have. -/
def dictPair : Json → Option (String × Json)
  | .arr [.str k, v] => some (k, v)
  | .obj [(k, _), (k', _)] => some (k, .str k')
  | _ => none

/-- `dict(value)`. -/
def dictOf : Json → Except ToolError Fields
  | .obj fields => .ok fields
  | .arr items =>
      match items.mapM dictPair with
      | some pairs => .ok (Json.update [] pairs)
      | none => .error .other
  | _ => .error .other

/-- The requested changes, with the provider that the requested model implies. -/
def withInferredProvider (current : StoredRuntime) (requested : Fields) : Fields :=
  match Json.lookup "model" requested, Json.lookup "provider" requested with
  | some (.str model), none =>
      match (inferProviderForModel model).filter fun p => p ≠ lower current.provider with
      | some inferred => Json.set "provider" (.str inferred) requested
      | none => requested
  | _, _ => requested

/-- `provider_model_mismatch` of the requested values, which need not be texts. -/
def requestedMismatch (current : StoredRuntime) (requested : Fields) : Except ToolError Unit :=
  let provider := (Json.lookup "provider" requested).getD (.str current.provider)
  let model := (Json.lookup "model" requested).getD (.str current.model)
  if ¬provider.truthy ∨ ¬model.truthy then .ok ()
  else
    match provider, model with
    | .str provider, .str model =>
        match providerModelMismatch provider model with
        | some mismatch => .error (.valueError mismatch)
        | none => .ok ()
    | .str provider, _ =>
        if lower (stripped provider) ∈ aggregators then .ok () else .error .other
    | _, _ => .error .other

/-- The arguments as `propose` takes them over: the changes of a configuration update in
their normal form, everything else as it is. -/
def proposedArguments (current : Option StoredRuntime) (action : String) (arguments : Fields) :
    Except ToolError Fields :=
  if action = "update_runtime_configuration" then do
    let requested ← dictOf ((Json.lookup "changes" arguments).getD (.obj []))
    match current with
    | none => .error (.valueError "Runtime not found")
    | some current => do
        let requested := withInferredProvider current requested
        requestedMismatch current requested
        let normalized ← normalizeConfigurationChanges requested
        .ok [("changes", .obj normalized)]
  else .ok arguments

def actionRisk (action : String) : String :=
  if action ∈ ["restart_runtime", "pause_runtime", "clear_cache"] then "high" else "medium"

section

variable (isAlnum : Char → Bool)

/-- `RuntimeAssistantCommandService.propose`. -/
def propose (current : Option StoredRuntime) (runtimeId projectId userId : Uuid) (role : UserRole)
    (action : String) (arguments : Fields) (now : ℕ) : Except CommandError Proposal :=
  if action ∉ allowedCommands then
    .error (.valueError "This command is not available to Runtime Assistant")
  else
    match proposedArguments current action arguments with
    | .error e => .error e.raised
    | .ok proposed =>
        match toolDenied role action with
        | some reason => .error (.permissionError reason)
        | none =>
            .ok
              { userId
                projectId
                action
                -- a key of the arguments comes before the one that is added
                arguments := redactSensitiveFields isAlnum proposed ++
                  [("runtime_id", .str runtimeId.str)]
                risk := actionRisk action
                expiresAt := now + 600 }

end

structure ToolCall where
  name : String
  arguments : Fields

inductive Resolution where
  | cancelled
  | executed (call : ToolCall)

/-- `RuntimeAssistantCommandService.resolve`, up to the call of the tool. -/
def resolve (proposal : Option Proposal) (runtimeId projectId userId : Uuid) (role : UserRole)
    (confirm : Bool) (now : ℕ) : Except CommandError Resolution :=
  match proposal with
  | none => .error (.valueError "Action proposal not found in this runtime scope")
  | some p =>
      if p.projectId ≠ projectId ∨ p.userId ≠ userId ∨
          textField p.arguments "runtime_id" ≠ some runtimeId.str then
        .error (.valueError "Action proposal not found in this runtime scope")
      else if p.status ≠ .pending then
        .error (.valueError "Action proposal is no longer pending")
      else if p.expiresAt ≤ now then .error (.valueError "Action proposal expired")
      else if ¬confirm then .ok .cancelled
      else
        match toolDenied role p.action with
        | some reason => .error (.permissionError reason)
        | none => .ok (.executed ⟨p.action, Json.erase "runtime_id" p.arguments⟩)

/-- The changes that `update_runtime_configuration` applies when it is called. -/
def ToolCall.appliedChanges (call : ToolCall) : Except ToolError Fields :=
  normalizedChanges ((Json.lookup "changes" call.arguments).getD .null)

/-- Whenever the proposal is confirmed, the tool gets the proposed arguments, and a
configuration update applies the proposed changes. -/
def ProposalFaithful (p : Proposal) (proposed : Fields) : Prop :=
  ∀ runtimeId projectId userId role now call,
    resolve (some p) runtimeId projectId userId role true now = .ok (.executed call) →
      call.name = p.action ∧ call.arguments = proposed ∧
        (p.action = "update_runtime_configuration" →
          ∀ normalized, Json.lookup "changes" proposed = some (.obj normalized) →
            call.appliedChanges = .ok normalized)

/-! ## When a proposal is faithful -/

section

variable {isAlnum : Char → Bool}

theorem lookup_redactSensitiveFields (key : String) (fields : Fields) :
    Json.lookup key (redactSensitiveFields isAlnum fields) = (Json.lookup key fields).map
      fun v => if isSecretKey key then secretMark else redactSensitive isAlnum v := by
  induction fields with
  | nil => rfl
  | cons field fields ih =>
      obtain ⟨k, v⟩ := field
      simp only [redactSensitiveFields, Json.lookup]
      by_cases hk : k = key
      · subst hk
        simp only [if_true, Option.map_some]
      · simpa only [if_neg hk] using ih

theorem keys_redactSensitiveFields (fields : Fields) :
    Json.keys (redactSensitiveFields isAlnum fields) = Json.keys fields := by
  induction fields with
  | nil => rfl
  | cons field fields ih =>
      simp only [redactSensitiveFields, Json.keys, List.map_cons] at ih ⊢
      rw [ih]

/-- The runtime of a proposal can be found: its arguments do not name something else. -/
def Confirmable (proposed : Fields) : Prop :=
  ∀ v, Json.lookup "runtime_id" proposed = some v → ∃ s, v = .str s

/-- Arguments that are stored as they are proposed, and changes that are applied so. -/
structure PlainArguments (isAlnum : Char → Bool) (action : String) (proposed : Fields) : Prop where
  no_runtimeId : "runtime_id" ∉ Json.keys proposed
  plain : PlainFields isAlnum proposed
  trimmed : action = "update_runtime_configuration" →
    ∀ normalized, Json.lookup "changes" proposed = some (.obj normalized) →
      ∀ field ∈ normalized, Trimmed field.2

/-- What `propose` stores. -/
theorem propose_spec {current : Option StoredRuntime} {runtimeId projectId userId : Uuid}
    {role : UserRole} {action : String} {arguments proposed : Fields} {now : ℕ} {p : Proposal}
    (hproposed : proposedArguments current action arguments = .ok proposed)
    (h : propose isAlnum current runtimeId projectId userId role action arguments now = .ok p) :
    p.action = action ∧ p.status = .pending ∧ now < p.expiresAt ∧ toolDenied role action = none ∧
      p.arguments = redactSensitiveFields isAlnum proposed ++
        [("runtime_id", .str runtimeId.str)] := by
  unfold propose at h
  split_ifs at h
  rw [hproposed] at h
  dsimp only at h
  cases hdenied : toolDenied role action with
  | some reason => simp [hdenied] at h
  | none =>
      rw [hdenied] at h
      obtain rfl := Except.ok.inj h
      exact ⟨rfl, rfl, Nat.lt_add_of_pos_right (by decide), rfl, rfl⟩

theorem resolve_executed_iff {p : Proposal} {runtimeId projectId userId : Uuid} {role : UserRole}
    {now : ℕ} {call : ToolCall} :
    resolve (some p) runtimeId projectId userId role true now = .ok (.executed call) ↔
      p.projectId = projectId ∧ p.userId = userId ∧
        textField p.arguments "runtime_id" = some runtimeId.str ∧ p.status = .pending ∧
        now < p.expiresAt ∧ toolDenied role p.action = none ∧
        call = ⟨p.action, Json.erase "runtime_id" p.arguments⟩ := by
  unfold resolve
  dsimp only
  split_ifs with hscope hstatus hexpired hconfirm
  · simp only [false_iff]
    tauto
  · simp only [false_iff]
    tauto
  · simp only [false_iff]
    omega
  · simp only [not_or, not_not] at hscope hstatus
    have hbefore : now < p.expiresAt := by omega
    cases hdenied : toolDenied role p.action with
    | some reason => simp
    | none => simp [hscope, hstatus, hbefore, eq_comm]
  · exact absurd rfl hconfirm

theorem erase_append_runtimeId (fields : Fields) (v : Json) :
    Json.erase "runtime_id" (fields ++ [("runtime_id", v)]) = Json.erase "runtime_id" fields := by
  simp [Json.erase, List.filter_append]

theorem erase_of_notMem {key : String} {fields : Fields} (h : key ∉ Json.keys fields) :
    Json.erase key fields = fields := by
  refine List.filter_eq_self.mpr fun field hfield => decide_eq_true fun heq => ?_
  exact h (heq ▸ List.mem_map_of_mem (f := Prod.fst) hfield)

theorem notMem_keys_erase (key : String) (fields : Fields) :
    key ∉ Json.keys (Json.erase key fields) := by
  simp [Json.keys, Json.erase]

/-- What the tool is called with is what was proposed, for arguments that are plain. -/
theorem erase_redacted_eq_iff {runtimeId : Uuid} {proposed : Fields} :
    Json.erase "runtime_id" (redactSensitiveFields isAlnum proposed ++
        [("runtime_id", .str runtimeId.str)]) = proposed ↔
      "runtime_id" ∉ Json.keys proposed ∧ PlainFields isAlnum proposed := by
  rw [erase_append_runtimeId, ← redactSensitiveFields_eq_self_iff]
  constructor
  · intro h
    have hkey : "runtime_id" ∉ Json.keys proposed := h ▸ notMem_keys_erase _ _
    refine ⟨hkey, ?_⟩
    rwa [erase_of_notMem (by rwa [keys_redactSensitiveFields])] at h
  · rintro ⟨hkey, hplain⟩
    rw [hplain, erase_of_notMem hkey]

/-- A stored proposal can be found under some runtime if it is confirmable. -/
theorem exists_runtimeId_iff {runtimeId : Uuid} {proposed : Fields} :
    (∃ runtimeId' : Uuid, textField (redactSensitiveFields isAlnum proposed ++
        [("runtime_id", .str runtimeId.str)]) "runtime_id" = some runtimeId'.str) ↔
      Confirmable proposed := by
  have hkey : isSecretKey "runtime_id" = false := by decide +kernel
  unfold textField Confirmable
  rw [Json.lookup_append, lookup_redactSensitiveFields]
  cases hv : Json.lookup "runtime_id" proposed with
  | none => simp [Json.lookup]
  | some v =>
      cases v with
      | str s => simpa [hkey, redactSensitive] using ⟨⟨redactText isAlnum s⟩, rfl⟩
      | _ => simp [hkey, redactSensitive]

theorem proposedArguments_update {current : Option StoredRuntime} {arguments proposed : Fields}
    (h : proposedArguments current "update_runtime_configuration" arguments = .ok proposed) :
    ∃ requested normalized, normalizeConfigurationChanges requested = .ok normalized ∧
      proposed = [("changes", .obj normalized)] := by
  rw [proposedArguments, if_pos rfl] at h
  obtain ⟨requested, -, h⟩ := bind_eq_ok.mp h
  cases current with
  | none => simp at h
  | some current =>
      obtain ⟨-, -, h⟩ := bind_eq_ok.mp h
      obtain ⟨normalized, hnormalized, h⟩ := bind_eq_ok.mp h
      exact ⟨_, normalized, hnormalized, (Except.ok.inj h).symm⟩

/-- A proposal is faithful unless redaction, the key of the runtime or a text with blanks at
its ends comes in between. -/
theorem proposalFaithful_iff {current : Option StoredRuntime}
    {runtimeId projectId userId : Uuid} {role : UserRole} {action : String}
    {arguments proposed : Fields} {now : ℕ} {p : Proposal}
    (hproposed : proposedArguments current action arguments = .ok proposed)
    (h : propose isAlnum current runtimeId projectId userId role action arguments now = .ok p) :
    ProposalFaithful p proposed ↔
      ¬Confirmable proposed ∨ PlainArguments isAlnum action proposed := by
  obtain ⟨haction, hstatus, hexpires, hallowed, harguments⟩ := propose_spec hproposed h
  have happlied : action = "update_runtime_configuration" → ∀ normalized,
      Json.lookup "changes" proposed = some (.obj normalized) →
      (ToolCall.appliedChanges ⟨action, proposed⟩ = .ok normalized ↔
        ∀ field ∈ normalized, Trimmed field.2) := by
    rintro rfl normalized hchanges
    obtain ⟨requested, normalized', hnormalized, rfl⟩ := proposedArguments_update hproposed
    obtain rfl : normalized' = normalized := by simpa [Json.lookup] using hchanges
    exact normalizeConfigurationChanges_again hnormalized
  constructor
  · intro hfaithful
    refine or_iff_not_imp_left.mpr fun hconfirmable => ?_
    obtain ⟨runtimeId', hruntimeId⟩ := exists_runtimeId_iff.mpr (not_not.mp hconfirmable)
    have hresolve := resolve_executed_iff.mpr ⟨rfl, rfl, harguments ▸ hruntimeId, hstatus,
      hexpires, haction ▸ hallowed, rfl⟩
    obtain ⟨-, hcall, hchanges⟩ := hfaithful _ _ _ _ _ _ hresolve
    dsimp only at hcall
    rw [harguments] at hcall
    obtain ⟨hkey, hplain⟩ := erase_redacted_eq_iff.mp hcall
    refine ⟨hkey, hplain, fun hupdate normalized hlookup => ?_⟩
    have hagain := hchanges (haction.trans hupdate) normalized hlookup
    rw [harguments, hcall, haction] at hagain
    exact (happlied hupdate normalized hlookup).mp hagain
  · rintro hcondition runtimeId' projectId' userId' role' now' call hresolve
    obtain ⟨-, -, hruntimeId, -, -, -, rfl⟩ := resolve_executed_iff.mp hresolve
    rw [harguments] at hruntimeId
    have hplain := hcondition.resolve_left
      (not_not_intro (exists_runtimeId_iff.mp ⟨runtimeId', hruntimeId⟩))
    have hcall := (@erase_redacted_eq_iff isAlnum runtimeId _).mpr
      ⟨hplain.no_runtimeId, hplain.plain⟩
    dsimp only
    rw [harguments, hcall, haction]
    exact ⟨rfl, rfl, fun hupdate normalized hlookup =>
      (happlied hupdate normalized hlookup).mpr (hplain.trimmed hupdate normalized hlookup)⟩

end

/-! ## Two proposals -/

/-- A proposal of a developer, with arguments that are stored as given. -/
def storedProposal (action : String) (arguments : Fields) : Proposal where
  userId := ⟨"owner"⟩
  projectId := ⟨"project"⟩
  action := action
  arguments := arguments ++ [("runtime_id", .str "runtime")]
  risk := "medium"
  expiresAt := 600

theorem proposalFaithful_iff_changeTemperature :
    ProposalFaithful (storedProposal "change_temperature" [("temperature", .float (1 / 2))])
        [("temperature", .float (1 / 2))] ↔
      ¬Confirmable [("temperature", .float (1 / 2))] ∨
        PlainArguments (fun _ => false) "change_temperature" [("temperature", .float (1 / 2))] := by
  have hkey : isSecretKey "temperature" = false := by decide +kernel
  have hproposed : proposedArguments none "change_temperature" [("temperature", .float (1 / 2))] =
      .ok [("temperature", .float (1 / 2))] := rfl
  have hstored : propose (fun _ => false) none ⟨"runtime"⟩ ⟨"project"⟩ ⟨"owner"⟩ .developer
      "change_temperature" [("temperature", .float (1 / 2))] 0 =
      .ok (storedProposal "change_temperature" [("temperature", .float (1 / 2))]) := by
    have hallowed : toolDenied .developer "change_temperature" = none := by decide +kernel
    rw [propose, if_neg (by decide), hproposed]
    simp [hallowed, redactSensitiveFields, hkey, redactSensitive, storedProposal, actionRisk]
  exact proposalFaithful_iff hproposed hstored

/-- A proposed limit of tokens is executed with the mark of a secret in its place. -/
theorem maxTokens_proposal_unfaithful :
    propose (fun _ => false) none ⟨"runtime"⟩ ⟨"project"⟩ ⟨"owner"⟩ .developer
        "change_max_tokens" [("max_tokens", .int 2048)] 0 =
        .ok (storedProposal "change_max_tokens" [("max_tokens", secretMark)]) ∧
      ¬ProposalFaithful (storedProposal "change_max_tokens" [("max_tokens", secretMark)])
        [("max_tokens", .int 2048)] := by
  have hkey : isSecretKey "max_tokens" = true := by decide +kernel
  have hallowed : toolDenied .developer "change_max_tokens" = none := by decide +kernel
  have hproposed : proposedArguments none "change_max_tokens" [("max_tokens", .int 2048)] =
      .ok [("max_tokens", .int 2048)] := rfl
  constructor
  · rw [propose, if_neg (by decide), hproposed]
    simp [hallowed, redactSensitiveFields, hkey, storedProposal, actionRisk]
  · intro hfaithful
    have hcall := (hfaithful ⟨"runtime"⟩ ⟨"project"⟩ ⟨"owner"⟩ .developer 1 _
      (resolve_executed_iff.mpr ⟨rfl, rfl, rfl, rfl, by decide, hallowed, rfl⟩)).2.1
    simp [storedProposal, Json.erase, secretMark] at hcall

end Zyntry
