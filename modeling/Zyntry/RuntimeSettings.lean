import Zyntry.ConfigurationTools
import Zyntry.StepRuns

/-!
# Runtime settings

The paths on which the settings of a runtime are written: the update of the service, with
explicit nulls, two commands of the assistant, and the configuration of a project. The
chunks of a runtime have to be larger than their overlap, the model must not belong to
another provider, and the security policy has to be one that the normalisation returns.
-/

namespace Zyntry

open Python

/-! ## The update with nulls -/

/-- `RuntimeUpdate`; a field that is not set is `none`, and `some none` is a null. -/
structure RuntimePatch where
  name : Option (Option String) := none
  environment : Option (Option String) := none
  provider : Option (Option String) := none
  model : Option (Option String) := none
  fallbackModels : Option (Option (List String)) := none
  routingStrategy : Option (Option String) := none
  embeddingModel : Option (Option String) := none
  vectorStore : Option (Option String) := none
  chunkSize : Option (Option ℤ) := none
  chunkOverlap : Option (Option ℤ) := none
  systemInstructions : Option (Option String) := none
  securityPolicies : Option (Option Fields) := none
  config : Option (Option Fields) := none

/-- A column that takes no null. -/
def notNull {β : Type} (value : Option (Option β)) (stored : β) : Except ToolError β :=
  match value.getD (some stored) with
  | some b => .ok b
  | none => .error .other

/-- A JSON column stores a null, which is read as an empty value. -/
def nullable {β : Type} (value : Option (Option (List β))) (stored : List β) : List β :=
  (value.getD (some stored)).getD []

/-- `provider_model_mismatch`; without a provider or a model there is none. -/
def nullableMismatch : Option String → Option String → Option String
  | some provider, some model => providerModelMismatch provider model
  | _, _ => none

/-- The flush of the row fails on a text that is too long for its column. -/
def StoredRuntime.flush (r : StoredRuntime) : Except ToolError StoredRuntime :=
  if r.name.length ≤ 255 ∧ r.environment.length ≤ 32 ∧ r.provider.length ≤ 64 ∧
      r.model.length ≤ 128 ∧ r.routingStrategy.length ≤ 64 ∧ r.embeddingModel.length ≤ 128 ∧
      r.vectorStore.length ≤ 64 then .ok r
  else .error .other

namespace RuntimePatch

/-- The provider that is written: naming a model may imply another provider. -/
def effectiveProvider (data : RuntimePatch) (r : StoredRuntime) : Option (Option String) :=
  match data.provider, data.model with
  | none, some (some model) =>
      ((inferProviderForModel model).filter fun inferred => inferred ≠ lower r.provider).map some
  | provider, _ => provider

def effectivePolicies (ipRule : String → Option String) (data : RuntimePatch)
    (r : StoredRuntime) : Except ToolError Fields :=
  match data.securityPolicies with
  | none => .ok r.securityPolicies
  | some policy => normalizeRuntimeSecurityPolicy ipRule (policy.getD [])

/-- The row with the values that are set. -/
def assign (data : RuntimePatch) (provider : Option (Option String)) (policies : Fields)
    (r : StoredRuntime) : Except ToolError StoredRuntime := do
  let name ← notNull data.name r.name
  let environment ← notNull data.environment r.environment
  let provider ← notNull provider r.provider
  let model ← notNull data.model r.model
  let routingStrategy ← notNull data.routingStrategy r.routingStrategy
  let embeddingModel ← notNull data.embeddingModel r.embeddingModel
  let vectorStore ← notNull data.vectorStore r.vectorStore
  let chunkSize ← notNull data.chunkSize r.chunkSize
  let chunkOverlap ← notNull data.chunkOverlap r.chunkOverlap
  pure
    { name, environment, provider, model, routingStrategy, embeddingModel, vectorStore
      chunkSize, chunkOverlap
      fallbackModels := nullable data.fallbackModels r.fallbackModels
      systemInstructions := data.systemInstructions.getD r.systemInstructions
      securityPolicies := policies
      config := nullable data.config r.config }

end RuntimePatch

section Operations

variable (ipRule : String → Option String)

/-- `RuntimeService.update`. -/
def updateRuntime (r : StoredRuntime) (data : RuntimePatch) : Except ToolError StoredRuntime := do
  let provider := data.effectiveProvider r
  let policies ← data.effectivePolicies ipRule r
  match nullableMismatch (provider.getD (some r.provider)) (data.model.getD (some r.model)) with
  | some mismatch => .error (.valueError mismatch)
  | none =>
      let updated ← data.assign provider policies r
      updated.flush

/-! ## The other paths -/

/-- `_change_default_provider`; the schema takes texts and null. -/
def changeDefaultProvider (r : StoredRuntime) : Json → Except ToolError StoredRuntime
  | .str provider => updateRuntime ipRule r { provider := some (some provider) }
  | .null => updateRuntime ipRule r { provider := some none }
  | _ => .error .other

structure ProjectConfigUpdate where
  provider : Option String := none
  providers : List String := []
  model : Option String := none
  routingStrategy : String
  systemInstructions : Option String := none
  securitySettings : Fields := []

/-- `body.model_dump(exclude_none=True)`. -/
def ProjectConfigUpdate.configData (body : ProjectConfigUpdate) : Fields :=
  (body.provider.map fun provider => ("provider", Json.str provider)).toList ++
    [("providers", .arr (body.providers.map .str))] ++
    (body.model.map fun model => ("model", Json.str model)).toList ++
    [("routing_strategy", .str body.routingStrategy)] ++
    (body.systemInstructions.map fun text => ("system_instructions", Json.str text)).toList ++
    [("security_settings", .obj body.securitySettings)]

/-- The update of the runtime in `configure_project`. -/
def configureProject (r : StoredRuntime) (body : ProjectConfigUpdate) :
    Except ToolError StoredRuntime :=
  StoredRuntime.flush
    { r with
      routingStrategy := body.routingStrategy
      securityPolicies := body.securitySettings
      config := Json.update r.config body.configData
      provider := body.provider.getD r.provider
      model := body.model.getD r.model
      systemInstructions := body.systemInstructions.or r.systemInstructions }

inductive SettingsOperation where
  | update (data : RuntimePatch)
  | updateRuntimeConfiguration (changes : Json)
  | changeDefaultProvider (provider : Json)
  | configureProject (body : ProjectConfigUpdate)

def SettingsOperation.apply (r : StoredRuntime) : SettingsOperation → Except ToolError StoredRuntime
  | .update data => updateRuntime ipRule r data
  | .updateRuntimeConfiguration changes =>
      r.updateConfiguration ipRule changes >>= StoredRuntime.flush
  | .changeDefaultProvider provider => Zyntry.changeDefaultProvider ipRule r provider
  | .configureProject body => Zyntry.configureProject r body

/-- The runtime after an operation; one that fails has written nothing. -/
def StoredRuntime.afterSettings (r : StoredRuntime) (operation : SettingsOperation) :
    StoredRuntime :=
  match operation.apply ipRule r with
  | .ok r' => r'
  | .error _ => r

end Operations

/-- An update without nulls is the one that the assistant's tools make. -/
def RuntimeUpdate.toPatch (data : RuntimeUpdate) : RuntimePatch where
  name := data.name.map some
  environment := data.environment.map some
  provider := data.provider.map some
  model := data.model.map some
  fallbackModels := data.fallbackModels.map some
  routingStrategy := data.routingStrategy.map some
  embeddingModel := data.embeddingModel.map some
  vectorStore := data.vectorStore.map some
  chunkSize := data.chunkSize.map some
  chunkOverlap := data.chunkOverlap.map some
  systemInstructions := data.systemInstructions.map some
  securityPolicies := data.securityPolicies.map some
  config := data.config.map some

theorem notNull_map {β : Type} (value : Option β) (stored : β) :
    notNull (value.map some) stored = .ok (value.getD stored) := by
  cases value <;> rfl

theorem nullable_map {β : Type} (value : Option (List β)) (stored : List β) :
    nullable (value.map some) stored = value.getD stored := by
  cases value <;> rfl

theorem updateRuntime_toPatch (ipRule : String → Option String) (r : StoredRuntime)
    (data : RuntimeUpdate) :
    updateRuntime ipRule r data.toPatch = r.update ipRule data >>= StoredRuntime.flush := by
  have hprovider : data.toPatch.effectiveProvider r = (data.effectiveProvider r).map some := by
    cases hp : data.provider <;> cases hm : data.model <;>
      simp [RuntimePatch.effectiveProvider, RuntimeUpdate.effectiveProvider,
        RuntimeUpdate.toPatch, hp, hm]
  have hpolicies : data.toPatch.effectivePolicies ipRule r = data.effectivePolicies ipRule r := by
    cases hs : data.securityPolicies <;>
      simp [RuntimePatch.effectivePolicies, RuntimeUpdate.effectivePolicies,
        RuntimeUpdate.toPatch, hs]
  have hmismatch : nullableMismatch
      ((data.toPatch.effectiveProvider r).getD (some r.provider))
      (data.toPatch.model.getD (some r.model)) =
        providerModelMismatch ((data.effectiveProvider r).getD r.provider)
          (data.model.getD r.model) := by
    rw [hprovider]
    cases data.effectiveProvider r <;> cases hm : data.model <;>
      simp [RuntimeUpdate.toPatch, hm, nullableMismatch]
  unfold updateRuntime StoredRuntime.update
  dsimp only
  rw [hpolicies, hmismatch, hprovider]
  cases data.effectivePolicies ipRule r with
  | error e => rfl
  | ok policies =>
      cases hpair : providerModelMismatch ((data.effectiveProvider r).getD r.provider)
          (data.model.getD r.model) with
      | some mismatch => simp [bind, Except.bind]
      | none =>
          simp only [bind, Except.bind, RuntimePatch.assign, RuntimeUpdate.toPatch, notNull_map,
            nullable_map]
          cases data.systemInstructions <;> rfl

/-! ## Coherent settings -/

/-- The policy is one that the normalisation returns. -/
def NormalPolicy (ipRule : String → Option String) (policy : Fields) : Prop :=
  ∃ raw, normalizeRuntimeSecurityPolicy ipRule raw = .ok policy

structure CoherentSettings (ipRule : String → Option String) (r : StoredRuntime) : Prop where
  chunks : r.chunkOverlap < r.chunkSize
  compatible : providerModelMismatch r.provider r.model = none
  policy : NormalPolicy ipRule r.securityPolicies

/-- The sizes that an update leaves, where it sets no null. -/
def RuntimePatch.KeepsChunks (data : RuntimePatch) (r : StoredRuntime) : Prop :=
  ∀ overlap ∈ data.chunkOverlap.getD (some r.chunkOverlap),
    ∀ size ∈ data.chunkSize.getD (some r.chunkSize), overlap < size

/-- What an operation must bring for the settings to stay coherent. The assistant's commands
check all of it themselves. -/
def KeepsSettings (ipRule : String → Option String) (r : StoredRuntime) :
    SettingsOperation → Prop
  | .update data => data.KeepsChunks r
  | .updateRuntimeConfiguration _ => True
  | .changeDefaultProvider _ => True
  | .configureProject body =>
      providerModelMismatch (body.provider.getD r.provider) (body.model.getD r.model) = none ∧
        NormalPolicy ipRule body.securitySettings

section Operations

variable {ipRule : String → Option String} {r r' : StoredRuntime}

theorem notNull_eq_ok {β : Type} {value : Option (Option β)} {stored b : β}
    (h : notNull value stored = .ok b) : value.getD (some stored) = some b := by
  unfold notNull at h
  split at h
  · next hvalue => exact hvalue.trans (congrArg some (Except.ok.inj h))
  · cases h

theorem StoredRuntime.flush_eq_ok (h : r.flush = .ok r') : r' = r := by
  unfold StoredRuntime.flush at h
  split_ifs at h
  exact (Except.ok.inj h).symm

theorem RuntimePatch.assign_eq_ok {data : RuntimePatch} {provider : Option (Option String)}
    {policies : Fields} (h : data.assign provider policies r = .ok r') :
    data.chunkSize.getD (some r.chunkSize) = some r'.chunkSize ∧
      data.chunkOverlap.getD (some r.chunkOverlap) = some r'.chunkOverlap ∧
        provider.getD (some r.provider) = some r'.provider ∧
          data.model.getD (some r.model) = some r'.model ∧ r'.securityPolicies = policies ∧
            data.name.getD (some r.name) = some r'.name ∧
              data.environment.getD (some r.environment) = some r'.environment := by
  unfold RuntimePatch.assign at h
  obtain ⟨name, hname, h⟩ := bind_eq_ok.mp h
  obtain ⟨environment, henvironment, h⟩ := bind_eq_ok.mp h
  obtain ⟨provider', hprovider, h⟩ := bind_eq_ok.mp h
  obtain ⟨model, hmodel, h⟩ := bind_eq_ok.mp h
  obtain ⟨routingStrategy, -, h⟩ := bind_eq_ok.mp h
  obtain ⟨embeddingModel, -, h⟩ := bind_eq_ok.mp h
  obtain ⟨vectorStore, -, h⟩ := bind_eq_ok.mp h
  obtain ⟨chunkSize, hsize, h⟩ := bind_eq_ok.mp h
  obtain ⟨chunkOverlap, hoverlap, h⟩ := bind_eq_ok.mp h
  obtain rfl := Except.ok.inj h
  exact ⟨notNull_eq_ok hsize, notNull_eq_ok hoverlap, notNull_eq_ok hprovider,
    notNull_eq_ok hmodel, rfl, notNull_eq_ok hname, notNull_eq_ok henvironment⟩

/-- The name and the environment that an accepted update leaves. -/
theorem updateRuntime_names {data : RuntimePatch} (h : updateRuntime ipRule r data = .ok r') :
    data.name.getD (some r.name) = some r'.name ∧
      data.environment.getD (some r.environment) = some r'.environment := by
  obtain ⟨policies, -, h⟩ := bind_eq_ok.mp h
  split at h
  · cases h
  obtain ⟨updated, hassign, hflush⟩ := bind_eq_ok.mp h
  obtain rfl := StoredRuntime.flush_eq_ok hflush
  obtain ⟨-, -, -, -, -, hname, henvironment⟩ := RuntimePatch.assign_eq_ok hassign
  exact ⟨hname, henvironment⟩

/-- An accepted update keeps the pair of provider and model and the policy in order, and the
chunks as far as its own values do. -/
theorem coherent_updateRuntime_iff {data : RuntimePatch} (hr : CoherentSettings ipRule r)
    (h : updateRuntime ipRule r data = .ok r') :
    CoherentSettings ipRule r' ↔ data.KeepsChunks r := by
  obtain ⟨policies, hpolicies, h⟩ := bind_eq_ok.mp h
  split at h
  · cases h
  next hmismatch =>
  obtain ⟨updated, hassign, hflush⟩ := bind_eq_ok.mp h
  obtain rfl := StoredRuntime.flush_eq_ok hflush
  obtain ⟨hsize, hoverlap, hprovider, hmodel, hrow, -, -⟩ := RuntimePatch.assign_eq_ok hassign
  have hkeeps : data.KeepsChunks r ↔ r'.chunkOverlap < r'.chunkSize := by
    unfold RuntimePatch.KeepsChunks
    rw [hsize, hoverlap]
    simp
  rw [hkeeps]
  refine ⟨fun hr' => hr'.chunks, fun hchunks => ⟨hchunks, ?_, ?_⟩⟩
  · rwa [hprovider, hmodel] at hmismatch
  · rw [hrow]
    unfold RuntimePatch.effectivePolicies at hpolicies
    split at hpolicies
    · exact Except.ok.inj hpolicies ▸ hr.policy
    · exact ⟨_, hpolicies⟩

theorem RuntimePatch.keepsChunks_of_coherent {data : RuntimePatch} (hr : CoherentSettings ipRule r)
    (hsize : data.chunkSize = none) (hoverlap : data.chunkOverlap = none) :
    data.KeepsChunks r := by
  unfold RuntimePatch.KeepsChunks
  rw [hsize, hoverlap]
  simpa using hr.chunks

theorem coherent_changeDefaultProvider {provider : Json} (hr : CoherentSettings ipRule r)
    (h : changeDefaultProvider ipRule r provider = .ok r') : CoherentSettings ipRule r' := by
  unfold changeDefaultProvider at h
  split at h
  · exact (coherent_updateRuntime_iff hr h).mpr (RuntimePatch.keepsChunks_of_coherent hr rfl rfl)
  · exact (coherent_updateRuntime_iff hr h).mpr (RuntimePatch.keepsChunks_of_coherent hr rfl rfl)
  · cases h

/-- An update without nulls whose sizes have been compared. -/
theorem coherent_update {data : RuntimeUpdate} {updated : StoredRuntime}
    (hr : CoherentSettings ipRule r)
    (hsizes : ¬data.chunkSize.getD r.chunkSize ≤ data.chunkOverlap.getD r.chunkOverlap)
    (hupdated : r.update ipRule data = .ok updated) (hflush : updated.flush = .ok r') :
    CoherentSettings ipRule r' := by
  have hpatch : updateRuntime ipRule r data.toPatch = .ok r' := by
    rw [updateRuntime_toPatch, hupdated]
    exact hflush
  refine (coherent_updateRuntime_iff hr hpatch).mpr ?_
  unfold RuntimePatch.KeepsChunks RuntimeUpdate.toPatch
  intro overlap hoverlap size hsize
  have hoverlap' : data.chunkOverlap.getD r.chunkOverlap = overlap := by
    cases hset : data.chunkOverlap <;> simpa [hset] using hoverlap
  have hsize' : data.chunkSize.getD r.chunkSize = size := by
    cases hset : data.chunkSize <;> simpa [hset] using hsize
  omega

/-- The command compares the sizes that it leaves before it updates. -/
theorem coherent_updateConfiguration {changes : Json} {updated : StoredRuntime}
    (hr : CoherentSettings ipRule r) (hupdated : r.updateConfiguration ipRule changes = .ok updated)
    (hflush : updated.flush = .ok r') : CoherentSettings ipRule r' := by
  obtain ⟨normalized, -, hupdated⟩ := bind_eq_ok.mp hupdated
  dsimp only at hupdated
  split at hupdated
  · cases hupdated
  next hsizes =>
    refine coherent_update hr ?_ hupdated hflush
    exact hsizes

theorem coherent_configureProject_iff {body : ProjectConfigUpdate}
    (hr : CoherentSettings ipRule r) (h : configureProject r body = .ok r') :
    CoherentSettings ipRule r' ↔
      providerModelMismatch (body.provider.getD r.provider) (body.model.getD r.model) = none ∧
        NormalPolicy ipRule body.securitySettings := by
  obtain rfl := StoredRuntime.flush_eq_ok h
  exact ⟨fun hr' => ⟨hr'.compatible, hr'.policy⟩, fun ⟨hpair, hpolicy⟩ =>
    ⟨hr.chunks, hpair, hpolicy⟩⟩

/-- The condition says exactly when an accepted operation keeps the settings coherent. -/
theorem coherent_apply_iff {operation : SettingsOperation} (hr : CoherentSettings ipRule r)
    (h : operation.apply ipRule r = .ok r') :
    CoherentSettings ipRule r' ↔ KeepsSettings ipRule r operation := by
  cases operation with
  | update data => exact coherent_updateRuntime_iff hr h
  | updateRuntimeConfiguration changes =>
      obtain ⟨updated, hupdated, hflush⟩ := bind_eq_ok.mp h
      exact iff_of_true (coherent_updateConfiguration hr hupdated hflush) trivial
  | changeDefaultProvider provider =>
      exact iff_of_true (coherent_changeDefaultProvider hr h) trivial
  | configureProject body => exact coherent_configureProject_iff hr h

theorem coherent_afterSettings {operation : SettingsOperation} (hr : CoherentSettings ipRule r)
    (hkeeps : KeepsSettings ipRule r operation) :
    CoherentSettings ipRule (r.afterSettings ipRule operation) := by
  unfold StoredRuntime.afterSettings
  cases h : operation.apply ipRule r with
  | error e => exact hr
  | ok r' => exact (coherent_apply_iff hr h).mpr hkeeps

/-- The settings stay coherent in every run of operations that meet the condition. -/
theorem settings_stayCoherent (ipRule : String → Option String) (r : StoredRuntime)
    (operations : List SettingsOperation) (hr : CoherentSettings ipRule r)
    (hrun : StepRuns.Along (StoredRuntime.afterSettings ipRule) (KeepsSettings ipRule) r
      operations) :
    CoherentSettings ipRule (operations.foldl (StoredRuntime.afterSettings ipRule) r) :=
  hrun.invariant (fun _ _ hr hkeeps => coherent_afterSettings hr hkeeps) hr

end Operations

/-! ## Operations that break the settings -/

def normalRuntime : StoredRuntime where
  securityPolicies := defaultRuntimeSecurityPolicy

theorem coherent_normalRuntime : CoherentSettings (fun _ => none) normalRuntime where
  chunks := by decide
  compatible := by decide +kernel
  policy := ⟨[], rfl⟩

/-- A larger size for chunks, another overlap, a provider that routes to all models, and a
project that is configured with the default policy. -/
theorem settings_stayCoherent_configured :
    CoherentSettings (fun _ => none)
      ([.update { chunkSize := some (some 1024) },
        .updateRuntimeConfiguration (.obj [("chunk_overlap", .int 100)]),
        .changeDefaultProvider (.str "openrouter"),
        .configureProject
          { routingStrategy := "balanced", model := some "claude-3-5-sonnet",
            securitySettings := defaultRuntimeSecurityPolicy }].foldl
        (StoredRuntime.afterSettings fun _ => none) normalRuntime) := by
  refine settings_stayCoherent _ normalRuntime _ coherent_normalRuntime ?_
  have hchunks : RuntimePatch.KeepsChunks { chunkSize := some (some 1024) } normalRuntime := by
    unfold RuntimePatch.KeepsChunks
    decide
  exact ⟨hchunks, trivial, trivial, ⟨by decide +kernel, [], rfl⟩, trivial⟩

/-- A policy that the normalisation returns has the failure mode. -/
theorem NormalPolicy.redisFailureMode {ipRule : String → Option String} {policy : Fields}
    (h : NormalPolicy ipRule policy) :
    ∃ mode, Json.lookup "redis_failure_mode" policy = some (.str mode) := by
  obtain ⟨raw, h⟩ := h
  obtain ⟨allowed, -, h⟩ := bind_eq_ok.mp h
  obtain ⟨blocked, -, h⟩ := bind_eq_ok.mp h
  obtain rfl := Except.ok.inj h
  exact ⟨_, Json.lookup_set_self _ _ _⟩

/-- An overlap that reaches the stored size, a model of another provider, and the default of
`security_settings`. -/
theorem settings_break :
    let overlap : SettingsOperation := .update { chunkOverlap := some (some 512) }
    let model : SettingsOperation := .configureProject
      { routingStrategy := "balanced", model := some "claude-3-5-sonnet",
        securitySettings := defaultRuntimeSecurityPolicy }
    let policy : SettingsOperation := .configureProject { routingStrategy := "balanced" }
    CoherentSettings (fun _ => none) normalRuntime ∧
      ¬(normalRuntime.afterSettings (fun _ => none) overlap).chunkOverlap <
          (normalRuntime.afterSettings (fun _ => none) overlap).chunkSize ∧
        providerModelMismatch (normalRuntime.afterSettings (fun _ => none) model).provider
            (normalRuntime.afterSettings (fun _ => none) model).model ≠ none ∧
          ¬NormalPolicy (fun _ => none)
            (normalRuntime.afterSettings (fun _ => none) policy).securityPolicies := by
  refine ⟨coherent_normalRuntime, by decide +kernel, by decide +kernel, fun hpolicy => ?_⟩
  obtain ⟨mode, hmode⟩ := hpolicy.redisFailureMode
  cases hmode

end Zyntry
