import Zyntry.ContextManager
import Zyntry.ModelRouter

/-!
# The usage that a provider reports

A provider answers with a text, a pair, a dict or an object, and its usage is spelled in several
ways. A count that cannot be read is estimated; so is a count that is reported as zero, and the
part of a total that the other part has used up. Floats of a payload need not be numbers.
-/

namespace Zyntry.TokenEngine

open Python

/-- A value in a usage payload; `model` is an object with `model_dump`, and `other` is any other
object, of which only the truth value is known. -/
inductive UsageValue where
  | none
  | bool (b : Bool)
  | int (n : ℤ)
  | float (q : ℚ)
  | infinity
  | nan
  | str (s : String)
  | dict (fields : List (String × UsageValue))
  | model (dump : UsageValue)
  | other (truthy : Bool)

/-- What `int(value)` raises. -/
inductive IntegerError where
  | typeError
  | valueError
  | overflowError
deriving DecidableEq, Repr

namespace UsageValue

def truthy : UsageValue → Bool
  | .none => false
  | .bool b => b
  | .int n => n ≠ 0
  | .float q => q ≠ 0
  | .infinity => true
  | .nan => true
  | .str s => s ≠ ""
  | .dict fields => !fields.isEmpty
  | .model _ => true
  | .other truthy => truthy

/-- `value or default`. -/
def orElse (value default : UsageValue) : UsageValue := if value.truthy then value else default

def toInt : UsageValue → Except IntegerError ℤ
  | .bool b => .ok (if b then 1 else 0)
  | .int n => .ok n
  | .float q => .ok (if 0 ≤ q then ⌊q⌋ else ⌈q⌉)
  | .infinity => .error .overflowError
  | .nan => .error .valueError
  | .str s =>
      match intOfString s with
      | .ok n => .ok n
      | .error .typeError => .error .typeError
      | .error .valueError => .error .valueError
  | .none | .dict _ | .model _ | .other _ => .error .typeError

/-- `isinstance(value, (int, float))`. -/
def isNumber : UsageValue → Bool
  | .bool _ | .int _ | .float _ | .infinity | .nan => true
  | _ => false

end UsageValue

/-- `fields.get(key)`. -/
def get (fields : List (String × UsageValue)) (key : String) : UsageValue :=
  (fields.lookup key).getD .none

inductive ProviderResult where
  | text (value : UsageValue)
  | pair (text usage : UsageValue)
  | dict (fields : List (String × UsageValue))
  /-- An object with `usage`; `printed` is its `str`. -/
  | response (text content : UsageValue) (printed : String) (usage : UsageValue)

/-- The text and the usage payload of a result. -/
def ProviderResult.parts : ProviderResult → UsageValue × UsageValue
  | .text value => (value, .none)
  | .pair answer usage => (answer, usage)
  | .dict fields =>
      ((get fields "text").orElse ((get fields "content").orElse
          ((get fields "response").orElse (.str ""))),
        (get fields "usage").orElse ((get fields "usageMetadata").orElse (.dict fields)))
  | .response answer content printed usage =>
      (answer.orElse (content.orElse (.str printed)), usage)

/-! ## Counts -/

/-- The dict that `_read_int` reads. -/
def payloadFields : UsageValue → Option (List (String × UsageValue))
  | .dict fields => some fields
  | .model (.dict fields) => some fields
  | _ => none

/-- One round of the loop over the keys; no count means that the loop goes on. -/
def readKey (fields : List (String × UsageValue)) (key : String) :
    Except IntegerError (Option ℤ) :=
  let value :=
    match get fields key with
    | .dict counts => (get counts "total").orElse (get counts "count")
    | value => value
  match value with
  | .none => .ok none
  | value =>
      match value.toInt with
      | .ok n => .ok (some (max 0 n))
      | .error .overflowError => .error .overflowError
      | .error _ => .ok none

def readKeys (fields : List (String × UsageValue)) :
    List String → Except IntegerError (Option ℤ)
  | [] => .ok none
  | key :: keys => do
      match ← readKey fields key with
      | some n => pure (some n)
      | none => readKeys fields keys

/-- The count under the first key that has one; a negative count is taken for zero. -/
def readReported (payload : UsageValue) (keys : List String) : Except IntegerError (Option ℤ) :=
  match payloadFields payload with
  | some fields => readKeys fields keys
  | none => .ok none

/-- `_read_int`. -/
def readInt (payload : UsageValue) (keys : List String) : Except IntegerError ℤ :=
  (·.getD 0) <$> readReported payload keys

def inputKeys : List String := ["input_tokens", "prompt_tokens", "promptTokenCount"]

def outputKeys : List String := ["output_tokens", "completion_tokens", "candidatesTokenCount"]

def cachedKeys : List String := ["cached_tokens", "cachedTokenCount"]

def totalKeys : List String := ["total_tokens", "totalTokenCount"]

/-! ## Usages -/

/-- `CompletionUsage`, whose counts are any integers. -/
structure Usage where
  inputTokens : ℤ
  outputTokens : ℤ
  cachedTokens : ℤ := 0
  source : String := "estimated"
deriving DecidableEq, Repr

def Usage.totalTokens (u : Usage) : ℤ := u.inputTokens + u.outputTokens

/-- `n or estimate`. -/
def countOr (n : ℤ) (estimate : ℕ) : ℤ := if n = 0 then estimate else n

section

variable (str : UsageValue → String)

/-- `str(value)`, where the parameter prints what is no string. -/
def textOf : UsageValue → String
  | .str s => s
  | value => str value

def declaredSource : UsageValue → String
  | .dict fields => lower (stripped (textOf str ((get fields "source").orElse (.str ""))))
  | _ => ""

def usageSource (payload : UsageValue) (inputTokens outputTokens totalTokens : ℤ) : String :=
  if declaredSource str payload ∈ ["estimated", "provider", "mixed"] then
    declaredSource str payload
  else if inputTokens ≠ 0 ∨ outputTokens ≠ 0 ∨ totalTokens ≠ 0 then "provider"
  else "estimated"

def normalizeUsage (result : ProviderResult) (estimatedInputTokens estimatedOutputTokens : ℕ) :
    Except IntegerError (String × Usage) := do
  let (text, payload) := result.parts
  let inputTokens ← readInt payload inputKeys
  let outputTokens ← readInt payload outputKeys
  let cachedTokens ← readInt payload cachedKeys
  let totalTokens ← readInt payload totalKeys
  let totalTokens ← (if payload.isNumber then (max 0 ·) <$> payload.toInt else pure totalTokens)
  let (inputTokens, outputTokens) : ℤ × ℤ :=
    if totalTokens ≠ 0 ∧ ¬(inputTokens ≠ 0 ∨ outputTokens ≠ 0) then
      (min (estimatedInputTokens : ℤ) totalTokens,
        max 0 (totalTokens - min (estimatedInputTokens : ℤ) totalTokens))
    else (inputTokens, outputTokens)
  pure (textOf str (text.orElse (.str "")),
    { inputTokens := countOr inputTokens estimatedInputTokens
      outputTokens := countOr outputTokens estimatedOutputTokens
      cachedTokens
      source := usageSource str payload inputTokens outputTokens totalTokens })

end

def aggregateSource (items : List Usage) : String :=
  match (items.map Usage.source).dedup with
  | [] => "estimated"
  | [source] => source
  | _ => "mixed"

def aggregate (items : List Usage) : Usage where
  inputTokens := (items.map fun u => max 0 u.inputTokens).sum
  outputTokens := (items.map fun u => max 0 u.outputTokens).sum
  cachedTokens := (items.map fun u => max 0 u.cachedTokens).sum
  source := aggregateSource items

/-! ## What is reported -/

/-- The counts that a payload reports. -/
structure TokenReport where
  input : Option ℤ
  output : Option ℤ
  cached : Option ℤ
  total : Option ℤ
deriving DecidableEq, Repr

/-- A payload that is a number reports a total. -/
def report (payload : UsageValue) : Except IntegerError TokenReport := do
  let input ← readReported payload inputKeys
  let output ← readReported payload outputKeys
  let cached ← readReported payload cachedKeys
  let total ←
    (if payload.isNumber then (fun n => some (max 0 n)) <$> payload.toInt
    else readReported payload totalKeys)
  pure { input, output, cached, total }

namespace TokenReport

/-- A total that comes without counts is split at the estimated input. -/
def split (r : TokenReport) (estimatedInputTokens : ℕ) : ℤ × ℤ :=
  if r.total.getD 0 ≠ 0 ∧ ¬(r.input.getD 0 ≠ 0 ∨ r.output.getD 0 ≠ 0) then
    (min (estimatedInputTokens : ℤ) (r.total.getD 0),
      max 0 (r.total.getD 0 - min (estimatedInputTokens : ℤ) (r.total.getD 0)))
  else (r.input.getD 0, r.output.getD 0)

/-- A usage has the reported counts, or the reported total. -/
structure KeptBy (r : TokenReport) (u : Usage) : Prop where
  nonneg : 0 ≤ u.inputTokens ∧ 0 ≤ u.outputTokens ∧ 0 ≤ u.cachedTokens
  total : u.totalTokens = u.inputTokens + u.outputTokens
  input : ∀ n, r.input = some n → u.inputTokens = n
  output : ∀ n, r.output = some n → u.outputTokens = n
  splits : r.input = none → r.output = none → ∀ n, r.total = some n →
    u.inputTokens + u.outputTokens = n

/-- No estimate takes the place of a count that is reported as zero, or of the output tokens of
a total that the estimated input uses up. -/
structure Undisturbed (r : TokenReport) (estimatedInputTokens estimatedOutputTokens : ℕ) :
    Prop where
  input : r.input = some 0 → estimatedInputTokens = 0
  output : r.output = some 0 → estimatedOutputTokens = 0 ∧
    (r.input.getD 0 = 0 → r.total.getD 0 ≤ estimatedInputTokens)
  splits : r.input = none → r.output = none → ∀ n, r.total = some n →
    (n = 0 → estimatedInputTokens = 0) ∧
      ((estimatedInputTokens : ℤ) < n ∨ estimatedOutputTokens = 0)

structure Nonneg (r : TokenReport) : Prop where
  input : ∀ n, r.input = some n → 0 ≤ n
  output : ∀ n, r.output = some n → 0 ≤ n
  cached : ∀ n, r.cached = some n → 0 ≤ n
  total : ∀ n, r.total = some n → 0 ≤ n

end TokenReport

theorem readKey_nonneg {fields : List (String × UsageValue)} {key : String} {n : ℤ}
    (h : readKey fields key = .ok (some n)) : 0 ≤ n := by
  unfold readKey at h
  dsimp only at h
  split at h
  · cases h
  · split at h
    · cases h
      exact le_max_left _ _
    · cases h
    · cases h

theorem readKeys_nonneg {fields : List (String × UsageValue)} {keys : List String} {n : ℤ}
    (h : readKeys fields keys = .ok (some n)) : 0 ≤ n := by
  induction keys with
  | nil => cases h
  | cons key keys ih =>
      obtain ⟨count, hkey, hrest⟩ := bind_eq_ok.mp h
      cases count with
      | some m =>
          cases hrest
          exact readKey_nonneg hkey
      | none => exact ih hrest

theorem readReported_nonneg {payload : UsageValue} {keys : List String} {n : ℤ}
    (h : readReported payload keys = .ok (some n)) : 0 ≤ n := by
  unfold readReported at h
  split at h
  · exact readKeys_nonneg h
  · cases h

theorem report_nonneg {payload : UsageValue} {r : TokenReport} (h : report payload = .ok r) :
    r.Nonneg := by
  obtain ⟨input, hinput, h⟩ := bind_eq_ok.mp h
  obtain ⟨output, houtput, h⟩ := bind_eq_ok.mp h
  obtain ⟨cached, hcached, h⟩ := bind_eq_ok.mp h
  obtain ⟨total, htotal, h⟩ := bind_eq_ok.mp h
  cases h
  refine ⟨?_, ?_, ?_, ?_⟩
  · rintro n rfl
    exact readReported_nonneg hinput
  · rintro n rfl
    exact readReported_nonneg houtput
  · rintro n rfl
    exact readReported_nonneg hcached
  · rintro n rfl
    split_ifs at htotal with hnumber
    · cases hint : payload.toInt with
      | ok m =>
          rw [hint] at htotal
          cases htotal
          exact le_max_left _ _
      | error e =>
          rw [hint] at htotal
          cases htotal
    · exact readReported_nonneg htotal

/-- The usage of what is reported. -/
def TokenReport.usage (r : TokenReport) (estimatedInputTokens estimatedOutputTokens : ℕ)
    (source : ℤ × ℤ → String) : Usage :=
  let counts := r.split estimatedInputTokens
  { inputTokens := countOr counts.1 estimatedInputTokens
    outputTokens := countOr counts.2 estimatedOutputTokens
    cachedTokens := r.cached.getD 0
    source := source counts }

theorem normalizeUsage_eq (str : UsageValue → String) (result : ProviderResult)
    (estimatedInputTokens estimatedOutputTokens : ℕ) :
    normalizeUsage str result estimatedInputTokens estimatedOutputTokens =
      (fun r : TokenReport => (textOf str (result.parts.1.orElse (.str "")),
        r.usage estimatedInputTokens estimatedOutputTokens fun counts =>
          usageSource str result.parts.2 counts.1 counts.2 (r.total.getD 0))) <$>
        report result.parts.2 := by
  unfold normalizeUsage report readInt
  generalize result.parts = parts
  obtain ⟨answer, payload⟩ := parts
  dsimp only
  cases readReported payload inputKeys with
  | error e => rfl
  | ok input =>
      cases readReported payload outputKeys with
      | error e => rfl
      | ok output =>
          cases readReported payload cachedKeys with
          | error e => rfl
          | ok cached =>
              by_cases hnumber : payload.isNumber = true
              · have hfields : readReported payload totalKeys = .ok none := by
                  cases payload <;> first | rfl | cases hnumber
                simp only [hfields, if_pos hnumber]
                cases payload.toInt with
                | error e => rfl
                | ok n => rfl
              · simp only [if_neg hnumber]
                cases readReported payload totalKeys with
                | error e => rfl
                | ok total => rfl

namespace TokenReport

variable {r : TokenReport}

theorem countOr_eq (n : ℤ) (estimate : ℕ) :
    (n = 0 ∧ countOr n estimate = estimate) ∨ (n ≠ 0 ∧ countOr n estimate = n) := by
  unfold countOr
  split_ifs with h
  · exact .inl ⟨h, rfl⟩
  · exact .inr ⟨h, rfl⟩

/-- The total is split, and the estimate stands for the output tokens if nothing is left. -/
theorem usage_of_total (hr : r.Nonneg) (estimatedInputTokens estimatedOutputTokens : ℕ)
    (source : ℤ × ℤ → String)
    (h : r.total.getD 0 ≠ 0 ∧ ¬(r.input.getD 0 ≠ 0 ∨ r.output.getD 0 ≠ 0)) :
    let u := r.usage estimatedInputTokens estimatedOutputTokens source
    u.inputTokens = min (estimatedInputTokens : ℤ) (r.total.getD 0) ∧
      u.outputTokens =
        if r.total.getD 0 ≤ estimatedInputTokens then (estimatedOutputTokens : ℤ)
        else r.total.getD 0 - estimatedInputTokens := by
  have hpos : 0 < r.total.getD 0 := by
    cases htotal : r.total with
    | none => exact absurd (htotal ▸ rfl) h.1
    | some n => exact lt_of_le_of_ne (hr.total n htotal) fun h0 => h.1 (by rw [htotal, h0]; rfl)
  unfold usage split
  rw [if_pos h]
  generalize r.total.getD 0 = total at hpos ⊢
  dsimp only
  constructor
  · rcases countOr_eq (min (estimatedInputTokens : ℤ) total) estimatedInputTokens with h' | h' <;>
      omega
  · rcases countOr_eq (max 0 (total - min (estimatedInputTokens : ℤ) total))
      estimatedOutputTokens with h' | h'
    · rw [h'.2, if_pos (by omega)]
    · rw [h'.2, if_neg (by omega)]
      omega

theorem usage_of_counts (estimatedInputTokens estimatedOutputTokens : ℕ)
    (source : ℤ × ℤ → String)
    (h : ¬(r.total.getD 0 ≠ 0 ∧ ¬(r.input.getD 0 ≠ 0 ∨ r.output.getD 0 ≠ 0))) :
    let u := r.usage estimatedInputTokens estimatedOutputTokens source
    u.inputTokens = countOr (r.input.getD 0) estimatedInputTokens ∧
      u.outputTokens = countOr (r.output.getD 0) estimatedOutputTokens := by
  unfold usage split
  rw [if_neg h]
  exact ⟨rfl, rfl⟩

theorem getD_nonneg {n : Option ℤ} (h : ∀ m, n = some m → 0 ≤ m) : 0 ≤ n.getD 0 := by
  cases n with
  | none => exact le_rfl
  | some m => exact h m rfl

theorem countOr_nonneg {n : ℤ} (hn : 0 ≤ n) (estimate : ℕ) : 0 ≤ countOr n estimate := by
  rcases countOr_eq n estimate with ⟨-, h⟩ | ⟨-, h⟩ <;> omega

theorem usage_nonneg (hr : r.Nonneg) (estimatedInputTokens estimatedOutputTokens : ℕ)
    (source : ℤ × ℤ → String) :
    let u := r.usage estimatedInputTokens estimatedOutputTokens source
    0 ≤ u.inputTokens ∧ 0 ≤ u.outputTokens ∧ 0 ≤ u.cachedTokens := by
  have hinput := getD_nonneg hr.input
  have houtput := getD_nonneg hr.output
  have htotal := getD_nonneg hr.total
  unfold usage split
  dsimp only
  refine ⟨countOr_nonneg ?_ _, countOr_nonneg ?_ _, getD_nonneg hr.cached⟩
  · split_ifs
    · exact le_min (Int.natCast_nonneg _) htotal
    · exact hinput
  · split_ifs
    · exact le_max_left _ _
    · exact houtput

section

variable (hr : r.Nonneg) (estimatedInputTokens estimatedOutputTokens : ℕ)
  (source : ℤ × ℤ → String)

include hr

theorem input_kept_iff :
    (∀ n, r.input = some n →
        (r.usage estimatedInputTokens estimatedOutputTokens source).inputTokens = n) ↔
      (r.input = some 0 → estimatedInputTokens = 0) := by
  cases hinput : r.input with
  | none => simp
  | some i =>
      simp only [Option.some.injEq, forall_eq']
      have hpos := hr.input i hinput
      by_cases h : r.total.getD 0 ≠ 0 ∧ ¬(r.input.getD 0 ≠ 0 ∨ r.output.getD 0 ≠ 0)
      · have hused :=
          (usage_of_total hr estimatedInputTokens estimatedOutputTokens source h).1
        have htotal := getD_nonneg hr.total
        rw [hinput, Option.getD_some] at h
        rw [hused]
        omega
      · have hused :=
          (usage_of_counts estimatedInputTokens estimatedOutputTokens source h).1
        rw [hinput, Option.getD_some] at hused
        rw [hused]
        rcases countOr_eq i estimatedInputTokens with ⟨hi, hcount⟩ | ⟨hi, hcount⟩ <;> omega

theorem output_kept_iff :
    (∀ n, r.output = some n →
        (r.usage estimatedInputTokens estimatedOutputTokens source).outputTokens = n) ↔
      (r.output = some 0 → estimatedOutputTokens = 0 ∧
        (r.input.getD 0 = 0 → r.total.getD 0 ≤ estimatedInputTokens)) := by
  cases houtput : r.output with
  | none => simp
  | some o =>
      simp only [Option.some.injEq, forall_eq']
      have hpos := hr.output o houtput
      by_cases h : r.total.getD 0 ≠ 0 ∧ ¬(r.input.getD 0 ≠ 0 ∨ r.output.getD 0 ≠ 0)
      · have hused :=
          (usage_of_total hr estimatedInputTokens estimatedOutputTokens source h).2
        rw [houtput, Option.getD_some] at h
        rw [hused]
        split_ifs <;> omega
      · have hused :=
          (usage_of_counts estimatedInputTokens estimatedOutputTokens source h).2
        rw [houtput, Option.getD_some] at hused h
        rw [hused]
        rcases countOr_eq o estimatedOutputTokens with ⟨ho, hcount⟩ | ⟨ho, hcount⟩ <;> omega

theorem total_kept_iff :
    (r.input = none → r.output = none → ∀ n, r.total = some n →
        (r.usage estimatedInputTokens estimatedOutputTokens source).inputTokens +
          (r.usage estimatedInputTokens estimatedOutputTokens source).outputTokens = n) ↔
      (r.input = none → r.output = none → ∀ n, r.total = some n →
        (n = 0 → estimatedInputTokens = 0) ∧
          ((estimatedInputTokens : ℤ) < n ∨ estimatedOutputTokens = 0)) := by
  refine imp_congr_right fun hinput => imp_congr_right fun houtput => forall_congr' fun n =>
    imp_congr_right fun htotal => ?_
  have hpos := hr.total n htotal
  by_cases h : r.total.getD 0 ≠ 0 ∧ ¬(r.input.getD 0 ≠ 0 ∨ r.output.getD 0 ≠ 0)
  · obtain ⟨hin, hout⟩ :=
      usage_of_total hr estimatedInputTokens estimatedOutputTokens source h
    rw [hin, hout]
    rw [htotal, Option.getD_some] at h ⊢
    split_ifs <;> omega
  · obtain ⟨hin, hout⟩ :=
      usage_of_counts estimatedInputTokens estimatedOutputTokens source h
    rw [hin, hout]
    rw [hinput, houtput, htotal] at h
    rw [hinput, houtput]
    obtain rfl : n = 0 := by simpa using h
    simp only [Option.getD_none, countOr, if_true, forall_const]
    omega

/-- A usage keeps the report exactly if no estimate takes the place of a zero. -/
theorem keptBy_usage_iff :
    r.KeptBy (r.usage estimatedInputTokens estimatedOutputTokens source) ↔
      r.Undisturbed estimatedInputTokens estimatedOutputTokens := by
  have hinput := input_kept_iff hr estimatedInputTokens estimatedOutputTokens source
  have houtput := output_kept_iff hr estimatedInputTokens estimatedOutputTokens source
  have htotal := total_kept_iff hr estimatedInputTokens estimatedOutputTokens source
  constructor
  · intro h
    exact ⟨hinput.mp h.input, houtput.mp h.output, htotal.mp h.splits⟩
  · intro h
    exact
      { nonneg := usage_nonneg hr estimatedInputTokens estimatedOutputTokens source
        total := rfl
        input := hinput.mpr h.input
        output := houtput.mpr h.output
        splits := htotal.mpr h.splits }

end

end TokenReport

/-! ## Sums of usages -/

/-- The sum of each count. -/
structure Usage.SumOf (u : Usage) (items : List Usage) : Prop where
  input : u.inputTokens = (items.map Usage.inputTokens).sum
  output : u.outputTokens = (items.map Usage.outputTokens).sum
  cached : u.cachedTokens = (items.map Usage.cachedTokens).sum
  total : u.totalTokens = (items.map Usage.totalTokens).sum

def Usage.NonnegCounts (u : Usage) : Prop :=
  0 ≤ u.inputTokens ∧ 0 ≤ u.outputTokens ∧ 0 ≤ u.cachedTokens

theorem sum_max_eq_iff (f : Usage → ℤ) (items : List Usage) :
    (items.map f).sum ≤ (items.map fun u => max 0 (f u)).sum ∧
      ((items.map fun u => max 0 (f u)).sum = (items.map f).sum ↔ ∀ u ∈ items, 0 ≤ f u) := by
  induction items with
  | nil => simp
  | cons u items ih =>
      obtain ⟨hle, hiff⟩ := ih
      rw [List.map_cons, List.map_cons, List.sum_cons, List.sum_cons, List.forall_mem_cons]
      refine ⟨by omega, ?_⟩
      rw [← hiff]
      omega

/-- An aggregate is the sum exactly if no count is negative. -/
theorem sumOf_aggregate_iff (items : List Usage) :
    (aggregate items).SumOf items ↔ ∀ u ∈ items, u.NonnegCounts := by
  have hinput := (sum_max_eq_iff Usage.inputTokens items).2
  have houtput := (sum_max_eq_iff Usage.outputTokens items).2
  have hcached := (sum_max_eq_iff Usage.cachedTokens items).2
  constructor
  · intro h u hu
    exact ⟨hinput.mp h.input u hu, houtput.mp h.output u hu, hcached.mp h.cached u hu⟩
  · intro h
    have hin := hinput.mpr fun u hu => (h u hu).1
    have hout := houtput.mpr fun u hu => (h u hu).2.1
    refine ⟨hin, hout, hcached.mpr fun u hu => (h u hu).2.2, ?_⟩
    have hsplit : (items.map Usage.totalTokens).sum =
        (items.map Usage.inputTokens).sum + (items.map Usage.outputTokens).sum :=
      List.sum_map_add
    rw [hsplit, ← hin, ← hout]
    rfl

/-- A usage that has been normalised. -/
def Usage.ofCompletion (u : CompletionUsage) : Usage where
  inputTokens := u.inputTokens
  outputTokens := u.outputTokens
  cachedTokens := u.cachedTokens
  source := u.source

theorem sum_max_cast (f : CompletionUsage → ℕ) (usages : List CompletionUsage) :
    (usages.map fun u => max 0 (f u : ℤ)).sum = ((usages.map f).sum : ℕ) := by
  induction usages with
  | nil => rfl
  | cons u usages ih =>
      rw [List.map_cons, List.map_cons, List.sum_cons, List.sum_cons, ih]
      push_cast
      omega

/-- The sums of normalised usages are those that the router's callers make. -/
theorem aggregate_ofCompletion (usages : List CompletionUsage) :
    aggregate (usages.map Usage.ofCompletion) = Usage.ofCompletion (Zyntry.aggregate usages) := by
  unfold aggregate aggregateSource
  simp only [List.map_map]
  rw [Usage.ofCompletion, Zyntry.aggregate]
  dsimp only
  rw [← sum_max_cast, ← sum_max_cast, ← sum_max_cast]
  rfl

/-! ## Conservative accounting -/

/-- A result has a usage that keeps what it reports. -/
def Conservative (str : UsageValue → String) (result : ProviderResult)
    (estimatedInputTokens estimatedOutputTokens : ℕ) : Prop :=
  ∃ r text u, report result.parts.2 = .ok r ∧
    normalizeUsage str result estimatedInputTokens estimatedOutputTokens = .ok (text, u) ∧
    r.KeptBy u

/-- Twelve prompt tokens and no completion are reported. -/
def silentAnswer : ProviderResult :=
  .dict [("content", .str ""), ("usage", .dict [("prompt_tokens", .int 12),
    ("completion_tokens", .int 0)])]

end Zyntry.TokenEngine
