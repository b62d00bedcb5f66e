import Zyntry.PythonText
import Zyntry.WhileLoops
import Mathlib.Data.List.MinMax

/-!
# Fitting messages into a model's context

The input budget of a model, and how a list of messages is brought below it: the oldest
messages are dropped, one message is cut, and a last loop shortens the longest message for
as long as the estimate is over the budget. The loops are run for a number of rounds.
-/

namespace Zyntry

open Python

/-! ## Estimated tokens -/

namespace TokenEngine

def charsPerToken : ℕ := 4

def messageOverhead : ℕ := 4

def estimateText (text : String) : ℕ :=
  if text = "" then 0 else max 1 ((text.length + charsPerToken - 1) / charsPerToken)

end TokenEngine

/-- A message as a caller gives it; a key that is absent reads as null. -/
structure RawMessage where
  role : Json
  content : Json

/-- A message as it is sent to a provider. -/
structure Message where
  role : String
  content : String
deriving DecidableEq, Repr

def Message.isSystem (m : Message) : Bool := m.role = "system"

def TokenEngine.estimateMessages (messages : List Message) : ℕ :=
  (messages.map fun m => TokenEngine.estimateText m.content + messageOverhead).sum

open TokenEngine

/-! ## Budgets -/

structure RegisteredModel where
  id : String
  provider : String
  contextWindow : ℤ
  maxOutputTokens : ℤ
deriving DecidableEq

/-- The part of `ModelInfo` that a budget is made from. -/
structure ModelLimits where
  maxContext : ℤ
  maxOutputTokens : ℤ
deriving DecidableEq

/-- `_MODELS`. -/
def registeredModels : List RegisteredModel := [
  ⟨"gpt-4o", "openai", 128000, 16384⟩,
  ⟨"gpt-4o-mini", "openai", 128000, 16384⟩,
  ⟨"gpt-4.1", "openai", 1000000, 32768⟩,
  ⟨"gpt-4.1-mini", "openai", 1000000, 32768⟩,
  ⟨"gpt-3.5-turbo", "openai", 16385, 4096⟩,
  ⟨"gemini-2.5-flash", "google", 1000000, 65536⟩,
  ⟨"gemini-2.5-pro", "google", 1000000, 65536⟩,
  ⟨"gemini-1.5-flash", "google", 1000000, 8192⟩,
  ⟨"gemini-1.5-pro", "google", 2000000, 8192⟩,
  ⟨"claude-3-5-sonnet-latest", "anthropic", 200000, 8192⟩,
  ⟨"claude-3-5-haiku-latest", "anthropic", 200000, 8192⟩,
  ⟨"deepseek-chat", "deepseek", 128000, 8192⟩,
  ⟨"deepseek-reasoner", "deepseek", 128000, 8192⟩,
  ⟨"mistral-large-latest", "mistral", 128000, 8192⟩,
  ⟨"llama-3.3-70b-versatile", "groq", 128000, 32768⟩]

/-- `s` if it is given and not empty. -/
def nonEmpty (s : Option String) : Option String := s.filter (· ≠ "")

/-- An exact identifier of the provider, then an identifier or family of any provider asked
for, then a known family inside the name an aggregator uses. -/
def getRegisteredModel (provider model : Option String) : Option RegisteredModel := do
  let model ← nonEmpty model
  let normalizedModel := lower (stripped model)
  let normalizedProvider := nonEmpty ((nonEmpty provider).map fun p => lower (stripped p))
  let ofProvider (item : RegisteredModel) : Bool :=
    normalizedProvider.all (· = item.provider)
  let exact := normalizedProvider.bind fun p =>
    registeredModels.find? fun item => item.provider = p ∧ lower item.id = normalizedModel
  let family := registeredModels.find? fun item => ofProvider item ∧
    (normalizedModel = lower item.id ∨ startsWith normalizedModel (lower item.id ++ "-"))
  let upstream := (registeredModels.find? fun item =>
    normalizedModel = lower item.id ∨ isInfix (lower item.id) normalizedModel).map fun item =>
      { item with id := model, provider := normalizedProvider.getD item.provider }
  (exact.or family).or upstream

def modelInfoFor (provider model : Option String) (fallbackContext : ℤ) : ModelLimits :=
  match getRegisteredModel provider model with
  | some registered => ⟨registered.contextWindow, registered.maxOutputTokens⟩
  | none => ⟨max 1 fallbackContext, min 8192 (max 1024 (fallbackContext / 8))⟩

/-- `n or default`. -/
def intOr (n : Option ℤ) (default : ℤ) : ℤ := (n.filter (· ≠ 0)).getD default

theorem intOr_some {n : ℤ} (hn : n ≠ 0) (default : ℤ) : intOr (some n) default = n := by
  rw [intOr, Option.filter_some_pos (by simpa using hn), Option.getD_some]

structure ContextBudget where
  modelContext : ℤ
  reservedOutput : ℤ
  safetyMargin : ℤ
  workingInput : ℤ
  positive : 0 < workingInput
deriving DecidableEq

structure ContextManager where
  defaultOutputTokens : ℤ := 2048
  safetyRatio : ℚ := 5764607523034235 / 2 ^ 56
deriving DecidableEq

example : toDouble (8 / 100) = some ({} : ContextManager).safetyRatio := by decide +kernel

/-- `int(n * ratio)`. -/
def scaled (n : ℤ) (ratio : ℚ) : Except FloatError ℤ :=
  match (toDouble n).bind fun x => toDouble (x * ratio) with
  | some q => .ok (if 0 ≤ q then ⌊q⌋ else ⌈q⌉)
  | none => .error .overflowError

def ContextManager.budgetFor (manager : ContextManager) (provider model : Option String)
    (requestedOutputTokens contextOverride : Option ℤ) : Except FloatError ContextBudget :=
  let info := modelInfoFor provider model (intOr contextOverride 128000)
  let modelContext := max 1 (intOr contextOverride info.maxContext)
  let outputLimit := intOr (some info.maxOutputTokens) manager.defaultOutputTokens
  let reservedOutput :=
    max 256 (min (intOr requestedOutputTokens manager.defaultOutputTokens) outputLimit)
  match scaled modelContext manager.safetyRatio with
  | .error e => .error e
  | .ok margin =>
      let safetyMargin := max 256 margin
      .ok ⟨modelContext, reservedOutput, safetyMargin,
        max 1 (modelContext - reservedOutput - safetyMargin), by omega⟩

/-! ## Messages -/

section

variable (str : Json → String)

/-- `str(value or default)`, where `str` is for values that are not text. -/
def textOr (value : Json) (default : String) : String :=
  if value.truthy then
    match value with
    | .str s => s
    | value => str value
  else default

def normalizeMessage (message : RawMessage) : Message :=
  ⟨textOr str message.role "user", textOr str message.content ""⟩

theorem normalizeMessage_str {role : String} (hrole : role ≠ "") (content : String) :
    normalizeMessage str ⟨.str role, .str content⟩ = ⟨role, content⟩ := by
  by_cases hcontent : content = "" <;>
    simp [normalizeMessage, textOr, Json.truthy, hrole, hcontent]

/-- The messages that have a content. -/
def normalized (messages : List RawMessage) : List Message :=
  (messages.filter fun m => !(m.content matches .null)).map (normalizeMessage str)

theorem normalized_cons_of_null {m : RawMessage} (hnull : m.content = .null)
    (messages : List RawMessage) : normalized str (m :: messages) = normalized str messages := by
  unfold normalized
  rw [List.filter_cons_of_neg (by simp [hnull])]

theorem normalized_cons_of_ne_null {m : RawMessage} (hnull : m.content ≠ .null)
    (messages : List RawMessage) :
    normalized str (m :: messages) = normalizeMessage str m :: normalized str messages := by
  unfold normalized
  rw [List.filter_cons_of_pos, List.map_cons]
  cases hcontent : m.content <;> simp_all

end

/-- The oldest message that is neither a system message nor the last one. -/
def oldestRemovableIndex (messages : List Message) : Option ℕ :=
  messages.dropLast.findIdx? fun m => !m.isSystem

structure ContextBreakdown where
  system : ℕ := 0
  history : ℕ := 0
  knowledge : ℕ := 0
  tools : ℕ := 0
  currentRequest : ℕ := 0
deriving DecidableEq, Repr

def contextBreakdown (messages : List Message) : ContextBreakdown :=
  messages.zipIdx.foldl (fun b (m, index) =>
    let tokens := TokenEngine.estimateText m.content + messageOverhead
    let content := lower m.content
    if m.isSystem then { b with system := b.system + tokens }
    else if index = messages.length - 1 then
      { b with currentRequest := b.currentRequest + tokens }
    else if isInfix "connected internal source context" content ∨
        isInfix "retrieved context" content then
      { b with knowledge := b.knowledge + tokens }
    else if isInfix "tool" content then { b with tools := b.tools + tokens }
    else { b with history := b.history + tokens }) {}

/-! ## Assembling -/

/-- `s[:n]`. -/
def takeChars (s : String) (n : ℕ) : String := String.ofList (s.toList.take n)

def truncationMarker : String := "\n[Context truncated to fit the selected model.]"

def compressionMarker : String := "\n[Context truncated.]"

def compressedWarning : String := "Context was compressed to fit the selected model."

def systemWarning : String :=
  "System context is larger than the selected model working budget; " ++
    "system instructions were preserved."

def overflowWarning : String :=
  "The request still exceeds the model working budget after compression."

def OverBudget (workingInput : ℤ) (messages : List Message) : Prop :=
  workingInput < estimateMessages messages

instance (workingInput : ℤ) (messages : List Message) :
    Decidable (OverBudget workingInput messages) :=
  inferInstanceAs (Decidable (workingInput < (estimateMessages messages : ℤ)))

/-- How many tokens the messages are over the budget. -/
def excess (workingInput : ℤ) (messages : List Message) : ℕ :=
  (estimateMessages messages - workingInput).toNat

structure Trimming where
  selected : List Message
  dropped : ℕ
deriving DecidableEq, Repr

/-- A round of the loop that removes the oldest messages. -/
def trim (workingInput : ℤ) (s : Trimming) : Trimming ⊕ Trimming :=
  if OverBudget workingInput s.selected ∧ 1 < s.selected.length then
    match oldestRemovableIndex s.selected with
    | none => .inr s
    | some index => .inl ⟨s.selected.eraseIdx index, s.dropped + 1⟩
  else .inr s

structure Compression where
  selected : List Message
  compressed : ℕ
  warnings : List String
deriving DecidableEq, Repr

/-- The first message that is neither a system message nor the last one, else the last
message if it is not a system message. -/
def truncationTarget (messages : List Message) : Option ℕ :=
  (oldestRemovableIndex messages).or
    ((messages.getLast?.filter fun m => !m.isSystem).map fun _ => messages.length - 1)

def truncatedMessage (excess : ℕ) (m : Message) : Message :=
  { m with content :=
      takeChars m.content (max 128 (m.content.length - excess * TokenEngine.charsPerToken)) ++
        truncationMarker }

/-- The one cut between the two loops. -/
def truncate (workingInput : ℤ) (selected : List Message) : Compression :=
  if OverBudget workingInput selected then
    match truncationTarget selected with
    | some target =>
        ⟨selected.modify target (truncatedMessage (excess workingInput selected)), 1,
          [compressedWarning]⟩
    | none => ⟨selected, 0, [systemWarning]⟩
  else ⟨selected, 0, []⟩

/-- The first of the longest messages that may be shortened. -/
def longestCandidate (messages : List Message) : Option ℕ :=
  ((messages.zipIdx.filter fun p => p.1.content ≠ "" ∧ !p.1.isSystem).argmax
    fun p => p.1.content.length).map Prod.snd

def removeChars (excess length : ℕ) : ℕ :=
  min (max (excess * TokenEngine.charsPerToken) 16) (max 1 (length - 1))

def shortened (excess : ℕ) (m : Message) : Message :=
  let remove := removeChars excess m.content.length
  { m with content :=
      if m.content.length ≤ remove + compressionMarker.length then ""
      else takeChars m.content (m.content.length - remove) ++ compressionMarker }

def addWarning (warnings : List String) (warning : String) : List String :=
  if warning ∈ warnings then warnings else warnings ++ [warning]

/-- A round of the loop that shortens the longest message. -/
def compress (workingInput : ℤ) (s : Compression) : Compression ⊕ Compression :=
  if OverBudget workingInput s.selected then
    match longestCandidate s.selected with
    | none => .inr { s with warnings := s.warnings ++ [systemWarning] }
    | some target =>
        .inl ⟨s.selected.modify target (shortened (excess workingInput s.selected)),
          s.compressed + 1, addWarning s.warnings compressedWarning⟩
  else .inr s

structure ContextAssembly where
  messages : List Message
  budget : ContextBudget
  estimatedInputTokens : ℕ
  breakdown : ContextBreakdown
  droppedMessages : ℕ
  compressedMessages : ℕ
  warnings : List String
deriving DecidableEq

/-- What is put together after the loops. -/
def assembly (budget : ContextBudget) (dropped : ℕ) (c : Compression) : ContextAssembly where
  messages := c.selected
  budget := budget
  estimatedInputTokens := estimateMessages c.selected
  breakdown := contextBreakdown c.selected
  droppedMessages := dropped
  compressedMessages := c.compressed
  warnings :=
    if OverBudget budget.workingInput c.selected then c.warnings ++ [overflowWarning]
    else c.warnings

/-- The two loops and the cut between them, each loop for at most `rounds` rounds. -/
def fit (budget : ContextBudget) (given : List Message) (rounds : ℕ) : Option ContextAssembly :=
  (While.run (trim budget.workingInput) rounds ⟨given, 0⟩).bind fun t =>
    (While.run (compress budget.workingInput) rounds
      (truncate budget.workingInput t.selected)).map (assembly budget t.dropped)

/-- The arguments of `ContextManager.assemble`. -/
structure AssembleCall where
  manager : ContextManager := {}
  messages : List RawMessage
  provider : Option String
  model : Option String
  requestedOutputTokens : Option ℤ := none
  contextOverride : Option ℤ := none

def AssembleCall.budget (c : AssembleCall) : Except FloatError ContextBudget :=
  c.manager.budgetFor c.provider c.model c.requestedOutputTokens c.contextOverride

/-- `none` if a loop is not done after `rounds` rounds. -/
def assemble (str : Json → String) (c : AssembleCall) (rounds : ℕ) :
    Option (Except FloatError ContextAssembly) :=
  match c.budget with
  | .error e => some (.error e)
  | .ok budget => (fit budget (normalized str c.messages) rounds).map .ok

/-- The call comes to an end, with a result or an error. -/
def Terminates (str : Json → String) (c : AssembleCall) : Prop :=
  ∃ rounds, (assemble str c rounds).isSome

def Returns (str : Json → String) (c : AssembleCall) (a : ContextAssembly) : Prop :=
  ∃ rounds, assemble str c rounds = some (.ok a)

end Zyntry
