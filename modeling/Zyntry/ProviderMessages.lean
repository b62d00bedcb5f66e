import Zyntry.ContextManager
import Mathlib.Data.List.Flatten

/-!
# Messages as the providers are sent them

Two of the providers take the system prompt apart from the other messages. The methods for the one
keep the last system message only, and those for the other have no place for system messages: they
are sent as if the model had said them.
-/

namespace Zyntry

/-! ## Contents within texts -/

/-- The contents can be cut out of the texts, one after the other. -/
def Carries (contents texts : List String) : Prop :=
  ∃ pieces : List (List String), pieces.map String.join = texts ∧
    contents.Sublist pieces.flatten

theorem carries_self (texts : List String) : Carries texts texts := by
  refine ⟨texts.map fun text => [text], ?_, ?_⟩
  · simp [Function.comp_def]
  · rw [← List.flatMap_def, List.flatMap_singleton']

theorem Carries.length_le {contents texts : List String} (h : Carries contents texts) :
    (contents.flatMap String.toList).length ≤ (texts.flatMap String.toList).length := by
  obtain ⟨pieces, rfl, hsub⟩ := h
  have htexts : (pieces.map String.join).flatMap String.toList =
      pieces.flatten.flatMap String.toList := by
    simp only [String.toList_join, List.flatMap_def, List.map_flatten,
      List.flatten_flatten, List.map_map, Function.comp_def]
  rw [htexts]
  exact (hsub.flatMap _).length_le

/-! ## The payloads -/

/-- What a method of a provider is called with, besides the key. -/
structure CompletionRequest where
  model : String
  messages : List Message
  maxTokens : ℤ := 2048
  temperature : ℚ := 7 / 10

structure AnthropicPayload where
  model : String
  maxTokens : ℤ
  temperature : ℚ
  messages : List Message
  system : Option String
  stream : Bool

structure GoogleContent where
  role : String
  parts : List String

structure GooglePayload where
  contents : List GoogleContent
  maxOutputTokens : ℤ
  temperature : ℚ

/-- One round of the loop over the messages: the system prompt and the messages kept so far. -/
def splitSystemStep (kept : String × List Message) (msg : Message) : String × List Message :=
  if msg.isSystem then (msg.content, kept.2) else (kept.1, kept.2 ++ [msg])

def splitSystem (messages : List Message) : String × List Message :=
  messages.foldl splitSystemStep ("", [])

/-- The field is left out for an empty prompt. -/
def promptField (systemPrompt : String) : Option String :=
  if systemPrompt = "" then none else some systemPrompt

def anthropicPayload (stream : Bool) (r : CompletionRequest) : AnthropicPayload where
  model := r.model
  maxTokens := r.maxTokens
  temperature := r.temperature
  messages := (splitSystem r.messages).2
  system := promptField (splitSystem r.messages).1
  stream := stream

def googlePayload (r : CompletionRequest) : GooglePayload where
  contents := r.messages.map fun msg =>
    ⟨if msg.role = "user" then "user" else "model", [msg.content]⟩
  maxOutputTokens := r.maxTokens
  temperature := r.temperature

namespace AnthropicProvider

def chatCompletion : CompletionRequest → AnthropicPayload := anthropicPayload false

def chatCompletionStream : CompletionRequest → AnthropicPayload := anthropicPayload true

end AnthropicProvider

namespace AnthropicLLMProvider

def generate : CompletionRequest → AnthropicPayload := anthropicPayload false

def astream : CompletionRequest → AnthropicPayload := anthropicPayload true

end AnthropicLLMProvider

namespace GoogleProvider

def chatCompletion : CompletionRequest → GooglePayload := googlePayload

def chatCompletionStream : CompletionRequest → GooglePayload := googlePayload

end GoogleProvider

/-! ## What a payload delivers -/

/-- The texts that a payload has at the place of the system prompt or under the system role, and
those of the other messages. -/
structure PayloadTexts where
  system : List String
  turns : List String

def AnthropicPayload.texts (p : AnthropicPayload) : PayloadTexts where
  system := p.system.toList ++ (p.messages.filter Message.isSystem).map Message.content
  turns := (p.messages.filter fun msg => !msg.isSystem).map Message.content

def GooglePayload.texts (p : GooglePayload) : PayloadTexts where
  system := (p.contents.filter fun c => c.role = "system").flatMap GoogleContent.parts
  turns := (p.contents.filter fun c => c.role ≠ "system").flatMap GoogleContent.parts

inductive AdapterMethod where
  | anthropicChatCompletion
  | anthropicChatCompletionStream
  | ragAnthropicGenerate
  | ragAnthropicAstream
  | googleChatCompletion
  | googleChatCompletionStream
deriving DecidableEq

def AdapterMethod.texts (r : CompletionRequest) : AdapterMethod → PayloadTexts
  | .anthropicChatCompletion => (AnthropicProvider.chatCompletion r).texts
  | .anthropicChatCompletionStream => (AnthropicProvider.chatCompletionStream r).texts
  | .ragAnthropicGenerate => (AnthropicLLMProvider.generate r).texts
  | .ragAnthropicAstream => (AnthropicLLMProvider.astream r).texts
  | .googleChatCompletion => (GoogleProvider.chatCompletion r).texts
  | .googleChatCompletionStream => (GoogleProvider.chatCompletionStream r).texts

def systemContents (messages : List Message) : List String :=
  (messages.filter Message.isSystem).map Message.content

/-- Every message is in the payload: the system contents in order at their place, where an empty
one has nothing to be delivered, and the others in order as messages of their own. -/
structure DeliversAll (messages : List Message) (texts : PayloadTexts) : Prop where
  system : Carries ((systemContents messages).filter (· ≠ "")) texts.system
  turns : ((messages.filter fun msg => !msg.isSystem).map Message.content).Sublist texts.turns

/-- The lists of messages that a method delivers. -/
def AdapterMethod.Suits (messages : List Message) : AdapterMethod → Prop
  | .googleChatCompletion | .googleChatCompletionStream =>
      ∀ content ∈ systemContents messages, content = ""
  | _ => ∀ content ∈ (systemContents messages).dropLast, content = ""

example : (AdapterMethod.texts ⟨"m", [⟨"system", "a"⟩, ⟨"user", "b"⟩, ⟨"system", "c"⟩], 1, 0⟩
    .ragAnthropicAstream).system = ["c"] := by
  decide +kernel

/-! ## The loop over the messages -/

theorem foldl_splitSystemStep (kept : String × List Message) (messages : List Message) :
    messages.foldl splitSystemStep kept = ((systemContents messages).getLastD kept.1,
      kept.2 ++ messages.filter fun msg => !msg.isSystem) := by
  induction messages generalizing kept with
  | nil => simp [systemContents]
  | cons msg messages ih =>
      rw [List.foldl_cons, ih]
      cases hsystem : msg.isSystem with
      | true =>
          simp only [splitSystemStep, systemContents, hsystem, if_true, List.filter_cons_of_pos,
            List.map_cons, List.getLastD_cons, Bool.not_true, Bool.false_eq_true,
            not_false_eq_true, List.filter_cons_of_neg]
      | false => simp [splitSystemStep, systemContents, hsystem]

theorem splitSystem_eq (messages : List Message) :
    splitSystem messages =
      ((systemContents messages).getLastD "", messages.filter fun msg => !msg.isSystem) := by
  rw [splitSystem, foldl_splitSystemStep, List.nil_append]

theorem anthropicPayload_texts (stream : Bool) (r : CompletionRequest) :
    (anthropicPayload stream r).texts =
      ⟨(promptField ((systemContents r.messages).getLastD "")).toList,
        (r.messages.filter fun msg => !msg.isSystem).map Message.content⟩ := by
  simp [AnthropicPayload.texts, anthropicPayload, splitSystem_eq, List.filter_filter]

theorem googlePayload_texts (r : CompletionRequest) :
    (googlePayload r).texts = ⟨[], r.messages.map Message.content⟩ := by
  have hrole : ∀ msg : Message, (if msg.role = "user" then "user" else "model") ≠ "system" := by
    intro msg
    split_ifs <;> decide
  simp [GooglePayload.texts, googlePayload, List.filter_map, Function.comp_def, hrole,
    List.flatMap_map, ← List.map_eq_flatMap]

/-! ## What each provider delivers -/

theorem eq_nil_of_carries_nil {contents : List String} (h : Carries contents []) :
    contents = [] := by
  obtain ⟨pieces, hpieces, hsub⟩ := h
  obtain rfl := List.map_eq_nil_iff.mp hpieces
  exact List.sublist_nil.mp hsub

theorem flatMap_filter_ne_empty (contents : List String) :
    (contents.filter (· ≠ "")).flatMap String.toList = contents.flatMap String.toList := by
  induction contents with
  | nil => rfl
  | cons content contents ih =>
      by_cases hempty : content = ""
      · subst hempty
        simpa using ih
      · simpa [hempty] using ih

/-- One text can carry a list of contents that ends with it only if the others are empty. -/
theorem carries_concat_iff (contents : List String) (last : String) :
    Carries ((contents ++ [last]).filter (· ≠ "")) (promptField last).toList ↔
      ∀ content ∈ contents, content = "" := by
  constructor
  · intro h content hcontent
    have hle := h.length_le
    have hlast : (promptField last).toList.flatMap String.toList = last.toList := by
      by_cases hempty : last = ""
      · simp [promptField, hempty]
      · simp [promptField, hempty]
    rw [flatMap_filter_ne_empty, hlast, List.flatMap_append, List.length_append] at hle
    have hzero : (contents.flatMap String.toList).length = 0 := by
      simp only [List.flatMap_singleton] at hle
      omega
    have hnil := List.flatMap_eq_nil_iff.mp (List.length_eq_zero_iff.mp hzero) content hcontent
    exact String.toList_eq_nil_iff.mp hnil
  · intro h
    have hnone : contents.filter (· ≠ "") = [] := by
      rw [List.filter_eq_nil_iff]
      intro content hcontent
      simpa using h content hcontent
    have hlast : [last].filter (· ≠ "") = (promptField last).toList := by
      by_cases hempty : last = ""
      · simp [promptField, hempty]
      · simp [promptField, hempty]
    rw [List.filter_append, hnone, List.nil_append, hlast]
    exact carries_self _

theorem deliversAll_anthropicPayload_iff (stream : Bool) (r : CompletionRequest) :
    DeliversAll r.messages (anthropicPayload stream r).texts ↔
      ∀ content ∈ (systemContents r.messages).dropLast, content = "" := by
  rw [anthropicPayload_texts]
  have hcarries : Carries ((systemContents r.messages).filter (· ≠ ""))
      (promptField ((systemContents r.messages).getLastD "")).toList ↔
        ∀ content ∈ (systemContents r.messages).dropLast, content = "" := by
    obtain hnil | ⟨contents, last, hconcat⟩ := (systemContents r.messages).eq_nil_or_concat
    · simpa [hnil, promptField] using carries_self []
    · rw [hconcat, List.concat_eq_append, List.getLastD_concat, List.dropLast_concat]
      exact carries_concat_iff contents last
  constructor
  · intro h
    exact hcarries.mp h.system
  · intro h
    exact ⟨hcarries.mpr h, List.Sublist.refl _⟩

theorem deliversAll_googlePayload_iff (r : CompletionRequest) :
    DeliversAll r.messages (googlePayload r).texts ↔
      ∀ content ∈ systemContents r.messages, content = "" := by
  rw [googlePayload_texts]
  constructor
  · intro h
    have hnil := eq_nil_of_carries_nil h.system
    rw [List.filter_eq_nil_iff] at hnil
    intro content hcontent
    simpa using hnil content hcontent
  · intro h
    constructor
    · have hnil : (systemContents r.messages).filter (· ≠ "") = [] := by
        rw [List.filter_eq_nil_iff]
        intro content hcontent
        simpa using h content hcontent
      rw [hnil]
      exact carries_self []
    · exact List.filter_sublist.map _

/-- The methods for Anthropic deliver lists in which only the last system message says something,
and those for Google lists in which none does. -/
theorem deliversAll_iff (method : AdapterMethod) (r : CompletionRequest) :
    DeliversAll r.messages (method.texts r) ↔ method.Suits r.messages := by
  cases method with
  | anthropicChatCompletion => exact deliversAll_anthropicPayload_iff false r
  | anthropicChatCompletionStream => exact deliversAll_anthropicPayload_iff true r
  | ragAnthropicGenerate => exact deliversAll_anthropicPayload_iff false r
  | ragAnthropicAstream => exact deliversAll_anthropicPayload_iff true r
  | googleChatCompletion => exact deliversAll_googlePayload_iff r
  | googleChatCompletionStream => exact deliversAll_googlePayload_iff r

/-- The instructions of the runtime are lost when the results of its tools follow. -/
theorem deliversAll_fails_at_toolResults :
    ¬ ∀ (method : AdapterMethod) (r : CompletionRequest),
      DeliversAll r.messages (method.texts r) := by
  intro h
  have hdelivers := h .anthropicChatCompletion
    ⟨"claude-3-5-sonnet-latest", [⟨"system", "Answer in French."⟩, ⟨"user", "Who?"⟩,
      ⟨"assistant", "I look it up."⟩, ⟨"system", "Verified read-only tool results:\n[]"⟩], 2048, 0⟩
  have hle := hdelivers.system.length_le
  exact absurd hle (by decide +kernel)

end Zyntry
