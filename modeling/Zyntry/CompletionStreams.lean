import Zyntry.JsonDecoder

/-!
# Streams of completions

The lines of a response are read frame by frame. A frame that cannot be read is skipped, if what
it raises is in the list of the `except` clause: a value without `get` raises `AttributeError`,
which is not.
-/

namespace Zyntry

open Python

variable {F : Type}

inductive FrameError where
  | valueError
  | keyError
  | indexError
  | typeError
  | attributeError
  | recursionError
deriving DecidableEq

/-- The `except` clause of the loop. -/
def FrameError.skipped : FrameError → Bool
  | valueError | keyError | indexError | typeError => true
  | attributeError | recursionError => false

def loadFrameError : LoadError → FrameError
  | .jsonDecodeError _ _ | .valueError => .valueError
  | .recursionError => .recursionError

/-- The surroundings of a stream: the built-in functions on floats and on values that are no text,
how deeply the decoder can nest, and whether usage is asked for. -/
structure StreamReading (F : Type) where
  floats : FloatReading F
  floatTruthy : F → Bool
  str : JsonValue F → List ℕ
  depth : ℕ
  onUsage : Bool

inductive StreamEvent (F : Type) where
  | usage (fields : List (List ℕ × JsonValue F))
  | content (text : List ℕ)

def codes (s : String) : List ℕ := s.toList.map Char.toNat

/-- `value.get(key, default)`. -/
def getKey (value : JsonValue F) (key : String) (default : JsonValue F) :
    Except FrameError (JsonValue F) :=
  match value with
  | .obj fields => .ok ((fields.lookup (codes key)).getD default)
  | _ => .error .attributeError

/-- `value[0]`. The keys of an object are texts. -/
def firstItem : JsonValue F → Except FrameError (JsonValue F)
  | .arr (item :: _) => .ok item
  | .str (code :: _) => .ok (.str [code])
  | .arr [] | .str [] => .error .indexError
  | .obj _ => .error .keyError
  | .null | .bool _ | .int _ | .float _ => .error .typeError

/-- `emit_usage`. -/
def emitUsage (onUsage : Bool) : JsonValue F → List (StreamEvent F)
  | .obj (field :: fields) => if onUsage then [.usage (field :: fields)] else []
  | _ => []

namespace StreamReading

variable (reading : StreamReading F)

/-- `bool(value)`. -/
def truthy : JsonValue F → Bool
  | .null => false
  | .bool b => b
  | .int n => n ≠ 0
  | .float x => reading.floatTruthy x
  | .str text => text ≠ []
  | .arr items => !items.isEmpty
  | .obj fields => !fields.isEmpty

/-- `str(value)`. -/
def textOf : JsonValue F → List ℕ
  | .str text => text
  | value => reading.str value

def deltaOf (data : JsonValue F) : Except FrameError (JsonValue F) := do
  let choices ← getKey data "choices" .null
  if reading.truthy choices then
    let choice ← firstItem choices
    getKey choice "delta" (.obj [])
  else
    return .obj []

def contentEvents (data : JsonValue F) : Except FrameError (List (StreamEvent F)) := do
  let delta ← reading.deltaOf data
  let content ← getKey delta "content" .null
  return if reading.truthy content then [.content (reading.textOf content)] else []

/-- The body of `try`: what is handed on, and what is raised after that. -/
def readFrame (payload : List Char) : List (StreamEvent F) × Option FrameError :=
  match loads reading.floats reading.depth payload with
  | .error e => ([], some (loadFrameError e))
  | .ok data =>
      match getKey data "usage" .null with
      | .error e => ([], some e)
      | .ok usage =>
          match reading.contentEvents data with
          | .error e => (emitUsage reading.onUsage usage, some e)
          | .ok content => (emitUsage reading.onUsage usage ++ content, none)

end StreamReading

/-- The payload of a line that has one. -/
def payloadOf (line : List Char) : Option (List Char) :=
  if ['d', 'a', 't', 'a', ':', ' '].isPrefixOf line then some (strip (line.drop 6)) else none

def doneMark : List Char := ['[', 'D', 'O', 'N', 'E', ']']

/-- `stream_openai_compatible`, on the lines of the response. -/
def streamLines (reading : StreamReading F) :
    List (List Char) → List (StreamEvent F) × Option FrameError
  | [] => ([], none)
  | line :: lines =>
      match payloadOf line with
      | none => streamLines reading lines
      | some payload =>
          if payload = doneMark then ([], none)
          else
            let frame := reading.readFrame payload
            let rest := streamLines reading lines
            match frame.2 with
            | none => (frame.1 ++ rest.1, rest.2)
            | some e => if e.skipped then (frame.1 ++ rest.1, rest.2) else (frame.1, some e)

/-! ## What a stream says -/

/-- The frames before the last one. -/
def frames (lines : List (List Char)) : List (List Char) :=
  (lines.filterMap payloadOf).takeWhile (· ≠ doneMark)

/-- `data["choices"][0]["delta"]["content"]`, where that is a text that is not empty. -/
def contentOf (data : JsonValue F) : List (List ℕ) :=
  match data with
  | .obj fields =>
      match fields.lookup (codes "choices") with
      | some (.arr (.obj choice :: _)) =>
          match choice.lookup (codes "delta") with
          | some (.obj delta) =>
              match delta.lookup (codes "content") with
              | some (.str (code :: text)) => [code :: text]
              | _ => []
          | _ => []
      | _ => []
  | _ => []

/-- `data["usage"]`, where that is an object that is not empty. -/
def usageOf (data : JsonValue F) : List (List (List ℕ × JsonValue F)) :=
  match data with
  | .obj fields =>
      match fields.lookup (codes "usage") with
      | some (.obj (field :: usage)) => [field :: usage]
      | _ => []
  | _ => []

namespace StreamReading

variable (reading : StreamReading F)

def frameContent (payload : List Char) : List (List ℕ) :=
  match loads reading.floats reading.depth payload with
  | .ok data => contentOf data
  | .error _ => []

def frameUsage (payload : List Char) : List (List (List ℕ × JsonValue F)) :=
  match loads reading.floats reading.depth payload with
  | .ok data => if reading.onUsage then usageOf data else []
  | .error _ => []

end StreamReading

def contentsOf (events : List (StreamEvent F)) : List (List ℕ) :=
  events.filterMap fun event =>
    match event with
    | .content text => some text
    | _ => none

def usagesOf (events : List (StreamEvent F)) : List (List (List ℕ × JsonValue F)) :=
  events.filterMap fun event =>
    match event with
    | .usage fields => some fields
    | _ => none

/-- The texts and the usage of the frames are handed on, in order, and nothing is raised. -/
structure DecodesStream (reading : StreamReading F) (lines : List (List Char)) : Prop where
  contents : contentsOf (streamLines reading lines).1 =
    (frames lines).flatMap reading.frameContent
  usages : usagesOf (streamLines reading lines).1 = (frames lines).flatMap reading.frameUsage
  total : (streamLines reading lines).2 = none

namespace StreamReading

variable (reading : StreamReading F)

/-- The content is missing, empty or a text. -/
def ContentReadable : Option (JsonValue F) → Prop
  | none | some (.str _) => True
  | some content => reading.truthy content = false

/-- The first choice is an object whose delta, if it has one, is an object with such a content. -/
def ChoiceReadable : JsonValue F → Prop
  | .obj choice =>
      match choice.lookup (codes "delta") with
      | none => True
      | some (.obj delta) => reading.ContentReadable (delta.lookup (codes "content"))
      | some _ => False
  | _ => False

/-- The choices are a list that begins with such a choice, or what counts as none, or a value for
which `[0]` raises an error that is skipped. -/
def ChoicesReadable : Option (JsonValue F) → Prop
  | some (.arr (choice :: _)) => reading.ChoiceReadable choice
  | some (.str (_ :: _)) => False
  | _ => True

def DataReadable : JsonValue F → Prop
  | .obj fields => reading.ChoicesReadable (fields.lookup (codes "choices"))
  | _ => False

/-- The payload is malformed, or an object with readable choices. -/
def FrameReadable (payload : List Char) : Prop :=
  match loads reading.floats reading.depth payload with
  | .error e => e ≠ .recursionError
  | .ok data => reading.DataReadable data

/-! ## One frame -/

/-- The texts are handed on, or there are none and the error is skipped. -/
def Delivers (contents : List (List ℕ)) : Except FrameError (List (StreamEvent F)) → Prop
  | .ok events => events = contents.map .content
  | .error e => e.skipped = true ∧ contents = []

/-- Something else is handed on than the texts, or the error is not skipped. -/
def Exceeds (contents : List (List ℕ)) : Except FrameError (List (StreamEvent F)) → Prop
  | .ok events => ∃ text, events = [.content text] ∧ contents = []
  | .error e => e.skipped = false

variable {reading}

theorem contentEvents_of_choice {fields choice : List (List ℕ × JsonValue F)}
    {rest : List (JsonValue F)}
    (h : fields.lookup (codes "choices") = some (.arr (.obj choice :: rest))) :
    reading.contentEvents (.obj fields) = (do
      let delta ← getKey (.obj choice) "delta" (.obj [])
      let content ← getKey delta "content" .null
      return if reading.truthy content then [.content (reading.textOf content)] else []) := by
  simp only [contentEvents, deltaOf, getKey, h, firstItem, truthy, bind, Except.bind,
    Option.getD_some, List.isEmpty_cons, Bool.not_false, if_true]

theorem contentEvents_of_none {fields : List (List ℕ × JsonValue F)}
    (h : fields.lookup (codes "choices") = none) :
    reading.contentEvents (.obj fields) = .ok [] := by
  simp [contentEvents, deltaOf, getKey, h, bind, Except.bind, pure, Except.pure, truthy]

/-- Choices without a first item count as none, or the error is skipped. -/
theorem delivers_of_firstItem_error {fields : List (List ℕ × JsonValue F)} {choices : JsonValue F}
    {e : FrameError} (hchoices : fields.lookup (codes "choices") = some choices)
    (hfirst : firstItem choices = .error e) (he : e.skipped = true) :
    Delivers [] (reading.contentEvents (.obj fields)) := by
  simp only [contentEvents, deltaOf, getKey, hchoices, hfirst, bind, Except.bind, pure,
    Except.pure, Option.getD_some]
  cases reading.truthy choices with
  | true => exact ⟨he, rfl⟩
  | false => simp [Delivers, truthy]

theorem contentEvents_of_content {fields choice delta : List (List ℕ × JsonValue F)}
    {rest : List (JsonValue F)}
    (hchoices : fields.lookup (codes "choices") = some (.arr (.obj choice :: rest)))
    (hdelta : choice.lookup (codes "delta") = some (.obj delta)) :
    (reading.DataReadable (.obj fields) ∧
        Delivers (contentOf (.obj fields)) (reading.contentEvents (.obj fields))) ∨
      (¬reading.DataReadable (.obj fields) ∧
        Exceeds (contentOf (.obj fields)) (reading.contentEvents (.obj fields))) := by
  rw [contentEvents_of_choice hchoices]
  simp only [DataReadable, ChoicesReadable, ChoiceReadable, contentOf, getKey, hchoices, hdelta,
    bind, Except.bind, Option.getD_some]
  cases hcontent : delta.lookup (codes "content") with
  | none => simp [ContentReadable, Delivers, truthy, pure, Except.pure]
  | some content =>
      cases htruthy : reading.truthy content with
      | false =>
          left
          cases content with
          | str text =>
              cases text with
              | nil => simp [ContentReadable, Delivers, htruthy, pure, Except.pure]
              | cons code text => simp [truthy] at htruthy
          | _ => simp [ContentReadable, Delivers, htruthy, pure, Except.pure]
      | true =>
          cases content with
          | str text =>
              left
              cases text with
              | nil => simp [truthy] at htruthy
              | cons code text =>
                  simp [ContentReadable, Delivers, htruthy, textOf, pure, Except.pure]
          | _ => simp [ContentReadable, Exceeds, htruthy, pure, Except.pure]

/-- A value is readable if and only if its texts are handed on. -/
theorem contentEvents_cases (data : JsonValue F) :
    (reading.DataReadable data ∧ Delivers (contentOf data) (reading.contentEvents data)) ∨
      (¬reading.DataReadable data ∧ Exceeds (contentOf data) (reading.contentEvents data)) := by
  cases data with
  | obj fields =>
      simp only [DataReadable, contentOf]
      cases hchoices : fields.lookup (codes "choices") with
      | none =>
          rw [contentEvents_of_none hchoices]
          simp [ChoicesReadable, Delivers]
      | some choices =>
          cases choices with
          | arr items =>
              cases items with
              | nil => exact .inl ⟨trivial, delivers_of_firstItem_error hchoices rfl rfl⟩
              | cons choice rest =>
                  cases choice with
                  | obj choice =>
                      cases hdelta : choice.lookup (codes "delta") with
                      | none =>
                          rw [contentEvents_of_choice hchoices]
                          simp [ChoicesReadable, ChoiceReadable, hdelta, Delivers, getKey, bind,
                            Except.bind, pure, Except.pure, truthy]
                      | some delta =>
                          cases delta with
                          | obj delta =>
                              have h := @contentEvents_of_content _ reading _ _ _ _ hchoices hdelta
                              simpa only [DataReadable, contentOf, hchoices, hdelta] using h
                          | _ =>
                              rw [contentEvents_of_choice hchoices]
                              simp [ChoicesReadable, ChoiceReadable, hdelta, Exceeds, getKey, bind,
                                Except.bind, FrameError.skipped]
                  | _ =>
                      simp [ChoicesReadable, ChoiceReadable, hchoices, Exceeds, contentEvents,
                        deltaOf, getKey, truthy, firstItem, bind, Except.bind, FrameError.skipped]
          | str text =>
              cases text with
              | nil => exact .inl ⟨trivial, delivers_of_firstItem_error hchoices rfl rfl⟩
              | cons code text =>
                  simp [ChoicesReadable, hchoices, Exceeds, contentEvents, deltaOf, getKey, truthy,
                    firstItem, bind, Except.bind, FrameError.skipped]
          | _ => exact .inl ⟨trivial, delivers_of_firstItem_error hchoices rfl rfl⟩
  | _ =>
      simp [DataReadable, Exceeds, contentEvents, deltaOf, getKey, bind, Except.bind,
        FrameError.skipped]

/-- The frame hands on its texts and its usage, and what it raises is skipped. -/
structure FrameDelivers (reading : StreamReading F) (payload : List Char) : Prop where
  skipped : ∀ e ∈ (reading.readFrame payload).2, e.skipped = true
  contents : contentsOf (reading.readFrame payload).1 = reading.frameContent payload
  usages : usagesOf (reading.readFrame payload).1 = reading.frameUsage payload

/-- The frame raises an error that is not skipped, or hands on a text that it does not have. -/
def FrameExceeds (reading : StreamReading F) (payload : List Char) : Prop :=
  (∃ e, (reading.readFrame payload).2 = some e ∧ e.skipped = false) ∨
    (reading.readFrame payload).2 = none ∧ reading.frameContent payload = [] ∧
      ∃ text, contentsOf (reading.readFrame payload).1 = [text]

theorem contentsOf_append (events events' : List (StreamEvent F)) :
    contentsOf (events ++ events') = contentsOf events ++ contentsOf events' :=
  List.filterMap_append

theorem usagesOf_append (events events' : List (StreamEvent F)) :
    usagesOf (events ++ events') = usagesOf events ++ usagesOf events' :=
  List.filterMap_append

theorem contentsOf_map_content (contents : List (List ℕ)) :
    contentsOf (contents.map (StreamEvent.content (F := F))) = contents := by
  simp [contentsOf, List.filterMap_map]

theorem usagesOf_map_content (contents : List (List ℕ)) :
    usagesOf (contents.map (StreamEvent.content (F := F))) = [] := by
  simp [usagesOf, List.filterMap_map]

theorem contentsOf_emitUsage (onUsage : Bool) (usage : JsonValue F) :
    contentsOf (emitUsage onUsage usage) = [] := by
  unfold emitUsage
  split
  · split_ifs <;> rfl
  · rfl

theorem usagesOf_emitUsage (onUsage : Bool) (fields : List (List ℕ × JsonValue F)) :
    usagesOf (emitUsage onUsage ((fields.lookup (codes "usage")).getD .null)) =
      if onUsage then usageOf (.obj fields) else [] := by
  cases husage : fields.lookup (codes "usage") with
  | none => simp [emitUsage, usagesOf, usageOf, husage]
  | some usage =>
      cases usage with
      | obj usage =>
          cases usage with
          | nil => simp [emitUsage, usagesOf, usageOf, husage]
          | cons field usage => cases onUsage <;> simp [emitUsage, usagesOf, usageOf, husage]
      | _ => simp [emitUsage, usagesOf, usageOf, husage]

theorem readFrame_of_obj {payload : List Char} {fields : List (List ℕ × JsonValue F)}
    (h : loads reading.floats reading.depth payload = .ok (.obj fields)) :
    reading.readFrame payload =
      match reading.contentEvents (.obj fields) with
      | .error e => (emitUsage reading.onUsage ((fields.lookup (codes "usage")).getD .null), some e)
      | .ok content =>
          (emitUsage reading.onUsage ((fields.lookup (codes "usage")).getD .null) ++ content,
            none) := by
  simp only [readFrame, h, getKey]

/-- A frame is readable if and only if it hands on what it says. -/
theorem readFrame_cases (payload : List Char) :
    (reading.FrameReadable payload ∧ FrameDelivers reading payload) ∨
      (¬reading.FrameReadable payload ∧ FrameExceeds reading payload) := by
  cases hload : loads reading.floats reading.depth payload with
  | error e =>
      cases e with
      | recursionError =>
          right
          simp [FrameReadable, FrameExceeds, readFrame, hload, loadFrameError, FrameError.skipped]
      | _ =>
          left
          refine ⟨by simp [FrameReadable, hload], ⟨?_, ?_, ?_⟩⟩
          · simp [readFrame, hload, loadFrameError, FrameError.skipped]
          · simp [readFrame, hload, frameContent, contentsOf]
          · simp [readFrame, hload, frameUsage, usagesOf]
  | ok data =>
      cases data with
      | obj fields =>
          have hframe := readFrame_of_obj hload
          obtain ⟨hreadable, h⟩ | ⟨hreadable, h⟩ := @contentEvents_cases _ reading (.obj fields)
          · refine .inl ⟨by simpa only [FrameReadable, hload] using hreadable, ?_⟩
            cases hevents : reading.contentEvents (.obj fields) with
            | error e =>
                rw [hevents] at h hframe
                obtain ⟨hskipped, hnone⟩ := h
                refine ⟨by simp [hframe, hskipped], ?_, ?_⟩
                · simp [hframe, contentsOf_emitUsage, frameContent, hload, hnone]
                · simp [hframe, usagesOf_emitUsage, frameUsage, hload]
            | ok events =>
                rw [hevents] at h hframe
                obtain rfl := h
                refine ⟨by simp [hframe], ?_, ?_⟩
                · simp [hframe, contentsOf_append, contentsOf_emitUsage, contentsOf_map_content,
                    frameContent, hload]
                · simp [hframe, usagesOf_append, usagesOf_emitUsage, usagesOf_map_content,
                    frameUsage, hload]
          · refine .inr ⟨by simpa only [FrameReadable, hload] using hreadable, ?_⟩
            cases hevents : reading.contentEvents (.obj fields) with
            | error e =>
                rw [hevents] at h hframe
                exact .inl ⟨e, by rw [hframe], h⟩
            | ok events =>
                rw [hevents] at h hframe
                obtain ⟨text, rfl, hnone⟩ := h
                refine .inr ⟨by rw [hframe], by simp [frameContent, hload, hnone], text, ?_⟩
                rw [hframe]
                simp only [contentsOf_append, contentsOf_emitUsage, List.nil_append]
                rfl
      | _ =>
          right
          simp [FrameReadable, hload, DataReadable, FrameExceeds, readFrame, getKey,
            FrameError.skipped]

/-! ## The whole stream -/

theorem frames_cons (line : List Char) (lines : List (List Char)) :
    frames (line :: lines) =
      match payloadOf line with
      | none => frames lines
      | some payload => if payload = doneMark then [] else payload :: frames lines := by
  unfold frames
  cases hpayload : payloadOf line with
  | none => rw [List.filterMap_cons_none hpayload]
  | some payload =>
      rw [List.filterMap_cons_some hpayload]
      by_cases hdone : payload = doneMark
      · simp [hdone]
      · simp [hdone]

/-- A frame of which nothing is raised is followed by the rest. -/
theorem streamLines_cons {line payload : List Char} (lines : List (List Char))
    (hpayload : payloadOf line = some payload) (hdone : payload ≠ doneMark)
    (h : ∀ e ∈ (reading.readFrame payload).2, e.skipped = true) :
    streamLines reading (line :: lines) =
      ((reading.readFrame payload).1 ++ (streamLines reading lines).1,
        (streamLines reading lines).2) := by
  simp only [streamLines, hpayload, hdone, if_false]
  cases hraised : (reading.readFrame payload).2 with
  | none => rfl
  | some e => simp [h e hraised]

/-- No text of a frame is missing from a stream that does not raise. -/
theorem length_contents_le {lines : List (List Char)} (h : (streamLines reading lines).2 = none) :
    ((frames lines).flatMap reading.frameContent).length ≤
      (contentsOf (streamLines reading lines).1).length := by
  induction lines with
  | nil => simp [frames]
  | cons line lines ih =>
      rw [frames_cons]
      cases hpayload : payloadOf line with
      | none =>
          simp only [streamLines, hpayload] at h ⊢
          exact ih h
      | some payload =>
          by_cases hdone : payload = doneMark
          · simp [hdone]
          simp only [hdone, if_false, List.flatMap_cons, List.length_append]
          obtain ⟨_, hframe⟩ | ⟨_, hframe⟩ := @readFrame_cases _ reading payload
          · rw [streamLines_cons lines hpayload hdone hframe.skipped] at h ⊢
            have hrest := ih h
            rw [contentsOf_append, List.length_append, hframe.contents]
            omega
          · obtain ⟨e, he, hskipped⟩ | ⟨hnone, hcontent, text, htext⟩ := hframe
            · simp [streamLines, hpayload, hdone, he, hskipped] at h
            · rw [streamLines_cons lines hpayload hdone (by simp [hnone])] at h ⊢
              have hrest := ih h
              rw [contentsOf_append, List.length_append, hcontent, htext]
              simp only [List.length_nil, List.length_singleton]
              omega

theorem decodesStream_cons {line payload : List Char} {lines : List (List Char)}
    (hpayload : payloadOf line = some payload) (hdone : payload ≠ doneMark)
    (h : FrameDelivers reading payload) :
    DecodesStream reading (line :: lines) ↔ DecodesStream reading lines := by
  have hstream := streamLines_cons lines hpayload hdone h.skipped
  have hframes : frames (line :: lines) = payload :: frames lines := by
    simp only [frames_cons, hpayload, hdone, if_false]
  constructor
  · intro hall
    have hcontents := hall.contents
    have husages := hall.usages
    have htotal := hall.total
    rw [hstream, hframes, List.flatMap_cons, contentsOf_append, h.contents] at hcontents
    rw [hstream, hframes, List.flatMap_cons, usagesOf_append, h.usages] at husages
    rw [hstream] at htotal
    exact ⟨List.append_cancel_left hcontents, List.append_cancel_left husages, htotal⟩
  · intro hrest
    refine ⟨?_, ?_, ?_⟩
    · rw [hstream, hframes, List.flatMap_cons, contentsOf_append, h.contents, hrest.contents]
    · rw [hstream, hframes, List.flatMap_cons, usagesOf_append, h.usages, hrest.usages]
    · rw [hstream, hrest.total]

/-- A text too many is not made up for later. -/
theorem not_decodesStream_cons {line payload : List Char} {lines : List (List Char)}
    (hpayload : payloadOf line = some payload) (hdone : payload ≠ doneMark)
    (h : FrameExceeds reading payload) : ¬DecodesStream reading (line :: lines) := by
  intro hall
  have htotal := hall.total
  obtain ⟨e, he, hskipped⟩ | ⟨hnone, hcontent, text, htext⟩ := h
  · simp [streamLines, hpayload, hdone, he, hskipped] at htotal
  · have hstream := streamLines_cons lines hpayload hdone
      (by simp [hnone] : ∀ e ∈ (reading.readFrame payload).2, e.skipped = true)
    have hframes : frames (line :: lines) = payload :: frames lines := by
      simp only [frames_cons, hpayload, hdone, if_false]
    rw [hstream] at htotal
    have hle := length_contents_le htotal
    have hcontents := congrArg List.length hall.contents
    rw [hstream, hframes, List.flatMap_cons, contentsOf_append, List.length_append,
      List.length_append, hcontent, htext] at hcontents
    simp only [List.length_nil, List.length_singleton] at hcontents
    omega

theorem decodesStream_of_frames_nil {lines : List (List Char)} (hframes : frames lines = [])
    (hstream : streamLines reading lines = ([], none)) : DecodesStream reading lines :=
  ⟨by rw [hstream, hframes]; rfl, by rw [hstream, hframes]; rfl, by rw [hstream]⟩

/-- A stream is decoded if and only if each of its frames can be read. -/
theorem decodesStream_iff (reading : StreamReading F) (lines : List (List Char)) :
    DecodesStream reading lines ↔ ∀ payload ∈ frames lines, reading.FrameReadable payload := by
  induction lines with
  | nil =>
      have h : DecodesStream reading [] := decodesStream_of_frames_nil rfl rfl
      simpa [frames] using h
  | cons line lines ih =>
      cases hpayload : payloadOf line with
      | none =>
          have hframes : frames (line :: lines) = frames lines := by
            simp only [frames_cons, hpayload]
          have hstream : streamLines reading (line :: lines) = streamLines reading lines := by
            simp only [streamLines, hpayload]
          rw [hframes, ← ih]
          constructor
          · intro h
            exact ⟨by rw [← hstream, ← hframes, h.contents], by rw [← hstream, ← hframes, h.usages],
              by rw [← hstream, h.total]⟩
          · intro h
            exact ⟨by rw [hstream, hframes, h.contents], by rw [hstream, hframes, h.usages],
              by rw [hstream, h.total]⟩
      | some payload =>
          by_cases hdone : payload = doneMark
          · have hframes : frames (line :: lines) = [] := by
              simp only [frames_cons, hpayload, hdone, if_true]
            have h : DecodesStream reading (line :: lines) :=
              decodesStream_of_frames_nil hframes
                (by simp only [streamLines, hpayload, hdone, if_true])
            simpa [hframes] using h
          · have hframes : frames (line :: lines) = payload :: frames lines := by
              simp only [frames_cons, hpayload, hdone, if_false]
            rw [hframes, List.forall_mem_cons, ← ih]
            obtain ⟨hreadable, hframe⟩ | ⟨hreadable, hframe⟩ := @readFrame_cases _ reading payload
            · rw [decodesStream_cons hpayload hdone hframe]
              simp only [hreadable, true_and]
            · have hnot : ¬DecodesStream reading (line :: lines) :=
                not_decodesStream_cons hpayload hdone hframe
              simp only [hnot, hreadable, false_and]

end StreamReading

/-- A delta that is `null`. -/
def nullDeltaLine : List Char :=
  "data: \x7b\"choices\":[\x7b\"delta\":null\x7d]\x7d".toList

/-- The list of the `except` clause has no `AttributeError`. -/
theorem streamLines_raises_at_nullDelta :
    ¬ ∀ (reading : StreamReading ℚ) (lines : List (List Char)), DecodesStream reading lines := by
  intro h
  have htotal := (h ⟨⟨fun _ => 0, 0, 0, 0⟩, (· ≠ 0), fun _ => [], 100, true⟩ [nullDeltaLine]).total
  revert htotal
  decide +kernel

end Zyntry
