import Zyntry.CompletionStreams

/-!
# The guardrail for JSON answers

A schema is checked for objects only, one level deep and by the classes of Python. Against the
meaning of a schema, the check overlooks some values and refuses others; both kinds are described
here.
-/

namespace Zyntry

open Python

/-! ## Schemas -/

inductive SchemaType where
  | string
  | integer
  | number
  | boolean
  | array
  | object
deriving DecidableEq, Repr

def SchemaType.word : SchemaType → String
  | .string => "string"
  | .integer => "integer"
  | .number => "number"
  | .boolean => "boolean"
  | .array => "array"
  | .object => "object"

/-- A schema built from three keywords; a list that is not given is empty. -/
inductive JsonSchema where
  | mk (type : Option SchemaType) (required : List String)
      (properties : List (String × JsonSchema))

namespace JsonSchema

def type : JsonSchema → Option SchemaType
  | mk type _ _ => type

def required : JsonSchema → List String
  | mk _ required _ => required

def properties : JsonSchema → List (String × JsonSchema)
  | mk _ _ properties => properties

end JsonSchema

variable {F : Type}

/-- The values of a type; a number without a fraction is an integer. -/
def SchemaType.admits (isInteger : F → Bool) : SchemaType → JsonValue F → Bool
  | .string, .str _ => true
  | .integer, .int _ => true
  | .integer, .float x => isInteger x
  | .number, .int _ => true
  | .number, .float _ => true
  | .boolean, .bool _ => true
  | .array, .arr _ => true
  | .object, .obj _ => true
  | _, _ => false

/-- What a schema means: types hold everywhere, the other keywords of objects only. -/
inductive JsonSchema.Conforms (isInteger : F → Bool) : JsonSchema → JsonValue F → Prop where
  | intro {schema : JsonSchema} {value : JsonValue F}
      (ofType : ∀ type ∈ schema.type, type.admits isInteger value = true)
      (ofRequired : ∀ fields, value = .obj fields →
        ∀ name ∈ schema.required, fields.lookup (codes name) ≠ none)
      (ofProperties : ∀ fields, value = .obj fields → ∀ property ∈ schema.properties,
        ∀ v ∈ fields.lookup (codes property.1), Conforms isInteger property.2 v) :
      Conforms isInteger schema value

/-! ## The check -/

/-- The test with `isinstance` that belongs to a type. A boolean is an `int`, and the type of
booleans has no test. -/
def SchemaType.isInstance : SchemaType → JsonValue F → Bool
  | .string, .str _ => true
  | .integer, .int _ => true
  | .integer, .bool _ => true
  | .number, .int _ => true
  | .number, .float _ => true
  | .number, .bool _ => true
  | .boolean, _ => true
  | .array, .arr _ => true
  | .object, .obj _ => true
  | _, _ => false

def JsonSchema.passes (schema : JsonSchema) (value : JsonValue F) : Bool :=
  schema.type.all fun type => type.isInstance value

def fieldError (name : String) (schema : JsonSchema) (value : JsonValue F) : Option String :=
  schema.type.bind fun type =>
    if type.isInstance value then none
    else some ("Field " ++ name ++ " must be " ++ type.word)

/-- The loops over the required names and over the properties. -/
def checkObject (schema : JsonSchema) (fields : List (List ℕ × JsonValue F)) :
    Bool × Option String :=
  match schema.required.find? fun name => (fields.lookup (codes name)).isNone with
  | some name => (false, some ("Missing required field: " ++ name))
  | none =>
      match schema.properties.findSome? fun property =>
        (fields.lookup (codes property.1)).bind (fieldError property.1 property.2) with
      | some message => (false, some message)
      | none => (true, none)

/-- What is handed to the guardrail: a text, or a value. -/
inductive GuardedData (F : Type) where
  | text (data : String)
  | value (data : JsonValue F)

/-- `str(exc)` of a `JSONDecodeError`. -/
def decodeErrorText (data : List Char) (msg : DecodeMessage) (pos : ℕ) : String :=
  let before := data.take pos
  msg.text ++ ": line " ++ toString (before.count '\n' + 1) ++ " column " ++
    toString ((before.rtakeWhile (· ≠ '\n')).length + 1) ++ " (char " ++ toString pos ++ ")"

def checkParsed (schema : JsonSchema) : JsonValue F → Bool × Option String
  | .obj fields => checkObject schema fields
  | _ => (false, some "Expected object")

section Validation

variable (floats : FloatReading F) (depth : ℕ)

/-- `JSONSchemaGuardrail.validate`. A `ValueError` or `RecursionError` of the decoder is raised. -/
def JsonSchema.validate (schema : JsonSchema) :
    GuardedData F → Except LoadError (Bool × Option String)
  | .text data =>
      if schema.type = some .object then
        match loads floats depth data.toList with
        | .ok parsed => .ok (checkParsed schema parsed)
        | .error (.jsonDecodeError msg pos) =>
            .ok (false, some (decodeErrorText data.toList msg pos))
        | .error e => .error e
      else .ok (true, none)
  | .value data =>
      if schema.type = some .object then .ok (checkParsed schema data) else .ok (true, none)

def JsonSchema.Accepts (schema : JsonSchema) (text : String) : Prop :=
  schema.validate floats depth (.text text) = .ok (true, none)

/-- The text is a document whose value conforms. -/
def JsonSchema.Meets (isInteger : F → Bool) (schema : JsonSchema) (text : String) : Prop :=
  ∃ value, loads floats depth text.toList = .ok value ∧ schema.Conforms isInteger value

end Validation

/-! ## What is accepted -/

/-- Every required name is there. -/
def HasRequired (schema : JsonSchema) (fields : List (List ℕ × JsonValue F)) : Prop :=
  ∀ name ∈ schema.required, fields.lookup (codes name) ≠ none

/-- A property of the schema that the value has. -/
def HasProperty (schema : JsonSchema) (fields : List (List ℕ × JsonValue F)) (sub : JsonSchema)
    (v : JsonValue F) : Prop :=
  ∃ name, (name, sub) ∈ schema.properties ∧ fields.lookup (codes name) = some v

section Acceptance

variable {floats : FloatReading F} {depth : ℕ} {isInteger : F → Bool} {schema : JsonSchema}
  {fields : List (List ℕ × JsonValue F)} {text : String}

theorem fieldError_eq_none (name : String) (schema : JsonSchema) (value : JsonValue F) :
    fieldError name schema value = none ↔ schema.passes value = true := by
  unfold fieldError JsonSchema.passes
  cases schema.type with
  | none => simp
  | some type =>
      rw [Option.bind_some, Option.all_some]
      split_ifs with h <;> simp [h]

theorem checkObject_eq_iff : checkObject schema fields = (true, none) ↔
    HasRequired schema fields ∧ ∀ sub v, HasProperty schema fields sub v → sub.passes v = true := by
  have hrequired : (schema.required.find? fun name => (fields.lookup (codes name)).isNone) = none ↔
      HasRequired schema fields := by
    simp [List.find?_eq_none, HasRequired]
  have hproperties : (schema.properties.findSome? fun property =>
      (fields.lookup (codes property.1)).bind (fieldError property.1 property.2)) = none ↔
        ∀ sub v, HasProperty schema fields sub v → sub.passes v = true := by
    simp only [List.findSome?_eq_none_iff, Option.bind_eq_none_iff, fieldError_eq_none]
    constructor
    · rintro h sub v ⟨name, hmem, hv⟩
      exact h _ hmem v hv
    · intro h property hmem v hv
      exact h _ v ⟨property.1, hmem, hv⟩
  rw [← hrequired, ← hproperties]
  unfold checkObject
  split
  · next name hname => simp [hname]
  · next hnone =>
      split
      · next message hmessage => simp [hmessage]
      · next hpassed => simp [hnone, hpassed]

theorem accepts_iff_of_object (h : schema.type = some .object) :
    schema.Accepts floats depth text ↔
      ∃ fields, loads floats depth text.toList = .ok (.obj fields) ∧ HasRequired schema fields ∧
        ∀ sub v, HasProperty schema fields sub v → sub.passes v = true := by
  unfold JsonSchema.Accepts JsonSchema.validate
  dsimp only
  rw [if_pos h]
  cases hload : loads floats depth text.toList with
  | error e => cases e <;> simp
  | ok value =>
      cases value with
      | obj fields => simp [checkParsed, checkObject_eq_iff]
      | _ => simp [checkParsed]

theorem accepts_of_not_object (h : schema.type ≠ some .object) :
    schema.Accepts floats depth text := by
  unfold JsonSchema.Accepts JsonSchema.validate
  dsimp only
  rw [if_neg h]

/-! ## What conforms -/

theorem conforms_iff {value : JsonValue F} : schema.Conforms isInteger value ↔
    (∀ type ∈ schema.type, type.admits isInteger value = true) ∧
      ∀ fields, value = .obj fields → HasRequired schema fields ∧
        ∀ sub v, HasProperty schema fields sub v → sub.Conforms isInteger v := by
  constructor
  · rintro ⟨htype, hrequired, hproperties⟩
    refine ⟨htype, fun fields hfields => ⟨hrequired fields hfields, ?_⟩⟩
    rintro sub v ⟨name, hmem, hv⟩
    exact hproperties fields hfields _ hmem v hv
  · rintro ⟨htype, hfields⟩
    refine ⟨htype, fun fields h => (hfields fields h).1, fun fields h property hmem v hv => ?_⟩
    exact (hfields fields h).2 _ v ⟨property.1, hmem, hv⟩

theorem meets_iff_of_object (h : schema.type = some .object) :
    schema.Meets floats depth isInteger text ↔
      ∃ fields, loads floats depth text.toList = .ok (.obj fields) ∧ HasRequired schema fields ∧
        ∀ sub v, HasProperty schema fields sub v → sub.Conforms isInteger v := by
  constructor
  · rintro ⟨value, hload, hconforms⟩
    rw [conforms_iff, h] at hconforms
    cases value with
    | obj fields => exact ⟨fields, hload, hconforms.2 fields rfl⟩
    | _ => exact absurd (hconforms.1 .object rfl) Bool.false_ne_true
  · rintro ⟨fields, hload, hfields⟩
    refine ⟨_, hload, conforms_iff.mpr ⟨?_, ?_⟩⟩
    · rw [h]
      rintro _ ⟨⟩
      rfl
    · rintro _ ⟨⟩
      exact hfields

/-! ## Where the check and the schema differ -/

/-- The schema leaves objects to its other keywords. -/
def JsonSchema.AllowsObjects (schema : JsonSchema) : Prop :=
  schema.type = none ∨ schema.type = some .object

/-- A value that passes the test for its class although it does not conform. -/
inductive Overlooked (isInteger : F → Bool) : JsonSchema → JsonValue F → Prop where
  | boolean {schema : JsonSchema} {b : Bool}
      (h : schema.type = some .integer ∨ schema.type = some .number) :
      Overlooked isInteger schema (.bool b)
  | notBoolean {schema : JsonSchema} {v : JsonValue F} (h : schema.type = some .boolean)
      (hv : ∀ b, v ≠ .bool b) : Overlooked isInteger schema v
  | missing {schema : JsonSchema} {fields : List (List ℕ × JsonValue F)}
      (h : schema.AllowsObjects) (hrequired : ¬HasRequired schema fields) :
      Overlooked isInteger schema (.obj fields)
  | nested {schema sub : JsonSchema} {fields : List (List ℕ × JsonValue F)} {v : JsonValue F}
      (h : schema.AllowsObjects) (hproperty : HasProperty schema fields sub v)
      (hv : ¬sub.Conforms isInteger v) : Overlooked isInteger schema (.obj fields)

/-- A float without a fraction where the schema asks for an integer. -/
def WholeFloat (isInteger : F → Bool) (schema : JsonSchema) (value : JsonValue F) : Prop :=
  schema.type = some .integer ∧ ∃ x, value = .float x ∧ isInteger x = true

/-- On one value, the test and the type differ for booleans, the type of booleans and whole
floats. -/
theorem isInstance_and_not_admits_iff (type : SchemaType) (v : JsonValue F) :
    (type.isInstance v = true ∧ type.admits isInteger v = false) ↔
      (type = .integer ∨ type = .number) ∧ (∃ b, v = .bool b) ∨
        type = .boolean ∧ ∀ b, v ≠ .bool b := by
  cases type <;> cases v <;> simp [SchemaType.isInstance, SchemaType.admits]

theorem admits_and_not_isInstance_iff (type : SchemaType) (v : JsonValue F) :
    (type.admits isInteger v = true ∧ type.isInstance v = false) ↔
      type = .integer ∧ ∃ x, v = .float x ∧ isInteger x = true := by
  cases type <;> cases v <;> simp [SchemaType.isInstance, SchemaType.admits]

theorem passes_of_type {type : SchemaType} (h : schema.type = some type) (v : JsonValue F) :
    schema.passes v = type.isInstance v := by
  rw [JsonSchema.passes, h, Option.all_some]

theorem allowsObjects_of_admits {fields : List (List ℕ × JsonValue F)}
    (h : ∀ type ∈ schema.type, type.admits isInteger (.obj fields) = true) :
    schema.AllowsObjects := by
  unfold JsonSchema.AllowsObjects
  cases htype : schema.type with
  | none => exact .inl rfl
  | some type =>
      have hadmits := h type htype
      cases type with
      | object => exact .inr rfl
      | _ => cases hadmits

theorem JsonSchema.AllowsObjects.passes (h : schema.AllowsObjects)
    (fields : List (List ℕ × JsonValue F)) : schema.passes (.obj fields) = true := by
  rcases h with h | h
  · rw [JsonSchema.passes, h, Option.all_none]
  · rw [passes_of_type h]
    rfl

/-- What the check overlooks is what it lets pass and the schema does not mean. -/
theorem overlooked_iff {v : JsonValue F} : Overlooked isInteger schema v ↔
    schema.passes v = true ∧ ¬schema.Conforms isInteger v := by
  constructor
  · rintro (h | ⟨h, hv⟩ | ⟨h, hrequired⟩ | ⟨h, hproperty, hsub⟩)
    · rcases h with h | h
      · exact ⟨passes_of_type h _, fun hconforms =>
          Bool.false_ne_true ((conforms_iff.mp hconforms).1 _ h)⟩
      · exact ⟨passes_of_type h _, fun hconforms =>
          Bool.false_ne_true ((conforms_iff.mp hconforms).1 _ h)⟩
    · obtain ⟨hpassed, hrefused⟩ :=
        (@isInstance_and_not_admits_iff F isInteger .boolean v).mpr (.inr ⟨rfl, hv⟩)
      refine ⟨(passes_of_type h v).trans hpassed, fun hconforms => ?_⟩
      exact Bool.false_ne_true (hrefused.symm.trans ((conforms_iff.mp hconforms).1 _ h))
    · refine ⟨h.passes _, fun hconforms => hrequired ?_⟩
      exact ((conforms_iff.mp hconforms).2 _ rfl).1
    · refine ⟨h.passes _, fun hconforms => hsub ?_⟩
      exact ((conforms_iff.mp hconforms).2 _ rfl).2 _ _ hproperty
  · rintro ⟨hpassed, hv⟩
    rw [conforms_iff, not_and_or] at hv
    rcases em (∀ type ∈ schema.type, type.admits isInteger v = true) with hadmits | htype
    · obtain ⟨fields, hfields⟩ := not_forall.mp (hv.resolve_left fun h => h hadmits)
      obtain ⟨rfl, hbad⟩ := Classical.not_imp.mp hfields
      have hallows := allowsObjects_of_admits hadmits
      rcases not_and_or.mp hbad with hrequired | hproperties
      · exact .missing hallows hrequired
      · push Not at hproperties
        obtain ⟨sub, v, hproperty, hsub⟩ := hproperties
        exact .nested hallows hproperty hsub
    · push Not at htype
      obtain ⟨type, htype, hrefused⟩ := htype
      rw [passes_of_type htype] at hpassed
      rcases (isInstance_and_not_admits_iff type v).mp
        ⟨hpassed, Bool.eq_false_of_not_eq_true hrefused⟩ with ⟨rfl | rfl, b, rfl⟩ | ⟨rfl, hbool⟩
      · exact .boolean (.inl htype)
      · exact .boolean (.inr htype)
      · exact .notBoolean htype hbool

/-- What the check refuses although it conforms is a whole float. -/
theorem wholeFloat_iff {v : JsonValue F} : WholeFloat isInteger schema v ↔
    schema.Conforms isInteger v ∧ schema.passes v = false := by
  constructor
  · rintro ⟨htype, hfloat⟩
    obtain ⟨hadmits, hrefused⟩ := (admits_and_not_isInstance_iff .integer v).mpr ⟨rfl, hfloat⟩
    obtain ⟨x, rfl, -⟩ := hfloat
    rw [passes_of_type htype, conforms_iff, htype]
    refine ⟨⟨?_, nofun⟩, hrefused⟩
    rintro _ ⟨⟩
    exact hadmits
  · rintro ⟨hconforms, hrefused⟩
    cases htype : schema.type with
    | none => simp [JsonSchema.passes, htype] at hrefused
    | some type =>
        rw [passes_of_type htype] at hrefused
        obtain ⟨rfl, hfloat⟩ := (admits_and_not_isInstance_iff type v).mp
          ⟨(conforms_iff.mp hconforms).1 type htype, hrefused⟩
        exact ⟨htype, hfloat⟩

/-- Nothing is overlooked, unless another property is refused, and no whole float is refused,
unless another property is wrong. A schema of another type has to hold by itself. -/
structure JudgedRight (floats : FloatReading F) (depth : ℕ) (isInteger : F → Bool)
    (schema : JsonSchema) (text : String) : Prop where
  object : schema.type = some .object →
    ∀ fields, loads floats depth text.toList = .ok (.obj fields) → HasRequired schema fields →
      ((∀ sub v, HasProperty schema fields sub v → sub.passes v = true) →
        ∀ sub v, HasProperty schema fields sub v → ¬Overlooked isInteger sub v) ∧
      ((∀ sub v, HasProperty schema fields sub v → sub.Conforms isInteger v) →
        ∀ sub v, HasProperty schema fields sub v → ¬WholeFloat isInteger sub v)
  other : schema.type ≠ some .object → schema.Meets floats depth isInteger text

theorem judgedRight_of_not_object (h : schema.type ≠ some .object) :
    JudgedRight floats depth isInteger schema text ↔ schema.Meets floats depth isInteger text :=
  ⟨fun hjudged => hjudged.other h, fun hmeets => ⟨fun hobject => absurd hobject h, fun _ => hmeets⟩⟩

theorem accepts_iff_meets_of_object (h : schema.type = some .object)
    (hjudged : JudgedRight floats depth isInteger schema text) :
    schema.Accepts floats depth text ↔ schema.Meets floats depth isInteger text := by
  rw [accepts_iff_of_object h, meets_iff_of_object h]
  constructor
  · rintro ⟨fields, hload, hrequired, hpassed⟩
    have hseen := (hjudged.object h fields hload hrequired).1 hpassed
    refine ⟨fields, hload, hrequired, fun sub v hproperty => by_contra fun hwrong => ?_⟩
    exact hseen sub v hproperty (overlooked_iff.mpr ⟨hpassed sub v hproperty, hwrong⟩)
  · rintro ⟨fields, hload, hrequired, hconforms⟩
    have hwhole := (hjudged.object h fields hload hrequired).2 hconforms
    refine ⟨fields, hload, hrequired, fun sub v hproperty => by_contra fun hrefused => ?_⟩
    exact hwhole sub v hproperty (wholeFloat_iff.mpr
      ⟨hconforms sub v hproperty, Bool.eq_false_of_not_eq_true hrefused⟩)

theorem judgedRight_of_accepts_iff_meets (h : schema.type = some .object)
    (hsame : schema.Accepts floats depth text ↔ schema.Meets floats depth isInteger text) :
    JudgedRight floats depth isInteger schema text := by
  rw [accepts_iff_of_object h, meets_iff_of_object h] at hsame
  refine ⟨fun _ fields hload hrequired => ⟨?_, ?_⟩, fun hother => absurd h hother⟩
  · intro hpassed sub v hproperty hoverlooked
    obtain ⟨fields', hload', -, hconforms⟩ := hsame.mp ⟨fields, hload, hrequired, hpassed⟩
    cases hload.symm.trans hload'
    exact (overlooked_iff.mp hoverlooked).2 (hconforms sub v hproperty)
  · intro hconforms sub v hproperty hwhole
    obtain ⟨fields', hload', -, hpassed⟩ := hsame.mpr ⟨fields, hload, hrequired, hconforms⟩
    cases hload.symm.trans hload'
    exact Bool.false_ne_true
      ((wholeFloat_iff.mp hwhole).2.symm.trans (hpassed sub v hproperty))

/-- The guardrail accepts the texts that meet the schema, exactly where it judges right. -/
theorem validate_accepts_iff_meets_iff (floats : FloatReading F) (depth : ℕ)
    (isInteger : F → Bool) (schema : JsonSchema) (text : String) :
    (schema.Accepts floats depth text ↔ schema.Meets floats depth isInteger text) ↔
      JudgedRight floats depth isInteger schema text := by
  by_cases h : schema.type = some .object
  · exact ⟨judgedRight_of_accepts_iff_meets h, accepts_iff_meets_of_object h⟩
  · rw [judgedRight_of_not_object h]
    exact iff_true_left (accepts_of_not_object h)

end Acceptance

/-! ## A boolean for an integer -/

/-- A schema that asks for an integer. -/
def countSchema : JsonSchema := .mk (some .object) [] [("n", .mk (some .integer) [] [])]

/-- Floats that are not told apart. -/
def noFloats : FloatReading Unit := ⟨fun _ => (), (), (), ()⟩

def booleanCount : String := "\x7b\"n\":true\x7d"

def booleanFields : List (List ℕ × JsonValue Unit) := [(codes "n", .bool true)]

theorem loads_booleanCount :
    loads noFloats 1 booleanCount.toList = .ok (.obj booleanFields) := by
  have hchars : booleanCount.toList =
      ['\x7b', '"', 'n', '"', ':', 't', 'r', 'u', 'e', '\x7d'] := rfl
  have hfields : booleanFields = [([110], .bool true)] := rfl
  rw [hchars, hfields]
  simp [loads, skipJsonSpace, isJsonSpace, scanOnce, scanTerm, scanObject, scanPairs, scanKey,
    scanString, scanUnits, joinSurrogates, scanColon, scanScalar, scanConstant, jsonConstants,
    stripLiteral, scanDelimiter, dictOf, setField, Except.map, bind, Except.bind, pure,
    Except.pure]

theorem eq_of_hasProperty_booleanFields {sub : JsonSchema} {v : JsonValue Unit}
    (h : HasProperty countSchema booleanFields sub v) :
    sub = .mk (some .integer) [] [] ∧ v = .bool true := by
  obtain ⟨name, hmem, hv⟩ := h
  obtain ⟨rfl, rfl⟩ : name = "n" ∧ sub = .mk (some .integer) [] [] := by
    simpa [countSchema, JsonSchema.properties] using hmem
  exact ⟨rfl, (Option.some.inj hv).symm⟩

theorem countSchema_accepts_boolean :
    ¬(countSchema.Accepts noFloats 1 booleanCount ↔
      countSchema.Meets noFloats 1 (fun _ => true) booleanCount) := by
  rw [accepts_iff_of_object rfl, meets_iff_of_object rfl, loads_booleanCount]
  have haccepted : ∀ sub v, HasProperty countSchema booleanFields sub v → sub.passes v = true := by
    intro sub v h
    obtain ⟨rfl, rfl⟩ := eq_of_hasProperty_booleanFields h
    rfl
  intro hsame
  obtain ⟨fields, hload, -, hconforms⟩ := hsame.mp ⟨_, rfl, nofun, haccepted⟩
  cases hload
  exact Bool.false_ne_true
    ((conforms_iff.mp (hconforms _ (.bool true) ⟨"n", .head _, rfl⟩)).1 .integer rfl)

end Zyntry
