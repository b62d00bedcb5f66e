import Zyntry.PythonJson

/-!
# Response schemas of the onboarding

The schema of a reply is written once, in the dialect of one provider, and is converted for the
others. A reply fits the converted schema exactly if it fits the schema as written and has no key
that the schema does not declare.
-/

namespace Zyntry

open Python

/-! ## The two dialects -/

/-- A schema in the OpenAPI dialect, by the keys that are read from its dict. -/
inductive ResponseSchema where
  | mk (type : Option String) (nullable : Bool) (enum : Option (List String))
      (properties : List (String × ResponseSchema)) (required : List String)
      (items : Option ResponseSchema)

/-- The dicts that the conversion builds. The dict of an object has a list of `properties`, a list
of the names `required` and forbids `additionalProperties`. -/
inductive OpenAiSchema where
  | plain (type : String) (enum : Option (List String))
  | object (enum : Option (List String)) (properties : List (String × OpenAiSchema))
      (required : List String)
  | array (enum : Option (List String)) (items : OpenAiSchema)
  | anyOf (alternatives : List OpenAiSchema)

def typeMap : List (String × String) := [
  ("OBJECT", "object"), ("ARRAY", "array"), ("STRING", "string"), ("BOOLEAN", "boolean"),
  ("NUMBER", "number")]

mutual
/-- `_openai_json_schema`. -/
def openaiJsonSchema : ResponseSchema → OpenAiSchema
  | .mk type nullable enum properties required items =>
      let schemaType := type.getD "object"
      let result : OpenAiSchema :=
        if schemaType = "OBJECT" then .object enum (openaiProperties properties) required
        else if schemaType = "ARRAY" then .array enum (openaiItems items)
        else .plain ((typeMap.lookup schemaType).getD schemaType) enum
      if nullable then .anyOf [result, .plain "null" none] else result

def openaiProperties : List (String × ResponseSchema) → List (String × OpenAiSchema)
  | [] => []
  | (key, item) :: properties => (key, openaiJsonSchema item) :: openaiProperties properties

/-- A missing `items` is a schema of strings. -/
def openaiItems : Option ResponseSchema → OpenAiSchema
  | none => .plain "string" none
  | some item => openaiJsonSchema item
end

/-! ## What the schemas mean -/

def enumAdmits (enum : Option (List String)) (value : Json) : Prop :=
  ∀ names ∈ enum, ∃ name ∈ names, value = .str name

/-- The kind of a value, under the names of the OpenAPI dialect. -/
def kindAdmits : String → Json → Bool
  | "STRING", .str _ => true
  | "BOOLEAN", .bool _ => true
  | "NUMBER", .int _ => true
  | "NUMBER", .float _ => true
  | "ARRAY", .arr _ => true
  | "OBJECT", .obj _ => true
  | _, _ => false

/-- The type of a value, under the names of JSON Schema. -/
def typeAdmits : String → Json → Bool
  | "null", .null => true
  | "string", .str _ => true
  | "boolean", .bool _ => true
  | "number", .int _ => true
  | "number", .float _ => true
  | "integer", .int _ => true
  | "integer", .float q => q.den = 1
  | "array", .arr _ => true
  | "object", .obj _ => true
  | _, _ => false

/-- A value fits a schema as it is written. Other keys than the declared ones are allowed. -/
inductive ResponseSchema.Allows : ResponseSchema → Json → Prop where
  | null {type enum properties required items} :
      Allows (.mk type true enum properties required items) .null
  | value {type nullable enum properties required items} {v : Json}
      (ofKind : ∀ kind ∈ type, kindAdmits kind v = true)
      (ofEnum : enumAdmits enum v)
      (ofRequired : ∀ fields, v = .obj fields →
        ∀ name ∈ required, Json.lookup name fields ≠ none)
      (ofProperties : ∀ fields, v = .obj fields → ∀ property ∈ properties,
        ∀ w ∈ Json.lookup property.1 fields, Allows property.2 w)
      (ofItems : ∀ elements, v = .arr elements → ∀ item ∈ items,
        ∀ w ∈ elements, Allows item w) :
      Allows (.mk type nullable enum properties required items) v

/-- Every key of an object that a schema describes is declared by it. -/
inductive ResponseSchema.Declares : ResponseSchema → Json → Prop where
  | intro {type nullable enum properties required items} {v : Json}
      (ofKeys : ∀ fields, v = .obj fields →
        ∀ field ∈ fields, field.1 ∈ properties.map Prod.fst)
      (ofProperties : ∀ fields, v = .obj fields → ∀ property ∈ properties,
        ∀ w ∈ Json.lookup property.1 fields, Declares property.2 w)
      (ofItems : ∀ elements, v = .arr elements → ∀ item ∈ items,
        ∀ w ∈ elements, Declares item w) :
      Declares (.mk type nullable enum properties required items) v

/-- A value fits a converted schema. -/
inductive OpenAiSchema.Accepts : OpenAiSchema → Json → Prop where
  | plain {type enum} {v : Json} (ofType : typeAdmits type v = true) (ofEnum : enumAdmits enum v) :
      Accepts (.plain type enum) v
  | object {enum properties required} {fields : List (String × Json)}
      (ofEnum : enumAdmits enum (.obj fields))
      (ofRequired : ∀ name ∈ required, Json.lookup name fields ≠ none)
      (ofKeys : ∀ field ∈ fields, field.1 ∈ properties.map Prod.fst)
      (ofProperties : ∀ property ∈ properties,
        ∀ w ∈ Json.lookup property.1 fields, Accepts property.2 w) :
      Accepts (.object enum properties required) (.obj fields)
  | array {enum item} {elements : List Json} (ofEnum : enumAdmits enum (.arr elements))
      (ofItems : ∀ w ∈ elements, Accepts item w) :
      Accepts (.array enum item) (.arr elements)
  | anyOf {alternatives alternative v} (mem : alternative ∈ alternatives)
      (accepts : Accepts alternative v) :
      Accepts (.anyOf alternatives) v

/-! ## The schemas that are converted faithfully -/

mutual
/-- Every type is one that the conversion knows, and arrays say what they hold. -/
def ResponseSchema.covered : ResponseSchema → Bool
  | .mk type _ _ properties _ items =>
      type.any (fun kind => (typeMap.lookup kind).isSome && (kind ≠ "ARRAY" || items.isSome)) &&
        coveredProperties properties && coveredItems items

def coveredProperties : List (String × ResponseSchema) → Bool
  | [] => true
  | (_, item) :: properties => item.covered && coveredProperties properties

def coveredItems : Option ResponseSchema → Bool
  | none => true
  | some item => item.covered
end

mutual
theorem ResponseSchema.induction {P : ResponseSchema → Prop}
    (step : ∀ type nullable enum properties required items,
      (∀ property ∈ properties, P property.2) → (∀ item ∈ items, P item) →
        P (.mk type nullable enum properties required items)) : ∀ schema, P schema
  | .mk type nullable enum properties required items =>
      step type nullable enum properties required items
        (ResponseSchema.induction_properties step properties)
        (ResponseSchema.induction_items step items)

theorem ResponseSchema.induction_properties {P : ResponseSchema → Prop}
    (step : ∀ type nullable enum properties required items,
      (∀ property ∈ properties, P property.2) → (∀ item ∈ items, P item) →
        P (.mk type nullable enum properties required items)) :
    ∀ properties : List (String × ResponseSchema), ∀ property ∈ properties, P property.2
  | [], _, h => absurd h List.not_mem_nil
  | (_, item) :: properties, property, h => by
      rcases List.mem_cons.mp h with rfl | h
      · exact ResponseSchema.induction step item
      · exact ResponseSchema.induction_properties step properties property h

theorem ResponseSchema.induction_items {P : ResponseSchema → Prop}
    (step : ∀ type nullable enum properties required items,
      (∀ property ∈ properties, P property.2) → (∀ item ∈ items, P item) →
        P (.mk type nullable enum properties required items)) :
    ∀ items : Option ResponseSchema, ∀ item ∈ items, P item
  | none, _, h => nomatch h
  | some item, item', h => by
      obtain rfl : item = item' := Option.some.inj h
      exact ResponseSchema.induction step item
end

theorem openaiProperties_eq_map (properties : List (String × ResponseSchema)) :
    openaiProperties properties =
      properties.map fun property => (property.1, openaiJsonSchema property.2) := by
  induction properties with
  | nil => rfl
  | cons property properties ih => rw [openaiProperties, ih, List.map_cons]

theorem coveredProperties_eq_true {properties : List (String × ResponseSchema)} :
    coveredProperties properties = true ↔
      ∀ property ∈ properties, property.2.covered = true := by
  induction properties with
  | nil => simp [coveredProperties]
  | cons property properties ih => simp [coveredProperties, ih]

theorem coveredItems_eq_true {items : Option ResponseSchema} :
    coveredItems items = true ↔ ∀ item ∈ items, item.covered = true := by
  cases items <;> simp [coveredItems]

section Meaning

variable {type : Option String} {nullable : Bool} {enum : Option (List String)}
  {properties : List (String × ResponseSchema)} {required : List String}
  {items : Option ResponseSchema} {v : Json}

/-- What holds of a value that fits a schema and is not a null in its place. -/
structure FitsValue (type : Option String) (enum : Option (List String))
    (properties : List (String × ResponseSchema)) (required : List String)
    (items : Option ResponseSchema) (v : Json) : Prop where
  ofKind : ∀ kind ∈ type, kindAdmits kind v = true
  ofEnum : enumAdmits enum v
  ofRequired : ∀ fields, v = .obj fields → ∀ name ∈ required, Json.lookup name fields ≠ none
  ofKeys : ∀ fields, v = .obj fields → ∀ field ∈ fields, field.1 ∈ properties.map Prod.fst
  ofProperties : ∀ fields, v = .obj fields → ∀ property ∈ properties,
    ∀ w ∈ Json.lookup property.1 fields, property.2.Allows w ∧ property.2.Declares w
  ofItems : ∀ elements, v = .arr elements → ∀ item ∈ items,
    ∀ w ∈ elements, item.Allows w ∧ item.Declares w

theorem allows_and_declares_iff :
    (ResponseSchema.mk type nullable enum properties required items).Allows v ∧
        (ResponseSchema.mk type nullable enum properties required items).Declares v ↔
      nullable = true ∧ v = .null ∨ FitsValue type enum properties required items v := by
  constructor
  · rintro ⟨hallows, hdeclares⟩
    cases hdeclares with
    | intro ofKeys hproperties hitems =>
        cases hallows with
        | null => exact Or.inl ⟨rfl, rfl⟩
        | value ofKind ofEnum ofRequired ofProperties ofItems =>
            refine Or.inr ⟨ofKind, ofEnum, ofRequired, ofKeys, ?_, ?_⟩
            · intro fields hv property hmem w hw
              exact ⟨ofProperties fields hv property hmem w hw,
                hproperties fields hv property hmem w hw⟩
            · intro elements hv item hmem w hw
              exact ⟨ofItems elements hv item hmem w hw, hitems elements hv item hmem w hw⟩
  · rintro (⟨rfl, rfl⟩ | h)
    · exact ⟨.null, .intro nofun nofun nofun⟩
    · constructor
      · exact .value h.ofKind h.ofEnum h.ofRequired
          (fun fields hv property hmem w hw => (h.ofProperties fields hv property hmem w hw).1)
          (fun elements hv item hmem w hw => (h.ofItems elements hv item hmem w hw).1)
      · exact .intro h.ofKeys
          (fun fields hv property hmem w hw => (h.ofProperties fields hv property hmem w hw).2)
          (fun elements hv item hmem w hw => (h.ofItems elements hv item hmem w hw).2)

/-! ## The conversion keeps the meaning -/

/-- A schema whose conversion has its meaning. -/
def Converts (schema : ResponseSchema) : Prop :=
  ∀ v, (openaiJsonSchema schema).Accepts v ↔ schema.Allows v ∧ schema.Declares v

theorem accepts_object_iff (ih : ∀ property ∈ properties, Converts property.2) :
    (OpenAiSchema.object enum (openaiProperties properties) required).Accepts v ↔
      FitsValue (some "OBJECT") enum properties required items v := by
  rw [openaiProperties_eq_map]
  constructor
  · intro h
    cases h with
    | @object _ _ _ fields ofEnum ofRequired ofKeys ofProperties =>
        refine ⟨?_, ofEnum, ?_, ?_, ?_, nofun⟩
        · rintro kind ⟨rfl⟩
          rfl
        · rintro _ ⟨rfl⟩
          exact ofRequired
        · rintro _ ⟨rfl⟩ field hfield
          simpa using ofKeys field hfield
        · rintro _ ⟨rfl⟩ property hmem w hw
          exact (ih property hmem w).mp
            (ofProperties _ (List.mem_map_of_mem hmem) w hw)
  · intro h
    cases v with
    | obj fields =>
        refine .object h.ofEnum (h.ofRequired fields rfl) ?_ ?_
        · intro field hfield
          simpa using h.ofKeys fields rfl field hfield
        · intro property hmem w hw
          obtain ⟨property', hmem', rfl⟩ := List.mem_map.mp hmem
          exact (ih property' hmem' w).mpr (h.ofProperties fields rfl property' hmem' w hw)
    | _ => exact absurd (h.ofKind "OBJECT" rfl) (by simp [kindAdmits])

theorem accepts_array_iff {item : ResponseSchema} (ih : Converts item) :
    (OpenAiSchema.array enum (openaiJsonSchema item)).Accepts v ↔
      FitsValue (some "ARRAY") enum properties required (some item) v := by
  constructor
  · intro h
    cases h with
    | @array _ _ elements ofEnum ofItems =>
        refine ⟨?_, ofEnum, nofun, nofun, nofun, ?_⟩
        · rintro kind ⟨rfl⟩
          rfl
        · rintro _ ⟨rfl⟩ _ ⟨rfl⟩ w hw
          exact (ih w).mp (ofItems w hw)
  · intro h
    cases v with
    | arr elements =>
        exact .array h.ofEnum fun w hw => (ih w).mpr (h.ofItems elements rfl item rfl w hw)
    | _ => exact absurd (h.ofKind "ARRAY" rfl) (by simp [kindAdmits])

/-- The kinds of values that are neither objects nor arrays. -/
def plainKinds : List String := ["STRING", "BOOLEAN", "NUMBER"]

theorem typeAdmits_of_plain {kind : String} (h : kind ∈ plainKinds) (v : Json) :
    typeAdmits ((typeMap.lookup kind).getD kind) v = kindAdmits kind v := by
  simp only [plainKinds, List.mem_cons, List.not_mem_nil, or_false] at h
  rcases h with rfl | rfl | rfl <;> cases v <;> rfl

theorem not_kindAdmits_of_plain {kind : String} (h : kind ∈ plainKinds) :
    (∀ fields, kindAdmits kind (.obj fields) = false) ∧
      ∀ elements, kindAdmits kind (.arr elements) = false := by
  simp only [plainKinds, List.mem_cons, List.not_mem_nil, or_false] at h
  rcases h with rfl | rfl | rfl <;> exact ⟨fun _ => rfl, fun _ => rfl⟩

theorem accepts_plain_iff {kind : String} (h : kind ∈ plainKinds) :
    (OpenAiSchema.plain ((typeMap.lookup kind).getD kind) enum).Accepts v ↔
      FitsValue (some kind) enum properties required items v := by
  obtain ⟨hobj, harr⟩ := not_kindAdmits_of_plain h
  constructor
  · intro haccepts
    cases haccepts with
    | plain ofType ofEnum =>
        rw [typeAdmits_of_plain h] at ofType
        have hne : ∀ fields, v ≠ .obj fields := by
          rintro fields rfl
          exact absurd ofType (by simp [hobj])
        have hne' : ∀ elements, v ≠ .arr elements := by
          rintro elements rfl
          exact absurd ofType (by simp [harr])
        refine ⟨?_, ofEnum, fun fields hv => absurd hv (hne fields),
          fun fields hv => absurd hv (hne fields), fun fields hv => absurd hv (hne fields),
          fun elements hv => absurd hv (hne' elements)⟩
        rintro _ ⟨rfl⟩
        exact ofType
  · intro hfits
    exact .plain ((typeAdmits_of_plain h v).trans (hfits.ofKind kind rfl)) hfits.ofEnum

/-- A null comes in beside the converted schema. -/
theorem accepts_nullable_iff {result : OpenAiSchema} :
    (if nullable then .anyOf [result, .plain "null" none] else result : OpenAiSchema).Accepts v ↔
      nullable = true ∧ v = .null ∨ result.Accepts v := by
  cases nullable with
  | false => simp
  | true =>
      simp only [if_true, true_and]
      constructor
      · intro h
        cases h with
        | anyOf mem accepts =>
            simp only [List.mem_cons, List.not_mem_nil, or_false] at mem
            rcases mem with rfl | rfl
            · exact Or.inr accepts
            · cases accepts with
              | plain ofType ofEnum => cases v <;> simp [typeAdmits] at ofType ⊢
      · rintro (rfl | h)
        · exact .anyOf (List.mem_cons_of_mem _ List.mem_cons_self) (.plain rfl nofun)
        · exact .anyOf List.mem_cons_self h

end Meaning

theorem kind_of_covered {kind : String} (h : (typeMap.lookup kind).isSome = true) :
    kind = "OBJECT" ∨ kind = "ARRAY" ∨ kind ∈ plainKinds := by
  by_contra hnot
  simp only [plainKinds, List.mem_cons, List.not_mem_nil, or_false, not_or] at hnot
  have hnone : typeMap.lookup kind = none := by
    rw [List.lookup_eq_none_iff]
    simpa [typeMap] using hnot
  rw [hnone] at h
  cases h

theorem converts_of_covered (schema : ResponseSchema) (h : schema.covered = true) :
    Converts schema := by
  revert h
  induction schema using ResponseSchema.induction with
  | step type nullable enum properties required items ihProperties ihItems =>
      intro h v
      simp only [ResponseSchema.covered, Bool.and_eq_true, coveredProperties_eq_true,
        coveredItems_eq_true, Option.any_eq_true] at h
      obtain ⟨⟨⟨kind, rfl, hkind, harray⟩, hproperties⟩, hitems⟩ := h
      rw [allows_and_declares_iff, openaiJsonSchema, accepts_nullable_iff]
      refine or_congr_right ?_
      rcases kind_of_covered hkind with rfl | rfl | hplain
      · simpa using accepts_object_iff fun property hmem =>
          ihProperties property hmem (hproperties property hmem)
      · cases items with
        | none => simp at harray
        | some item =>
            simpa [openaiItems] using accepts_array_iff (ihItems item rfl (hitems item rfl))
      · have hne : kind ≠ "OBJECT" ∧ kind ≠ "ARRAY" := by
          constructor <;> rintro rfl <;> simp [plainKinds] at hplain
        simpa [hne.1, hne.2] using accepts_plain_iff hplain

/-- Beyond the schema as it is written, the converted schema forbids undeclared keys. -/
theorem openaiJsonSchema_accepts_iff (schema : ResponseSchema) (h : schema.covered = true)
    (v : Json) :
    (openaiJsonSchema schema).Accepts v ↔ schema.Allows v ∧ schema.Declares v :=
  converts_of_covered schema h v

/-! ## The reply of the onboarding -/

/-- `_string`; an empty `enum` is not written. -/
def stringSchema (nullable : Bool) (enum : List String) : ResponseSchema :=
  .mk (some "STRING") nullable (if enum = [] then none else some enum) [] [] none

def booleanSchema (nullable : Bool) : ResponseSchema :=
  .mk (some "BOOLEAN") nullable none [] [] none

def numberSchema : ResponseSchema := .mk (some "NUMBER") false none [] [] none

def arraySchema (items : ResponseSchema) : ResponseSchema :=
  .mk (some "ARRAY") false none [] [] (some items)

def objectSchema (properties : List (String × ResponseSchema)) (required : List String) :
    ResponseSchema :=
  .mk (some "OBJECT") false none properties required none

/-- `_string_array`. -/
def stringArray : ResponseSchema := arraySchema (stringSchema false [])

def ownershipNames : List String := ["company", "end_user", "hybrid"]

def integrationRequirementSchema : ResponseSchema :=
  objectSchema
    [("slug", stringSchema false []), ("purpose", stringSchema false []),
      ("ownership", stringSchema true ownershipNames), ("capabilities", stringArray),
      ("write_access", booleanSchema false), ("required", booleanSchema false)]
    ["slug", "purpose", "capabilities", "write_access", "required"]

def integrationDecisionSchema : ResponseSchema :=
  objectSchema
    [("slug", stringSchema false []),
      ("decision", stringSchema false
        ["direct", "host_managed", "excluded", "unsupported", "unclear"]),
      ("reason", stringSchema false [])]
    ["slug", "decision", "reason"]

def requirementsProperties : List (String × ResponseSchema) := [
  ("schema_version", stringSchema false ["1.0"]),
  ("application_type", stringSchema true []),
  ("primary_function", stringSchema true []),
  ("target_users", stringArray),
  ("inputs", stringArray),
  ("outputs", stringArray),
  ("requires_ai", booleanSchema false),
  ("requires_documents", booleanSchema true),
  ("document_formats", stringArray),
  ("requires_external_data", booleanSchema true),
  ("external_source_types", stringArray),
  ("requires_tools", booleanSchema true),
  ("requires_memory", booleanSchema true),
  ("memory_scope", stringSchema true ["request", "session", "user", "organization"]),
  ("connection_ownership", stringSchema true ownershipNames),
  ("integrations", arraySchema integrationRequirementSchema),
  ("integration_decisions", arraySchema integrationDecisionSchema),
  ("requested_actions", stringArray),
  ("constraints", stringArray),
  ("data_sensitivity", stringSchema true ["public", "internal", "confidential", "regulated"]),
  ("expected_scale", stringSchema true ["prototype", "small", "medium", "large", "enterprise"]),
  ("assumptions", stringArray),
  ("confidence", numberSchema)]

/-- All properties are required. -/
def requirementsSchema : ResponseSchema :=
  objectSchema requirementsProperties (requirementsProperties.map Prod.fst)

def proposedIntents : List String := [
  "set_use_case", "set_use_case_and_mode", "set_application_type",
  "set_application_type_and_integrations", "select_integrations", "quick_bootstrap",
  "clarify_requirements", "requirements_ready", "confirm_configuration", "execute_provisioning",
  "modify_settings"]

/-- The proposed data are an object of which no property is written down. -/
def onboardingResponseSchema : ResponseSchema :=
  objectSchema
    [("text", stringSchema false []), ("proposed_intent", stringSchema false proposedIntents),
      ("proposed_data", objectSchema [] []), ("suggested_actions", stringArray),
      ("application_requirements", requirementsSchema)]
    ["text", "proposed_intent", "proposed_data", "suggested_actions", "application_requirements"]

def onboardingResponseJsonSchema : OpenAiSchema := openaiJsonSchema onboardingResponseSchema

theorem onboardingResponseSchema_covered : onboardingResponseSchema.covered = true := by
  decide +kernel

theorem openaiJsonSchema_accepts_iff_onboarding :
    onboardingResponseJsonSchema.Accepts .null ↔
      onboardingResponseSchema.Allows .null ∧ onboardingResponseSchema.Declares .null :=
  openaiJsonSchema_accepts_iff onboardingResponseSchema (by decide +kernel) .null

/-! ## Replies -/

theorem allows_string {nullable : Bool} {enum : List String} {text : String}
    (h : enum = [] ∨ text ∈ enum) : (stringSchema nullable enum).Allows (.str text) := by
  refine .value ?_ ?_ nofun nofun nofun
  · rintro _ ⟨rfl⟩
    rfl
  · intro names hnames
    split_ifs at hnames with hnil
    · cases hnames
    · obtain rfl : enum = names := Option.some.inj hnames
      exact ⟨text, h.resolve_left hnil, rfl⟩

theorem allows_boolean (nullable b : Bool) : (booleanSchema nullable).Allows (.bool b) := by
  refine .value ?_ nofun nofun nofun nofun
  rintro _ ⟨rfl⟩
  rfl

theorem allows_number (n : ℤ) : numberSchema.Allows (.int n) := by
  refine .value ?_ nofun nofun nofun nofun
  rintro _ ⟨rfl⟩
  rfl

theorem allows_emptyArray (items : ResponseSchema) : (arraySchema items).Allows (.arr []) := by
  refine .value ?_ nofun nofun nofun ?_
  · rintro _ ⟨rfl⟩
    rfl
  · rintro _ ⟨rfl⟩ item - w hw
    exact absurd hw List.not_mem_nil

theorem allows_object {properties : List (String × ResponseSchema)} {required : List String}
    {fields : List (String × Json)} (hrequired : ∀ name ∈ required, Json.lookup name fields ≠ none)
    (hproperties : ∀ property ∈ properties,
      ∀ w ∈ Json.lookup property.1 fields, property.2.Allows w) :
    (objectSchema properties required).Allows (.obj fields) := by
  refine .value ?_ nofun ?_ ?_ nofun
  · rintro _ ⟨rfl⟩
    rfl
  · rintro _ ⟨rfl⟩
    exact hrequired
  · rintro _ ⟨rfl⟩
    exact hproperties

/-- Nothing is undeclared in a value without keys. -/
theorem declares_leaf (schema : ResponseSchema) {v : Json}
    (hobj : ∀ fields, v = .obj fields → False)
    (harr : ∀ elements, v = .arr elements → elements = []) : schema.Declares v := by
  cases schema with
  | mk type nullable enum properties required items =>
      refine .intro (fun fields hv => (hobj fields hv).elim)
        (fun fields hv => (hobj fields hv).elim) ?_
      intro elements hv item _ w hw
      rw [harr elements hv] at hw
      exact absurd hw List.not_mem_nil

theorem declares_object {properties : List (String × ResponseSchema)} {required : List String}
    {fields : List (String × Json)} (hkeys : ∀ field ∈ fields, field.1 ∈ properties.map Prod.fst)
    (hproperties : ∀ property ∈ properties,
      ∀ w ∈ Json.lookup property.1 fields, property.2.Declares w) :
    (objectSchema properties required).Declares (.obj fields) := by
  refine .intro ?_ ?_ nofun
  · rintro _ ⟨rfl⟩
    exact hkeys
  · rintro _ ⟨rfl⟩
    exact hproperties

/-- Requirements in which nothing is known. -/
def unknownRequirements : List (String × Json) := [
  ("schema_version", .str "1.0"), ("application_type", .null), ("primary_function", .null),
  ("target_users", .arr []), ("inputs", .arr []), ("outputs", .arr []),
  ("requires_ai", .bool true), ("requires_documents", .null), ("document_formats", .arr []),
  ("requires_external_data", .null), ("external_source_types", .arr []),
  ("requires_tools", .null), ("requires_memory", .null), ("memory_scope", .null),
  ("connection_ownership", .null), ("integrations", .arr []),
  ("integration_decisions", .arr []), ("requested_actions", .arr []), ("constraints", .arr []),
  ("data_sensitivity", .null), ("expected_scale", .null), ("assumptions", .arr []),
  ("confidence", .int 0)]

/-- A reply that proposes some data. -/
def proposingReply (data : List (String × Json)) : List (String × Json) := [
  ("text", .str ""), ("proposed_intent", .str "set_use_case"), ("proposed_data", .obj data),
  ("suggested_actions", .arr []), ("application_requirements", .obj unknownRequirements)]

theorem unknownRequirements_fits {property : String × ResponseSchema} {w : Json}
    (hmem : property ∈ requirementsProperties)
    (hw : w ∈ Json.lookup property.1 unknownRequirements) :
    property.2.Allows w ∧ property.2.Declares w := by
  simp only [requirementsProperties, List.mem_cons, List.not_mem_nil, or_false] at hmem
  -- every property is looked up
  rcases hmem with rfl | rfl | rfl | rfl | rfl | rfl | rfl | rfl | rfl | rfl | rfl | rfl | rfl |
    rfl | rfl | rfl | rfl | rfl | rfl | rfl | rfl | rfl | rfl <;> cases hw <;>
    refine ⟨?_, declares_leaf _ (by simp) (by simp)⟩ <;>
  first
  | exact .null
  | exact allows_emptyArray _
  | exact allows_boolean _ _
  | exact allows_number _
  | exact allows_string (by simp)

theorem allows_proposingReply (data : List (String × Json)) :
    onboardingResponseSchema.Allows (.obj (proposingReply data)) := by
  apply allows_object
  · intro name hname
    simp only [List.mem_cons, List.not_mem_nil, or_false] at hname
    rcases hname with rfl | rfl | rfl | rfl | rfl <;> exact Option.some_ne_none _
  · intro property hmem w hw
    simp only [List.mem_cons, List.not_mem_nil, or_false] at hmem
    rcases hmem with rfl | rfl | rfl | rfl | rfl <;> cases hw
    · exact allows_string (Or.inl rfl)
    · exact allows_string (Or.inr (by simp [proposedIntents]))
    · exact allows_object (by simp) (by simp)
    · exact allows_emptyArray _
    · exact allows_object (by decide +kernel) fun property hmem w hw =>
        (unknownRequirements_fits hmem hw).1

theorem declares_proposingReply :
    onboardingResponseSchema.Declares (.obj (proposingReply [])) := by
  apply declares_object
  · simp [proposingReply]
  · intro property hmem w hw
    simp only [List.mem_cons, List.not_mem_nil, or_false] at hmem
    rcases hmem with rfl | rfl | rfl | rfl | rfl <;> cases hw
    · exact declares_leaf _ (by simp) (by simp)
    · exact declares_leaf _ (by simp) (by simp)
    · exact declares_object (by simp) (by simp)
    · exact declares_leaf _ (by simp) (by simp)
    · exact declares_object (by decide +kernel) fun property hmem w hw =>
        (unknownRequirements_fits hmem hw).2

/-- The schema as it is written allows any proposal. The converted one accepts replies, but none
that proposes something. -/
theorem onboardingReply_proposes_nothing :
    (∀ data, ∃ fields, onboardingResponseSchema.Allows (.obj fields) ∧
      Json.lookup "proposed_data" fields = some (.obj data)) ∧
    (∃ fields, onboardingResponseJsonSchema.Accepts (.obj fields)) ∧
    ∀ fields, onboardingResponseJsonSchema.Accepts (.obj fields) →
      Json.lookup "proposed_data" fields = some (.obj []) := by
  have hiff := converts_of_covered onboardingResponseSchema onboardingResponseSchema_covered
  refine ⟨fun data => ⟨proposingReply data, allows_proposingReply data, rfl⟩,
    ⟨proposingReply [], (hiff _).mpr ⟨allows_proposingReply [], declares_proposingReply⟩⟩, ?_⟩
  intro fields haccepts
  obtain ⟨hallows, hdeclares⟩ := (hiff _).mp haccepts
  obtain ⟨hnull, -⟩ | hfits := allows_and_declares_iff.mp ⟨hallows, hdeclares⟩
  · cases hnull
  · have hsome := hfits.ofRequired fields rfl "proposed_data" (by simp)
    obtain ⟨w, hw⟩ := Option.ne_none_iff_exists'.mp hsome
    have hdata := hfits.ofProperties fields rfl ("proposed_data", objectSchema [] []) (by simp) w hw
    obtain ⟨hnull, -⟩ | hempty := allows_and_declares_iff.mp hdata
    · cases hnull
    · cases w with
      | obj entries =>
          have hnil : entries = [] := List.eq_nil_iff_forall_not_mem.mpr fun field hfield => by
            simpa using hempty.ofKeys entries rfl field hfield
          rw [hw, hnil]
      | _ => exact absurd (hempty.ofKind "OBJECT" rfl) (by simp [kindAdmits])

end Zyntry
