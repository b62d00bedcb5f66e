import Zyntry.PythonRegex
import Zyntry.RuntimeUpdate

/-!
# The guardrail of action arguments

`validate_action_arguments` rejects arguments in which a text matches a suspicious pattern. It reads
the texts at the top level only.
-/

namespace Zyntry

open Python

/-! ## Patterns -/

/-- `.*` -/
def anyLine : Regex := .chars (· ≠ '\n') 0 none

def suspiciousPatterns : List Regex :=
  [.lit '.' ++ .lit '.' ++ .lit '/', .lit '.' ++ .lit '.' ++ .lit '\\',
   .lit '$' ++ .lit '(' ++ anyLine ++ .lit ')', .lit '`' ++ anyLine ++ .lit '`',
   .lit '|', .lit ';', .lit '&', .lit '$' ++ .lit '\x7b']

def suspicious (text : String) : Bool :=
  suspiciousPatterns.any fun pattern => pattern.search none text.toList

/-- `isinstance(value, str)` with a pattern that is found. -/
def suspiciousValue : Json → Bool
  | .str text => suspicious text
  | _ => false

/-- `validate_action_arguments`. -/
def validateActionArguments (_provider _action : String) : Fields → Bool × Option String
  | [] => (true, none)
  | (key, value) :: arguments =>
      if suspiciousValue value then
        (false, some ("Suspicious characters in argument '" ++ key ++ "'"))
      else validateActionArguments _provider _action arguments

/-! ## Texts within values -/

section

variable (withKeys : Bool)

mutual
/-- The texts anywhere in a value, with the keys of its dictionaries or without. -/
def stringsIn : Json → List String
  | .str text => [text]
  | .arr items => itemStrings items
  | .obj fields => fieldStrings fields
  | .null => []
  | .bool _ => []
  | .int _ => []
  | .float _ => []

def itemStrings : List Json → List String
  | [] => []
  | value :: items => stringsIn value ++ itemStrings items

def fieldStrings : Fields → List String
  | [] => []
  | (key, value) :: fields =>
      (if withKeys then [key] else []) ++ stringsIn value ++ fieldStrings fields
end

end

/-- The texts of an argument that are not at the top level. -/
def nestedStrings (withKeys : Bool) : String × Json → List String
  | (key, .str _) => if withKeys then [key] else []
  | (key, value) => (if withKeys then [key] else []) ++ stringsIn withKeys value

variable {arguments : Fields} {withKeys : Bool}

theorem validateActionArguments_fst (provider action : String) (arguments : Fields) :
    (validateActionArguments provider action arguments).1 = true ↔
      ∀ argument ∈ arguments, suspiciousValue argument.2 = false := by
  induction arguments with
  | nil => simp [validateActionArguments]
  | cons argument arguments ih =>
      obtain ⟨key, value⟩ := argument
      rw [validateActionArguments, List.forall_mem_cons]
      split_ifs with hvalue
      · simp [hvalue]
      · rw [ih]
        simp [hvalue]

/-- The texts of the arguments are those at the top level and those within. -/
theorem forall_fieldStrings (arguments : Fields) :
    (∀ s ∈ fieldStrings withKeys arguments, suspicious s = false) ↔
      ∀ argument ∈ arguments, suspiciousValue argument.2 = false ∧
        ∀ s ∈ nestedStrings withKeys argument, suspicious s = false := by
  induction arguments with
  | nil => simp [fieldStrings]
  | cons argument arguments ih =>
      obtain ⟨key, value⟩ := argument
      rw [fieldStrings, List.forall_mem_append, ih, List.forall_mem_cons]
      refine and_congr_left fun _ => ?_
      cases value with
      | str text =>
          rw [List.forall_mem_append, stringsIn, List.forall_mem_singleton, and_comm]
          rfl
      | _ =>
          rw [nestedStrings]
          · exact (and_iff_right rfl).symm
          · rintro text ⟨⟩

/-- Accepted arguments have no suspicious text exactly if none is within an argument, or one is at
the top level, where the arguments are rejected. -/
theorem validateActionArguments_covers_iff (withKeys : Bool) (provider action : String)
    (arguments : Fields) :
    ((validateActionArguments provider action arguments).1 = true →
      ∀ s ∈ stringsIn withKeys (.obj arguments), suspicious s = false) ↔
    (∃ argument ∈ arguments, suspiciousValue argument.2 = true) ∨
      ∀ argument ∈ arguments, ∀ s ∈ nestedStrings withKeys argument, suspicious s = false := by
  rw [validateActionArguments_fst, stringsIn, forall_fieldStrings]
  constructor
  · intro h
    by_cases htop : ∃ argument ∈ arguments, suspiciousValue argument.2 = true
    · exact .inl htop
    · have hnone : ∀ argument ∈ arguments, suspiciousValue argument.2 = false := fun a ha => by
        simpa using fun htrue => htop ⟨a, ha, htrue⟩
      exact .inr fun argument hargument => (h hnone argument hargument).2
  · rintro (⟨argument, hargument, htrue⟩ | hnested) hnone
    · rw [hnone argument hargument] at htrue
      cases htrue
    · exact fun argument hargument => ⟨hnone argument hargument, hnested argument hargument⟩

/-- A list in the arguments is not read. -/
theorem nested_argument_accepted :
    (validateActionArguments "github" "create_issue"
      [("labels", .arr [.str "a; rm -rf ../x"])]).1 = true ∧
    ∃ s ∈ stringsIn false (.obj [("labels", .arr [.str "a; rm -rf ../x"])]),
      suspicious s = true := by
  refine ⟨rfl, "a; rm -rf ../x", ?_, by decide⟩
  simp [stringsIn, fieldStrings, itemStrings]

end Zyntry
