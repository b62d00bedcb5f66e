import Zyntry.PythonJson

/-!
# Equality of JSON values in Python

Numbers are equal across their types, so that `True`, `1` and `1.0` are one value, and a
dictionary's order does not count. A value that is no list and no dictionary is a key.
-/

namespace Python

/-- What a value that can be a key is equal to. -/
inductive JsonKey where
  | none
  | number (q : ℚ)
  | text (s : String)
deriving DecidableEq, Repr

namespace Json

/-- The key of a value that has a hash. -/
def key? : Json → Option JsonKey
  | .null => some .none
  | .bool b => some (.number (if b then 1 else 0))
  | .int n => some (.number n)
  | .float q => some (.number q)
  | .str s => some (.text s)
  | .arr _ => none
  | .obj _ => none

mutual
/-- `==`. -/
def equals : Json → Json → Bool
  | .arr items, .arr items' => equalItems items items'
  | .obj fields, .obj fields' => fields.length = fields'.length && equalFields fields fields'
  | .arr _, _ => false
  | .obj _, _ => false
  | v, w => v.key? = w.key?

def equalItems : List Json → List Json → Bool
  | [], [] => true
  | v :: items, w :: items' => equals v w && equalItems items items'
  | _, _ => false

def equalFields : List (String × Json) → List (String × Json) → Bool
  | [], _ => true
  | (k, v) :: fields, fields' =>
      (match lookup k fields' with
        | some w => equals v w
        | none => false) && equalFields fields fields'
end

@[simp] theorem equals_str {v : Json} {s : String} : v.equals (.str s) = true ↔ v = .str s := by
  cases v <;> simp [equals, key?]

end Json

end Python
