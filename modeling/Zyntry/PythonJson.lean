import Mathlib.Data.List.DropRight
import Mathlib.Data.Rat.Floor

/-!
# JSON values in Python

Values decoded from a JSON document, with the parts of Python that settings are
read by: truth values, `dict.get`, `int` and the search for a case-insensitive
pattern in a string. Decoded floats are finite, so they are given by their exact
values.
-/

namespace Python

inductive Json where
  | null
  | bool (b : Bool)
  | int (n : ℤ)
  | float (q : ℚ)
  | str (s : String)
  | arr (items : List Json)
  | obj (fields : List (String × Json))

namespace Json

/-- `bool(value)`. -/
def truthy : Json → Bool
  | .null => false
  | .bool b => b
  | .int n => n ≠ 0
  | .float q => q ≠ 0
  | .str s => s ≠ ""
  | .arr items => !items.isEmpty
  | .obj fields => !fields.isEmpty

def lookup (key : String) : List (String × Json) → Option Json
  | [] => none
  | (k, v) :: fields => if k = key then some v else lookup key fields

/-- `value.get(key)` of a dict; a stored `null` is distinguished from no value. -/
def get? (value : Json) (key : String) : Option Json :=
  match value with
  | .obj fields => lookup key fields
  | _ => none

end Json

/-! ## The built-in `int` -/

inductive IntError where
  | typeError
  | valueError
deriving DecidableEq, Repr

def isSpace (c : Char) : Bool :=
  let n := c.toNat
  (0x09 ≤ n ∧ n ≤ 0x0d) ∨ (0x1c ≤ n ∧ n ≤ 0x20) ∨ (0x2000 ≤ n ∧ n ≤ 0x200a) ∨
    n ∈ [0x85, 0xa0, 0x1680, 0x2028, 0x2029, 0x202f, 0x205f, 0x3000]

/-- The code points of the digits zero; each begins a block of ten decimal digits. -/
def decimalZeros : List ℕ :=
  [0x30, 0x660, 0x6f0, 0x7c0, 0x966, 0x9e6, 0xa66, 0xae6, 0xb66, 0xbe6, 0xc66, 0xce6, 0xd66, 0xde6,
   0xe50, 0xed0, 0xf20, 0x1040, 0x1090, 0x17e0, 0x1810, 0x1946, 0x19d0, 0x1a80, 0x1a90, 0x1b50,
   0x1bb0, 0x1c40, 0x1c50, 0xa620, 0xa8d0, 0xa900, 0xa9d0, 0xa9f0, 0xaa50, 0xabf0, 0xff10, 0x104a0,
   0x10d30, 0x11066, 0x110f0, 0x11136, 0x111d0, 0x112f0, 0x11450, 0x114d0, 0x11650, 0x116c0,
   0x11730, 0x118e0, 0x11950, 0x11c50, 0x11d50, 0x11da0, 0x11f50, 0x16a60, 0x16ac0, 0x16b50,
   0x1d7ce, 0x1d7d8, 0x1d7e2, 0x1d7ec, 0x1d7f6, 0x1e140, 0x1e2f0, 0x1e4f0, 0x1e950, 0x1fbf0]

def digitValue (c : Char) : Option ℕ :=
  (decimalZeros.find? (fun z => z ≤ c.toNat ∧ c.toNat < z + 10)).map (c.toNat - ·)

/-- Digits with single underscores between them, most significant first. -/
def digits : List Char → Option (List ℕ)
  | [] => none
  | [c] => (digitValue c).map (fun n => [n])
  | c :: '_' :: cs => do pure ((← digitValue c) :: (← digits cs))
  | c :: c' :: cs => do pure ((← digitValue c) :: (← digits (c' :: cs)))

theorem dropWhile_trim (p : Char → Bool) (cs : List Char) :
    ((cs.dropWhile p).rdropWhile p).dropWhile p = (cs.dropWhile p).rdropWhile p := by
  have hprefix : (cs.dropWhile p).rdropWhile p <+: cs.dropWhile p := List.rdropWhile_prefix _ _
  cases hs : (cs.dropWhile p).rdropWhile p with
  | nil => rfl
  | cons c rest =>
      obtain ⟨tail, htail⟩ := hs ▸ hprefix
      have hhead : (cs.dropWhile p).dropWhile p = cs.dropWhile p := List.dropWhile_idempotent _ _
      rw [← htail, List.cons_append] at hhead
      by_cases hc : p c = true
      · rw [List.dropWhile_cons_of_pos hc] at hhead
        have hlength := congrArg List.length hhead
        have hle := (List.dropWhile_suffix (l := rest ++ tail) p).length_le
        simp only [List.length_cons] at hlength
        omega
      · rw [List.dropWhile_cons_of_neg hc]

/-- Trimming twice is trimming once. -/
theorem trim_trim (p : Char → Bool) (cs : List Char) :
    (((cs.dropWhile p).rdropWhile p).dropWhile p).rdropWhile p =
      (cs.dropWhile p).rdropWhile p := by
  rw [dropWhile_trim]
  exact List.rdropWhile_idempotent _ _

theorem trim_sublist (p : Char → Bool) (cs : List Char) :
    ((cs.dropWhile p).rdropWhile p).Sublist cs :=
  (List.rdropWhile_prefix _ _).sublist.trans (List.dropWhile_sublist _)

def strip (cs : List Char) : List Char :=
  (cs.dropWhile isSpace).rdropWhile isSpace

theorem strip_strip (cs : List Char) : strip (strip cs) = strip cs := trim_trim isSpace cs

/-- `int(s)`; more than 4300 digits are refused. -/
def intOfString (s : String) : Except IntError ℤ :=
  let (sign, body) : ℤ × List Char :=
    match strip s.toList with
    | '-' :: cs => (-1, cs)
    | '+' :: cs => (1, cs)
    | cs => (1, cs)
  match digits body with
  | some ds =>
      if ds.length ≤ 4300 then .ok (sign * (ds.foldl (fun n d => 10 * n + d) 0 : ℕ))
      else .error .valueError
  | none => .error .valueError

/-- `int(value)`. -/
def int : Json → Except IntError ℤ
  | .null => .error .typeError
  | .bool b => .ok (if b then 1 else 0)
  | .int n => .ok n
  | .float q => .ok (if 0 ≤ q then ⌊q⌋ else ⌈q⌉)
  | .str s => intOfString s
  | .arr _ => .error .typeError
  | .obj _ => .error .typeError

/-! ## Lower case -/

/-- `str.lower` as far as ASCII text can tell: two other letters have ASCII letters in
their lower case. -/
def lowerChar (c : Char) : List Char :=
  if c = 'İ' then ['i', '\u0307'] else if c = '\u212a' then ['k'] else [c.toLower]

def lower (s : String) : String := String.ofList (s.toList.flatMap lowerChar)

/-- `s or t`. -/
def orElse (s t : String) : String := if s = "" then t else s

theorem orElse_ne_empty {s t : String} (h : s ≠ "" ∨ t ≠ "") : orElse s t ≠ "" := by
  unfold orElse
  split_ifs with hs
  · exact h.resolve_left (not_not_intro hs)
  · exact hs

theorem orElse_eq_self_iff (s t : String) : s = orElse s t ↔ s ≠ "" ∨ t = "" := by
  unfold orElse
  split_ifs with hs
  · simp [hs, eq_comm]
  · simp [hs]

/-! ## Searching for a pattern -/

/-- One position of a pattern: a lower-case letter or other character, or an
optional one out of a set. -/
inductive Atom where
  | lit (c : Char)
  | optional (set : List Char)
deriving DecidableEq, Repr

/-- Case folding of the matcher: besides the ASCII capitals, four other letters
match an ASCII letter. -/
def fold (c : Char) : Char :=
  if c = 'İ' ∨ c = 'ı' then 'i'
  else if c = '\u212a' then 'k'
  else if c = 'ſ' then 's'
  else c.toLower

def matchesPrefix : List Atom → List Char → Bool
  | [], _ => true
  | .lit c :: atoms, cs =>
      match cs with
      | [] => false
      | c' :: cs => fold c' = c && matchesPrefix atoms cs
  | .optional set :: atoms, cs =>
      matchesPrefix atoms cs ||
        match cs with
        | [] => false
        | c' :: cs => set.contains (fold c') && matchesPrefix atoms cs

/-- `re.search` for any of the alternatives, at any position. -/
def search (alternatives : List (List Atom)) : List Char → Bool
  | [] => alternatives.any (fun atoms => matchesPrefix atoms [])
  | c :: cs => alternatives.any (fun atoms => matchesPrefix atoms (c :: cs)) ||
      search alternatives cs

/-- A pattern without special characters. -/
def word (s : String) : List Atom := s.toList.map .lit

end Python
