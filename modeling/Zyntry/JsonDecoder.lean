import Zyntry.PythonJson

/-!
# The decoder of JSON documents

`json.loads` of Python 3.13, with the messages of its errors and the positions that they name. A
scanner takes a value from the front of a text. What is left of the text stands for the position
reached; the error of a scanner has the text from the position that it names.
-/

namespace Python

/-- A decoded document. A string is a list of code points, since an escape can name one half of a
surrogate pair. -/
inductive JsonValue (F : Type) where
  | null
  | bool (b : Bool)
  | int (n : ℤ)
  | float (x : F)
  | str (codes : List ℕ)
  | arr (items : List (JsonValue F))
  | obj (fields : List (List ℕ × JsonValue F))

inductive DecodeMessage where
  | unexpectedBom
  | expectingValue
  | extraData
  | unterminatedString
  | invalidControlCharacter
  | invalidEscape
  | invalidUnicodeEscape
  | expectingPropertyName
  | expectingColon
  | expectingComma
  | trailingCommaObject
  | trailingCommaArray
deriving DecidableEq

def DecodeMessage.text : DecodeMessage → String
  | unexpectedBom => "Unexpected UTF-8 BOM (decode using utf-8-sig)"
  | expectingValue => "Expecting value"
  | extraData => "Extra data"
  | unterminatedString => "Unterminated string starting at"
  | invalidControlCharacter => "Invalid control character at"
  | invalidEscape => "Invalid \\escape"
  | invalidUnicodeEscape => "Invalid \\uXXXX escape"
  | expectingPropertyName => "Expecting property name enclosed in double quotes"
  | expectingColon => "Expecting ':' delimiter"
  | expectingComma => "Expecting ',' delimiter"
  | trailingCommaObject => "Illegal trailing comma before end of object"
  | trailingCommaArray => "Illegal trailing comma before end of array"

/-- The errors of a scanner: the text is wrong at some position, an integer has too many digits to
be converted, or values are nested too deeply. -/
inductive ScanError where
  | decode (msg : DecodeMessage) (rest : List Char)
  | tooManyDigits
  | tooDeep

/-- What a scanner finds, and the rest of the text. -/
abbrev Scan (α : Type) := Except ScanError (α × List Char)

/-- `float`, and the constants that stand for floats. -/
structure FloatReading (F : Type) where
  ofText : List Char → F
  nan : F
  infinity : F
  negInfinity : F

def isJsonSpace (c : Char) : Bool := c = ' ' ∨ c = '\t' ∨ c = '\n' ∨ c = '\r'

def skipJsonSpace (cs : List Char) : List Char := cs.dropWhile isJsonSpace

/-! ## Strings -/

def hexDigit (c : Char) : Option ℕ :=
  if c.isDigit then some (c.toNat - '0'.toNat)
  else if 'a' ≤ c ∧ c ≤ 'f' then some (c.toNat - 'a'.toNat + 10)
  else if 'A' ≤ c ∧ c ≤ 'F' then some (c.toNat - 'A'.toNat + 10)
  else none

def hexCode (a b c d : Char) : Option ℕ := do
  let a ← hexDigit a
  let b ← hexDigit b
  let c ← hexDigit c
  let d ← hexDigit d
  return ((a * 16 + b) * 16 + c) * 16 + d

/-- The character that a backslash and a letter stand for. -/
def simpleEscape (c : Char) : Option Char :=
  if c = '"' ∨ c = '\\' ∨ c = '/' then some c
  else if c = 'b' then some '\u0008'
  else if c = 'f' then some '\u000C'
  else if c = 'n' then some '\n'
  else if c = 'r' then some '\r'
  else if c = 't' then some '\t'
  else none

/-- A code point of a string, and whether it was written as four hexadecimal digits. -/
abbrev CodeUnit := ℕ × Bool

/-- Halves of a surrogate pair that were escaped one after the other are joined. -/
def joinSurrogates : List CodeUnit → List ℕ
  | (high, true) :: (low, true) :: units =>
      if 0xD800 ≤ high ∧ high ≤ 0xDBFF ∧ 0xDC00 ≤ low ∧ low ≤ 0xDFFF
      then (0x10000 + (high - 0xD800) * 0x400 + (low - 0xDC00)) :: joinSurrogates units
      else high :: joinSurrogates ((low, true) :: units)
  | (code, _) :: units => code :: joinSurrogates units
  | [] => []

/-- The code units up to the quotation mark that ends the string which begins at `start`. -/
def scanUnits (start : List Char) : List Char → Scan (List CodeUnit)
  | [] => .error (.decode .unterminatedString start)
  | c :: cs =>
      if c = '"' then .ok ([], cs)
      else if c = '\\' then
        match cs with
        | [] => .error (.decode .unterminatedString start)
        | e :: more =>
            if e = 'u' then
              match more with
              | x :: y :: z :: w :: next :: after =>
                  match hexCode x y z w with
                  | some code =>
                      (scanUnits start (next :: after)).map fun found =>
                        ((code, true) :: found.1, found.2)
                  | none => .error (.decode .invalidUnicodeEscape (e :: more))
              | _ => .error (.decode .invalidUnicodeEscape (e :: more))
            else
              match simpleEscape e with
              | some char =>
                  (scanUnits start more).map fun found => ((char.toNat, false) :: found.1, found.2)
              | none => .error (.decode .invalidEscape (c :: e :: more))
      else if c.toNat ≤ 0x1F then .error (.decode .invalidControlCharacter (c :: cs))
      else (scanUnits start cs).map fun found => ((c.toNat, false) :: found.1, found.2)

/-- `scanstring`, on the text after the quotation mark that begins the string. -/
def scanString (cs : List Char) : Scan (List ℕ) :=
  (scanUnits ('"' :: cs) cs).map fun found => (joinSurrogates found.1, found.2)

/-! ## Numbers and constants -/

def scanDigits (cs : List Char) : List Char × List Char :=
  (cs.takeWhile Char.isDigit, cs.dropWhile Char.isDigit)

def scanNatural : List Char → Option (List Char × List Char)
  | [] => none
  | c :: cs =>
      if c = '0' then some ([c], cs)
      else if c.isDigit then some (c :: (scanDigits cs).1, (scanDigits cs).2)
      else none

def scanInteger : List Char → Option (List Char × List Char)
  | [] => none
  | c :: cs =>
      if c = '-' then (scanNatural cs).map fun found => (c :: found.1, found.2)
      else scanNatural (c :: cs)

def scanFraction : List Char → List Char × List Char
  | c :: d :: cs =>
      if c = '.' ∧ d.isDigit then (c :: d :: (scanDigits cs).1, (scanDigits cs).2)
      else ([], c :: d :: cs)
  | cs => ([], cs)

def scanSign : List Char → List Char × List Char
  | [] => ([], [])
  | c :: cs => if c = '+' ∨ c = '-' then ([c], cs) else ([], c :: cs)

def scanExponent : List Char → List Char × List Char
  | [] => ([], [])
  | c :: cs =>
      let sign := scanSign cs
      let digits := scanDigits sign.2
      if (c = 'e' ∨ c = 'E') ∧ digits.1 ≠ [] then (c :: sign.1 ++ digits.1, digits.2)
      else ([], c :: cs)

structure NumberText where
  integer : List Char
  fraction : List Char
  exponent : List Char

/-- `_match_number`. -/
def matchNumber (cs : List Char) : Option (NumberText × List Char) :=
  (scanInteger cs).map fun integer =>
    let fraction := scanFraction integer.2
    let exponent := scanExponent fraction.2
    (⟨integer.1, fraction.1, exponent.1⟩, exponent.2)

def digitsValue (cs : List Char) : ℕ :=
  cs.foldl (fun value c => value * 10 + (c.toNat - '0'.toNat)) 0

/-- The value of an integer, which is converted if it has at most 4300 digits. -/
def integerValue : List Char → Except ScanError ℤ
  | '-' :: cs => if 4300 < cs.length then .error .tooManyDigits else .ok (-(digitsValue cs : ℤ))
  | cs => if 4300 < cs.length then .error .tooManyDigits else .ok (digitsValue cs)

variable {F : Type} (floats : FloatReading F)

def NumberText.value (number : NumberText) : Except ScanError (JsonValue F) :=
  if number.fraction = [] ∧ number.exponent = [] then (integerValue number.integer).map .int
  else .ok (.float (floats.ofText (number.integer ++ number.fraction ++ number.exponent)))

def stripLiteral : List Char → List Char → Option (List Char)
  | [], cs => some cs
  | _ :: _, [] => none
  | l :: ls, c :: cs => if l = c then stripLiteral ls cs else none

def jsonConstants : List (List Char × JsonValue F) := [
  (['n', 'u', 'l', 'l'], .null), (['t', 'r', 'u', 'e'], .bool true),
  (['f', 'a', 'l', 's', 'e'], .bool false), (['N', 'a', 'N'], .float floats.nan),
  (['I', 'n', 'f', 'i', 'n', 'i', 't', 'y'], .float floats.infinity),
  (['-', 'I', 'n', 'f', 'i', 'n', 'i', 't', 'y'], .float floats.negInfinity)]

def scanConstant (cs : List Char) : Option (JsonValue F × List Char) :=
  (jsonConstants floats).findSome? fun entry =>
    (stripLiteral entry.1 cs).map fun rest => (entry.2, rest)

/-- A constant or a number. -/
def scanScalar (cs : List Char) : Scan (JsonValue F) :=
  match scanConstant floats cs with
  | some found => .ok found
  | none =>
      match matchNumber cs with
      | some found => (found.1.value floats).map fun value => (value, found.2)
      | none => .error (.decode .expectingValue cs)

/-! ## Containers -/

/-- The dict of a list of pairs: a later value of a key takes the place of an earlier one. -/
def setField (fields : List (List ℕ × JsonValue F)) (field : List ℕ × JsonValue F) :
    List (List ℕ × JsonValue F) :=
  match fields with
  | [] => [field]
  | first :: rest =>
      if first.1 = field.1 then (first.1, field.2) :: rest else first :: setField rest field

def dictOf (pairs : List (List ℕ × JsonValue F)) : JsonValue F := .obj (pairs.foldl setField [])

variable {V : Type} (scan : List Char → Scan V)

/-- What follows a value of a container: its end, or the comma before the next value. -/
def scanDelimiter (close : Char) (trailing : DecodeMessage) : List Char → Scan Bool
  | [] => .error (.decode .expectingComma [])
  | c :: cs =>
      if c = close then .ok (true, cs)
      else if c = ',' then
        if (skipJsonSpace cs).head? = some close then .error (.decode trailing (c :: cs))
        else .ok (false, skipJsonSpace cs)
      else .error (.decode .expectingComma (c :: cs))

/-- The values up to the end of an array, from a value on. -/
def scanItems : ℕ → List Char → Except ScanError (List V × List Char)
  | 0, _ => throw .tooDeep
  | fuel + 1, cs => do
      let (value, cs) ← scan cs
      let (closed, cs) ← scanDelimiter ']' .trailingCommaArray (skipJsonSpace cs)
      if closed then return ([value], cs)
      let (more, cs) ← scanItems fuel cs
      return (value :: more, cs)

def scanColon : List Char → Except ScanError (List Char)
  | [] => .error (.decode .expectingColon [])
  | c :: cs =>
      if c = ':' then .ok (skipJsonSpace cs) else .error (.decode .expectingColon (c :: cs))

/-- A key of an object, up to the value after the colon. -/
def scanKey : List Char → Except ScanError (List ℕ × List Char)
  | [] => .error (.decode .expectingPropertyName [])
  | c :: cs =>
      if c = '"' then do
        let (key, cs) ← scanString cs
        let cs ← scanColon (skipJsonSpace cs)
        return (key, cs)
      else .error (.decode .expectingPropertyName (c :: cs))

/-- The pairs up to the end of an object, from a key on. -/
def scanPairs : ℕ → List Char → Except ScanError (List (List ℕ × V) × List Char)
  | 0, _ => throw .tooDeep
  | fuel + 1, cs => do
      let (key, cs) ← scanKey cs
      let (value, cs) ← scan cs
      let (closed, cs) ← scanDelimiter '}' .trailingCommaObject (skipJsonSpace cs)
      if closed then return ([(key, value)], cs)
      let (more, cs) ← scanPairs fuel cs
      return ((key, value) :: more, cs)

/-- `_parse_array`, on the text after the bracket. Every round of the loop takes a comma. -/
def scanArray (cs : List Char) : Scan (List V) :=
  match skipJsonSpace cs with
  | ']' :: rest => .ok ([], rest)
  | cs => scanItems scan (cs.length + 1) cs

/-- `_parse_object`, on the text after the brace. -/
def scanObject (cs : List Char) : Scan (List (List ℕ × V)) :=
  match skipJsonSpace cs with
  | '}' :: rest => .ok ([], rest)
  | cs => scanPairs scan (cs.length + 1) cs

/-- A value, if those nested in it are scanned by `nested`. -/
def scanTerm (nested : Option (List Char → Scan (JsonValue F))) : List Char → Scan (JsonValue F)
  | [] => .error (.decode .expectingValue [])
  | c :: cs =>
      if c = '"' then (scanString cs).map fun found => (.str found.1, found.2)
      else if c = '{' then
        match nested with
        | none => .error .tooDeep
        | some scan => (scanObject scan cs).map fun found => (dictOf found.1, found.2)
      else if c = '[' then
        match nested with
        | none => .error .tooDeep
        | some scan => (scanArray scan cs).map fun found => (.arr found.1, found.2)
      else scanScalar floats (c :: cs)

/-- `scan_once`, where values may be nested up to a depth. -/
def scanOnce : ℕ → List Char → Scan (JsonValue F)
  | 0 => scanTerm floats none
  | depth + 1 => scanTerm floats (some (scanOnce depth))

/-! ## Documents -/

/-- `JSONDecodeError` with its message and position, the plain `ValueError` of `int`, and
`RecursionError`. -/
inductive LoadError where
  | jsonDecodeError (msg : DecodeMessage) (pos : ℕ)
  | valueError
  | recursionError
deriving DecidableEq

def ScanError.inText (cs : List Char) : ScanError → LoadError
  | decode msg rest => .jsonDecodeError msg (cs.length - rest.length)
  | tooManyDigits => .valueError
  | tooDeep => .recursionError

/-- `json.loads`. -/
def loads (depth : ℕ) (cs : List Char) : Except LoadError (JsonValue F) :=
  if cs.head? = some '\uFEFF' then .error (.jsonDecodeError .unexpectedBom 0)
  else
    match scanOnce floats depth (skipJsonSpace cs) with
    | .error e => .error (e.inText cs)
    | .ok (value, rest) =>
        match skipJsonSpace rest with
        | [] => .ok value
        | extra => .error (.jsonDecodeError .extraData (cs.length - extra.length))

end Python
