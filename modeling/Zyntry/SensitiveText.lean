import Zyntry.PythonText
import Zyntry.RuntimeUpdate

/-!
# Credentials in the assistant's records

Before the assistant stores or shows a value, it takes out what looks like a credential:
values by the name of their key, bearer tokens and API keys by their form. Which letters
outside ASCII count as word characters is a parameter (`isAlnum`).
-/

namespace Zyntry

open Python

/-! ## The patterns -/

section

variable (isAlnum : Char → Bool)

/-- The class `\w`. -/
def isWord (c : Char) : Bool :=
  if c.toNat < 128 then c.isAlphanum || c = '_' else isAlnum c

/-- `\b` between two characters, either of which may be missing. -/
def wordBoundary (before after : Option Char) : Bool :=
  before.any (isWord isAlnum) != after.any (isWord isAlnum)

/-- The characters of a bearer token, regardless of case. -/
def isBearerChar (c : Char) : Bool :=
  ('a' ≤ fold c ∧ fold c ≤ 'z') ∨ ('0' ≤ c ∧ c ≤ '9') ∨ c ∈ ['.', '_', '~', '+', '-', '/']

def isKeyChar (c : Char) : Bool :=
  ('a' ≤ c ∧ c ≤ 'z') ∨ ('A' ≤ c ∧ c ≤ 'Z') ∨ ('0' ≤ c ∧ c ≤ '9') ∨ c = '_' ∨ c = '-'

def redactedText : List Char := "[REDACTED]".toList

/-- `_BEARER.sub(r"\1[REDACTED]", ...)` at one position. The classes of the pattern have no
character in common, so that each part takes as much as it can. -/
def bearerRule : Rule := fun before cs =>
  let scheme := cs.take 6
  let space := (cs.drop 6).takeWhile isSpace
  let afterSpace := (cs.drop 6).dropWhile isSpace
  let token := afterSpace.takeWhile isBearerChar
  let padding := (afterSpace.dropWhile isBearerChar).takeWhile fun c => c = '='
  if scheme.map fold = "bearer".toList ∧ before.any (isWord isAlnum) = false ∧ space ≠ [] ∧
      token ≠ [] then
    some (5 + space.length + token.length + padding.length, scheme ++ space ++ redactedText)
  else none

/-- `_ZYNTRY_KEY.sub("[REDACTED]", ...)` at one position: the longest run of key characters
that ends at a boundary. -/
def zyntryKeyRule : Rule := fun before cs =>
  let rest := cs.drop 8
  let run := rest.takeWhile isKeyChar
  if (cs.take 8 = "sk_live_".toList ∨ cs.take 8 = "sk_test_".toList) ∧
      before.any (isWord isAlnum) = false then
    ((List.range run.length).reverse.find? fun k =>
        wordBoundary isAlnum rest[k]? rest[k + 1]?).map
      fun k => (8 + k, redactedText)
  else none

/-! ## Redaction -/

def secretKeyParts : List String :=
  ["access_token", "refresh_token", "api_key", "apikey", "authorization", "client_secret",
   "password", "private_key", "secret", "token"]

def isSecretKey (key : String) : Bool :=
  secretKeyParts.any fun part => isInfix part (replaceChars ['-'] '_' (lower key))

def secretMark : Json := .str "[REDACTED]"

def redactText (s : String) : String :=
  sub (zyntryKeyRule isAlnum) (sub (bearerRule isAlnum) s)

mutual
/-- `redact_sensitive`. -/
def redactSensitive : Json → Json
  | .obj fields => .obj (redactSensitiveFields fields)
  | .arr items => .arr (redactSensitiveItems items)
  | .str s => .str (redactText isAlnum s)
  | .null => .null
  | .bool b => .bool b
  | .int n => .int n
  | .float q => .float q

def redactSensitiveItems : List Json → List Json
  | [] => []
  | v :: items => redactSensitive v :: redactSensitiveItems items

def redactSensitiveFields : Fields → Fields
  | [] => []
  | (k, v) :: fields =>
      (k, if isSecretKey k then secretMark else redactSensitive v) :: redactSensitiveFields fields
end

mutual
/-- No key is a secret's, unless the value is already marked, and no text has a credential. -/
def Plain : Json → Prop
  | .obj fields => PlainFields fields
  | .arr items => PlainItems items
  | .str s => occurs (bearerRule isAlnum) none s.toList = false ∧
      occurs (zyntryKeyRule isAlnum) none s.toList = false
  | .null => True
  | .bool _ => True
  | .int _ => True
  | .float _ => True

def PlainItems : List Json → Prop
  | [] => True
  | v :: items => Plain v ∧ PlainItems items

def PlainFields : Fields → Prop
  | [] => True
  | (k, v) :: fields => (if isSecretKey k then v = secretMark else Plain v) ∧ PlainFields fields
end

/-! ## What redaction leaves alone -/

theorem notMem_takeWhile {p : Char → Bool} {c : Char} (h : p c = false) (cs : List Char) :
    c ∉ cs.takeWhile p := by
  intro hmem
  rw [List.mem_takeWhile_imp hmem] at h
  exact absurd h (by decide)

theorem take_takeWhile_length_add (p : Char → Bool) (cs : List Char) (n : ℕ) :
    cs.take ((cs.takeWhile p).length + n) = cs.takeWhile p ++ (cs.dropWhile p).take n := by
  induction cs with
  | nil => simp
  | cons c cs ih =>
      by_cases hc : p c = true
      · rw [List.takeWhile_cons_of_pos hc, List.dropWhile_cons_of_pos hc, List.length_cons,
          Nat.add_right_comm, List.take_succ_cons, ih, List.cons_append]
      · rw [List.takeWhile_cons_of_neg hc, List.dropWhile_cons_of_neg hc, List.length_nil,
          Nat.zero_add, List.nil_append]

theorem bearerRule_marks : (bearerRule isAlnum).Marks '[' where
  replaced := by
    intro before cs n text h
    unfold bearerRule at h
    dsimp only at h
    split_ifs at h
    obtain ⟨-, rfl⟩ := Prod.mk.inj (Option.some.inj h)
    exact List.mem_append_right _ (by decide)
  matched := by
    intro before cs n text h
    unfold bearerRule at h
    dsimp only at h
    split_ifs at h with hmatch
    obtain ⟨rfl, -⟩ := Prod.mk.inj (Option.some.inj h)
    -- the match is its four parts, one after the other
    have hsum : ∀ a b c : ℕ, 5 + a + b + c + 1 = 6 + (a + (b + (c + 0))) := by omega
    rw [hsum, List.take_add, take_takeWhile_length_add, take_takeWhile_length_add,
      take_takeWhile_length_add]
    simp only [List.mem_append, not_or, List.take_zero, List.not_mem_nil, not_false_eq_true,
      and_true]
    refine ⟨fun hmem => ?_, notMem_takeWhile (by decide) _, notMem_takeWhile (by decide) _,
      notMem_takeWhile (by decide) _⟩
    have hfold : '[' ∈ "bearer".toList := hmatch.1 ▸ List.mem_map_of_mem (f := fold) hmem
    exact absurd hfold (by decide)

theorem zyntryKeyRule_marks : (zyntryKeyRule isAlnum).Marks '[' where
  replaced := by
    intro before cs n text h
    unfold zyntryKeyRule at h
    dsimp only at h
    split_ifs at h
    obtain ⟨k, -, hk⟩ := Option.map_eq_some_iff.mp h
    obtain ⟨-, rfl⟩ := Prod.mk.inj hk
    decide
  matched := by
    intro before cs n text h
    unfold zyntryKeyRule at h
    dsimp only at h
    split_ifs at h with hmatch
    obtain ⟨k, hfound, hk⟩ := Option.map_eq_some_iff.mp h
    obtain ⟨rfl, -⟩ := Prod.mk.inj hk
    have hk : k < ((cs.drop 8).takeWhile isKeyChar).length := by
      simpa using List.mem_of_find?_eq_some hfound
    have hrun : (cs.drop 8).take (k + 1) = ((cs.drop 8).takeWhile isKeyChar).take (k + 1) := by
      conv_lhs => rw [← List.takeWhile_append_dropWhile (p := isKeyChar) (l := cs.drop 8)]
      exact List.take_append_of_le_length hk
    rw [Nat.add_assoc, List.take_add, hrun, List.mem_append, not_or]
    refine ⟨?_, fun hmem => notMem_takeWhile (by decide) (cs.drop 8) (List.mem_of_mem_take hmem)⟩
    rcases hmatch.1 with hhead | hhead <;> rw [hhead] <;> decide

/-- The marks of the first pattern stay, so that the second one cannot restore the text. -/
theorem redactText_eq_self_iff (s : String) : redactText isAlnum s = s ↔
    occurs (bearerRule isAlnum) none s.toList = false ∧
      occurs (zyntryKeyRule isAlnum) none s.toList = false := by
  constructor
  · intro h
    have hsecond := count_le_sub (zyntryKeyRule_marks isAlnum) (sub (bearerRule isAlnum) s)
    have hbearer : occurs (bearerRule isAlnum) none s.toList = false := by
      by_contra hoccurs
      have hfirst := count_lt_sub_of_occurs (bearerRule_marks isAlnum)
        ((Bool.not_eq_false _).mp hoccurs)
      exact absurd (congrArg (fun t => t.toList.count '[') h) (hfirst.trans_le hsecond).ne'
    refine ⟨hbearer, ?_⟩
    by_contra hoccurs
    have hkey := count_lt_sub_of_occurs (zyntryKeyRule_marks isAlnum)
      ((Bool.not_eq_false _).mp hoccurs)
    rw [redactText, sub_of_not_occurs hbearer] at h
    exact absurd (congrArg (fun t => t.toList.count '[') h) hkey.ne'
  · rintro ⟨hbearer, hkey⟩
    rw [redactText, sub_of_not_occurs hbearer, sub_of_not_occurs hkey]

mutual
theorem redactSensitive_eq_self_iff : ∀ v : Json, redactSensitive isAlnum v = v ↔ Plain isAlnum v
  | .obj fields => by
      simp only [redactSensitive, Plain, Json.obj.injEq, redactSensitiveFields_eq_self_iff fields]
  | .arr items => by
      simp only [redactSensitive, Plain, Json.arr.injEq, redactSensitiveItems_eq_self_iff items]
  | .str s => by simp only [redactSensitive, Plain, Json.str.injEq,
      redactText_eq_self_iff isAlnum s]
  | .null => by simp only [redactSensitive, Plain]
  | .bool b => by simp only [redactSensitive, Plain]
  | .int n => by simp only [redactSensitive, Plain]
  | .float q => by simp only [redactSensitive, Plain]

theorem redactSensitiveItems_eq_self_iff : ∀ items : List Json,
    redactSensitiveItems isAlnum items = items ↔ PlainItems isAlnum items
  | [] => by simp only [redactSensitiveItems, PlainItems]
  | v :: items => by
      simp only [redactSensitiveItems, PlainItems, List.cons.injEq, redactSensitive_eq_self_iff v,
        redactSensitiveItems_eq_self_iff items]

theorem redactSensitiveFields_eq_self_iff : ∀ fields : Fields,
    redactSensitiveFields isAlnum fields = fields ↔ PlainFields isAlnum fields
  | [] => by simp only [redactSensitiveFields, PlainFields]
  | (k, v) :: fields => by
      simp only [redactSensitiveFields, PlainFields, List.cons.injEq, Prod.mk.injEq, true_and,
        redactSensitiveFields_eq_self_iff fields]
      split_ifs
      · simp only [eq_comm]
      · simp only [redactSensitive_eq_self_iff v]
end

end

end Zyntry
