import Zyntry.PythonJson
import Mathlib.Data.Int.Log

/-!
# Numbers and replacements in Python text

The built-in `float` with its rounding to doubles, a few string methods, `re.sub` for
patterns that are given by a matching function, and the numbers of `uuid.UUID`.
-/

namespace Python

/-! ## Raising -/

/-- What a sequence of two steps returns has passed both. -/
theorem bind_eq_ok {ε : Type*} {α β : Type} {x : Except ε α} {f : α → Except ε β} {b : β} :
    (x >>= f) = .ok b ↔ ∃ a, x = .ok a ∧ f a = .ok b := by
  cases x with
  | error e => simp [bind, Except.bind]
  | ok a => simp [bind, Except.bind]

theorem map_eq_ok {ε : Type*} {α β : Type} {x : Except ε α} {f : α → β} {b : β} :
    f <$> x = .ok b ↔ ∃ a, x = .ok a ∧ f a = b := by
  cases x with
  | error e => simp [Functor.map, Except.map]
  | ok a => simp [Functor.map, Except.map]

theorem exists_ok_iff {ε : Type*} {α : Type} {x : Except ε α} :
    (∃ a, x = .ok a) ↔ x.toOption.isSome := by
  cases x with
  | error e => simp [Except.toOption]
  | ok a => simp [Except.toOption]

theorem mapError_eq_ok {ε ε' α : Type*} {f : ε → ε'} {x : Except ε α} {a : α} :
    x.mapError f = .ok a ↔ x = .ok a := by
  cases x <;> simp [Except.mapError]

/-- A loop that returns has kept what each of its turns keeps. -/
theorem foldlM_invariant {ε : Type*} {α β : Type} {I : β → Prop} {f : β → α → Except ε β}
    (hstep : ∀ b a b', I b → f b a = .ok b' → I b') {items : List α} {b b' : β} (hb : I b)
    (h : items.foldlM f b = .ok b') : I b' := by
  induction items generalizing b with
  | nil =>
      obtain rfl : b = b' := Except.ok.inj h
      exact hb
  | cons a items ih =>
      rw [List.foldlM_cons] at h
      obtain ⟨c, hc, hrest⟩ := bind_eq_ok.1 h
      exact ih (hstep b a c hb hc) hrest

/-- A loop whose turns raise or not whatever the turns before have made raises nowhere exactly
if none of its items raises. -/
theorem foldlM_ok_iff {ε : Type*} {α β : Type} {f : β → α → Except ε β} (good : α → Prop)
    (hstep : ∀ b a, (∃ b', f b a = .ok b') ↔ good a) {items : List α} {b : β} :
    (∃ b', items.foldlM f b = .ok b') ↔ ∀ a ∈ items, good a := by
  induction items generalizing b with
  | nil => exact iff_of_true ⟨b, rfl⟩ nofun
  | cons a items ih =>
      rw [List.forall_mem_cons, ← hstep b a]
      constructor
      · rintro ⟨b', hrun⟩
        obtain ⟨next, hnext, hrest⟩ := bind_eq_ok.mp hrun
        exact ⟨⟨next, hnext⟩, ih.mp ⟨b', hrest⟩⟩
      · rintro ⟨⟨next, hnext⟩, hrest⟩
        obtain ⟨b', hrun⟩ := ih.mpr hrest
        exact ⟨b', bind_eq_ok.mpr ⟨next, hnext, hrun⟩⟩

theorem forM_eq_ok {ε : Type*} {α : Type} {f : α → Except ε Unit} {xs : List α} :
    xs.forM f = .ok () ↔ ∀ a ∈ xs, f a = .ok () := by
  induction xs with
  | nil => exact iff_of_true rfl nofun
  | cons a xs ih =>
      rw [List.forM, bind_eq_ok, List.forall_mem_cons]
      constructor
      · rintro ⟨_, ha, hxs⟩
        exact ⟨ha, ih.mp hxs⟩
      · rintro ⟨ha, hxs⟩
        exact ⟨(), ha, ih.mpr hxs⟩

theorem exists_mem_of_mapM {ε : Type*} {α β : Type} {f : α → Except ε β} {items : List α}
    {results : List β} (h : items.mapM f = .ok results) {b : β} (hb : b ∈ results) :
    ∃ a ∈ items, f a = .ok b := by
  induction items generalizing results with
  | nil =>
      obtain rfl : [] = results := Except.ok.inj h
      exact absurd hb List.not_mem_nil
  | cons a items ih =>
      rw [List.mapM_cons] at h
      obtain ⟨c, hc, hrest⟩ := bind_eq_ok.1 h
      obtain ⟨rest, hmap, hresults⟩ := bind_eq_ok.1 hrest
      obtain rfl : c :: rest = results := Except.ok.inj hresults
      rcases List.mem_cons.1 hb with rfl | htail
      · exact ⟨a, List.mem_cons_self, hc⟩
      · obtain ⟨a', ha', hf⟩ := ih hmap htail
        exact ⟨a', List.mem_cons_of_mem a ha', hf⟩

def raiseIf {ε : Type*} (p : Prop) [Decidable p] (e : ε) : Except ε Unit :=
  if p then .error e else .ok ()

@[simp] theorem raiseIf_eq_ok {ε : Type*} {p : Prop} [Decidable p] {e : ε} {u : Unit} :
    raiseIf p e = .ok u ↔ ¬p := by
  unfold raiseIf
  split_ifs with hp <;> simp [hp]

/-! ## The built-in `float` -/

inductive FloatError where
  | typeError
  | valueError
  | overflowError
deriving DecidableEq, Repr

def roundHalfEven (q : ℚ) : ℤ :=
  let n := ⌊q⌋
  if q - n < 1 / 2 then n
  else if 1 / 2 < q - n then n + 1
  else if n % 2 = 0 then n
  else n + 1

/-- The nearest double, and `none` if it is infinite. -/
def toDouble (q : ℚ) : Option ℚ :=
  let ulp : ℚ := 2 ^ (max (Int.log 2 |q|) (-1022) - 52)
  let r := roundHalfEven (q / ulp) * ulp
  if |r| < 2 ^ 1024 then some r else none

def decimalValue (ds : List ℕ) : ℕ := ds.foldl (fun n d => 10 * n + d) 0

/-- A sign, and what comes after it. -/
def signed : List Char → ℤ × List Char
  | '-' :: cs => (-1, cs)
  | '+' :: cs => (1, cs)
  | cs => (1, cs)

/-- The exponent behind the letter `e`. -/
def exponent : List Char → Option ℤ
  | [] => some 0
  | _ :: cs => (digits (signed cs).2).map fun ds => (signed cs).1 * decimalValue ds

/-- A decimal number without its sign; a point needs digits on one side of it. -/
def decimal (cs : List Char) : Option ℚ := do
  let (mantissa, power) := cs.span fun c => c ≠ 'e' ∧ c ≠ 'E'
  let (whole, fraction) := mantissa.span fun c => c ≠ '.'
  let whole ← if whole = [] then some [] else digits whole
  let fraction ← if fraction.tail = [] then some [] else digits fraction.tail
  if whole ++ fraction = [] then none
  else
    let e ← exponent power
    some (decimalValue (whole ++ fraction) * 10 ^ (e - fraction.length))

/-- `float(s)`; a float that is not finite is `none`. -/
def floatOfString (s : String) : Except FloatError (Option ℚ) :=
  let (sign, body) := signed (strip s.toList)
  if String.ofList (body.map Char.toLower) ∈ ["inf", "infinity", "nan"] then .ok none
  else
    match decimal body with
    | some q => .ok (toDouble (sign * q))
    | none => .error .valueError

/-- `float(value)`. -/
def float : Json → Except FloatError (Option ℚ)
  | .null => .error .typeError
  | .bool b => .ok (some (if b then 1 else 0))
  | .int n =>
      match toDouble n with
      | some q => .ok (some q)
      | none => .error .overflowError
  | .float q => .ok (some q)
  | .str s => floatOfString s
  | .arr _ => .error .typeError
  | .obj _ => .error .typeError

example : floatOfString " -1.5e1 " = .ok (some (-15)) := by decide +kernel

example : floatOfString "0.1" = .ok (some (3602879701896397 / 36028797018963968)) := by
  decide +kernel

/-! ## The range of `datetime`, in microseconds of the epoch -/

def minDatetime : ℤ := -62135596800000000

def maxDatetime : ℤ := 253402300799999999

/-! ## String methods -/

/-- `s.strip(chars)`. -/
def stripChars (chars : List Char) (s : String) : String :=
  String.ofList ((s.toList.dropWhile chars.contains).rdropWhile chars.contains)

/-- `s.strip()`. -/
def stripped (s : String) : String := String.ofList (strip s.toList)

theorem stripped_stripped (s : String) : stripped (stripped s) = stripped s := by
  unfold stripped
  rw [String.toList_ofList, strip_strip]

theorem length_stripped_le (s : String) : (stripped s).length ≤ s.length := by
  rw [stripped, String.length_ofList, ← String.length_toList]
  exact (trim_sublist isSpace s.toList).length_le

/-- `s.replace(c, new)` for one of several characters. -/
def replaceChars (old : List Char) (new : Char) (s : String) : String :=
  String.ofList (s.toList.map fun c => if c ∈ old then new else c)

/-- `s.split(c)`. -/
def splitOn (c : Char) (s : String) : List String :=
  (s.toList.splitOn c).map String.ofList

/-- `s.split()`. -/
def splitSpaces (s : String) : List String :=
  ((s.toList.splitOnP isSpace).filter (· ≠ [])).map String.ofList

/-- `s.startswith(start)`. -/
def startsWith (s start : String) : Bool := start.toList.isPrefixOf s.toList

/-- `s.endswith(end)`. -/
def endsWith (s ending : String) : Bool := ending.toList.isSuffixOf s.toList

/-- `part in s`. -/
def isInfix (part s : String) : Bool := s.toList.tails.any part.toList.isPrefixOf

/-! ## `re.sub` -/

/-- A pattern at a position, given the character before it: the number of characters that
it takes after the first one, and the text that is put in their place. -/
abbrev Rule := Option Char → List Char → Option (ℕ × List Char)

/-- The text with all matches replaced, after the characters of a match are skipped. -/
def replaceAll (rule : Rule) : ℕ → Option Char → List Char → List Char
  | _, _, [] => []
  | n + 1, _, c :: cs => replaceAll rule n (some c) cs
  | 0, before, c :: cs =>
      match rule before (c :: cs) with
      | some (n, text) => text ++ replaceAll rule n (some c) cs
      | none => c :: replaceAll rule 0 (some c) cs

def sub (rule : Rule) (s : String) : String := String.ofList (replaceAll rule 0 none s.toList)

/-- The pattern matches at some position. -/
def occurs (rule : Rule) : Option Char → List Char → Bool
  | _, [] => false
  | before, c :: cs => (rule before (c :: cs)).isSome || occurs rule (some c) cs

/-- Replacements put a character into the text that the matches do not have. -/
structure Rule.Marks (rule : Rule) (mark : Char) : Prop where
  replaced : ∀ {before cs n text}, rule before cs = some (n, text) → mark ∈ text
  matched : ∀ {before cs n text}, rule before cs = some (n, text) → mark ∉ cs.take (n + 1)

section

variable {rule : Rule} {mark : Char} (hmarks : rule.Marks mark)

include hmarks

theorem count_of_match {before : Option Char} {c : Char} {cs : List Char} {n : ℕ}
    {text : List Char} (hrule : rule before (c :: cs) = some (n, text)) :
    (c :: cs).count mark = (cs.drop n).count mark := by
  have htake : ((c :: cs).take (n + 1)).count mark = 0 :=
    List.count_eq_zero.mpr (hmarks.matched hrule)
  conv_lhs => rw [← List.take_append_drop (n + 1) (c :: cs), List.count_append, htake]
  rw [Nat.zero_add, List.drop_succ_cons]

theorem count_drop_le_replaceAll (n : ℕ) (before : Option Char) (cs : List Char) :
    (cs.drop n).count mark ≤ (replaceAll rule n before cs).count mark := by
  induction cs generalizing n before with
  | nil => simp
  | cons c cs ih =>
      cases n with
      | succ n => exact ih n (some c)
      | zero =>
          rw [List.drop_zero, replaceAll]
          cases hrule : rule before (c :: cs) with
          | none =>
              have hrest := ih 0 (some c)
              rw [List.drop_zero] at hrest
              dsimp only
              rw [List.count_cons, List.count_cons]
              omega
          | some found =>
              obtain ⟨n, text⟩ := found
              dsimp only
              rw [count_of_match hmarks hrule, List.count_append]
              exact (ih n (some c)).trans (Nat.le_add_left _ _)

theorem count_lt_replaceAll_of_occurs {before : Option Char} {cs : List Char}
    (h : occurs rule before cs = true) :
    cs.count mark < (replaceAll rule 0 before cs).count mark := by
  induction cs generalizing before with
  | nil => simp [occurs] at h
  | cons c cs ih =>
      rw [replaceAll]
      cases hrule : rule before (c :: cs) with
      | none =>
          simp only [occurs, hrule, Option.isSome_none, Bool.false_or] at h
          have hrest := ih h
          dsimp only
          rw [List.count_cons, List.count_cons]
          omega
      | some found =>
          obtain ⟨n, text⟩ := found
          have htext : 0 < text.count mark := List.count_pos_iff.mpr (hmarks.replaced hrule)
          have hrest := count_drop_le_replaceAll hmarks n (some c) cs
          dsimp only
          rw [count_of_match hmarks hrule, List.count_append]
          omega

theorem count_le_sub (s : String) : s.toList.count mark ≤ (sub rule s).toList.count mark := by
  rw [sub, String.toList_ofList]
  exact count_drop_le_replaceAll hmarks 0 none s.toList

theorem count_lt_sub_of_occurs {s : String} (h : occurs rule none s.toList = true) :
    s.toList.count mark < (sub rule s).toList.count mark := by
  rw [sub, String.toList_ofList]
  exact count_lt_replaceAll_of_occurs hmarks h

end

theorem replaceAll_of_not_occurs {rule : Rule} {before : Option Char} {cs : List Char}
    (h : occurs rule before cs = false) : replaceAll rule 0 before cs = cs := by
  induction cs generalizing before with
  | nil => rfl
  | cons c cs ih =>
      simp only [occurs, Bool.or_eq_false_iff, Option.isSome_eq_false_iff,
        Option.isNone_iff_eq_none] at h
      rw [replaceAll, h.1]
      exact congrArg (c :: ·) (ih h.2)

theorem sub_of_not_occurs {rule : Rule} {s : String} (h : occurs rule none s.toList = false) :
    sub rule s = s := by
  rw [sub, replaceAll_of_not_occurs h, String.ofList_toList]

/-! ## Hexadecimal numbers and `uuid.UUID` -/

def hexDigitValue (c : Char) : Option ℕ :=
  if 'a' ≤ c ∧ c ≤ 'f' then some (c.toNat - 'a'.toNat + 10)
  else if 'A' ≤ c ∧ c ≤ 'F' then some (c.toNat - 'A'.toNat + 10)
  else digitValue c

/-- Hexadecimal digits with single underscores between them, most significant first. -/
def hexDigits : List Char → Option (List ℕ)
  | [] => none
  | [c] => (hexDigitValue c).map (fun n => [n])
  | c :: '_' :: cs => do pure ((← hexDigitValue c) :: (← hexDigits cs))
  | c :: c' :: cs => do pure ((← hexDigitValue c) :: (← hexDigits (c' :: cs)))

/-- What comes after the prefix `0x` and the underscore that may follow it. -/
def withoutHexPrefix : List Char → List Char
  | '0' :: 'x' :: '_' :: cs => cs
  | '0' :: 'X' :: '_' :: cs => cs
  | '0' :: 'x' :: cs => cs
  | '0' :: 'X' :: cs => cs
  | cs => cs

/-- `int(s, 16)`. -/
def intOfHex (s : String) : Except IntError ℤ :=
  let (sign, body) := signed (strip s.toList)
  match hexDigits (withoutHexPrefix body) with
  | some ds => .ok (sign * (ds.foldl (fun n d => 16 * n + d) 0 : ℕ))
  | none => .error .valueError

/-- The pattern of a fixed text that is replaced by nothing. -/
def removed (text : String) : Rule := fun _ cs =>
  if text.toList.isPrefixOf cs then some (text.length - 1, []) else none

/-- `str(UUID(int=n))`. -/
def uuidText (n : ℕ) : String :=
  let digits := (List.range 32).map fun i => Nat.digitChar (n / 16 ^ (31 - i) % 16)
  let group (start length : ℕ) := (digits.drop start).take length
  String.ofList (group 0 8 ++ '-' :: group 8 4 ++ '-' :: group 12 4 ++ '-' :: group 16 4 ++
    '-' :: group 20 12)

/-- `str(UUID(s))`; `none` is its `ValueError`. -/
def uuid (s : String) : Option String :=
  let hex := stripChars ['{', '}'] (sub (removed "uuid:") (sub (removed "urn:") s))
  let hex := String.ofList (hex.toList.filter (· ≠ '-'))
  if hex.length = 32 then
    match intOfHex hex with
    | .ok n => some (uuidText n.toNat)
    | .error _ => none
  else none

example : uuid "urn:uuid:{0123456789ABCDEF0123456789abcdef}" =
    some "01234567-89ab-cdef-0123-456789abcdef" := by decide +kernel

end Python
