import Zyntry.CharacterRuns
import Zyntry.SensitiveText

/-!
# Redaction of personal data

E-mail addresses, phone numbers, social security numbers and card numbers are replaced one
after the other. The card pattern takes digits with single spaces and dashes between them, as
many as it can, and only what it has taken as a whole is put to the Luhn check: a card number
stays in the text if the match that covers it fails the check. Which characters outside ASCII
besides the digits are word characters is a parameter.
-/

namespace Zyntry

open Python

/-! ## The patterns -/

/-- The class `\d`. -/
def isDigitChar (c : Char) : Bool := (digitValue c).isSome

/-- The class `[A-Z]`, regardless of case. -/
def isLetterChar (c : Char) : Bool := 'a' ≤ fold c ∧ fold c ≤ 'z'

def isAsciiDigit (c : Char) : Bool := '0' ≤ c ∧ c ≤ '9'

def isLocalChar (c : Char) : Bool :=
  isLetterChar c || isAsciiDigit c || c ∈ ['.', '_', '%', '+', '-']

def isDomainChar (c : Char) : Bool := isLetterChar c || isAsciiDigit c || c ∈ ['.', '-']

/-- The class `[\s.-]`. -/
def isPhoneSeparator (c : Char) : Bool := isSpace c || c ∈ ['.', '-']

def isCardSeparator (c : Char) : Bool := c = ' ' ∨ c = '-'

def digitsBetween (lo hi : ℕ) : Regex := .chars isDigitChar lo (some hi)

section Patterns

variable (isAlnum : Char → Bool)

/-- The class `\w`. -/
def isWordChar (c : Char) : Bool := isWord (fun c => isAlnum c || isDigitChar c) c

/-- `_EMAIL_PATTERN` -/
def emailPattern : Regex :=
  .boundary (isWordChar isAlnum) ++ .chars isLocalChar 1 none ++ .lit '@' ++
    .chars isDomainChar 1 none ++ .lit '.' ++ .chars isLetterChar 2 none ++
    .boundary (isWordChar isAlnum)

/-- `_PHONE_PATTERN` -/
def phonePattern : Regex :=
  .notBehind (isWordChar isAlnum) ++
    .opt (.lit '+' ++ digitsBetween 1 3 ++ .one isPhoneSeparator) ++
    (.optional (· = '(') ++ digitsBetween 2 4 ++ .optional (· = ')') ++ .one isPhoneSeparator) ++
    digitsBetween 3 4 ++ .one isPhoneSeparator ++ digitsBetween 3 4 ++
    .notAhead (isWordChar isAlnum)

/-- `_SSN_PATTERN` -/
def ssnPattern : Regex :=
  .boundary (isWordChar isAlnum) ++ digitsBetween 3 3 ++ .lit '-' ++ digitsBetween 2 2 ++
    .lit '-' ++ digitsBetween 4 4 ++ .boundary (isWordChar isAlnum)

end Patterns

/-- `_CARD_PATTERN` -/
def cardPattern : Regex :=
  .notBehind isDigitChar ++ .times (.one isDigitChar ++ .optional isCardSeparator) 13 19 ++
    .notAhead isDigitChar

/-! ## The Luhn check -/

def luhnDigit (index digit : ℕ) : ℕ :=
  if index % 2 = 1 then (if 2 * digit > 9 then 2 * digit - 9 else 2 * digit) else digit

def checksum (digits : List ℕ) : ℕ :=
  (digits.reverse.zipIdx.map fun (digit, index) => luhnDigit index digit).sum

/-- 13 to 19 digits that satisfy the Luhn check. -/
def isCard (cs : List Char) : Bool :=
  13 ≤ cs.length ∧ cs.length ≤ 19 ∧ checksum (cs.filterMap digitValue) % 10 = 0

/-- `re.sub(r"[ -]", "", ...)` -/
def cardCandidate (m : List Char) : List Char := m.filter fun c => !isCardSeparator c

def redactedCard : List Char := "[REDACTED_CARD]".toList

/-- `replace_card` -/
def replaceCard (m : List Char) : List Char := if isCard (cardCandidate m) then redactedCard else m

/-! ## The redaction -/

section Redaction

variable (isAlnum : Char → Bool)

def cardRule : Rule := cardPattern.rule replaceCard

/-- The text without e-mail addresses, phone numbers and social security numbers. -/
def redactContacts (s : String) : String :=
  sub ((ssnPattern isAlnum).rule fun _ => "[REDACTED_SSN]".toList)
    (sub ((phonePattern isAlnum).rule fun _ => "[REDACTED_PHONE]".toList)
      (sub ((emailPattern isAlnum).rule fun _ => "[REDACTED_EMAIL]".toList) s))

def redactPiiText (s : String) : String := sub cardRule (redactContacts isAlnum s)

mutual
/-- `redact_pii` -/
def redactPii : Json → Json
  | .obj fields => .obj (redactPiiFields fields)
  | .arr items => .arr (redactPiiItems items)
  | .str s => .str (redactPiiText isAlnum s)
  | .null => .null
  | .bool b => .bool b
  | .int n => .int n
  | .float q => .float q

def redactPiiItems : List Json → List Json
  | [] => []
  | v :: items => redactPii v :: redactPiiItems items

def redactPiiFields : Fields → Fields
  | [] => []
  | (k, v) :: fields => (k, redactPii v) :: redactPiiFields fields
end

end Redaction

/-! ## Runs of digits -/

theorem isDigitChar_iff {c : Char} : isDigitChar c = true ↔
    ∃ z ∈ decimalZeros, z ≤ c.toNat ∧ c.toNat < z + 10 := by
  unfold isDigitChar digitValue
  rw [Option.isSome_map, List.find?_isSome]
  simp

/-- Digits are word characters. -/
theorem isWordChar_of_isDigitChar (isAlnum : Char → Bool) {c : Char} (h : isDigitChar c = true) :
    isWordChar isAlnum c = true := by
  unfold isWordChar isWord
  split_ifs with hascii
  · obtain ⟨z, hz, hle, hlt⟩ := isDigitChar_iff.mp h
    have hzero : z = 48 := by
      by_contra hne
      have hlarge : ∀ z ∈ decimalZeros, z ≠ 48 → 128 ≤ z := by decide
      have := hlarge z hz hne
      omega
    have hdigit : c.isDigit = true := by
      simp only [Char.isDigit, Bool.and_eq_true, decide_eq_true_eq, UInt32.le_iff_toNat_le, ge_iff_le]
      change 48 ≤ c.toNat ∧ c.toNat ≤ 57
      omega
    simp [Char.isAlphanum, hdigit]
  · simp [h]

theorem redactedText_outside : ∀ text ∈ ["[REDACTED_SSN]", "[REDACTED_PHONE]", "[REDACTED_EMAIL]",
    "[REDACTED_CARD]"], text.toList ≠ [] ∧ ∀ c ∈ text.toList, isDigitChar c = false := by
  have hall : ∀ text ∈ ["[REDACTED_SSN]", "[REDACTED_PHONE]", "[REDACTED_EMAIL]", "[REDACTED_CARD]"],
      text.toList ≠ [] ∧ (text.toList.all fun c => !isDigitChar c) = true := by
    decide +kernel
  intro text htext
  obtain ⟨hne, hdigits⟩ := hall text htext
  refine ⟨hne, fun c hc => ?_⟩
  simpa using List.all_eq_true.mp hdigits c hc

section Runs

variable {isAlnum : Char → Bool}

/-- A pattern whose matches lie outside of the runs, and are replaced by a text without digits
or stay. -/
theorem respectsRuns_rule {r : Regex} {replace : List Char → List Char}
    (hstarts : r.StartsOutside isDigitChar) (hends : r.EndsOutside isDigitChar)
    (hreplace : ∀ m, replace m = m ∨ replace m ≠ [] ∧ ∀ c ∈ replace m, isDigitChar c = false) :
    (r.rule replace).RespectsRuns isDigitChar where
  long _ _ _ _ h := (Regex.rule_eq_some h).1
  starts _ _ _ _ h := hstarts _ _ (Regex.rule_eq_some h).2.2
  stops _ _ _ _ h := hends _ _ (Regex.rule_eq_some h).2.2
  text _ _ _ _ h := (Regex.rule_eq_some h).2.1 ▸ hreplace _

theorem emailRule_respectsRuns :
    ((emailPattern isAlnum).rule fun _ => "[REDACTED_EMAIL]".toList).RespectsRuns isDigitChar := by
  have hword : ∀ c, isDigitChar c = true → isWordChar isAlnum c = true := fun _ =>
    isWordChar_of_isDigitChar isAlnum
  apply respectsRuns_rule
  · exact (Regex.startsOutside_boundary hword).append.append.append.append.append.append
  · exact (Regex.endsOutside_boundary hword).append
  · exact fun _ => .inr (redactedText_outside _ (by simp))

theorem phoneRule_respectsRuns :
    ((phonePattern isAlnum).rule fun _ => "[REDACTED_PHONE]".toList).RespectsRuns isDigitChar := by
  have hword : ∀ c, isDigitChar c = true → isWordChar isAlnum c = true := fun _ =>
    isWordChar_of_isDigitChar isAlnum
  apply respectsRuns_rule
  · exact (Regex.startsOutside_notBehind hword).append.append.append.append.append.append
  · exact (Regex.endsOutside_notAhead hword).append
  · exact fun _ => .inr (redactedText_outside _ (by simp))

theorem ssnRule_respectsRuns :
    ((ssnPattern isAlnum).rule fun _ => "[REDACTED_SSN]".toList).RespectsRuns isDigitChar := by
  have hword : ∀ c, isDigitChar c = true → isWordChar isAlnum c = true := fun _ =>
    isWordChar_of_isDigitChar isAlnum
  apply respectsRuns_rule
  · exact (Regex.startsOutside_boundary hword).append.append.append.append.append.append
  · exact (Regex.endsOutside_boundary hword).append
  · exact fun _ => .inr (redactedText_outside _ (by simp))

theorem cardRule_respectsRuns : cardRule.RespectsRuns isDigitChar := by
  apply respectsRuns_rule
  · exact (Regex.startsOutside_notBehind fun _ h => h).append.append
  · exact (Regex.endsOutside_notAhead fun _ h => h).append
  · intro m
    unfold replaceCard
    split_ifs
    · exact .inr (redactedText_outside _ (by simp))
    · exact .inl rfl

theorem isRun_of_redactContacts {run : List Char} {s : String}
    (h : IsRun isDigitChar run (redactContacts isAlnum s).toList) :
    IsRun isDigitChar run s.toList :=
  isRun_of_sub emailRule_respectsRuns (isRun_of_sub phoneRule_respectsRuns
    (isRun_of_sub ssnRule_respectsRuns h))

end Runs

/-! ## Matches of the card pattern -/

/-- One digit of a card number. -/
def cardDigit : Regex := .one isDigitChar ++ .optional isCardSeparator

theorem cardDigit_takes {before : Option Char} {c : Char} {cs : List Char}
    (hc : isDigitChar c = true) : (⟨some c, cs⟩ : Place) ∈ cardDigit.ways ⟨before, c :: cs⟩ := by
  refine Regex.mem_ways_seq.mpr ⟨⟨some c, cs⟩, ?_, ?_⟩
  · refine Regex.mem_ways_chars.mpr ⟨1, le_refl 1, by simp, ?_, rfl⟩
    simp [List.takeWhile_cons_of_pos hc]
  · exact Regex.mem_ways_chars.mpr ⟨0, le_refl 0, by simp, Nat.zero_le _, rfl⟩

theorem cardDigits_take {run cs : List Char} (hrun : ∀ c ∈ run, isDigitChar c = true)
    {lo hi : ℕ} (hlo : lo ≤ run.length) (hhi : run.length ≤ hi) (before : Option Char) :
    (⟨run.getLast?.or before, cs⟩ : Place) ∈ repeated cardDigit.ways hi lo ⟨before, run ++ cs⟩ := by
  induction run generalizing lo hi before with
  | nil =>
      obtain rfl : lo = 0 := Nat.le_zero.mp hlo
      cases hi with
      | zero => exact mem_repeated_zero.mpr ⟨rfl, rfl⟩
      | succ hi => exact mem_repeated_succ.mpr (.inr ⟨rfl, rfl⟩)
  | cons c run ih =>
      rw [List.length_cons] at hlo hhi
      obtain ⟨hi, rfl⟩ : ∃ k, hi = k + 1 := ⟨hi - 1, by omega⟩
      refine mem_repeated_succ.mpr (.inl ⟨_, cardDigit_takes (hrun c List.mem_cons_self), ?_⟩)
      have hlo' : lo - 1 ≤ run.length := by omega
      have hrest := ih (fun d hd => hrun d (List.mem_cons_of_mem c hd)) hlo'
        (Nat.le_of_succ_le_succ hhi) (some c)
      rw [List.getLast?_cons]
      cases hlast : run.getLast? with
      | none => simpa [hlast] using hrest
      | some d => simpa [hlast] using hrest

/-- The pattern does not pass by a card number. -/
theorem cardRule_ne_none {before : Option Char} {run cs : List Char} (hcard : isCard run = true)
    (hrun : ∀ c ∈ run, isDigitChar c = true) (hbefore : before.any isDigitChar = false)
    (hafter : cs.head?.any isDigitChar = false) : cardRule before (run ++ cs) ≠ none := by
  obtain ⟨hlo, hhi, -⟩ : 13 ≤ run.length ∧ run.length ≤ 19 ∧
      checksum (run.filterMap digitValue) % 10 = 0 := by simpa [isCard] using hcard
  refine Regex.rule_isSome (by decide) (List.ne_nil_of_mem (a := ⟨run.getLast?.or before, cs⟩) ?_)
  refine Regex.mem_ways_seq.mpr ⟨⟨run.getLast?.or before, cs⟩, ?_, ?_⟩
  · refine Regex.mem_ways_seq.mpr ⟨⟨before, run ++ cs⟩, ?_, cardDigits_take hrun hlo hhi before⟩
    exact Regex.mem_ways_notBehind.mpr ⟨hbefore, rfl⟩
  · exact Regex.mem_ways_notAhead.mpr ⟨hafter, rfl⟩

theorem cardRule_accepts (before : Option Char) (cs : List Char) (n : ℕ) (text : List Char)
    (h : cardRule before cs = some (n, text)) :
    if isCard (cardCandidate (cs.take (n + 1))) then
      text ≠ [] ∧ ∀ c ∈ text, isDigitChar c = false
    else text = cs.take (n + 1) := by
  obtain ⟨-, rfl, -⟩ := Regex.rule_eq_some h
  unfold replaceCard
  split_ifs
  · exact redactedText_outside _ (by simp)
  · rfl

/-- The matches of the card pattern, from left to right. -/
def cardMatches (s : String) : List (List Char) := allMatches cardRule 0 none s.toList

/-- A card number is left exactly where it lies in a match that fails the check. -/
theorem isRun_sub_cardRule_iff {run : List Char} (hcard : isCard run = true) (s : String) :
    IsRun isDigitChar run (sub cardRule s).toList ↔
      ∃ m ∈ cardMatches s, isCard (cardCandidate m) = false ∧ IsRun isDigitChar run m := by
  have hsought : ∀ before run cs, (fun run => isCard run = true) run → run ≠ [] →
      (∀ c ∈ run, isDigitChar c = true) → before.any isDigitChar = false →
        cs.head?.any isDigitChar = false → cardRule before (run ++ cs) ≠ none :=
    fun before run cs hcard _ hrun hbefore hafter => cardRule_ne_none hcard hrun hbefore hafter
  rw [sub, String.toList_ofList, ← mem_runs, runs,
    mem_runsFrom_replaceAll_iff cardRule_respectsRuns (fun m => isCard (cardCandidate m)) hsought
      cardRule_accepts hcard none s.toList
      (by simp) (by simp) (by simp) (fun _ hinside => by cases hinside.1)]
  simp only [mem_runs]
  rfl

/-- Every card number of a text is redacted exactly when each match of the card pattern that
contains one, among what the patterns before it have left, satisfies the check as a whole. -/
theorem cards_redacted_iff (isAlnum : Char → Bool) (s : String) :
    (∀ run, IsRun isDigitChar run s.toList → isCard run = true →
      ¬IsRun isDigitChar run (redactPiiText isAlnum s).toList) ↔
    ∀ m ∈ cardMatches (redactContacts isAlnum s),
      (∃ run, IsRun isDigitChar run m ∧ isCard run = true) → isCard (cardCandidate m) = true := by
  constructor
  · rintro hall m hm ⟨run, hrun, hcard⟩
    by_contra hfails
    have hleft : IsRun isDigitChar run (redactPiiText isAlnum s).toList :=
      (isRun_sub_cardRule_iff hcard _).mpr ⟨m, hm, by simpa using hfails, hrun⟩
    have hcontacts := isRun_of_sub cardRule_respectsRuns hleft
    exact hall run (isRun_of_redactContacts hcontacts) hcard hleft
  · intro hmatches run _ hcard hleft
    obtain ⟨m, hm, hfails, hrun⟩ := (isRun_sub_cardRule_iff hcard _).mp hleft
    rw [hmatches m hm ⟨run, hrun, hcard⟩] at hfails
    cases hfails

/-- A card number in front of two more digits. -/
theorem card_survives :
    let text := "card 4111111111111111 12"
    isCard "4111111111111111".toList = true ∧
      IsRun isDigitChar "4111111111111111".toList text.toList ∧
      IsRun isDigitChar "4111111111111111".toList (redactPiiText (fun _ => false) text).toList := by
  have hsame : redactPiiText (fun _ => false) "card 4111111111111111 12" =
      "card 4111111111111111 12" := by decide +kernel
  have hrun : "4111111111111111".toList ∈ runs isDigitChar "card 4111111111111111 12".toList := by
    decide +kernel
  intro text
  refine ⟨by decide +kernel, mem_runs.mp hrun, ?_⟩
  rw [hsame]
  exact mem_runs.mp hrun

end Zyntry
