import Zyntry.TextOutlines

/-!
# Redacted values

Two values that differ in their secrets only have one outline: the values under secret keys are
left out of it, and every text stands for its outline. What redaction leaves of a value is what it
leaves of the outline, unless a text has a key that is not taken as a whole.
-/

namespace Zyntry

open Python

/-! ## Values -/

structure Date where
  year : ℕ
  month : ℕ
  day : ℕ
deriving DecidableEq

/-- The offset from UTC is in microseconds. -/
structure DateTime extends Date where
  hour : ℕ
  minute : ℕ
  second : ℕ
  microsecond : ℕ
  utcoffset : Option ℤ
deriving DecidableEq

/-- A value of Python with texts in `S`. The keys of dictionaries are in `K`, decimals in `D`, and
values of other classes in `A`. -/
inductive Value (K A D S : Type) where
  | dict (entries : List (K × Value K A D S))
  | list (items : List (Value K A D S))
  | tuple (items : List (Value K A D S))
  | datetime (t : DateTime)
  | date (d : Date)
  | uuid (n : ℕ)
  | decimal (d : D)
  | enum (value : Value K A D S)
  | str (s : S)
  | other (a : A)

/-- A number with leading zeros. -/
def padded (width n : ℕ) : List Char :=
  (List.range width).map fun i => Nat.digitChar (n / 10 ^ (width - 1 - i) % 10)

def Date.iso (d : Date) : List Char :=
  padded 4 d.year ++ '-' :: padded 2 d.month ++ '-' :: padded 2 d.day

/-- The hours, minutes, seconds and microseconds of an offset; the last two only as needed. -/
def offsetText (offset : ℤ) : List Char :=
  let n := offset.natAbs
  let microseconds := n % 1000000
  let seconds := n / 1000000 % 60
  (if offset < 0 then '-' else '+') :: padded 2 (n / 3600000000) ++
    ':' :: padded 2 (n / 60000000 % 60) ++
    (if seconds = 0 ∧ microseconds = 0 then [] else ':' :: padded 2 seconds) ++
    if microseconds = 0 then [] else '.' :: padded 6 microseconds

/-- `isoformat()`. -/
def Date.isoformat (d : Date) : String := String.ofList d.iso

def DateTime.isoformat (t : DateTime) : String :=
  String.ofList (t.iso ++ 'T' :: padded 2 t.hour ++ ':' :: padded 2 t.minute ++
    ':' :: padded 2 t.second ++
    (if t.microsecond = 0 then [] else '.' :: padded 6 t.microsecond) ++
    (t.utcoffset.map offsetText).getD [])

section

variable {K A D S : Type} (keyText : K → String) (float : D → A) (text : S → String)

mutual
/-- `redact_sensitive`, where `text` is what it makes of a text. -/
def redactValue : Value K A D S → Value K A D String
  | .dict entries => .dict (redactEntries entries)
  | .list items => .list (redactListItems items)
  | .tuple items => .list (redactListItems items)
  | .datetime t => .str t.isoformat
  | .date d => .str d.isoformat
  | .uuid n => .str (uuidText n)
  | .decimal d => .other (float d)
  | .enum value => redactValue value
  | .str s => .str (text s)
  | .other a => .other a

def redactListItems : List (Value K A D S) → List (Value K A D String)
  | [] => []
  | v :: items => redactValue v :: redactListItems items

def redactEntries : List (K × Value K A D S) → List (K × Value K A D String)
  | [] => []
  | (k, v) :: entries =>
      (k, if isSecretKey (keyText k) then .str "[REDACTED]" else redactValue v) ::
        redactEntries entries
end

mutual
/-- The texts of a value, without those under secret keys. -/
def texts : Value K A D S → List S
  | .dict entries => entryTexts entries
  | .list items => itemTexts items
  | .tuple items => itemTexts items
  | .enum value => texts value
  | .str s => [s]
  | .datetime _ => []
  | .date _ => []
  | .uuid _ => []
  | .decimal _ => []
  | .other _ => []

def itemTexts : List (Value K A D S) → List S
  | [] => []
  | v :: items => texts v ++ itemTexts items

def entryTexts : List (K × Value K A D S) → List S
  | [] => []
  | (k, v) :: entries =>
      (if isSecretKey (keyText k) then [] else texts v) ++ entryTexts entries
end

end

section

variable {K A D : Type} (isAlnum : Char → Bool) (keyText : K → String) (float : D → A)

/-- `redact_sensitive`. -/
def redactSensitiveValue (v : Value K A D String) : Value K A D String :=
  redactValue keyText float (redactText isAlnum) v

mutual
/-- A value without its secrets. -/
def outlineValue : Value K A D String → Value K A D (List Piece)
  | .dict entries => .dict (outlineEntries entries)
  | .list items => .list (outlineItems items)
  | .tuple items => .tuple (outlineItems items)
  | .datetime t => .datetime t
  | .date d => .date d
  | .uuid n => .uuid n
  | .decimal d => .decimal d
  | .enum value => .enum (outlineValue value)
  | .str s => .str (outline isAlnum s)
  | .other a => .other a

def outlineItems : List (Value K A D String) → List (Value K A D (List Piece))
  | [] => []
  | v :: items => outlineValue v :: outlineItems items

def outlineEntries : List (K × Value K A D String) → List (K × Value K A D (List Piece))
  | [] => []
  | (k, v) :: entries =>
      (k, if isSecretKey (keyText k) then .str [] else outlineValue v) :: outlineEntries entries
end

/-! ## What is left of an outline -/

variable {isAlnum keyText float} {cs : List Char}

mutual
/-- A value whose keys are taken as a whole leaves what its outline leaves. -/
theorem redactValue_of_whole : ∀ v : Value K A D String,
    (∀ s ∈ texts keyText v, Whole isAlnum s) →
      redactValue keyText float (redactText isAlnum) v =
        redactValue keyText float shownText (outlineValue isAlnum keyText v)
  | .dict entries, h => by
      rw [texts] at h
      rw [redactValue, outlineValue, redactValue, redactEntries_of_whole entries h]
  | .list items, h => by
      rw [texts] at h
      rw [redactValue, outlineValue, redactValue, redactListItems_of_whole items h]
  | .tuple items, h => by
      rw [texts] at h
      rw [redactValue, outlineValue, redactValue, redactListItems_of_whole items h]
  | .enum value, h => by
      rw [texts] at h
      rw [redactValue, outlineValue, redactValue, redactValue_of_whole value h]
  | .str s, h => by
      rw [texts] at h
      rw [redactValue, outlineValue, redactValue, redactText_of_whole (h s List.mem_cons_self)]
  | .datetime _, _ => by rw [redactValue, outlineValue, redactValue]
  | .date _, _ => by rw [redactValue, outlineValue, redactValue]
  | .uuid _, _ => by rw [redactValue, outlineValue, redactValue]
  | .decimal _, _ => by rw [redactValue, outlineValue, redactValue]
  | .other _, _ => by rw [redactValue, outlineValue, redactValue]

theorem redactListItems_of_whole : ∀ items : List (Value K A D String),
    (∀ s ∈ itemTexts keyText items, Whole isAlnum s) →
      redactListItems keyText float (redactText isAlnum) items =
        redactListItems keyText float shownText (outlineItems isAlnum keyText items)
  | [], _ => by rw [redactListItems, outlineItems, redactListItems]
  | v :: items, h => by
      rw [itemTexts] at h
      rw [redactListItems, outlineItems, redactListItems,
        redactValue_of_whole v fun s hs => h s (List.mem_append_left _ hs),
        redactListItems_of_whole items fun s hs => h s (List.mem_append_right _ hs)]

theorem redactEntries_of_whole : ∀ entries : List (K × Value K A D String),
    (∀ s ∈ entryTexts keyText entries, Whole isAlnum s) →
      redactEntries keyText float (redactText isAlnum) entries =
        redactEntries keyText float shownText (outlineEntries isAlnum keyText entries)
  | [] => by
      intro _
      rw [redactEntries, outlineEntries, redactEntries]
  | (k, v) :: entries => by
      intro h
      rw [entryTexts] at h
      rw [redactEntries, outlineEntries, redactEntries,
        redactEntries_of_whole entries fun s hs => h s (List.mem_append_right _ hs)]
      by_cases hsecret : isSecretKey (keyText k) = true
      · rw [if_pos hsecret, if_pos hsecret]
      · rw [if_neg hsecret] at h
        rw [if_neg hsecret, if_neg hsecret, if_neg hsecret,
          redactValue_of_whole v fun s hs => h s (List.mem_append_left _ hs)]
end

/-! ## Redaction again -/

/-- The schemes of headers have other letters, and so have the starts of keys. -/
def PlainChar (c : Char) : Prop := fold c ≠ 'r' ∧ c ≠ 's'

instance : DecidablePred PlainChar := fun _ => inferInstanceAs (Decidable (_ ∧ _))

theorem redactText_ofList (h : ∀ c ∈ cs, PlainChar c) :
    redactText isAlnum (String.ofList cs) = String.ofList cs := by
  rw [redactText_eq_self_iff, String.toList_ofList, occurs_eq_false_iff, occurs_eq_false_iff]
  refine ⟨?_, silent_key_of_forall_ne (fun c hc => (h c hc).2) []⟩
  intro u c w hsplit
  rw [bearerRule_eq_none_iff, List.append_nil]
  by_contra hne
  obtain ⟨piece, hpiece⟩ := Option.ne_none_iff_exists'.mp hne
  obtain ⟨-, scheme, space, token, padding, rest, hheader, hcs, -⟩ := exists_isHeader hpiece
  have hletter : 'r' ∈ scheme.map fold := by
    rw [hheader.scheme_fold]
    decide
  obtain ⟨d, hd, hfold⟩ := List.mem_map.mp hletter
  refine (h d ?_).1 hfold
  rw [hsplit, hcs]
  simp [hd]

theorem digitChar_mod (n : ℕ) : PlainChar (Nat.digitChar (n % 16)) := by
  have hlt : n % 16 < 16 := Nat.mod_lt n (by omega)
  have hall : ∀ k < 16, PlainChar (Nat.digitChar k) := by decide
  exact hall _ hlt

theorem mem_padded {width n : ℕ} {c : Char} (h : c ∈ padded width n) : PlainChar c := by
  obtain ⟨i, -, rfl⟩ := List.mem_map.mp h
  have hdigit := digitChar_mod (n / 10 ^ (width - 1 - i) % 10)
  rwa [Nat.mod_eq_of_lt (by omega)] at hdigit

theorem mem_iso (d : Date) : ∀ c ∈ d.iso, PlainChar c := by
  simp only [Date.iso, List.forall_mem_append, List.forall_mem_cons, and_assoc]
  exact ⟨fun _ => mem_padded, by decide, fun _ => mem_padded, by decide, fun _ => mem_padded⟩

theorem mem_offsetText (offset : ℤ) : ∀ c ∈ offsetText offset, PlainChar c := by
  simp only [offsetText, List.forall_mem_append, List.forall_mem_cons, List.cons_append]
  refine ⟨?_, ⟨⟨fun _ => mem_padded, by decide, fun _ => mem_padded⟩, ?_⟩, ?_⟩
  · split_ifs <;> decide
  · split_ifs
    · simp
    · exact List.forall_mem_cons.mpr ⟨by decide, fun _ => mem_padded⟩
  · split_ifs
    · simp
    · exact List.forall_mem_cons.mpr ⟨by decide, fun _ => mem_padded⟩

theorem redactText_date (d : Date) : redactText isAlnum d.isoformat = d.isoformat :=
  redactText_ofList (mem_iso d)

theorem redactText_datetime (t : DateTime) : redactText isAlnum t.isoformat = t.isoformat := by
  apply redactText_ofList
  simp only [List.forall_mem_append, List.forall_mem_cons, and_assoc]
  refine ⟨mem_iso _, by decide, fun _ => mem_padded, by decide, fun _ => mem_padded, by decide,
    fun _ => mem_padded, ?_, ?_⟩
  · split_ifs
    · simp
    · exact List.forall_mem_cons.mpr ⟨by decide, fun _ => mem_padded⟩
  · cases t.utcoffset with
    | none => simp
    | some offset => exact mem_offsetText offset

theorem redactText_uuidText (n : ℕ) : redactText isAlnum (uuidText n) = uuidText n := by
  have hdigits : ∀ c ∈ (List.range 32).map (fun i => Nat.digitChar (n / 16 ^ (31 - i) % 16)),
      PlainChar c := by
    intro c hc
    obtain ⟨i, -, rfl⟩ := List.mem_map.mp hc
    exact digitChar_mod _
  apply redactText_ofList
  simp only [List.forall_mem_append, List.forall_mem_cons, and_assoc]
  have hgroup : ∀ start length : ℕ, ∀ c ∈ (((List.range 32).map
      fun i => Nat.digitChar (n / 16 ^ (31 - i) % 16)).drop start).take length,
      PlainChar c := fun _ _ c hc =>
    hdigits c (List.mem_of_mem_drop (List.mem_of_mem_take hc))
  exact ⟨hgroup 0 8, by decide, hgroup 8 4, by decide, hgroup 12 4, by decide, hgroup 16 4,
    by decide, hgroup 20 12⟩

mutual
theorem redactValue_redactValue : ∀ v : Value K A D String,
    redactValue keyText float (redactText isAlnum)
        (redactValue keyText float (redactText isAlnum) v) =
      redactValue keyText float (redactText isAlnum) v
  | .dict entries => by
      rw [redactValue, redactValue, redactEntries_redactEntries entries]
  | .list items => by rw [redactValue, redactValue, redactListItems_redactListItems items]
  | .tuple items => by rw [redactValue, redactValue, redactListItems_redactListItems items]
  | .enum value => by rw [redactValue, redactValue_redactValue value]
  | .str s => by rw [redactValue, redactValue, redactText_redactText]
  | .datetime t => by rw [redactValue, redactValue, redactText_datetime]
  | .date d => by rw [redactValue, redactValue, redactText_date]
  | .uuid n => by rw [redactValue, redactValue, redactText_uuidText]
  | .decimal d => by rw [redactValue, redactValue]
  | .other a => by rw [redactValue, redactValue]

theorem redactListItems_redactListItems : ∀ items : List (Value K A D String),
    redactListItems keyText float (redactText isAlnum)
        (redactListItems keyText float (redactText isAlnum) items) =
      redactListItems keyText float (redactText isAlnum) items
  | [] => by rw [redactListItems, redactListItems]
  | v :: items => by
      rw [redactListItems, redactListItems, redactValue_redactValue v,
        redactListItems_redactListItems items]

theorem redactEntries_redactEntries : ∀ entries : List (K × Value K A D String),
    redactEntries keyText float (redactText isAlnum)
        (redactEntries keyText float (redactText isAlnum) entries) =
      redactEntries keyText float (redactText isAlnum) entries
  | [] => by rw [redactEntries, redactEntries]
  | (k, v) :: entries => by
      rw [redactEntries, redactEntries, redactEntries_redactEntries entries]
      by_cases hsecret : isSecretKey (keyText k) = true
      · rw [if_pos hsecret, if_pos hsecret]
      · rw [if_neg hsecret, if_neg hsecret, redactValue_redactValue v]
end

/-! ## A key in another place of the value -/

mutual
/-- Of a value with a key, some value that differs in it only leaves something else. -/
theorem exists_redactValue_ne : ∀ v : Value K A D String,
    (¬∀ s ∈ texts keyText v, KeyFree isAlnum s) → ∃ v',
      outlineValue isAlnum keyText v' = outlineValue isAlnum keyText v ∧
        redactValue keyText float (redactText isAlnum) v' ≠
          redactValue keyText float (redactText isAlnum) v
  | .dict entries => by
      intro h
      rw [texts] at h
      obtain ⟨entries', houtline, hne⟩ := exists_redactEntries_ne entries h
      refine ⟨.dict entries', by rw [outlineValue, outlineValue, houtline], ?_⟩
      rw [redactValue, redactValue]
      exact fun heq => hne (Value.dict.inj heq)
  | .list items => by
      intro h
      rw [texts] at h
      obtain ⟨items', houtline, hne⟩ := exists_redactListItems_ne items h
      refine ⟨.list items', by rw [outlineValue, outlineValue, houtline], ?_⟩
      rw [redactValue, redactValue]
      exact fun heq => hne (Value.list.inj heq)
  | .tuple items => by
      intro h
      rw [texts] at h
      obtain ⟨items', houtline, hne⟩ := exists_redactListItems_ne items h
      refine ⟨.tuple items', by rw [outlineValue, outlineValue, houtline], ?_⟩
      rw [redactValue, redactValue]
      exact fun heq => hne (Value.list.inj heq)
  | .enum value => by
      intro h
      rw [texts] at h
      obtain ⟨value', houtline, hne⟩ := exists_redactValue_ne value h
      exact ⟨.enum value', by rw [outlineValue, outlineValue, houtline],
        by rwa [redactValue, redactValue]⟩
  | .str s => by
      intro h
      rw [texts, List.forall_mem_singleton] at h
      obtain ⟨s', houtline, hne⟩ := exists_redactText_ne h
      refine ⟨.str s', by rw [outlineValue, outlineValue, houtline], ?_⟩
      rw [redactValue, redactValue]
      exact fun heq => hne (Value.str.inj heq)
  | .datetime t => fun h => absurd (by simp [texts]) h
  | .date d => fun h => absurd (by simp [texts]) h
  | .uuid n => fun h => absurd (by simp [texts]) h
  | .decimal d => fun h => absurd (by simp [texts]) h
  | .other a => fun h => absurd (by simp [texts]) h

theorem exists_redactListItems_ne : ∀ items : List (Value K A D String),
    (¬∀ s ∈ itemTexts keyText items, KeyFree isAlnum s) → ∃ items',
      outlineItems isAlnum keyText items' = outlineItems isAlnum keyText items ∧
        redactListItems keyText float (redactText isAlnum) items' ≠
          redactListItems keyText float (redactText isAlnum) items
  | [] => fun h => absurd (by simp [itemTexts]) h
  | v :: items => by
      intro h
      rw [itemTexts, List.forall_mem_append, not_and_or] at h
      obtain hv | hitems := h
      · obtain ⟨v', houtline, hne⟩ := exists_redactValue_ne v hv
        refine ⟨v' :: items, by rw [outlineItems, outlineItems, houtline], ?_⟩
        rw [redactListItems, redactListItems]
        exact fun heq => hne (List.cons.inj heq).1
      · obtain ⟨items', houtline, hne⟩ := exists_redactListItems_ne items hitems
        refine ⟨v :: items', by rw [outlineItems, outlineItems, houtline], ?_⟩
        rw [redactListItems, redactListItems]
        exact fun heq => hne (List.cons.inj heq).2

theorem exists_redactEntries_ne : ∀ entries : List (K × Value K A D String),
    (¬∀ s ∈ entryTexts keyText entries, KeyFree isAlnum s) → ∃ entries',
      outlineEntries isAlnum keyText entries' = outlineEntries isAlnum keyText entries ∧
        redactEntries keyText float (redactText isAlnum) entries' ≠
          redactEntries keyText float (redactText isAlnum) entries
  | [] => fun h => absurd (by simp [entryTexts]) h
  | (k, v) :: entries => by
      intro h
      rw [entryTexts, List.forall_mem_append, not_and_or] at h
      obtain hv | hentries := h
      · by_cases hsecret : isSecretKey (keyText k) = true
        · rw [if_pos hsecret] at hv
          exact absurd (by simp) hv
        · rw [if_neg hsecret] at hv
          obtain ⟨v', houtline, hne⟩ := exists_redactValue_ne v hv
          refine ⟨(k, v') :: entries, by rw [outlineEntries, outlineEntries, houtline], ?_⟩
          rw [redactEntries, redactEntries, if_neg hsecret, if_neg hsecret]
          exact fun heq => hne (Prod.mk.inj (List.cons.inj heq).1).2
      · obtain ⟨entries', houtline, hne⟩ := exists_redactEntries_ne entries hentries
        refine ⟨(k, v) :: entries', by rw [outlineEntries, outlineEntries, houtline], ?_⟩
        rw [redactEntries, redactEntries]
        exact fun heq => hne (List.cons.inj heq).2
end

mutual
theorem texts_outlineValue : ∀ v : Value K A D String,
    texts keyText (outlineValue isAlnum keyText v) = (texts keyText v).map (outline isAlnum)
  | .dict entries => by rw [outlineValue, texts, texts, entryTexts_outlineEntries entries]
  | .list items => by rw [outlineValue, texts, texts, itemTexts_outlineItems items]
  | .tuple items => by rw [outlineValue, texts, texts, itemTexts_outlineItems items]
  | .enum value => by rw [outlineValue, texts, texts, texts_outlineValue value]
  | .str s => by rw [outlineValue, texts, texts, List.map_singleton]
  | .datetime t => by rw [outlineValue, texts, texts, List.map_nil]
  | .date d => by rw [outlineValue, texts, texts, List.map_nil]
  | .uuid n => by rw [outlineValue, texts, texts, List.map_nil]
  | .decimal d => by rw [outlineValue, texts, texts, List.map_nil]
  | .other a => by rw [outlineValue, texts, texts, List.map_nil]

theorem itemTexts_outlineItems : ∀ items : List (Value K A D String),
    itemTexts keyText (outlineItems isAlnum keyText items) =
      (itemTexts keyText items).map (outline isAlnum)
  | [] => by rw [outlineItems, itemTexts, itemTexts, List.map_nil]
  | v :: items => by
      rw [outlineItems, itemTexts, itemTexts, List.map_append, texts_outlineValue v,
        itemTexts_outlineItems items]

theorem entryTexts_outlineEntries : ∀ entries : List (K × Value K A D String),
    entryTexts keyText (outlineEntries isAlnum keyText entries) =
      (entryTexts keyText entries).map (outline isAlnum)
  | [] => by rw [outlineEntries, entryTexts, entryTexts, List.map_nil]
  | (k, v) :: entries => by
      rw [outlineEntries, entryTexts, entryTexts, List.map_append,
        entryTexts_outlineEntries entries]
      by_cases hsecret : isSecretKey (keyText k) = true
      · rw [if_pos hsecret, if_pos hsecret, List.map_nil]
      · rw [if_neg hsecret, if_neg hsecret, if_neg hsecret, texts_outlineValue v]
end

theorem forall_keyFree_iff (v : Value K A D String) : (∀ s ∈ texts keyText v, KeyFree isAlnum s) ↔
    ∀ ps ∈ texts keyText (outlineValue isAlnum keyText v), ∀ p ∈ ps, p.isKey = false := by
  simp only [texts_outlineValue, List.forall_mem_map, keyFree_iff]

end

/-! ## Redaction hides credentials -/

/-- The values that differ from a value in its secrets only leave the same exactly if it has no
key. Two of them leave the same if their keys are taken as a whole. -/
theorem redactSensitiveValue_hides_iff {K A D : Type} (isAlnum : Char → Bool) (keyText : K → String)
    (float : D → A) (v : Value K A D String) :
    ((∀ v', outlineValue isAlnum keyText v' = outlineValue isAlnum keyText v →
        redactSensitiveValue isAlnum keyText float v' =
          redactSensitiveValue isAlnum keyText float v) ↔
      ∀ s ∈ texts keyText v, KeyFree isAlnum s) ∧
    (∀ v', outlineValue isAlnum keyText v' = outlineValue isAlnum keyText v →
      (∀ s ∈ texts keyText v, Whole isAlnum s) → (∀ s ∈ texts keyText v', Whole isAlnum s) →
        redactSensitiveValue isAlnum keyText float v' =
          redactSensitiveValue isAlnum keyText float v) ∧
    redactSensitiveValue isAlnum keyText float (redactSensitiveValue isAlnum keyText float v) =
      redactSensitiveValue isAlnum keyText float v := by
  have hwhole : ∀ v', outlineValue isAlnum keyText v' = outlineValue isAlnum keyText v →
      (∀ s ∈ texts keyText v, Whole isAlnum s) → (∀ s ∈ texts keyText v', Whole isAlnum s) →
        redactSensitiveValue isAlnum keyText float v' =
          redactSensitiveValue isAlnum keyText float v := by
    intro v' houtline hv hv'
    unfold redactSensitiveValue
    rw [redactValue_of_whole v hv, redactValue_of_whole v' hv', houtline]
  refine ⟨⟨?_, ?_⟩, hwhole, redactValue_redactValue v⟩
  · intro hsame
    by_contra hkeys
    obtain ⟨v', houtline, hne⟩ : ∃ v', outlineValue isAlnum keyText v' =
        outlineValue isAlnum keyText v ∧ redactValue keyText float (redactText isAlnum) v' ≠
          redactValue keyText float (redactText isAlnum) v := exists_redactValue_ne v hkeys
    exact hne (hsame v' houtline)
  · intro hfree v' houtline
    have hfree' : ∀ s ∈ texts keyText v', KeyFree isAlnum s := by
      rwa [forall_keyFree_iff, houtline, ← forall_keyFree_iff]
    exact hwhole v' houtline (fun s hs => (hfree s hs).whole) fun s hs => (hfree' s hs).whole

/-- A key may end with a hyphen, which no boundary follows. -/
theorem redactSensitiveValue_not_hides : ∃ v v' : Value String Unit Unit String,
    outlineValue (fun _ => false) id v' = outlineValue (fun _ => false) id v ∧
      redactSensitiveValue (fun _ => false) id id v' ≠
        redactSensitiveValue (fun _ => false) id id v := by
  refine ⟨.str "sk_live_abc-", .str "sk_live_abcd", ?_, ?_⟩
  · rw [outlineValue, outlineValue]
    exact congrArg Value.str (by decide)
  · unfold redactSensitiveValue
    rw [redactValue, redactValue]
    exact fun heq => absurd (Value.str.inj heq) (by decide)

/-! ## Values of JSON -/

section

variable {D : Type}

mutual
def Value.ofJson : Json → Value String Json D String
  | .obj fields => .dict (Value.ofFields fields)
  | .arr items => .list (Value.ofItems items)
  | .str s => .str s
  | .null => .other .null
  | .bool b => .other (.bool b)
  | .int n => .other (.int n)
  | .float q => .other (.float q)

def Value.ofItems : List Json → List (Value String Json D String)
  | [] => []
  | v :: items => Value.ofJson v :: Value.ofItems items

def Value.ofFields : Fields → List (String × Value String Json D String)
  | [] => []
  | (k, v) :: fields => (k, Value.ofJson v) :: Value.ofFields fields
end

variable (isAlnum : Char → Bool) (float : D → Json)

mutual
/-- On JSON the redaction is that of the records of the assistant. -/
theorem redactValue_ofJson : ∀ v : Json,
    redactValue id float (redactText isAlnum) (Value.ofJson v) =
      Value.ofJson (redactSensitive isAlnum v)
  | .obj fields => by
      rw [Value.ofJson, redactValue, redactEntries_ofFields fields, redactSensitive, Value.ofJson]
  | .arr items => by
      rw [Value.ofJson, redactValue, redactListItems_ofItems items, redactSensitive, Value.ofJson]
  | .str s => by rw [Value.ofJson, redactValue, redactSensitive, Value.ofJson]
  | .null => by rw [Value.ofJson, redactValue, redactSensitive, Value.ofJson]
  | .bool b => by rw [Value.ofJson, redactValue, redactSensitive, Value.ofJson]
  | .int n => by rw [Value.ofJson, redactValue, redactSensitive, Value.ofJson]
  | .float q => by rw [Value.ofJson, redactValue, redactSensitive, Value.ofJson]

theorem redactListItems_ofItems : ∀ items : List Json,
    redactListItems id float (redactText isAlnum) (Value.ofItems items) =
      Value.ofItems (redactSensitiveItems isAlnum items)
  | [] => by rw [Value.ofItems, redactListItems, redactSensitiveItems, Value.ofItems]
  | v :: items => by
      rw [Value.ofItems, redactListItems, redactValue_ofJson v, redactListItems_ofItems items,
        redactSensitiveItems, Value.ofItems]

theorem redactEntries_ofFields : ∀ fields : Fields,
    redactEntries id float (redactText isAlnum) (Value.ofFields fields) =
      Value.ofFields (redactSensitiveFields isAlnum fields)
  | [] => by rw [Value.ofFields, redactEntries, redactSensitiveFields, Value.ofFields]
  | (k, v) :: fields => by
      rw [Value.ofFields, redactEntries, redactEntries_ofFields fields, redactSensitiveFields,
        Value.ofFields, redactValue_ofJson v]
      by_cases hsecret : isSecretKey k = true
      · rw [if_pos hsecret, id, if_pos hsecret, secretMark, Value.ofJson]
      · rw [if_neg hsecret, id, if_neg hsecret]
end

end

end Zyntry
