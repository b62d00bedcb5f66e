import Zyntry.PythonRegex

/-!
# Pieces of a text

A text is cut into pieces by `re.split`, by `str.split` and by slices of its lines, and put
together again by `str.join`. What counts of a text here are its letters: the characters that
are not white space.
-/

namespace Python

def letters (cs : List Char) : List Char := cs.filter fun c => !isSpace c

/-- `sep.join(parts)`. -/
def join (sep : List Char) (parts : List (List Char)) : List Char := sep.intercalate parts

/-- `re.split`, at the matches of a rule. The numbers count the characters that are left of a
match. -/
def splitAll (rule : Rule) : ℕ → Option Char → List Char → List Char → List (List Char)
  | _, _, part, [] => [part]
  | n + 1, _, part, c :: cs => splitAll rule n (some c) part cs
  | 0, before, part, c :: cs =>
      match rule before (c :: cs) with
      | some (n, _) => part :: splitAll rule n (some c) [] cs
      | none => splitAll rule 0 (some c) (part ++ [c]) cs

/-- `xs[start:stop]`. -/
def slice {α : Type*} (xs : List α) (start stop : ℕ) : List α := (xs.take stop).drop start

/-- The text after each newline. -/
def laterLines : List Char → List (List Char)
  | [] => []
  | c :: cs => if c = '\n' then cs :: laterLines cs else laterLines cs

/-- The places at which `^` matches with `re.MULTILINE`. -/
def lineStarts (cs : List Char) : List (List Char) := cs :: laterLines cs

/-- `re.match`: the text that is matched at the start. -/
def Regex.matched (r : Regex) (cs : List Char) : Option (List Char) :=
  (r.ways ⟨none, cs⟩).head?.map fun pl => cs.take (cs.length - pl.rest.length)

/-- The text after the last line feed. -/
def lastLine (cs : List Char) : List Char := cs.rtakeWhile (· ≠ '\n')

/-- The regular expression of a fixed text. -/
def Regex.word : List Char → Regex
  | [] => .chars (fun _ => false) 0 none
  | c :: cs => .lit c ++ Regex.word cs

/-- A fixed text takes itself. -/
theorem Regex.mem_ways_word {w : List Char} {pl pl' : Place} :
    pl' ∈ (Regex.word w).ways pl ↔ pl.Reaches pl' w := by
  induction w generalizing pl with
  | nil =>
      rw [Regex.word, Regex.mem_ways_chars]
      have hrun : pl.rest.takeWhile (fun _ => false) = [] := by cases pl.rest <;> rfl
      constructor
      · rintro ⟨n, -, -, hn, rfl⟩
        rw [hrun] at hn
        obtain rfl := Nat.le_zero.mp hn
        exact pl.reaches_refl
      · rintro ⟨hrest, hbefore⟩
        obtain ⟨before, rest⟩ := pl
        obtain ⟨before', rest'⟩ := pl'
        cases hrest
        cases hbefore
        exact ⟨0, le_rfl, nofun, Nat.zero_le _, rfl⟩
  | cons c w ih =>
      rw [Regex.word, Regex.mem_ways_seq]
      constructor
      · rintro ⟨mid, hmid, hend⟩
        obtain ⟨d, hd, hrest, hbefore⟩ := Regex.mem_ways_one.mp hmid
        obtain rfl : d = c := of_decide_eq_true hd
        have hfirst : pl.Reaches mid [d] := ⟨hrest, hbefore⟩
        exact hfirst.trans (ih.mp hend)
      · rintro ⟨hrest, hbefore⟩
        refine ⟨⟨some c, w ++ pl'.rest⟩, ?_, ih.mpr ⟨rfl, ?_⟩⟩
        · exact Regex.mem_ways_one.mpr ⟨c, decide_eq_true rfl, hrest, rfl⟩
        · rw [hbefore, List.getLast?_cons]
          cases w.getLast? <;> rfl

/-! ## Letters -/

section Letters

variable {sep cs cs' : List Char}

@[simp] theorem letters_nil : letters [] = [] := rfl

theorem letters_append (cs cs' : List Char) : letters (cs ++ cs') = letters cs ++ letters cs' :=
  List.filter_append _ _

theorem letters_eq_nil : letters cs = [] ↔ ∀ c ∈ cs, isSpace c = true := by
  simp [letters]

theorem letters_join (hsep : letters sep = []) (parts : List (List Char)) :
    letters (join sep parts) = parts.flatMap letters := by
  unfold join
  induction parts with
  | nil => rfl
  | cons part parts ih =>
      cases parts with
      | nil => simp
      | cons part' parts =>
          rw [List.intercalate_cons_cons, letters_append, letters_append, hsep, ih,
            List.append_nil]
          exact List.flatMap_cons.symm

theorem letters_dropWhile (cs : List Char) : letters (cs.dropWhile isSpace) = letters cs := by
  induction cs with
  | nil => rfl
  | cons c cs ih =>
      by_cases hc : isSpace c = true
      · rw [List.dropWhile_cons_of_pos hc, ih]
        simp [letters, hc]
      · rw [List.dropWhile_cons_of_neg hc]

theorem head_dropWhile_isSpace (cs : List Char) :
    ∀ c ∈ (cs.dropWhile isSpace).head?, isSpace c = false := by
  intro c hc
  have hnot := List.head?_dropWhile_not isSpace cs
  rwa [Option.mem_def.mp hc] at hnot

theorem head_strip (cs : List Char) : ∀ c ∈ (strip cs).head?, isSpace c = false := by
  have hstrip : (strip cs).dropWhile isSpace = strip cs := dropWhile_trim isSpace cs
  rw [← hstrip]
  exact head_dropWhile_isSpace (strip cs)

theorem last_strip (cs : List Char) : ∀ c ∈ (strip cs).getLast?, isSpace c = false := by
  intro c hc
  obtain ⟨hne, rfl⟩ := List.mem_getLast?_eq_getLast hc
  exact Bool.eq_false_of_not_eq_true (List.rdropWhile_last_not isSpace (cs.dropWhile isSpace) hne)

theorem letters_rdropWhile (cs : List Char) : letters (cs.rdropWhile isSpace) = letters cs := by
  have hreverse (xs : List Char) : letters xs.reverse = (letters xs).reverse :=
    List.filter_reverse
  rw [List.rdropWhile, hreverse, letters_dropWhile, hreverse, List.reverse_reverse]

theorem letters_strip (cs : List Char) : letters (strip cs) = letters cs := by
  rw [strip, letters_rdropWhile, letters_dropWhile]

/-- `not text.strip()`. -/
theorem strip_eq_nil : strip cs = [] ↔ letters cs = [] := by
  constructor
  · intro hstrip
    rw [← letters_strip, hstrip, letters_nil]
  · intro hletters
    unfold strip
    rw [List.rdropWhile_eq_nil_iff]
    intro c hc
    exact letters_eq_nil.mp hletters c ((List.dropWhile_sublist _).mem hc)

theorem strip_ne_nil_of_mem {c : Char} (hc : c ∈ cs) (hspace : isSpace c = false) :
    strip cs ≠ [] := by
  intro hstrip
  rw [letters_eq_nil.mp (strip_eq_nil.mp hstrip) c hc] at hspace
  cases hspace

theorem strip_ne_nil_of_head {c : Char} (hc : isSpace c = false) : strip (c :: cs) ≠ [] :=
  strip_ne_nil_of_mem List.mem_cons_self hc

theorem strip_eq_self (hhead : ∀ c ∈ cs.head?, isSpace c = false)
    (hlast : ∀ c ∈ cs.getLast?, isSpace c = false) : strip cs = cs := by
  have hleft : cs.dropWhile isSpace = cs := by
    cases cs with
    | nil => rfl
    | cons c cs => rw [List.dropWhile_cons, hhead c rfl, if_neg Bool.false_ne_true]
  rw [strip, hleft, List.rdropWhile_eq_self_iff]
  intro hne
  rw [hlast _ (List.getLast?_eq_getLast_of_ne_nil hne)]
  exact Bool.false_ne_true

/-- What stands before a character that is no space is left alone. -/
theorem rdropWhile_append_cons {p : Char → Bool} {c : Char} (hc : p c = false)
    (cs cs' : List Char) : (cs ++ c :: cs').rdropWhile p = cs ++ c :: cs'.rdropWhile p := by
  induction cs' using List.reverseRecOn with
  | nil => rw [List.rdropWhile_nil, List.rdropWhile_concat_neg _ _ _ (by simp [hc])]
  | append_singleton cs' d ih =>
      rw [← List.cons_append, ← List.append_assoc]
      by_cases hd : p d = true
      · rw [List.rdropWhile_concat_pos _ _ _ hd, List.rdropWhile_concat_pos _ _ _ hd, ih]
      · rw [List.rdropWhile_concat_neg _ _ _ hd, List.rdropWhile_concat_neg _ _ _ hd,
          List.append_assoc, List.cons_append]

end Letters

/-! ## Pieces -/

section Pieces

variable {rule : Rule}

/-- Nothing but the matches of the rule is taken out. -/
theorem letters_splitAll
    (hrule : ∀ before cs n text, rule before cs = some (n, text) →
      letters (cs.take (n + 1)) = [])
    (n : ℕ) (before : Option Char) (part cs : List Char) :
    (splitAll rule n before part cs).flatMap letters = letters part ++ letters (cs.drop n) := by
  induction cs generalizing n before part with
  | nil => simp [splitAll]
  | cons c cs ih =>
      cases n with
      | succ n => rw [splitAll, ih, List.drop_succ_cons]
      | zero =>
          unfold splitAll
          cases hmatch : rule before (c :: cs) with
          | none =>
              dsimp only
              rw [ih, List.drop_zero, letters_append, List.append_assoc, ← letters_append,
                List.drop_zero, List.singleton_append]
          | some m =>
              obtain ⟨n, text⟩ := m
              dsimp only
              have htake := hrule before (c :: cs) n text hmatch
              have hsplit : letters (c :: cs) = letters (cs.drop n) := by
                conv_lhs => rw [← List.take_append_drop (n + 1) (c :: cs)]
                rw [letters_append, htake, List.nil_append, List.drop_succ_cons]
              rw [List.flatMap_cons, ih, letters_nil, List.nil_append, List.drop_zero, hsplit]

/-- Every piece is empty or starts with a letter, when every match ends before a letter or at
the end. -/
theorem head_splitAll
    (hrule : ∀ before cs n text, rule before cs = some (n, text) →
      ∀ c ∈ (cs.drop (n + 1)).head?, isSpace c = false)
    (n : ℕ) (before : Option Char) (part cs : List Char)
    (hpart : ∀ c ∈ (part ++ cs.drop n).head?, isSpace c = false) :
    ∀ piece ∈ splitAll rule n before part cs, ∀ c ∈ piece.head?, isSpace c = false := by
  induction cs generalizing n before part with
  | nil =>
      intro piece hpiece
      rw [splitAll, List.mem_singleton] at hpiece
      rw [hpiece]
      simpa using hpart
  | cons c cs ih =>
      cases n with
      | succ n => exact ih n (some c) part hpart
      | zero =>
          unfold splitAll
          rw [List.drop_zero] at hpart
          cases hmatch : rule before (c :: cs) with
          | none =>
              refine ih 0 (some c) (part ++ [c]) ?_
              rwa [List.drop_zero, List.append_assoc, List.singleton_append]
          | some m =>
              obtain ⟨n, text⟩ := m
              dsimp only
              intro piece hpiece
              rcases List.mem_cons.mp hpiece with rfl | hpiece
              · cases piece with
                | nil => simp
                | cons c' piece => exact hpart
              · exact ih n (some c) [] (hrule before (c :: cs) n text hmatch) piece hpiece

theorem letters_lines (cs : List Char) : (cs.splitOn '\n').flatMap letters = letters cs := by
  have hjoin : join ['\n'] (cs.splitOn '\n') = cs := List.intercalate_splitOn '\n'
  conv_rhs => rw [← hjoin]
  exact (letters_join (by decide) _).symm

end Pieces

/-! ## The last line -/

section LastLine

variable {cs : List Char}

theorem notMem_lastLine (cs : List Char) : '\n' ∉ lastLine cs := by
  intro hmem
  rw [lastLine, List.rtakeWhile, List.mem_reverse] at hmem
  exact absurd (List.mem_takeWhile_imp hmem) (by simp)

/-- The last line stands behind a line feed, or it is the whole text. -/
theorem eq_lastLine_or (cs : List Char) :
    lastLine cs = cs ∨ ∃ u, cs = u ++ '\n' :: lastLine cs := by
  have hsplit : cs = cs.rdropWhile (· ≠ '\n') ++ lastLine cs := by
    rw [lastLine, List.rdropWhile, List.rtakeWhile, ← List.reverse_append,
      List.takeWhile_append_dropWhile, List.reverse_reverse]
  rcases List.eq_nil_or_concat (cs.rdropWhile (· ≠ '\n')) with hnil | ⟨u, c, hu⟩
  · rw [hnil] at hsplit
    exact .inl hsplit.symm
  · have hne : cs.rdropWhile (· ≠ '\n') ≠ [] := by
      rw [hu, List.concat_eq_append]
      exact List.concat_ne_nil _ _
    have hlast := List.rdropWhile_last_not _ cs hne
    simp only [hu, List.concat_eq_append, List.getLast_append_singleton] at hlast
    obtain rfl : c = '\n' := by simpa using hlast
    refine .inr ⟨u, ?_⟩
    rw [hu] at hsplit
    simpa using hsplit

/-- What ends a text without a line feed ends its last line. -/
theorem suffix_lastLine {v : List Char} (hv : '\n' ∉ v) : v <:+ cs ↔ v <:+ lastLine cs := by
  constructor
  · intro hsuffix
    rcases eq_lastLine_or cs with hwhole | ⟨u, hu⟩
    · rwa [hwhole]
    · have hline : lastLine cs <:+ cs := ⟨u ++ ['\n'], by simp [← hu]⟩
      rcases List.suffix_or_suffix_of_suffix hsuffix hline with h | h
      · exact h
      · have hlonger : '\n' :: lastLine cs <:+ cs := ⟨u, hu.symm⟩
        rcases List.suffix_or_suffix_of_suffix hsuffix hlonger with h | h
        · rcases List.suffix_cons_iff.mp h with h | h
          · exact absurd (h ▸ List.mem_cons_self) hv
          · exact h
        · exact absurd (h.mem List.mem_cons_self) hv
  · exact fun h => h.trans (List.reverse_prefix.mp (by
      rw [lastLine, List.rtakeWhile, List.reverse_reverse]
      exact List.takeWhile_prefix _))

end LastLine

/-! ## Slices -/

section Slices

variable {α : Type*} {xs : List α} {start stop stop' : ℕ}

theorem slice_append (h : start ≤ stop) (h' : stop ≤ stop') :
    slice xs start stop ++ slice xs stop stop' = slice xs start stop' := by
  have htake : xs.take stop = (xs.take stop').take stop := by
    rw [List.take_take, min_eq_left h']
  unfold slice
  by_cases hlong : stop ≤ xs.length
  · have hlength : start ≤ ((xs.take stop').take stop).length := by
      simp only [List.length_take]
      omega
    conv_rhs => rw [← List.take_append_drop stop (xs.take stop')]
    rw [htake, List.drop_append_of_le_length hlength]
  · rw [List.take_of_length_le (by omega), List.take_of_length_le (by omega),
      List.drop_eq_nil_of_le (i := stop) (by omega), List.append_nil]

theorem slice_length (xs : List α) : slice xs 0 xs.length = xs := by
  simp [slice]

end Slices

end Python
