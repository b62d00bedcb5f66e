import Zyntry.Substitutions

/-!
# Regular expressions with backtracking

A `Regex` is matched at a place of a text: the character before it and what comes after it.
`ways` lists the places where a match may end in the order in which the matcher tries them, so
that the first one is the match. Substitution by a function of the match is a `Rule`.
-/

namespace Python

structure Place where
  before : Option Char
  rest : List Char

/-- The place some characters later. -/
def Place.skip (pl : Place) : ℕ → Place
  | 0 => pl
  | n + 1 =>
      match pl.rest with
      | [] => pl
      | c :: cs => Place.skip ⟨some c, cs⟩ n

/-- The place between two characters of one class. -/
def Place.Inside (p : Char → Bool) (pl : Place) : Prop :=
  pl.before.any p = true ∧ pl.rest.head?.any p = true

inductive Regex where
  /-- A run of characters of a class, as long as possible: `[...]{lo,hi}`. -/
  | chars (p : Char → Bool) (lo : ℕ) (hi : Option ℕ)
  | seq (r s : Regex)
  /-- `(...)?` -/
  | opt (r : Regex)
  /-- `(...){lo,hi}` -/
  | times (r : Regex) (lo hi : ℕ)
  /-- `(?<!...)` -/
  | notBehind (p : Char → Bool)
  /-- `(?!...)` -/
  | notAhead (p : Char → Bool)
  /-- `\b` -/
  | boundary (word : Char → Bool)

/-- The ways to go on with a step between `lo` and `hi` times, more often first. -/
def repeated (step : Place → List Place) : ℕ → ℕ → Place → List Place
  | 0, lo, pl => if lo = 0 then [pl] else []
  | hi + 1, lo, pl =>
      (step pl).flatMap (repeated step hi (lo - 1)) ++ if lo = 0 then [pl] else []

namespace Regex

instance : Append Regex := ⟨.seq⟩

def one (p : Char → Bool) : Regex := .chars p 1 (some 1)

def lit (c : Char) : Regex := one (· = c)

/-- `[...]?` -/
def optional (p : Char → Bool) : Regex := .chars p 0 (some 1)

def ways : Regex → Place → List Place
  | .chars p lo hi, pl =>
      let run := (pl.rest.takeWhile p).length
      let most := hi.elim run (min run)
      ((List.range (most + 1)).reverse.filter (lo ≤ ·)).map pl.skip
  | .seq r s, pl => (r.ways pl).flatMap s.ways
  | .opt r, pl => r.ways pl ++ [pl]
  | .times r lo hi, pl => repeated r.ways hi lo pl
  | .notBehind p, pl => if pl.before.any p then [] else [pl]
  | .notAhead p, pl => if pl.rest.head?.any p then [] else [pl]
  | .boundary word, pl => if pl.before.any word != pl.rest.head?.any word then [pl] else []

/-- The least number of characters in a match. -/
def minWidth : Regex → ℕ
  | .chars _ lo _ => lo
  | .seq r s => r.minWidth + s.minWidth
  | .opt _ => 0
  | .times r lo _ => lo * r.minWidth
  | .notBehind _ => 0
  | .notAhead _ => 0
  | .boundary _ => 0

/-- `re.sub` for an expression whose matches are not empty. -/
def rule (r : Regex) (replace : List Char → List Char) : Rule := fun before cs =>
  match (r.ways ⟨before, cs⟩).head? with
  | none => none
  | some pl =>
      match cs.length - pl.rest.length with
      | 0 => none
      | n + 1 => some (n, replace (cs.take (n + 1)))

end Regex

/-- `re.search`: the expression matches somewhere. -/
def Regex.search (r : Regex) : Option Char → List Char → Bool
  | before, [] => !(r.ways ⟨before, []⟩).isEmpty
  | before, c :: cs => !(r.ways ⟨before, c :: cs⟩).isEmpty || r.search (some c) cs

/-- `re.search` for an expression that ends with `(?!...)`. -/
def Regex.searchUnless (r ahead : Regex) : Option Char → List Char → Bool
  | before, [] => (r.ways ⟨before, []⟩).any fun pl => (ahead.ways pl).isEmpty
  | before, c :: cs =>
      ((r.ways ⟨before, c :: cs⟩).any fun pl => (ahead.ways pl).isEmpty) ||
        r.searchUnless ahead (some c) cs

/-- The matches that are replaced, from left to right. -/
def allMatches (rule : Rule) : ℕ → Option Char → List Char → List (List Char)
  | _, _, [] => []
  | n + 1, _, c :: cs => allMatches rule n (some c) cs
  | 0, before, c :: cs =>
      match rule before (c :: cs) with
      | some (n, _) => (c :: cs).take (n + 1) :: allMatches rule n (some c) cs
      | none => allMatches rule 0 (some c) cs

/-! ## Where a match may end -/

/-- Some characters lie between the two places. -/
def Place.Reaches (pl pl' : Place) (taken : List Char) : Prop :=
  pl.rest = taken ++ pl'.rest ∧ pl'.before = taken.getLast?.or pl.before

theorem Place.reaches_refl (pl : Place) : pl.Reaches pl [] := ⟨rfl, rfl⟩

theorem Place.Reaches.trans {pl pl' pl'' : Place} {taken taken' : List Char}
    (h : pl.Reaches pl' taken) (h' : pl'.Reaches pl'' taken') :
    pl.Reaches pl'' (taken ++ taken') := by
  constructor
  · rw [h.1, h'.1, List.append_assoc]
  · rw [h'.2, h.2, List.getLast?_append, Option.or_assoc]

theorem Place.reaches_skip (pl : Place) (n : ℕ) : ∃ taken, pl.Reaches (pl.skip n) taken := by
  induction n generalizing pl with
  | zero => exact ⟨[], pl.reaches_refl⟩
  | succ n ih =>
      obtain ⟨before, rest⟩ := pl
      cases rest with
      | nil => exact ⟨[], Place.reaches_refl _⟩
      | cons c cs =>
          obtain ⟨taken, h⟩ := ih ⟨some c, cs⟩
          have hfirst : (Place.mk before (c :: cs)).Reaches ⟨some c, cs⟩ [c] := ⟨rfl, rfl⟩
          exact ⟨_, hfirst.trans h⟩

theorem Place.length_rest_skip (pl : Place) {n : ℕ} (h : n ≤ pl.rest.length) :
    (pl.skip n).rest.length = pl.rest.length - n := by
  induction n generalizing pl with
  | zero => rfl
  | succ n ih =>
      obtain ⟨before, rest⟩ := pl
      cases rest with
      | nil => cases h
      | cons c cs =>
          rw [List.length_cons] at h ⊢
          rw [show (Place.mk before (c :: cs)).skip (n + 1) = Place.skip ⟨some c, cs⟩ n from rfl,
            ih ⟨some c, cs⟩ (Nat.le_of_succ_le_succ h)]
          exact (Nat.succ_sub_succ _ _).symm

namespace Regex

section

variable (p : Char → Bool) (pl : Place)

theorem ways_chars (lo : ℕ) (hi : Option ℕ) : (chars p lo hi).ways pl =
    ((List.range (hi.elim (pl.rest.takeWhile p).length (min (pl.rest.takeWhile p).length) +
      1)).reverse.filter (lo ≤ ·)).map pl.skip := rfl

theorem ways_notBehind :
    (notBehind p).ways pl = if pl.before.any p then [] else [pl] := rfl

theorem ways_notAhead :
    (notAhead p).ways pl = if pl.rest.head?.any p then [] else [pl] := rfl

theorem ways_boundary : (boundary p).ways pl =
    if pl.before.any p != pl.rest.head?.any p then [pl] else [] := rfl

end

theorem mem_ways_chars {p : Char → Bool} {lo : ℕ} {hi : Option ℕ} {pl pl' : Place} :
    pl' ∈ (chars p lo hi).ways pl ↔ ∃ n, lo ≤ n ∧ (∀ m ∈ hi, n ≤ m) ∧
      n ≤ (pl.rest.takeWhile p).length ∧ pl.skip n = pl' := by
  cases hi with
  | none =>
      simp only [ways_chars, Option.elim_none, List.mem_map, List.mem_filter, List.mem_reverse,
        List.mem_range, decide_eq_true_eq, Nat.lt_succ_iff, Option.mem_def, reduceCtorEq,
        false_implies, implies_true, true_and]
      exact exists_congr fun n => by tauto
  | some m =>
      simp only [ways_chars, Option.elim_some, List.mem_map, List.mem_filter, List.mem_reverse,
        List.mem_range, decide_eq_true_eq, Nat.lt_succ_iff, Option.mem_def, Option.some.injEq,
        forall_eq', le_min_iff]
      exact exists_congr fun n => by tauto

theorem mem_ways_seq {r s : Regex} {pl pl' : Place} :
    pl' ∈ (r ++ s).ways pl ↔ ∃ mid, mid ∈ r.ways pl ∧ pl' ∈ s.ways mid := List.mem_flatMap

theorem mem_ways_notBehind {p : Char → Bool} {pl pl' : Place} :
    pl' ∈ (notBehind p).ways pl ↔ pl.before.any p = false ∧ pl' = pl := by
  rw [ways_notBehind]
  split_ifs with h <;> simp [h]

theorem mem_ways_notAhead {p : Char → Bool} {pl pl' : Place} :
    pl' ∈ (notAhead p).ways pl ↔ pl.rest.head?.any p = false ∧ pl' = pl := by
  rw [ways_notAhead]
  split_ifs with h <;> simp [h]

theorem mem_ways_boundary {word : Char → Bool} {pl pl' : Place} :
    pl' ∈ (boundary word).ways pl ↔ pl.before.any word ≠ pl.rest.head?.any word ∧ pl' = pl := by
  rw [ways_boundary]
  split_ifs with h <;> simp_all

end Regex

theorem mem_repeated_succ {step : Place → List Place} {hi lo : ℕ} {pl pl' : Place} :
    pl' ∈ repeated step (hi + 1) lo pl ↔
      (∃ mid ∈ step pl, pl' ∈ repeated step hi (lo - 1) mid) ∨ lo = 0 ∧ pl' = pl := by
  change pl' ∈ (step pl).flatMap (repeated step hi (lo - 1)) ++ (if lo = 0 then [pl] else []) ↔ _
  rw [List.mem_append, List.mem_flatMap]
  split_ifs with h <;> simp [h]

theorem mem_repeated_zero {step : Place → List Place} {lo : ℕ} {pl pl' : Place} :
    pl' ∈ repeated step 0 lo pl ↔ lo = 0 ∧ pl' = pl := by
  change pl' ∈ (if lo = 0 then [pl] else []) ↔ _
  split_ifs with h <;> simp [h]

theorem repeated_reaches {step : Place → List Place} {width : ℕ}
    (hstep : ∀ pl pl', pl' ∈ step pl → ∃ taken, pl.Reaches pl' taken ∧ width ≤ taken.length)
    (hi lo : ℕ) (pl pl' : Place) (h : pl' ∈ repeated step hi lo pl) :
    ∃ taken, pl.Reaches pl' taken ∧ lo * width ≤ taken.length := by
  induction hi generalizing lo pl with
  | zero =>
      obtain ⟨rfl, rfl⟩ := mem_repeated_zero.mp h
      exact ⟨[], pl'.reaches_refl, by simp⟩
  | succ hi ih =>
      rcases mem_repeated_succ.mp h with ⟨mid, hmid, hrest⟩ | ⟨rfl, rfl⟩
      · obtain ⟨taken, hreach, hwidth⟩ := hstep pl mid hmid
        obtain ⟨taken', hreach', hwidth'⟩ := ih (lo - 1) mid hrest
        refine ⟨taken ++ taken', hreach.trans hreach', ?_⟩
        rw [List.length_append]
        have hlo : lo * width ≤ width + (lo - 1) * width := by
          cases lo with
          | zero => simp
          | succ lo =>
              rw [Nat.succ_mul, Nat.add_sub_cancel]
              exact (Nat.add_comm _ _).le
        omega
      · exact ⟨[], pl'.reaches_refl, by simp⟩

/-- A match takes the characters between the two places, and at least as many as it has to. -/
theorem Regex.reaches (r : Regex) (pl pl' : Place) (h : pl' ∈ r.ways pl) :
    ∃ taken, pl.Reaches pl' taken ∧ r.minWidth ≤ taken.length := by
  induction r generalizing pl pl' with
  | chars p lo hi =>
      obtain ⟨n, hlo, -, hn, rfl⟩ := mem_ways_chars.mp h
      obtain ⟨taken, hreach⟩ := pl.reaches_skip n
      refine ⟨taken, hreach, ?_⟩
      have hn' : n ≤ pl.rest.length := hn.trans (List.takeWhile_sublist p).length_le
      have hlength := pl.length_rest_skip hn'
      have happend := congrArg List.length hreach.1
      rw [List.length_append] at happend
      change lo ≤ taken.length
      omega
  | seq r s ihr ihs =>
      obtain ⟨mid, hmid, hend⟩ := mem_ways_seq.mp h
      obtain ⟨taken, hreach, hwidth⟩ := ihr pl mid hmid
      obtain ⟨taken', hreach', hwidth'⟩ := ihs mid pl' hend
      refine ⟨taken ++ taken', hreach.trans hreach', ?_⟩
      rw [List.length_append]
      exact Nat.add_le_add hwidth hwidth'
  | opt r ih =>
      rcases List.mem_append.mp h with hsome | hnone
      · obtain ⟨taken, hreach, -⟩ := ih pl pl' hsome
        exact ⟨taken, hreach, Nat.zero_le _⟩
      · obtain rfl := List.mem_singleton.mp hnone
        exact ⟨[], pl'.reaches_refl, Nat.zero_le _⟩
  | times r lo hi ih => exact repeated_reaches ih hi lo pl pl' h
  | notBehind p =>
      obtain ⟨-, rfl⟩ := mem_ways_notBehind.mp h
      exact ⟨[], pl'.reaches_refl, Nat.zero_le _⟩
  | notAhead p =>
      obtain ⟨-, rfl⟩ := mem_ways_notAhead.mp h
      exact ⟨[], pl'.reaches_refl, Nat.zero_le _⟩
  | boundary word =>
      obtain ⟨-, rfl⟩ := mem_ways_boundary.mp h
      exact ⟨[], pl'.reaches_refl, Nat.zero_le _⟩

/-! ## Matches -/

theorem getLast?_take_eq {cs taken rest : List Char} (h : cs = taken ++ rest) :
    (cs.take taken.length).getLast? = taken.getLast? := by
  rw [h, List.take_left]

/-- A match ends at one of the ways, and its text is what has been taken. -/
theorem Regex.rule_eq_some {r : Regex} {replace : List Char → List Char} {before : Option Char}
    {cs text : List Char} {n : ℕ} (h : r.rule replace before cs = some (n, text)) :
    n + 1 ≤ cs.length ∧ text = replace (cs.take (n + 1)) ∧
      (⟨(cs.take (n + 1)).getLast?, cs.drop (n + 1)⟩ : Place) ∈ r.ways ⟨before, cs⟩ := by
  unfold Regex.rule at h
  split at h
  · cases h
  · rename_i pl hfirst
    split at h
    · cases h
    · rename_i k hk
      cases h
      have hmem : pl ∈ r.ways ⟨before, cs⟩ := List.mem_of_head? hfirst
      obtain ⟨taken, ⟨hrest, hbefore⟩, -⟩ := r.reaches _ _ hmem
      change cs = taken ++ pl.rest at hrest
      have hlength := congrArg List.length hrest
      rw [List.length_append] at hlength
      obtain htaken : taken.length = n + 1 := by omega
      refine ⟨by omega, rfl, ?_⟩
      have hlast : taken.getLast? ≠ none := by
        rw [ne_eq, List.getLast?_eq_none_iff]
        rintro rfl
        cases htaken
      have hpl : (⟨(cs.take (n + 1)).getLast?, cs.drop (n + 1)⟩ : Place) = pl := by
        obtain ⟨before', rest'⟩ := pl
        obtain ⟨c, hc⟩ := Option.ne_none_iff_exists'.mp hlast
        rw [← htaken, getLast?_take_eq hrest, hrest, List.drop_left]
        rw [hc, Option.some_or] at hbefore
        rw [hc, ← hbefore]
      rw [hpl]
      exact hmem

theorem Regex.rule_isSome {r : Regex} {replace : List Char → List Char} {before : Option Char}
    {cs : List Char} (hwidth : 0 < r.minWidth) (h : r.ways ⟨before, cs⟩ ≠ []) :
    r.rule replace before cs ≠ none := by
  obtain ⟨pl, ways, hways⟩ := List.exists_cons_of_ne_nil h
  have hmem : pl ∈ r.ways ⟨before, cs⟩ := hways ▸ List.mem_cons_self
  obtain ⟨taken, ⟨hrest, -⟩, hlong⟩ := r.reaches _ _ hmem
  change cs = taken ++ pl.rest at hrest
  have hlength := congrArg List.length hrest
  rw [List.length_append] at hlength
  obtain ⟨n, hn⟩ : ∃ n, cs.length - pl.rest.length = n + 1 := ⟨taken.length - 1, by omega⟩
  unfold Regex.rule
  rw [hways, List.head?_cons]
  dsimp only
  rw [hn]
  exact Option.some_ne_none _

theorem allMatches_skip (rule : Rule) (n : ℕ) (before : Option Char) (cs : List Char)
    (h : n ≤ cs.length) : allMatches rule n before cs =
      allMatches rule 0 ((cs.take n).getLast?.or before) (cs.drop n) := by
  induction n generalizing before cs with
  | zero => simp
  | succ n ih =>
      cases cs with
      | nil => cases h
      | cons c cs =>
          rw [allMatches, ih (some c) cs (Nat.le_of_succ_le_succ h), List.take_succ_cons,
            List.getLast?_cons, List.drop_succ_cons]
          cases (cs.take n).getLast? <;> rfl

section Scan

variable {rule : Rule} {before : Option Char} {c : Char} {cs text : List Char} {n : ℕ}

theorem replaceAll_of_none (h : rule before (c :: cs) = none) :
    replaceAll rule 0 before (c :: cs) = c :: replaceAll rule 0 (some c) cs := by
  rw [replaceAll, h]

theorem allMatches_of_none (h : rule before (c :: cs) = none) :
    allMatches rule 0 before (c :: cs) = allMatches rule 0 (some c) cs := by
  rw [allMatches, h]

/-- After a match, the substitution goes on behind it. -/
theorem replaceAll_of_some (h : rule before cs = some (n, text)) (hn : n + 1 ≤ cs.length) :
    replaceAll rule 0 before cs =
      text ++ replaceAll rule 0 (cs.take (n + 1)).getLast? (cs.drop (n + 1)) := by
  have hne : cs ≠ [] := by
    rintro rfl
    cases hn
  rw [replaceAll_of_match hne h, lastOr_of_ne_nil before (by simp [hne])]

theorem allMatches_of_some (h : rule before cs = some (n, text)) (hn : n + 1 ≤ cs.length) :
    allMatches rule 0 before cs =
      cs.take (n + 1) :: allMatches rule 0 (cs.take (n + 1)).getLast? (cs.drop (n + 1)) := by
  cases cs with
  | nil => cases hn
  | cons c cs =>
      rw [allMatches, h]
      dsimp only
      rw [allMatches_skip rule n (some c) cs (Nat.le_of_succ_le_succ hn), List.take_succ_cons,
        List.getLast?_cons, List.drop_succ_cons]
      cases (cs.take n).getLast? <;> rfl

/-- Induction along a scan: a character that begins no match, or a match as a whole. -/
theorem scan_induction (rule : Rule)
    (hlong : ∀ before cs n text, rule before cs = some (n, text) → n + 1 ≤ cs.length)
    {motive : Option Char → List Char → Prop} (nil : ∀ before, motive before [])
    (passed : ∀ before c cs, rule before (c :: cs) = none → motive (some c) cs →
      motive before (c :: cs))
    (found : ∀ before cs n text, rule before cs = some (n, text) →
      motive (cs.take (n + 1)).getLast? (cs.drop (n + 1)) → motive before cs)
    (before : Option Char) (cs : List Char) : motive before cs := by
  induction hk : cs.length using Nat.strong_induction_on generalizing before cs with
  | _ k ih =>
      subst hk
      cases cs with
      | nil => exact nil before
      | cons c cs =>
          cases hrule : rule before (c :: cs) with
          | none => exact passed before c cs hrule (ih _ (Nat.lt_succ_self _) _ _ rfl)
          | some result =>
              obtain ⟨n, text⟩ := result
              have hn := hlong _ _ _ _ hrule
              refine found before _ n text hrule (ih _ ?_ _ _ rfl)
              rw [List.length_drop]
              omega

end Scan

/-! ## Expressions that respect the runs of a class -/

/-- No match starts between two characters of the class. -/
def Regex.StartsOutside (p : Char → Bool) (r : Regex) : Prop :=
  ∀ pl pl', pl' ∈ r.ways pl → ¬pl.Inside p

/-- No match ends between two characters of the class. -/
def Regex.EndsOutside (p : Char → Bool) (r : Regex) : Prop :=
  ∀ pl pl', pl' ∈ r.ways pl → ¬pl'.Inside p

theorem Place.Inside.mono {p q : Char → Bool} {pl : Place} (h : pl.Inside p)
    (hpq : ∀ c, p c = true → q c = true) : pl.Inside q := by
  have hany : ∀ o : Option Char, o.any p = true → o.any q = true := by
    intro o ho
    obtain ⟨c, hc, hp⟩ := Option.any_eq_true _ _ |>.mp ho
    exact (Option.any_eq_true _ _).mpr ⟨c, hc, hpq c hp⟩
  exact ⟨hany _ h.1, hany _ h.2⟩

namespace Regex

variable {p q : Char → Bool} {r s : Regex}

theorem StartsOutside.append (h : r.StartsOutside p) : (r ++ s).StartsOutside p := by
  intro pl pl' hways
  obtain ⟨mid, hmid, -⟩ := mem_ways_seq.mp hways
  exact h pl mid hmid

theorem EndsOutside.append (h : s.EndsOutside p) : (r ++ s).EndsOutside p := by
  intro pl pl' hways
  obtain ⟨mid, -, hend⟩ := mem_ways_seq.mp hways
  exact h mid pl' hend

theorem startsOutside_notBehind (hpq : ∀ c, p c = true → q c = true) :
    (notBehind q).StartsOutside p := by
  intro pl pl' hways hinside
  obtain ⟨hbefore, -⟩ := mem_ways_notBehind.mp hways
  exact absurd (hinside.mono hpq).1 (by simp [hbefore])

theorem endsOutside_notAhead (hpq : ∀ c, p c = true → q c = true) :
    (notAhead q).EndsOutside p := by
  intro pl pl' hways hinside
  obtain ⟨hahead, rfl⟩ := mem_ways_notAhead.mp hways
  exact absurd (hinside.mono hpq).2 (by simp [hahead])

theorem startsOutside_boundary (hpq : ∀ c, p c = true → q c = true) :
    (boundary q).StartsOutside p := by
  intro pl pl' hways hinside
  obtain ⟨hne, -⟩ := mem_ways_boundary.mp hways
  exact hne ((hinside.mono hpq).1.trans (hinside.mono hpq).2.symm)

theorem endsOutside_boundary (hpq : ∀ c, p c = true → q c = true) :
    (boundary q).EndsOutside p := by
  intro pl pl' hways hinside
  obtain ⟨hne, rfl⟩ := mem_ways_boundary.mp hways
  exact hne ((hinside.mono hpq).1.trans (hinside.mono hpq).2.symm)

end Regex

/-! ## Expressions for fixed texts -/

theorem Regex.mem_ways_one {p : Char → Bool} {pl pl' : Place} : pl' ∈ (one p).ways pl ↔
    ∃ c, p c = true ∧ pl.rest = c :: pl'.rest ∧ pl'.before = some c := by
  obtain ⟨before, rest⟩ := pl
  rw [one, mem_ways_chars]
  constructor
  · rintro ⟨n, hlo, hhi, hrun, rfl⟩
    obtain rfl : n = 1 := le_antisymm (hhi 1 rfl) hlo
    cases rest with
    | nil => cases hrun
    | cons c cs =>
        cases hc : p c with
        | false =>
            rw [List.takeWhile_cons_of_neg (by simp [hc])] at hrun
            cases hrun
        | true => exact ⟨c, hc, rfl, rfl⟩
  · rintro ⟨c, hc, hrest, hbefore⟩
    obtain ⟨before', rest'⟩ := pl'
    cases hrest
    cases hbefore
    refine ⟨1, le_rfl, fun m hm => (Option.some.inj hm).le, ?_, rfl⟩
    rw [List.takeWhile_cons_of_pos hc]
    exact Nat.succ_le_succ (Nat.zero_le _)

theorem Place.skip_length (before : Option Char) (w rest : List Char) :
    (Place.mk before (w ++ rest)).skip w.length = ⟨w.getLast?.or before, rest⟩ := by
  induction w generalizing before with
  | nil => rfl
  | cons c w ih =>
      rw [List.cons_append, List.length_cons, Place.skip]
      dsimp only
      rw [ih, List.getLast?_cons]
      cases w.getLast? <;> rfl

/-- A run may stop after any of its characters. -/
theorem Regex.mem_ways_run {p : Char → Bool} {before : Option Char} {w rest : List Char}
    (h : ∀ c ∈ w, p c = true) :
    (⟨w.getLast?.or before, rest⟩ : Place) ∈ (chars p 0 none).ways ⟨before, w ++ rest⟩ := by
  refine mem_ways_chars.mpr ⟨w.length, Nat.zero_le _, nofun, ?_, Place.skip_length _ _ _⟩
  rw [List.takeWhile_append_of_pos h, List.length_append]
  exact Nat.le_add_right _ _

/-- An expression is found with something behind it that does not match. -/
theorem Regex.searchUnless_iff {r ahead : Regex} {before : Option Char} {cs : List Char} :
    r.searchUnless ahead before cs = true ↔ ∃ u v, cs = u ++ v ∧
      ∃ pl ∈ r.ways ⟨u.getLast?.or before, v⟩, ahead.ways pl = [] := by
  induction cs generalizing before with
  | nil => simp [searchUnless]
  | cons c cs ih =>
      rw [searchUnless, Bool.or_eq_true, ih, List.any_eq_true]
      constructor
      · rintro (⟨pl, hpl, hahead⟩ | ⟨u, v, rfl, hfound⟩)
        · exact ⟨[], c :: cs, rfl, pl, hpl, List.isEmpty_iff.mp hahead⟩
        · refine ⟨c :: u, v, rfl, ?_⟩
          rw [List.getLast?_cons]
          cases hu : u.getLast? <;> simpa [hu] using hfound
      · rintro ⟨u, v, hsplit, pl, hpl, hahead⟩
        cases u with
        | nil =>
            obtain rfl : c :: cs = v := hsplit
            exact .inl ⟨pl, hpl, List.isEmpty_iff.mpr hahead⟩
        | cons d u =>
            obtain ⟨rfl, rfl⟩ := List.cons.inj hsplit
            refine .inr ⟨u, v, rfl, pl, ?_, hahead⟩
            rw [List.getLast?_cons] at hpl
            cases hu : u.getLast? <;> simpa [hu] using hpl

/-! ## Expressions that begin with a character of their own -/

/-- A match begins with a character, and not with this one. -/
def Regex.refuses (c : Char) : Regex → Bool
  | .chars p lo _ => 0 < lo && !p c
  | .seq r _ => r.refuses c
  | _ => false

theorem Regex.ways_eq_nil_of_refuses {r : Regex} {c : Char} (h : r.refuses c = true) {pl : Place}
    (hpl : ∀ d ∈ pl.rest.head?, d = c) : r.ways pl = [] := by
  induction r with
  | chars p lo hi =>
      obtain ⟨hlo, hp⟩ : 0 < lo ∧ p c = false := by simpa [refuses] using h
      have hrun : pl.rest.takeWhile p = [] := by
        cases hrest : pl.rest with
        | nil => rfl
        | cons d ds =>
            obtain rfl : d = c := hpl d (by simp [hrest])
            exact List.takeWhile_cons_of_neg (by simp [hp])
      rw [List.eq_nil_iff_forall_not_mem]
      intro pl' hpl'
      obtain ⟨n, hn, -, hlong, -⟩ := mem_ways_chars.mp hpl'
      rw [hrun, List.length_nil] at hlong
      omega
  | seq r s ihr _ =>
      rw [ways, ihr h, List.flatMap_nil]
  | _ => cases h

/-- Nothing is found in a text of one character that no match begins with. -/
theorem Regex.search_eq_false_of_refuses {r : Regex} {c : Char} (h : r.refuses c = true)
    (before : Option Char) {cs : List Char} (hcs : ∀ d ∈ cs, d = c) :
    r.search before cs = false := by
  induction cs generalizing before with
  | nil =>
      rw [search, ways_eq_nil_of_refuses h (by simp)]
      rfl
  | cons d ds ih =>
      have hhead : ∀ d' ∈ (d :: ds).head?, d' = c := fun d' hd' =>
        hcs d' (List.mem_of_mem_head? hd')
      rw [search, ways_eq_nil_of_refuses h hhead,
        ih (some d) fun d' hd' => hcs d' (List.mem_cons_of_mem d hd')]
      rfl

end Python
