import Zyntry.PythonRegex

/-!
# Runs of a class of characters

The maximal runs of a class in a text, and what a substitution does to them: one whose matches
start and end outside of the runs takes whole runs out of the text and puts no new ones in.
-/

namespace Python

variable {p : Char → Bool}

/-- Consecutive characters of the class, with none of it on either side. -/
def IsRun (p : Char → Bool) (run cs : List Char) : Prop :=
  run ≠ [] ∧ (∀ c ∈ run, p c = true) ∧ ∃ before after, cs = before ++ run ++ after ∧
    before.getLast?.any p = false ∧ after.head?.any p = false

/-- A run that has come to its end. -/
def closed (acc : List Char) : List (List Char) := if acc = [] then [] else [acc]

/-- The runs, when `acc` has been read of the first one. -/
def runsFrom (p : Char → Bool) : List Char → List Char → List (List Char)
  | acc, [] => closed acc
  | acc, c :: cs => if p c then runsFrom p (acc ++ [c]) cs else closed acc ++ runsFrom p [] cs

def runs (p : Char → Bool) (cs : List Char) : List (List Char) := runsFrom p [] cs

theorem mem_closed {acc run : List Char} : run ∈ closed acc ↔ run ≠ [] ∧ run = acc := by
  unfold closed
  split_ifs with h
  · subst h
    simp
  · rw [List.mem_singleton]
    exact ⟨fun he => ⟨he ▸ h, he⟩, fun he => he.2⟩

theorem eq_nil_of_getLast? {cs : List Char} (h : ∀ c ∈ cs, p c = true)
    (hlast : cs.getLast?.any p = false) : cs = [] := by
  rcases List.eq_nil_or_concat cs with rfl | ⟨cs, c, rfl⟩
  · rfl
  · simp [h c (by simp)] at hlast

theorem eq_nil_of_head? {cs : List Char} (h : ∀ c ∈ cs, p c = true)
    (hhead : cs.head?.any p = false) : cs = [] := by
  cases cs with
  | nil => rfl
  | cons c cs => simp [h c List.mem_cons_self] at hhead

/-- A run within a prefix and a suffix that a character outside of the class separates. -/
theorem isRun_append_cons {run acc cs : List Char} {c : Char} (hacc : ∀ c ∈ acc, p c = true)
    (hc : p c = false) :
    IsRun p run (acc ++ c :: cs) ↔ (run ≠ [] ∧ run = acc) ∨ IsRun p run cs := by
  constructor
  · rintro ⟨hne, hrun, before, after, heq, hbefore, hafter⟩
    have hnotin : c ∉ run := fun hmem => by simp [hrun c hmem] at hc
    rw [List.append_assoc] at heq
    rcases List.append_eq_append_iff.mp heq with ⟨a, rfl, hrest⟩ | ⟨a, rfl, hrest⟩
    · cases a with
      | nil =>
          obtain ⟨d, run, rfl⟩ := List.exists_cons_of_ne_nil hne
          obtain ⟨rfl, -⟩ := List.cons.inj hrest
          exact absurd List.mem_cons_self hnotin
      | cons d a =>
          obtain ⟨rfl, rfl⟩ := List.cons.inj hrest
          refine .inr ⟨hne, hrun, a, after, (List.append_assoc _ _ _).symm, ?_, hafter⟩
          rcases List.eq_nil_or_concat a with rfl | ⟨a, e, rfl⟩
          · rfl
          · rw [List.concat_eq_append, ← List.cons_append, ← List.append_assoc,
              List.getLast?_concat] at hbefore
            simpa using hbefore
    · obtain rfl : before = [] :=
        eq_nil_of_getLast? (fun d hd => hacc d (List.mem_append_left a hd)) hbefore
      refine .inl ⟨hne, ?_⟩
      rw [List.nil_append]
      rcases List.append_eq_append_iff.mp hrest with ⟨x, rfl, rfl⟩ | ⟨x, rfl, hafter'⟩
      · have hx : x = [] := by
          apply eq_nil_of_head? (p := p) (fun d hd => hacc d (by simp [hd]))
          cases x with
          | nil => rfl
          | cons d x => simpa using hafter
        rw [hx, List.append_nil]
      · cases x with
        | nil => rw [List.append_nil]
        | cons d x =>
            obtain ⟨rfl, -⟩ := List.cons.inj hafter'
            exact absurd (by simp) hnotin
  · rintro (⟨hne, rfl⟩ | ⟨hne, hrun, before, after, rfl, hbefore, hafter⟩)
    · exact ⟨hne, hacc, [], c :: cs, rfl, rfl, by simp [hc]⟩
    · refine ⟨hne, hrun, acc ++ c :: before, after, by simp, ?_, hafter⟩
      rcases List.eq_nil_or_concat before with rfl | ⟨before, d, rfl⟩
      · simp [hc]
      · rw [List.concat_eq_append, ← List.cons_append, ← List.append_assoc, List.getLast?_concat]
        simpa using hbefore

theorem mem_runsFrom {run acc cs : List Char} (hacc : ∀ c ∈ acc, p c = true) :
    run ∈ runsFrom p acc cs ↔ IsRun p run (acc ++ cs) := by
  induction cs generalizing acc with
  | nil =>
      rw [runsFrom, mem_closed, List.append_nil]
      constructor
      · rintro ⟨hne, rfl⟩
        exact ⟨hne, hacc, [], [], by simp, rfl, rfl⟩
      · rintro ⟨hne, hrun, before, after, rfl, hbefore, hafter⟩
        obtain rfl := eq_nil_of_getLast? (fun c hc => hacc c (by simp [hc])) hbefore
        obtain rfl := eq_nil_of_head? (fun c hc => hacc c (by simp [hc])) hafter
        exact ⟨hne, by simp⟩
  | cons c cs ih =>
      rw [runsFrom]
      split_ifs with hc
      · have hacc' : ∀ d ∈ acc ++ [c], p d = true := by
          intro d hd
          rcases List.mem_append.mp hd with hd | hd
          · exact hacc d hd
          · exact List.mem_singleton.mp hd ▸ hc
        rw [ih hacc', List.append_assoc, List.singleton_append]
      · rw [List.mem_append, mem_closed, ih (by simp), List.nil_append,
          isRun_append_cons hacc (by simpa using hc)]

theorem mem_runs {run cs : List Char} : run ∈ runs p cs ↔ IsRun p run cs :=
  mem_runsFrom (List.forall_mem_nil _)

/-! ## Parts of a text -/

theorem any_getLast?_of_forall {cs : List Char} (h : ∀ c ∈ cs, p c = true) (hne : cs ≠ []) :
    cs.getLast?.any p = true := by
  rcases List.eq_nil_or_concat cs with rfl | ⟨cs, c, rfl⟩
  · exact absurd rfl hne
  · simp [h c (by simp)]

/-- A text that is cut between two runs. -/
theorem runsFrom_append {acc cs cs' : List Char} (hacc : ∀ c ∈ acc, p c = true)
    (hcut : ¬Place.Inside p ⟨(acc ++ cs).getLast?, cs'⟩) :
    runsFrom p acc (cs ++ cs') = runsFrom p acc cs ++ runs p cs' := by
  induction cs generalizing acc with
  | nil =>
      rw [List.append_nil] at hcut
      rw [List.nil_append, runsFrom]
      by_cases hne : acc = []
      · subst hne
        rfl
      · cases cs' with
        | nil => simp [runs, runsFrom, closed]
        | cons c cs' =>
            have hc : p c = false := by
              by_contra hc
              exact hcut ⟨any_getLast?_of_forall hacc hne, by simpa using hc⟩
            simp [runs, runsFrom, closed, hc]
  | cons c cs ih =>
      rw [List.cons_append, runsFrom, runsFrom]
      split_ifs with hc
      · apply ih
        · intro d hd
          rcases List.mem_append.mp hd with hd | hd
          · exact hacc d hd
          · exact List.mem_singleton.mp hd ▸ hc
        · rwa [List.append_assoc, List.singleton_append]
      · rw [ih (by simp), List.append_assoc]
        intro hinside
        apply hcut
        refine ⟨?_, hinside.2⟩
        have hlast := hinside.1
        rcases List.eq_nil_or_concat cs with rfl | ⟨cs, d, rfl⟩
        · simp at hlast
        · rw [List.concat_eq_append, ← List.cons_append, ← List.append_assoc,
            List.getLast?_concat]
          simpa using hlast

theorem runsFrom_of_cut {acc cs : List Char} (hacc : ∀ c ∈ acc, p c = true)
    (hcut : ¬Place.Inside p ⟨acc.getLast?, cs⟩) : runsFrom p acc cs = closed acc ++ runs p cs := by
  rw [← List.append_nil acc] at hcut
  have happend := runsFrom_append hacc hcut
  rwa [List.nil_append] at happend

theorem runs_append {cs cs' : List Char} (hcut : ¬Place.Inside p ⟨cs.getLast?, cs'⟩) :
    runs p (cs ++ cs') = runs p cs ++ runs p cs' :=
  runsFrom_append (List.forall_mem_nil _) hcut

theorem runsFrom_of_outside {acc text cs : List Char} (hne : text ≠ [])
    (htext : ∀ c ∈ text, p c = false) :
    runsFrom p acc (text ++ cs) = closed acc ++ runs p cs := by
  induction text generalizing acc with
  | nil => exact absurd rfl hne
  | cons c text ih =>
      rw [List.cons_append, runsFrom, if_neg (by simp [htext c List.mem_cons_self])]
      by_cases hnil : text = []
      · subst hnil
        rfl
      · rw [ih hnil fun d hd => htext d (List.mem_cons_of_mem c hd)]
        rfl

/-! ## Substitutions -/

/-- The matches start and end outside of the runs; they stay as they are, or a text without
the class takes their place. -/
structure Rule.RespectsRuns (p : Char → Bool) (rule : Rule) : Prop where
  long : ∀ before cs n text, rule before cs = some (n, text) → n + 1 ≤ cs.length
  starts : ∀ before cs n text, rule before cs = some (n, text) → ¬Place.Inside p ⟨before, cs⟩
  stops : ∀ before cs n text, rule before cs = some (n, text) →
    ¬Place.Inside p ⟨(cs.take (n + 1)).getLast?, cs.drop (n + 1)⟩
  text : ∀ before cs n text, rule before cs = some (n, text) →
    text = cs.take (n + 1) ∨ text ≠ [] ∧ ∀ c ∈ text, p c = false

section Substitution

variable {rule : Rule} (hrule : rule.RespectsRuns p)

include hrule

theorem head?_replaceAll (before : Option Char) (cs : List Char)
    (h : (replaceAll rule 0 before cs).head?.any p = true) : cs.head?.any p = true := by
  cases cs with
  | nil => exact h
  | cons c cs =>
      cases hmatch : rule before (c :: cs) with
      | none => simpa only [replaceAll_of_none hmatch, List.head?_cons] using h
      | some result =>
          obtain ⟨n, text⟩ := result
          rw [replaceAll_of_some hmatch (hrule.long _ _ _ _ hmatch)] at h
          rcases hrule.text _ _ _ _ hmatch with rfl | ⟨hne, htext⟩
          · simpa using h
          · obtain ⟨d, text, rfl⟩ := List.exists_cons_of_ne_nil hne
            simp [htext d List.mem_cons_self] at h

/-- What comes after a match is cut off from it, before and after the substitution. -/
theorem stops_replaceAll {before : Option Char} {cs text : List Char} {n : ℕ}
    (hmatch : rule before cs = some (n, text)) :
    ¬Place.Inside p ⟨(cs.take (n + 1)).getLast?,
      replaceAll rule 0 (cs.take (n + 1)).getLast? (cs.drop (n + 1))⟩ := by
  intro hinside
  exact hrule.stops _ _ _ _ hmatch ⟨hinside.1, head?_replaceAll hrule _ _ hinside.2⟩

theorem mem_runsFrom_replaceAll (before : Option Char) (cs : List Char) {acc run : List Char}
    (hacc : ∀ c ∈ acc, p c = true) (hbefore : acc ≠ [] → before.any p = true)
    (h : run ∈ runsFrom p acc (replaceAll rule 0 before cs)) : run ∈ runsFrom p acc cs := by
  induction before, cs using scan_induction rule hrule.long generalizing acc with
  | nil before => exact h
  | passed before c cs hmatch ih =>
      rw [replaceAll_of_none hmatch] at h
      rw [runsFrom] at h ⊢
      split_ifs at h ⊢ with hc
      · refine ih ?_ (fun _ => by simpa using hc) h
        intro d hd
        rcases List.mem_append.mp hd with hd | hd
        · exact hacc d hd
        · exact List.mem_singleton.mp hd ▸ hc
      · rcases List.mem_append.mp h with h | h
        · exact List.mem_append_left _ h
        · exact List.mem_append_right _ (ih (by simp) (by simp) h)
  | found before cs n text hmatch ih =>
      have hlong := hrule.long _ _ _ _ hmatch
      have hstart : ∀ rest : List Char, rest.head? = cs.head? →
          ¬Place.Inside p ⟨acc.getLast?, rest⟩ := by
        rintro rest hhead ⟨hlast, hnext⟩
        have hne : acc ≠ [] := by
          rintro rfl
          cases hlast
        exact hrule.starts _ _ _ _ hmatch ⟨hbefore hne, hhead ▸ hnext⟩
      have hruns : runsFrom p acc cs =
          closed acc ++ (runs p (cs.take (n + 1)) ++ runs p (cs.drop (n + 1))) := by
        rw [runsFrom_of_cut hacc (hstart cs rfl), ← runs_append (hrule.stops _ _ _ _ hmatch),
          List.take_append_drop]
      have hrest := ih (List.forall_mem_nil _) (by simp)
      rw [replaceAll_of_some hmatch hlong] at h
      rw [hruns, List.mem_append, List.mem_append]
      rcases hrule.text _ _ _ _ hmatch with rfl | ⟨hne, htext⟩
      · rw [runsFrom_of_cut hacc (hstart _ ?_), runs_append (stops_replaceAll hrule hmatch),
          List.mem_append, List.mem_append] at h
        · exact h.imp_right (Or.imp_right hrest)
        · obtain ⟨c, rest, rfl⟩ := List.exists_cons_of_length_pos (Nat.lt_of_lt_of_le n.succ_pos hlong)
          rfl
      · rw [runsFrom_of_outside hne htext, List.mem_append] at h
        exact h.imp_right fun hmem => .inr (hrest hmem)

/-- A substitution brings no runs into the text. -/
theorem isRun_of_sub {run : List Char} {s : String} (h : IsRun p run (sub rule s).toList) :
    IsRun p run s.toList := by
  rw [sub, String.toList_ofList, ← mem_runs] at h
  rw [← mem_runs]
  exact mem_runsFrom_replaceAll hrule none s.toList (by simp) (by simp) h

/-- A run that a substitution never passes by is left in the text only by a match that stays
as it is. -/
theorem mem_runsFrom_replaceAll_iff {Sought : List Char → Prop} (accepts : List Char → Bool)
    (hsought : ∀ before run cs, Sought run → run ≠ [] → (∀ c ∈ run, p c = true) →
      before.any p = false → cs.head?.any p = false → rule before (run ++ cs) ≠ none)
    (haccepts : ∀ before cs n text, rule before cs = some (n, text) →
      if accepts (cs.take (n + 1)) then text ≠ [] ∧ ∀ c ∈ text, p c = false
      else text = cs.take (n + 1))
    {run : List Char} (hrun : Sought run) (before : Option Char) (cs : List Char)
    {acc : List Char} (hacc : ∀ c ∈ acc, p c = true) (hbefore : acc ≠ [] → before.any p = true)
    (hpassed : acc ≠ [] → ¬Sought (acc ++ cs.takeWhile p))
    (hcut : acc = [] → ¬Place.Inside p ⟨before, cs⟩) :
    run ∈ runsFrom p acc (replaceAll rule 0 before cs) ↔
      ∃ m ∈ allMatches rule 0 before cs, accepts m = false ∧ run ∈ runs p m := by
  have hclosed : ∀ acc cs : List Char, (acc ≠ [] → ¬Sought (acc ++ cs.takeWhile p)) →
      cs.head?.any p = false → run ∉ closed acc := by
    intro acc cs hpassed hhead hmem
    obtain ⟨hne, rfl⟩ := mem_closed.mp hmem
    apply hpassed hne
    cases cs with
    | nil => simpa using hrun
    | cons c cs => simpa [List.takeWhile_cons, show p c = false by simpa using hhead] using hrun
  induction before, cs using scan_induction rule hrule.long generalizing acc with
  | nil before =>
      refine iff_of_false (hclosed acc [] hpassed rfl) ?_
      rintro ⟨m, hm, -⟩
      cases hm
  | passed before c cs hmatch ih =>
      rw [replaceAll_of_none hmatch, allMatches_of_none hmatch, runsFrom]
      split_ifs with hc
      · refine ih ?_ (fun _ => by simpa using hc) (fun _ hs => ?_) (by simp)
        · intro d hd
          rcases List.mem_append.mp hd with hd | hd
          · exact hacc d hd
          · exact List.mem_singleton.mp hd ▸ hc
        · rw [List.append_assoc, List.singleton_append, ← List.takeWhile_cons_of_pos hc] at hs
          by_cases hne : acc = []
          · subst hne
            have hsplit : rule before
                ((c :: cs).takeWhile p ++ (c :: cs).dropWhile p) = none := by
              rw [List.takeWhile_append_dropWhile]
              exact hmatch
            refine hsought before _ ((c :: cs).dropWhile p) hs ?_ ?_ ?_ ?_ hsplit
            · simp [List.takeWhile_cons_of_pos hc]
            · exact fun d hd => List.mem_takeWhile_imp hd
            · by_contra hb
              exact hcut rfl ⟨by simpa using hb, by simpa using hc⟩
            · have hhead := List.head?_dropWhile_not p (c :: cs)
              cases hdrop : ((c :: cs).dropWhile p).head? with
              | none => rfl
              | some d => simpa [hdrop] using hhead
          · exact hpassed hne hs
      · rw [List.mem_append, or_iff_right (hclosed acc (c :: cs) hpassed (by simpa using hc))]
        refine ih (by simp) (by simp) (by simp) fun _ hinside => hc ?_
        simpa using hinside.1
  | found before cs n text hmatch ih =>
      have hlong := hrule.long _ _ _ _ hmatch
      have hhead : acc ≠ [] → cs.head?.any p = false := by
        intro hne
        by_contra hhead
        exact hrule.starts _ _ _ _ hmatch ⟨hbefore hne, by simpa using hhead⟩
      have hnot : run ∉ closed acc := by
        by_cases hne : acc = []
        · simp [hne, closed]
        · exact hclosed acc cs hpassed (hhead hne)
      have hrest := ih (List.forall_mem_nil _) (by simp) (by simp)
        fun _ => hrule.stops _ _ _ _ hmatch
      have htext := haccepts _ _ _ _ hmatch
      rw [replaceAll_of_some hmatch hlong, allMatches_of_some hmatch hlong]
      simp only [List.exists_mem_cons_iff]
      split_ifs at htext with haccept
      · rw [runsFrom_of_outside htext.1 htext.2, List.mem_append, or_iff_right hnot, haccept]
        simpa [runs] using hrest
      · subst htext
        have hstart : ¬Place.Inside p ⟨acc.getLast?, cs.take (n + 1) ++
            replaceAll rule 0 (cs.take (n + 1)).getLast? (cs.drop (n + 1))⟩ := by
          rintro ⟨hlast, hnext⟩
          have hne : acc ≠ [] := by
            rintro rfl
            cases hlast
          obtain ⟨c, rest, rfl⟩ :=
            List.exists_cons_of_length_pos (Nat.lt_of_lt_of_le n.succ_pos hlong)
          exact absurd (hhead hne) (by simpa using hnext)
        rw [runsFrom_of_cut hacc hstart, runs_append (stops_replaceAll hrule hmatch),
          List.mem_append, or_iff_right hnot, List.mem_append]
        exact or_congr (by simp [haccept]) hrest

end Substitution

end Python
