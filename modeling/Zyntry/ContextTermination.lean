import Zyntry.AssembledContext
import Mathlib.Algebra.Order.BigOperators.Group.List

/-!
# When assembling comes to an end

The second loop works on the last message alone, after system messages that it leaves. The
tokens that these leave to the content of the last message decide: with seven or more the
loop settles into adding a character, or taking three, and is never done.
-/

namespace Zyntry

open Python TokenEngine

/-! ## Lengths -/

theorem estimateText_eq (text : String) : TokenEngine.estimateText text = (text.length + 3) / 4 := by
  unfold TokenEngine.estimateText TokenEngine.charsPerToken
  split_ifs with hempty
  · subst hempty
    rfl
  · have hlength : text.length ≠ 0 := fun h => hempty (String.length_eq_zero_iff.mp h)
    omega

theorem estimateMessages_append (ms ms' : List Message) :
    estimateMessages (ms ++ ms') = estimateMessages ms + estimateMessages ms' := by
  unfold estimateMessages
  rw [List.map_append, List.sum_append]

theorem estimateMessages_concat (ms : List Message) (m : Message) :
    estimateMessages (ms ++ [m]) =
      estimateMessages ms + ((m.content.length + 3) / 4 + 4) := by
  rw [estimateMessages_append, ← estimateText_eq]
  rfl

theorem estimateMessages_le_of_sublist {ms ms' : List Message} (h : ms.Sublist ms') :
    estimateMessages ms ≤ estimateMessages ms' :=
  (h.map _).sum_le_sum fun _ _ => Nat.zero_le _

theorem length_takeChars (s : String) (n : ℕ) : (takeChars s n).length = min n s.length := by
  rw [takeChars, String.length_ofList, List.length_take, String.length_toList]

/-- The length of a content after a round of the second loop. -/
def shortenedLength (excess length : ℕ) : ℕ :=
  if length ≤ removeChars excess length + 21 then 0 else length - removeChars excess length + 21

theorem length_shortened (excess : ℕ) (m : Message) :
    (shortened excess m).content.length = shortenedLength excess m.content.length := by
  have hmarker : compressionMarker.length = 21 := by decide
  unfold shortened shortenedLength
  dsimp only
  rw [hmarker]
  split_ifs with hshort
  · rfl
  · rw [String.length_append, length_takeChars, hmarker]
    omega

theorem length_truncated (excess : ℕ) (m : Message) :
    (truncatedMessage excess m).content.length =
      min (max 128 (m.content.length - excess * 4)) m.content.length + 47 := by
  have hmarker : truncationMarker.length = 47 := by decide
  unfold truncatedMessage TokenEngine.charsPerToken
  dsimp only
  rw [String.length_append, length_takeChars, hmarker]

section

variable {room : ℤ} {n : ℕ}

/-- Seven tokens of room: a content four tokens over comes to be at least five over. -/
theorem shortenedLength_stuck (hroom : 7 ≤ room) (hover : room + 4 ≤ ((n + 3) / 4 : ℕ)) :
    room + 4 ≤ ((shortenedLength (((n + 3) / 4 : ℕ) - room).toNat n + 3) / 4 : ℕ) := by
  unfold shortenedLength removeChars TokenEngine.charsPerToken
  split_ifs with hshort <;> omega

/-- The cut between the loops leaves a content over the room well over it. -/
theorem truncatedLength_over (hover : room < ((n + 3) / 4 : ℕ)) :
    room + 4 ≤ ((min (max 128 (n - (((n + 3) / 4 : ℕ) - room).toNat * 4)) n + 47 + 3) / 4 : ℕ) := by
  omega

/-- A bound on the rounds that are left, with less than seven tokens of room: the content is
emptied, unless it comes to between 43 and 45 characters first. -/
def roundsLeft (length : ℕ) : ℕ :=
  if length = 0 then 0 else if 43 ≤ length ∧ length ≤ 45 then 46 - length else 4

theorem roundsLeft_shortenedLength (hroom : room ≤ 6) (hover : room < ((n + 3) / 4 : ℕ))
    (hn : 0 < n) :
    roundsLeft (shortenedLength (((n + 3) / 4 : ℕ) - room).toNat n) < roundsLeft n := by
  unfold shortenedLength removeChars TokenEngine.charsPerToken roundsLeft
  split_ifs <;> omega

end

/-! ## The second loop on the last message -/

section

variable {front : List Message} {m : Message} {workingInput : ℤ}

/-- The tokens that the messages before the last one leave to its content. -/
def room (workingInput : ℤ) (front : List Message) : ℤ :=
  workingInput - estimateMessages front - messageOverhead

theorem overBudget_concat :
    OverBudget workingInput (front ++ [m]) ↔
      room workingInput front < ((m.content.length + 3) / 4 : ℕ) := by
  unfold OverBudget room messageOverhead
  rw [estimateMessages_concat]
  omega

theorem excess_concat :
    excess workingInput (front ++ [m]) =
      (((m.content.length + 3) / 4 : ℕ) - room workingInput front).toNat := by
  unfold excess room messageOverhead
  rw [estimateMessages_concat]
  omega

theorem modify_concat (f : Message → Message) :
    (front ++ [m]).modify front.length f = front ++ [f m] := by
  induction front with
  | nil => rfl
  | cons a front ih => exact congrArg (a :: ·) ih

variable (hfront : ∀ m' ∈ front, m'.isSystem) (hm : ¬m.isSystem)

include hfront

theorem filter_isSystem_of_front : front.filter Message.isSystem = front :=
  List.filter_eq_self.mpr hfront

include hm

theorem truncationTarget_concat : truncationTarget (front ++ [m]) = some front.length := by
  have hindex : oldestRemovableIndex (front ++ [m]) = none := by
    rw [oldestRemovableIndex, List.dropLast_concat, List.findIdx?_eq_none_iff]
    intro m' hm'
    simp [hfront m' hm']
  rw [truncationTarget, hindex, List.getLast?_concat]
  simp [hm]

theorem longestCandidate_concat (hcontent : m.content ≠ "") :
    longestCandidate (front ++ [m]) = some front.length := by
  have hcandidates : (front ++ [m]).zipIdx.filter (fun p => p.1.content ≠ "" ∧ !p.1.isSystem) =
      [(m, front.length)] := by
    rw [List.zipIdx_append, List.filter_append, List.filter_eq_nil_iff.mpr]
    · simp [hcontent, hm]
    · intro p hp
      have hmem := List.mem_of_getElem? (List.mem_zipIdx_iff_getElem?.mp hp)
      simp [hfront p.1 hmem]
  rw [longestCandidate, hcandidates]
  rfl

/-- The second loop and the room for the last content. -/
theorem compress_concat {s : Compression} (hs : s.selected = front ++ [m])
    (hover : OverBudget workingInput s.selected) (hcontent : m.content ≠ "") :
    ∃ s' m', compress workingInput s = .inl s' ∧ s'.selected = front ++ [m'] ∧ ¬m'.isSystem ∧
      m'.content.length =
        shortenedLength (((m.content.length + 3) / 4 : ℕ) - room workingInput front).toNat
          m.content.length := by
  have htarget := longestCandidate_concat hfront hm hcontent
  refine ⟨_, shortened (excess workingInput (front ++ [m])) m,
    by rw [compress, if_pos hover, hs, htarget], modify_concat _, hm, ?_⟩
  rw [length_shortened, excess_concat]

theorem not_ends_compress {s : Compression} (hs : s.selected = front ++ [m])
    (hroom : 7 ≤ room workingInput front)
    (hover : room workingInput front + 4 ≤ ((m.content.length + 3) / 4 : ℕ)) :
    ¬While.Ends (compress workingInput) s := by
  refine While.not_ends_of_invariant (I := fun s => ∃ m : Message, s.selected = front ++ [m] ∧
    ¬m.isSystem ∧ room workingInput front + 4 ≤ ((m.content.length + 3) / 4 : ℕ)) ?_
    ⟨m, hs, hm, hover⟩
  clear hs hover hm
  rintro s ⟨m, hs, hm, hover⟩
  have hcontent : m.content ≠ "" := by
    intro hempty
    rw [hempty] at hover
    have : ((("" : String).length + 3) / 4 : ℕ) = 0 := rfl
    omega
  have hbudget : OverBudget workingInput s.selected := by
    rw [hs, overBudget_concat]
    omega
  obtain ⟨s', m', hround, hs', hm', hlength⟩ := compress_concat hfront hm hs hbudget hcontent
  exact ⟨s', hround, m', hs', hm', hlength ▸ shortenedLength_stuck hroom hover⟩

theorem ends_compress {s : Compression} (hs : s.selected = front ++ [m])
    (hroom : room workingInput front ≤ 6) : While.Ends (compress workingInput) s := by
  refine While.ends_of_measure (I := fun s => ∃ m : Message, s.selected = front ++ [m] ∧
    ¬m.isSystem) (fun s => s.selected.getLast?.elim 0 fun m => roundsLeft m.content.length) ?_
    ⟨m, hs, hm⟩
  rintro s s' ⟨m, hs, hm⟩ hround
  have hover : OverBudget workingInput s.selected := by
    by_contra hwithin
    rw [compress, if_neg hwithin] at hround
    cases hround
  have hcontent : m.content ≠ "" := by
    intro hempty
    have hnone : longestCandidate s.selected = none := by
      rw [longestCandidate_eq_none, hs]
      intro m' hmem hsystem
      rcases List.mem_append.mp hmem with hmem | hmem
      · exact absurd (hfront m' hmem) hsystem
      · rwa [List.mem_singleton.mp hmem]
    rw [compress, if_pos hover, hnone] at hround
    cases hround
  obtain ⟨s'', m', hround', hs', hm', hlength⟩ := compress_concat hfront hm hs hover hcontent
  cases hround.symm.trans hround'
  refine ⟨⟨m', hs', hm'⟩, ?_⟩
  rw [hs, hs', List.getLast?_concat, List.getLast?_concat]
  change roundsLeft m'.content.length < roundsLeft m.content.length
  rw [hlength]
  refine roundsLeft_shortenedLength hroom (overBudget_concat.mp (hs ▸ hover)) ?_
  exact Nat.pos_of_ne_zero fun hzero => hcontent (String.length_eq_zero_iff.mp hzero)

end

/-! ## The whole call -/

/-- The last message is a system message, or it fits behind the system messages, or these
leave at most ten tokens. -/
def ContextSettles (workingInput : ℤ) (given : List Message) : Prop :=
  ∀ m, given.getLast? = some m → ¬m.isSystem →
    ¬OverBudget workingInput (given.filter Message.isSystem ++ [m]) ∨
      workingInput ≤ estimateMessages (given.filter Message.isSystem) + 10

theorem ends_compress_of_within {workingInput : ℤ} {s : Compression}
    (hwithin : ¬OverBudget workingInput s.selected) : While.Ends (compress workingInput) s :=
  ⟨1, by rw [While.run_succ_of_inr (by rw [compress, if_neg hwithin])]; rfl⟩

theorem ends_compress_of_system {workingInput : ℤ} {s : Compression}
    (hsystem : ∀ m ∈ s.selected, m.isSystem) : While.Ends (compress workingInput) s := by
  by_cases hover : OverBudget workingInput s.selected
  · have hnone : longestCandidate s.selected = none :=
      longestCandidate_eq_none.mpr fun m hm hnot => absurd (hsystem m hm) hnot
    refine ⟨1, ?_⟩
    rw [While.run_succ_of_inr (by rw [compress, if_pos hover, hnone])]
    rfl
  · exact ends_compress_of_within hover

variable {workingInput : ℤ} {given : List Message}

/-- The first loop is left within the budget. -/
theorem settles_of_within {t : Trimming} (htrimmed : TrimmedContext workingInput given t)
    (hwithin : ¬OverBudget workingInput t.selected) : ContextSettles workingInput given := by
  intro m hlast hm
  refine .inl fun hover => hwithin (hover.trans_le ?_)
  obtain ⟨kept, hkept, hmap⟩ := htrimmed.kept
  rw [← hkept.getLast?_map, ← hmap] at hlast
  obtain ⟨front, hfront⟩ := List.getLast?_eq_some_iff.mp hlast
  rw [← htrimmed.system, hfront, List.filter_append, List.filter_cons_of_neg hm, List.filter_nil,
    List.append_nil]
  exact_mod_cast estimateMessages_le_of_sublist (List.filter_sublist.append_right [m])

/-- The second loop after the first one, which leaves a list over the budget only when all
messages but the last one are system messages. -/
theorem ends_compress_iff {t : Trimming} (hpositive : 0 < workingInput)
    (htrimmed : TrimmedContext workingInput given t)
    (hleft : OverBudget workingInput t.selected → ∀ m ∈ t.selected.dropLast, m.isSystem) :
    While.Ends (compress workingInput) (truncate workingInput t.selected) ↔
      ContextSettles workingInput given := by
  by_cases hover : OverBudget workingInput t.selected
  swap
  · refine iff_of_true (ends_compress_of_within ?_) (settles_of_within htrimmed hover)
    rwa [truncate, if_neg hover]
  obtain ⟨kept, hkept, hmap⟩ := htrimmed.kept
  have hlast : t.selected.getLast? = given.getLast? := by rw [hmap, hkept.getLast?_map]
  have hfront := hleft hover
  rcases List.eq_nil_or_concat t.selected with hnil | ⟨front, m, hconcat⟩
  · rw [hnil] at hover
    exact absurd hover (by simp only [OverBudget, estimateMessages, List.map_nil]; simp; omega)
  rw [List.concat_eq_append] at hconcat
  rw [hconcat, List.dropLast_concat] at hfront
  rw [hconcat, List.getLast?_concat] at hlast
  by_cases hm : m.isSystem
  · have hall : ∀ m' ∈ t.selected, m'.isSystem := by
      intro m' hmem
      rw [hconcat] at hmem
      rcases List.mem_append.mp hmem with hmem | hmem
      · exact hfront m' hmem
      · rwa [List.mem_singleton.mp hmem]
    refine iff_of_true (ends_compress_of_system ?_) ?_
    · rwa [(allShortened_truncate workingInput t.selected).eq_of_system hall]
    · intro m' hlast' hm'
      rw [← hlast] at hlast'
      cases hlast'
      exact absurd hm hm'
  · have hsystem : given.filter Message.isSystem = front := by
      rw [← htrimmed.system, hconcat, List.filter_append, List.filter_cons_of_neg hm,
        List.filter_nil, List.append_nil, filter_isSystem_of_front hfront]
    have hsettles : ContextSettles workingInput given ↔ room workingInput front ≤ 6 := by
      unfold ContextSettles
      rw [← hlast, hsystem]
      constructor
      · intro hgiven
        have := (hgiven m rfl hm).resolve_left (not_not_intro (hconcat ▸ hover))
        unfold room messageOverhead
        omega
      · intro hroom m' _ _
        refine .inr ?_
        unfold room messageOverhead at hroom
        omega
    have hcut : (truncate workingInput t.selected).selected =
        front ++ [truncatedMessage (excess workingInput t.selected) m] := by
      rw [truncate, if_pos hover, hconcat, truncationTarget_concat hfront hm]
      exact modify_concat _
    have hm' : ¬(truncatedMessage (excess workingInput t.selected) m).isSystem := hm
    rw [hsettles]
    by_cases hroom : room workingInput front ≤ 6
    · exact iff_of_true (ends_compress hfront hm' hcut hroom) hroom
    · refine iff_of_false (not_ends_compress hfront hm' hcut (by omega) ?_) hroom
      rw [hconcat] at hover ⊢
      rw [length_truncated, excess_concat]
      exact truncatedLength_over (overBudget_concat.mp hover)

/-- The first loop always comes to an end. -/
theorem ends_trim (workingInput : ℤ) (given : List Message) :
    While.Ends (trim workingInput) ⟨given, 0⟩ :=
  While.ends_of_measure (fun t => t.selected.length) (fun _ _ h hround => h.round hround)
    (trimmed_start workingInput given)

theorem fit_ends_iff (budget : ContextBudget) (given : List Message) :
    (∃ rounds, (fit budget given rounds).isSome) ↔ ContextSettles budget.workingInput given := by
  have hloops : (∃ rounds, (fit budget given rounds).isSome) ↔
      ∃ t, (∃ rounds, While.run (trim budget.workingInput) rounds ⟨given, 0⟩ = some t) ∧
        While.Ends (compress budget.workingInput)
          (truncate budget.workingInput t.selected) := by
    rw [← While.isSome_bind_iff]
    simp only [fit, Option.isSome_bind, Option.isSome_map]
  have hsecond : ∀ t, (∃ rounds, While.run (trim budget.workingInput) rounds ⟨given, 0⟩ = some t) →
      (While.Ends (compress budget.workingInput) (truncate budget.workingInput t.selected) ↔
        ContextSettles budget.workingInput given) := by
    rintro t ⟨rounds, hrun⟩
    obtain ⟨t', htrimmed, hleave⟩ := While.run_invariant (fun _ _ h hround => (h.round hround).1)
      hrun (trimmed_start budget.workingInput given)
    obtain ⟨rfl, hleft⟩ := trim_eq_inr hleave
    exact ends_compress_iff budget.positive htrimmed hleft
  rw [hloops]
  constructor
  · rintro ⟨t, hfirst, hends⟩
    exact (hsecond t hfirst).mp hends
  · intro hsettles
    obtain ⟨rounds, hrounds⟩ := ends_trim budget.workingInput given
    obtain ⟨t, ht⟩ := Option.isSome_iff_exists.mp hrounds
    exact ⟨t, ⟨rounds, ht⟩, (hsecond t ⟨rounds, ht⟩).mpr hsettles⟩

theorem terminates_of_error {str : Json → String} {c : AssembleCall} {e : FloatError}
    (hbudget : c.budget = .error e) : Terminates str c := by
  unfold Terminates assemble
  simp only [hbudget, Option.isSome_some, exists_const]

theorem terminates_iff_of_budget {str : Json → String} {c : AssembleCall} {budget : ContextBudget}
    (hbudget : c.budget = .ok budget) :
    Terminates str c ↔ ContextSettles budget.workingInput (normalized str c.messages) := by
  unfold Terminates assemble
  simp only [hbudget, Option.isSome_map]
  exact fit_ends_iff budget _

/-- A call comes to an end if and only if its budget cannot be made, its last message is a
system message, or the budget has room for the last message or for less than seven tokens of
its content. -/
theorem assemble_terminates_iff (str : Json → String) (c : AssembleCall) :
    Terminates str c ↔
      ∀ budget, c.budget = .ok budget →
        ContextSettles budget.workingInput (normalized str c.messages) := by
  constructor
  · intro hends budget hbudget
    exact (terminates_iff_of_budget hbudget).mp hends
  · intro hsettles
    match hbudget : c.budget with
    | .error e => exact terminates_of_error hbudget
    | .ok budget => exact (terminates_iff_of_budget hbudget).mpr (hsettles budget hbudget)

def repeatedText (n : ℕ) : String := String.ofList (List.replicate n 'a')

theorem length_repeatedText (n : ℕ) : (repeatedText n).length = n := by
  rw [repeatedText, String.length_ofList, List.length_replicate]

/-- A question of `n` characters for a model with 2048 tokens of context. -/
def repeatedQuestion (n : ℕ) : AssembleCall where
  messages := [⟨.str "user", .str (repeatedText n)⟩]
  provider := some "openai"
  model := some "gpt-3.5-turbo"
  requestedOutputTokens := some 512
  contextOverride := some 2048

theorem normalized_repeatedQuestion (str : Json → String) (n : ℕ) :
    normalized str (repeatedQuestion n).messages = [] ++ [⟨"user", repeatedText n⟩] := by
  simp [normalized, repeatedQuestion, normalizeMessage_str]

theorem not_settles_repeatedText {n : ℕ} (hn : 5104 < n) :
    ¬ContextSettles 1280 ([] ++ [⟨"user", repeatedText n⟩]) := by
  intro hsettles
  have huser : ¬(⟨"user", repeatedText n⟩ : Message).isSystem := by simp [Message.isSystem]
  have hfront : ([] ++ [(⟨"user", repeatedText n⟩ : Message)]).filter Message.isSystem = [] := by
    simp [Message.isSystem]
  have hempty : estimateMessages [] = 0 := rfl
  have hroom := hsettles ⟨"user", repeatedText n⟩ (List.getLast?_concat ..) huser
  rw [hfront, overBudget_concat, length_repeatedText, room, hempty, messageOverhead] at hroom
  omega

theorem repeatedQuestion_runs_forever : ¬Terminates (fun _ => "") (repeatedQuestion 8000) := by
  have hbudget : (repeatedQuestion 8000).budget = .ok ⟨2048, 512, 256, 1280, by decide⟩ := by
    decide +kernel
  rw [terminates_iff_of_budget hbudget, normalized_repeatedQuestion]
  exact not_settles_repeatedText (by omega)

end Zyntry
