import Zyntry.Chunking
import Mathlib.Data.List.Chain

/-!
# How long chunks are

Consecutive sentences that are joined are split into the same sentences again, so a chunk with
two sentences or more is not a single sentence. Sentences are counted with rounded numbers of
tokens, without the spaces between them, and the sentences that are kept of a full chunk are not
counted together with the next one; the joined text may be too long for either reason.
-/

namespace Zyntry

open Python

/-! ## Sentences that are joined -/

def isStop (c : Char) : Bool := c ∈ ['.', '!', '?']

/-- No white space follows a stop, in a text that comes after a character. -/
def Unbroken : Option Char → List Char → Prop
  | _, [] => True
  | before, c :: cs => ¬(before.any isStop = true ∧ isSpace c = true) ∧ Unbroken (some c) cs

structure IsSentence (s : List Char) : Prop where
  ne_nil : s ≠ []
  head : ∀ c ∈ s.head?, isSpace c = false
  last : ∀ c ∈ s.getLast?, isSpace c = false
  unbroken : Unbroken none s

/-- Sentences of which all but the last end with a stop. -/
structure Sentences (sentences : List (List Char)) : Prop where
  isSentence : ∀ s ∈ sentences, IsSentence s
  stops : sentences.IsChain fun s _ => s.getLast?.any isStop = true

theorem isSpace_of_isStop {c : Char} (h : isStop c = true) : isSpace c = false := by
  simp only [isStop, List.mem_cons, List.not_mem_nil, or_false, decide_eq_true_eq] at h
  obtain rfl | rfl | rfl := h <;> decide

theorem sentenceBreak_cons (before : Option Char) (c : Char) (cs : List Char) :
    sentenceBreak before (c :: cs) =
      if before.any isStop = true ∧ isSpace c = true then
        some ((cs.takeWhile isSpace).length, [])
      else none := by
  unfold sentenceBreak isStop
  cases hc : isSpace c <;> simp [hc]

theorem Unbroken.append {before : Option Char} {cs : List Char} (h : Unbroken before cs)
    {c : Char} (hc : ¬((cs.getLast?.or before).any isStop = true ∧ isSpace c = true)) :
    Unbroken before (cs ++ [c]) := by
  induction cs generalizing before with
  | nil => exact ⟨by simpa using hc, trivial⟩
  | cons d cs ih =>
      refine ⟨h.1, ih h.2 ?_⟩
      cases cs with
      | nil => simpa using hc
      | cons e cs =>
          rw [List.getLast?_cons_cons] at hc
          cases hlast : (e :: cs).getLast? with
          | none => simp at hlast
          | some l => simpa [hlast] using hc

/-- Before a letter, what comes before does not matter. -/
theorem Unbroken.of_head {before before' : Option Char} {cs : List Char}
    (h : Unbroken before cs) (hhead : ∀ c ∈ cs.head?, isSpace c = false) :
    Unbroken before' cs := by
  cases cs with
  | nil => trivial
  | cons c cs =>
      refine ⟨?_, h.2⟩
      rw [hhead c rfl]
      simp

theorem splitAll_unbroken {before : Option Char} {s : List Char} (h : Unbroken before s)
    (part rest : List Char) :
    splitAll sentenceBreak 0 before part (s ++ rest) =
      splitAll sentenceBreak 0 (s.getLast?.or before) (part ++ s) rest := by
  induction s generalizing before part with
  | nil => simp
  | cons c s ih =>
      rw [List.cons_append, splitAll, sentenceBreak_cons, if_neg h.1]
      dsimp only
      rw [ih h.2]
      cases hlast : s.getLast? with
      | none =>
          rw [List.getLast?_eq_none_iff.mp hlast]
          simp
      | some l =>
          have hcons : (c :: s).getLast? = some l := by
            rw [List.getLast?_cons, hlast]
            rfl
          simp [hcons, List.append_assoc]

theorem join_cons_cons (s s' : List Char) (sentences : List (List Char)) :
    join [' '] (s :: s' :: sentences) = s ++ ' ' :: join [' '] (s' :: sentences) := by
  unfold join
  rw [List.intercalate_cons_cons]
  simp

theorem head?_join {s : List Char} (hs : s ≠ []) (sentences : List (List Char)) :
    (join [' '] (s :: sentences)).head? = s.head? := by
  cases s with
  | nil => exact absurd rfl hs
  | cons c s =>
      cases sentences with
      | nil => simp [join]
      | cons s' sentences =>
          rw [join_cons_cons]
          rfl

theorem Sentences.tail {s : List Char} {sentences : List (List Char)}
    (h : Sentences (s :: sentences)) : Sentences sentences :=
  ⟨fun s' hs' => h.isSentence s' (List.mem_cons_of_mem _ hs'), h.stops.tail⟩

theorem splitAll_join {s : List Char} {sentences : List (List Char)}
    (h : Sentences (s :: sentences)) (before : Option Char) :
    splitAll sentenceBreak 0 before [] (join [' '] (s :: sentences)) = s :: sentences := by
  have hs := h.isSentence s List.mem_cons_self
  have hunbroken : Unbroken before s := hs.unbroken.of_head hs.head
  induction sentences generalizing s before with
  | nil =>
      have hsplit := splitAll_unbroken hunbroken [] []
      rw [List.append_nil, List.nil_append] at hsplit
      simpa [join, splitAll] using hsplit
  | cons s' sentences ih =>
      have hs' := h.tail.isSentence s' List.mem_cons_self
      have hstop : (s.getLast?.or before).any isStop = true := by
        have hlast := (List.isChain_cons_cons.mp h.stops).1
        cases hl : s.getLast? with
        | none => simp [hl] at hlast
        | some l => simpa [hl] using hlast
      have hspaces : (join [' '] (s' :: sentences)).takeWhile isSpace = [] := by
        have hhead := head?_join hs'.ne_nil sentences
        cases hjoin : join [' '] (s' :: sentences) with
        | nil => rfl
        | cons c cs =>
            rw [hjoin] at hhead
            rw [List.takeWhile_cons, hs'.head c hhead.symm]
            rfl
      rw [join_cons_cons, splitAll_unbroken hunbroken, splitAll, sentenceBreak_cons,
        if_pos ⟨hstop, by decide⟩, hspaces]
      dsimp only [List.length_nil]
      rw [ih h.tail (some ' ') hs' (hs'.unbroken.of_head hs'.head), List.nil_append]

theorem getLast?_join {sentences : List (List Char)} (h : ∀ s ∈ sentences, s ≠ []) :
    (join [' '] sentences).getLast? = sentences.getLast?.bind List.getLast? := by
  induction sentences with
  | nil => rfl
  | cons s sentences ih =>
      cases sentences with
      | nil => simp [join]
      | cons s' sentences =>
          have hne : join [' '] (s' :: sentences) ≠ [] := by
            intro hnil
            have hhead := head?_join (h s' (by simp)) sentences
            rw [hnil] at hhead
            exact h s' (by simp) (List.head?_eq_none_iff.mp hhead.symm)
          rw [join_cons_cons, List.getLast?_append_of_ne_nil _ (List.cons_ne_nil _ _),
            List.getLast?_cons_cons, ← ih fun t ht => h t (List.mem_cons_of_mem _ ht)]
          cases hj : join [' '] (s' :: sentences) with
          | nil => exact absurd hj hne
          | cons c cs => rw [List.getLast?_cons_cons]

theorem Sentences.cons {s : List Char} {sentences : List (List Char)} (hs : IsSentence s)
    (hstop : s.getLast?.any isStop = true) (h : Sentences sentences) :
    Sentences (s :: sentences) where
  isSentence := by
    intro t ht
    obtain rfl | ht := List.mem_cons.mp ht
    · exact hs
    · exact h.isSentence t ht
  stops := by
    cases sentences with
    | nil => exact List.isChain_singleton _
    | cons s' sentences => exact List.isChain_cons_cons.mpr ⟨hstop, h.stops⟩

/-- What is known of the piece that is being read, `n` characters before the rest of the text. -/
structure Reading (n : ℕ) (before : Option Char) (part cs : List Char) : Prop where
  unbroken : Unbroken none part
  head : ∀ c ∈ (part ++ cs.drop n).head?, isSpace c = false
  last : ∀ c ∈ (part ++ cs.drop n).getLast?, isSpace c = false
  started : part ≠ [] → n = 0 ∧ part.getLast? = before

theorem Reading.isSentence {n : ℕ} {before : Option Char} {part cs : List Char}
    (h : Reading n before part cs) (hne : part ≠ [])
    (hlast : ∀ c ∈ part.getLast?, isSpace c = false) : IsSentence part where
  ne_nil := hne
  head c hc := by
    have hhead := h.head c
    rw [List.head?_append_of_ne_nil _ hne] at hhead
    exact hhead hc
  last := hlast
  unbroken := h.unbroken

theorem splitAll_sentences {n : ℕ} {before : Option Char} {part cs : List Char}
    (h : Reading n before part cs) :
    Sentences ((splitAll sentenceBreak n before part cs).filter (· ≠ [])) := by
  induction cs generalizing n before part with
  | nil =>
      rw [splitAll]
      by_cases hpart : part = []
      · simp only [hpart, ne_eq, not_true_eq_false, decide_false, Bool.false_eq_true,
          not_false_eq_true, List.filter_cons_of_neg, List.filter_nil]
        exact ⟨by simp, List.isChain_nil⟩
      · have hlast := h.last
        rw [List.drop_nil, List.append_nil] at hlast
        rw [List.filter_cons_of_pos (by simpa using hpart), List.filter_nil]
        refine ⟨?_, List.isChain_singleton _⟩
        intro s hs
        rw [List.mem_singleton.mp hs]
        exact h.isSentence hpart hlast
  | cons c cs ih =>
      cases n with
      | succ n =>
          have hpart : part = [] := by
            by_contra hpart
            exact absurd (h.started hpart).1 (Nat.succ_ne_zero n)
          subst hpart
          exact ih ⟨trivial, h.head, h.last, fun hne => absurd rfl hne⟩
      | zero =>
          have hhead := h.head
          have hlast := h.last
          rw [List.drop_zero] at hhead hlast
          rw [splitAll, sentenceBreak_cons]
          split_ifs with hbreak
          · dsimp only
            have hpart : part ≠ [] := by
              intro hpart
              have hc := hhead c (by simp [hpart])
              rw [hbreak.2] at hc
              cases hc
            have hbefore := (h.started hpart).2
            have hstop : part.getLast?.any isStop = true := hbefore ▸ hbreak.1
            rw [List.filter_cons_of_pos (by simpa using hpart)]
            apply Sentences.cons
            · apply h.isSentence hpart
              intro l hl
              rw [Option.mem_def.mp hl] at hstop
              exact isSpace_of_isStop hstop
            · exact hstop
            · refine ih ⟨trivial, ?_, ?_, fun hne => absurd rfl hne⟩
              · have hrule := sentenceBreak_cons before c cs
                rw [if_pos hbreak] at hrule
                exact head_sentenceBreak before (c :: cs) _ _ hrule
              · intro l hl
                rw [List.nil_append, List.getLast?_drop] at hl
                split_ifs at hl
                · cases hl
                · apply hlast l
                  rw [List.getLast?_append_of_ne_nil _ (List.cons_ne_nil _ _), List.getLast?_cons, hl]
                  rfl
          · dsimp only
            refine ih ⟨h.unbroken.append ?_, ?_, ?_, ?_⟩
            · by_cases hpart : part = []
              · simp [hpart]
              · rw [(h.started hpart).2, Option.or_none]
                exact hbreak
            · rwa [List.drop_zero, List.append_assoc, List.singleton_append]
            · rwa [List.drop_zero, List.append_assoc, List.singleton_append]
            · exact fun _ => ⟨rfl, by simp⟩

theorem sentences_splitSentences (text : List Char) : Sentences (splitSentences text) := by
  apply splitAll_sentences
  refine ⟨trivial, ?_, ?_, fun hne => absurd rfl hne⟩
  · rw [List.drop_zero, List.nil_append]
    exact head_strip text
  · rw [List.drop_zero, List.nil_append]
    intro c hc
    obtain ⟨hne, rfl⟩ := List.mem_getLast?_eq_getLast hc
    exact Bool.eq_false_of_not_eq_true (List.rdropWhile_last_not _ _ hne)

theorem Sentences.window {sentences window : List (List Char)} (h : Sentences sentences)
    (hwindow : window <:+: sentences) : Sentences window :=
  ⟨fun s hs => h.isSentence s (hwindow.subset hs), h.stops.infix hwindow⟩

/-- Consecutive sentences are found again in the text that joins them. -/
theorem splitSentences_join {sentences : List (List Char)} (h : Sentences sentences) :
    splitSentences (join [' '] sentences) = sentences := by
  cases sentences with
  | nil => rfl
  | cons s sentences =>
      have hs := h.isSentence s List.mem_cons_self
      have hstrip : strip (join [' '] (s :: sentences)) = join [' '] (s :: sentences) := by
        apply strip_eq_self
        · rw [head?_join hs.ne_nil]
          exact hs.head
        · rw [getLast?_join fun t ht => (h.isSentence t ht).ne_nil]
          intro c hc
          obtain ⟨t, ht, hc⟩ := Option.bind_eq_some_iff.mp hc
          exact (h.isSentence t (List.mem_of_getLast? ht)).last c hc
      rw [splitSentences, hstrip, splitAll_join h, List.filter_eq_self]
      intro t ht
      exact decide_eq_true (h.isSentence t ht).ne_nil

/-! ## The loop over the sentences -/

/-- The tokens of the text that joins sentences. -/
def joinedTokens (sentences : List (List Char)) : ℕ :=
  max 1 (((sentences.map fun s => s.length + 1).sum - 1) / charsPerToken)

/-- A chunk is within the limit, or it is a single sentence. -/
def WithinTokens (tokenLimit : ℕ) (chunk : List Char) : Prop :=
  estimateTokens chunk ≤ tokenLimit ∨ splitSentences chunk = [chunk]

/-- Wherever a sentence is put behind others, which have been collected or are kept of a full
chunk, the text that joins them is within the limit. -/
def StepsFit (tokenLimit overlap : ℕ) : List (List Char) → List (List Char) → Prop
  | _, [] => True
  | current, sentence :: sentences =>
      let behind :=
        if tokenLimit < ((current ++ [sentence]).map estimateTokens).sum then
          keptSentences overlap current
        else current
      (behind ≠ [] → joinedTokens (behind ++ [sentence]) ≤ tokenLimit) ∧
        StepsFit tokenLimit overlap (behind ++ [sentence]) sentences

theorem length_join (sentences : List (List Char)) :
    (join [' '] sentences).length = (sentences.map fun s => s.length + 1).sum - 1 := by
  induction sentences with
  | nil => rfl
  | cons s sentences ih =>
      cases sentences with
      | nil => simp [join]
      | cons s' sentences =>
          rw [join_cons_cons, List.length_append, List.length_cons, ih]
          simp only [List.map_cons, List.sum_cons]
          omega

theorem estimateTokens_join (sentences : List (List Char)) :
    estimateTokens (join [' '] sentences) = joinedTokens sentences := by
  rw [estimateTokens, length_join, joinedTokens]

theorem joinedTokens_le_append (sentences more : List (List Char)) :
    joinedTokens sentences ≤ joinedTokens (sentences ++ more) := by
  unfold joinedTokens
  rw [List.map_append, List.sum_append]
  exact max_le_max le_rfl (Nat.div_le_div_right (by omega))

theorem withinTokens_join_iff {tokenLimit : ℕ} {sentences : List (List Char)}
    (h : Sentences sentences) (hne : sentences ≠ []) :
    WithinTokens tokenLimit (join [' '] sentences) ↔
      sentences.length = 1 ∨ joinedTokens sentences ≤ tokenLimit := by
  have hsingle : splitSentences (join [' '] sentences) = [join [' '] sentences] ↔
      sentences.length = 1 := by
    rw [splitSentences_join h]
    constructor
    · intro hjoin
      rw [hjoin]
      rfl
    · intro hlength
      obtain ⟨s, rfl⟩ := List.length_eq_one_iff.mp hlength
      simp [join]
  rw [WithinTokens, estimateTokens_join, hsingle, or_comm]

section

variable {tokenLimit overlap : ℕ}

theorem keptSentences_nil : keptSentences overlap [] = [] := by
  obtain ⟨k, hk⟩ := keptSentences_suffix overlap []
  rw [hk, List.drop_nil]

/-- A sentence is read: a chunk may be closed, and the sentence is put behind what is left. -/
theorem sentenceLoop_cons (tokenLimit overlap : ℕ) (current sentences : List (List Char)) (sentence : List Char) :
    ∃ k, (if tokenLimit < ((current ++ [sentence]).map estimateTokens).sum then
        keptSentences overlap current else current) = current.drop k ∧
      ∃ closed, (closed = [] ∧ current.drop k = current ∨
          current ≠ [] ∧ closed = [join [' '] current]) ∧
        sentenceLoop tokenLimit overlap current (current.map estimateTokens).sum
            (sentence :: sentences) =
          closed ++ sentenceLoop tokenLimit overlap (current.drop k ++ [sentence])
            ((current.drop k ++ [sentence]).map estimateTokens).sum sentences := by
  have hsum : ∀ before : List (List Char), ((before ++ [sentence]).map estimateTokens).sum =
      (before.map estimateTokens).sum + estimateTokens sentence := by
    intro before
    rw [List.map_append, List.sum_append, List.map_singleton, List.sum_singleton]
  rw [hsum]
  by_cases hcurrent : current = []
  · refine ⟨0, ?_, [], .inl ⟨rfl, rfl⟩, ?_⟩
    · rw [hcurrent, keptSentences_nil, ite_self, List.drop_nil]
    · simp [hcurrent, sentenceLoop]
  · split_ifs with hfull
    · obtain ⟨k, hk⟩ := keptSentences_suffix overlap current
      refine ⟨k, hk, _, .inr ⟨hcurrent, rfl⟩, ?_⟩
      rw [sentenceLoop, if_pos ⟨hcurrent, hfull⟩, hsum, hk, List.singleton_append]
    · refine ⟨0, rfl, [], .inl ⟨rfl, rfl⟩, ?_⟩
      rw [sentenceLoop, if_neg fun h => hfull h.2, List.drop_zero, hsum, List.nil_append]

/-- The first chunk that is closed begins with what has been collected. -/
theorem exists_first_chunk (tokenLimit overlap : ℕ) {current : List (List Char)}
    (hne : current ≠ []) (sentences : List (List Char)) : ∃ more rest, (current ++ more) <+: (current ++ sentences) ∧
      sentenceLoop tokenLimit overlap current (current.map estimateTokens).sum sentences =
        join [' '] (current ++ more) :: rest := by
  induction sentences generalizing current with
  | nil =>
      refine ⟨[], [], List.prefix_rfl, ?_⟩
      rw [sentenceLoop, if_neg hne, List.append_nil]
  | cons sentence sentences ih =>
      obtain ⟨k, -, closed, hclosed, hloop⟩ :=
        sentenceLoop_cons tokenLimit overlap current sentences sentence
      rw [hloop]
      obtain ⟨rfl, hall⟩ | ⟨-, rfl⟩ := hclosed
      · obtain ⟨more, rest, hprefix, hfirst⟩ := ih (by simp : current ++ [sentence] ≠ [])
        refine ⟨sentence :: more, rest, ?_, ?_⟩
        · simpa using hprefix
        · rw [hall, List.nil_append, hfirst, List.append_assoc, List.singleton_append]
      · exact ⟨[], _, by simp, by rw [List.append_nil]; rfl⟩

theorem Sentences.withinTokens_join {sentences : List (List Char)} (h : Sentences sentences)
    (hne : sentences ≠ [])
    (hfits : sentences.length ≤ 1 ∨ joinedTokens sentences ≤ tokenLimit) :
    WithinTokens tokenLimit (join [' '] sentences) := by
  have hlength := List.length_pos_iff.mpr hne
  rw [withinTokens_join_iff h hne]
  obtain hshort | hfits := hfits
  · exact .inl (by omega)
  · exact .inr hfits

theorem Sentences.behind {current sentences : List (List Char)} {sentence : List Char}
    (h : Sentences (current ++ sentence :: sentences)) (k : ℕ) :
    Sentences ((current.drop k ++ [sentence]) ++ sentences) := by
  apply h.window
  rw [List.append_assoc, List.singleton_append]
  obtain ⟨before, hbefore⟩ := List.drop_suffix k current
  exact ⟨before, [], by rw [List.append_nil, ← List.append_assoc, hbefore]⟩

theorem withinTokens_of_stepsFit {current sentences : List (List Char)}
    (h : Sentences (current ++ sentences))
    (hcurrent : current.length ≤ 1 ∨ joinedTokens current ≤ tokenLimit)
    (hsteps : StepsFit tokenLimit overlap current sentences) :
    ∀ chunk ∈ sentenceLoop tokenLimit overlap current (current.map estimateTokens).sum sentences,
      WithinTokens tokenLimit chunk := by
  induction sentences generalizing current with
  | nil =>
      intro chunk hchunk
      rw [List.append_nil] at h
      rw [sentenceLoop] at hchunk
      split_ifs at hchunk with hne
      · cases hchunk
      · rw [List.mem_singleton.mp hchunk]
        exact h.withinTokens_join hne hcurrent
  | cons sentence sentences ih =>
      obtain ⟨k, hbehind, closed, hclosed, hloop⟩ :=
        sentenceLoop_cons tokenLimit overlap current sentences sentence
      simp only [StepsFit, hbehind] at hsteps
      obtain ⟨hstep, hsteps⟩ := hsteps
      have hnext : (current.drop k ++ [sentence]).length ≤ 1 ∨
          joinedTokens (current.drop k ++ [sentence]) ≤ tokenLimit := by
        by_cases hne : current.drop k = []
        · simp [hne]
        · exact .inr (hstep hne)
      rw [hloop]
      intro chunk hchunk
      obtain hchunk | hchunk := List.mem_append.mp hchunk
      · obtain ⟨rfl, -⟩ | ⟨hne, rfl⟩ := hclosed
        · cases hchunk
        · rw [List.mem_singleton.mp hchunk]
          exact (h.window (List.prefix_append _ _).isInfix).withinTokens_join hne hcurrent
      · exact ih (h.behind k) hnext hsteps chunk hchunk

theorem stepsFit_of_withinTokens {current sentences : List (List Char)}
    (h : Sentences (current ++ sentences))
    (hchunks : ∀ chunk ∈
      sentenceLoop tokenLimit overlap current (current.map estimateTokens).sum sentences,
        WithinTokens tokenLimit chunk) :
    StepsFit tokenLimit overlap current sentences := by
  induction sentences generalizing current with
  | nil => trivial
  | cons sentence sentences ih =>
      obtain ⟨k, hbehind, closed, -, hloop⟩ :=
        sentenceLoop_cons tokenLimit overlap current sentences sentence
      have hlater : ∀ chunk ∈ sentenceLoop tokenLimit overlap (current.drop k ++ [sentence])
          ((current.drop k ++ [sentence]).map estimateTokens).sum sentences,
            WithinTokens tokenLimit chunk := by
        intro chunk hchunk
        exact hchunks chunk (hloop ▸ List.mem_append_right closed hchunk)
      simp only [StepsFit, hbehind]
      refine ⟨?_, ih (h.behind k) hlater⟩
      intro hne
      -- the chunk that begins with these sentences has two of them at least
      obtain ⟨more, rest, hprefix, hfirst⟩ := exists_first_chunk tokenLimit overlap
        (by simp : current.drop k ++ [sentence] ≠ []) sentences
      have hwithin := hlater _ (hfirst ▸ List.mem_cons_self)
      rw [withinTokens_join_iff ((h.behind k).window hprefix.isInfix) (by simp)] at hwithin
      have hlength := List.length_pos_iff.mpr hne
      obtain hsingle | hfits := hwithin
      · simp only [List.length_append, List.length_singleton] at hsingle
        omega
      · exact (joinedTokens_le_append _ more).trans hfits

end

/-! ## Sections -/

/-- A section is one chunk, or the steps through its sentences fit. -/
def SectionFits (chunkSize overlap : ℕ) (content : List Char) : Prop :=
  estimateTokens content ≤ chunkSize / charsPerToken ∨
    StepsFit (chunkSize / charsPerToken) overlap [] (splitSentences content)

def AllWithinTokens (chunkSize : ℕ) (chunks : List (List Char)) : Prop :=
  ∀ chunk ∈ chunks, WithinTokens (chunkSize / charsPerToken) chunk

theorem chunkSentences_withinTokens_iff (chunkSize overlap : ℕ) (text : List Char) :
    AllWithinTokens chunkSize (chunkSentences chunkSize overlap text) ↔
      StepsFit (chunkSize / charsPerToken) overlap [] (splitSentences text) := by
  unfold chunkSentences
  dsimp only
  by_cases hnil : splitSentences text = []
  · have hblank := splitSentences_eq_nil.mp hnil
    rw [if_pos hnil, if_pos hblank, hnil]
    exact ⟨fun _ => trivial, fun _ chunk hchunk => by cases hchunk⟩
  · rw [if_neg hnil, nonBlankChunks_sentenceLoop]
    have h : Sentences ([] ++ splitSentences text) := sentences_splitSentences text
    exact ⟨stepsFit_of_withinTokens h, withinTokens_of_stepsFit h (.inl (Nat.zero_le 1))⟩

theorem sectionChunks_withinTokens_iff (chunkSize overlap : ℕ) (content : List Char) :
    AllWithinTokens chunkSize (sectionChunks chunkSize overlap content) ↔
      SectionFits chunkSize overlap content := by
  unfold sectionChunks SectionFits
  split_ifs with hblank hfits
  · rw [splitSentences_eq_nil.mpr hblank]
    exact ⟨fun _ => .inr trivial, fun _ chunk hchunk => by cases hchunk⟩
  · refine ⟨fun _ => .inl hfits, fun _ chunk hchunk => ?_⟩
    rw [List.mem_singleton.mp hchunk]
    exact .inl hfits
  · rw [chunkSentences_withinTokens_iff, or_iff_right hfits]

def headingSections (text : List Char) : List (List Char) :=
  if strip text = [] then []
  else
    let scan := (text.splitOn '\n').foldl headingLine {}
    (scan.closed scan.currentLines).map Prod.snd

def markdownSections (text : List Char) : List (List Char) :=
  if strip text = [] then []
  else
    let scan := (text.splitOn '\n').foldl markdownLine {}
    (scan.closed (scan.currentLines ++ scan.codeBuffer)).map Prod.snd

def codeSections (isWord : Char → Bool) (text : List Char) : List (List Char) :=
  if strip text = [] then []
  else
    let lines := text.splitOn '\n'
    codeBlocks lines ((codeBoundaries isWord {} 0 lines).boundaries ++ [lines.length])

section

variable {chunkSize overlap : ℕ}

theorem strip_ne_nil_of_mem_chunkSentences {text chunk : List Char}
    (h : chunk ∈ chunkSentences chunkSize overlap text) : strip chunk ≠ [] := by
  unfold chunkSentences at h
  dsimp only at h
  split_ifs at h with hnil hblank
  · cases h
  · exact absurd (splitSentences_eq_nil.mp hnil) hblank
  · exact of_decide_eq_true (List.mem_filter.mp h).2

theorem strip_ne_nil_of_mem_sectionChunks {content chunk : List Char}
    (h : chunk ∈ sectionChunks chunkSize overlap content) : strip chunk ≠ [] := by
  unfold sectionChunks at h
  split_ifs at h with hblank
  · cases h
  · rwa [List.mem_singleton.mp h]
  · exact strip_ne_nil_of_mem_chunkSentences h

theorem nonBlankChunks_sections (sections : List (List Char)) :
    nonBlankChunks (sections.flatMap (sectionChunks chunkSize overlap)) =
      sections.flatMap (sectionChunks chunkSize overlap) := by
  rw [nonBlankChunks, List.filter_eq_self]
  intro chunk hchunk
  obtain ⟨content, -, hchunk⟩ := List.mem_flatMap.mp hchunk
  exact decide_eq_true (strip_ne_nil_of_mem_sectionChunks hchunk)

theorem sections_withinTokens_iff (sections : List (List Char)) :
    AllWithinTokens chunkSize (sections.flatMap (sectionChunks chunkSize overlap)) ↔
      ∀ content ∈ sections, SectionFits chunkSize overlap content := by
  simp only [← sectionChunks_withinTokens_iff]
  constructor
  · intro h content hcontent chunk hchunk
    exact h chunk (List.mem_flatMap.mpr ⟨content, hcontent, hchunk⟩)
  · intro h chunk hchunk
    obtain ⟨content, hcontent, hchunk⟩ := List.mem_flatMap.mp hchunk
    exact h content hcontent chunk hchunk

end

theorem chunkHeading_eq (text : List Char) (chunkSize overlap : ℕ) :
    chunkHeading text chunkSize overlap =
      (headingSections text).flatMap (sectionChunks chunkSize overlap) := by
  unfold chunkHeading headingSections
  split_ifs
  · rfl
  · dsimp only
    rw [← List.flatMap_map Prod.snd (sectionChunks chunkSize overlap), nonBlankChunks_sections]

theorem chunkMarkdown_eq (text : List Char) (chunkSize overlap : ℕ) :
    chunkMarkdown text chunkSize overlap =
      (markdownSections text).flatMap (sectionChunks chunkSize overlap) := by
  unfold chunkMarkdown markdownSections
  split_ifs
  · rfl
  · dsimp only
    rw [← List.flatMap_map Prod.snd (sectionChunks chunkSize overlap), nonBlankChunks_sections]

theorem strip_eq_nil_of_sectionChunks {chunkSize overlap : ℕ} {content : List Char}
    (h : sectionChunks chunkSize overlap content = []) : strip content = [] := by
  by_contra hblank
  have hnil : splitSentences content ≠ [] := fun hnil => hblank (splitSentences_eq_nil.mp hnil)
  unfold sectionChunks at h
  rw [if_neg hblank] at h
  split_ifs at h
  unfold chunkSentences at h
  dsimp only at h
  rw [if_neg hnil, nonBlankChunks_sentenceLoop] at h
  obtain ⟨windows, hwindows, hchunks⟩ :=
    sentenceLoop_splitSentences (chunkSize / charsPerToken) overlap content
  rw [h] at hchunks
  rw [List.map_eq_nil_iff.mp hchunks.symm] at hwindows
  exact hnil (List.length_eq_zero_iff.mp (Eq.symm hwindows))

theorem letters_codeSections (isWord : Char → Bool) (text : List Char) :
    (codeSections isWord text).flatMap letters = letters text := by
  have hstart : Boundaries 0 ({} : BoundaryScan).boundaries := ⟨rfl, by simp, by simp⟩
  have hboundaries := boundaries_codeBoundaries isWord hstart (text.splitOn '\n')
  rw [Nat.zero_add] at hboundaries
  unfold codeSections
  split_ifs with hblank
  · exact (strip_eq_nil.mp hblank).symm
  · dsimp only
    rw [letters_codeBoundaries hboundaries, letters_lines]

/-- The blocks of a text that is not blank give a chunk. -/
theorem chunkCode_eq (isWord : Char → Bool) (text : List Char) (chunkSize overlap : ℕ) :
    chunkCode isWord text chunkSize overlap =
      (codeSections isWord text).flatMap (sectionChunks chunkSize overlap) := by
  by_cases hblank : strip text = []
  · rw [chunkCode, codeSections, if_pos hblank]
    simp [hblank]
  have hsections : (codeSections isWord text).flatMap (sectionChunks chunkSize overlap) ≠ [] := by
    intro hnone
    apply hblank
    rw [strip_eq_nil, ← letters_codeSections isWord, List.flatMap_eq_nil_iff]
    intro content hcontent
    exact strip_eq_nil.mp
      (strip_eq_nil_of_sectionChunks (List.flatMap_eq_nil_iff.mp hnone content hcontent))
  have hne : text.splitOn '\n' ≠ [] := List.splitOn_ne_nil _ _
  unfold codeSections at hsections ⊢
  rw [if_neg hblank] at hsections ⊢
  unfold chunkCode
  dsimp only at hsections ⊢
  rw [if_neg (by simp [hblank, hne]), if_neg fun h => hsections h.1, nonBlankChunks_sections]

/-- The chunks of a strategy are within the limit, single sentences apart, exactly if in each
section that is too long every sentence that is put behind others still fits. -/
theorem chunks_withinTokens_iff (isWord : Char → Bool) (text : List Char) (chunkSize overlap : ℕ) :
    (AllWithinTokens chunkSize (chunkSemantic text chunkSize overlap) ↔
        StepsFit (chunkSize / charsPerToken) overlap [] (splitSentences text)) ∧
      (AllWithinTokens chunkSize (chunkMarkdown text chunkSize overlap) ↔
        ∀ content ∈ markdownSections text, SectionFits chunkSize overlap content) ∧
      (AllWithinTokens chunkSize (chunkCode isWord text chunkSize overlap) ↔
        ∀ content ∈ codeSections isWord text, SectionFits chunkSize overlap content) ∧
      (AllWithinTokens chunkSize (chunkHeading text chunkSize overlap) ↔
        ∀ content ∈ headingSections text, SectionFits chunkSize overlap content) := by
  refine ⟨?_, ?_, ?_, ?_⟩
  · unfold chunkSemantic
    split_ifs with hblank
    · rw [splitSentences_eq_nil.mpr hblank]
      exact ⟨fun _ => trivial, fun _ chunk hchunk => by cases hchunk⟩
    · exact chunkSentences_withinTokens_iff chunkSize overlap text
  · rw [chunkMarkdown_eq, sections_withinTokens_iff]
  · rw [chunkCode_eq, sections_withinTokens_iff]
  · rw [chunkHeading_eq, sections_withinTokens_iff]

/-- Sixteen sentences of seven characters count one token each. -/
def shortSentences : List Char := (List.replicate 16 "abcdef. ".toList).flatten

/-- They are put into one chunk of 31 tokens, where 16 are allowed. -/
theorem chunkSemantic_exceeds_limit :
    ∃ chunk ∈ chunkSemantic shortSentences 64 0,
      ¬ WithinTokens (64 / charsPerToken) chunk := by
  have hchunks : chunkSemantic shortSentences 64 0 =
      [join [' '] (List.replicate 16 "abcdef.".toList)] := by
    decide +kernel
  refine ⟨_, hchunks ▸ List.mem_singleton_self _, ?_⟩
  intro hwithin
  obtain hfits | hsingle := hwithin
  · exact absurd hfits (by decide +kernel)
  · exact absurd hsingle (by decide +kernel)

end Zyntry
