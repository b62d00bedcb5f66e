import Zyntry.TextPieces

/-!
# Semantic chunks

A text is split after its full stops, and sentences are collected until a chunk is full. The
next chunk starts with the last sentences of the one before it, as many as the overlap holds.
-/

namespace Zyntry

open Python

/-- `_CHARS_PER_TOKEN`. -/
def charsPerToken : ℕ := 4

def estimateTokens (text : List Char) : ℕ := max 1 (text.length / charsPerToken)

/-- `(?<=[.!?])\s+`. -/
def sentenceBreak : Rule := fun before cs =>
  let spaces := (cs.takeWhile isSpace).length
  if before.any (· ∈ ['.', '!', '?']) ∧ spaces ≠ 0 then some (spaces - 1, []) else none

def splitSentences (text : List Char) : List (List Char) :=
  (splitAll sentenceBreak 0 none [] (strip text)).filter (· ≠ [])

/-- `[c for c in chunks if c.strip()]`. -/
def nonBlankChunks (chunks : List (List Char)) : List (List Char) :=
  chunks.filter fun c => strip c ≠ []

/-- The loop over `reversed(current)`, with `overlap_chars` and `keep`. -/
def keepOverlap (limit : ℕ) : ℕ → List (List Char) → List (List Char) → List (List Char)
  | _, keep, [] => keep
  | used, keep, s :: rest =>
      if used + estimateTokens s ≤ limit then
        keepOverlap limit (used + estimateTokens s) (s :: keep) rest
      else keep

/-- The sentences with which the chunk after `current` starts. -/
def keptSentences (overlap : ℕ) (current : List (List Char)) : List (List Char) :=
  if 0 < overlap then keepOverlap (overlap / charsPerToken) 0 [] current.reverse else []

/-- The loop over the sentences, with `current` and `current_len`. -/
def sentenceLoop (tokenLimit overlap : ℕ) :
    List (List Char) → ℕ → List (List Char) → List (List Char)
  | current, _, [] => if current = [] then [] else [join [' '] current]
  | current, currentLen, sentence :: sentences =>
      let tokenLen := estimateTokens sentence
      if current ≠ [] ∧ tokenLimit < currentLen + tokenLen then
        let keep := keptSentences overlap current
        join [' '] current :: sentenceLoop tokenLimit overlap (keep ++ [sentence])
          ((keep.map estimateTokens).sum + tokenLen) sentences
      else
        sentenceLoop tokenLimit overlap (current ++ [sentence]) (currentLen + tokenLen) sentences

/-- `_chunk_semantic`. -/
def chunkSentences (chunkSize overlap : ℕ) (text : List Char) : List (List Char) :=
  let sentences := splitSentences text
  if sentences = [] then if strip text = [] then [] else [text]
  else nonBlankChunks (sentenceLoop (chunkSize / charsPerToken) overlap [] 0 sentences)

def chunkSemantic (text : List Char) (chunkSize overlap : ℕ) : List (List Char) :=
  if strip text = [] then [] else chunkSentences chunkSize overlap text

example :
    splitSentences " One. Two!  Is it 3.14?\nYes ".toList =
      ["One.".toList, "Two!".toList, "Is it 3.14?".toList, "Yes".toList] := by
  decide +kernel

/-! ## Sentences -/

variable {text : List Char}

theorem letters_sentenceBreak (before : Option Char) (cs : List Char) (n : ℕ) (new : List Char)
    (h : sentenceBreak before cs = some (n, new)) : letters (cs.take (n + 1)) = [] := by
  simp only [sentenceBreak] at h
  split_ifs at h with hbreak
  simp only [Option.some.injEq, Prod.mk.injEq] at h
  rw [letters_eq_nil]
  intro c hc
  have hwidth : n + 1 = (cs.takeWhile isSpace).length := by
    have := hbreak.2
    omega
  rw [hwidth, ← List.prefix_iff_eq_take.mp (List.takeWhile_prefix isSpace)] at hc
  exact List.mem_takeWhile_imp hc

theorem head_sentenceBreak (before : Option Char) (cs : List Char) (n : ℕ) (new : List Char)
    (h : sentenceBreak before cs = some (n, new)) :
    ∀ c ∈ (cs.drop (n + 1)).head?, isSpace c = false := by
  simp only [sentenceBreak] at h
  split_ifs at h with hbreak
  simp only [Option.some.injEq, Prod.mk.injEq] at h
  have hwidth : n + 1 = (cs.takeWhile isSpace).length := by
    have := hbreak.2
    omega
  have hdrop : cs.drop (n + 1) = cs.dropWhile isSpace := by
    conv_lhs => rw [← List.takeWhile_append_dropWhile (p := isSpace) (l := cs)]
    rw [hwidth, List.drop_left]
  rw [hdrop]
  exact head_dropWhile_isSpace cs

theorem flatMap_filter_ne_nil (parts : List (List Char)) :
    (parts.filter (· ≠ [])).flatMap letters = parts.flatMap letters := by
  induction parts with
  | nil => rfl
  | cons part parts ih =>
      by_cases hpart : part = []
      · rw [List.filter_cons_of_neg (by simpa using hpart), ih, hpart]
        rfl
      · rw [List.filter_cons_of_pos (by simpa using hpart), List.flatMap_cons, ih,
          List.flatMap_cons]

theorem letters_splitSentences (text : List Char) :
    (splitSentences text).flatMap letters = letters text := by
  unfold splitSentences
  rw [flatMap_filter_ne_nil, letters_splitAll letters_sentenceBreak, List.drop_zero, letters_strip,
    letters_nil, List.nil_append]

/-- A sentence starts with a letter. -/
theorem strip_sentence_ne_nil : ∀ s ∈ splitSentences text, strip s ≠ [] := by
  intro s hs
  obtain ⟨hpiece, hne⟩ := List.mem_filter.mp hs
  have hhead := head_splitAll head_sentenceBreak 0 none [] (strip text)
    (by simpa using head_strip text) s hpiece
  cases s with
  | nil => simp at hne
  | cons c s => exact strip_ne_nil_of_head (hhead c rfl)

theorem splitSentences_eq_nil : splitSentences text = [] ↔ strip text = [] := by
  constructor
  · intro hnil
    rw [strip_eq_nil, ← letters_splitSentences, hnil, List.flatMap_nil]
  · intro hblank
    simp [splitSentences, hblank, splitAll]

theorem letters_nonBlankChunks (chunks : List (List Char)) :
    (nonBlankChunks chunks).flatMap letters = chunks.flatMap letters := by
  induction chunks with
  | nil => rfl
  | cons chunk chunks ih =>
      unfold nonBlankChunks at ih ⊢
      by_cases hblank : strip chunk = []
      · rw [List.filter_cons_of_neg (by simpa using hblank), ih, List.flatMap_cons,
          strip_eq_nil.mp hblank, List.nil_append]
      · rw [List.filter_cons_of_pos (by simpa using hblank), List.flatMap_cons, ih,
          List.flatMap_cons]

/-! ## Without an overlap -/

theorem letters_sentenceLoop (limit : ℕ) (current : List (List Char)) (currentLen : ℕ)
    (sentences : List (List Char)) :
    (sentenceLoop limit 0 current currentLen sentences).flatMap letters =
      current.flatMap letters ++ sentences.flatMap letters := by
  induction sentences generalizing current currentLen with
  | nil =>
      unfold sentenceLoop
      by_cases hcurrent : current = []
      · rw [if_pos hcurrent, hcurrent]
        rfl
      · rw [if_neg hcurrent, List.flatMap_singleton, letters_join (by decide), List.flatMap_nil,
          List.append_nil]
  | cons sentence sentences ih =>
      simp only [sentenceLoop]
      split_ifs
      · rw [List.flatMap_cons, letters_join (by decide), ih, keptSentences, if_neg (by decide),
          List.nil_append, List.flatMap_singleton, List.flatMap_cons]
      · rw [ih, List.flatMap_append, List.flatMap_singleton, List.append_assoc, List.flatMap_cons]

theorem letters_chunkSentences (chunkSize : ℕ) (text : List Char) :
    (chunkSentences chunkSize 0 text).flatMap letters = letters text := by
  unfold chunkSentences
  by_cases hnil : splitSentences text = []
  · have hblank := splitSentences_eq_nil.mp hnil
    simp [hnil, hblank, strip_eq_nil.mp hblank]
  · simp only [hnil, if_false]
    rw [letters_nonBlankChunks, letters_sentenceLoop, letters_splitSentences]
    rfl

theorem letters_chunkSemantic (text : List Char) (chunkSize : ℕ) :
    (chunkSemantic text chunkSize 0).flatMap letters = letters text := by
  unfold chunkSemantic
  split_ifs with hblank
  · exact (strip_eq_nil.mp hblank).symm
  · exact letters_chunkSentences chunkSize text

/-! ## Windows -/

/-- Windows of a list of length `n`, after one that has ended at `stop`: each starts where the
one before it has ended or earlier, and ends later; the last one ends at `n`. -/
def Advances (n : ℕ) : ℕ → List (ℕ × ℕ) → Prop
  | stop, [] => stop = n
  | stop, window :: windows => window.1 ≤ stop ∧ stop < window.2 ∧ Advances n window.2 windows

theorem Advances.bounds {n stop : ℕ} {windows : List (ℕ × ℕ)} (h : Advances n stop windows) :
    stop ≤ n ∧ ∀ window ∈ windows, window.1 < window.2 ∧ window.2 ≤ n := by
  induction windows generalizing stop with
  | nil => exact ⟨h.le, by simp⟩
  | cons window windows ih =>
      obtain ⟨hstart, hstop, hwindows⟩ := h
      obtain ⟨hend, hbounds⟩ := ih hwindows
      refine ⟨by omega, fun w hw => ?_⟩
      rcases List.mem_cons.mp hw with rfl | hw
      · exact ⟨by omega, hend⟩
      · exact hbounds w hw

theorem keepOverlap_suffix (limit used : ℕ) (keep rest : List (List Char)) :
    ∃ k, keepOverlap limit used keep rest = (rest.take k).reverse ++ keep := by
  induction rest generalizing used keep with
  | nil => exact ⟨0, rfl⟩
  | cons s rest ih =>
      unfold keepOverlap
      split_ifs
      · obtain ⟨k, hk⟩ := ih (used + estimateTokens s) (s :: keep)
        refine ⟨k + 1, ?_⟩
        rw [hk, List.take_succ_cons, List.reverse_cons, List.append_assoc, List.singleton_append]
      · exact ⟨0, rfl⟩

theorem keptSentences_suffix (overlap : ℕ) (current : List (List Char)) :
    ∃ k, keptSentences overlap current = current.drop k := by
  unfold keptSentences
  split_ifs
  · obtain ⟨k, hk⟩ := keepOverlap_suffix (overlap / charsPerToken) 0 [] current.reverse
    refine ⟨current.length - k, ?_⟩
    rw [hk, List.append_nil, List.take_reverse, List.reverse_reverse]
  · exact ⟨current.length, (List.drop_length).symm⟩

theorem slice_append_left (xs ys : List (List Char)) (start : ℕ) :
    slice (xs ++ ys) start xs.length = xs.drop start := by
  simp [slice]

/-- The sentences that are collected are the last ones that have been read; the last chunk has
ended before one of them. -/
theorem sentenceLoop_windows (limit overlap : ℕ) {start stop : ℕ} {current : List (List Char)}
    (currentLen : ℕ) (before rest : List (List Char)) (hcurrent : current = before.drop start)
    (hstart : start ≤ stop) (hstop : stop < before.length ∨ current = [] ∧ stop = before.length) :
    ∃ windows, Advances (before ++ rest).length stop windows ∧
      sentenceLoop limit overlap current currentLen rest =
        windows.map fun w => join [' '] (slice (before ++ rest) w.1 w.2) := by
  induction rest generalizing start stop current currentLen before with
  | nil =>
      unfold sentenceLoop
      rw [List.append_nil]
      by_cases hnil : current = []
      · have hlength : before.length ≤ start := List.drop_eq_nil_iff.mp (hcurrent ▸ hnil)
        have hend : stop = before.length := by omega
        exact ⟨[], hend, by rw [if_pos hnil]; rfl⟩
      · have hlt : stop < before.length := hstop.resolve_right fun h => hnil h.1
        refine ⟨[(start, before.length)], ⟨hstart, hlt, rfl⟩, ?_⟩
        rw [if_neg hnil, hcurrent, List.map_singleton, slice, List.take_length]
  | cons sentence rest ih =>
      have hassoc : before ++ sentence :: rest = (before ++ [sentence]) ++ rest := by simp
      have hlength : (before ++ [sentence]).length = before.length + 1 := List.length_append
      simp only [sentenceLoop]
      split_ifs with hfull
      · have hlt : stop < before.length := hstop.resolve_right fun h => hfull.1 h.1
        obtain ⟨k, hk⟩ := keptSentences_suffix overlap current
        have hkept : keptSentences overlap current ++ [sentence] =
            (before ++ [sentence]).drop (min (start + k) before.length) := by
          rw [hk, hcurrent, List.drop_drop, List.drop_append_of_le_length (min_le_right _ _)]
          rcases le_total (start + k) before.length with hle | hle
          · rw [min_eq_left hle]
          · rw [min_eq_right hle, List.drop_eq_nil_of_le hle, List.drop_length]
        obtain ⟨windows, hwindows, hchunks⟩ :=
          ih (((keptSentences overlap current).map estimateTokens).sum + estimateTokens sentence)
            (before ++ [sentence]) hkept (min_le_right _ _) (.inl (by omega))
        refine ⟨(start, before.length) :: windows, ⟨hstart, hlt, hassoc ▸ hwindows⟩, ?_⟩
        rw [hchunks, List.map_cons, slice_append_left, ← hcurrent, hassoc]
      · have hmore : current ++ [sentence] = (before ++ [sentence]).drop start := by
          rw [hcurrent, List.drop_append_of_le_length (by omega)]
        obtain ⟨windows, hwindows, hchunks⟩ :=
          ih (currentLen + estimateTokens sentence) (before ++ [sentence]) hmore hstart
            (.inl (by omega))
        exact ⟨windows, hassoc ▸ hwindows, hassoc ▸ hchunks⟩

theorem strip_window_ne_nil {start stop : ℕ} (hlt : start < stop)
    (hle : stop ≤ (splitSentences text).length) :
    strip (join [' '] (slice (splitSentences text) start stop)) ≠ [] := by
  intro hblank
  have hlength : 0 < (slice (splitSentences text) start stop).length := by
    simp only [slice, List.length_drop, List.length_take]
    omega
  obtain ⟨s, hs⟩ := List.exists_mem_of_length_pos hlength
  have hletters := strip_eq_nil.mp hblank
  rw [letters_join (by decide), List.flatMap_eq_nil_iff] at hletters
  have hmem : s ∈ splitSentences text := List.mem_of_mem_take (List.mem_of_mem_drop hs)
  exact strip_sentence_ne_nil s hmem (strip_eq_nil.mpr (hletters s hs))

theorem sentenceLoop_splitSentences (limit overlap : ℕ) (text : List Char) :
    ∃ windows, Advances (splitSentences text).length 0 windows ∧
      sentenceLoop limit overlap [] 0 (splitSentences text) =
        windows.map fun w => join [' '] (slice (splitSentences text) w.1 w.2) := by
  have hstart : ([] : List (List Char)) = ([] : List (List Char)).drop 0 := rfl
  have hwindows := sentenceLoop_windows limit overlap 0 [] (splitSentences text) hstart le_rfl
    (.inr ⟨rfl, rfl⟩)
  rwa [List.nil_append] at hwindows

/-- No chunk of sentences is blank. -/
theorem nonBlankChunks_sentenceLoop (limit overlap : ℕ) (text : List Char) :
    nonBlankChunks (sentenceLoop limit overlap [] 0 (splitSentences text)) =
      sentenceLoop limit overlap [] 0 (splitSentences text) := by
  obtain ⟨windows, hwindows, hchunks⟩ := sentenceLoop_splitSentences limit overlap text
  rw [nonBlankChunks, List.filter_eq_self]
  intro chunk hchunk
  rw [hchunks] at hchunk
  obtain ⟨w, hw, rfl⟩ := List.mem_map.mp hchunk
  obtain ⟨hlt, hle⟩ := hwindows.bounds.2 w hw
  exact decide_eq_true (strip_window_ne_nil hlt hle)

/-- The chunks are windows of the sentences, whatever the overlap. -/
theorem chunkSemantic_windows (text : List Char) (chunkSize overlap : ℕ) :
    ∃ windows, Advances (splitSentences text).length 0 windows ∧
      chunkSemantic text chunkSize overlap =
        windows.map fun w => join [' '] (slice (splitSentences text) w.1 w.2) := by
  by_cases hblank : strip text = []
  · rw [splitSentences_eq_nil.mpr hblank]
    exact ⟨[], rfl, by rw [chunkSemantic, if_pos hblank]; rfl⟩
  · have hnil : splitSentences text ≠ [] := fun h => hblank (splitSentences_eq_nil.mp h)
    rw [chunkSemantic, if_neg hblank]
    simp only [chunkSentences, hnil, if_false, nonBlankChunks_sentenceLoop]
    exact sentenceLoop_splitSentences _ _ _

end Zyntry
