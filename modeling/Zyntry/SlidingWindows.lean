import Zyntry.Chunking

/-!
# The windows slid over a text

The overlap is clamped below the size of a window, so every window begins after the one before
it and the loop comes to its break at the end of the text. The chunks are the windows that are
not blank.
-/

namespace Zyntry

open Python

/-- The overlap with which the windows move. -/
def clampedOverlap (chunkSize overlap : ℕ) : ℕ :=
  if chunkSize ≤ overlap then max 0 (chunkSize - 1) else overlap

/-- The windows, as `(start, end)`, that the loop visits from `start` on. -/
def windowsFrom (length charSize overlap : ℕ) : ℕ → ℕ → Option (List (ℕ × ℕ))
  | 0, _ => none
  | fuel + 1, start =>
      if start < length then
        let stop := start + charSize
        let rest :=
          if length ≤ stop then some []
          else windowsFrom length charSize overlap fuel (stop - overlap)
        rest.map ((start, stop) :: ·)
      else some []

def visitedWindows (text : List Char) (chunkSize overlap : ℕ) : Option (List (ℕ × ℕ)) :=
  if strip text = [] then some []
  else windowsFrom text.length chunkSize (clampedOverlap chunkSize overlap) (text.length + 1) 0

/-- Windows that cover a text from `start` to its end. -/
structure Tiling (length charSize overlap start : ℕ) (windows : List (ℕ × ℕ)) : Prop where
  first : windows.head? = some (start, start + charSize)
  sizes : ∀ w ∈ windows, w.2 = w.1 + charSize
  next : windows.IsChain fun w w' => w'.1 + overlap = w.2 ∧ w.1 < w'.1
  last : ∃ w ∈ windows.getLast?, length ≤ w.2

theorem clampedOverlap_lt {chunkSize : ℕ} (hsize : 1 ≤ chunkSize) (overlap : ℕ) :
    clampedOverlap chunkSize overlap < chunkSize := by
  unfold clampedOverlap
  split_ifs <;> omega

/-- The chunks are those of the visited windows that are not blank. -/
theorem slideFrom_eq_windowsFrom (text : List Char) (charSize overlap fuel start : ℕ) :
    slideFrom text charSize overlap fuel start =
      (windowsFrom text.length charSize overlap fuel start).map fun windows =>
        nonBlankChunks (windows.map fun w => slice text w.1 w.2) := by
  induction fuel generalizing start with
  | zero => rfl
  | succ fuel ih =>
      unfold slideFrom windowsFrom
      by_cases hstart : start < text.length
      · rw [if_pos hstart, if_pos hstart]
        dsimp only
        have hrest : (if text.length ≤ start + charSize then some []
              else slideFrom text charSize overlap fuel (start + charSize - overlap)) =
            (if text.length ≤ start + charSize then some []
              else windowsFrom text.length charSize overlap fuel
                (start + charSize - overlap)).map fun windows =>
              nonBlankChunks (windows.map fun w => slice text w.1 w.2) := by
          split_ifs
          · rfl
          · exact ih _
        rw [hrest, Option.map_map, Option.map_map]
        congr 1
        funext windows
        simp only [Function.comp_apply, List.map_cons, nonBlankChunks, List.filter_cons]
        split_ifs with hblank hkept hkept
        · simp [hblank] at hkept
        · rfl
        · rfl
        · simp [hblank] at hkept
      · rw [if_neg hstart, if_neg hstart]
        rfl

theorem windowsFrom_tiling {length charSize overlap : ℕ} (hoverlap : overlap < charSize)
    (fuel start : ℕ) (hstart : start < length) (hfuel : length < start + fuel) :
    ∃ windows, windowsFrom length charSize overlap fuel start = some windows ∧
      Tiling length charSize overlap start windows := by
  induction fuel generalizing start with
  | zero => omega
  | succ fuel ih =>
      unfold windowsFrom
      rw [if_pos hstart]
      dsimp only
      by_cases hend : length ≤ start + charSize
      · rw [if_pos hend]
        refine ⟨[(start, start + charSize)], rfl, rfl, ?_, ?_, ?_⟩
        · simp
        · simp
        · exact ⟨_, rfl, hend⟩
      · rw [if_neg hend]
        obtain ⟨windows, hrun, htiling⟩ :=
          ih (start + charSize - overlap) (by omega) (by omega)
        rw [hrun]
        obtain ⟨w, windows, rfl⟩ : ∃ w rest, windows = w :: rest := by
          cases windows with
          | nil => cases htiling.first
          | cons w rest => exact ⟨w, rest, rfl⟩
        have hw := Option.some.inj htiling.first
        refine ⟨_, rfl, rfl, ?_, ?_, ?_⟩
        · intro v hv
          rcases List.mem_cons.mp hv with rfl | hv
          · rfl
          · exact htiling.sizes v hv
        · apply List.IsChain.cons_cons _ htiling.next
          rw [hw]
          dsimp only
          omega
        · rw [List.getLast?_cons_cons]
          exact htiling.last

namespace Tiling

variable {length charSize overlap start : ℕ} {windows : List (ℕ × ℕ)}

/-- Every position from the start to the end of the text is in a window. -/
theorem exists_window (h : Tiling length charSize overlap start windows) {i : ℕ}
    (hstart : start ≤ i) (hi : i < length) : ∃ w ∈ windows, w.1 ≤ i ∧ i < w.2 := by
  induction windows generalizing start with
  | nil => cases h.first
  | cons w windows ih =>
      have hw := Option.some.inj h.first
      by_cases hin : i < w.2
      · refine ⟨w, List.mem_cons_self, ?_, hin⟩
        rw [hw]
        exact hstart
      · cases windows with
        | nil =>
            obtain ⟨v, hv, hlast⟩ := h.last
            obtain rfl : w = v := Option.some.inj hv
            omega
        | cons w' windows =>
            obtain ⟨⟨hnext, hlt⟩, hchain⟩ := List.isChain_cons_cons.mp h.next
            have hw' := h.sizes w' (by simp)
            obtain ⟨v, hv, hle⟩ := ih
              { first := by rw [List.head?_cons, ← hw']
                sizes := fun v hv => h.sizes v (List.mem_cons_of_mem _ hv)
                next := hchain
                last := by simpa only [List.getLast?_cons_cons] using h.last } (by omega)
            exact ⟨v, List.mem_cons_of_mem _ hv, hle⟩

end Tiling

theorem mem_slice {text : List Char} {i start stop : ℕ} {c : Char} (hc : text[i]? = some c)
    (hstart : start ≤ i) (hstop : i < stop) : c ∈ slice text start stop := by
  rw [List.mem_iff_getElem?]
  refine ⟨i - start, ?_⟩
  rw [slice, List.getElem?_drop, List.getElem?_take_of_lt (by omega), ← hc]
  congr 1
  omega

/-- The loop ends, and the windows it visits cover the text: every character that is not a
space is in a window, and that window is a chunk. -/
theorem chunkSlidingWindow_tiles (text : List Char) {chunkSize : ℕ} (hsize : 1 ≤ chunkSize)
    (overlap : ℕ) :
    ∃ windows chunks, visitedWindows text chunkSize overlap = some windows ∧
      chunkSlidingWindow text chunkSize overlap = some chunks ∧
      chunks = nonBlankChunks (windows.map fun w => slice text w.1 w.2) ∧
      (strip text ≠ [] →
        Tiling text.length chunkSize (clampedOverlap chunkSize overlap) 0 windows) ∧
      ∀ i c, text[i]? = some c → isSpace c = false →
        ∃ w ∈ windows, w.1 ≤ i ∧ i < w.2 ∧ slice text w.1 w.2 ∈ chunks := by
  by_cases hblank : strip text = []
  · refine ⟨[], [], if_pos hblank, if_pos hblank, rfl, absurd hblank, ?_⟩
    intro i c hc hspace
    exact absurd hblank (strip_ne_nil_of_mem (List.mem_of_getElem? hc) hspace)
  · have hlength : 0 < text.length := by
      apply List.length_pos_of_ne_nil
      rintro rfl
      exact hblank rfl
    obtain ⟨windows, hrun, htiling⟩ :=
      windowsFrom_tiling (clampedOverlap_lt hsize overlap) (text.length + 1) 0 hlength (by omega)
    have hchunks : chunkSlidingWindow text chunkSize overlap =
        some (nonBlankChunks (windows.map fun w => slice text w.1 w.2)) := by
      rw [chunkSlidingWindow, if_neg hblank]
      dsimp only
      rw [slideFrom_eq_windowsFrom]
      exact congrArg (Option.map _) hrun
    refine ⟨windows, _, ?_, hchunks, rfl, fun _ => htiling, ?_⟩
    · rw [visitedWindows, if_neg hblank, hrun]
    · intro i c hc hspace
      obtain ⟨hi, _⟩ := List.getElem?_eq_some_iff.mp hc
      obtain ⟨w, hw, hle, hlt⟩ := htiling.exists_window (Nat.zero_le i) hi
      refine ⟨w, hw, hle, hlt, List.mem_filter.mpr ⟨List.mem_map_of_mem hw, ?_⟩⟩
      exact decide_eq_true (strip_ne_nil_of_mem (mem_slice hc hle hlt) hspace)

/-- The overlap is larger than a window here, so a window moves by one character. -/
theorem chunkSlidingWindow_tiles_words :
    ∃ windows chunks, visitedWindows "ab  c".toList 2 5 = some windows ∧
      chunkSlidingWindow "ab  c".toList 2 5 = some chunks ∧
      chunks = nonBlankChunks (windows.map fun w => slice "ab  c".toList w.1 w.2) ∧
      (strip "ab  c".toList ≠ [] →
        Tiling "ab  c".toList.length 2 (clampedOverlap 2 5) 0 windows) ∧
      ∀ i c, "ab  c".toList[i]? = some c → isSpace c = false →
        ∃ w ∈ windows, w.1 ≤ i ∧ i < w.2 ∧ slice "ab  c".toList w.1 w.2 ∈ chunks :=
  chunkSlidingWindow_tiles "ab  c".toList (by decide) 5

end Zyntry
