import Zyntry.SortedSets
import Mathlib.Data.NNRat.Lemmas
import Mathlib.Data.Rat.Floor
import Mathlib.Algebra.Order.Archimedean.Basic

/-!
# The two rate limiters

Both limiters answer one request of a client at a time. The one in memory keeps the times of
the requests that it has admitted. The one in Redis keeps the time of every request, as a
member of a sorted set that names the time and the limiter, and reads the size of the set in
the same pipeline. Times are those of `time.time()`.
-/

namespace Zyntry

structure LimitDecision where
  allowed : Bool
  remaining : ℤ
  reset : ℤ
deriving DecidableEq, Repr

/-- `int()` of a number. -/
def truncated (x : ℚ) : ℤ := if x < 0 then ⌈x⌉ else ⌊x⌋

section

variable (limit window : ℤ)

/-- The request is in the window that ends at `now`. -/
def InWindow (now t : ℚ≥0) : Prop := (now : ℚ) - window < t

instance instDecidableInWindow (now t : ℚ≥0) : Decidable (InWindow window now t) :=
  inferInstanceAs (Decidable ((now : ℚ) - window < t))

/-- `InMemoryRateLimiter.is_allowed`, on the times kept for the key. -/
def InMemoryRateLimiter.isAllowed (timestamps : List ℚ≥0) (now : ℚ≥0) :
    LimitDecision × List ℚ≥0 :=
  let kept := timestamps.filter fun t => InWindow window now t
  let remaining := max 0 (limit - kept.length)
  if limit ≤ kept.length then
    let reset := match kept.head? with
      | some first => (first : ℚ) + window
      | none => (now : ℚ) + window
    (⟨false, 0, truncated reset⟩, kept)
  else (⟨true, remaining - 1, truncated ((now : ℚ) + window)⟩, kept ++ [now])

/-- The key of a client in Redis. -/
structure RequestSet where
  members : SortedSet (ℚ≥0 × ℕ) ℚ := default
  expires : Option ℚ := none

/-- What Redis has of the key at a time. -/
def RequestSet.at (key : RequestSet) (now : ℚ) : SortedSet (ℚ≥0 × ℕ) ℚ :=
  match key.expires with
  | none => key.members
  | some deadline => if now < deadline then key.members else default

/-- The pipeline of `RedisRateLimiter.is_allowed`: the answer of `ZCARD` and the key. -/
def RequestSet.pipeline (id : ℕ) (key : RequestSet) (now : ℚ≥0) : ℕ × RequestSet :=
  let score : ℚ := now
  let members := ((key.at score).zadd (now, id) score).zremrangebyscore 0 (score - window)
  (members.zcard, ⟨members, some (score + (window + 1))⟩)

/-- `RedisRateLimiter.is_allowed`, if Redis answers. -/
def RedisRateLimiter.isAllowed (id : ℕ) (key : RequestSet) (now : ℚ≥0) :
    LimitDecision × RequestSet :=
  let answer := key.pipeline window id now
  let remaining := max 0 (limit - answer.1)
  if limit ≤ answer.1 then (⟨false, 0, truncated ((now : ℚ) + window)⟩, answer.2)
  else (⟨true, remaining - 1, truncated ((now : ℚ) + window)⟩, answer.2)

end

/-- What a limiter decides on the requests of a timeline, one after the other. -/
def decisions {σ : Type} (isAllowed : σ → ℚ≥0 → LimitDecision × σ) : σ → List ℚ≥0 → List Bool
  | _, [] => []
  | s, now :: rest =>
      (isAllowed s now).1.allowed :: decisions isAllowed (isAllowed s now).2 rest

/-! ## Windows of a timeline -/

section

variable (limit window : ℤ)

/-- The requests in the window of a request, itself included. -/
def windowOf (before : List ℚ≥0) (now : ℚ≥0) : List ℚ≥0 :=
  (before ++ [now]).filter fun t => InWindow window now t

/-- The window has requests at `limit` or more distinct times. -/
def Crowded (before : List ℚ≥0) (now : ℚ≥0) : Prop :=
  limit ≤ (windowOf window before now).toFinset.card

instance instDecidableCrowded (before : List ℚ≥0) (now : ℚ≥0) :
    Decidable (Crowded limit window before now) :=
  inferInstanceAs (Decidable (limit ≤ (windowOf window before now).toFinset.card))

/-- Each request finds its window crowded exactly if `limit` or more earlier requests of the
window did not; `spread` has the earlier requests that did not. -/
def EvenlyCrowded : List ℚ≥0 → List ℚ≥0 → List ℚ≥0 → Prop
  | _, _, [] => True
  | before, spread, now :: rest =>
      (Crowded limit window before now ↔
        limit ≤ (spread.filter fun t => InWindow window now t).length) ∧
      EvenlyCrowded (before ++ [now])
        (if Crowded limit window before now then spread else spread ++ [now]) rest

/-! ## The limiter in memory -/

variable {limit window : ℤ}

/-- The times kept are those of `spread`, as far as a later window goes. -/
def KeepsTimes (window : ℤ) (before spread timestamps : List ℚ≥0) : Prop :=
  ∀ now, (∀ t ∈ before, t ≤ now) →
    (timestamps.filter fun t => InWindow window now t) =
      spread.filter fun t => InWindow window now t

theorem InWindow.of_le {now now' t : ℚ≥0} (h : InWindow window now' t) (hle : now ≤ now') :
    InWindow window now t := by
  unfold InWindow at h ⊢
  have hle' : (now : ℚ) ≤ now' := NNRat.cast_le.mpr hle
  linarith

theorem filter_inWindow_filter {now now' : ℚ≥0} (hle : now ≤ now') (l : List ℚ≥0) :
    ((l.filter fun t => InWindow window now t).filter fun t => InWindow window now' t) =
      l.filter fun t => InWindow window now' t := by
  rw [List.filter_filter]
  apply List.filter_congr
  intro t _
  by_cases ht : InWindow window now' t
  · simp [ht, ht.of_le hle]
  · simp [ht]

theorem inMemory_allowed (timestamps : List ℚ≥0) (now : ℚ≥0) :
    (InMemoryRateLimiter.isAllowed limit window timestamps now).1.allowed =
      !decide (limit ≤ (timestamps.filter fun t => InWindow window now t).length) := by
  simp only [InMemoryRateLimiter.isAllowed]
  split_ifs with h
  · simp [h]
  · simp [h]

theorem inMemory_kept (timestamps : List ℚ≥0) (now : ℚ≥0) :
    (InMemoryRateLimiter.isAllowed limit window timestamps now).2 =
      if limit ≤ (timestamps.filter fun t => InWindow window now t).length
      then timestamps.filter fun t => InWindow window now t
      else (timestamps.filter fun t => InWindow window now t) ++ [now] := by
  simp only [InMemoryRateLimiter.isAllowed]
  split_ifs
  · rfl
  · rfl

variable (limit) in
theorem KeepsTimes.isAllowed {before spread timestamps : List ℚ≥0} {now : ℚ≥0}
    (h : KeepsTimes window before spread timestamps) (hnow : ∀ t ∈ before, t ≤ now) :
    KeepsTimes window (before ++ [now])
      (if limit ≤ (spread.filter fun t => InWindow window now t).length then spread
        else spread ++ [now])
      (InMemoryRateLimiter.isAllowed limit window timestamps now).2 := by
  intro now' hnow'
  have hle : now ≤ now' := hnow' now (by simp)
  rw [inMemory_kept, h now hnow]
  split_ifs
  · exact filter_inWindow_filter hle spread
  · rw [List.filter_append, List.filter_append, filter_inWindow_filter hle]

/-! ## The limiter in Redis -/

/-- What Redis has of the key at a later time are requests of the timeline, among them those
that a later window still holds. -/
def RequestSet.Records (window : ℤ) (id : ℕ) (before : List ℚ≥0) (key : RequestSet) : Prop :=
  ∀ now : ℚ≥0, (∀ t ∈ before, t ≤ now) →
    (∀ e ∈ (key.at now).entries, ∃ t ∈ before, e = ((t, id), (t : ℚ))) ∧
      ∀ t ∈ before, InWindow window now t → ((t, id), (t : ℚ)) ∈ (key.at now).entries

theorem mem_windowOf {before : List ℚ≥0} {now t : ℚ≥0} :
    t ∈ windowOf window before now ↔ (t ∈ before ∨ t = now) ∧ InWindow window now t := by
  simp [windowOf, or_and_right]

theorem not_removed_iff {now t : ℚ≥0} :
    ¬(0 ≤ (t : ℚ) ∧ (t : ℚ) ≤ now - window) ↔ InWindow window now t := by
  unfold InWindow
  rw [not_and, not_le]
  exact ⟨fun h => h (NNRat.cast_nonneg t), fun h _ => h⟩

theorem RequestSet.Records.mem_pipeline {id : ℕ} {before : List ℚ≥0} {key : RequestSet}
    {now : ℚ≥0} (h : key.Records window id before) (hnow : ∀ t ∈ before, t ≤ now)
    {e : (ℚ≥0 × ℕ) × ℚ} :
    e ∈ (key.pipeline window id now).2.members.entries ↔
      ∃ t ∈ windowOf window before now, e = ((t, id), (t : ℚ)) := by
  obtain ⟨hrequests, hkept⟩ := h now hnow
  simp only [RequestSet.pipeline, SortedSet.mem_zremrangebyscore, SortedSet.mem_zadd]
  constructor
  · rintro ⟨⟨he, -⟩ | rfl, hscore⟩
    · obtain ⟨t, ht, rfl⟩ := hrequests e he
      exact ⟨t, mem_windowOf.mpr ⟨.inl ht, not_removed_iff.mp hscore⟩, rfl⟩
    · exact ⟨now, mem_windowOf.mpr ⟨.inr rfl, not_removed_iff.mp hscore⟩, rfl⟩
  · rintro ⟨t, ht, rfl⟩
    obtain ⟨hmem, hwindow⟩ := mem_windowOf.mp ht
    refine ⟨?_, not_removed_iff.mpr hwindow⟩
    by_cases hne : t = now
    · right
      rw [hne]
    · left
      refine ⟨hkept t (hmem.resolve_right hne) hwindow, ?_⟩
      intro hmember
      exact hne (congrArg Prod.fst hmember)

/-- `ZCARD` counts the distinct times of the window. -/
theorem RequestSet.Records.pipeline_fst {id : ℕ} {before : List ℚ≥0} {key : RequestSet}
    {now : ℚ≥0} (h : key.Records window id before) (hnow : ∀ t ∈ before, t ≤ now) :
    (key.pipeline window id now).1 = (windowOf window before now).toFinset.card := by
  have hinjective : Function.Injective fun t : ℚ≥0 => (t, id) := fun _ _ ht =>
    congrArg Prod.fst ht
  rw [← Finset.card_image_of_injective _ hinjective]
  apply SortedSet.zcard_eq_card (z := (key.pipeline window id now).2.members)
  intro m
  simp only [SortedSet.members, List.mem_map, h.mem_pipeline hnow, Finset.mem_image,
    List.mem_toFinset]
  constructor
  · rintro ⟨e, ⟨t, ht, rfl⟩, rfl⟩
    exact ⟨t, ht, rfl⟩
  · rintro ⟨t, ht, rfl⟩
    exact ⟨_, ⟨t, ht, rfl⟩, rfl⟩

theorem RequestSet.Records.pipeline {id : ℕ} {before : List ℚ≥0} {key : RequestSet} {now : ℚ≥0}
    (h : key.Records window id before) (hnow : ∀ t ∈ before, t ≤ now) :
    (key.pipeline window id now).2.Records window id (before ++ [now]) := by
  intro now' hnow'
  have hle : (now : ℚ) ≤ now' := NNRat.cast_le.mpr (hnow' now (by simp))
  have hat : (key.pipeline window id now).2.at now' =
      if (now' : ℚ) < now + (window + 1) then (key.pipeline window id now).2.members
      else default := rfl
  rw [hat]
  constructor
  · intro e he
    split_ifs at he
    · obtain ⟨t, ht, rfl⟩ := (h.mem_pipeline hnow).mp he
      obtain ⟨hmem, -⟩ := mem_windowOf.mp ht
      exact ⟨t, by simpa using hmem, rfl⟩
    · cases he
  · intro t ht hwindow
    have ht' : t ∈ before ∨ t = now := by simpa using ht
    have htle : (t : ℚ) ≤ now := by
      obtain hbefore | rfl := ht'
      · exact NNRat.cast_le.mpr (hnow t hbefore)
      · exact le_rfl
    -- the key has not run out while the window still holds a request
    rw [if_pos]
    · apply (h.mem_pipeline hnow).mpr
      exact ⟨t, mem_windowOf.mpr ⟨ht', hwindow.of_le (NNRat.cast_le.mp hle)⟩, rfl⟩
    · unfold InWindow at hwindow
      linarith

theorem redis_allowed {id : ℕ} {before : List ℚ≥0} {key : RequestSet} {now : ℚ≥0}
    (h : key.Records window id before) (hnow : ∀ t ∈ before, t ≤ now) :
    (RedisRateLimiter.isAllowed limit window id key now).1.allowed =
      !decide (Crowded limit window before now) := by
  simp only [RedisRateLimiter.isAllowed, h.pipeline_fst hnow]
  change _ = !decide (limit ≤ ((windowOf window before now).toFinset.card : ℤ))
  split_ifs with hlimit
  · simp [hlimit]
  · simp [hlimit]

theorem redis_key (id : ℕ) (key : RequestSet) (now : ℚ≥0) :
    (RedisRateLimiter.isAllowed limit window id key now).2 = (key.pipeline window id now).2 := by
  simp only [RedisRateLimiter.isAllowed]
  split_ifs
  · rfl
  · rfl

/-! ## Timelines -/

theorem decisions_agree_from {id : ℕ} {before spread timestamps : List ℚ≥0} {key : RequestSet}
    (hkeeps : KeepsTimes window before spread timestamps)
    (hrecords : key.Records window id before) {rest : List ℚ≥0}
    (hbefore : ∀ t ∈ before, ∀ now ∈ rest, t ≤ now) (hrest : rest.Pairwise (· ≤ ·)) :
    decisions (RedisRateLimiter.isAllowed limit window id) key rest =
        decisions (InMemoryRateLimiter.isAllowed limit window) timestamps rest ↔
      EvenlyCrowded limit window before spread rest := by
  induction rest generalizing before spread timestamps key with
  | nil => simp only [decisions, EvenlyCrowded]
  | cons now rest ih =>
      obtain ⟨hnext, hrest⟩ := List.pairwise_cons.mp hrest
      have hnow : ∀ t ∈ before, t ≤ now := fun t ht => hbefore t ht now (by simp)
      have hbefore' : ∀ t ∈ before ++ [now], ∀ next ∈ rest, t ≤ next := by
        intro t ht next hmem
        obtain ht | rfl : t ∈ before ∨ t = now := by simpa using ht
        · exact hbefore t ht next (by simp [hmem])
        · exact hnext next hmem
      have hsame : (!decide (Crowded limit window before now)) =
          (!decide (limit ≤ (spread.filter fun t => InWindow window now t).length)) ↔
          (Crowded limit window before now ↔
            limit ≤ (spread.filter fun t => InWindow window now t).length) := by
        rw [Bool.not_inj_iff, decide_eq_decide]
      simp only [decisions, EvenlyCrowded, List.cons.injEq, redis_allowed hrecords hnow,
        inMemory_allowed, hkeeps now hnow, hsame]
      apply and_congr_right
      intro hdecision
      rw [redis_key, ih (hkeeps.isAllowed limit hnow) (hrecords.pipeline hnow) hbefore'
        hrest]
      simp only [hdecision]

/-- With `limit` at most zero every request is refused by both. -/
theorem evenlyCrowded_of_nonpos (hlimit : limit ≤ 0) (before spread rest : List ℚ≥0) :
    EvenlyCrowded limit window before spread rest := by
  induction rest generalizing before spread with
  | nil => trivial
  | cons now rest ih =>
      refine ⟨?_, ih _ _⟩
      constructor
      · intro _
        omega
      · intro _
        unfold Crowded
        omega

theorem forall_split_cons {P : List ℚ≥0 → ℚ≥0 → Prop} {first : ℚ≥0} {rest : List ℚ≥0} :
    (∀ past now future, first :: rest = past ++ now :: future → P past now) ↔
      P [] first ∧ ∀ past now future, rest = past ++ now :: future → P (first :: past) now := by
  constructor
  · intro h
    refine ⟨h [] first rest rfl, ?_⟩
    intro past now future hsplit
    exact h (first :: past) now future (by rw [hsplit, List.cons_append])
  · rintro ⟨hfirst, hrest⟩ past now future hsplit
    cases past with
    | nil =>
        obtain ⟨rfl, -⟩ := List.cons.inj hsplit
        exact hfirst
    | cons x past =>
        obtain ⟨rfl, hsplit'⟩ := List.cons.inj hsplit
        exact hrest past now future hsplit'

/-- A later window holds fewer of these requests than the limit. -/
def HasRoom (limit window : ℤ) (before : List ℚ≥0) : Prop :=
  ∀ now, (∀ t ∈ before, t ≤ now) →
    ((before.filter fun t => InWindow window now t).length : ℤ) < limit

variable (limit window) in
theorem crowded_iff_length {before : List ℚ≥0} {now : ℚ≥0} (h : (before ++ [now]).Nodup) :
    Crowded limit window before now ↔ limit ≤ (windowOf window before now).length := by
  rw [Crowded, windowOf, List.toFinset_card_of_nodup (h.sublist List.filter_sublist)]

theorem HasRoom.append {before : List ℚ≥0} {now : ℚ≥0}
    (h : (windowOf window before now).length < limit) : HasRoom limit window (before ++ [now]) := by
  intro now' hnow'
  have hle : now ≤ now' := hnow' now (by simp)
  have hsub : ((before ++ [now]).filter fun t => InWindow window now' t).length ≤
      (windowOf window before now).length := by
    rw [← filter_inWindow_filter hle, windowOf]
    exact List.length_filter_le _ _
  omega

/-- On distinct times the first crowded request is refused by Redis only. -/
theorem evenlyCrowded_iff_of_distinct (before : List ℚ≥0) {rest : List ℚ≥0}
    (hroom : HasRoom limit window before) (hdistinct : (before ++ rest).Pairwise (· < ·)) :
    EvenlyCrowded limit window before before rest ↔
      ∀ past now future, rest = past ++ now :: future →
        (windowOf window (before ++ past) now).length < limit := by
  induction rest generalizing before with
  | nil =>
      refine iff_of_true trivial ?_
      intro past now future hsplit
      simp at hsplit
  | cons now rest ih =>
      have hdistinct' : ((before ++ [now]) ++ rest).Pairwise (· < ·) := by
        rwa [List.append_assoc]
      have hsorted : (before ++ [now]).Pairwise (· < ·) := (List.pairwise_append.mp hdistinct').1
      have hnow : ∀ t ∈ before, t ≤ now := fun t ht =>
        ((List.pairwise_append.mp hsorted).2.2 t ht now (by simp)).le
      have hfree : ¬limit ≤ ((before.filter fun t => InWindow window now t).length : ℤ) :=
        not_le.mpr (hroom now hnow)
      have hcrowded := crowded_iff_length limit window (hsorted.imp ne_of_lt)
      rw [forall_split_cons, List.append_nil]
      by_cases h : Crowded limit window before now
      · apply iff_of_false
        · intro heven
          exact hfree (heven.1.mp h)
        · intro hfew
          exact absurd (hcrowded.mp h) (not_le.mpr hfew.1)
      · have hfew : (windowOf window before now).length < limit := not_le.mp (mt hcrowded.mpr h)
        rw [EvenlyCrowded, if_neg h, ih _ (HasRoom.append hfew) hdistinct']
        simp only [h, hfree, hfew, true_and, List.append_assoc, List.singleton_append]

end

/-- The limiters agree on a timeline exactly if it is evenly crowded. On a timeline of distinct
times that is so exactly if every window holds fewer requests than a positive limit. -/
theorem rateLimiters_agree_iff (limit window : ℤ) (id : ℕ) (timeline : List ℚ≥0)
    (hsorted : timeline.Pairwise (· ≤ ·)) :
    (decisions (RedisRateLimiter.isAllowed limit window id) {} timeline =
        decisions (InMemoryRateLimiter.isAllowed limit window) [] timeline ↔
      EvenlyCrowded limit window [] [] timeline) ∧
    (timeline.Pairwise (· < ·) →
      (EvenlyCrowded limit window [] [] timeline ↔
        limit ≤ 0 ∨ ∀ past now future, timeline = past ++ now :: future →
          (windowOf window past now).length < limit)) := by
  constructor
  · apply decisions_agree_from
    · intro now _
      rfl
    · intro now _
      refine ⟨?_, by simp⟩
      intro e he
      cases he
    · simp
    · exact hsorted
  · intro hdistinct
    by_cases hlimit : limit ≤ 0
    · exact iff_of_true (evenlyCrowded_of_nonpos hlimit _ _ _) (.inl hlimit)
    · rw [or_iff_right hlimit]
      apply evenlyCrowded_iff_of_distinct []
      · intro now _
        simpa using hlimit
      · exact hdistinct

/-- One request under a limit of one request a minute. -/
theorem rateLimiters_disagree :
    decisions (RedisRateLimiter.isAllowed 1 60 0) {} [1700000000] = [false] ∧
      decisions (InMemoryRateLimiter.isAllowed 1 60) [] [1700000000] = [true] := by
  decide +kernel

theorem rateLimiters_agree_iff_minutes :
    decisions (RedisRateLimiter.isAllowed 2 60 0) {} [1700000000, 1700000061] =
      decisions (InMemoryRateLimiter.isAllowed 2 60) [] [1700000000, 1700000061] := by
  have hagree := rateLimiters_agree_iff 2 60 0 [1700000000, 1700000061] (by decide +kernel)
  exact hagree.1.mpr ⟨by decide +kernel, by decide +kernel, trivial⟩

end Zyntry
