import Zyntry.ContextManager

/-!
# What assembling may change

The first loop removes positions of the given list, always the oldest message that is
neither a system message nor the last one. The cut and the second loop leave every
position and change the contents of messages that are not system messages.
-/

namespace Zyntry

open Python TokenEngine

variable {given messages : List Message} {workingInput : ℤ}

/-! ## Dropping -/

/-- What is removed has only system messages before it, and a message after it. -/
theorem exists_of_oldestRemovableIndex {index : ℕ}
    (h : oldestRemovableIndex messages = some index) :
    ∃ before m after, messages = before ++ m :: after ∧ (∀ m' ∈ before, m'.isSystem) ∧
      ¬m.isSystem ∧ after ≠ [] ∧ messages.eraseIdx index = before ++ after := by
  obtain ⟨hlt, hm, hbefore⟩ := List.findIdx?_eq_some_iff_getElem.mp h
  rw [List.length_dropLast] at hlt
  have hlt' : index < messages.length := by omega
  refine ⟨messages.take index, messages[index], messages.drop (index + 1), ?_, ?_, ?_, ?_,
    List.eraseIdx_eq_take_drop_succ ..⟩
  · rw [List.getElem_cons_drop, List.take_append_drop]
  · intro m' hm'
    obtain ⟨j, hj, rfl⟩ := List.getElem_of_mem hm'
    rw [List.length_take] at hj
    have := hbefore j (by omega)
    simpa using this
  · simpa using hm
  · intro hnil
    have := List.drop_eq_nil_iff.mp hnil
    omega

/-- The positions that are kept of a list. -/
structure Kept (given : List Message) (kept : List (Fin given.length)) : Prop where
  ascending : kept.Sublist (List.finRange given.length)
  latest : kept.getLast? = (List.finRange given.length).getLast?
  oldest : ∀ i, i ∉ kept → ∀ j ∈ kept, ¬given[j].isSystem → i < j

theorem kept_finRange (given : List Message) : Kept given (List.finRange given.length) where
  ascending := List.Sublist.refl _
  latest := rfl
  oldest := fun i hi => absurd (List.mem_finRange i) hi

theorem Kept.getLast?_map {kept : List (Fin given.length)} (h : Kept given kept) :
    (kept.map fun i => given[i]).getLast? = given.getLast? := by
  conv_rhs => rw [← List.map_get_finRange given]
  rw [List.getLast?_map, List.getLast?_map, h.latest]
  rfl

/-- One message is dropped. -/
theorem Kept.drop {before after : List (Fin given.length)} {i : Fin given.length}
    (h : Kept given (before ++ i :: after)) (hbefore : ∀ j ∈ before, given[j].isSystem)
    (hafter : after ≠ []) : Kept given (before ++ after) where
  ascending := ((List.sublist_cons_self i after).append_left before).trans h.ascending
  latest := by
    rw [← h.latest, List.getLast?_append_of_ne_nil _ hafter,
      List.getLast?_append_of_ne_nil _ (List.cons_ne_nil i after),
      List.getLast?_cons_of_ne_nil hafter]
  oldest := by
    intro k hk j hj hsystem
    have hj' : j ∈ after := (List.mem_append.mp hj).resolve_left fun hb => hsystem (hbefore j hb)
    by_cases hki : k = i
    · have hsorted := (List.pairwise_lt_finRange given.length).sublist h.ascending
      rw [List.pairwise_append, List.pairwise_cons] at hsorted
      rw [hki]
      exact hsorted.2.1.1 j hj'
    · refine h.oldest k (fun hmem => ?_) j (by simp [hj']) hsystem
      rcases List.mem_append.mp hmem with hb | ha
      · exact hk (List.mem_append_left _ hb)
      · exact hk (List.mem_append_right _ ((List.mem_cons.mp ha).resolve_left hki))

/-- What the first loop keeps of the given list. -/
structure TrimmedContext (workingInput : ℤ) (given : List Message) (t : Trimming) : Prop
    where
  kept : ∃ kept : List (Fin given.length), Kept given kept ∧
    t.selected = kept.map fun i => given[i]
  system : t.selected.filter Message.isSystem = given.filter Message.isSystem
  dropped : t.selected = given ∨ OverBudget workingInput given

theorem trimmed_start (workingInput : ℤ) (given : List Message) :
    TrimmedContext workingInput given ⟨given, 0⟩ where
  kept := ⟨_, kept_finRange given, (List.map_get_finRange given).symm⟩
  system := rfl
  dropped := .inl rfl

theorem TrimmedContext.round {t t' : Trimming} (h : TrimmedContext workingInput given t)
    (hround : trim workingInput t = .inl t') :
    TrimmedContext workingInput given t' ∧ t'.selected.length < t.selected.length := by
  unfold trim at hround
  split_ifs at hround with hover
  cases hindex : oldestRemovableIndex t.selected with
  | none => simp [hindex] at hround
  | some index =>
    simp only [hindex, Sum.inl.injEq] at hround
    subst hround
    obtain ⟨before, m, after, hsplit, hbefore, hm, hafter, herase⟩ :=
      exists_of_oldestRemovableIndex hindex
    obtain ⟨kept, hkept, hmap⟩ := h.kept
    rw [hsplit] at hmap
    obtain ⟨before', rest, rfl, rfl, hrest⟩ := List.map_eq_append_iff.mp hmap.symm
    obtain ⟨i, after', rfl, rfl, rfl⟩ := List.map_eq_cons_iff.mp hrest
    refine ⟨⟨⟨before' ++ after', hkept.drop ?_ ?_, ?_⟩, ?_, ?_⟩, ?_⟩
    · intro j hj
      exact hbefore _ (List.mem_map_of_mem hj)
    · rintro rfl
      exact hafter rfl
    · rw [herase, List.map_append]
    · rw [← h.system, herase, hsplit, List.filter_append, List.filter_append,
        List.filter_cons_of_neg hm]
    · refine .inr ?_
      rcases h.dropped with heq | hgiven
      · exact heq ▸ hover.1
      · exact hgiven
    · change (t.selected.eraseIdx index).length < t.selected.length
      rw [herase, hsplit, List.length_append, List.length_append, List.length_cons]
      omega

/-- A list over the budget is left when only its last message may be no system message. -/
theorem trim_eq_inr {t t' : Trimming} (hround : trim workingInput t = .inr t') :
    t' = t ∧ (OverBudget workingInput t.selected → ∀ m ∈ t.selected.dropLast, m.isSystem) := by
  unfold trim at hround
  split_ifs at hround with hover
  · cases hindex : oldestRemovableIndex t.selected with
    | none =>
      simp only [hindex, Sum.inr.injEq] at hround
      refine ⟨hround.symm, fun _ m hm => ?_⟩
      have := List.findIdx?_eq_none_iff.mp hindex m hm
      simpa using this
    | some index => simp [hindex] at hround
  · simp only [Sum.inr.injEq] at hround
    refine ⟨hround.symm, fun hbudget m hm => ?_⟩
    have hlength : t.selected.length ≤ 1 := by
      by_contra hlong
      exact hover ⟨hbudget, by omega⟩
    have hnil : t.selected.dropLast = [] :=
      List.eq_nil_of_length_eq_zero (by rw [List.length_dropLast]; omega)
    rw [hnil] at hm
    cases hm

/-! ## Shortening -/

/-- A message whose content may have changed, if it is not a system message. -/
def Shortened (m m' : Message) : Prop := m'.role = m.role ∧ (m.isSystem → m' = m)

theorem Shortened.isSystem_eq {m m' : Message} (h : Shortened m m') : m'.isSystem = m.isSystem := by
  rw [Message.isSystem, Message.isSystem, h.1]

theorem shortened_truncated (excess : ℕ) {m : Message} (hm : ¬m.isSystem) :
    Shortened m (truncatedMessage excess m) := ⟨rfl, fun h => absurd h hm⟩

theorem shortened_shortened (excess : ℕ) {m : Message} (hm : ¬m.isSystem) :
    Shortened m (shortened excess m) := ⟨rfl, fun h => absurd h hm⟩

/-- A list in which contents of messages may have changed. -/
abbrev AllShortened : List Message → List Message → Prop := List.Forall₂ Shortened

theorem allShortened_refl (messages : List Message) : AllShortened messages messages :=
  List.forall₂_same.mpr fun _ _ => ⟨rfl, fun _ => rfl⟩

theorem AllShortened.trans {ms ms' ms'' : List Message} (h : AllShortened ms ms')
    (h' : AllShortened ms' ms'') : AllShortened ms ms'' := by
  induction h generalizing ms'' with
  | nil => exact h'
  | cons hm _ ih =>
    obtain ⟨m'', rest, hm'', hrest, rfl⟩ := List.forall₂_cons_left_iff.mp h'
    refine .cons ⟨hm''.1.trans hm.1, fun hsystem => ?_⟩ (ih hrest)
    rw [hm''.2 (hm.isSystem_eq ▸ hsystem), hm.2 hsystem]

/-- The message at one position is changed, and is not a system message. -/
theorem allShortened_modify {f : Message → Message} {i : ℕ} {m : Message}
    (hget : messages[i]? = some m) (hm : Shortened m (f m)) :
    AllShortened messages (messages.modify i f) := by
  induction messages generalizing i with
  | nil => simp at hget
  | cons m' messages ih =>
    cases i with
    | zero =>
      cases hget
      exact .cons hm (allShortened_refl messages)
    | succ i => exact .cons ⟨rfl, fun _ => rfl⟩ (ih hget)

theorem AllShortened.roles {ms ms' : List Message} (h : AllShortened ms ms') :
    ms'.map Message.role = ms.map Message.role := by
  induction h with
  | nil => rfl
  | cons hm _ ih => rw [List.map_cons, List.map_cons, hm.1, ih]

theorem AllShortened.filter_isSystem {ms ms' : List Message} (h : AllShortened ms ms') :
    ms'.filter Message.isSystem = ms.filter Message.isSystem := by
  induction h with
  | nil => rfl
  | @cons m m' _ _ hm _ ih =>
    by_cases hsystem : m.isSystem
    · rw [List.filter_cons_of_pos hsystem, List.filter_cons_of_pos (hm.isSystem_eq ▸ hsystem), ih,
        hm.2 hsystem]
    · rw [List.filter_cons_of_neg hsystem, List.filter_cons_of_neg (hm.isSystem_eq ▸ hsystem), ih]

theorem AllShortened.eq_of_system {ms ms' : List Message} (h : AllShortened ms ms')
    (hsystem : ∀ m ∈ ms, m.isSystem) : ms' = ms := by
  induction h with
  | nil => rfl
  | cons hm _ ih =>
    rw [List.forall_mem_cons] at hsystem
    rw [hm.2 hsystem.1, ih hsystem.2]

theorem exists_of_truncationTarget {target : ℕ} (h : truncationTarget messages = some target) :
    ∃ m, messages[target]? = some m ∧ ¬m.isSystem := by
  rcases Option.or_eq_some_iff.mp h with hindex | ⟨_, hlast⟩
  · obtain ⟨hlt, hm, _⟩ := List.findIdx?_eq_some_iff_getElem.mp hindex
    rw [List.getElem_dropLast] at hm
    rw [List.length_dropLast] at hlt
    exact ⟨_, List.getElem?_eq_getElem (by omega), by simpa using hm⟩
  · obtain ⟨m, hm, rfl⟩ := Option.map_eq_some_iff.mp hlast
    obtain ⟨hget, hsystem⟩ := Option.filter_eq_some_iff.mp hm
    rw [List.getLast?_eq_getElem?] at hget
    exact ⟨m, hget, by simpa using hsystem⟩

theorem exists_of_longestCandidate {target : ℕ} (h : longestCandidate messages = some target) :
    ∃ m, messages[target]? = some m ∧ ¬m.isSystem ∧ m.content ≠ "" := by
  obtain ⟨p, hp, rfl⟩ := Option.map_eq_some_iff.mp h
  obtain ⟨hmem, hcandidate⟩ := List.mem_filter.mp (List.argmax_mem hp)
  have hget := List.mem_zipIdx_iff_getElem?.mp hmem
  simp only [Bool.decide_and, Bool.and_eq_true, decide_eq_true_eq] at hcandidate
  exact ⟨p.1, hget, by simpa using hcandidate.2, hcandidate.1⟩

theorem longestCandidate_eq_none :
    longestCandidate messages = none ↔ ∀ m ∈ messages, ¬m.isSystem → m.content = "" := by
  rw [longestCandidate, Option.map_eq_none_iff, List.argmax_eq_none, List.filter_eq_nil_iff]
  constructor
  · intro h m hm hsystem
    obtain ⟨i, hi⟩ := List.mem_iff_getElem?.mp hm
    have := h (m, i) (List.mem_zipIdx_iff_getElem?.mpr hi)
    by_contra hcontent
    simp [hcontent, hsystem] at this
  · intro h p hp
    have hmem := List.mem_of_getElem? (List.mem_zipIdx_iff_getElem?.mp hp)
    simp only [Bool.decide_and, Bool.and_eq_true, decide_eq_true_eq, not_and]
    intro hcontent hsystem
    exact hcontent (h p.1 hmem (by simpa using hsystem))

theorem allShortened_truncate (workingInput : ℤ) (messages : List Message) :
    AllShortened messages (truncate workingInput messages).selected := by
  unfold truncate
  split_ifs with hover
  · cases htarget : truncationTarget messages with
    | none => exact allShortened_refl messages
    | some target =>
      obtain ⟨m, hget, hm⟩ := exists_of_truncationTarget htarget
      exact allShortened_modify hget (shortened_truncated _ hm)
  · exact allShortened_refl messages

theorem allShortened_compress {s s' : Compression} (hround : compress workingInput s = .inl s') :
    AllShortened s.selected s'.selected := by
  unfold compress at hround
  split_ifs at hround with hover
  cases htarget : longestCandidate s.selected with
  | none => simp [htarget] at hround
  | some target =>
    simp only [htarget, Sum.inl.injEq] at hround
    subst hround
    obtain ⟨m, hget, hm, _⟩ := exists_of_longestCandidate htarget
    exact allShortened_modify hget (shortened_shortened _ hm)

/-- The second loop is left within the budget, or with nothing left to shorten. -/
theorem compress_eq_inr {s s' : Compression} (hround : compress workingInput s = .inr s') :
    s'.selected = s.selected ∧ (¬OverBudget workingInput s'.selected ∨
      (∀ m ∈ s'.selected, ¬m.isSystem → m.content = "") ∧ s'.warnings ≠ []) := by
  unfold compress at hround
  split_ifs at hround with hover
  · cases htarget : longestCandidate s.selected with
    | none =>
      simp only [htarget, Sum.inr.injEq] at hround
      subst hround
      exact ⟨rfl, .inr ⟨longestCandidate_eq_none.mp htarget, by simp⟩⟩
    | some target => simp [htarget] at hround
  · cases hround
    exact ⟨rfl, .inl hover⟩

/-! ## The result -/

/-- The second loop shortens messages, but none of a list within the budget. -/
theorem compress_keeps {messages : List Message} {s s' : Compression}
    (h : AllShortened messages s.selected ∧
      (OverBudget workingInput messages ∨ s.selected = messages))
    (hround : compress workingInput s = .inl s') :
    AllShortened messages s'.selected ∧
      (OverBudget workingInput messages ∨ s'.selected = messages) := by
  refine ⟨h.1.trans (allShortened_compress hround), ?_⟩
  obtain hover | heq := h.2
  · exact .inl hover
  · unfold compress at hround
    split_ifs at hround with hover
    exact .inl (heq ▸ hover)

theorem truncate_keeps (workingInput : ℤ) (messages : List Message) :
    OverBudget workingInput messages ∨ (truncate workingInput messages).selected = messages := by
  by_cases hover : OverBudget workingInput messages
  · exact .inl hover
  · exact .inr (by rw [truncate, if_neg hover])

/-- The two loops that a result comes from. -/
theorem exists_of_returns {str : Json → String} {c : AssembleCall} {a : ContextAssembly}
    (h : Returns str c a) :
    ∃ t s, TrimmedContext a.budget.workingInput (normalized str c.messages) t ∧
      AllShortened t.selected s.selected ∧
      (OverBudget a.budget.workingInput t.selected ∨ s.selected = t.selected) ∧
      (¬OverBudget a.budget.workingInput s.selected ∨
        (∀ m ∈ s.selected, ¬m.isSystem → m.content = "") ∧ s.warnings ≠ []) ∧
      c.budget = .ok a.budget ∧ a = assembly a.budget t.dropped s := by
  obtain ⟨rounds, hrun⟩ := h
  unfold assemble at hrun
  cases hbudget : c.budget with
  | error e => simp [hbudget] at hrun
  | ok budget =>
    simp only [hbudget, Option.map_eq_some_iff, Except.ok.injEq] at hrun
    obtain ⟨_, hfit, rfl⟩ := hrun
    obtain ⟨t, htrim, hrest⟩ := Option.bind_eq_some_iff.mp hfit
    obtain ⟨s, hcompress, rfl⟩ := Option.map_eq_some_iff.mp hrest
    obtain ⟨t₀, ht₀, hleave⟩ := While.run_invariant (fun _ _ ht hround => (ht.round hround).1)
      htrim (trimmed_start budget.workingInput _)
    obtain rfl := (trim_eq_inr hleave).1
    obtain ⟨s₀, hs₀, hleave⟩ := While.run_invariant (fun _ _ => compress_keeps) hcompress
      ⟨allShortened_truncate budget.workingInput t.selected,
        truncate_keeps budget.workingInput t.selected⟩
    obtain ⟨hselected, hend⟩ := compress_eq_inr hleave
    exact ⟨t, s, ht₀, hselected ▸ hs₀.1, hselected ▸ hs₀.2, hend, rfl, rfl⟩

theorem assemble_keeps {str : Json → String} {c : AssembleCall} {a : ContextAssembly}
    (h : Returns str c a) :
    a.messages.filter Message.isSystem =
        (normalized str c.messages).filter Message.isSystem ∧
      (∃ kept, Kept (normalized str c.messages) kept ∧
        a.messages.map Message.role = kept.map fun i => (normalized str c.messages)[i].role) ∧
      (a.messages.length < (normalized str c.messages).length →
        OverBudget a.budget.workingInput (normalized str c.messages)) ∧
      (a.estimatedInputTokens ≤ a.budget.workingInput ∨
        (∀ m ∈ a.messages, ¬m.isSystem → m.content = "") ∧ a.warnings ≠ []) := by
  obtain ⟨t, s, htrimmed, hshortened, -, hend, _, hassembly⟩ := exists_of_returns h
  have hmessages : a.messages = s.selected := by rw [hassembly]; rfl
  refine ⟨?_, ?_, ?_, ?_⟩
  · rw [hmessages, hshortened.filter_isSystem, htrimmed.system]
  · obtain ⟨kept, hkept, hmap⟩ := htrimmed.kept
    refine ⟨kept, hkept, ?_⟩
    rw [hmessages, hshortened.roles, hmap, List.map_map]
    rfl
  · intro hlt
    refine htrimmed.dropped.resolve_left fun heq => ?_
    rw [hmessages, ← hshortened.length_eq, heq] at hlt
    exact hlt.false
  · have hestimate : a.estimatedInputTokens = estimateMessages s.selected := by
      rw [hassembly]
      rfl
    rcases hend with hwithin | ⟨hempty, hwarned⟩
    · exact .inl (by rw [hestimate]; exact not_lt.mp hwithin)
    · refine .inr ⟨hmessages ▸ hempty, ?_⟩
      rw [hassembly]
      unfold assembly
      dsimp only
      split_ifs with hover
      · simp
      · exact hwarned

/-- A call that loses an old message and the content of its last one. -/
def overfullCall : AssembleCall where
  messages := [⟨.str "system", .str "rules"⟩, ⟨.str "user", .str "an older question"⟩,
    ⟨.null, .str "a question that does not fit"⟩]
  provider := some "openai"
  model := some "gpt-3.5-turbo"
  requestedOutputTokens := some 256
  contextOverride := some 524

def overfullAssembly : ContextAssembly where
  messages := [⟨"system", "rules"⟩, ⟨"user", ""⟩]
  budget := ⟨524, 256, 256, 12, by decide⟩
  estimatedInputTokens := 10
  breakdown := { system := 6, currentRequest := 4 }
  droppedMessages := 1
  compressedMessages := 2
  warnings := [compressedWarning]

theorem overfullCall_keeps :
    Returns (fun _ => "") overfullCall overfullAssembly ∧
      (normalized (fun _ => "") overfullCall.messages).filter Message.isSystem =
        [⟨"system", "rules"⟩] ∧
      OverBudget 12 (normalized (fun _ => "") overfullCall.messages) := by
  have hreturns : Returns (fun _ => "") overfullCall overfullAssembly := ⟨4, by decide +kernel⟩
  have hkeeps := assemble_keeps hreturns
  exact ⟨hreturns, hkeeps.1.symm, hkeeps.2.2.1 (by decide +kernel)⟩

end Zyntry
