import Zyntry.ConfigurationTools

/-!
# Normal changes

Changes in their normal form are normalised once more before they are applied. All of
them come through unchanged but texts with blanks at an end, which are taken off only
when the quotes around them are gone.
-/

namespace Zyntry

open Python

/-! ## Texts -/

/-- A text that comes out of `stripChars` goes through it unchanged. -/
theorem stripChars_stripChars (chars : List Char) (s : String) :
    stripChars chars (stripChars chars s) = stripChars chars s := by
  rw [stripChars, stripChars, String.toList_ofList, trim_trim]

/-- A text that keeps its length under both ways of stripping has no blank at its ends. -/
theorem stripped_of_stripChars_stripped {chars : List Char} {s : String}
    (h : stripChars chars (stripped s) = s) : stripped s = s := by
  have houter : s.toList.Sublist (stripped s).toList := by
    conv_lhs => rw [← h, stripChars, String.toList_ofList]
    exact trim_sublist _ _
  have hinner : (stripped s).toList.Sublist s.toList := by
    rw [stripped, String.toList_ofList]
    exact trim_sublist _ _
  exact String.toList_inj.mp (hinner.antisymm houter)

theorem cleanText_eq_ok_iff {field : String} {maxLength : ℕ} {v : Json} {t : String} :
    cleanText field maxLength v = .ok t ↔ ∃ s, v = .str s ∧
      stripChars ['"', '\'', '\u0060', ' '] (stripped s) = t ∧ t ≠ "" ∧ t.length ≤ maxLength := by
  cases v with
  | str s =>
      simp only [cleanText, Json.str.injEq, exists_eq_left']
      split_ifs with hempty hlong
      · simp only [false_iff, not_and]
        rintro rfl hne
        exact absurd hempty hne
      · simp only [false_iff, not_and, not_le]
        rintro rfl -
        exact hlong
      · simp only [Except.ok.injEq]
        constructor
        · rintro rfl
          exact ⟨rfl, hempty, not_lt.mp hlong⟩
        · exact fun h => h.1
  | _ => simp [cleanText]

/-- A cleaned text stays what it is if it has no blank at its ends. -/
theorem cleanText_cleaned {field : String} {maxLength : ℕ} {v : Json} {t : String}
    (h : cleanText field maxLength v = .ok t) :
    cleanText field maxLength (.str t) = .ok t ↔ stripped t = t := by
  obtain ⟨s, -, rfl, hne, hlength⟩ := cleanText_eq_ok_iff.mp h
  rw [cleanText_eq_ok_iff]
  simp only [Json.str.injEq, exists_eq_left']
  constructor
  · exact fun hcleaned => stripped_of_stripChars_stripped hcleaned.1
  · intro hstripped
    rw [hstripped, stripChars_stripChars]
    exact ⟨rfl, hne, hlength⟩

/-! ## Settings -/

theorem numberWithin_again {field range : String} {minimum maximum : ℚ} {v w : Json}
    (h : numberWithin field minimum maximum range v = .ok w) :
    numberWithin field minimum maximum range w = .ok w := by
  obtain ⟨parsed, -, h⟩ := bind_eq_ok.mp h
  cases parsed with
  | none => simp at h
  | some q =>
      dsimp only at h
      split_ifs at h with hwithin
      obtain rfl := Except.ok.inj h
      have hnumber : number field (.float q) = .ok (some q) := rfl
      rw [numberWithin, hnumber]
      exact if_pos hwithin

theorem integerWithin_again {field range : String} {minimum maximum : ℤ} {v w : Json}
    (h : integerWithin field minimum maximum range v = .ok w) :
    integerWithin field minimum maximum range w = .ok w := by
  obtain ⟨n, -, h⟩ := bind_eq_ok.mp h
  split_ifs at h with hwithin
  obtain rfl := Except.ok.inj h
  have hinteger : integer field (.int n) = .ok n := rfl
  rw [integerWithin, hinteger]
  exact if_pos hwithin

theorem boolean_again {field : String} {v w : Json} (h : (boolean field v).map .bool = .ok w) :
    (boolean field w).map .bool = .ok w := by
  cases hb : boolean field v with
  | error e => simp [hb, Except.map] at h
  | ok b =>
      rw [hb] at h
      obtain rfl := Except.ok.inj h
      rfl

theorem normalizeSetting_again {key : String} {v w : Json} (h : normalizeSetting key v = .ok w) :
    normalizeSetting key w = .ok w := by
  unfold normalizeSetting at h ⊢
  split_ifs at h ⊢
  · exact numberWithin_again h
  · exact integerWithin_again h
  · exact boolean_again h
  · exact boolean_again h
  · exact integerWithin_again h
  · exact numberWithin_again h
  · exact numberWithin_again h

/-- Supported settings, each once and with a value that is not changed again. -/
structure NormalConfig (u : Fields) : Prop where
  nodup : (Json.keys u).Nodup
  settings : ∀ {k v}, (k, v) ∈ u → k ∈ configKeys ∧ normalizeSetting k v = .ok v

theorem NormalConfig.nil : NormalConfig [] := ⟨List.nodup_nil, by simp⟩

theorem NormalConfig.set {u : Fields} (h : NormalConfig u) {k : String} {v : Json}
    (hk : k ∈ configKeys) (hv : normalizeSetting k v = .ok v) : NormalConfig (Json.set k v u) where
  nodup := Json.nodup_keys_set h.nodup k v
  settings := by
    intro k' v' hmem
    rcases Json.mem_set hmem with ⟨rfl, rfl⟩ | hold
    · exact ⟨hk, hv⟩
    · exact h.settings hold

theorem NormalConfig.update {u updates : Fields} (h : NormalConfig u)
    (hupdates : NormalConfig updates) : NormalConfig (Json.update u updates) := by
  have hfold : ∀ entries : Fields, (∀ {k v}, (k, v) ∈ entries →
      k ∈ configKeys ∧ normalizeSetting k v = .ok v) →
      ∀ {u : Fields}, NormalConfig u → NormalConfig (Json.update u entries) := by
    intro entries
    induction entries with
    | nil => exact fun _ _ h => h
    | cons entry entries ih =>
        intro hentries u h
        obtain ⟨hk, hv⟩ := hentries (k := entry.1) (v := entry.2) List.mem_cons_self
        exact ih (fun hmem => hentries (List.mem_cons_of_mem _ hmem)) (h.set hk hv)
  exact hfold updates hupdates.settings h

theorem normalizeConfigEntry_normal {u u' : Fields} {entry : String × Json} (hu : NormalConfig u)
    (h : normalizeConfigEntry u entry = .ok u') : NormalConfig u' := by
  unfold normalizeConfigEntry at h
  dsimp only at h
  split_ifs at h with hkey
  obtain ⟨v, hv, h⟩ := bind_eq_ok.mp h
  obtain rfl := Except.ok.inj h
  exact hu.set hkey (normalizeSetting_again hv)

theorem normalizeConfig_normal {config u : Fields} (h : normalizeConfig config = .ok u) :
    NormalConfig u := by
  have hfold : ∀ entries : Fields, ∀ {u u' : Fields}, NormalConfig u →
      entries.foldlM normalizeConfigEntry u = .ok u' → NormalConfig u' := by
    intro entries
    induction entries with
    | nil =>
        intro u u' hu h
        exact Except.ok.inj h ▸ hu
    | cons entry entries ih =>
        intro u u' hu h
        rw [List.foldlM_cons] at h
        obtain ⟨middle, hmiddle, h⟩ := bind_eq_ok.mp h
        exact ih (normalizeConfigEntry_normal hu hmiddle) h
  unfold normalizeConfig at h
  split_ifs at h
  exact hfold config NormalConfig.nil h

/-- A normal configuration is normalised to itself. -/
theorem normalizeConfig_of_normal {u : Fields} (hu : NormalConfig u) (hne : u ≠ []) :
    normalizeConfig u = .ok u := by
  have hraw : ∀ k ∈ configKeys,
      (settingAliases.lookup (lower (stripped k))).getD (lower (stripped k)) = k := by
    decide +kernel
  have hentry : ∀ {k v} (acc : Fields), k ∈ configKeys → normalizeSetting k v = .ok v →
      normalizeConfigEntry acc (k, v) = .ok (Json.set k v acc) := by
    intro k v acc hk hv
    unfold normalizeConfigEntry
    simp only [hraw k hk, if_pos hk, hv]
    rfl
  have hfold : ∀ entries acc : Fields, (Json.keys (acc ++ entries)).Nodup →
      (∀ {k v}, (k, v) ∈ entries → k ∈ configKeys ∧ normalizeSetting k v = .ok v) →
      entries.foldlM normalizeConfigEntry acc = .ok (acc ++ entries) := by
    intro entries
    induction entries with
    | nil =>
        intro acc _ _
        rw [List.append_nil]
        rfl
    | cons entry entries ih =>
        intro acc hnodup hentries
        obtain ⟨k, v⟩ := entry
        obtain ⟨hk, hv⟩ := hentries (List.mem_cons_self (a := (k, v)))
        have hnew : k ∉ Json.keys acc := by
          simp only [Json.keys, List.map_append, List.map_cons, List.nodup_append] at hnodup
          exact fun hmem => hnodup.2.2 k hmem k List.mem_cons_self rfl
        rw [List.foldlM_cons, hentry acc hk hv, Json.set_of_notMem hnew]
        have hrest := ih (acc ++ [(k, v)]) (by simpa using hnodup)
          (fun hmem => hentries (List.mem_cons_of_mem _ hmem))
        rw [List.append_assoc, List.singleton_append] at hrest
        exact hrest
  rw [normalizeConfig, if_neg hne]
  exact hfold u [] hu.nodup hu.settings

/-! ## Fields -/

/-- A value whose texts have no blanks at their ends. -/
def Trimmed : Json → Prop
  | .str s => stripped s = s
  | .arr items => ∀ s, .str s ∈ items → stripped s = s
  | _ => True

theorem mapM_cleanText_again {field : String} {maxLength : ℕ} {values : List Json}
    {models : List String} (h : values.mapM (cleanText field maxLength) = .ok models) :
    (models.map Json.str).mapM (cleanText field maxLength) = .ok models ↔
      ∀ s ∈ models, stripped s = s := by
  induction values generalizing models with
  | nil =>
      obtain rfl := Except.ok.inj h
      simp
      rfl
  | cons v values ih =>
      rw [List.mapM_cons] at h
      obtain ⟨t, ht, h⟩ := bind_eq_ok.mp h
      obtain ⟨rest, hrest, h⟩ := bind_eq_ok.mp h
      obtain rfl := Except.ok.inj h
      rw [List.map_cons, List.mapM_cons, List.forall_mem_cons, ← ih hrest, ← cleanText_cleaned ht]
      constructor
      · intro hboth
        obtain ⟨t', ht', hboth⟩ := bind_eq_ok.mp hboth
        obtain ⟨rest', hrest', hboth⟩ := bind_eq_ok.mp hboth
        obtain ⟨rfl, rfl⟩ := List.cons.inj (Except.ok.inj hboth)
        exact ⟨ht', hrest'⟩
      · rintro ⟨ht', hrest'⟩
        rw [ht', hrest']
        rfl

theorem map_eq_ok_iff {ε : Type*} {α β : Type} {x : Except ε α} {f : α → β} {b : β} :
    x.map f = .ok b ↔ ∃ a, x = .ok a ∧ f a = b := by
  cases x <;> simp [Except.map]

theorem normalizeFallbackModels_arr {items : List Json} {w : Json} :
    normalizeFallbackModels (.arr items) = .ok w ↔
      ∃ models, items.mapM (cleanText "fallback_models entry" 255) = .ok models ∧ items ≠ [] ∧
        .arr (models.map .str) = w := by
  unfold normalizeFallbackModels
  dsimp only
  split_ifs with hempty
  · simp [hempty]
  · rw [bind_eq_ok]
    simp [hempty]

theorem normalizeFallbackModels_again {v w : Json} (h : normalizeFallbackModels v = .ok w) :
    normalizeFallbackModels w = .ok w ↔ Trimmed w := by
  have hitems : ∃ items, normalizeFallbackModels (.arr items) = .ok w := by
    cases v with
    | str s => exact ⟨(splitOn ',' s).map .str, h⟩
    | arr items => exact ⟨items, h⟩
    | _ => exact ⟨[], h⟩
  obtain ⟨items, hitems⟩ := hitems
  obtain ⟨models, hmodels, hne, rfl⟩ := normalizeFallbackModels_arr.mp hitems
  have hmodels_ne : models.map Json.str ≠ [] := by
    cases items with
    | nil => exact absurd rfl hne
    | cons v items =>
        rw [List.mapM_cons] at hmodels
        obtain ⟨t, -, hmodels⟩ := bind_eq_ok.mp hmodels
        obtain ⟨rest, -, hmodels⟩ := bind_eq_ok.mp hmodels
        obtain rfl := Except.ok.inj hmodels
        simp
  have htrimmed : Trimmed (.arr (models.map .str)) ↔ ∀ s ∈ models, stripped s = s := by
    simp [Trimmed]
  rw [normalizeFallbackModels_arr, htrimmed, ← mapM_cleanText_again hmodels]
  constructor
  · rintro ⟨models', hmodels', -, heq⟩
    have hsame : models' = models := by
      simpa [List.map_inj_right] using heq
    rwa [hsame] at hmodels'
  · exact fun hagain => ⟨models, hagain, hmodels_ne, rfl⟩

theorem normalizeEnvironment_again {key : String} {v w : Json}
    (h : normalizeEnvironment key v = .ok w) :
    normalizeEnvironment key w = .ok w ∧ Trimmed w := by
  have hcanonical : ∀ e ∈ environmentAliases,
      stripChars ['"', '\'', '\u0060', ' '] (stripped e.2) = e.2 ∧ e.2 ≠ "" ∧
        e.2.length ≤ 255 ∧ environmentAliases.lookup (lower e.2) = some e.2 ∧
        stripped e.2 = e.2 := by
    decide +kernel
  obtain ⟨environment, -, h⟩ := bind_eq_ok.mp h
  cases hlookup : environmentAliases.lookup (lower environment) with
  | none => simp [hlookup] at h
  | some canonical =>
      rw [hlookup] at h
      obtain rfl := Except.ok.inj h
      obtain ⟨before, after, hlist, -⟩ := List.lookup_eq_some_iff.mp hlookup
      have hmem : (lower environment, canonical) ∈ environmentAliases :=
        hlist ▸ List.mem_append_right before List.mem_cons_self
      obtain ⟨hclean, hne, hlength, hself, hstripped⟩ := hcanonical _ hmem
      have htext : cleanText key 255 (.str canonical) = .ok canonical :=
        cleanText_eq_ok_iff.mpr ⟨canonical, rfl, hclean, hne, hlength⟩
      refine ⟨?_, hstripped⟩
      simp only [normalizeEnvironment, htext, bind, Except.bind, hself]

theorem integerWithin_trimmed {field range : String} {minimum maximum : ℤ} {v w : Json}
    (h : integerWithin field minimum maximum range v = .ok w) : Trimmed w := by
  obtain ⟨n, -, h⟩ := bind_eq_ok.mp h
  split_ifs at h
  exact Except.ok.inj h ▸ trivial

/-- A value of a field is left alone the second time if it is trimmed. -/
theorem normalizeField_again {key : String} {v w : Json} (h : normalizeField key v = .ok w) :
    normalizeField key w = .ok w ↔ Trimmed w := by
  unfold normalizeField at h ⊢
  split_ifs at h ⊢ with henvironment hsize hoverlap hmodels hpolicies
  · obtain ⟨hagain, htrimmed⟩ := normalizeEnvironment_again h
    exact iff_of_true hagain htrimmed
  · exact iff_of_true (integerWithin_again h) (integerWithin_trimmed h)
  · exact iff_of_true (integerWithin_again h) (integerWithin_trimmed h)
  · exact normalizeFallbackModels_again h
  · cases v with
    | obj policies => exact Except.ok.inj h ▸ iff_of_true rfl trivial
    | _ => simp at h
  · obtain ⟨t, ht, rfl⟩ := map_eq_ok_iff.mp h
    rw [map_eq_ok_iff]
    simpa [Trimmed] using cleanText_cleaned ht
  · obtain ⟨t, ht, rfl⟩ := map_eq_ok_iff.mp h
    rw [map_eq_ok_iff]
    simpa [Trimmed] using cleanText_cleaned ht

/-! ## Collected changes -/

/-- A field that is written to a column, with a value in its normal form. -/
structure NormalField (k : String) (v : Json) : Prop where
  supported : k ∈ updateFields
  not_config : k ≠ "config"
  strategy : k = "routing_strategy" → ∃ s ∈ routingStrategies, v = .str s
  value : k ≠ "routing_strategy" → ∃ raw, normalizeField k raw = .ok v

structure Collected.Normal (acc : Collected) : Prop where
  nodup : (Json.keys acc.payload).Nodup
  fields : ∀ {k v}, (k, v) ∈ acc.payload → NormalField k v
  config : NormalConfig acc.configUpdates

theorem Collected.Normal.empty : Collected.Normal {} :=
  ⟨List.nodup_nil, by simp, NormalConfig.nil⟩

theorem Collected.Normal.setField {acc : Collected} (h : acc.Normal) {k : String} {v : Json}
    (hfield : NormalField k v) :
    Collected.Normal { acc with payload := Json.set k v acc.payload } where
  nodup := Json.nodup_keys_set h.nodup k v
  fields := by
    intro k' v' hmem
    rcases Json.mem_set hmem with ⟨rfl, rfl⟩ | hold
    · exact hfield
    · exact h.fields hold
  config := h.config

theorem normalizeChange_normal {acc acc' : Collected} {change : String × Json} (hacc : acc.Normal)
    (h : normalizeChange acc change = .ok acc') : acc'.Normal := by
  unfold normalizeChange at h
  dsimp only at h
  split_ifs at h with hconfig hsupported hstrategy
  · split at h
    · obtain ⟨updates, hupdates, h⟩ := bind_eq_ok.mp h
      obtain rfl := Except.ok.inj h
      exact { hacc with config := hacc.config.update (normalizeConfig_normal hupdates) }
    · simp at h
  · obtain ⟨strategy, -, h⟩ := bind_eq_ok.mp h
    split_ifs at h with hautomatic hknown
    · obtain rfl := Except.ok.inj h
      exact { hacc with config := hacc.config.set (by decide) rfl }
    · obtain rfl := Except.ok.inj h
      exact hacc.setField
        { supported := hsupported
          not_config := hconfig
          strategy := fun _ => ⟨strategy, hknown, rfl⟩
          value := fun hne => absurd hstrategy hne }
  · obtain ⟨v, hv, h⟩ := bind_eq_ok.mp h
    obtain rfl := Except.ok.inj h
    exact hacc.setField
      { supported := hsupported
        not_config := hconfig
        strategy := fun heq => absurd heq hstrategy
        value := fun _ => ⟨change.2, hv⟩ }

theorem foldlM_normalizeChange_normal {changes : Fields} {acc acc' : Collected}
    (hacc : acc.Normal) (h : changes.foldlM normalizeChange acc = .ok acc') : acc'.Normal := by
  induction changes generalizing acc with
  | nil => exact Except.ok.inj h ▸ hacc
  | cons change changes ih =>
      rw [List.foldlM_cons] at h
      obtain ⟨middle, hmiddle, h⟩ := bind_eq_ok.mp h
      exact ih (normalizeChange_normal hacc hmiddle) h

/-! ## Normalising once more -/

theorem lower_stripped_updateFields : ∀ k ∈ updateFields, lower (stripped k) = k := by
  decide +kernel

/-- What happens to a normal field the second time. -/
theorem normalizeChange_normalField {k : String} {v : Json} (hfield : NormalField k v)
    (acc acc' : Collected) : normalizeChange acc (k, v) = .ok acc' ↔
      ∃ w, (k = "routing_strategy" ∧ w = v ∨ k ≠ "routing_strategy" ∧ normalizeField k v = .ok w) ∧
        acc' = { acc with payload := Json.set k w acc.payload } := by
  have hkey := lower_stripped_updateFields k hfield.supported
  unfold normalizeChange
  dsimp only
  rw [hkey, if_neg hfield.not_config, if_neg (not_not_intro hfield.supported)]
  split_ifs with hstrategy
  · obtain ⟨s, hs, rfl⟩ := hfield.strategy hstrategy
    have hknown : ∀ s ∈ routingStrategies, routingStrategy (.str s) = .ok s ∧
        s ∉ automaticStrategies := by
      decide +kernel
    obtain ⟨hsame, hmanual⟩ := hknown s hs
    simp only [hsame, bind, Except.bind, if_neg hmanual, if_pos hs, Except.ok.injEq]
    simp [hstrategy, eq_comm]
  · rw [bind_eq_ok]
    simp [hstrategy, eq_comm]

theorem foldlM_normalizeChange_trimmed {fields : Fields} {acc : Collected}
    (hnodup : (Json.keys (acc.payload ++ fields)).Nodup)
    (hfields : ∀ {k v}, (k, v) ∈ fields → NormalField k v ∧ Trimmed v) :
    fields.foldlM normalizeChange acc = .ok { acc with payload := acc.payload ++ fields } := by
  induction fields generalizing acc with
  | nil =>
      rw [List.append_nil]
      rfl
  | cons field fields ih =>
      obtain ⟨k, v⟩ := field
      obtain ⟨hfield, htrimmed⟩ := hfields (List.mem_cons_self (a := (k, v)))
      have hnew : k ∉ Json.keys acc.payload := by
        simp only [Json.keys, List.map_append, List.map_cons, List.nodup_append] at hnodup
        exact fun hmem => hnodup.2.2 k hmem k List.mem_cons_self rfl
      have hstep : normalizeChange acc (k, v) =
          .ok { acc with payload := acc.payload ++ [(k, v)] } := by
        refine (normalizeChange_normalField hfield acc _).mpr ⟨v, ?_, by
          rw [Json.set_of_notMem hnew]⟩
        by_cases hstrategy : k = "routing_strategy"
        · exact Or.inl ⟨hstrategy, rfl⟩
        · obtain ⟨raw, hraw⟩ := hfield.value hstrategy
          exact Or.inr ⟨hstrategy, (normalizeField_again hraw).mpr htrimmed⟩
      rw [List.foldlM_cons, hstep]
      have hrest := @ih { acc with payload := acc.payload ++ [(k, v)] }
        (by simpa using hnodup) (fun hmem => hfields (List.mem_cons_of_mem _ hmem))
      rw [List.append_assoc, List.singleton_append] at hrest
      exact hrest

/-- The second pass writes to the columns of its fields what it makes of their values. -/
theorem foldlM_normalizeChange_lookup {fields : Fields} {acc acc' : Collected}
    (hnodup : (Json.keys fields).Nodup)
    (hfields : ∀ {k v}, (k, v) ∈ fields → NormalField k v)
    (h : fields.foldlM normalizeChange acc = .ok acc') :
    (∀ k, k ∉ Json.keys fields → Json.lookup k acc'.payload = Json.lookup k acc.payload) ∧
      acc'.configUpdates = acc.configUpdates ∧
      ∀ {k v}, (k, v) ∈ fields → ∃ w, Json.lookup k acc'.payload = some w ∧
        (k = "routing_strategy" ∧ w = v ∨
          k ≠ "routing_strategy" ∧ normalizeField k v = .ok w) := by
  induction fields generalizing acc with
  | nil =>
      obtain rfl := Except.ok.inj h
      simp
  | cons field fields ih =>
      obtain ⟨k, v⟩ := field
      rw [List.foldlM_cons] at h
      obtain ⟨middle, hmiddle, h⟩ := bind_eq_ok.mp h
      obtain ⟨w, hw, rfl⟩ :=
        (normalizeChange_normalField (hfields List.mem_cons_self) acc middle).mp hmiddle
      simp only [Json.keys, List.map_cons, List.nodup_cons] at hnodup
      obtain ⟨hother, hconfig, hwritten⟩ :=
        ih hnodup.2 (fun hmem => hfields (List.mem_cons_of_mem _ hmem)) h
      refine ⟨fun k' hk' => ?_, hconfig, fun {k' v'} hmem => ?_⟩
      · simp only [Json.keys, List.map_cons, List.mem_cons, not_or] at hk'
        rw [hother k' hk'.2, Json.lookup_set_of_ne hk'.1]
      · rcases List.mem_cons.mp hmem with hhead | htail
        · obtain ⟨rfl, rfl⟩ := Prod.mk.inj hhead
          exact ⟨w, by rw [hother k' hnodup.1, Json.lookup_set_self], hw⟩
        · exact hwritten htail

/-! ## The changes as a whole -/

theorem Collected.Normal.config_notMem {acc : Collected} (h : acc.Normal) :
    "config" ∉ Json.keys acc.payload := by
  intro hmem
  obtain ⟨⟨k, v⟩, hfield, hk⟩ := List.mem_map.mp hmem
  exact (h.fields hfield).not_config hk

theorem Collected.Normal.changes_eq {acc : Collected} (h : acc.Normal) :
    acc.changes = acc.payload ++
      if acc.configUpdates = [] then [] else [("config", .obj acc.configUpdates)] := by
  unfold Collected.changes
  split_ifs
  · rw [List.append_nil]
  · exact Json.set_of_notMem h.config_notMem _

theorem trimmed_strategy {s : String} (h : s ∈ routingStrategies) : Trimmed (.str s) := by
  have hall : ∀ s ∈ routingStrategies, stripped s = s := by decide +kernel
  exact hall s h

theorem normalizeChange_config {acc acc' : Collected} {v : Json}
    (h : normalizeChange acc ("config", v) = .ok acc') : acc'.payload = acc.payload := by
  unfold normalizeChange at h
  dsimp only at h
  rw [lower_stripped_updateFields "config" (by decide), if_pos rfl] at h
  split at h
  · obtain ⟨updates, -, h⟩ := bind_eq_ok.mp h
    exact Except.ok.inj h ▸ rfl
  · simp at h

theorem normalizeChange_normalConfig {payload u : Fields} (hu : NormalConfig u) (hne : u ≠ []) :
    normalizeChange { payload } ("config", .obj u) = .ok { payload, configUpdates := u } := by
  have hupdate : Json.update [] u = u := Json.update_of_nodup hu.nodup
  unfold normalizeChange
  dsimp only
  rw [lower_stripped_updateFields "config" (by decide), if_pos rfl]
  simp only [normalizeConfig_of_normal hu hne, bind, Except.bind, hupdate]

/-- Changes in normal form are collected again as they are if their texts are trimmed. -/
theorem foldlM_changes {acc : Collected} (h : acc.Normal)
    (htrimmed : ∀ field ∈ acc.payload, Trimmed field.2) :
    acc.changes.foldlM normalizeChange {} = .ok acc := by
  have hpayload : acc.payload.foldlM normalizeChange {} = .ok { payload := acc.payload } :=
    @foldlM_normalizeChange_trimmed _ {} h.nodup
      (fun hmem => ⟨h.fields hmem, htrimmed _ hmem⟩)
  rw [h.changes_eq, List.foldlM_append, hpayload]
  obtain ⟨payload, configUpdates⟩ := acc
  dsimp only
  split_ifs with hempty
  · subst hempty
    rfl
  · have hlast := @normalizeChange_normalConfig payload _ h.config hempty
    simp only [bind, Except.bind, List.foldlM_cons, List.foldlM_nil, hlast]
    rfl

theorem Collected.lookup_changes {acc : Collected} {k : String} (hk : k ≠ "config") :
    Json.lookup k acc.changes = Json.lookup k acc.payload := by
  unfold Collected.changes
  split_ifs
  · rfl
  · exact Json.lookup_set_of_ne hk _ _

/-- If the second pass collects the same changes, it has not changed a field. -/
theorem trimmed_of_foldlM_changes {acc acc' : Collected} (h : acc.Normal)
    (hfold : acc.changes.foldlM normalizeChange {} = .ok acc')
    (hsame : acc'.changes = acc.changes) : ∀ field ∈ acc.payload, Trimmed field.2 := by
  rintro ⟨k, v⟩ hmem
  have hfield := h.fields hmem
  rw [h.changes_eq, List.foldlM_append] at hfold
  obtain ⟨middle, hmiddle, hrest⟩ := bind_eq_ok.mp hfold
  have hpayload : acc'.payload = middle.payload := by
    split_ifs at hrest
    · rw [List.foldlM_nil] at hrest
      rw [Except.ok.inj hrest]
    · rw [List.foldlM_cons] at hrest
      obtain ⟨last, hlast, hnil⟩ := bind_eq_ok.mp hrest
      rw [List.foldlM_nil] at hnil
      rw [← Except.ok.inj hnil, normalizeChange_config hlast]
  obtain ⟨-, -, hwritten⟩ := foldlM_normalizeChange_lookup h.nodup h.fields hmiddle
  obtain ⟨w, hw, hvalue⟩ := hwritten hmem
  have hwv : w = v := by
    have hlookup : Json.lookup k acc'.changes = Json.lookup k acc.changes := by rw [hsame]
    rw [Collected.lookup_changes hfield.not_config, Collected.lookup_changes hfield.not_config,
      hpayload, hw, Json.lookup_of_mem h.nodup hmem, Option.some.injEq] at hlookup
    exact hlookup
  rcases hvalue with ⟨hstrategy, -⟩ | ⟨hstrategy, hnormal⟩
  · obtain ⟨s, hs, rfl⟩ := hfield.strategy hstrategy
    exact trimmed_strategy hs
  · obtain ⟨raw, hraw⟩ := hfield.value hstrategy
    exact (normalizeField_again hraw).mp (hwv ▸ hnormal)

theorem normalizeConfigurationChanges_normal {changes normalized : Fields}
    (h : normalizeConfigurationChanges changes = .ok normalized) :
    ∃ acc : Collected, acc.Normal ∧ acc.changes = normalized ∧ normalized ≠ [] ∧
      chunksFit normalized = true := by
  unfold normalizeConfigurationChanges at h
  split_ifs at h
  obtain ⟨acc, hacc, h⟩ := bind_eq_ok.mp h
  split_ifs at h with hempty hfit
  obtain rfl := Except.ok.inj h
  exact ⟨acc, foldlM_normalizeChange_normal Collected.Normal.empty hacc, rfl, hempty, hfit⟩

/-- Normal changes are normalised to themselves if and only if their texts are trimmed. -/
theorem normalizeConfigurationChanges_again {changes normalized : Fields}
    (h : normalizeConfigurationChanges changes = .ok normalized) :
    normalizeConfigurationChanges normalized = .ok normalized ↔
      ∀ field ∈ normalized, Trimmed field.2 := by
  obtain ⟨acc, hacc, rfl, hne, hfit⟩ := normalizeConfigurationChanges_normal h
  have hpayload : (∀ field ∈ acc.changes, Trimmed field.2) ↔
      ∀ field ∈ acc.payload, Trimmed field.2 := by
    rw [hacc.changes_eq, List.forall_mem_append]
    refine and_iff_left ?_
    split_ifs
    · simp
    · simp [Trimmed]
  rw [hpayload]
  constructor
  · intro hagain
    unfold normalizeConfigurationChanges at hagain
    rw [if_neg hne] at hagain
    obtain ⟨acc', hfold, hagain⟩ := bind_eq_ok.mp hagain
    split_ifs at hagain
    exact trimmed_of_foldlM_changes hacc hfold (Except.ok.inj hagain)
  · intro htrimmed
    unfold normalizeConfigurationChanges
    rw [if_neg hne, foldlM_changes hacc htrimmed]
    simp only [bind, Except.bind, if_neg hne, if_pos hfit]

end Zyntry
