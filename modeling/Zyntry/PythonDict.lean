import Zyntry.PythonJson

/-!
# Dicts as lists of fields

Assignment, `update` and deletion for dicts that are kept as lists of fields. A list is
read through `lookup`, so that later fields of a repeated key do not count.
-/

namespace Python.Json

/-- `fields[key] = value`. -/
def set (key : String) (value : Json) : List (String × Json) → List (String × Json)
  | [] => [(key, value)]
  | (k, v) :: fields => if k = key then (k, value) :: fields else (k, v) :: set key value fields

/-- `fields.update(updates)`. -/
def update (fields updates : List (String × Json)) : List (String × Json) :=
  updates.foldl (fun fs field => set field.1 field.2 fs) fields

/-- The dict without a key. -/
def erase (key : String) (fields : List (String × Json)) : List (String × Json) :=
  fields.filter fun field => field.1 ≠ key

def keys (fields : List (String × Json)) : List String := fields.map Prod.fst

theorem length_keys (fields : List (String × Json)) : (keys fields).length = fields.length :=
  List.length_map _

theorem lookup_set (key k : String) (value : Json) (fields : List (String × Json)) :
    lookup k (set key value fields) = if k = key then some value else lookup k fields := by
  induction fields with
  | nil =>
      simp only [set, lookup, eq_comm]
  | cons field fields ih =>
      obtain ⟨k', v⟩ := field
      by_cases hkey : k' = key
      · subst hkey
        by_cases hk : k = k'
        · simp [set, lookup, hk]
        · simp [set, lookup, hk, Ne.symm hk]
      · rw [set, if_neg hkey, lookup, lookup, ih]
        by_cases hk : k = key
        · simp [hk, hkey]
        · simp [hk]

@[simp] theorem lookup_set_self (key : String) (value : Json) (fields : List (String × Json)) :
    lookup key (set key value fields) = some value := by
  rw [lookup_set, if_pos rfl]

theorem lookup_set_of_ne {key k : String} (h : k ≠ key) (value : Json)
    (fields : List (String × Json)) : lookup k (set key value fields) = lookup k fields := by
  rw [lookup_set, if_neg h]

theorem lookup_append (key : String) (fields fields' : List (String × Json)) :
    lookup key (fields ++ fields') = (lookup key fields).or (lookup key fields') := by
  induction fields with
  | nil => rfl
  | cons field fields ih =>
      obtain ⟨k, v⟩ := field
      simp only [List.cons_append, lookup]
      split_ifs
      · rfl
      · exact ih

/-- An update leaves every key alone that it does not bring a value for. -/
theorem lookup_update_of_notMem {key : String} {updates : List (String × Json)}
    (h : key ∉ keys updates) (fields : List (String × Json)) :
    lookup key (update fields updates) = lookup key fields := by
  induction updates generalizing fields with
  | nil => rfl
  | cons u updates ih =>
      simp only [keys, List.map_cons, List.mem_cons, not_or] at h
      rw [update, List.foldl_cons]
      exact (ih h.2 _).trans (lookup_set_of_ne h.1 u.2 fields)

theorem mem_set {key k : String} {value v : Json} {fields : List (String × Json)}
    (h : (k, v) ∈ set key value fields) : k = key ∧ v = value ∨ (k, v) ∈ fields := by
  induction fields with
  | nil =>
      simp only [set, List.mem_singleton, Prod.mk.injEq] at h
      exact Or.inl h
  | cons field fields ih =>
      obtain ⟨k', v'⟩ := field
      simp only [set] at h
      split_ifs at h with hkey
      · rcases List.mem_cons.mp h with hhead | htail
        · simp only [Prod.mk.injEq] at hhead
          exact Or.inl ⟨hhead.1.trans hkey, hhead.2⟩
        · exact Or.inr (List.mem_cons_of_mem _ htail)
      · rcases List.mem_cons.mp h with hhead | htail
        · exact Or.inr (hhead ▸ List.mem_cons_self)
        · exact (ih htail).imp_right (List.mem_cons_of_mem _)

theorem set_of_notMem {key : String} {fields : List (String × Json)} (h : key ∉ keys fields)
    (value : Json) : set key value fields = fields ++ [(key, value)] := by
  induction fields with
  | nil => rfl
  | cons field fields ih =>
      obtain ⟨k, v⟩ := field
      simp only [keys, List.map_cons, List.mem_cons, not_or] at h
      rw [set, if_neg (Ne.symm h.1), ih h.2, List.cons_append]

theorem keys_set_of_mem {key : String} {fields : List (String × Json)} (h : key ∈ keys fields)
    (value : Json) : keys (set key value fields) = keys fields := by
  induction fields with
  | nil => simp [keys] at h
  | cons field fields ih =>
      obtain ⟨k, v⟩ := field
      by_cases hkey : k = key
      · simp [set, keys, hkey]
      · have htail : key ∈ keys fields := by
          simpa [keys, Ne.symm hkey] using h
        simpa [set, keys, hkey] using ih htail

theorem mem_keys_set {key k : String} {value : Json} {fields : List (String × Json)} :
    k ∈ keys (set key value fields) ↔ k = key ∨ k ∈ keys fields := by
  by_cases hkey : key ∈ keys fields
  · rw [keys_set_of_mem hkey]
    exact ⟨Or.inr, fun h => h.elim (fun heq => heq ▸ hkey) id⟩
  · rw [set_of_notMem hkey, keys, List.map_append, List.mem_append, List.map_singleton,
      List.mem_singleton, or_comm]
    exact Iff.rfl

theorem nodup_keys_set {fields : List (String × Json)} (h : (keys fields).Nodup) (key : String)
    (value : Json) : (keys (set key value fields)).Nodup := by
  by_cases hkey : key ∈ keys fields
  · rwa [keys_set_of_mem hkey]
  · rw [set_of_notMem hkey]
    simpa [keys, List.nodup_append, List.map_append] using ⟨h, fun k v hk heq =>
      hkey (heq ▸ List.mem_map_of_mem (f := Prod.fst) hk)⟩

theorem lookup_of_mem {key : String} {value : Json} {fields : List (String × Json)}
    (hnodup : (keys fields).Nodup) (h : (key, value) ∈ fields) :
    lookup key fields = some value := by
  induction fields with
  | nil => simp at h
  | cons field fields ih =>
      obtain ⟨k, v⟩ := field
      simp only [keys, List.map_cons, List.nodup_cons] at hnodup
      rcases List.mem_cons.mp h with hhead | htail
      · simp only [Prod.mk.injEq] at hhead
        rw [lookup, if_pos hhead.1.symm, hhead.2]
      · have hne : k ≠ key := fun hk =>
          hnodup.1 (hk ▸ List.mem_map_of_mem (f := Prod.fst) htail)
        rw [lookup, if_neg hne, ih hnodup.2 htail]

theorem lookup_eq_none {key : String} {fields : List (String × Json)} (h : key ∉ keys fields) :
    lookup key fields = none := by
  induction fields with
  | nil => rfl
  | cons field fields ih =>
      obtain ⟨k, v⟩ := field
      simp only [keys, List.map_cons, List.mem_cons, not_or] at h
      rw [lookup, if_neg (Ne.symm h.1), ih h.2]

theorem update_of_nodup {fields updates : List (String × Json)}
    (h : (keys (fields ++ updates)).Nodup) : update fields updates = fields ++ updates := by
  induction updates generalizing fields with
  | nil => exact (List.append_nil fields).symm
  | cons u updates ih =>
      have hnew : u.1 ∉ keys fields := by
        simp only [keys, List.map_append, List.map_cons, List.nodup_append] at h
        exact fun hmem => h.2.2 u.1 hmem u.1 List.mem_cons_self rfl
      rw [update, List.foldl_cons, set_of_notMem hnew]
      have hrest := @ih (fields ++ [(u.1, u.2)]) (by simpa using h)
      rw [List.append_assoc, List.singleton_append] at hrest
      exact hrest

theorem set_eq_self {key : String} {value : Json} {fields : List (String × Json)}
    (h : lookup key fields = some value) : set key value fields = fields := by
  induction fields with
  | nil => cases h
  | cons field fields ih =>
      obtain ⟨k, v⟩ := field
      rw [lookup] at h
      rw [set]
      split_ifs at h ⊢ with hkey
      · rw [Option.some.inj h]
      · rw [ih h]

theorem set_append {key : String} {done : List (String × Json)} (h : key ∉ keys done)
    (value old : Json) (fields : List (String × Json)) :
    set key value (done ++ (key, old) :: fields) = done ++ (key, value) :: fields := by
  induction done with
  | nil => rw [List.nil_append, set, if_pos rfl, List.nil_append]
  | cons field done ih =>
      obtain ⟨k, v⟩ := field
      simp only [keys, List.map_cons, List.mem_cons, not_or] at h
      rw [List.cons_append, set, if_neg (Ne.symm h.1), ih h.2, List.cons_append]

theorem update_append_of_keys_eq {done fields updates : List (String × Json)}
    (hkeys : keys fields = keys updates) (hnodup : (keys (done ++ updates)).Nodup) :
    update (done ++ fields) updates = done ++ updates := by
  induction updates generalizing done fields with
  | nil =>
      cases fields with
      | nil => rfl
      | cons field fields => cases hkeys
  | cons u updates ih =>
      cases fields with
      | nil => cases hkeys
      | cons field fields =>
          obtain ⟨k, v⟩ := field
          obtain ⟨k', w⟩ := u
          obtain ⟨rfl, hrest⟩ := List.cons.inj hkeys
          have hnew : k ∉ keys done := by
            simp only [keys, List.map_append, List.map_cons, List.nodup_append] at hnodup
            exact fun hmem => hnodup.2.2 k hmem k List.mem_cons_self rfl
          have hnext := @ih (done ++ [(k, w)]) fields hrest (by simpa using hnodup)
          rw [List.append_assoc, List.singleton_append, List.append_assoc,
            List.singleton_append] at hnext
          rw [update, List.foldl_cons, set_append hnew]
          exact hnext

/-- A dict that has the keys of another one at its front replaces it. -/
theorem update_eq_of_keys_prefix {fields updates : List (String × Json)}
    (hkeys : keys fields <+: keys updates) (hnodup : (keys updates).Nodup) :
    update fields updates = updates := by
  obtain ⟨rest, hrest⟩ := hkeys
  have hlength := congrArg List.length hrest
  rw [List.length_append, length_keys, length_keys] at hlength
  have hfront : keys fields = keys (updates.take fields.length) := by
    rw [keys, keys, List.map_take]
    change _ = (keys updates).take fields.length
    rw [← hrest, List.take_left' (length_keys fields)]
    rfl
  have htake : (keys (updates.take fields.length)).Nodup := by
    rw [← hfront]
    rw [← hrest] at hnodup
    exact (List.nodup_append.mp hnodup).1
  have hfirst : update fields (updates.take fields.length) = updates.take fields.length :=
    @update_append_of_keys_eq [] fields (updates.take fields.length) hfront htake
  have hjoin : updates.take fields.length ++ updates.drop fields.length = updates :=
    List.take_append_drop _ _
  have hrun : update fields (updates.take fields.length ++ updates.drop fields.length) =
      update (update fields (updates.take fields.length)) (updates.drop fields.length) :=
    List.foldl_append ..
  have hlast : update (updates.take fields.length) (updates.drop fields.length) =
      updates.take fields.length ++ updates.drop fields.length :=
    update_of_nodup (by rwa [hjoin])
  rw [hfirst, hlast, hjoin] at hrun
  exact hrun

theorem keys_prefix_set (key : String) (value : Json) (fields : List (String × Json)) :
    keys fields <+: keys (set key value fields) := by
  by_cases hkey : key ∈ keys fields
  · simp only [keys_set_of_mem hkey, List.prefix_rfl]
  · rw [set_of_notMem hkey, keys, keys, List.map_append]
    exact List.prefix_append _ _

theorem keys_prefix_update (fields updates : List (String × Json)) :
    keys fields <+: keys (update fields updates) := by
  induction updates generalizing fields with
  | nil => exact List.prefix_rfl
  | cons u updates ih => exact (keys_prefix_set u.1 u.2 fields).trans (ih _)

/-- The dict of the fields of a decoded object: a repeated key has its last value. -/
def asDict (fields : List (String × Json)) : List (String × Json) := update [] fields

theorem nodup_keys_update {fields : List (String × Json)} (h : (keys fields).Nodup)
    (updates : List (String × Json)) : (keys (update fields updates)).Nodup := by
  induction updates generalizing fields with
  | nil => exact h
  | cons u updates ih => exact ih (nodup_keys_set h u.1 u.2)

theorem nodup_keys_asDict (fields : List (String × Json)) : (keys (asDict fields)).Nodup :=
  nodup_keys_update (show (keys []).Nodup from List.nodup_nil) fields

theorem lookup_update (key : String) (fields updates : List (String × Json)) :
    lookup key (update fields updates) =
      (lookup key (asDict updates)).or (lookup key fields) := by
  induction updates using List.reverseRecOn with
  | nil => rfl
  | append_singleton updates u ih =>
      unfold asDict update at ih ⊢
      rw [List.foldl_append, List.foldl_append, List.foldl_cons, List.foldl_cons, List.foldl_nil,
        List.foldl_nil, lookup_set, lookup_set, ih]
      split_ifs
      · rfl
      · rfl

theorem lookup_update_of_mem {key : String} {value : Json} {fields updates : List (String × Json)}
    (hnodup : (keys updates).Nodup) (h : (key, value) ∈ updates) :
    lookup key (update fields updates) = some value := by
  have hdict : asDict updates = updates := update_of_nodup (by simpa using hnodup)
  rw [lookup_update, hdict, lookup_of_mem hnodup h]
  rfl

theorem asDict_asDict (fields : List (String × Json)) : asDict (asDict fields) = asDict fields :=
  update_of_nodup (nodup_keys_asDict fields)

theorem lookup_filter (keep : String × Json → Bool) {fields : List (String × Json)}
    (h : (keys fields).Nodup) (key : String) :
    lookup key (fields.filter keep) =
      (lookup key fields).filter fun value => keep (key, value) := by
  induction fields with
  | nil => rfl
  | cons field fields ih =>
      obtain ⟨k, v⟩ := field
      obtain ⟨hnew, hrest⟩ := List.nodup_cons.1 h
      by_cases hk : k = key
      · subst hk
        have hnone : lookup k (fields.filter keep) = none := by
          rw [ih hrest, lookup_eq_none hnew]
          rfl
        by_cases hkeep : keep (k, v) = true
        · simp [lookup, hkeep, Option.filter]
        · simp [lookup, hkeep, hnone, Option.filter]
      · by_cases hkeep : keep (k, v) = true
        · simp [lookup, hkeep, hk, ih hrest]
        · simp [lookup, hkeep, hk, ih hrest]

theorem lookup_erase_of_ne {key k : String} (h : k ≠ key) (fields : List (String × Json)) :
    lookup k (erase key fields) = lookup k fields := by
  induction fields with
  | nil => rfl
  | cons field fields ih =>
      obtain ⟨k', v⟩ := field
      unfold erase at ih ⊢
      by_cases hk : k' = key
      · subst hk
        simpa [lookup, Ne.symm h] using ih
      · simp only [lookup, ne_eq, hk, not_false_eq_true, decide_true, List.filter_cons_of_pos]
        rw [ih]

end Python.Json
