import Mathlib.Data.List.Nodup
import Zyntry.JsonEquality
import Zyntry.PythonDict
import Zyntry.PythonText

/-!
# Joins of source records

`join_source_records` groups the records of all sets by the value of the join key, keeps one
record for each source name in a group, and makes a row of every group that has as many
records as there are sets.
-/

namespace Zyntry

open Python

abbrev SourceRecord := List (String × Json)

structure SourceRecordSet where
  source : String
  records : List SourceRecord := []
  length_source : 1 ≤ source.length ∧ source.length ≤ 128

/-- `source.strip().lower()`. -/
def SourceRecordSet.name (set : SourceRecordSet) : String := lower (stripped set.source)

/-- A request that the schema has accepted. -/
structure CrossSourceJoinRequest where
  sources : List SourceRecordSet
  joinOn : Option String := none
  limit : ℕ := 100
  length_sources : 1 ≤ sources.length ∧ sources.length ≤ 20
  length_joinOn : ∀ name ∈ joinOn, 1 ≤ name.length ∧ name.length ≤ 128
  limit_range : 1 ≤ limit ∧ limit ≤ 10000

structure JoinProvenance where
  source : String
  records : ℕ
  joinKey : Option String
deriving DecidableEq, Repr

structure JoinResponse where
  sources : List String
  records : List SourceRecord
  matchedRecords : ℕ
  joinOn : Option String
  provenance : List JoinProvenance

inductive JoinError where
  | typeError
deriving DecidableEq, Repr

/-- `record.get(join_on)` as a key of a dictionary; `None` is no key. -/
def joinKey (joinOn : String) (record : SourceRecord) : Except JoinError (Option JsonKey) :=
  match Json.lookup joinOn record with
  | none => .ok none
  | some .null => .ok none
  | some value =>
      match value.key? with
      | some key => .ok (some key)
      | none => .error .typeError

/-- An entry of `grouped`: the key, the value that it was first seen as, and the records. -/
structure JoinGroup where
  key : JsonKey
  value : Json
  bySource : List (String × Json)

/-- `group[source] = record`. -/
def JoinGroup.put (source : String) (record : SourceRecord) (group : JoinGroup) : JoinGroup :=
  { group with bySource := Json.set source (.obj record) group.bySource }

/-- `grouped[value][source] = record`. -/
def putRecord (key : JsonKey) (value : Json) (source : String) (record : SourceRecord)
    (groups : List JoinGroup) : List JoinGroup :=
  if key ∈ groups.map JoinGroup.key then
    groups.map fun group => if group.key = key then group.put source record else group
  else groups ++ [⟨key, value, [(source, .obj record)]⟩]

def groupRecord (joinOn source : String) (groups : List JoinGroup) (record : SourceRecord) :
    Except JoinError (List JoinGroup) := do
  match ← joinKey joinOn record with
  | none => return groups
  | some key =>
      return putRecord key ((Json.lookup joinOn record).getD .null) source record groups

def groupSet (joinOn : String) (groups : List JoinGroup) (set : SourceRecordSet) :
    Except JoinError (List JoinGroup) :=
  set.records.foldlM (groupRecord joinOn set.name) groups

def groupSets (joinOn : String) (sets : List SourceRecordSet) :
    Except JoinError (List JoinGroup) :=
  sets.foldlM (groupSet joinOn) []

def JoinGroup.merged (joinOn : String) (group : JoinGroup) : SourceRecord :=
  Json.update [(joinOn, group.value)] group.bySource

/-- The rows of the complete groups, as many as the limit, which is positive, allows. -/
def joinedRows (joinOn : String) (count limit : ℕ) (groups : List JoinGroup) :
    List SourceRecord :=
  ((groups.filter fun group => group.bySource.length = count).take limit).map
    (JoinGroup.merged joinOn)

/-- The rows without a join key. -/
def unjoinedRows (limit : ℕ) (sets : List SourceRecordSet) : List SourceRecord :=
  (sets.flatMap fun set => set.records.map fun record =>
    [("source", .str set.name), ("record", .obj record)]).take limit

def joinSourceRecords (request : CrossSourceJoinRequest) : Except JoinError JoinResponse := do
  let rows ← match request.joinOn with
    | some joinOn => do
        let groups ← groupSets joinOn request.sources
        pure (joinedRows joinOn request.sources.length request.limit groups)
    | none => pure (unjoinedRows request.limit request.sources)
  return {
    sources := request.sources.map SourceRecordSet.name
    records := rows
    matchedRecords := rows.length
    joinOn := request.joinOn
    provenance := request.sources.map fun set =>
      { source := set.source, records := set.records.length, joinKey := request.joinOn } }

/-! ## What a join should return -/

def HasJoinKey (joinOn : String) (key : JsonKey) (record : SourceRecord) : Prop :=
  joinKey joinOn record = .ok (some key)

/-- The key occurs in every set. -/
def CommonKey (joinOn : String) (sets : List SourceRecordSet) (key : JsonKey) : Prop :=
  ∀ set ∈ sets, ∃ record ∈ set.records, HasJoinKey joinOn key record

/-- The row has the key, and for each set, under its name, a record of it with the key. -/
def RowFor (joinOn : String) (sets : List SourceRecordSet) (key : JsonKey)
    (row : SourceRecord) : Prop :=
  (∃ value ∈ Json.lookup joinOn row, value.key? = some key) ∧
    ∀ set ∈ sets, ∃ record ∈ set.records, HasJoinKey joinOn key record ∧
      Json.lookup set.name row = some (.obj record)

/-- A request with a join key. -/
structure KeyedJoin extends CrossSourceJoinRequest where
  key : String
  joinOn_eq : joinOn = some key

/-- The rows are for distinct common keys, and for all of them if the limit is not reached. -/
def JoinsCommonKeys (request : KeyedJoin) : Prop :=
  ∃ response keys, joinSourceRecords request.toCrossSourceJoinRequest = .ok response ∧
    List.Forall₂ (RowFor request.key request.sources) keys response.records ∧ keys.Nodup ∧
    (∀ key ∈ keys, CommonKey request.key request.sources key) ∧ keys.length ≤ request.limit ∧
    (keys.length < request.limit →
      ∀ key, CommonKey request.key request.sources key → key ∈ keys)

/-- No record has a list or a dictionary for the join key; and if some key is common, the names
of the sources are distinct and differ from the join key. -/
structure JoinsCleanly (request : KeyedJoin) : Prop where
  hashable : ∀ set ∈ request.sources, ∀ record ∈ set.records,
    joinKey request.key record ≠ .error .typeError
  distinct : (∃ key, CommonKey request.key request.sources key) →
    (request.sources.map SourceRecordSet.name).Nodup
  unlike : (∃ key, CommonKey request.key request.sources key) →
    request.key ∉ request.sources.map SourceRecordSet.name

/-! ## Groups -/

variable {joinOn : String} {key : JsonKey} {record : SourceRecord} {groups : List JoinGroup}
  {sets : List SourceRecordSet}

theorem HasJoinKey.key?_eq (h : HasJoinKey joinOn key record) :
    ((Json.lookup joinOn record).getD .null).key? = some key := by
  unfold HasJoinKey joinKey at h
  split at h
  · cases h
  · cases h
  · next value _ hvalue =>
    rw [hvalue]
    cases hkey : value.key? with
    | none =>
      rw [hkey] at h
      cases h
    | some key' =>
      rw [hkey] at h
      cases h
      exact hkey

/-- The groups of the records seen so far, each with the name of its set. -/
structure GroupsOf (joinOn : String) (seen : List (String × SourceRecord))
    (groups : List JoinGroup) : Prop where
  nodup : (groups.map JoinGroup.key).Nodup
  value : ∀ group ∈ groups, group.value.key? = some group.key
  sources : ∀ group ∈ groups, (Json.keys group.bySource).Nodup
  sound : ∀ group ∈ groups, ∀ source value, (source, value) ∈ group.bySource →
    ∃ record, value = .obj record ∧ (source, record) ∈ seen ∧ HasJoinKey joinOn group.key record
  complete : ∀ source record key, (source, record) ∈ seen → HasJoinKey joinOn key record →
    ∃ group ∈ groups, group.key = key ∧ source ∈ Json.keys group.bySource

theorem GroupsOf.sound_append {seen : List (String × SourceRecord)}
    (h : GroupsOf joinOn seen groups) (more : List (String × SourceRecord)) {group : JoinGroup}
    (hgroup : group ∈ groups) {source : String} {value : Json}
    (hmem : (source, value) ∈ group.bySource) :
    ∃ record, value = .obj record ∧ (source, record) ∈ seen ++ more ∧
      HasJoinKey joinOn group.key record := by
  obtain ⟨record, hvalue, hseen, hkey⟩ := h.sound group hgroup source value hmem
  exact ⟨record, hvalue, List.mem_append_left _ hseen, hkey⟩

theorem GroupsOf.skip {seen : List (String × SourceRecord)} (h : GroupsOf joinOn seen groups)
    {source : String} (hnone : joinKey joinOn record = .ok none) :
    GroupsOf joinOn (seen ++ [(source, record)]) groups := by
  refine { h with sound := ?_, complete := ?_ }
  · exact fun group hgroup _ _ hmem => h.sound_append _ hgroup hmem
  · intro s old key hseen hcarries
    rcases List.mem_append.mp hseen with hseen | hlast
    · exact h.complete s old key hseen hcarries
    · obtain ⟨-, rfl⟩ := Prod.mk.inj (List.mem_singleton.mp hlast)
      rw [HasJoinKey, hnone] at hcarries
      cases hcarries

/-- A record for a group that is there. -/
theorem GroupsOf.put {seen : List (String × SourceRecord)} (h : GroupsOf joinOn seen groups)
    (source : String) (hcarries : HasJoinKey joinOn key record)
    (hkey : key ∈ groups.map JoinGroup.key) :
    GroupsOf joinOn (seen ++ [(source, record)])
      (groups.map fun group => if group.key = key then group.put source record else group) := by
  have hkeys : (groups.map fun group =>
      if group.key = key then group.put source record else group).map JoinGroup.key =
        groups.map JoinGroup.key := by
    rw [List.map_map]
    apply List.map_congr_left
    intro group _
    simp only [Function.comp_apply]
    split_ifs <;> rfl
  constructor
  · rw [hkeys]
    exact h.nodup
  · intro group hgroup
    obtain ⟨old, hold, rfl⟩ := List.mem_map.mp hgroup
    split_ifs
    · exact h.value old hold
    · exact h.value old hold
  · intro group hgroup
    obtain ⟨old, hold, rfl⟩ := List.mem_map.mp hgroup
    split_ifs
    · exact Json.nodup_keys_set (h.sources old hold) source (.obj record)
    · exact h.sources old hold
  · intro group hgroup s value hmem
    obtain ⟨old, hold, rfl⟩ := List.mem_map.mp hgroup
    split_ifs at hmem ⊢ with hold_key
    · rcases Json.mem_set hmem with ⟨rfl, rfl⟩ | hmem
      · exact ⟨record, rfl, List.mem_append_right _ (List.mem_singleton_self _),
          hold_key ▸ hcarries⟩
      · exact h.sound_append _ hold hmem
    · exact h.sound_append _ hold hmem
  · intro s old key' hseen hcarries'
    rcases List.mem_append.mp hseen with hseen | hlast
    · obtain ⟨group, hgroup, hgroup_key, hsource⟩ := h.complete s old key' hseen hcarries'
      refine ⟨_, List.mem_map_of_mem hgroup, ?_, ?_⟩
      · split_ifs
        · exact hgroup_key
        · exact hgroup_key
      · split_ifs
        · exact Json.mem_keys_set.mpr (.inr hsource)
        · exact hsource
    · obtain ⟨rfl, rfl⟩ := Prod.mk.inj (List.mem_singleton.mp hlast)
      obtain rfl : key = key' := Option.some.inj (Except.ok.inj (hcarries.symm.trans hcarries'))
      obtain ⟨group, hgroup, hgroup_key⟩ := List.mem_map.mp hkey
      refine ⟨_, List.mem_map_of_mem hgroup, ?_, ?_⟩
      · rw [if_pos hgroup_key]
        exact hgroup_key
      · rw [if_pos hgroup_key]
        exact Json.mem_keys_set.mpr (.inl rfl)

/-- A record for a group that is new. -/
theorem GroupsOf.append {seen : List (String × SourceRecord)} (h : GroupsOf joinOn seen groups)
    (source : String) (hcarries : HasJoinKey joinOn key record)
    (hkey : key ∉ groups.map JoinGroup.key) :
    GroupsOf joinOn (seen ++ [(source, record)])
      (groups ++ [⟨key, (Json.lookup joinOn record).getD .null, [(source, .obj record)]⟩]) := by
  constructor
  · rw [List.map_append]
    refine h.nodup.append (List.nodup_singleton _) ?_
    intro k hk hk'
    obtain rfl : k = key := by simpa using hk'
    exact hkey hk
  · intro group hgroup
    rcases List.mem_append.mp hgroup with hgroup | hlast
    · exact h.value group hgroup
    · rw [List.mem_singleton.mp hlast]
      exact hcarries.key?_eq
  · intro group hgroup
    rcases List.mem_append.mp hgroup with hgroup | hlast
    · exact h.sources group hgroup
    · rw [List.mem_singleton.mp hlast]
      exact List.nodup_singleton source
  · intro group hgroup s value hmem
    rcases List.mem_append.mp hgroup with hgroup | hlast
    · exact h.sound_append _ hgroup hmem
    · obtain rfl := List.mem_singleton.mp hlast
      obtain ⟨rfl, rfl⟩ := Prod.mk.inj (List.mem_singleton.mp hmem)
      exact ⟨record, rfl, List.mem_append_right _ (List.mem_singleton_self _), hcarries⟩
  · intro s old key' hseen hcarries'
    rcases List.mem_append.mp hseen with hseen | hlast
    · obtain ⟨group, hgroup, hgroup_key, hsource⟩ := h.complete s old key' hseen hcarries'
      exact ⟨group, List.mem_append_left _ hgroup, hgroup_key, hsource⟩
    · obtain ⟨rfl, rfl⟩ := Prod.mk.inj (List.mem_singleton.mp hlast)
      obtain rfl : key = key' := Option.some.inj (Except.ok.inj (hcarries.symm.trans hcarries'))
      exact ⟨_, List.mem_append_right _ (List.mem_singleton_self _), rfl,
        List.mem_singleton_self _⟩

/-- The step lemma. -/
theorem GroupsOf.next {seen : List (String × SourceRecord)} (h : GroupsOf joinOn seen groups)
    {source : String} {groups' : List JoinGroup}
    (hrecord : groupRecord joinOn source groups record = .ok groups') :
    GroupsOf joinOn (seen ++ [(source, record)]) groups' := by
  obtain ⟨key, hkey, hgroups⟩ := bind_eq_ok.mp hrecord
  cases key with
  | none =>
    cases hgroups
    exact h.skip hkey
  | some key =>
    cases hgroups
    unfold putRecord
    split_ifs with hmem
    · exact h.put source hkey hmem
    · exact h.append source hkey hmem

theorem GroupsOf.recordSet {seen : List (String × SourceRecord)} {records : List SourceRecord}
    {source : String} {groups' : List JoinGroup} (h : GroupsOf joinOn seen groups)
    (hrecords : records.foldlM (groupRecord joinOn source) groups = .ok groups') :
    GroupsOf joinOn (seen ++ records.map fun record => (source, record)) groups' := by
  induction records generalizing groups seen with
  | nil =>
    cases hrecords
    simpa using h
  | cons record records ih =>
    obtain ⟨next, hnext, hrest⟩ := bind_eq_ok.mp hrecords
    have hstep := ih (h.next hnext) hrest
    rwa [List.append_assoc, List.singleton_append] at hstep

/-- The records of all sets, each with the name of its set. -/
def namedRecords (sets : List SourceRecordSet) : List (String × SourceRecord) :=
  sets.flatMap fun set => set.records.map fun record => (set.name, record)

theorem groupSets_groupsOf (h : groupSets joinOn sets = .ok groups) :
    GroupsOf joinOn (namedRecords sets) groups := by
  have hrun (seen : List (String × SourceRecord)) (before : List JoinGroup)
      (hbefore : GroupsOf joinOn seen before)
      (hgroups : sets.foldlM (groupSet joinOn) before = .ok groups) :
      GroupsOf joinOn (seen ++ namedRecords sets) groups := by
    clear h
    induction sets generalizing seen before with
    | nil =>
      cases hgroups
      simpa [namedRecords] using hbefore
    | cons set sets ih =>
      obtain ⟨next, hnext, hrest⟩ := bind_eq_ok.mp hgroups
      have hset := ih _ next (hbefore.recordSet hnext) hrest
      rwa [List.append_assoc] at hset
  have hstart : GroupsOf joinOn [] [] := ⟨.nil, nofun, nofun, nofun, nofun⟩
  exact hrun [] [] hstart h

/-! ## Values without a hash -/

theorem groupRecord_ok_iff {source : String} :
    (∃ groups', groupRecord joinOn source groups record = .ok groups') ↔
      joinKey joinOn record ≠ .error .typeError := by
  unfold groupRecord
  cases hkey : joinKey joinOn record with
  | error e =>
    cases e
    exact iff_of_false (fun ⟨_, h⟩ => nomatch h) fun h => h rfl
  | ok found =>
    refine iff_of_true ?_ nofun
    cases found with
    | none => exact ⟨_, rfl⟩
    | some key => exact ⟨_, rfl⟩

theorem groupSets_ok_iff :
    (∃ groups, groupSets joinOn sets = .ok groups) ↔
      ∀ set ∈ sets, ∀ record ∈ set.records, joinKey joinOn record ≠ .error .typeError := by
  refine foldlM_ok_iff (fun set : SourceRecordSet => ∀ record ∈ set.records,
    joinKey joinOn record ≠ .error .typeError) fun groups set => ?_
  exact foldlM_ok_iff (fun record => joinKey joinOn record ≠ .error .typeError)
    fun _ _ => groupRecord_ok_iff

/-! ## Complete groups -/

theorem mem_namedRecords {source : String} :
    (source, record) ∈ namedRecords sets ↔
      ∃ set ∈ sets, set.name = source ∧ record ∈ set.records := by
  simp only [namedRecords, List.mem_flatMap, List.mem_map, Prod.mk.injEq]
  constructor
  · rintro ⟨set, hset, old, hold, hname, rfl⟩
    exact ⟨set, hset, hname, hold⟩
  · rintro ⟨set, hset, hname, hrecord⟩
    exact ⟨set, hset, record, hrecord, hname, rfl⟩

/-- The sources of a group are names of sets, each once. -/
theorem GroupsOf.keys_subset (h : GroupsOf joinOn (namedRecords sets) groups)
    {group : JoinGroup} (hgroup : group ∈ groups) :
    Json.keys group.bySource ⊆ sets.map SourceRecordSet.name := by
  intro source hsource
  obtain ⟨⟨_, value⟩, hmem, rfl⟩ := List.mem_map.mp hsource
  obtain ⟨record, -, hseen, -⟩ := h.sound group hgroup _ value hmem
  obtain ⟨set, hset, hname, -⟩ := mem_namedRecords.mp hseen
  exact List.mem_map.mpr ⟨set, hset, hname⟩

/-- With repeated names no group is complete. -/
theorem GroupsOf.names_nodup (h : GroupsOf joinOn (namedRecords sets) groups)
    {group : JoinGroup} (hgroup : group ∈ groups)
    (hcount : group.bySource.length = sets.length) : (sets.map SourceRecordSet.name).Nodup := by
  have hperm := List.subperm_of_subset (h.sources group hgroup) (h.keys_subset hgroup)
  have hsame := hperm.perm_of_length_le (by rw [Json.length_keys, hcount, List.length_map])
  exact hsame.nodup_iff.mp (h.sources group hgroup)

theorem eq_of_name_eq (hnodup : (sets.map SourceRecordSet.name).Nodup) {set set' : SourceRecordSet}
    (hset : set ∈ sets) (hset' : set' ∈ sets) (hname : set.name = set'.name) : set = set' :=
  List.inj_on_of_nodup_map hnodup hset hset' hname

/-- With distinct names a group is complete exactly if its key is common. -/
theorem GroupsOf.complete_iff (h : GroupsOf joinOn (namedRecords sets) groups)
    (hnodup : (sets.map SourceRecordSet.name).Nodup) {group : JoinGroup}
    (hgroup : group ∈ groups) :
    group.bySource.length = sets.length ↔ CommonKey joinOn sets group.key := by
  have hsubperm := List.subperm_of_subset (h.sources group hgroup) (h.keys_subset hgroup)
  constructor
  · intro hcount set hset
    have hsame := hsubperm.perm_of_length_le (by rw [Json.length_keys, hcount, List.length_map])
    have hsource := hsame.symm.subset (List.mem_map_of_mem hset)
    obtain ⟨⟨_, value⟩, hmem, hname⟩ := List.mem_map.mp hsource
    obtain ⟨record, -, hseen, hcarries⟩ := h.sound group hgroup _ value hmem
    obtain ⟨set', hset', hname', hrecord⟩ := mem_namedRecords.mp hseen
    obtain rfl := eq_of_name_eq hnodup hset' hset (hname'.trans hname)
    exact ⟨record, hrecord, hcarries⟩
  · intro hcommon
    have hcover : sets.map SourceRecordSet.name ⊆ Json.keys group.bySource := by
      intro source hsource
      obtain ⟨set, hset, rfl⟩ := List.mem_map.mp hsource
      obtain ⟨record, hrecord, hcarries⟩ := hcommon set hset
      obtain ⟨group', hgroup', hkey, hmem⟩ := h.complete set.name record group.key
        (mem_namedRecords.mpr ⟨set, hset, rfl, hrecord⟩) hcarries
      obtain rfl := List.inj_on_of_nodup_map h.nodup hgroup' hgroup hkey
      exact hmem
    have hlength := (List.subperm_of_subset hnodup hcover).length_le
    have hlength' := hsubperm.length_le
    rw [Json.length_keys, List.length_map] at hlength hlength'
    omega

theorem GroupsOf.exists_of_common (h : GroupsOf joinOn (namedRecords sets) groups)
    (hne : sets ≠ []) (hcommon : CommonKey joinOn sets key) :
    ∃ group ∈ groups, group.key = key := by
  obtain ⟨set, hset⟩ := List.exists_mem_of_ne_nil sets hne
  obtain ⟨record, hrecord, hcarries⟩ := hcommon set hset
  obtain ⟨group, hgroup, hkey, -⟩ := h.complete set.name record key
    (mem_namedRecords.mpr ⟨set, hset, rfl, hrecord⟩) hcarries
  exact ⟨group, hgroup, hkey⟩

/-! ## Rows -/

/-- The row of a group with a common key. -/
theorem GroupsOf.rowFor (h : GroupsOf joinOn (namedRecords sets) groups)
    (hnodup : (sets.map SourceRecordSet.name).Nodup)
    (hunlike : joinOn ∉ sets.map SourceRecordSet.name) {group : JoinGroup}
    (hgroup : group ∈ groups) (hcommon : CommonKey joinOn sets group.key) :
    RowFor joinOn sets group.key (group.merged joinOn) := by
  constructor
  · refine ⟨group.value, ?_, h.value group hgroup⟩
    unfold JoinGroup.merged
    rw [Json.lookup_update_of_notMem fun hmem => hunlike (h.keys_subset hgroup hmem)]
    exact if_pos rfl
  · intro set hset
    obtain ⟨old, hold, hcarries⟩ := hcommon set hset
    obtain ⟨group', hgroup', hkey, hsource⟩ := h.complete set.name old group.key
      (mem_namedRecords.mpr ⟨set, hset, rfl, hold⟩) hcarries
    obtain rfl := List.inj_on_of_nodup_map h.nodup hgroup' hgroup hkey
    obtain ⟨⟨source, value⟩, hmem, hname⟩ := List.mem_map.mp hsource
    obtain ⟨record, rfl, hseen, hrecord⟩ := h.sound group' hgroup' source value hmem
    obtain ⟨set', hset', hname', hrow⟩ := mem_namedRecords.mp hseen
    obtain rfl := eq_of_name_eq hnodup hset' hset (hname'.trans hname)
    refine ⟨record, hrow, hrecord, ?_⟩
    rw [hname']
    exact Json.lookup_update_of_mem (h.sources group' hgroup') hmem

theorem joinSourceRecords_eq (request : KeyedJoin) {response : JoinResponse}
    (h : joinSourceRecords request.toCrossSourceJoinRequest = .ok response) :
    ∃ groups, groupSets request.key request.sources = .ok groups ∧
      response.records =
        joinedRows request.key request.sources.length request.limit groups := by
  unfold joinSourceRecords at h
  rw [request.joinOn_eq] at h
  obtain ⟨groups, hgroups, hresponse⟩ := bind_eq_ok.mp h
  cases hresponse
  exact ⟨groups, hgroups, rfl⟩

theorem exists_joinSourceRecords (request : KeyedJoin) {groups : List JoinGroup}
    (h : groupSets request.key request.sources = .ok groups) :
    ∃ response, joinSourceRecords request.toCrossSourceJoinRequest = .ok response ∧
      response.records =
        joinedRows request.key request.sources.length request.limit groups := by
  unfold joinSourceRecords
  rw [request.joinOn_eq]
  dsimp only
  rw [h]
  exact ⟨_, rfl, rfl⟩

theorem mem_joinedRows {count limit : ℕ} {row : SourceRecord}
    (h : row ∈ joinedRows joinOn count limit groups) :
    ∃ group ∈ groups, group.bySource.length = count ∧ group.merged joinOn = row := by
  obtain ⟨group, hgroup, hrow⟩ := List.mem_map.mp h
  obtain ⟨hmem, hcount⟩ := List.mem_filter.mp (List.mem_of_mem_take hgroup)
  exact ⟨group, hmem, of_decide_eq_true hcount, hrow⟩

/-- A join that returns what it should is clean. -/
theorem JoinsCommonKeys.cleanly {request : KeyedJoin} (h : JoinsCommonKeys request) :
    JoinsCleanly request := by
  obtain ⟨response, keys, hresponse, hrows, -, -, -, hall⟩ := h
  obtain ⟨groups, hgroups, hrecords⟩ := joinSourceRecords_eq request hresponse
  have hof := groupSets_groupsOf hgroups
  have hrow (hkey : ∃ key, CommonKey request.key request.sources key) :
      ∃ key row, row ∈ response.records ∧ RowFor request.key request.sources key row := by
    obtain ⟨key, hcommon⟩ := hkey
    have hpositive := request.limit_range.1
    generalize response.records = records at hrows ⊢
    cases hrows with
    | nil => exact absurd (hall hpositive key hcommon) List.not_mem_nil
    | cons hfirst _ => exact ⟨_, _, List.mem_cons_self, hfirst⟩
  refine ⟨groupSets_ok_iff.mp ⟨groups, hgroups⟩, ?_, ?_⟩
  · intro hkey
    obtain ⟨key, row, hmem, -⟩ := hrow hkey
    rw [hrecords] at hmem
    obtain ⟨group, hgroup, hcount, -⟩ := mem_joinedRows hmem
    exact hof.names_nodup hgroup hcount
  · -- A source under the join key leaves a record where the row should have its key.
    intro hkey hlike
    obtain ⟨key, row, -, ⟨value, hvalue, hvalue_key⟩, hsets⟩ := hrow hkey
    obtain ⟨set, hset, hname⟩ := List.mem_map.mp hlike
    obtain ⟨record, -, -, hlookup⟩ := hsets set hset
    rw [hname, hvalue] at hlookup
    obtain rfl := Option.some.inj hlookup
    cases hvalue_key

/-- A clean join returns what it should. -/
theorem JoinsCleanly.commonKeys {request : KeyedJoin} (h : JoinsCleanly request) :
    JoinsCommonKeys request := by
  obtain ⟨groups, hgroups⟩ := groupSets_ok_iff.mpr h.hashable
  have hof := groupSets_groupsOf hgroups
  obtain ⟨response, hresponse, hrecords⟩ := exists_joinSourceRecords request hgroups
  by_cases hkey : ∃ key, CommonKey request.key request.sources key
  · have hnodup := h.distinct hkey
    have hunlike := h.unlike hkey
    refine ⟨response, ((groups.filter fun group =>
      group.bySource.length = request.sources.length).take request.limit).map JoinGroup.key,
      hresponse, ?_, ?_, ?_, ?_, ?_⟩
    · rw [hrecords, joinedRows, List.forall₂_map_left_iff, List.forall₂_map_right_iff,
        List.forall₂_same]
      intro group hgroup
      obtain ⟨hmem, hcount⟩ := List.mem_filter.mp (List.mem_of_mem_take hgroup)
      exact hof.rowFor hnodup hunlike hmem
        ((hof.complete_iff hnodup hmem).mp (of_decide_eq_true hcount))
    · exact hof.nodup.sublist (((List.take_sublist _ _).trans List.filter_sublist).map _)
    · intro key hkey
      obtain ⟨group, hgroup, rfl⟩ := List.mem_map.mp hkey
      obtain ⟨hmem, hcount⟩ := List.mem_filter.mp (List.mem_of_mem_take hgroup)
      exact (hof.complete_iff hnodup hmem).mp (of_decide_eq_true hcount)
    · rw [List.length_map, List.length_take]
      exact Nat.min_le_left _ _
    · intro hshort key hcommon
      have hne : request.sources ≠ [] := List.length_pos_iff.mp request.length_sources.1
      obtain ⟨group, hgroup, rfl⟩ := hof.exists_of_common hne hcommon
      rw [List.length_map, List.length_take] at hshort
      rw [List.take_of_length_le (by omega)]
      exact List.mem_map_of_mem (List.mem_filter.mpr ⟨hgroup,
        decide_eq_true ((hof.complete_iff hnodup hgroup).mpr hcommon)⟩)
  · have hnone : response.records = [] := by
      rw [hrecords]
      refine List.eq_nil_iff_forall_not_mem.mpr fun row hrow => ?_
      obtain ⟨group, hgroup, hcount, -⟩ := mem_joinedRows hrow
      exact hkey ⟨group.key,
        (hof.complete_iff (hof.names_nodup hgroup hcount) hgroup).mp hcount⟩
    refine ⟨response, [], hresponse, ?_, .nil, nofun, Nat.zero_le _, ?_⟩
    · rw [hnone]
      exact .nil
    · exact fun _ key hcommon => absurd ⟨key, hcommon⟩ hkey

def joinPair (set set' : SourceRecordSet) : KeyedJoin where
  sources := [set, set']
  joinOn := "id"
  length_sources := ⟨by simp, by simp⟩
  length_joinOn := by decide
  limit_range := by decide
  key := "id"
  joinOn_eq := rfl

def crmSet : SourceRecordSet := ⟨"CRM", [[("id", .int 1)]], by decide⟩

def paddedCrmSet : SourceRecordSet := ⟨" crm", [[("id", .int 1), ("tier", .str "gold")]], by decide⟩

def idSet : SourceRecordSet := ⟨"id", [[("id", .bool true)]], by decide⟩

def listSet : SourceRecordSet := ⟨"erp", [[("id", .arr [])]], by decide⟩

end Zyntry
