import Zyntry.PythonText
import Zyntry.SecurityScan
import Zyntry.StepRuns

/-!
# Permanent bans

Bans, unbans, scans and the sweep of expired bans write one record of an address each, at the
time of a clock that other steps move on. Whoever asks is let in as the record and the clock
say.
-/

namespace Zyntry

open Python StepRuns

/-- `ban_ip` for any number of hours; a time out of range raises. -/
def AdminTables.banIpHours (db : AdminTables) (now : ℤ) (ipAddress banType : String)
    (reason : Option String) (durationHours : Option ℤ) : Option AdminTables :=
  let record := (db.ipRecords ipAddress).getD {}
  let banned := { record with isBanned := true, banType := some banType, banReason := reason }
  let store (record : IpRecord) : AdminTables :=
    { db with ipRecords := Function.update db.ipRecords ipAddress (some record) }
  if banType = "temporary" ∧ durationHours.getD 0 ≠ 0 then
    let expires := now + minutes (60 * durationHours.getD 0)
    if minDatetime ≤ expires ∧ expires ≤ maxDatetime then
      some (store { banned with banExpiresAt := some expires })
    else none
  else some (store banned)

/-- `IPIntelligenceService.blacklist_ip`. -/
def AdminTables.blacklistIp (db : AdminTables) (now : ℤ) (ipAddress : String)
    (reason : Option String) : Option AdminTables :=
  db.banIpHours now ipAddress "permanent" reason none

/-- `blacklist_ip_task`, which knows only addresses that have a record. -/
def AdminTables.blacklistIpTask (db : AdminTables) (ipAddress : String)
    (reason : Option String) : AdminTables × Bool :=
  match db.ipRecords ipAddress with
  | none => (db, false)
  | some record =>
      let record :=
        { record with isBanned := true, banType := some "permanent", banReason := reason }
      ({ db with ipRecords := Function.update db.ipRecords ipAddress (some record) }, true)

/-- `unban_ip`, and `whitelist_ip`. -/
def AdminTables.unbanIp (db : AdminTables) (ipAddress : String) : AdminTables :=
  match db.ipRecords ipAddress with
  | none => db
  | some _ => { db with ipRecords := Function.update db.ipRecords ipAddress (some {}) }

/-- `expire_bans_task`. -/
def AdminTables.expireBans (db : AdminTables) (now : ℤ) : AdminTables :=
  { db with
    ipRecords := fun ipAddress => (db.ipRecords ipAddress).map fun record =>
      if record.isBanned ∧ record.banType = some "temporary" ∧
          record.banExpiresAt.any (· ≤ now) then {}
      else record }

def checkIpNotBanned (now : ℤ) : Option IpRecord → Bool
  | none => true
  | some record =>
      if record.isBanned then
        if record.banType = some "permanent" then false
        else !record.banExpiresAt.any (now < ·)
      else true

structure SecurityState where
  tables : AdminTables := {}
  now : ℤ

inductive SecurityStep where
  | banIp (ipAddress banType : String) (reason : Option String) (durationHours : Option ℤ)
  | blacklistIp (ipAddress : String) (reason : Option String)
  | blacklistIpTask (ipAddress : String) (reason : Option String)
  | unbanIp (ipAddress : String)
  | runSecurityScan (windowMinutes threshold : ℤ)
  | runSecurityScanTask
  | expireBans
  /-- A request is checked, and changes nothing. -/
  | checkAccess (ipAddress : String)
  /-- Logins and the handling of alerts, whatever they leave in the two tables. -/
  | elsewhere (loginEvents : List LoginEvent) (alerts : List SecurityAlert)
  | wait (microseconds : ℕ)

namespace SecurityState

def step (s : SecurityState) : SecurityStep → SecurityState
  | .banIp ipAddress banType reason durationHours =>
      { s with tables :=
          (s.tables.banIpHours s.now ipAddress banType reason durationHours).getD s.tables }
  | .blacklistIp ipAddress reason =>
      { s with tables := (s.tables.blacklistIp s.now ipAddress reason).getD s.tables }
  | .blacklistIpTask ipAddress reason =>
      { s with tables := (s.tables.blacklistIpTask ipAddress reason).1 }
  | .unbanIp ipAddress => { s with tables := s.tables.unbanIp ipAddress }
  | .runSecurityScan windowMinutes threshold =>
      { s with tables := (Zyntry.runSecurityScan s.now s.tables windowMinutes threshold).1 }
  | .runSecurityScanTask => { s with tables := (Zyntry.runSecurityScanTask s.now s.tables).2 }
  | .expireBans => { s with tables := s.tables.expireBans s.now }
  | .checkAccess _ => s
  | .elsewhere loginEvents alerts => { s with tables := { s.tables with loginEvents, alerts } }
  | .wait microseconds => { s with now := s.now + microseconds }

/-- The answer of `check_ip_not_banned` for the record of the address. -/
def admits (s : SecurityState) (ipAddress : String) : Bool :=
  checkIpNotBanned s.now (s.tables.ipRecords ipAddress)

end SecurityState

namespace SecurityStep

/-- The address is banned permanently or blacklisted. -/
def Forbids (s : SecurityState) (ipAddress : String) : SecurityStep → Prop
  | .banIp address banType _ _ => address = ipAddress ∧ banType = "permanent"
  | .blacklistIp address _ => address = ipAddress
  | .blacklistIpTask address reason =>
      address = ipAddress ∧ (s.tables.blacklistIpTask address reason).2 = true
  | _ => False

def Unbans (ipAddress : String) : SecurityStep → Prop
  | .unbanIp address => address = ipAddress
  | _ => False

/-- A ban of another type is written for the address: by `ban_ip`, or by a scan that finds
enough failed logins and no open alert. -/
def Replaces (s : SecurityState) (ipAddress : String) : SecurityStep → Prop
  | .banIp address banType reason durationHours =>
      address = ipAddress ∧ banType ≠ "permanent" ∧
        (s.tables.banIpHours s.now address banType reason durationHours).isSome
  | .runSecurityScan windowMinutes threshold =>
      max 1 threshold ≤
          s.tables.failures (s.now - minutes (clampWindow windowMinutes)) ipAddress ∧
        s.tables.openAlerts ipAddress = []
  | _ => False

end SecurityStep

/-! ## The record of a banned address -/

def IpRecord.Permanent (record : IpRecord) : Prop :=
  record.isBanned = true ∧ record.banType = some "permanent"

def AdminTables.BansForever (db : AdminTables) (ipAddress : String) : Prop :=
  ∃ record, db.ipRecords ipAddress = some record ∧ record.Permanent

/-- The address has a record, and its ban is of another type. -/
def AdminTables.BansOtherwise (db : AdminTables) (ipAddress : String) : Prop :=
  ∃ record, db.ipRecords ipAddress = some record ∧ record.banType ≠ some "permanent"

variable {db db' : AdminTables} {ip ipAddress banType : String} {reason : Option String}
  {durationHours : Option ℤ} {now : ℤ}

theorem checkIpNotBanned_of_permanent {record : IpRecord} (h : record.Permanent) (now : ℤ) :
    checkIpNotBanned now (some record) = false := by
  rw [checkIpNotBanned, if_pos h.1, if_pos h.2]

/-- A ban that is not permanent is over at some time. -/
theorem exists_admits_of_bansOtherwise {s : SecurityState} (h : s.tables.BansOtherwise ip) :
    ∃ microseconds, (s.step (.wait microseconds)).admits ip = true := by
  obtain ⟨record, hrecord, htype⟩ := h
  refine ⟨((record.banExpiresAt.getD 0) - s.now).toNat, ?_⟩
  change checkIpNotBanned _ (s.tables.ipRecords ip) = true
  rw [hrecord, checkIpNotBanned, if_neg htype]
  split_ifs with hbanned
  · cases hexpires : record.banExpiresAt with
    | none => rfl
    | some expires =>
      have hover : ¬s.now + ((expires - s.now).toNat : ℤ) < expires := by omega
      simpa [SecurityState.step] using hover
  · rfl

/-- What `ban_ip` writes. -/
theorem exists_of_banIpHours
    (h : db.banIpHours now ipAddress banType reason durationHours = some db') :
    ∃ record, db'.ipRecords = Function.update db.ipRecords ipAddress (some record) ∧
      record.isBanned = true ∧ record.banType = some banType := by
  unfold AdminTables.banIpHours at h
  dsimp only at h
  split_ifs at h with htemporary hrange
  · cases h
    exact ⟨_, rfl, rfl, rfl⟩
  · cases h
    exact ⟨_, rfl, rfl, rfl⟩

theorem banIpHours_permanent (db : AdminTables) (now : ℤ) (ipAddress : String)
    (reason : Option String) (durationHours : Option ℤ) :
    ∃ db', db.banIpHours now ipAddress "permanent" reason durationHours = some db' := by
  have hother : ¬("permanent" = "temporary" ∧ durationHours.getD 0 ≠ 0) := by simp
  unfold AdminTables.banIpHours
  exact ⟨_, if_neg hother⟩

theorem bansForever_banIpHours (db : AdminTables) (now : ℤ) (ipAddress : String)
    (reason : Option String) (durationHours : Option ℤ) :
    ((db.banIpHours now ipAddress "permanent" reason durationHours).getD db).BansForever
      ipAddress := by
  obtain ⟨db', hdb'⟩ := banIpHours_permanent db now ipAddress reason durationHours
  obtain ⟨record, hrecords, hbanned, htype⟩ := exists_of_banIpHours hdb'
  rw [hdb', Option.getD_some]
  exact ⟨record, by rw [hrecords, Function.update_self], hbanned, htype⟩

theorem bansForever_blacklistIpTask
    (h : (db.blacklistIpTask ipAddress reason).2 = true) :
    (db.blacklistIpTask ipAddress reason).1.BansForever ipAddress := by
  unfold AdminTables.blacklistIpTask at h ⊢
  cases hrecord : db.ipRecords ipAddress with
  | none => simp [hrecord] at h
  | some record => exact ⟨_, Function.update_self .., rfl, rfl⟩

/-! ## The scan -/

section

variable {windowMinutes threshold : ℤ}

variable (now windowMinutes) in
/-- A group that gives no ban leaves the record and the open alerts of the address. -/
theorem ipRecords_engineStep (state : AdminTables × EngineScan) (group : String × ℕ)
    (h : group.1 = ip → group.2 < threshold ∨ state.1.openAlerts ip ≠ []) :
    (engineStep now windowMinutes threshold state group).1.ipRecords ip =
        state.1.ipRecords ip ∧
      (engineStep now windowMinutes threshold state group).1.openAlerts ip =
        state.1.openAlerts ip := by
  by_cases hgroup : group.1 = ip
  · unfold engineStep
    split_ifs with hfew hopen
    · exact ⟨rfl, rfl⟩
    · rcases h hgroup with hless | hsome
      · exact absurd hless hfew
      · exact absurd (List.isEmpty_iff.mp hopen) (hgroup ▸ hsome)
    · exact ⟨rfl, rfl⟩
  · refine ⟨?_, (engineStep_of_ne now windowMinutes threshold state (Ne.symm hgroup)).2⟩
    unfold engineStep
    split_ifs with hfew hopen
    · rfl
    · exact Function.update_of_ne (Ne.symm hgroup) ..
    · rfl

theorem ipRecords_foldl_engineStep {groups : List (String × ℕ)}
    {state : AdminTables × EngineScan}
    (h : ∀ group ∈ groups, group.1 = ip → group.2 < threshold ∨ state.1.openAlerts ip ≠ []) :
    (groups.foldl (engineStep now windowMinutes threshold) state).1.ipRecords ip =
      state.1.ipRecords ip := by
  induction groups generalizing state with
  | nil => rfl
  | cons group groups ih =>
    obtain ⟨hrecords, hopen⟩ := ipRecords_engineStep now windowMinutes state group
      (h group List.mem_cons_self)
    rw [List.foldl_cons, ih, hrecords]
    intro group' hmem
    rw [hopen]
    exact h group' (List.mem_cons_of_mem _ hmem)

/-- A temporary ban stays one through the groups of a scan. -/
theorem bansOtherwise_engineStep {state : AdminTables × EngineScan} (group : String × ℕ)
    (h : state.1.BansOtherwise ip) :
    (engineStep now windowMinutes threshold state group).1.BansOtherwise ip := by
  unfold engineStep
  split_ifs with hfew hopen
  · exact h
  · by_cases hgroup : group.1 = ip
    · subst hgroup
      exact ⟨_, Function.update_self .., by simp⟩
    · obtain ⟨record, hrecord, htype⟩ := h
      exact ⟨record, (Function.update_of_ne (Ne.symm hgroup) ..).trans hrecord, htype⟩
  · exact h

theorem bansOtherwise_foldl {groups : List (String × ℕ)} {state : AdminTables × EngineScan}
    (h : state.1.BansOtherwise ip) :
    (groups.foldl (engineStep now windowMinutes threshold) state).1.BansOtherwise ip := by
  induction groups generalizing state with
  | nil => exact h
  | cons group groups ih => exact ih (bansOtherwise_engineStep group h)

theorem bansOtherwise_foldl_of_mem {groups : List (String × ℕ)}
    {state : AdminTables × EngineScan} {failures : ℕ} (hmem : (ip, failures) ∈ groups)
    (hmany : threshold ≤ failures) (hopen : state.1.openAlerts ip = []) :
    (groups.foldl (engineStep now windowMinutes threshold) state).1.BansOtherwise ip := by
  induction groups generalizing state with
  | nil => cases hmem
  | cons group groups ih =>
    rw [List.foldl_cons]
    by_cases hban : group.1 = ip ∧ threshold ≤ group.2
    · obtain ⟨rfl, henough⟩ := hban
      apply bansOtherwise_foldl
      rw [engineStep, if_neg (not_lt.mpr henough)]
      simp only [hopen, List.isEmpty_nil, if_true]
      exact ⟨_, Function.update_self .., by simp⟩
    · have hfew : group.1 = ip → group.2 < threshold ∨ state.1.openAlerts ip ≠ [] := by
        intro hgroup
        exact .inl (not_le.mp fun henough => hban ⟨hgroup, henough⟩)
      have hrest : (ip, failures) ∈ groups := by
        rcases List.mem_cons.mp hmem with heq | hrest
        · subst heq
          exact absurd ⟨rfl, hmany⟩ hban
        · exact hrest
      refine ih hrest ?_
      rw [(ipRecords_engineStep now windowMinutes state group hfew).2, hopen]

theorem ipRecords_runSecurityScan
    (h : ¬(max 1 threshold ≤ db.failures (now - minutes (clampWindow windowMinutes)) ip ∧
      db.openAlerts ip = [])) :
    (runSecurityScan now db windowMinutes threshold).1.ipRecords ip = db.ipRecords ip := by
  unfold runSecurityScan
  apply ipRecords_foldl_engineStep
  intro group hmem hgroup
  obtain ⟨address, -, rfl⟩ := List.mem_map.mp hmem
  obtain rfl : address = ip := hgroup
  by_cases hmany : max 1 threshold ≤ db.failures (now - minutes (clampWindow windowMinutes)) address
  · exact .inr fun hopen => h ⟨hmany, hopen⟩
  · exact .inl (not_le.mp hmany)

/-- An address with enough failed logins and no open alert gets a temporary ban. -/
theorem bansOtherwise_runSecurityScan
    (hmany : max 1 threshold ≤ db.failures (now - minutes (clampWindow windowMinutes)) ip)
    (hopen : db.openAlerts ip = []) :
    (runSecurityScan now db windowMinutes threshold).1.BansOtherwise ip := by
  have hfailed : db.failures (now - minutes (clampWindow windowMinutes)) ip ≠ 0 := by omega
  exact bansOtherwise_foldl_of_mem
    (List.mem_map_of_mem (mem_failedAddresses hfailed)) hmany hopen

end

/-! ## Steps and runs -/

namespace SecurityState

variable {s : SecurityState}

theorem admits_of_bansForever (h : s.tables.BansForever ip) : s.admits ip = false := by
  obtain ⟨record, hrecord, hpermanent⟩ := h
  rw [admits, hrecord, checkIpNotBanned_of_permanent hpermanent]

theorem bansForever_of_ipRecords_eq (h : db.BansForever ip)
    (heq : db'.ipRecords ip = db.ipRecords ip) : db'.BansForever ip := by
  obtain ⟨record, hrecord, hpermanent⟩ := h
  exact ⟨record, heq.trans hrecord, hpermanent⟩

theorem bansForever_of_banIpHours (h : db.BansForever ip)
    (hspares : ¬(ipAddress = ip ∧ banType ≠ "permanent" ∧
      (db.banIpHours now ipAddress banType reason durationHours).isSome)) :
    ((db.banIpHours now ipAddress banType reason durationHours).getD db).BansForever ip := by
  cases hwrite : db.banIpHours now ipAddress banType reason durationHours with
  | none => exact h
  | some db' =>
    obtain ⟨record, hrecords, hbanned, htype⟩ := exists_of_banIpHours hwrite
    rw [Option.getD_some]
    by_cases haddress : ipAddress = ip
    · subst haddress
      have hpermanent : banType = "permanent" := by
        by_contra hother
        exact hspares ⟨rfl, hother, by rw [hwrite]; rfl⟩
      exact ⟨record, by rw [hrecords, Function.update_self], hbanned, hpermanent ▸ htype⟩
    · refine bansForever_of_ipRecords_eq h ?_
      rw [hrecords, Function.update_of_ne (Ne.symm haddress)]

theorem bansForever_of_forbids {k : SecurityStep} (h : k.Forbids s ip) :
    (s.step k).tables.BansForever ip := by
  cases k with
  | banIp address banType reason durationHours =>
    obtain ⟨rfl, rfl⟩ := h
    exact bansForever_banIpHours s.tables s.now address reason durationHours
  | blacklistIp address reason =>
    obtain rfl : address = ip := h
    exact bansForever_banIpHours s.tables s.now address reason none
  | blacklistIpTask address reason =>
    obtain ⟨rfl, hfound⟩ := h
    exact bansForever_blacklistIpTask hfound
  | _ => exact h.elim

/-- The step lemma: a permanent ban is over only by an unban, or a ban of another type. -/
theorem bansForever_step {k : SecurityStep} (h : s.tables.BansForever ip)
    (hunbans : ¬k.Unbans ip) (hreplaces : ¬k.Replaces s ip) :
    (s.step k).tables.BansForever ip := by
  cases k with
  | banIp address banType reason durationHours => exact bansForever_of_banIpHours h hreplaces
  | blacklistIp address reason =>
    have hspares : ¬(address = ip ∧ "permanent" ≠ "permanent" ∧
        (s.tables.banIpHours s.now address "permanent" reason none).isSome) :=
      fun hother => hother.2.1 rfl
    exact bansForever_of_banIpHours h hspares
  | blacklistIpTask address reason =>
    by_cases haddress : address = ip
    · subst haddress
      obtain ⟨record, hrecord, -⟩ := h
      have hfound : (s.tables.blacklistIpTask address reason).2 = true := by
        simp only [AdminTables.blacklistIpTask, hrecord]
      exact bansForever_blacklistIpTask hfound
    · refine bansForever_of_ipRecords_eq h ?_
      simp only [step, AdminTables.blacklistIpTask]
      cases s.tables.ipRecords address with
      | none => rfl
      | some record => exact Function.update_of_ne (Ne.symm haddress) ..
  | unbanIp address =>
    refine bansForever_of_ipRecords_eq h ?_
    simp only [step, AdminTables.unbanIp]
    cases s.tables.ipRecords address with
    | none => rfl
    | some record => exact Function.update_of_ne (fun heq => hunbans heq.symm) ..
  | runSecurityScan windowMinutes threshold =>
    exact bansForever_of_ipRecords_eq h (ipRecords_runSecurityScan hreplaces)
  | expireBans =>
    refine bansForever_of_ipRecords_eq h ?_
    obtain ⟨record, hrecord, -, htype⟩ := h
    simp [step, AdminTables.expireBans, hrecord, htype]
  | runSecurityScanTask => exact h
  | checkAccess address => exact h
  | elsewhere loginEvents alerts => exact h
  | wait microseconds => exact h

theorem bansOtherwise_of_replaces {k : SecurityStep} (h : k.Replaces s ip) :
    (s.step k).tables.BansOtherwise ip := by
  cases k with
  | banIp address banType reason durationHours =>
    obtain ⟨rfl, hother, hwrites⟩ := h
    obtain ⟨db', hdb'⟩ := Option.isSome_iff_exists.mp hwrites
    obtain ⟨record, hrecords, -, htype⟩ := exists_of_banIpHours hdb'
    refine ⟨record, ?_, by simpa [htype] using hother⟩
    simp only [step, hdb', Option.getD_some, hrecords, Function.update_self]
  | runSecurityScan windowMinutes threshold => exact bansOtherwise_runSecurityScan h.1 h.2
  | _ => exact h.elim

/-- Neither an unban of the address nor a ban of another type. -/
def Spares (ip : String) (s : SecurityState) (k : SecurityStep) : Prop :=
  ¬k.Unbans ip ∧ ¬k.Replaces s ip

/-- In a run without the two kinds of steps a permanent ban is enforced in every state. The
first ban of another type ends it, as soon as the time of that ban is over. -/
theorem permanentBans_persist {first : SecurityStep} (hfirst : first.Forbids s ip)
    {rest : List SecurityStep} (hrest : Along step (Spares ip) (s.step first) rest) :
    (rest.foldl step (s.step first)).admits ip = false ∧
      ∀ k : SecurityStep, k.Replaces (rest.foldl step (s.step first)) ip →
        ∃ microseconds, (((rest.foldl step (s.step first)).step k).step
          (.wait microseconds)).admits ip = true := by
  have hbanned : (rest.foldl step (s.step first)).tables.BansForever ip :=
    hrest.invariant (I := fun s => s.tables.BansForever ip)
      (fun _ _ h hk => bansForever_step h hk.1 hk.2) (bansForever_of_forbids hfirst)
  exact ⟨admits_of_bansForever hbanned,
    fun k hk => exists_admits_of_bansOtherwise (bansOtherwise_of_replaces hk)⟩

/-- An address with five failed logins, which is banned permanently afterwards. -/
def attacked : SecurityState where
  tables := fiveFailures
  now := minutes 120

def attackerBan : SecurityStep := .banIp "203.0.113.9" "permanent" none none

theorem attackerBan_persists :
    ([SecurityStep.expireBans, .wait 5].foldl step (attacked.step attackerBan)).admits
        "203.0.113.9" = false ∧
      ∃ microseconds, ((([SecurityStep.expireBans, .wait 5].foldl step
        (attacked.step attackerBan)).step (.runSecurityScan 60 5)).step
          (.wait microseconds)).admits "203.0.113.9" = true := by
  have hrest : Along step (Spares "203.0.113.9") (attacked.step attackerBan)
      [SecurityStep.expireBans, .wait 5] := by
    simp [Along, Spares, SecurityStep.Unbans, SecurityStep.Replaces]
  have hpersists := permanentBans_persist (by simp [attackerBan, SecurityStep.Forbids]) hrest
  exact ⟨hpersists.1, hpersists.2 (.runSecurityScan 60 5)
    ⟨by decide +kernel, by decide +kernel⟩⟩

/-- A scan and a day later the permanently banned address is let in. -/
theorem scannedBan_lapses :
    attackerBan.Forbids attacked "203.0.113.9" ∧
      (∀ k ∈ [SecurityStep.runSecurityScan 60 5, .wait 86400000000],
        ¬k.Unbans "203.0.113.9") ∧
      ([SecurityStep.runSecurityScan 60 5, .wait 86400000000].foldl step
        (attacked.step attackerBan)).admits "203.0.113.9" = true := by
  refine ⟨⟨rfl, rfl⟩, ?_, by decide +kernel⟩
  simp [SecurityStep.Unbans]

end SecurityState

end Zyntry
