import Mathlib.Data.List.Dedup
import Mathlib.Data.Int.Order.Basic
import Mathlib.Logic.Function.Basic

/-!
# Scanning for brute force

The hourly task and the engine of the admin console both look for addresses with many failed
logins. Each works in a session of its own and leaves the database as it was unless it commits.
Times are in microseconds.
-/

namespace Zyntry

structure LoginEvent where
  ipAddress : String
  success : Bool
  createdAt : ℤ
deriving DecidableEq, Repr

structure IpRecord where
  isBanned : Bool := false
  banType : Option String := none
  banReason : Option String := none
  banExpiresAt : Option ℤ := none
deriving DecidableEq, Repr

inductive AlertStatus where
  | opened
  | acknowledged
  | resolved
deriving DecidableEq, Repr

inductive RiskLevel where
  | low
  | medium
  | high
  | critical
deriving DecidableEq, Repr

structure SecurityAlert where
  alertType : String
  riskScore : ℕ
  riskLevel : RiskLevel
  status : AlertStatus := .opened
  title : String
  description : Option String
  ipAddress : Option String
  triggeredRules : List String
deriving DecidableEq, Repr

structure AdminTables where
  loginEvents : List LoginEvent := []
  /-- An address has one record at most. -/
  ipRecords : String → Option IpRecord := fun _ => none
  alerts : List SecurityAlert := []

inductive ScanError where
  | indexError
  | attributeError
  | multipleResultsFound
deriving DecidableEq, Repr

def minutes (n : ℤ) : ℤ := n * 60000000

def riskLevelFromScore (score : ℕ) : RiskLevel :=
  if score ≤ 30 then .low
  else if score ≤ 50 then .medium
  else if score ≤ 75 then .high
  else if score ≤ 100 then .critical
  else .low

namespace AdminTables

/-- The failed logins since a time. -/
def failedLogins (db : AdminTables) (since : ℤ) : List LoginEvent :=
  db.loginEvents.filter fun e => since ≤ e.createdAt ∧ e.success = false

/-- `get_failures_by_ip`, and the count of a group. -/
def failures (db : AdminTables) (since : ℤ) (ipAddress : String) : ℕ :=
  ((db.failedLogins since).filter fun e => e.ipAddress = ipAddress).length

/-- The addresses of the failed logins, each once. -/
def failedAddresses (db : AdminTables) (since : ℤ) : List String :=
  ((db.failedLogins since).map LoginEvent.ipAddress).dedup

def openAlerts (db : AdminTables) (ipAddress : String) : List SecurityAlert :=
  db.alerts.filter fun a =>
    a.ipAddress = some ipAddress ∧ a.alertType = "brute_force" ∧ a.status = .opened

/-- `ban_ip`. -/
def banIp (db : AdminTables) (now : ℤ) (ipAddress banType : String) (reason : Option String)
    (durationHours : Option ℕ) : AdminTables :=
  let record := (db.ipRecords ipAddress).getD {}
  let banned := { record with isBanned := true, banType := some banType, banReason := reason }
  let banned :=
    if banType = "temporary" ∧ durationHours.getD 0 ≠ 0 then
      { banned with banExpiresAt := some (now + minutes (60 * (durationHours.getD 0 : ℕ))) }
    else banned
  { db with ipRecords := Function.update db.ipRecords ipAddress (some banned) }

/-- `is_banned`. -/
def isBanned (db : AdminTables) (now : ℤ) (ipAddress : String) : Bool :=
  match db.ipRecords ipAddress with
  | none => false
  | some record =>
      record.isBanned && (record.banType = some "permanent" ||
        match record.banExpiresAt with
        | some expires => decide (now < expires)
        | none => false)

end AdminTables

/-! ## The task -/

/-- `r[0]` of an address that is not empty. -/
def firstCharacter (address : String) : String :=
  match address.toList with
  | [] => ""
  | c :: _ => String.singleton c

/-- `[r[0] for r in … if r[0]]`, of addresses. -/
def suspiciousIps : List String → Except ScanError (List String)
  | [] => .ok []
  | address :: addresses =>
      if address = "" then .error .indexError
      else do return firstCharacter address :: (← suspiciousIps addresses)

/-- `SecurityAlertRepository.create`: the class has no `model`. -/
def createAlert (_ : SecurityAlert) (_ : AdminTables) : Except ScanError AdminTables :=
  .error .attributeError

/-- The body of the task's loop. -/
def scanAddress (now : ℤ) (db : AdminTables) (ipAddress : String) :
    Except ScanError AdminTables :=
  let failedCount := db.failures (now - minutes 60) ipAddress
  if 5 ≤ failedCount then
    match db.openAlerts ipAddress with
    | [] => do
        let riskScore := min 100 (30 + failedCount * 5)
        let db ← createAlert
          { alertType := "brute_force", riskScore, riskLevel := riskLevelFromScore riskScore,
            title := s!"Brute force detected from {ipAddress}",
            description := s!"{failedCount} failed logins in the last hour",
            ipAddress, triggeredRules := ["brute_force"] } db
        return db.banIp now ipAddress "temporary" "Brute force detected" (some 24)
    | [_] => .ok db
    | _ => .error .multipleResultsFound
  else .ok db

/-- `run_security_scan_task`: how it ends, and the database after it. Nothing is committed. -/
def runSecurityScanTask (now : ℤ) (db : AdminTables) : Except ScanError ℕ × AdminTables :=
  let scan : Except ScanError ℕ := do
    let suspicious ← suspiciousIps (db.failedAddresses (now - minutes 60))
    let _ ← suspicious.foldlM (scanAddress now) db
    return suspicious.length
  (scan, db)

/-! ## The engine -/

structure EngineScan where
  windowMinutes : ℤ
  threshold : ℤ
  suspiciousIps : List (String × ℕ)
  alertsCreated : ℕ
deriving DecidableEq, Repr

/-- `calculate_risk_score` of an address that fails to sign in. -/
def bruteForceRisk (failures : ℕ) : ℕ := min 100 (20 + if 5 < failures then 15 else 0)

def clampWindow (windowMinutes : ℤ) : ℤ := max 1 (min windowMinutes (24 * 60))

/-- The body of the engine's loop, for an address with enough failures. -/
def engineAlert (now windowMinutes : ℤ) (db : AdminTables) (ipAddress : String) (failures : ℕ) :
    AdminTables :=
  let score := bruteForceRisk failures
  let alert : SecurityAlert :=
    { alertType := "brute_force", riskScore := score, riskLevel := riskLevelFromScore score,
      title := "Repeated failed authentication attempts",
      description := s!"{failures} failed sign-in attempts from {ipAddress} in the last " ++
        s!"{windowMinutes} minutes.",
      ipAddress, triggeredRules := ["failed_auth_threshold"] }
  { db with alerts := db.alerts ++ [alert] }.banIp now ipAddress "temporary"
    "Automated security scan: repeated failed authentication" (some 24)

/-- The body of the engine's loop, for one group of failed logins. -/
def engineStep (now windowMinutes threshold : ℤ) (state : AdminTables × EngineScan)
    (group : String × ℕ) : AdminTables × EngineScan :=
  if group.2 < threshold then state
  else
    let scan := { state.2 with suspiciousIps := state.2.suspiciousIps ++ [group] }
    if (state.1.openAlerts group.1).isEmpty then
      (engineAlert now windowMinutes state.1 group.1 group.2,
        { scan with alertsCreated := scan.alertsCreated + 1 })
    else (state.1, scan)

/-- `SecurityEngine.run_security_scan`: the database that it commits, and what it returns. -/
def runSecurityScan (now : ℤ) (db : AdminTables) (windowMinutes : ℤ := 60) (threshold : ℤ := 5) :
    AdminTables × EngineScan :=
  let windowMinutes := clampWindow windowMinutes
  let threshold := max 1 threshold
  let since := now - minutes windowMinutes
  let groups := (db.failedAddresses since).map fun ip => (ip, db.failures since ip)
  groups.foldl (engineStep now windowMinutes threshold)
    (db, ⟨windowMinutes, threshold, [], 0⟩)

/-! ## What the task does -/

variable {now : ℤ} {db : AdminTables}

/-- The task looks this address up and cannot go on. -/
def Stuck (now : ℤ) (db : AdminTables) (ipAddress : String) : Prop :=
  5 ≤ db.failures (now - minutes 60) ipAddress ∧ (db.openAlerts ipAddress).length ≠ 1

instance instDecidableStuck (now : ℤ) (db : AdminTables) (ipAddress : String) :
    Decidable (Stuck now db ipAddress) :=
  inferInstanceAs (Decidable (_ ∧ _))

/-- An address is empty, or the first character of one is an address that stops the task. -/
def TaskStops (now : ℤ) (db : AdminTables) : Prop :=
  ∃ address ∈ db.failedAddresses (now - minutes 60),
    address = "" ∨ Stuck now db (firstCharacter address)

theorem scanAddress_of_stuck {ipAddress : String} (h : Stuck now db ipAddress) :
    ∃ e, scanAddress now db ipAddress = .error e := by
  unfold scanAddress
  rw [if_pos h.1]
  cases hopen : db.openAlerts ipAddress with
  | nil => exact ⟨_, rfl⟩
  | cons alert alerts =>
      cases alerts with
      | nil => exact absurd (by simp [hopen]) h.2
      | cons alert' alerts => exact ⟨_, rfl⟩

theorem scanAddress_of_not_stuck {ipAddress : String} (h : ¬Stuck now db ipAddress) :
    scanAddress now db ipAddress = .ok db := by
  simp only [scanAddress]
  split_ifs with hfailures
  · have hone : (db.openAlerts ipAddress).length = 1 := by
      by_contra hne
      exact h ⟨hfailures, hne⟩
    obtain ⟨alert, halert⟩ := List.length_eq_one_iff.mp hone
    rw [halert]
  · rfl

theorem foldlM_scanAddress (now : ℤ) (db : AdminTables) (addresses : List String) :
    (∃ e, addresses.foldlM (scanAddress now) db = .error e) ∧ (∃ ip ∈ addresses, Stuck now db ip) ∨
      addresses.foldlM (scanAddress now) db = .ok db ∧ ∀ ip ∈ addresses, ¬Stuck now db ip := by
  induction addresses with
  | nil => exact .inr ⟨rfl, by simp⟩
  | cons ip addresses ih =>
      rw [List.foldlM_cons]
      by_cases hstuck : Stuck now db ip
      · obtain ⟨e, he⟩ := scanAddress_of_stuck hstuck
        exact .inl ⟨⟨e, by rw [he]; rfl⟩, ip, by simp, hstuck⟩
      · rw [scanAddress_of_not_stuck hstuck]
        obtain ⟨herror, ip', hmem, hstuck'⟩ | ⟨hok, hnone⟩ := ih
        · exact .inl ⟨herror, ip', by simp [hmem], hstuck'⟩
        · exact .inr ⟨hok, by simpa [hstuck] using hnone⟩

theorem suspiciousIps_eq {addresses : List String} :
    suspiciousIps addresses =
      if "" ∈ addresses then .error .indexError else .ok (addresses.map firstCharacter) := by
  induction addresses with
  | nil => rfl
  | cons address addresses ih =>
      rw [suspiciousIps, ih]
      by_cases hempty : address = ""
      · simp [hempty]
      · by_cases hmem : "" ∈ addresses
        · simp [hempty, hmem, bind, Except.bind]
        · simp [hempty, hmem, Ne.symm hempty, bind, Except.bind, pure, Except.pure]

theorem runSecurityScanTask_completes_iff :
    (∃ n, (runSecurityScanTask now db).1 = .ok n) ↔ ¬TaskStops now db := by
  simp only [runSecurityScanTask, suspiciousIps_eq, TaskStops]
  by_cases hempty : "" ∈ db.failedAddresses (now - minutes 60)
  · rw [if_pos hempty]
    apply iff_of_false
    · rintro ⟨n, hn⟩
      cases hn
    · exact not_not_intro ⟨"", hempty, .inl rfl⟩
  · rw [if_neg hempty]
    obtain ⟨⟨e, he⟩, ip, hip, hstuck⟩ | ⟨hok, hnone⟩ := foldlM_scanAddress now db
      ((db.failedAddresses (now - minutes 60)).map firstCharacter)
    · apply iff_of_false
      · rintro ⟨n, hn⟩
        simp [he, bind, Except.bind] at hn
      · obtain ⟨address, haddress, rfl⟩ := List.mem_map.mp hip
        exact not_not_intro ⟨address, haddress, .inr hstuck⟩
    · apply iff_of_true
      · exact ⟨_, by simp [hok, bind, Except.bind, pure, Except.pure]; rfl⟩
      · rintro ⟨address, haddress, rfl | hstuck⟩
        · exact hempty haddress
        · exact hnone _ (List.mem_map_of_mem haddress) hstuck

/-! ## What the engine does -/

section

variable {windowMinutes threshold : ℤ}

theorem isBanned_banIp (reason : Option String) (ipAddress : String) :
    (db.banIp now ipAddress "temporary" reason (some 24)).isBanned now ipAddress = true := by
  have hlater : now < now + minutes (60 * (24 : ℕ)) := by
    unfold minutes
    omega
  simpa [AdminTables.banIp, AdminTables.isBanned, Function.update_self] using hlater

theorem isBanned_engineAlert_self (ipAddress : String) (failures : ℕ) :
    (engineAlert now windowMinutes db ipAddress failures).isBanned now ipAddress = true :=
  isBanned_banIp _ _

theorem isBanned_engineAlert_of_ne {ip ipAddress : String} (h : ip ≠ ipAddress) (failures : ℕ) :
    (engineAlert now windowMinutes db ipAddress failures).isBanned now ip = db.isBanned now ip := by
  simp only [engineAlert, AdminTables.banIp, AdminTables.isBanned, Function.update_of_ne h]

theorem openAlerts_engineAlert_of_ne {ip ipAddress : String} (h : ip ≠ ipAddress) (failures : ℕ) :
    (engineAlert now windowMinutes db ipAddress failures).openAlerts ip = db.openAlerts ip := by
  simp [engineAlert, AdminTables.banIp, AdminTables.openAlerts, List.filter_append, h.symm]

variable (now windowMinutes threshold) in
/-- What one group does to an address. -/
theorem engineStep_of_ne (state : AdminTables × EngineScan) {group : String × ℕ} {ip : String}
    (h : ip ≠ group.1) :
    (engineStep now windowMinutes threshold state group).1.isBanned now ip =
        state.1.isBanned now ip ∧
      (engineStep now windowMinutes threshold state group).1.openAlerts ip =
        state.1.openAlerts ip := by
  simp only [engineStep]
  split_ifs
  · exact ⟨rfl, rfl⟩
  · exact ⟨isBanned_engineAlert_of_ne h _, openAlerts_engineAlert_of_ne h _⟩
  · exact ⟨rfl, rfl⟩

theorem engineStep_self {state : AdminTables × EngineScan} {group : String × ℕ} :
    (engineStep now windowMinutes threshold state group).1.isBanned now group.1 = true ↔
      threshold ≤ group.2 ∧ state.1.openAlerts group.1 = [] ∨
        state.1.isBanned now group.1 = true := by
  simp only [engineStep]
  split_ifs with hfew hopen
  · have hnot : ¬threshold ≤ group.2 := not_le.mpr hfew
    simp [hnot]
  · apply iff_of_true (isBanned_engineAlert_self _ _)
    exact .inl ⟨not_lt.mp hfew, List.isEmpty_iff.mp hopen⟩
  · have hnot : state.1.openAlerts group.1 ≠ [] := fun hnil => hopen (by rw [hnil]; rfl)
    simp [hnot]

/-- The loop bans the groups that are large enough and have no open alert. -/
theorem foldl_engineStep {groups : List (String × ℕ)} (hnodup : (groups.map Prod.fst).Nodup)
    {state : AdminTables × EngineScan} (ip : String) :
    (groups.foldl (engineStep now windowMinutes threshold) state).1.isBanned now ip = true ↔
      (∃ failures : ℕ, (ip, failures) ∈ groups ∧ threshold ≤ failures ∧
        state.1.openAlerts ip = []) ∨ state.1.isBanned now ip = true := by
  induction groups generalizing state with
  | nil => simp
  | cons group groups ih =>
      obtain ⟨hnotMem, hnodup⟩ := List.nodup_cons.mp hnodup
      rw [List.foldl_cons, ih hnodup]
      by_cases hne : ip = group.1
      · subst hne
        have hrest : ¬∃ failures : ℕ, (group.1, failures) ∈ groups ∧ threshold ≤ failures ∧
            (engineStep now windowMinutes threshold state group).1.openAlerts group.1 = [] := by
          rintro ⟨failures, hmem, -⟩
          exact hnotMem (List.mem_map.mpr ⟨_, hmem, rfl⟩)
        rw [or_iff_right hrest, engineStep_self]
        apply or_congr_left'
        intro _
        constructor
        · intro h
          exact ⟨group.2, by simp, h⟩
        · rintro ⟨failures, hmem, h⟩
          obtain heq | hmem := List.mem_cons.mp hmem
          · rw [← heq]
            exact h
          · exact absurd (List.mem_map.mpr ⟨_, hmem, rfl⟩) hnotMem
      · obtain ⟨hbanned, hopen⟩ := engineStep_of_ne now windowMinutes threshold state hne
        have hgroup : ∀ failures : ℕ, (ip, failures) ≠ group := by
          rintro failures rfl
          exact hne rfl
        simp only [hbanned, hopen, List.mem_cons, hgroup, false_or]

theorem mem_failedAddresses {since : ℤ} {ip : String} (h : db.failures since ip ≠ 0) :
    ip ∈ db.failedAddresses since := by
  unfold AdminTables.failures at h
  obtain ⟨event, hevent⟩ := List.exists_mem_of_length_pos (Nat.pos_of_ne_zero h)
  obtain ⟨hmem, hip⟩ := List.mem_filter.mp hevent
  have hip' : event.ipAddress = ip := by simpa using hip
  unfold AdminTables.failedAddresses
  rw [List.mem_dedup, ← hip']
  exact List.mem_map_of_mem hmem

theorem runSecurityScan_isBanned {ip : String}
    (h : max 1 threshold ≤ db.failures (now - minutes (clampWindow windowMinutes)) ip) :
    (runSecurityScan now db windowMinutes threshold).1.isBanned now ip = true ↔
      (db.openAlerts ip = [] ∨ db.isBanned now ip = true) := by
  simp only [runSecurityScan]
  rw [foldl_engineStep]
  · apply or_congr_left
    constructor
    · rintro ⟨failures, -, -, hopen⟩
      exact hopen
    · intro hopen
      have hfailed : db.failures (now - minutes (clampWindow windowMinutes)) ip ≠ 0 := by omega
      have hmem := mem_failedAddresses hfailed
      exact ⟨_, List.mem_map_of_mem hmem, h, hopen⟩
  · rw [List.map_map]
    change ((db.failedAddresses _).map id).Nodup
    rw [List.map_id]
    exact List.nodup_dedup _

end

/-- The task bans nobody, so each offender is banned after a completed scan exactly if it was
before, or the scan does not complete. The engine bans the offenders without an open alert. -/
theorem securityScans_ban_iff (now : ℤ) (db : AdminTables) (windowMinutes threshold : ℤ) :
    (((∃ n, (runSecurityScanTask now db).1 = .ok n) →
        ∀ ip, 5 ≤ db.failures (now - minutes 60) ip →
          (runSecurityScanTask now db).2.isBanned now ip = true) ↔
      TaskStops now db ∨
        ∀ ip, 5 ≤ db.failures (now - minutes 60) ip → db.isBanned now ip = true) ∧
    ((∀ ip, max 1 threshold ≤ db.failures (now - minutes (clampWindow windowMinutes)) ip →
        (runSecurityScan now db windowMinutes threshold).1.isBanned now ip = true) ↔
      ∀ ip, max 1 threshold ≤ db.failures (now - minutes (clampWindow windowMinutes)) ip →
        db.openAlerts ip ≠ [] → db.isBanned now ip = true) := by
  constructor
  · rw [runSecurityScanTask_completes_iff, imp_iff_not_or, not_not]
    rfl
  · apply forall₂_congr
    intro ip h
    rw [runSecurityScan_isBanned h, or_iff_not_imp_left]

/-- Five failed logins from one address within the hour. -/
def fiveFailures : AdminTables where
  loginEvents := List.replicate 5 ⟨"203.0.113.9", false, minutes 100⟩

/-- An open alert of the day before yesterday, whose ban has run out. -/
def expiredBan : AdminTables where
  loginEvents := List.replicate 5 ⟨"203.0.113.9", false, minutes 100⟩
  ipRecords := Function.update (fun _ => none) "203.0.113.9"
    (some { isBanned := true, banType := some "temporary", banExpiresAt := some (minutes 10) })
  alerts :=
    [{ alertType := "brute_force", riskScore := 35, riskLevel := .medium,
       title := "Repeated failed authentication attempts", description := none,
       ipAddress := "203.0.113.9", triggeredRules := ["failed_auth_threshold"] }]

theorem securityScans_spare :
    ((runSecurityScanTask (minutes 120) fiveFailures).1 = .ok 1 ∧
      5 ≤ fiveFailures.failures (minutes 60) "203.0.113.9" ∧
      (runSecurityScanTask (minutes 120) fiveFailures).2.isBanned (minutes 120) "203.0.113.9" =
        false) ∧
    5 ≤ expiredBan.failures (minutes 60) "203.0.113.9" ∧
      (runSecurityScan (minutes 120) expiredBan).1.isBanned (minutes 120) "203.0.113.9" =
        false := by
  decide +kernel

end Zyntry
