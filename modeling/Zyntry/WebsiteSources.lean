import Zyntry.BillingModel
import Zyntry.PythonDict
import Zyntry.RuntimeUpdate
import Zyntry.StepRuns
import Zyntry.UniqueRows
import Zyntry.WebsiteUrls

/-!
# The website sources of a project

A website source is created only if no other one of the project has its URL, but an update
writes any URL. A run keeps the sources apart, each under a URL that is normalised to itself,
exactly if every URL that it has normalised is settled and no update takes the URL of another
source.
-/

namespace Zyntry

open Python

/-- A source with the columns that decide whether its URL is taken. -/
structure SourceRow where
  id : Uuid
  projectId : Uuid
  sourceType : String
  config : Option Fields

def SourceRow.withConfig (config : Option Fields) (row : SourceRow) : SourceRow :=
  { row with config := config }

abbrev SourceTable := RowTable Uuid SourceRow SourceRow.id

/-- The answer to the lookup of a host, at the time of a call. -/
abbrev LookupAnswer := Except LookupError (List IpAddress)

/-- What the service is run with: the lower case of texts, the functions that read URLs for
requests, and the texts of the errors of `urlsplit`. -/
structure SourceService where
  lc : LowerCase
  urls : UrlFunctions
  describe : UrlError → String

def websiteTypes : List String := ["website", "crawler"]

def urlTypes : List String := ["website", "crawler", "mcp"]

def urlRequired : SourceError := .valueError "Source URL is required"

def alreadyConnected : SourceError :=
  .valueError "This website source is already connected to the project"

def sourceNotFound : SourceError := .valueError "Knowledge source not found"

/-- `config.get("url") or config.get("input")`. -/
def configUrl (config : Fields) : Json :=
  let url := (Json.lookup "url" config).getD .null
  if url.truthy then url else (Json.lookup "input" config).getD .null

/-- The configuration with a URL and without `input`. -/
def withUrl (url : String) (config : Fields) : Fields :=
  Json.erase "input" (Json.set "url" (.str url) config)

namespace SourceService

variable (x : SourceService)

/-- `urlsplit`, as `validate_outbound_url` reads its result. -/
def splitForRequest (url : String) : Except NetError SplitUrl :=
  match urlsplit url.toList with
  | .error e => .error (.valueError (x.describe e))
  | .ok r => .ok {
      scheme := String.ofList r.scheme
      hostname := (r.hostname x.lc).map String.ofList
      username := r.user.1.map String.ofList
      password := r.user.2.map String.ofList
      port := r.port.toOption }

/-- `validate_outbound_url`, with the answer to its lookup. -/
def validateUrl (answer : LookupAnswer) (url : String) : Except SourceError Unit := do
  let _ ← (outboundHost { x.urls with urlsplit := x.splitForRequest } url).mapError .net
  let _ ← (publicAddresses answer).mapError .net

/-- The URL of a configuration as it is stored for a type of source. -/
def normalUrl (sourceType : String) (config : Fields) : Except SourceError String :=
  match configUrl config with
  | .str raw =>
      if strip raw.toList = [] then .error urlRequired
      else if sourceType ∈ websiteTypes then
        (normalizeWebsiteUrl x.lc raw.toList).map String.ofList
      else .ok (stripped raw)
  | _ => .error urlRequired

/-- Refuses a URL that the source has. -/
def checkDuplicate (url : String) (existing : SourceRow) : Except SourceError Unit :=
  if existing.sourceType ∉ websiteTypes then .ok ()
  else match configUrl (existing.config.getD []) with
    | .str existingUrl => do
        let normalized ← normalizeWebsiteUrl x.lc existingUrl.toList
        raiseIf (String.ofList normalized = url) alreadyConnected
    | _ => .ok ()

/-- `data.source_type.lower().strip()`. -/
def storedType (sourceType : String) : String :=
  String.ofList (strip (x.lc.lower sourceType.toList))

/-- `create_source`. -/
def createSource (t : SourceTable) (id projectId : Uuid) (sourceType : String) (config : Fields)
    (answer : LookupAnswer) : Except SourceError SourceTable := do
  let sourceType := x.storedType sourceType
  if sourceType ∈ urlTypes then
    let url ← x.normalUrl sourceType config
    (t.rows.filter (·.projectId = projectId)).forM (x.checkDuplicate url)
    x.validateUrl answer url
    return t.insert ⟨id, projectId, sourceType, some (withUrl url config)⟩
  else return t.insert ⟨id, projectId, sourceType, some config⟩

/-- What `update_source` writes as the configuration of a source. -/
def updatedConfig (source : SourceRow) (config : Option Fields) (answer : LookupAnswer) :
    Except SourceError (Option Fields) := do
  match config with
  | none => return none
  | some config =>
      let sourceType := String.ofList (x.lc.lower source.sourceType.toList)
      if sourceType ∈ urlTypes then
        let url ← x.normalUrl sourceType config
        x.validateUrl answer url
        return some (withUrl url config)
      else return some config

/-- `update_source`; `none` if the request has no configuration. -/
def updateSource (t : SourceTable) (id : Uuid) (config : Option (Option Fields))
    (answer : LookupAnswer) : Except SourceError SourceTable := do
  match t.get? id with
  | none => .error sourceNotFound
  | some source =>
      match config with
      | none => return t
      | some config =>
          let config ← x.updatedConfig source config answer
          return t.update id (.withConfig config) fun _ => rfl

/-- `delete_source`. -/
def deleteSource (t : SourceTable) (id : Uuid) : Except SourceError SourceTable :=
  match t.get? id with
  | none => .error sourceNotFound
  | some _ => .ok (t.delete id)

end SourceService

/-! ## Runs -/

inductive SourceCall where
  /-- The identifier is the one that the row is given. -/
  | create (id projectId : Uuid) (sourceType : String) (config : Fields) (answer : LookupAnswer)
  | update (id : Uuid) (config : Option (Option Fields)) (answer : LookupAnswer)
  | delete (id : Uuid)

namespace SourceService

variable (x : SourceService)

def call (t : SourceTable) : SourceCall → Except SourceError SourceTable
  | .create id projectId sourceType config answer =>
      x.createSource t id projectId sourceType config answer
  | .update id config answer => x.updateSource t id config answer
  | .delete id => deleteSource t id

/-- A call that fails writes nothing. -/
def step (t : SourceTable) (c : SourceCall) : SourceTable :=
  match x.call t c with
  | .ok t' => t'
  | .error _ => t

/-! ## What is asked of the sources -/

end SourceService

/-- The URL of a configuration, if it is one of a website. -/
def websiteUrl (sourceType : String) (config : Fields) : Option String :=
  if sourceType ∈ websiteTypes then
    match configUrl config with
    | .str url => some url
    | _ => none
  else none

def SourceRow.storedUrl (row : SourceRow) : Option String :=
  websiteUrl row.sourceType (row.config.getD [])

namespace SourceService

variable (x : SourceService)

/-- Two sources of one project whose URLs have one normal form. -/
def Identified (r r' : SourceRow) : Prop :=
  r.projectId = r'.projectId ∧ ∃ url ∈ r.storedUrl, ∃ url' ∈ r'.storedUrl, ∃ normalized,
    normalizeWebsiteUrl x.lc url.toList = .ok normalized ∧
      normalizeWebsiteUrl x.lc url'.toList = .ok normalized

/-- No two website sources are identified, and each is stored under a URL that equals itself. -/
structure WebsiteUnique (t : SourceTable) : Prop where
  unique : t.Exclusive x.Identified
  normal : ∀ row ∈ t.rows, ∀ url ∈ row.storedUrl,
    normalizeWebsiteUrl x.lc url.toList = .ok url.toList

/-- The URL that a call hands to `_normalize_website_url`. -/
def rawUrl (t : SourceTable) : SourceCall → Option String
  | .create _ _ sourceType config _ => websiteUrl (x.storedType sourceType) config
  | .update id (some (some config)) _ =>
      (t.get? id).bind fun source => websiteUrl source.sourceType config
  | _ => none

/-- The URL that a call has normalised is normalised to the same one again. -/
def ReadsSame (t : SourceTable) (c : SourceCall) : Prop :=
  ∀ raw ∈ x.rawUrl t c, ∀ url, normalizeWebsiteUrl x.lc raw.toList = .ok url →
    normalizeWebsiteUrl x.lc url = .ok url

/-- An update that validation lets through writes the URL of no other source of its project. -/
def TakesNone (t : SourceTable) : SourceCall → Prop
  | .update id (some (some config)) answer => ∀ source ∈ t.get? id,
      source.sourceType ∈ websiteTypes → ∀ url, x.normalUrl source.sourceType config = .ok url →
        x.validateUrl answer url = .ok () → ∀ other ∈ t.rows, other.id ≠ id →
          other.projectId = source.projectId → other.storedUrl ≠ some url
  | _ => True

/-- Every URL that the call has normalised is settled, and an update takes that of no other
source. -/
structure Careful (t : SourceTable) (c : SourceCall) : Prop where
  settled : ∀ raw ∈ x.rawUrl t c, (∃ url, normalizeWebsiteUrl x.lc raw.toList = .ok url) →
    SettledUrl x.lc raw.toList
  takesNone : x.TakesNone t c

end SourceService

/-! ## The URL that is written -/

theorem configUrl_withUrl {url : String} (h : url ≠ "") (config : Fields) :
    configUrl (withUrl url config) = .str url := by
  have hlookup : Json.lookup "url" (withUrl url config) = some (.str url) := by
    rw [withUrl, Json.lookup_erase_of_ne (by decide), Json.lookup_set, if_pos rfl]
  unfold configUrl
  rw [hlookup, Option.getD_some]
  dsimp only
  rw [if_pos]
  simpa [Json.truthy] using h

theorem websiteUrl_eq_some {sourceType url : String} {config : Fields} :
    websiteUrl sourceType config = some url ↔
      sourceType ∈ websiteTypes ∧ configUrl config = .str url := by
  unfold websiteUrl
  split_ifs with htype
  · cases configUrl config <;> simp [htype]
  · simp [htype]

theorem mem_urlTypes {sourceType : String} (h : sourceType ∈ websiteTypes) :
    sourceType ∈ urlTypes := by
  simp only [websiteTypes, urlTypes, List.mem_cons, List.not_mem_nil, or_false] at h ⊢
  exact h.imp_right .inl

namespace SourceService

variable {x : SourceService} {t t' : SourceTable} {sourceType url : String} {config : Fields}

theorem normalizeWebsiteUrl_ne_nil {lc : LowerCase} {value url : List Char}
    (h : normalizeWebsiteUrl lc value = .ok url) : url ≠ [] := by
  obtain ⟨parsed, port, hsplit, hscheme, hhost, hport, rfl⟩ := normalizeWebsiteUrl_eq_ok.mp h
  rw [urlunsplit_normal ⟨hsplit, hscheme, hhost, hport⟩]
  simp

/-- The URL of a website is normalised before it is written. -/
theorem normalUrl_website (htype : sourceType ∈ websiteTypes)
    (h : x.normalUrl sourceType config = .ok url) : ∃ raw, websiteUrl sourceType config = some raw ∧
      normalizeWebsiteUrl x.lc raw.toList = .ok url.toList := by
  unfold normalUrl at h
  cases hraw : configUrl config with
  | str raw =>
      rw [hraw] at h
      dsimp only at h
      split_ifs at h with hblank
      obtain ⟨normalized, hnormalized, rfl⟩ := map_eq_ok.mp h
      exact ⟨raw, websiteUrl_eq_some.mpr ⟨htype, hraw⟩, by rw [String.toList_ofList, hnormalized]⟩
  | _ =>
      rw [hraw] at h
      cases h

theorem checkDuplicate_ok {existing : SourceRow} (h : x.checkDuplicate url existing = .ok ()) :
    ∀ stored ∈ existing.storedUrl, normalizeWebsiteUrl x.lc stored.toList ≠ .ok url.toList := by
  intro stored hstored hsame
  obtain ⟨htype, hconfig⟩ := websiteUrl_eq_some.mp hstored
  unfold checkDuplicate at h
  rw [if_neg (not_not.mpr htype), hconfig] at h
  obtain ⟨normalized, hnormalized, hraise⟩ := bind_eq_ok.mp h
  obtain rfl := Except.ok.inj (hsame.symm.trans hnormalized)
  exact raiseIf_eq_ok.mp hraise String.ofList_toList

/-- A row that is created is no website, or no website of its project has its URL. -/
theorem createSource_eq_ok {id projectId : Uuid} {answer : LookupAnswer}
    (h : x.createSource t id projectId sourceType config answer = .ok t') :
    ∃ row : SourceRow, t' = t.insert row ∧ row.sourceType = x.storedType sourceType ∧
      ∀ url ∈ row.storedUrl,
        (∃ raw, websiteUrl (x.storedType sourceType) config = some raw ∧
          normalizeWebsiteUrl x.lc raw.toList = .ok url.toList) ∧
        ∀ r ∈ t.rows, r.projectId = row.projectId → ∀ stored ∈ r.storedUrl,
          normalizeWebsiteUrl x.lc stored.toList ≠ .ok url.toList := by
  unfold createSource at h
  dsimp only at h
  by_cases htype : x.storedType sourceType ∈ urlTypes
  · rw [if_pos htype] at h
    obtain ⟨url, hurl, h⟩ := bind_eq_ok.mp h
    obtain ⟨_, hcheck, h⟩ := bind_eq_ok.mp h
    obtain ⟨_, -, h⟩ := bind_eq_ok.mp h
    refine ⟨_, (Except.ok.inj h).symm, rfl, fun stored hstored => ?_⟩
    obtain ⟨hwebsite, hconfig⟩ := websiteUrl_eq_some.mp hstored
    obtain ⟨raw, hraw, hnormal⟩ := normalUrl_website hwebsite hurl
    have hne : url ≠ "" := by
      rintro rfl
      exact normalizeWebsiteUrl_ne_nil hnormal rfl
    obtain rfl : url = stored := by
      rw [Option.getD_some, configUrl_withUrl hne] at hconfig
      exact Json.str.inj hconfig
    refine ⟨⟨raw, hraw, hnormal⟩, fun r hr hproject => ?_⟩
    have hmem : r ∈ t.rows.filter (·.projectId = projectId) :=
      List.mem_filter.mpr ⟨hr, by simpa using hproject⟩
    exact checkDuplicate_ok (forM_eq_ok.mp hcheck r hmem)
  · rw [if_neg htype] at h
    refine ⟨_, (Except.ok.inj h).symm, rfl, fun stored hstored => ?_⟩
    obtain ⟨hwebsite, -⟩ := websiteUrl_eq_some.mp hstored
    exact absurd (mem_urlTypes hwebsite) htype

/-- The type of every source is in lower case. -/
def LowerTypes (x : SourceService) (t : SourceTable) : Prop :=
  ∀ row ∈ t.rows, String.ofList (x.lc.lower row.sourceType.toList) = row.sourceType

theorem lower_storedType (sourceType : String) :
    String.ofList (x.lc.lower (x.storedType sourceType).toList) = x.storedType sourceType := by
  rw [storedType, String.toList_ofList, x.lc.lower_eq_self sourceType.toList]
  exact fun c hc => (trim_sublist isSpace _).subset hc

/-- The URL of an updated website is the one that is written. -/
theorem updatedConfig_website {source : SourceRow} {answer : LookupAnswer}
    (htype : String.ofList (x.lc.lower source.sourceType.toList) = source.sourceType)
    (hwebsite : source.sourceType ∈ websiteTypes) {written : Option Fields} :
    x.updatedConfig source (some config) answer = .ok written ↔
      ∃ url, x.normalUrl source.sourceType config = .ok url ∧ x.validateUrl answer url = .ok () ∧
        written = some (withUrl url config) := by
  unfold updatedConfig
  dsimp only
  rw [htype, if_pos (mem_urlTypes hwebsite)]
  simp only [bind_eq_ok]
  constructor
  · rintro ⟨url, hurl, _, hvalid, hwritten⟩
    exact ⟨url, hurl, hvalid, (Except.ok.inj hwritten).symm⟩
  · rintro ⟨url, hurl, hvalid, rfl⟩
    exact ⟨url, hurl, (), hvalid, rfl⟩

theorem storedUrl_withUrl {row : SourceRow} (hwebsite : row.sourceType ∈ websiteTypes)
    (hurl : x.normalUrl row.sourceType config = .ok url) :
    (row.withConfig (some (withUrl url config))).storedUrl = some url := by
  obtain ⟨raw, -, hnormal⟩ := normalUrl_website hwebsite hurl
  refine websiteUrl_eq_some.mpr ⟨hwebsite, configUrl_withUrl ?_ config⟩
  rintro rfl
  exact normalizeWebsiteUrl_ne_nil hnormal rfl

/-- An update changes nothing, or it writes a configuration; the URL of a website that is
written has passed normalisation and validation. -/
theorem updateSource_eq_ok (htypes : x.LowerTypes t) {id : Uuid} {config : Option (Option Fields)}
    {answer : LookupAnswer} (h : x.updateSource t id config answer = .ok t') :
    t' = t ∨ ∃ source written, t.get? id = some source ∧
      t' = t.update id (.withConfig written) (fun _ => rfl) ∧
      ∀ url ∈ (source.withConfig written).storedUrl, ∃ fields,
        config = some (some fields) ∧ source.sourceType ∈ websiteTypes ∧
          x.normalUrl source.sourceType fields = .ok url ∧ x.validateUrl answer url = .ok () := by
  unfold updateSource at h
  cases hsource : t.get? id with
  | none =>
      rw [hsource] at h
      cases h
  | some source =>
      rw [hsource] at h
      cases config with
      | none => exact .inl (Except.ok.inj h).symm
      | some config =>
          obtain ⟨written, hwritten, h⟩ := bind_eq_ok.mp h
          refine .inr ⟨source, written, rfl, (Except.ok.inj h).symm, fun stored hstored => ?_⟩
          obtain ⟨hwebsite, hconfig⟩ := websiteUrl_eq_some.mp hstored
          cases config with
          | none =>
              obtain rfl : none = written := Except.ok.inj hwritten
              cases hconfig
          | some fields =>
              obtain ⟨url, hurl, hvalid, rfl⟩ := (updatedConfig_website
                (htypes source (RowTable.get?_some_mem hsource)) hwebsite).mp hwritten
              obtain rfl : url = stored := Option.some.inj
                ((storedUrl_withUrl hwebsite hurl).symm.trans hstored)
              exact ⟨fields, rfl, hwebsite, hurl, hvalid⟩

/-! ## One call -/

theorem Identified.symm {r r' : SourceRow} (h : x.Identified r r') : x.Identified r' r := by
  obtain ⟨hproject, url, hurl, url', hurl', normalized, hnormal, hnormal'⟩ := h
  exact ⟨hproject.symm, url', hurl', url, hurl, normalized, hnormal', hnormal⟩

/-- Stored URLs that equal themselves are identified only if they are the same. -/
theorem WebsiteUnique.not_identified (h : x.WebsiteUnique t) {r row : SourceRow} (hr : r ∈ t.rows)
    (hrow : ∀ url ∈ row.storedUrl, normalizeWebsiteUrl x.lc url.toList = .ok url.toList)
    (hne : ∀ url ∈ row.storedUrl, r.projectId = row.projectId → r.storedUrl ≠ some url) :
    ¬x.Identified r row := by
  rintro ⟨hproject, url, hurl, url', hurl', normalized, hnormal, hnormal'⟩
  have hsame : url.toList = normalized :=
    Except.ok.inj ((h.normal r hr url hurl).symm.trans hnormal)
  have hsame' : url'.toList = normalized := Except.ok.inj ((hrow url' hurl').symm.trans hnormal')
  refine hne url' hurl' hproject ?_
  rw [← String.toList_injective (hsame.trans hsame'.symm)]
  exact hurl

theorem WebsiteUnique.insert (h : x.WebsiteUnique t) {row : SourceRow}
    (hrow : ∀ url ∈ row.storedUrl, normalizeWebsiteUrl x.lc url.toList = .ok url.toList)
    (hne : ∀ r ∈ t.rows, ∀ url ∈ row.storedUrl, r.projectId = row.projectId →
      r.storedUrl ≠ some url) : x.WebsiteUnique (t.insert row) where
  unique := h.unique.insert (fun _ _ => Identified.symm) fun r hr =>
    h.not_identified hr hrow (hne r hr)
  normal r hr := by
    obtain hold | rfl := RowTable.mem_rows_insert hr
    · exact h.normal r hold
    · exact hrow

theorem WebsiteUnique.update (h : x.WebsiteUnique t) {id : Uuid} {written : Option Fields}
    (hrow : ∀ source ∈ t.get? id,
      ∀ url ∈ (source.withConfig written).storedUrl,
        normalizeWebsiteUrl x.lc url.toList = .ok url.toList ∧ ∀ r ∈ t.rows, r.id ≠ id →
          r.projectId = source.projectId → r.storedUrl ≠ some url) :
    x.WebsiteUnique (t.update id (.withConfig written) fun _ => rfl) where
  unique := h.unique.update (f := .withConfig written) (fun _ _ => Identified.symm) (fun _ => rfl)
    fun source hsource r hr hid => h.not_identified hr
      (fun url hurl => (hrow source hsource url hurl).1)
      fun url hurl => (hrow source hsource url hurl).2 r hr hid
  normal r hr := by
    obtain ⟨hold, -⟩ | ⟨source, hsource, rfl⟩ :=
      RowTable.mem_rows_update (f := SourceRow.withConfig written) (fun _ => rfl) hr
    · exact h.normal r hold
    · exact fun url hurl => (hrow source hsource url hurl).1

theorem WebsiteUnique.delete (h : x.WebsiteUnique t) (id : Uuid) :
    x.WebsiteUnique (t.delete id) where
  unique r hr r' hr' :=
    h.unique r (RowTable.mem_rows_of_delete hr) r' (RowTable.mem_rows_of_delete hr')
  normal r hr := h.normal r (RowTable.mem_rows_of_delete hr)

/-- What a settled URL is normalised to is normalised to itself. -/
theorem Careful.again {c : SourceCall} (h : x.Careful t c) {raw : String}
    (hraw : x.rawUrl t c = some raw)
    (hurl : normalizeWebsiteUrl x.lc raw.toList = .ok url.toList) :
    normalizeWebsiteUrl x.lc url.toList = .ok url.toList :=
  (normalizeWebsiteUrl_idempotent_iff hurl).mpr (h.settled raw hraw ⟨_, hurl⟩)

theorem step_cases (x : SourceService) (t : SourceTable) (c : SourceCall) :
    x.step t c = t ∨ x.call t c = .ok (x.step t c) := by
  unfold step
  cases x.call t c with
  | error e => exact .inl rfl
  | ok t' => exact .inr rfl

theorem deleteSource_eq_ok {id : Uuid} (h : deleteSource t id = .ok t') : t' = t.delete id := by
  unfold deleteSource at h
  cases hsource : t.get? id with
  | none =>
      rw [hsource] at h
      cases h
  | some source =>
      rw [hsource] at h
      exact (Except.ok.inj h).symm

theorem lowerTypes_step (htypes : x.LowerTypes t) (c : SourceCall) : x.LowerTypes (x.step t c) := by
  obtain hsame | hcall := step_cases x t c
  · rw [hsame]
    exact htypes
  · generalize x.step t c = t' at hcall ⊢
    intro r hr
    cases c with
    | create id projectId sourceType config answer =>
        obtain ⟨row, rfl, htype, -⟩ := createSource_eq_ok hcall
        obtain hold | rfl := RowTable.mem_rows_insert hr
        · exact htypes r hold
        · rw [htype, lower_storedType]
    | update id config answer =>
        obtain rfl | ⟨source, written, hsource, rfl, -⟩ := updateSource_eq_ok htypes hcall
        · exact htypes r hr
        · obtain ⟨hold, -⟩ | ⟨source', hsource', rfl⟩ :=
            RowTable.mem_rows_update (f := SourceRow.withConfig written) (fun _ => rfl) hr
          · exact htypes r hold
          · exact htypes source' (RowTable.get?_some_mem hsource')
    | delete id =>
        rw [deleteSource_eq_ok hcall] at hr
        exact htypes r (RowTable.mem_rows_of_delete hr)

/-- A careful call keeps the websites unique. -/
theorem websiteUnique_step (h : x.WebsiteUnique t) (htypes : x.LowerTypes t) {c : SourceCall}
    (hc : x.Careful t c) : x.WebsiteUnique (x.step t c) := by
  obtain hsame | hcall := step_cases x t c
  · rw [hsame]
    exact h
  generalize x.step t c = t' at hcall ⊢
  cases c with
  | create id projectId sourceType config answer =>
      obtain ⟨row, rfl, -, hrow⟩ := createSource_eq_ok hcall
      refine h.insert (fun url hurl => ?_) fun r hr url hurl hproject hstored => ?_
      · obtain ⟨⟨raw, hraw, hnormal⟩, -⟩ := hrow url hurl
        exact hc.again hraw hnormal
      · exact (hrow url hurl).2 r hr hproject url hstored (h.normal r hr url hstored)
  | update id config answer =>
      obtain rfl | ⟨source, written, hsource, rfl, hwritten⟩ := updateSource_eq_ok htypes hcall
      · exact h
      refine h.update fun source' hsource' url hurl => ?_
      obtain rfl := Option.some.inj (hsource.symm.trans hsource')
      obtain ⟨fields, rfl, hwebsite, hnormal, hvalid⟩ := hwritten url hurl
      obtain ⟨raw, hraw, hread⟩ := normalUrl_website hwebsite hnormal
      refine ⟨hc.again (by rw [rawUrl, hsource]; exact hraw) hread, fun r hr hid hproject => ?_⟩
      exact hc.takesNone source hsource hwebsite url hnormal hvalid r hr hid hproject
  | delete id =>
      rw [deleteSource_eq_ok hcall]
      exact h.delete id

theorem call_update {id : Uuid} {answer : LookupAnswer} {source : SourceRow}
    (htypes : x.LowerTypes t) (hsource : t.get? id = some source)
    (hwebsite : source.sourceType ∈ websiteTypes)
    (hurl : x.normalUrl source.sourceType config = .ok url)
    (hvalid : x.validateUrl answer url = .ok ()) :
    x.step t (.update id (some (some config)) answer) =
      t.update id (.withConfig (some (withUrl url config))) fun _ => rfl := by
  have hwritten := (updatedConfig_website (htypes source (RowTable.get?_some_mem hsource))
    hwebsite).mpr ⟨url, hurl, hvalid, rfl⟩
  rw [step, call, updateSource, hsource]
  dsimp only
  rw [hwritten]
  rfl

/-- An update that takes the URL of another source leaves two that are identified. -/
theorem takesNone_of_websiteUnique (h : x.WebsiteUnique t) (htypes : x.LowerTypes t)
    {c : SourceCall} (hstep : x.WebsiteUnique (x.step t c)) : x.TakesNone t c := by
  unfold TakesNone
  split
  · rename_i id config answer
    intro source hsource hwebsite url hurl hvalid other hother hid hproject hstored
    rw [call_update htypes hsource hwebsite hurl hvalid] at hstep
    have hrow := RowTable.get?_update_self t id
      (SourceRow.withConfig (some (withUrl url config))) fun _ => rfl
    have hother' := RowTable.get?_update_of_ne t hid
      (SourceRow.withConfig (some (withUrl url config))) fun _ => rfl
    rw [hsource, Option.map_some] at hrow
    rw [RowTable.get?_of_mem hother] at hother'
    have hnormal := h.normal other hother url hstored
    have hidentified : x.Identified other (source.withConfig (some (withUrl url config))) :=
      ⟨hproject, url, hstored, url, storedUrl_withUrl hwebsite hurl, url.toList, hnormal, hnormal⟩
    have hsame := hstep.unique other (RowTable.get?_some_mem hother') _
      (RowTable.get?_some_mem hrow) hidentified
    exact hid (hsame.trans (RowTable.get?_some_key hrow))
  · trivial

/-- In a state with unique websites a call is careful exactly if it leaves them unique and the
URL that it has normalised is read as the same one again. -/
theorem careful_iff (h : x.WebsiteUnique t) (htypes : x.LowerTypes t) (c : SourceCall) :
    x.Careful t c ↔ x.WebsiteUnique (x.step t c) ∧ x.ReadsSame t c := by
  constructor
  · intro hc
    refine ⟨websiteUnique_step h htypes hc, fun raw hraw url hurl => ?_⟩
    exact (normalizeWebsiteUrl_idempotent_iff hurl).mpr (hc.settled raw hraw ⟨url, hurl⟩)
  · rintro ⟨hstep, hreads⟩
    refine ⟨fun raw hraw ⟨url, hurl⟩ => ?_, takesNone_of_websiteUnique h htypes hstep⟩
    exact (normalizeWebsiteUrl_idempotent_iff hurl).mp (hreads raw hraw url hurl)

end SourceService

/-! ## Every run -/

theorem websiteUnique_empty (x : SourceService) : x.WebsiteUnique default where
  unique := RowTable.exclusive_empty
  normal row hrow := by cases hrow

/-- Along a run the websites of every project are unique in every state that is reached, and
every URL that is normalised is read as the same one again, exactly if every call is careful. -/
theorem websiteUnique_run_iff (x : SourceService) (calls : List SourceCall) :
    StepRuns.Along x.step (fun t c => x.WebsiteUnique (x.step t c) ∧ x.ReadsSame t c) default
        calls ↔
      StepRuns.Along x.step x.Careful default calls := by
  refine StepRuns.along_congr (I := fun t => x.WebsiteUnique t ∧ x.LowerTypes t)
    (fun t c h => (SourceService.careful_iff h.1 h.2 c).symm)
    (fun t c h hstep => ⟨hstep.1, SourceService.lowerTypes_step h.2 c⟩)
    ⟨websiteUnique_empty x, fun row hrow => by cases hrow⟩

/-! ## A URL that is taken -/

def plainService : SourceService := ⟨plainCase, rebindingUrls, fun _ => "Invalid URL"⟩

def sharedProject : Uuid := ⟨"6f9619ff-8b86-4d01-b42d-00cf4fc964ff"⟩

def firstSource : Uuid := ⟨"3f2b8c1e-5d4a-4e6b-9f70-1a2b3c4d5e6f"⟩

def secondSource : Uuid := ⟨"7c9e6679-7425-40de-944b-e07fc1f90ae7"⟩

def urlConfig (url : String) : Fields := [("url", .str url)]

/-- The second of two sources is updated to the URL of the first. -/
def takingRun : List SourceCall :=
  [.create firstSource sharedProject "website" (urlConfig "http://a.example/") (.ok [publicServer]),
    .create secondSource sharedProject "website" (urlConfig "http://b.example/")
      (.ok [publicServer]),
    .update secondSource (some (some (urlConfig "http://a.example/"))) (.ok [publicServer])]

/-- Both sources are then stored under that URL. And a path of slashes alone is taken away the
first time and comes back as one slash. -/
theorem takingRun_not_unique :
    ¬plainService.WebsiteUnique (takingRun.foldl plainService.step default) ∧
      ∃ raw url, normalizeWebsiteUrl plainCase raw = .ok url ∧
        normalizeWebsiteUrl plainCase url ≠ .ok url := by
  constructor
  · intro hunique
    have hrows : (takingRun.foldl plainService.step default).rows.map
        (fun r => (r.id, r.projectId, r.storedUrl)) =
          [(firstSource, sharedProject, some "http://a.example/"),
            (secondSource, sharedProject, some "http://a.example/")] := by
      decide +kernel
    have hread : normalizeWebsiteUrl plainCase "http://a.example/".toList =
        .ok "http://a.example/".toList := by
      decide +kernel
    have hmem : ∀ id, id = firstSource ∨ id = secondSource →
        ∃ r ∈ (takingRun.foldl plainService.step default).rows,
          (r.id, r.projectId, r.storedUrl) = (id, sharedProject, some "http://a.example/") := by
      intro id hid
      rw [← List.mem_map, hrows]
      obtain rfl | rfl := hid <;> simp
    obtain ⟨r, hr, hfirst⟩ := hmem firstSource (.inl rfl)
    obtain ⟨r', hr', hsecond⟩ := hmem secondSource (.inr rfl)
    obtain ⟨hid, hproject, hurl⟩ : r.id = firstSource ∧ r.projectId = sharedProject ∧
        r.storedUrl = some "http://a.example/" := by
      simpa using hfirst
    obtain ⟨hid', hproject', hurl'⟩ : r'.id = secondSource ∧ r'.projectId = sharedProject ∧
        r'.storedUrl = some "http://a.example/" := by
      simpa using hsecond
    have hsame := hunique.unique r hr r' hr'
      ⟨hproject.trans hproject'.symm, _, hurl, _, hurl', _, hread, hread⟩
    rw [hid, hid'] at hsame
    exact absurd hsame (by decide)
  · refine ⟨"http://a.example//".toList, "http://a.example".toList, ?_, ?_⟩
    · decide +kernel
    · decide +kernel

end Zyntry
