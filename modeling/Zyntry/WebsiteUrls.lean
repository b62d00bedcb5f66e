import Zyntry.OutboundRequests
import Zyntry.PythonUrls

/-!
# The URLs of website sources

A website source is stored under a normalised URL, and it is compared after a second
normalisation. The second one changes nothing exactly if the path is not made of slashes
alone, no space is left at the end and the host is read back without its brackets.
-/

namespace Zyntry

open Python

/-- Every error is a `ValueError`. -/
inductive SourceError where
  | url (e : UrlError)
  | net (e : NetError)
  | valueError (message : String)
deriving DecidableEq, Repr

def webSchemes : List (List Char) := ["http".toList, "https".toList]

/-- The port that is written: not zero and not the default of the scheme. -/
def keptPort (scheme : List Char) (port : Option ℕ) : Option ℕ :=
  port.filter fun n => n ≠ 0 ∧
    ¬((scheme = "http".toList ∧ n = 80) ∨ (scheme = "https".toList ∧ n = 443))

def portText : Option ℕ → List Char
  | none => []
  | some n => ':' :: Nat.toDigits 10 n

def normalPath (path : List Char) : List Char :=
  let path := if path = [] then ['/'] else path
  if path ≠ ['/'] then path.rdropWhile (· = '/') else path

def websiteScheme (parsed : SplitResult) : List Char := parsed.scheme.map Char.toLower

section Definitions

variable (lc : LowerCase)

/-- `parsed.hostname.lower()`. -/
def websiteHost (parsed : SplitResult) : List Char := lc.lower ((parsed.hostname lc).getD [])

/-- The parts of the normalised URL. -/
def normalParts (parsed : SplitResult) (port : Option ℕ) : SplitResult :=
  ⟨websiteScheme parsed,
    websiteHost lc parsed ++ portText (keptPort (websiteScheme parsed) port),
    normalPath parsed.path, parsed.query, []⟩

local instance lawfulChars : LawfulBEq (List Char) := inferInstance

/-- `_normalize_website_url`. -/
def normalizeWebsiteUrl (value : List Char) : Except SourceError (List Char) := do
  let parsed ← (urlsplit (strip value)).mapError .url
  raiseIf (websiteScheme parsed ∉ webSchemes ∨ parsed.hostname lc = none)
    (.valueError "Website URL must use http or https")
  let port ← parsed.port.mapError .url
  return urlunsplit (normalParts lc parsed port)

/-! ## Settled URLs -/

/-- What follows the first colon of the host is a port that is kept, and there is no other. -/
def PortInHost (parsed : SplitResult) (port : Option ℕ) : Prop :=
  keptPort (websiteScheme parsed) port = none ∧ (partition ':' (websiteHost lc parsed)).1 ≠ [] ∧
    ∃ n ≤ 65535, keptPort (websiteScheme parsed) (some n) = some n ∧
      (partition ':' (websiteHost lc parsed)).2 = Nat.toDigits 10 n

/-- The host is read back from the URL that it is written to, without any brackets. -/
structure SettledHost (parsed : SplitResult) (port : Option ℕ) : Prop where
  opening : '[' ∉ (hostInfo parsed.netloc).1
  closing : ']' ∉ (hostInfo parsed.netloc).1
  colon : ':' ∈ (hostInfo parsed.netloc).1 → PortInHost lc parsed port

/-- The path is not made of slashes alone, no space is left at the end, and the host is read
back. -/
structure SettledParts (parsed : SplitResult) (port : Option ℕ) : Prop where
  path : normalPath parsed.path ≠ []
  last : ∀ c ∈ (normalPath parsed.path ++ withMark '?' parsed.query).getLast?, isSpace c = false
  host : SettledHost lc parsed port

/-- What is accepted is normalised once and for all. -/
def SettledUrl (value : List Char) : Prop :=
  ∀ parsed port, urlsplit (strip value) = .ok parsed → parsed.port = .ok port →
    SettledParts lc parsed port

end Definitions

/-! ## What is normalised -/

theorem isScheme_of_mem {scheme : List Char} (h : scheme ∈ webSchemes) : IsScheme scheme := by
  obtain rfl | rfl : scheme = "http".toList ∨ scheme = "https".toList := by
    simpa [webSchemes] using h
  all_goals exact ⟨rfl, forall_mem_of_all (by decide), by decide⟩

theorem keptPort_keptPort (scheme : List Char) (port : Option ℕ) :
    keptPort scheme (keptPort scheme port) = keptPort scheme port := by
  rw [keptPort, keptPort, Option.filter_filter]
  simp

theorem mem_portText {port : Option ℕ} {c : Char} (h : c ∈ portText port) :
    c = ':' ∨ isDecimalDigit c = true := by
  cases port with
  | none => exact absurd h List.not_mem_nil
  | some n =>
      refine (List.mem_cons.mp h).imp_right fun h => ?_
      obtain ⟨d, hd, rfl⟩ := exists_digit_of_mem_toDigits (by decide) h
      exact isDecimalDigit_digitChar hd

/-- Characters that stand in no port. -/
theorem notMem_portText {port : Option ℕ} {c : Char} (hcolon : c ≠ ':')
    (hdigit : isDecimalDigit c = false) : c ∉ portText port := fun h => by
  obtain h | h := mem_portText h
  · exact hcolon h
  · exact absurd h (by simp [hdigit])

theorem colon_notMem_toDigits (n : ℕ) : ':' ∉ Nat.toDigits 10 n := fun h => by
  obtain ⟨d, hd, hcolon⟩ := exists_digit_of_mem_toDigits (by decide) h
  have hdigit := isDecimalDigit_digitChar hd
  rw [← hcolon] at hdigit
  exact absurd hdigit (by decide)

theorem portText_eq_cons {port : Option ℕ} {cs : List Char} (h : portText port = ':' :: cs) :
    ∃ n, port = some n ∧ cs = Nat.toDigits 10 n := by
  cases port with
  | none => exact absurd h (by simp [portText])
  | some n => exact ⟨n, rfl, (List.cons.inj h).2.symm⟩

theorem normalPath_cases {path : List Char} (h : path = [] ∨ path.head? = some '/') :
    normalPath path = [] ∨ (normalPath path).head? = some '/' := by
  unfold normalPath
  dsimp only
  split_ifs with hnil hslash hslash
  · exact absurd rfl hslash
  · exact .inr rfl
  · obtain ⟨rest, hrest⟩ := List.rdropWhile_prefix (fun c => decide (c = '/')) path
    cases hpath : path.rdropWhile (fun c => decide (c = '/')) with
    | nil => exact .inl rfl
    | cons c cs =>
        right
        rw [← h.resolve_left hnil, ← hrest, hpath]
        rfl
  · exact .inr (h.resolve_left hnil)

theorem mem_normalPath {path : List Char} {c : Char} (h : c ∈ normalPath path) :
    c = '/' ∨ c ∈ path := by
  unfold normalPath at h
  dsimp only at h
  split_ifs at h with hnil hslash hslash
  · exact absurd rfl hslash
  · exact .inl (List.mem_singleton.mp h)
  · exact .inr ((List.rdropWhile_prefix _ _).subset h)
  · exact .inr h

theorem normalPath_normalPath {path : List Char} (h : normalPath path ≠ []) :
    normalPath (normalPath path) = normalPath path := by
  by_cases hslash : normalPath path = ['/']
  · rw [hslash]
    rfl
  · have hdrop : normalPath path = path.rdropWhile (· = '/') := by
      unfold normalPath at hslash ⊢
      dsimp only at hslash ⊢
      split_ifs at hslash ⊢ with hnil hroot
      · exact absurd rfl hroot
      · exact absurd rfl hslash
      · rfl
      · exact absurd (not_not.mp ‹_›) hslash
    calc normalPath (normalPath path) = (normalPath path).rdropWhile (· = '/') := by
          rw [normalPath.eq_1 (normalPath path), if_neg h, if_pos hslash]
      _ = normalPath path := by rw [hdrop, List.rdropWhile_idempotent]

section Normal

variable {lc : LowerCase} {value url : List Char} {parsed : SplitResult} {port : Option ℕ}

theorem normalizeWebsiteUrl_eq_ok : normalizeWebsiteUrl lc value = .ok url ↔
    ∃ parsed port, urlsplit (strip value) = .ok parsed ∧ websiteScheme parsed ∈ webSchemes ∧
      (hostInfo parsed.netloc).1 ≠ [] ∧ parsed.port = .ok port ∧
        urlunsplit (normalParts lc parsed port) = url := by
  have hhost : ∀ parsed : SplitResult,
      parsed.hostname lc = none ↔ (hostInfo parsed.netloc).1 = [] := by
    intro parsed
    rw [SplitResult.hostname]
    split_ifs with hnil <;> simp [hnil]
  simp only [normalizeWebsiteUrl, bind_eq_ok, mapError_eq_ok, raiseIf_eq_ok, hhost, not_or, not_not]
  constructor
  · rintro ⟨parsed, hparsed, _, ⟨hscheme, hne⟩, port, hport, hurl⟩
    exact ⟨parsed, port, hparsed, hscheme, hne, hport, Except.ok.inj hurl⟩
  · rintro ⟨parsed, port, hparsed, hscheme, hne, hport, rfl⟩
    exact ⟨parsed, hparsed, (), ⟨hscheme, hne⟩, port, hport, rfl⟩

theorem websiteHost_eq (h : (hostInfo parsed.netloc).1 ≠ []) :
    websiteHost lc parsed = lc.lower (lc.host (hostInfo parsed.netloc).1) := by
  rw [websiteHost, SplitResult.hostname, if_neg h, Option.getD_some]

theorem mem_websiteHost (h : (hostInfo parsed.netloc).1 ≠ []) {c : Char}
    (hc : isCaseless c = true) :
    c ∈ websiteHost lc parsed ↔ c ∈ (hostInfo parsed.netloc).1 := by
  rw [websiteHost_eq h, lc.mem_lower _ _ hc, LowerCase.mem_host hc]

theorem spec_of_endsNetloc :
    ∀ c ∈ ['/', '?', '#'], isCaseless c = true ∧ c ≠ ':' ∧ isDecimalDigit c = false :=
  forall_mem_of_all (by decide)

theorem spec_of_unsafe : ∀ c ∈ unsafeChars,
    isCaseless c = true ∧ c ≠ ':' ∧ isDecimalDigit c = false ∧ c ≠ '/' :=
  forall_mem_of_all (by decide)

theorem mem_normalNetloc (hhost : (hostInfo parsed.netloc).1 ≠ []) {c : Char}
    (hc : isCaseless c = true) (hcolon : c ≠ ':') (hdigit : isDecimalDigit c = false) :
    c ∈ (normalParts lc parsed port).netloc ↔ c ∈ (hostInfo parsed.netloc).1 := by
  rw [normalParts, List.mem_append, mem_websiteHost hhost hc]
  exact or_iff_left (notMem_portText hcolon hdigit)

theorem normalNetloc_ne_nil (hhost : (hostInfo parsed.netloc).1 ≠ []) :
    (normalParts lc parsed port).netloc ≠ [] := by
  rw [normalParts, websiteHost_eq hhost]
  exact List.append_ne_nil_of_left_ne_nil (lc.lower_ne_nil _ (LowerCase.host_ne_nil hhost)) _

theorem netloc_ne_nil (hhost : (hostInfo parsed.netloc).1 ≠ []) : parsed.netloc ≠ [] := by
  obtain ⟨c, hc⟩ := List.exists_mem_of_ne_nil _ hhost
  exact List.ne_nil_of_mem (mem_of_mem_hostText (mem_of_mem_host hc))

theorem parts_normalParts (h : parsed.Parts) (hhost : (hostInfo parsed.netloc).1 ≠ []) :
    (normalParts lc parsed port).Parts := by
  have hnetloc : ∀ c, isCaseless c = true → c ≠ ':' → isDecimalDigit c = false →
      c ∈ (normalParts lc parsed port).netloc → c ∈ parsed.netloc := fun c hc hcolon hdigit hmem =>
    mem_of_mem_hostText (mem_of_mem_host ((mem_normalNetloc hhost hc hcolon hdigit).mp hmem))
  refine ⟨fun c hc => ?_, fun _ => normalPath_cases (h.path (netloc_ne_nil hhost)), fun hc => ?_,
    fun hc => ?_, h.query, fun c hc hmem => ?_⟩
  · by_contra hends
    have hmem : c ∈ ['/', '?', '#'] := of_decide_eq_true (Bool.not_eq_false _ ▸ hends)
    obtain ⟨hcaseless, hcolon, hdigit⟩ := spec_of_endsNetloc c hmem
    exact hends (h.netloc c (hnetloc c hcaseless hcolon hdigit hc))
  · obtain hslash | hc := mem_normalPath hc
    · exact absurd hslash (by decide)
    · exact h.path_query hc
  · obtain hslash | hc := mem_normalPath hc
    · exact absurd hslash (by decide)
    · exact h.path_fragment hc
  · obtain ⟨hcaseless, hcolon, hdigit, hslash⟩ := spec_of_unsafe c hmem
    have hsafe := h.safe c
    simp only [List.mem_append] at hc hsafe
    obtain ((hc | hc) | hc) | hc := hc
    · exact hsafe (.inl (.inl (.inl (hnetloc c hcaseless hcolon hdigit hc)))) hmem
    · exact hsafe (.inl (.inl (.inr ((mem_normalPath hc).resolve_left hslash)))) hmem
    · exact hsafe (.inl (.inr hc)) hmem
    · exact absurd hc List.not_mem_nil

/-! ## The network location, read back -/

/-- A host and a port that are written are read up to the first colon. -/
theorem partition_portText (host : List Char) (port : Option ℕ) :
    partition ':' (host ++ portText port) = ((partition ':' host).1,
      if ':' ∈ host then (partition ':' host).2 ++ portText port else (portText port).drop 1) := by
  by_cases hcolon : ':' ∈ host
  · rw [if_pos hcolon]
    conv_lhs => rw [partition_eq hcolon, List.append_assoc, List.cons_append]
    exact partition_append (notMem_partition _ _)
  · rw [if_neg hcolon, partition_of_notMem hcolon]
    cases port with
    | none => rw [portText, List.append_nil, partition_of_notMem hcolon, List.drop_nil]
    | some n => rw [portText, partition_append hcolon, List.drop_one, List.tail_cons]

theorem parsePort_portText {port : Option ℕ} (h : ∀ n ∈ port, n ≤ 65535) :
    parsePort ((portText port).drop 1) = .ok port := by
  cases port with
  | none => rfl
  | some n => exact parsePort_toDigits (h n rfl)

theorem checkNetloc_normal (hhost : (hostInfo parsed.netloc).1 ≠ [])
    (h : checkNetloc parsed.netloc = .ok ()) :
    checkNetloc (normalParts lc parsed port).netloc = .ok () := by
  have hspec : ∀ c ∈ expanding, isCaseless c = true ∧ c ≠ ':' ∧ isDecimalDigit c = false :=
    forall_mem_of_all (by decide)
  rw [checkNetloc_eq_ok] at h ⊢
  intro c hc hmem
  obtain ⟨hcaseless, hcolon, hdigit⟩ := hspec c hmem
  exact h c (mem_of_mem_hostText (mem_of_mem_host
    ((mem_normalNetloc hhost hcaseless hcolon hdigit).mp hc))) hmem

theorem checkBrackets_normal_iff (hhost : (hostInfo parsed.netloc).1 ≠ []) :
    checkBrackets (normalParts lc parsed port).netloc = .ok () ↔
      '[' ∉ (hostInfo parsed.netloc).1 ∧ ']' ∉ (hostInfo parsed.netloc).1 := by
  have hopen : '[' ∈ (normalParts lc parsed port).netloc ↔ '[' ∈ (hostInfo parsed.netloc).1 :=
    mem_normalNetloc hhost rfl (by decide) rfl
  have hclose : ']' ∈ (normalParts lc parsed port).netloc ↔ ']' ∈ (hostInfo parsed.netloc).1 :=
    mem_normalNetloc hhost rfl (by decide) rfl
  constructor
  · intro h
    have hiff := brackets_of_checkBrackets h
    rw [hopen, hclose] at hiff
    obtain hnot | hnot := bracket_notMem_host parsed.netloc
    · exact ⟨hnot, fun hmem => hnot (hiff.mpr hmem)⟩
    · exact ⟨fun hmem => hnot (hiff.mp hmem), hnot⟩
  · rintro ⟨hno, hnc⟩
    exact checkBrackets_of_notMem (fun h => hno (hopen.mp h)) fun h => hnc (hclose.mp h)

theorem hostInfo_normal (lc : LowerCase) (port : Option ℕ)
    (hhost : (hostInfo parsed.netloc).1 ≠ []) (hopen : '[' ∉ (hostInfo parsed.netloc).1) :
    hostInfo (normalParts lc parsed port).netloc = ((partition ':' (websiteHost lc parsed)).1,
      if ':' ∈ websiteHost lc parsed then (partition ':' (websiteHost lc parsed)).2 ++
        portText (keptPort (websiteScheme parsed) port)
      else (portText (keptPort (websiteScheme parsed) port)).drop 1) := by
  have huser : '@' ∉ (normalParts lc parsed port).netloc := fun h =>
    notMem_hostText _ (mem_of_mem_host ((mem_normalNetloc hhost rfl (by decide) rfl).mp h))
  have hplain : '[' ∉ (normalParts lc parsed port).netloc := fun h =>
    hopen ((mem_normalNetloc hhost rfl (by decide) rfl).mp h)
  rw [hostInfo_of_notMem huser hplain, normalParts, partition_portText]

/-- A host in lower case is read back as it is. -/
theorem websiteHost_normal (hhost : (hostInfo parsed.netloc).1 ≠ [])
    (hopen : '[' ∉ (hostInfo parsed.netloc).1)
    (hbefore : (partition ':' (websiteHost lc parsed)).1 ≠ []) :
    websiteHost lc (normalParts lc parsed port) = (partition ':' (websiteHost lc parsed)).1 := by
  have hlow : ∀ c ∈ (partition ':' (websiteHost lc parsed)).1,
      c ∈ lc.lower (lc.host (hostInfo parsed.netloc).1) := fun c hc => by
    rw [← websiteHost_eq hhost]
    exact mem_of_mem_before hc
  have hinfo := hostInfo_normal lc port hhost hopen
  rw [websiteHost_eq (by rw [hinfo]; exact hbefore), hinfo, LowerCase.host_eq_self hlow,
    lc.lower_eq_self _ _ hlow]

theorem websiteScheme_normal (hscheme : websiteScheme parsed ∈ webSchemes) :
    websiteScheme (normalParts lc parsed port) = websiteScheme parsed :=
  (isScheme_of_mem hscheme).lower

theorem netloc_normal (hscheme : websiteScheme parsed ∈ webSchemes)
    (hhost : (hostInfo parsed.netloc).1 ≠ []) (hopen : '[' ∉ (hostInfo parsed.netloc).1)
    (hbefore : (partition ':' (websiteHost lc parsed)).1 ≠ []) (port' : Option ℕ) :
    (normalParts lc (normalParts lc parsed port) port').netloc =
      (partition ':' (websiteHost lc parsed)).1 ++
        portText (keptPort (websiteScheme parsed) port') := by
  rw [normalParts, websiteHost_normal hhost hopen hbefore, websiteScheme_normal hscheme]

theorem keptPort_le (hport : parsed.port = .ok port) :
    ∀ n ∈ keptPort (websiteScheme parsed) port, n ≤ 65535 := by
  intro n hn
  obtain ⟨rfl, -⟩ := Option.filter_eq_some_iff.mp hn
  exact parsePort_eq_some hport

/-- With a colon in its host, the network location is written again exactly if a port follows. -/
theorem portInHost_iff (hscheme : websiteScheme parsed ∈ webSchemes)
    (hhost : (hostInfo parsed.netloc).1 ≠ []) (hopen : '[' ∉ (hostInfo parsed.netloc).1)
    (hcolon : ':' ∈ websiteHost lc parsed) :
    (∃ port', parsePort ((partition ':' (websiteHost lc parsed)).2 ++
          portText (keptPort (websiteScheme parsed) port)) = .ok port' ∧
        (partition ':' (websiteHost lc parsed)).1 ≠ [] ∧
          (normalParts lc (normalParts lc parsed port) port').netloc =
            (normalParts lc parsed port).netloc) ↔ PortInHost lc parsed port := by
  have hnetloc : (normalParts lc parsed port).netloc =
      (partition ':' (websiteHost lc parsed)).1 ++ ':' ::
        ((partition ':' (websiteHost lc parsed)).2 ++
          portText (keptPort (websiteScheme parsed) port)) := by
    rw [← List.cons_append, ← List.append_assoc, ← partition_eq hcolon, normalParts]
  rw [hnetloc]
  constructor
  · rintro ⟨port', hport', hbefore, heq⟩
    rw [netloc_normal hscheme hhost hopen hbefore, List.append_cancel_left_eq] at heq
    obtain ⟨n, hkept, hdigits⟩ := portText_eq_cons heq
    obtain ⟨rfl, -⟩ := Option.filter_eq_some_iff.mp hkept
    have hnone : keptPort (websiteScheme parsed) port = none := by
      by_contra hsome
      obtain ⟨m, hm⟩ := Option.ne_none_iff_exists'.mp hsome
      refine colon_notMem_toDigits n ?_
      rw [← hdigits, hm, portText]
      simp
    rw [hnone, portText, List.append_nil] at hdigits
    exact ⟨hnone, hbefore, n, parsePort_eq_some hport', hkept, hdigits⟩
  · rintro ⟨hnone, hbefore, n, hn, hkept, hdigits⟩
    rw [hnone, portText, List.append_nil, hdigits]
    refine ⟨some n, parsePort_toDigits hn, hbefore, ?_⟩
    rw [netloc_normal hscheme hhost hopen hbefore, hkept, portText]

/-- The network location is written again exactly if the host is read back. -/
theorem netloc_again_iff (hscheme : websiteScheme parsed ∈ webSchemes)
    (hhost : (hostInfo parsed.netloc).1 ≠ []) (hport : parsed.port = .ok port)
    (hopen : '[' ∉ (hostInfo parsed.netloc).1) :
    (∃ port', (normalParts lc parsed port).port = .ok port' ∧
        (hostInfo (normalParts lc parsed port).netloc).1 ≠ [] ∧
          (normalParts lc (normalParts lc parsed port) port').netloc =
            (normalParts lc parsed port).netloc) ↔
      (':' ∈ (hostInfo parsed.netloc).1 → PortInHost lc parsed port) := by
  have hmem : ':' ∈ websiteHost lc parsed ↔ ':' ∈ (hostInfo parsed.netloc).1 :=
    mem_websiteHost hhost rfl
  rw [SplitResult.port, hostInfo_normal lc port hhost hopen, ← hmem]
  by_cases hcolon : ':' ∈ websiteHost lc parsed
  · rw [if_pos hcolon, portInHost_iff hscheme hhost hopen hcolon]
    exact ⟨fun h _ => h, fun h => h hcolon⟩
  · have hself : (partition ':' (websiteHost lc parsed)).1 = websiteHost lc parsed := by
      rw [partition_of_notMem hcolon]
    have hne : websiteHost lc parsed ≠ [] := by
      rw [websiteHost_eq hhost]
      exact lc.lower_ne_nil _ (LowerCase.host_ne_nil hhost)
    rw [if_neg hcolon, parsePort_portText (keptPort_le hport)]
    refine iff_of_true ⟨_, rfl, by rwa [hself], ?_⟩ fun h => absurd h hcolon
    rw [netloc_normal hscheme hhost hopen (by rwa [hself]), hself, keptPort_keptPort]
    rfl

/-! ## The second normalisation -/

/-- What is known of a URL that is accepted. -/
structure Accepted (value : List Char) (parsed : SplitResult) (port : Option ℕ) : Prop where
  split : urlsplit (strip value) = .ok parsed
  scheme : websiteScheme parsed ∈ webSchemes
  host : (hostInfo parsed.netloc).1 ≠ []
  port : parsed.port = .ok port

theorem Accepted.parts (h : Accepted value parsed port) : (normalParts lc parsed port).Parts := by
  obtain ⟨rfl, -, -⟩ := urlsplit_eq_ok.mp h.split
  exact parts_normalParts (parts_splitUrl _) h.host

theorem Accepted.isScheme (h : Accepted value parsed port) :
    IsScheme (normalParts lc parsed port).scheme := isScheme_of_mem h.scheme

theorem splitUrl_normal (h : Accepted value parsed port) :
    splitUrl (urlunsplit (normalParts lc parsed port)) = normalParts lc parsed port :=
  splitUrl_urlunsplit h.parts (normalNetloc_ne_nil h.host) h.isScheme

/-- A URL without spaces at its ends is normalised to itself exactly if its path and its host are
read back. -/
theorem Accepted.normalizes_iff (h : Accepted value parsed port)
    (hstrip : strip (urlunsplit (normalParts lc parsed port)) =
      urlunsplit (normalParts lc parsed port)) :
    normalizeWebsiteUrl lc (urlunsplit (normalParts lc parsed port)) =
        .ok (urlunsplit (normalParts lc parsed port)) ↔
      normalPath parsed.path ≠ [] ∧ SettledHost lc parsed port := by
  obtain ⟨-, -, hcheck⟩ := urlsplit_eq_ok.mp h.split
  rw [normalizeWebsiteUrl_eq_ok, hstrip]
  constructor
  · rintro ⟨again, port', hsplit, hscheme, hhost, hport, hurl⟩
    obtain ⟨hagain, hbrackets, -⟩ := urlsplit_eq_ok.mp hsplit
    obtain rfl : normalParts lc parsed port = again := (splitUrl_normal h).symm.trans hagain
    have hsame : normalParts lc (normalParts lc parsed port) port' = normalParts lc parsed port :=
      urlunsplit_injective (parts_normalParts h.parts hhost) h.parts (isScheme_of_mem hscheme)
        h.isScheme (normalNetloc_ne_nil hhost) (normalNetloc_ne_nil h.host) hurl
    obtain ⟨hopen, hclose⟩ := (checkBrackets_normal_iff h.host).mp hbrackets
    refine ⟨fun hnil => ?_, hopen, hclose, (netloc_again_iff h.scheme h.host h.port hopen).mp
      ⟨port', hport, hhost, congrArg SplitResult.netloc hsame⟩⟩
    have hpath : normalPath (normalPath parsed.path) = normalPath parsed.path :=
      congrArg SplitResult.path hsame
    rw [hnil] at hpath
    exact absurd hpath (by decide)
  · rintro ⟨hpath, hopen, hclose, hcolon⟩
    obtain ⟨port', hport, hhost, hnetloc⟩ :=
      (netloc_again_iff h.scheme h.host h.port hopen).mpr hcolon
    refine ⟨normalParts lc parsed port, port', urlsplit_eq_ok.mpr ⟨(splitUrl_normal h),
      (checkBrackets_normal_iff h.host).mpr ⟨hopen, hclose⟩, checkNetloc_normal h.host hcheck⟩,
      (websiteScheme_normal h.scheme).symm ▸ h.scheme, hhost, hport, ?_⟩
    have hsame : normalParts lc (normalParts lc parsed port) port' = normalParts lc parsed port :=
      SplitResult.ext (websiteScheme_normal h.scheme) hnetloc
        (normalPath_normalPath hpath) rfl rfl
    rw [hsame]

/-! ## Spaces at the end -/

theorem length_normalPath_le {path : List Char} (h : path ≠ []) :
    (normalPath path).length ≤ path.length := by
  unfold normalPath
  rw [if_neg h]
  dsimp only
  split_ifs with hslash
  · exact (List.rdropWhile_prefix _ _).length_le
  · exact le_rfl

theorem strip_websiteUrl {scheme : List Char} (h : scheme ∈ webSchemes) (body : List Char) :
    strip (scheme ++ ':' :: '/' :: '/' :: body) =
      scheme ++ ':' :: '/' :: '/' :: body.rdropWhile isSpace := by
  have hstart : (scheme ++ ':' :: '/' :: '/' :: body).dropWhile isSpace =
      (scheme ++ [':', '/']) ++ '/' :: body := by
    obtain rfl | rfl : scheme = "http".toList ∨ scheme = "https".toList := by
      simpa [webSchemes] using h
    all_goals rfl
  rw [strip, hstart, rdropWhile_append_cons rfl, List.append_assoc]
  rfl

/-- The tail of a normalised URL. -/
theorem tail_normal (lc : LowerCase) (parsed : SplitResult) (port : Option ℕ) :
    (normalParts lc parsed port).tail = normalPath parsed.path ++ withMark '?' parsed.query := by
  rw [SplitResult.tail, normalParts, withMark.eq_1 '#', if_pos rfl, List.append_nil]

theorem urlunsplit_normal (h : Accepted value parsed port) :
    urlunsplit (normalParts lc parsed port) = websiteScheme parsed ++ ':' :: '/' :: '/' ::
      ((normalParts lc parsed port).netloc ++ (normalParts lc parsed port).tail) :=
  urlunsplit_eq h.parts h.isScheme.ne_nil (normalNetloc_ne_nil h.host)

theorem notEndsNetloc_of_isSpace {c : Char} (h : isSpace c = true) : (!endsNetloc c) = true := by
  have hends : ∀ d ∈ ['/', '?', '#'], isSpace d = false := forall_mem_of_all (by decide)
  simp only [endsNetloc, Bool.not_eq_true', decide_eq_false_iff_not]
  exact fun hmem => absurd h (by simp [hends c hmem])

/-- What is read before the spaces at the end of a normalised URL is shorter than the URL, so
that it is normalised to the same parts only if there are no such spaces. -/
theorem spaces_eq_nil {body spaces : List Char} {r again : SplitResult} {port : Option ℕ}
    (h : r.Parts) (hnetloc : r.netloc ≠ []) (hspaces : ∀ c ∈ spaces, isSpace c = true)
    (hbody : r.netloc ++ r.tail = body ++ spaces)
    (hpath : again.path = (partition '?' (body.dropWhile fun c => !endsNetloc c)).1)
    (hquery : again.query = (partition '?' (body.dropWhile fun c => !endsNetloc c)).2)
    (hagain : r = normalParts lc again port) : spaces = [] := by
  have htail : r.tail = normalPath again.path ++ withMark '?' again.query := by
    rw [hagain, tail_normal]
  have hdrop := (takeWhile_netloc h hnetloc).2
  rw [hbody, List.dropWhile_append] at hdrop
  generalize body.dropWhile (fun c => !endsNetloc c) = rest at hdrop hpath hquery
  by_cases hrest : rest = []
  · have hnone : spaces.dropWhile (fun c => !endsNetloc c) = [] :=
      List.dropWhile_eq_nil_iff.mpr fun c hc => notEndsNetloc_of_isSpace (hspaces c hc)
    rw [hrest, List.isEmpty_nil, if_pos rfl, hnone, htail, hpath, hrest] at hdrop
    exact absurd hdrop (by simp [partition, normalPath])
  · rw [List.isEmpty_eq_false_iff.mpr hrest, if_neg Bool.false_ne_true, htail] at hdrop
    by_cases hnil : again.path = []
    · rw [hnil] at hdrop hpath
      obtain ⟨c, cs, rfl⟩ := List.exists_cons_of_ne_nil hrest
      obtain rfl : c = '/' := (List.cons.inj hdrop).1
      exact absurd hpath (by simp [partition])
    · have hlength := congrArg List.length hdrop
      have hread := length_partition_le '?' rest
      have hshort := length_normalPath_le hnil
      rw [← hpath, ← hquery] at hread
      rw [List.length_append, List.length_append] at hlength
      exact List.length_eq_zero_iff.mp (by omega)

theorem hash_notMem_body (h : Accepted value parsed port) :
    '#' ∉ (normalParts lc parsed port).netloc ++ (normalParts lc parsed port).tail := by
  intro hc
  obtain hc | hc := List.mem_append.mp hc
  · exact absurd (h.parts.netloc '#' hc) (by decide)
  · refine hash_notMem h.parts (r := normalParts lc parsed port) ?_
    rw [tail_normal] at hc
    exact hc

/-- A normalised URL that is normalised to itself has no spaces at its end. -/
theorem strip_normal (h : Accepted value parsed port)
    (hurl : normalizeWebsiteUrl lc (urlunsplit (normalParts lc parsed port)) =
      .ok (urlunsplit (normalParts lc parsed port))) :
    strip (urlunsplit (normalParts lc parsed port)) =
      urlunsplit (normalParts lc parsed port) := by
  obtain ⟨again, port', hsplit, hscheme, hhost, -, hagain⟩ := normalizeWebsiteUrl_eq_ok.mp hurl
  obtain ⟨hread, -, -⟩ := urlsplit_eq_ok.mp hsplit
  have hsame : normalParts lc again port' = normalParts lc parsed port :=
    urlunsplit_injective (hread ▸ parts_normalParts (parts_splitUrl _) (hread.symm ▸ hhost)) h.parts
      (isScheme_of_mem hscheme) h.isScheme (normalNetloc_ne_nil hhost)
      (normalNetloc_ne_nil h.host) hagain
  set body := (normalParts lc parsed port).netloc ++ (normalParts lc parsed port).tail with hbody
  have hcut : body.rdropWhile isSpace ++ body.rtakeWhile isSpace = body :=
    List.rdropWhile_append_rtakeWhile
  have hsub : ∀ c ∈ body.rdropWhile isSpace, c ∈ body := fun c hc =>
    (List.rdropWhile_prefix _ _).subset hc
  have hnohash : '#' ∉ (body.rdropWhile isSpace).dropWhile fun c => !endsNetloc c := fun hc =>
    hash_notMem_body h (hsub _ ((List.dropWhile_suffix _).subset hc))
  rw [urlunsplit_normal h, strip_websiteUrl h.scheme, ← hbody,
    splitUrl_append (isScheme_of_mem h.scheme) fun c hc => safe_body h.parts c (hsub c hc)] at hread
  dsimp only at hread
  rw [partition_of_notMem hnohash] at hread
  have hnil : body.rtakeWhile isSpace = [] :=
    spaces_eq_nil h.parts (normalNetloc_ne_nil h.host) (fun c hc => List.mem_rtakeWhile_imp hc)
      hcut.symm (by rw [← hread]) (by rw [← hread]) hsame.symm
  rw [hnil, List.append_nil] at hcut
  rw [urlunsplit_normal h, strip_websiteUrl h.scheme, ← hbody, hcut]

/-! ## When normalisation is idempotent -/

theorem tail_ne_nil (h : normalPath parsed.path ≠ []) : (normalParts lc parsed port).tail ≠ [] := by
  rw [tail_normal]
  exact List.append_ne_nil_of_left_ne_nil h _

/-- No space is left at the end exactly if the path and the query do not end with one. -/
theorem strip_normal_iff (h : Accepted value parsed port) (hpath : normalPath parsed.path ≠ []) :
    strip (urlunsplit (normalParts lc parsed port)) = urlunsplit (normalParts lc parsed port) ↔
      ∀ c ∈ (normalPath parsed.path ++ withMark '?' parsed.query).getLast?, isSpace c = false := by
  have hlast : ((normalParts lc parsed port).netloc ++ (normalParts lc parsed port).tail).getLast? =
      (normalPath parsed.path ++ withMark '?' parsed.query).getLast? := by
    rw [List.getLast?_append_of_ne_nil _ (tail_ne_nil hpath), tail_normal]
  rw [urlunsplit_normal h, strip_websiteUrl h.scheme, ← hlast]
  simp only [List.append_cancel_left_eq, List.cons.injEq, true_and]
  rw [List.rdropWhile_eq_self_iff]
  constructor
  · intro hself c hc
    have hne := List.ne_nil_of_mem (List.mem_of_getLast? hc)
    rw [List.getLast?_eq_getLast_of_ne_nil hne] at hc
    obtain rfl := Option.mem_some_iff.mp hc
    exact Bool.not_eq_true _ ▸ hself hne
  · intro hself hne
    rw [hself _ (List.getLast?_eq_getLast_of_ne_nil hne)]
    exact Bool.false_ne_true

end Normal

/-- What is accepted is normalised to itself the second time exactly if it is settled. -/
theorem normalizeWebsiteUrl_idempotent_iff {lc : LowerCase} {value url : List Char}
    (h : normalizeWebsiteUrl lc value = .ok url) :
    normalizeWebsiteUrl lc url = .ok url ↔ SettledUrl lc value := by
  obtain ⟨parsed, port, hsplit, hscheme, hhost, hport, rfl⟩ := normalizeWebsiteUrl_eq_ok.mp h
  have haccepted : Accepted value parsed port := ⟨hsplit, hscheme, hhost, hport⟩
  constructor
  · intro hagain parsed' port' hsplit' hport'
    obtain rfl := Except.ok.inj (hsplit.symm.trans hsplit')
    obtain rfl := Except.ok.inj (hport.symm.trans hport')
    have hstrip := strip_normal haccepted hagain
    obtain ⟨hpath, hsettled⟩ := (haccepted.normalizes_iff hstrip).mp hagain
    exact ⟨hpath, (strip_normal_iff haccepted hpath).mp hstrip, hsettled⟩
  · intro hsettled
    obtain ⟨hpath, hlast, hread⟩ := hsettled parsed port hsplit hport
    exact (haccepted.normalizes_iff ((strip_normal_iff haccepted hpath).mpr hlast)).mpr
      ⟨hpath, hread⟩

end Zyntry
