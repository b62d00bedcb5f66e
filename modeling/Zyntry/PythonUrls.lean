import Zyntry.AddressTexts
import Zyntry.PythonCase
import Zyntry.Substitutions

/-!
# URLs

`urlsplit` and `urlunsplit` of the standard library, and what is read of the network location
of a URL. The parts that are split from a URL hold no character that ends them; parts of this
kind are split again from the URL that they are put together to.
-/

namespace Python

/-- The characters whose compatibility form holds one of `/?#@:`. -/
def expanding : List Char :=
  ['\u2047', '\u2048', '\u2049', '\u2100', '\u2101', '\u2105', '\u2106', '\u2a74', '\ufe13',
    '\ufe16', '\ufe55', '\ufe56', '\ufe5f', '\ufe6b', '\uff03', '\uff0f', '\uff1a', '\uff1f',
    '\uff20']

/-- The ASCII characters that are no letters, and the expanding ones. -/
def isCaseless (c : Char) : Bool := (c.toNat < 128 ∧ ¬c.isAlpha) ∨ c ∈ expanding

/-- `str.lower`. The lower case of a character can depend on those around it, but what is in
lower case stays so, and caseless characters are neither made nor removed. -/
structure LowerCase where
  lower : List Char → List Char
  lower_eq_self : ∀ cs ds, (∀ d ∈ ds, d ∈ lower cs) → lower ds = ds
  lower_ne_nil : ∀ cs, cs ≠ [] → lower cs ≠ []
  mem_lower : ∀ cs c, isCaseless c = true → (c ∈ lower cs ↔ c ∈ cs)

theorem forall_mem_of_all {α : Type*} {p : α → Prop} [DecidablePred p] {xs : List α}
    (h : xs.all (fun x => p x) = true) : ∀ x ∈ xs, p x := by
  simpa using h

theorem lowerChar_cases (c : Char) :
    lowerChar c = ['i', '\u0307'] ∨ lowerChar c = ['k'] ∨ lowerChar c = [c.toLower] := by
  unfold lowerChar
  split_ifs with hdot hkelvin
  · exact .inl rfl
  · exact .inr (.inl rfl)
  · exact .inr (.inr rfl)

theorem lowerChar_of_mem {c d : Char} (h : d ∈ lowerChar c) : lowerChar d = [d] := by
  have hagain := flatMap_lowerChar_lowerChar c
  obtain hlower | hlower | hlower := lowerChar_cases c
  · rw [hlower, List.mem_pair] at h
    obtain rfl | rfl := h <;> decide
  · rw [hlower, List.mem_singleton] at h
    subst h
    decide
  · rw [hlower, List.flatMap_singleton] at hagain
    rw [hlower, List.mem_singleton] at h
    rw [h, hagain]

theorem isUpper_of_isCaseless {c : Char} (h : isCaseless c = true) :
    c.isUpper = false ∧ c ≠ 'İ' ∧ c ≠ '\u212a' := by
  obtain ⟨hbound, halpha⟩ | hmem : (c.toNat < 128 ∧ ¬c.isAlpha) ∨ c ∈ expanding :=
    of_decide_eq_true h
  · simp only [Char.isAlpha, Bool.or_eq_true, not_or, Bool.not_eq_true] at halpha
    refine ⟨halpha.1, ?_, ?_⟩
    · rintro rfl
      exact absurd hbound (by decide)
    · rintro rfl
      exact absurd hbound (by decide)
  · have hall : ∀ d ∈ expanding, d.isUpper = false ∧ d ≠ 'İ' ∧ d ≠ '\u212a' :=
      forall_mem_of_all (by decide)
    exact hall c hmem

/-- A letter of ASCII has a case. -/
theorem isCaseless_toLower {c : Char} (h : c.isUpper = true) : isCaseless c.toLower = false := by
  have hlower : c.toLower.isLower = true := by simp [Char.isAlpha, h]
  have hhigh : c.toLower.toNat ≤ 122 := by
    simp only [Char.isLower, Bool.and_eq_true, decide_eq_true_eq] at hlower
    exact hlower.2
  have hall : ∀ d ∈ expanding, 122 < d.toNat := forall_mem_of_all (by decide)
  refine decide_eq_false ?_
  rintro (⟨-, halpha⟩ | hmem)
  · exact halpha (by simp [Char.isAlpha, h])
  · exact absurd (hall _ hmem) (by omega)

/-- A caseless character is in the lower case of no other one. -/
theorem eq_of_mem_lowerChar {c d : Char} (hc : isCaseless c = true) (h : c ∈ lowerChar d) :
    c = d := by
  obtain hlower | hlower | hlower := lowerChar_cases d
  · rw [hlower, List.mem_pair] at h
    obtain rfl | rfl := h <;> exact absurd hc (by decide)
  · rw [hlower, List.mem_singleton] at h
    subst h
    exact absurd hc (by decide)
  · rw [hlower, List.mem_singleton] at h
    by_cases hupper : d.isUpper = true
    · rw [h, isCaseless_toLower hupper] at hc
      exact absurd hc Bool.false_ne_true
    · rw [h, Char.toLower_eq_of_not_isUpper hupper]

/-- `lower` is a lower case. -/
def plainCase : LowerCase where
  lower cs := cs.flatMap lowerChar
  lower_eq_self := by
    intro cs ds h
    induction ds with
    | nil => rfl
    | cons d ds ih =>
        obtain ⟨c, -, hd⟩ := List.mem_flatMap.mp (h d List.mem_cons_self)
        rw [List.flatMap_cons, lowerChar_of_mem hd, ih fun e he => h e (List.mem_cons_of_mem _ he)]
        rfl
  lower_ne_nil := by
    intro cs hne
    obtain ⟨c, cs, rfl⟩ := List.exists_cons_of_ne_nil hne
    rw [List.flatMap_cons]
    exact List.append_ne_nil_of_left_ne_nil (lowerChar_ne_nil c) _
  mem_lower := by
    intro cs c hc
    rw [List.mem_flatMap]
    constructor
    · rintro ⟨d, hd, hmem⟩
      exact eq_of_mem_lowerChar hc hmem ▸ hd
    · intro hmem
      obtain ⟨hupper, hdot, hkelvin⟩ := isUpper_of_isCaseless hc
      refine ⟨c, hmem, ?_⟩
      rw [lowerChar_eq_self hupper hdot hkelvin]
      exact List.mem_singleton_self c

/-- Everything that is raised is a `ValueError`. -/
inductive UrlError where
  | invalidIpv6
  | invalidFuture
  | notAddress (host : List Char)
  | ipv4InBrackets
  | expandingNetloc (netloc : List Char)
  | portNotInteger (port : List Char)
  | portTooLong
  | portOutOfRange
deriving DecidableEq, Repr

/-- What stands before the first `c` and after it, as `str.partition` gives it. -/
def partition (c : Char) (cs : List Char) : List Char × List Char :=
  (cs.takeWhile (· ≠ c), (cs.dropWhile (· ≠ c)).drop 1)

/-! ## The network location -/

/-- `_check_bracketed_host`. -/
def checkBracketedHost (host : List Char) : Except UrlError Unit :=
  match host with
  | 'v' :: rest =>
      let version := rest.takeWhile isHexDigit
      let address := rest.dropWhile isHexDigit
      raiseIf (¬(version ≠ [] ∧ address.head? = some '.' ∧ 1 < address.length ∧ '\n' ∉ address))
        .invalidFuture
  | host =>
      match parseAddress host with
      | none => .error (.notAddress host)
      | some (.v4 _) => .error .ipv4InBrackets
      | some (.v6 _) => .ok ()

/-- What stands after the user information. -/
def hostText (netloc : List Char) : List Char := netloc.rtakeWhile (· ≠ '@')

/-- `_check_bracketed_netloc`. -/
def checkBracketedNetloc (netloc : List Char) : Except UrlError Unit := do
  let info := hostText netloc
  if '[' ∈ info then
    raiseIf ((partition '[' info).1 ≠ []) .invalidIpv6
    let (host, port) := partition ']' (partition '[' info).2
    raiseIf (port ≠ [] ∧ port.head? ≠ some ':') .invalidIpv6
    checkBracketedHost host
  else checkBracketedHost (partition ':' info).1

/-- The checks of `urlsplit` on brackets. -/
def checkBrackets (netloc : List Char) : Except UrlError Unit := do
  raiseIf (¬('[' ∈ netloc ↔ ']' ∈ netloc)) .invalidIpv6
  if '[' ∈ netloc ∧ ']' ∈ netloc then checkBracketedNetloc netloc

/-- `_checknetloc`. A text has one of `/?#@:` in its normal form NFKC exactly if one of its
characters has. -/
def checkNetloc (netloc : List Char) : Except UrlError Unit :=
  raiseIf (netloc.any (· ∈ expanding)) (.expandingNetloc netloc)

/-- `_hostinfo`: the host and the text of the port. -/
def hostInfo (netloc : List Char) : List Char × List Char :=
  let info := hostText netloc
  if '[' ∈ info then
    let (host, port) := partition ']' (partition '[' info).2
    (host, (partition ':' port).2)
  else partition ':' info

/-- A port; there is none if its text is empty. At most 4300 digits are read. -/
def parsePort (port : List Char) : Except UrlError (Option ℕ) := do
  if port = [] then return none
  raiseIf (¬isDecimal port) (.portNotInteger port)
  raiseIf (4300 < port.length) .portTooLong
  raiseIf (65535 < ofDigitTexts 10 port) .portOutOfRange
  return some (ofDigitTexts 10 port)

/-! ## Splitting and putting together -/

@[ext]
structure SplitResult where
  scheme : List Char
  netloc : List Char
  path : List Char
  query : List Char
  fragment : List Char
deriving DecidableEq, Repr

/-- A host in lower case; the zone of an address keeps its case. -/
def LowerCase.host (lc : LowerCase) (host : List Char) : List Char :=
  let (address, zone) := partition '%' host
  lc.lower address ++ if '%' ∈ host then '%' :: zone else []

def SplitResult.hostname (lc : LowerCase) (r : SplitResult) : Option (List Char) :=
  let host := (hostInfo r.netloc).1
  if host = [] then none else some (lc.host host)

def SplitResult.port (r : SplitResult) : Except UrlError (Option ℕ) :=
  parsePort (hostInfo r.netloc).2

/-- The name and the password of the user information. -/
def SplitResult.user (r : SplitResult) : Option (List Char) × Option (List Char) :=
  if '@' ∈ r.netloc then
    let info := (r.netloc.rdropWhile (· ≠ '@')).dropLast
    (some (partition ':' info).1, if ':' ∈ info then some (partition ':' info).2 else none)
  else (none, none)

def isControlOrSpace (c : Char) : Bool := c.toNat ≤ 0x20

/-- Removed from a URL wherever they stand. -/
def unsafeChars : List Char := ['\t', '\r', '\n']

def isSchemeChar (c : Char) : Bool := c.isAlphanum ∨ c ∈ ['+', '-', '.']

def splitScheme (url : List Char) : List Char × List Char :=
  let (scheme, rest) := partition ':' url
  if ':' ∈ url ∧ url.head?.any Char.isAlpha ∧ scheme.all isSchemeChar then
    (scheme.map Char.toLower, rest)
  else ([], url)

def endsNetloc (c : Char) : Bool := c ∈ ['/', '?', '#']

/-- `_splitnetloc` where two slashes begin a network location. -/
def splitNetloc : List Char → List Char × List Char
  | '/' :: '/' :: rest =>
      (rest.takeWhile (fun c => !endsNetloc c), rest.dropWhile (fun c => !endsNetloc c))
  | url => ([], url)

/-- The parts of a URL, before they are checked. -/
def splitUrl (url : List Char) : SplitResult :=
  let url := (url.dropWhile isControlOrSpace).filter (· ∉ unsafeChars)
  let (scheme, url) := splitScheme url
  let (netloc, url) := splitNetloc url
  let (url, fragment) := partition '#' url
  let (path, query) := partition '?' url
  ⟨scheme, netloc, path, query, fragment⟩

def urlsplit (url : List Char) : Except UrlError SplitResult := do
  let r := splitUrl url
  checkBrackets r.netloc
  checkNetloc r.netloc
  return r

def usesNetloc : List String :=
  ["", "ftp", "http", "gopher", "nntp", "telnet", "imap", "wais", "file", "mms", "https", "shttp",
    "snews", "prospero", "rtsp", "rtsps", "rtspu", "rsync", "svn", "svn+ssh", "sftp", "nfs", "git",
    "git+ssh", "ws", "wss", "itms-services"]

/-- A part that is put behind a mark, if it is not empty. -/
def withMark (mark : Char) (part : List Char) : List Char := if part = [] then [] else mark :: part

def urlunsplit (r : SplitResult) : List Char :=
  let slashed := r.path = [] ∨ r.path.head? = some '/'
  let url :=
    if r.netloc ≠ [] then '/' :: '/' :: (r.netloc ++ if slashed then r.path else '/' :: r.path)
    else if ['/', '/'].isPrefixOf r.path ∨
        (r.scheme ≠ [] ∧ String.ofList r.scheme ∈ usesNetloc ∧ slashed) then
      '/' :: '/' :: r.path
    else r.path
  (if r.scheme = [] then url else r.scheme ++ ':' :: url) ++ withMark '?' r.query ++
    withMark '#' r.fragment

/-! ## Cutting at a character -/

section Partition

variable {c d : Char} {cs cs' : List Char}

theorem partition_append (h : c ∉ cs) : partition c (cs ++ c :: cs') = (cs, cs') := by
  have hrun : ∀ d ∈ cs, decide (d ≠ c) = true := fun d hd =>
    decide_eq_true fun heq => h (heq ▸ hd)
  have hrest : ∀ d ∈ (c :: cs').head?, decide (d ≠ c) = false := by simp
  obtain ⟨htake, hdrop⟩ := takeWhile_run hrun hrest
  rw [partition, htake, hdrop, List.drop_one, List.tail_cons]

theorem partition_of_notMem (h : c ∉ cs) : partition c cs = (cs, []) := by
  have hrun : ∀ d ∈ cs, decide (d ≠ c) = true := fun d hd =>
    decide_eq_true fun heq => h (heq ▸ hd)
  rw [partition, List.takeWhile_eq_self_iff.mpr hrun, List.dropWhile_eq_nil_iff.mpr hrun,
    List.drop_nil]

theorem partition_withMark (h : c ∉ cs) : partition c (cs ++ withMark c cs') = (cs, cs') := by
  by_cases hnil : cs' = []
  · rw [withMark, if_pos hnil, List.append_nil, partition_of_notMem h, hnil]
  · rw [withMark, if_neg hnil, partition_append h]

theorem notMem_partition (c : Char) (cs : List Char) : c ∉ (partition c cs).1 := fun h => by
  simpa using List.mem_takeWhile_imp h

theorem partition_eq (h : c ∈ cs) :
    cs = (partition c cs).1 ++ c :: (partition c cs).2 := by
  have hne : cs.dropWhile (· ≠ c) ≠ [] := by
    intro hnil
    simpa using List.dropWhile_eq_nil_iff.mp hnil c h
  obtain ⟨d, rest, hrest⟩ := List.exists_cons_of_ne_nil hne
  have hd : d = c := by simpa using head?_dropWhile (p := (· ≠ c)) cs d (by rw [hrest]; rfl)
  calc cs = cs.takeWhile (· ≠ c) ++ cs.dropWhile (· ≠ c) := List.takeWhile_append_dropWhile.symm
    _ = (partition c cs).1 ++ c :: (partition c cs).2 := by
        rw [partition, hrest, hd, List.drop_one, List.tail_cons]

theorem length_partition_le (c : Char) (cs : List Char) :
    (partition c cs).1.length + (withMark c (partition c cs).2).length ≤ cs.length := by
  by_cases hc : c ∈ cs
  · have hlength := congrArg List.length (partition_eq hc)
    have hmark : (withMark c (partition c cs).2).length ≤ (partition c cs).2.length + 1 := by
      unfold withMark
      split_ifs <;> simp
    rw [List.length_append, List.length_cons] at hlength
    omega
  · rw [partition_of_notMem hc, withMark, if_pos rfl, List.length_nil, Nat.add_zero]

theorem mem_of_mem_before (h : d ∈ (partition c cs).1) : d ∈ cs :=
  (List.takeWhile_prefix _).subset h

theorem mem_of_mem_after (h : d ∈ (partition c cs).2) : d ∈ cs :=
  (List.dropWhile_suffix _).subset (List.mem_of_mem_drop h)

end Partition

/-! ## What is split and put together again -/

/-- A scheme in lower case. -/
structure IsScheme (scheme : List Char) : Prop where
  head : scheme.head?.any Char.isAlpha = true
  chars : ∀ c ∈ scheme, isSchemeChar c = true
  lower : scheme.map Char.toLower = scheme

/-- No part holds a character that ends it. -/
structure SplitResult.Parts (r : SplitResult) : Prop where
  netloc : ∀ c ∈ r.netloc, endsNetloc c = false
  path : r.netloc ≠ [] → r.path = [] ∨ r.path.head? = some '/'
  path_query : '?' ∉ r.path
  path_fragment : '#' ∉ r.path
  query : '#' ∉ r.query
  safe : ∀ c ∈ r.netloc ++ r.path ++ r.query ++ r.fragment, c ∉ unsafeChars

theorem colon_notMem_scheme {scheme : List Char} (h : ∀ c ∈ scheme, isSchemeChar c = true) :
    ':' ∉ scheme := fun hmem => absurd (h ':' hmem) (by decide)

theorem splitNetloc_spec (url : List Char) :
    (∀ c ∈ (splitNetloc url).1, endsNetloc c = false) ∧
      ((splitNetloc url).1 ≠ [] → ∀ c ∈ (splitNetloc url).2.head?, endsNetloc c = true) ∧
        ∀ c ∈ (splitNetloc url).1 ++ (splitNetloc url).2, c ∈ url := by
  fun_cases splitNetloc url with
  | case1 rest =>
      refine ⟨fun c hc => ?_, fun _ c hc => ?_, fun c hc => ?_⟩
      · simpa using List.mem_takeWhile_imp hc
      · simpa using head?_dropWhile rest c hc
      · rw [List.takeWhile_append_dropWhile] at hc
        exact List.mem_cons_of_mem _ (List.mem_cons_of_mem _ hc)
  | case2 url hurl =>
      exact ⟨fun c hc => absurd hc List.not_mem_nil, fun h => absurd rfl h, fun c hc => hc⟩

theorem mem_splitScheme {url : List Char} {c : Char} (h : c ∈ (splitScheme url).2) : c ∈ url := by
  unfold splitScheme at h
  dsimp only at h
  split_ifs at h with hscheme
  · exact mem_of_mem_after h
  · exact h

/-- The path of a URL with a network location is empty or begins with a slash. -/
theorem head_path {rest : List Char} (h : ∀ c ∈ rest.head?, endsNetloc c = true) :
    let path := (partition '?' (partition '#' rest).1).1
    path = [] ∨ path.head? = some '/' := by
  cases rest with
  | nil => exact .inl rfl
  | cons c rest =>
      have hc : c = '/' ∨ c = '?' ∨ c = '#' := by simpa [endsNetloc] using h c rfl
      obtain rfl | rfl | rfl := hc
      · exact .inr rfl
      · exact .inl rfl
      · exact .inl rfl

theorem parts_splitUrl (url : List Char) : (splitUrl url).Parts := by
  unfold splitUrl
  dsimp only
  generalize hrest : splitScheme _ = parts
  obtain ⟨hends, hhead, hmem⟩ := splitNetloc_spec parts.2
  have hsafe : ∀ c ∈ parts.2, c ∉ unsafeChars := fun c hc => by
    rw [← hrest] at hc
    simpa using (List.mem_filter.mp (mem_splitScheme hc)).2
  refine ⟨hends, fun hne => head_path (hhead hne), notMem_partition _ _, fun hc => ?_, fun hc => ?_,
    fun c hc => hsafe c (hmem c ?_)⟩
  · exact notMem_partition _ _ (mem_of_mem_before hc)
  · exact notMem_partition _ _ (mem_of_mem_after hc)
  · simp only [List.mem_append] at hc ⊢
    obtain ((hc | hc) | hc) | hc := hc
    · exact .inl hc
    · exact .inr (mem_of_mem_before (mem_of_mem_before hc))
    · exact .inr (mem_of_mem_before (mem_of_mem_after hc))
    · exact .inr (mem_of_mem_after hc)

theorem urlsplit_eq_ok {url : List Char} {r : SplitResult} : urlsplit url = .ok r ↔
    splitUrl url = r ∧ checkBrackets r.netloc = .ok () ∧ checkNetloc r.netloc = .ok () := by
  simp only [urlsplit, bind_eq_ok]
  constructor
  · rintro ⟨_, hbrackets, _, hnetloc, hr⟩
    obtain rfl := Except.ok.inj hr
    exact ⟨rfl, hbrackets, hnetloc⟩
  · rintro ⟨rfl, hbrackets, hnetloc⟩
    exact ⟨(), hbrackets, (), hnetloc, rfl⟩

/-- What stands behind the network location. -/
def SplitResult.tail (r : SplitResult) : List Char :=
  (r.path ++ withMark '?' r.query) ++ withMark '#' r.fragment

theorem urlunsplit_eq {r : SplitResult} (h : r.Parts) (hscheme : r.scheme ≠ [])
    (hnetloc : r.netloc ≠ []) :
    urlunsplit r = r.scheme ++ ':' :: '/' :: '/' :: (r.netloc ++ r.tail) := by
  unfold urlunsplit SplitResult.tail
  dsimp only
  rw [if_neg hscheme, if_pos hnetloc, if_pos (h.path hnetloc)]
  simp only [List.append_assoc, List.cons_append]

theorem mem_withMark {mark c : Char} {part : List Char} (h : c ∈ withMark mark part) :
    c = mark ∨ c ∈ part := by
  unfold withMark at h
  split_ifs at h with hpart
  · exact absurd h List.not_mem_nil
  · exact List.mem_cons.mp h

theorem head_withMark {mark c : Char} {part : List Char} (h : c ∈ (withMark mark part).head?) :
    c = mark := by
  unfold withMark at h
  split_ifs at h with hpart
  · exact absurd h (by simp)
  · exact (Option.mem_some_iff.mp h).symm

theorem SplitResult.Parts.head_tail {r : SplitResult} (h : r.Parts) (hnetloc : r.netloc ≠ []) :
    ∀ c ∈ r.tail.head?, endsNetloc c = true := by
  intro c hc
  unfold SplitResult.tail at hc
  by_cases hpath : r.path = []
  · rw [hpath, List.nil_append] at hc
    cases hquery : withMark '?' r.query with
    | nil =>
        rw [hquery, List.nil_append] at hc
        rw [head_withMark hc]
        decide
    | cons d rest =>
        have hd : d = '?' := head_withMark (by rw [hquery]; rfl)
        rw [hquery, hd] at hc
        obtain rfl : '?' = c := by simpa using hc
        decide
  · have hslash := (h.path hnetloc).resolve_left hpath
    rw [List.append_assoc, List.head?_append_of_ne_nil _ hpath, hslash] at hc
    obtain rfl : '/' = c := Option.mem_some_iff.mp hc
    decide

theorem isSchemeChar_spec {c : Char} (h : isSchemeChar c = true) :
    isControlOrSpace c = false ∧ c ∉ unsafeChars := by
  have hbound : 0x20 < c.toNat := by
    by_contra hle
    have hchar : ∀ n ∈ List.range 0x21, isSchemeChar (Char.ofNat n) = false :=
      forall_mem_of_all (by decide)
    rw [← Char.ofNat_toNat c, hchar c.toNat (List.mem_range.mpr (by omega))] at h
    exact absurd h Bool.false_ne_true
  refine ⟨by simpa [isControlOrSpace] using hbound, fun hmem => ?_⟩
  have hcontrol : ∀ d ∈ unsafeChars, d.toNat ≤ 0x20 := forall_mem_of_all (by decide)
  exact absurd (hcontrol c hmem) (by omega)

theorem IsScheme.ne_nil {scheme : List Char} (h : IsScheme scheme) : scheme ≠ [] := by
  rintro rfl
  exact absurd h.head (by decide)

theorem splitScheme_append {scheme : List Char} (h : IsScheme scheme) (rest : List Char) :
    splitScheme (scheme ++ ':' :: rest) = (scheme, rest) := by
  have halpha : (scheme ++ ':' :: rest).head?.any Char.isAlpha = true := by
    rw [List.head?_append_of_ne_nil _ h.ne_nil]
    exact h.head
  have hall : scheme.all isSchemeChar = true := List.all_eq_true.mpr h.chars
  unfold splitScheme
  dsimp only
  rw [partition_append (colon_notMem_scheme h.chars), if_pos ⟨by simp, halpha, hall⟩, h.lower]

/-- The parts of a URL whose scheme is written as it is read. -/
theorem splitUrl_append {scheme body : List Char} (h : IsScheme scheme)
    (hsafe : ∀ c ∈ body, c ∉ unsafeChars) : splitUrl (scheme ++ ':' :: '/' :: '/' :: body) =
      let rest := body.dropWhile fun c => !endsNetloc c
      let (url, fragment) := partition '#' rest
      ⟨scheme, body.takeWhile fun c => !endsNetloc c, (partition '?' url).1, (partition '?' url).2,
        fragment⟩ := by
  have hstart : (scheme ++ ':' :: '/' :: '/' :: body).dropWhile isControlOrSpace =
      scheme ++ ':' :: '/' :: '/' :: body := by
    obtain ⟨c, rest, hcons⟩ := List.exists_cons_of_ne_nil h.ne_nil
    have hc := (isSchemeChar_spec (h.chars c (by rw [hcons]; exact List.mem_cons_self))).1
    rw [hcons, List.cons_append, List.dropWhile_cons_of_neg (by rw [hc]; decide)]
  have hchars : ∀ c ∈ scheme ++ ':' :: '/' :: '/' :: body, decide (c ∉ unsafeChars) = true := by
    have hmark : ':' ∉ unsafeChars ∧ '/' ∉ unsafeChars := by decide
    intro c hc
    refine decide_eq_true ?_
    simp only [List.mem_append, List.mem_cons] at hc
    obtain hc | rfl | rfl | rfl | hc := hc
    · exact (isSchemeChar_spec (h.chars c hc)).2
    · exact hmark.1
    · exact hmark.2
    · exact hmark.2
    · exact hsafe c hc
  unfold splitUrl
  dsimp only
  rw [hstart, List.filter_eq_self.mpr hchars, splitScheme_append h]
  dsimp only
  rw [splitNetloc]

section RoundTrip

variable {r : SplitResult} (h : r.Parts) (hnetloc : r.netloc ≠ [])

include h hnetloc

/-- The network location ends where the path, the query or the fragment begins. -/
theorem takeWhile_netloc :
    (r.netloc ++ r.tail).takeWhile (fun c => !endsNetloc c) = r.netloc ∧
      (r.netloc ++ r.tail).dropWhile (fun c => !endsNetloc c) = r.tail :=
  takeWhile_run (fun c hc => by simp [h.netloc c hc])
    fun c hc => by simp [h.head_tail hnetloc c hc]

omit hnetloc in
theorem safe_body : ∀ c ∈ r.netloc ++ r.tail, c ∉ unsafeChars := by
  intro c hc
  have hmark : '?' ∉ unsafeChars ∧ '#' ∉ unsafeChars := by decide
  have hpart := h.safe c
  simp only [SplitResult.tail, List.mem_append] at hc hpart
  obtain hc | (hc | hc) | hc := hc
  · exact hpart (.inl (.inl (.inl hc)))
  · exact hpart (.inl (.inl (.inr hc)))
  · obtain rfl | hc := mem_withMark hc
    · exact hmark.1
    · exact hpart (.inl (.inr hc))
  · obtain rfl | hc := mem_withMark hc
    · exact hmark.2
    · exact hpart (.inr hc)

omit hnetloc in
theorem hash_notMem : '#' ∉ r.path ++ withMark '?' r.query := by
  intro hmem
  obtain hmem | hmem := List.mem_append.mp hmem
  · exact h.path_fragment hmem
  · obtain hmark | hmem := mem_withMark hmem
    · exact absurd hmark (by decide)
    · exact h.query hmem

/-- Parts of this kind are split again from the URL that they are put together to. -/
theorem splitUrl_urlunsplit (hscheme : IsScheme r.scheme) : splitUrl (urlunsplit r) = r := by
  obtain ⟨htake, hdrop⟩ := takeWhile_netloc h hnetloc
  rw [urlunsplit_eq h hscheme.ne_nil hnetloc, splitUrl_append hscheme (safe_body h), htake, hdrop]
  dsimp only
  rw [SplitResult.tail, partition_withMark (hash_notMem h)]
  dsimp only
  rw [partition_withMark h.path_query]

end RoundTrip

theorem urlunsplit_injective {r r' : SplitResult} (h : r.Parts) (h' : r'.Parts)
    (hscheme : IsScheme r.scheme) (hscheme' : IsScheme r'.scheme) (hnetloc : r.netloc ≠ [])
    (hnetloc' : r'.netloc ≠ []) (heq : urlunsplit r = urlunsplit r') : r = r' := by
  rw [← splitUrl_urlunsplit h hnetloc hscheme, heq, splitUrl_urlunsplit h' hnetloc' hscheme']

/-! ## Hosts and ports -/

theorem hostText_eq_self {netloc : List Char} (h : '@' ∉ netloc) : hostText netloc = netloc := by
  rw [hostText, List.rtakeWhile_eq_self_iff]
  exact fun c hc => decide_eq_true fun heq => h (heq ▸ hc)

theorem notMem_hostText (netloc : List Char) : '@' ∉ hostText netloc := fun h => by
  simpa using List.mem_rtakeWhile_imp h

theorem mem_of_mem_hostText {netloc : List Char} {c : Char} (h : c ∈ hostText netloc) :
    c ∈ netloc := (List.rtakeWhile_suffix _ _).subset h

theorem hostInfo_of_notMem {netloc : List Char} (huser : '@' ∉ netloc) (hopen : '[' ∉ netloc) :
    hostInfo netloc = partition ':' netloc := by
  rw [hostInfo, hostText_eq_self huser, if_neg hopen]

theorem mem_of_mem_host {netloc : List Char} {c : Char} (h : c ∈ (hostInfo netloc).1) :
    c ∈ hostText netloc := by
  unfold hostInfo at h
  dsimp only at h
  split_ifs at h with hopen
  · exact mem_of_mem_after (mem_of_mem_before h)
  · exact mem_of_mem_before h

/-- A host does not hold brackets of both kinds. -/
theorem bracket_notMem_host (netloc : List Char) :
    '[' ∉ (hostInfo netloc).1 ∨ ']' ∉ (hostInfo netloc).1 := by
  unfold hostInfo
  dsimp only
  split_ifs with hopen
  · exact .inr (notMem_partition _ _)
  · exact .inl fun h => hopen (mem_of_mem_before h)

theorem checkBrackets_of_notMem {netloc : List Char} (hopen : '[' ∉ netloc)
    (hclose : ']' ∉ netloc) : checkBrackets netloc = .ok () := by
  unfold checkBrackets
  rw [raiseIf, if_neg (by simp [hopen, hclose]), if_neg (by simp [hopen])]
  rfl

theorem brackets_of_checkBrackets {netloc : List Char} (h : checkBrackets netloc = .ok ()) :
    '[' ∈ netloc ↔ ']' ∈ netloc := by
  unfold checkBrackets at h
  obtain ⟨⟨⟩, hraise, -⟩ := bind_eq_ok.mp h
  exact not_not.mp (raiseIf_eq_ok.mp hraise)

theorem checkNetloc_eq_ok {netloc : List Char} :
    checkNetloc netloc = .ok () ↔ ∀ c ∈ netloc, c ∉ expanding := by
  rw [checkNetloc, raiseIf_eq_ok, Bool.not_eq_true, List.any_eq_false]
  simp

theorem parsePort_toDigits {n : ℕ} (hn : n ≤ 65535) :
    parsePort (Nat.toDigits 10 n) = .ok (some n) := by
  have hlength : ¬4300 < (Nat.toDigits 10 n).length := by
    have hle : (Nat.toDigits 10 n).length ≤ 5 := by
      rw [Nat.length_toDigits_le_iff (by decide) (by decide)]
      omega
    omega
  unfold parsePort
  rw [if_neg Nat.toDigits_ne_nil, raiseIf, raiseIf, raiseIf, isDecimal_toDigits,
    ofDigitTexts_toDigits (by decide) (by decide), if_neg (by simp), if_neg hlength,
    if_neg (by omega)]
  rfl

theorem parsePort_eq_some {port : List Char} {n : ℕ} (h : parsePort port = .ok (some n)) :
    n ≤ 65535 := by
  unfold parsePort at h
  split_ifs at h with hnil
  · exact absurd h (by simp [pure, Except.pure])
  · simp only [bind_eq_ok, raiseIf_eq_ok] at h
    obtain ⟨_, -, _, -, _, hrange, hn⟩ := h
    obtain rfl := Option.some.inj (Except.ok.inj hn)
    omega

section Lower

variable {lc : LowerCase} {cs : List Char}

/-- Caseless characters stand in the lower case of a host exactly if they stand in it. -/
theorem LowerCase.mem_host {c : Char} (hc : isCaseless c = true) :
    c ∈ lc.host cs ↔ c ∈ cs := by
  unfold LowerCase.host
  dsimp only
  rw [List.mem_append, lc.mem_lower _ _ hc]
  by_cases hzone : '%' ∈ cs
  · rw [if_pos hzone, ← List.mem_append, ← partition_eq hzone]
  · rw [if_neg hzone, partition_of_notMem hzone]
    simp

theorem LowerCase.host_ne_nil (h : cs ≠ []) : lc.host cs ≠ [] := by
  unfold LowerCase.host
  dsimp only
  by_cases hzone : '%' ∈ cs
  · rw [if_pos hzone]
    simp
  · rw [if_neg hzone, partition_of_notMem hzone, List.append_nil]
    exact lc.lower_ne_nil _ h

/-- What is in lower case is left alone. -/
theorem LowerCase.host_eq_self {ds : List Char} (h : ∀ d ∈ ds, d ∈ lc.lower cs) :
    lc.host ds = ds := by
  unfold LowerCase.host
  dsimp only
  rw [lc.lower_eq_self cs _ fun d hd => h d (mem_of_mem_before hd)]
  by_cases hzone : '%' ∈ ds
  · rw [if_pos hzone, ← partition_eq hzone]
  · rw [if_neg hzone, partition_of_notMem hzone, List.append_nil]

end Lower

end Python
