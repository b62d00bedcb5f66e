import Mathlib.Data.List.Pairwise
import Zyntry.RuntimeUpdate
import Zyntry.WhileLoops

/-!
# Crawling a website

The crawler takes pages from a queue until enough of them have text. Pages without text and
redirects to another origin cost a fetch and leave nothing, so that the fetches are bounded
exactly where such pages are. What the network answers, what is read of a page and how URLs are
taken apart are inputs.
-/

namespace Zyntry

open Python

/-! ## Pages -/

inductive CrawlError where
  /-- `httpx.HTTPError`. -/
  | httpError (message : String)
  | valueError (message : String)
  /-- Any other exception. -/
  | other
deriving DecidableEq, Repr

structure HttpResponse where
  url : String
  isRedirect : Bool
  location : Option String
  /-- What `raise_for_status` raises. -/
  statusError : Option String
  contentLength : ℕ
  contentType : String
  text : String
  /-- What is read of an HTML document: its title, the lines of its text and its references. -/
  title : Option String
  textLines : List String
  hrefs : List String

/-- A website as it is met, and the functions of `urllib.parse`. -/
structure Website where
  /-- The message of `validate_outbound_url`, for a destination that is refused. -/
  refusal : String → Option String
  get : String → Except CrawlError HttpResponse
  urljoin : String → String → Except CrawlError String
  /-- `urldefrag(url)[0]` -/
  urldefrag : String → Except CrawlError String
  /-- The scheme of a URL, and its network location in lower case. -/
  urlparse : String → Except CrawlError (String × String)

section Fetching

variable (site : Website)

def privateDestinations : String := "Private outbound destinations"

/-- `_validate_public_url`. -/
def Website.validatePublicUrl (url : String) : Except CrawlError Unit :=
  match site.refusal url with
  | none => .ok ()
  | some message => .error (.valueError (
      if isInfix privateDestinations message then
        "Private or local website addresses are not allowed"
      else message))

def tooManyRedirects : CrawlError := .valueError "Website redirected too many times"

/-- The loop of `_fetch`, for a number of rounds. -/
def fetchFrom : ℕ → String → Except CrawlError HttpResponse
  | 0, _ => .error tooManyRedirects
  | rounds + 1, current => do
      site.validatePublicUrl current
      let response ← site.get current
      if response.isRedirect then
        if response.location.getD "" = "" then .error tooManyRedirects
        else
          let next ← site.urljoin current (response.location.getD "")
          fetchFrom rounds next
      else
        match response.statusError with
        | some message => .error (.httpError message)
        | none =>
            if 2000000 < response.contentLength then
              .error (.valueError "Website response is too large")
            else .ok response

/-- `_fetch`. -/
def fetchPage (url : String) : Except CrawlError HttpResponse := fetchFrom site 6 url

/-- `_extract_page`: title, text and links. -/
def extractPage (url : String) (response : HttpResponse) :
    Except CrawlError (String × String × List String) :=
  let contentType := lower response.contentType
  if !isInfix "text/html" contentType ∧ !isInfix "text/plain" contentType then
    .error (.valueError "Website did not return HTML or plain text")
  else if isInfix "text/plain" contentType then .ok (url, stripped response.text, [])
  else do
    let links ← response.hrefs.mapM (site.urljoin url)
    let lines := (response.textLines.map stripped).filter (· ≠ "")
    return (response.title.getD url, "\n".intercalate lines, links)

/-! ## The crawl -/

structure PageItem where
  url : String
  title : String
  contentLength : ℕ
  contentType : String
  content : Option String
deriving DecidableEq, Repr

/-- A page is fetched and extracted: the item that is made of it, and its links. A page of another
origin has neither. -/
def visitPage (origin : String) (includeContent : Bool) (url : String) :
    Except CrawlError (Option PageItem × List String) := do
  let response ← fetchPage site url
  let finalUrl ← site.urldefrag response.url
  let (_, netloc) ← site.urlparse finalUrl
  if netloc ≠ origin then return (none, [])
  else
    let (title, text, links) ← extractPage site finalUrl response
    if text = "" then return (none, links)
    else
      return (some ⟨finalUrl, title, text.length, response.contentType,
        if includeContent then some text else none⟩, links)

structure CrawlState where
  queue : List String
  queued : List String
  visited : List String
  items : List PageItem

/-- What a link adds to the queue. -/
def enqueueLink (origin : String) (s : CrawlState) (link : String) :
    Except CrawlError CrawlState := do
  let normalized ← site.urldefrag link
  let (scheme, netloc) ← site.urlparse normalized
  return if scheme ∈ ["http", "https"] ∧ netloc = origin ∧ normalized ∉ s.queued then
    { s with queue := s.queue ++ [normalized], queued := s.queued ++ [normalized] }
  else s

end Fetching

/-- A crawl: the website, the settings of the source, and whether content is included. -/
structure Crawl where
  site : Website
  config : Fields
  credentials : Fields
  includeContent : Bool

namespace Crawl

variable (x : Crawl)

/-- `_url`. -/
def sourceUrl : Option String :=
  let configured := (Json.lookup "url" x.config).filter Json.truthy
  match configured.or (Json.lookup "url" x.credentials) with
  | some (.str value) => if stripped value = "" then none else some (stripped value)
  | _ => none

def maxPages : ℕ :=
  match int ((Json.lookup "max_pages" x.config).getD (.int 10)) with
  | .ok requested => (max 1 (min requested 25)).toNat
  | .error _ => 10

/-- The URL to start with and its origin. -/
def start : Except CrawlError (String × String) :=
  match x.sourceUrl with
  | none => .error (.valueError "Missing website URL")
  | some url => do
      let url ← x.site.urldefrag url
      let (_, origin) ← x.site.urlparse url
      return (url, origin)

def initial (url : String) : CrawlState := ⟨[url], [url], [], []⟩

/-- The page of a URL that has left the queue. -/
def turnPage (origin : String) (s : CrawlState) (url : String) : Except CrawlError CrawlState := do
  let (item, links) ← visitPage x.site origin x.includeContent url
  links.foldlM (enqueueLink x.site origin) { s with
    visited := s.visited ++ [url], items := s.items ++ item.toList }

/-- The end of a crawl: what has been fetched, and what `_crawl` returns or raises. -/
structure Outcome where
  visited : List String
  result : Except CrawlError (List PageItem)

/-- A round of the loop. -/
def round (origin : String) (s : CrawlState) : CrawlState ⊕ Outcome :=
  match s.queue with
  | [] => .inr ⟨s.visited, .ok s.items⟩
  | url :: queue =>
      if x.maxPages ≤ s.items.length then .inr ⟨s.visited, .ok s.items⟩
      else if url ∈ s.visited then .inl { s with queue := queue }
      else
        match x.turnPage origin { s with queue := queue } url with
        | .ok s' => .inl s'
        | .error e => .inr ⟨s.visited ++ [url], .error e⟩

/-- `_crawl`, for at most a number of rounds. -/
def run (rounds : ℕ) : Option Outcome :=
  match x.start with
  | .error e => some ⟨[], .error e⟩
  | .ok (url, origin) => While.run (x.round origin) rounds (initial url)

/-- A state that the crawl comes to. -/
def Comes (s : CrawlState) : Prop :=
  ∃ url origin, x.start = .ok (url, origin) ∧ While.Reaches (x.round origin) (initial url) s

/-- The item that is made of a page, if there is one. -/
def itemOf (url : String) : Option PageItem :=
  match x.start with
  | .error _ => none
  | .ok (_, origin) =>
      match visitPage x.site origin x.includeContent url with
      | .ok (item, _) => item
      | .error _ => none

/-- How many of the visited pages left no item. -/
def fruitless (s : CrawlState) : ℕ := s.visited.countP fun url => (x.itemOf url).isNone

/-- The item lies on the origin that the crawl started with. -/
def FromStart (item : PageItem) : Prop :=
  ∃ url origin scheme, x.start = .ok (url, origin) ∧
    x.site.urlparse item.url = .ok (scheme, origin)

end Crawl

/-- The fetches are bounded by a function of the limit for pages alone, and the items are few,
of the origin and distinct. -/
structure BoundedCrawls (crawls : Set Crawl) : Prop where
  fetches : ∃ bound : ℕ → ℕ, ∀ x ∈ crawls, ∃ rounds outcome,
    x.run rounds = some outcome ∧ outcome.visited.length ≤ bound x.maxPages
  items : ∀ x ∈ crawls, ∀ rounds visited items, x.run rounds = some ⟨visited, .ok items⟩ →
    items.length ≤ x.maxPages ∧ (∀ item ∈ items, x.FromStart item) ∧
      (items.map PageItem.url).Nodup

/-- Pages without items are bounded, and no two pages lead to items of one URL. -/
structure FruitfulCrawls (crawls : Set Crawl) : Prop where
  fruitless : ∃ bound : ℕ → ℕ, ∀ x ∈ crawls, ∀ s, x.Comes s → x.fruitless s ≤ bound x.maxPages
  distinct : ∀ x ∈ crawls, ∀ rounds visited items, x.run rounds = some ⟨visited, .ok items⟩ →
    ∀ u ∈ visited, ∀ v ∈ visited, ∀ item ∈ x.itemOf u, ∀ item' ∈ x.itemOf v,
      item.url = item'.url → u = v

/-! ## What a round keeps -/

theorem enqueueLink_eq {site : Website} {origin link : String} {s s' : CrawlState}
    (h : enqueueLink site origin s link = .ok s') :
    s' = s ∨ ∃ url, url ∉ s.queued ∧
      s' = { s with queue := s.queue ++ [url], queued := s.queued ++ [url] } := by
  unfold enqueueLink at h
  obtain ⟨normalized, -, h⟩ := bind_eq_ok.mp h
  obtain ⟨⟨scheme, netloc⟩, -, h⟩ := bind_eq_ok.mp h
  dsimp only at h
  split_ifs at h with hnew
  · exact .inr ⟨normalized, hnew.2.2, (Except.ok.inj h).symm⟩
  · exact .inl (Except.ok.inj h).symm

/-- The links of a page add new URLs at the end of the queue. -/
theorem enqueueLinks_eq {site : Website} {origin : String} {links : List String}
    {s s' : CrawlState} (h : links.foldlM (enqueueLink site origin) s = .ok s')
    (hnodup : s.queued.Nodup) : ∃ urls, (s.queued ++ urls).Nodup ∧
      s' = { s with queue := s.queue ++ urls, queued := s.queued ++ urls } := by
  induction links generalizing s with
  | nil =>
      cases h
      exact ⟨[], by simpa using hnodup, by simp⟩
  | cons link links ih =>
      rw [List.foldlM_cons] at h
      obtain ⟨s₁, hlink, hlinks⟩ := bind_eq_ok.mp h
      rcases enqueueLink_eq hlink with rfl | ⟨url, hurl, rfl⟩
      · exact ih hlinks hnodup
      · have hnodup' : (s.queued ++ [url]).Nodup := by
          rw [List.nodup_append]
          exact ⟨hnodup, by simp, fun a ha b hb hab =>
            hurl (List.mem_singleton.mp hb ▸ hab ▸ ha)⟩
        obtain ⟨urls, hurls, rfl⟩ := ih hlinks hnodup'
        exact ⟨url :: urls, by simpa using hurls, by simp⟩

namespace Crawl

variable {x : Crawl} {origin : String} {s s' : CrawlState}

theorem turnPage_eq {url : String} (h : x.turnPage origin s url = .ok s')
    (hnodup : s.queued.Nodup) : ∃ item links urls,
      visitPage x.site origin x.includeContent url = .ok (item, links) ∧
        (s.queued ++ urls).Nodup ∧ s' = ⟨s.queue ++ urls, s.queued ++ urls, s.visited ++ [url],
          s.items ++ item.toList⟩ := by
  unfold turnPage at h
  obtain ⟨⟨item, links⟩, hvisit, hlinks⟩ := bind_eq_ok.mp h
  obtain ⟨urls, hurls, rfl⟩ := enqueueLinks_eq hlinks hnodup
  exact ⟨item, links, urls, hvisit, hurls, rfl⟩

/-- The queue holds what is queued and not visited, and the items are those of the visited pages. -/
structure Consistent (x : Crawl) (s : CrawlState) : Prop where
  split : s.queued = s.visited ++ s.queue
  nodup : s.queued.Nodup
  items : s.items = s.visited.filterMap x.itemOf
  few : s.items.length ≤ x.maxPages

theorem one_le_maxPages (x : Crawl) : 1 ≤ x.maxPages := by
  unfold maxPages
  split <;> omega

theorem consistent_initial (url : String) : x.Consistent (initial url) where
  split := rfl
  nodup := by simp [initial]
  items := rfl
  few := Nat.zero_le _

theorem itemOf_eq {url first : String} {item : Option PageItem} {links : List String}
    (hstart : x.start = .ok (first, origin))
    (hvisit : visitPage x.site origin x.includeContent url = .ok (item, links)) :
    x.itemOf url = item := by
  simp only [itemOf, hstart, hvisit]

/-- What a round that goes on has done: it has turned the first page of the queue. -/
theorem round_eq_inl (hs : x.Consistent s) (h : x.round origin s = .inl s') :
    s.items.length < x.maxPages ∧ ∃ url queue, s.queue = url :: queue ∧
      x.turnPage origin { s with queue := queue } url = .ok s' := by
  unfold round at h
  split at h
  · cases h
  · next url queue hqueue =>
      split_ifs at h with hmany hvisited
      · have hnodup := hs.nodup
        rw [hs.split, hqueue] at hnodup
        exact absurd rfl ((List.nodup_append.mp hnodup).2.2 url hvisited url List.mem_cons_self)
      · refine ⟨not_le.mp hmany, url, queue, hqueue, ?_⟩
        split at h
        · next hturn =>
            cases h
            exact hturn
        · cases h

/-- A round visits one more page, and makes the item of it. -/
theorem Consistent.round {first : String} (hstart : x.start = .ok (first, origin))
    (hs : x.Consistent s) (h : x.round origin s = .inl s') :
    x.Consistent s' ∧ ∃ url, s'.visited = s.visited ++ [url] := by
  obtain ⟨hfew, url, queue, hqueue, hturn⟩ := round_eq_inl hs h
  obtain ⟨item, links, urls, hvisit, hnodup, rfl⟩ := turnPage_eq hturn hs.nodup
  refine ⟨⟨?_, hnodup, ?_, ?_⟩, url, rfl⟩
  · dsimp only
    rw [hs.split, hqueue]
    simp
  · dsimp only
    rw [hs.items, List.filterMap_append]
    congr 1
    rw [List.filterMap_cons, itemOf_eq hstart hvisit]
    cases item <;> rfl
  · dsimp only
    rw [List.length_append]
    have hitem : item.toList.length ≤ 1 := by cases item <;> simp
    omega

theorem Comes.consistent (h : x.Comes s) : x.Consistent s := by
  obtain ⟨first, origin, hstart, hreaches⟩ := h
  exact hreaches.invariant (fun _ _ hs hround => (hs.round hstart hround).1)
    (consistent_initial first)

/-- Every page that is fetched leaves an item or is fruitless. -/
theorem Comes.length_visited (h : x.Comes s) :
    s.visited.length = s.items.length + x.fruitless s := by
  rw [h.consistent.items, fruitless]
  induction s.visited with
  | nil => rfl
  | cons url visited ih =>
      rw [List.filterMap_cons, List.countP_cons, List.length_cons, ih]
      cases x.itemOf url <;> simp <;> omega

/-! ## How a crawl ends -/

theorem round_eq_inr {outcome : Outcome} (h : x.round origin s = .inr outcome) :
    outcome = ⟨s.visited, .ok s.items⟩ ∨ ∃ url queue e, s.queue = url :: queue ∧
      x.turnPage origin { s with queue := queue } url = .error e ∧
        outcome = ⟨s.visited ++ [url], .error e⟩ := by
  unfold round at h
  split at h
  · exact .inl (Sum.inr.inj h).symm
  · next url queue hqueue =>
      split_ifs at h
      · exact .inl (Sum.inr.inj h).symm
      · split at h
        · cases h
        · next e hturn => exact .inr ⟨url, queue, e, hqueue, hturn, (Sum.inr.inj h).symm⟩

theorem length_visited_of_inr {outcome : Outcome} (h : x.round origin s = .inr outcome) :
    s.visited.length ≤ outcome.visited.length ∧
      outcome.visited.length ≤ s.visited.length + 1 := by
  rcases round_eq_inr h with rfl | ⟨url, queue, e, -, -, rfl⟩ <;> simp

theorem eq_of_inr_ok {visited : List String} {items : List PageItem}
    (h : x.round origin s = .inr ⟨visited, .ok items⟩) :
    visited = s.visited ∧ items = s.items := by
  rcases round_eq_inr h with heq | ⟨url, queue, e, -, -, heq⟩ <;> cases heq
  exact ⟨rfl, rfl⟩

theorem run_of_start {first : String} (hstart : x.start = .ok (first, origin)) (rounds : ℕ) :
    x.run rounds = While.run (x.round origin) rounds (initial first) := by
  simp only [run, hstart]

/-- A crawl that returns items comes to a state with them. -/
theorem exists_comes_of_run {rounds : ℕ} {visited : List String} {items : List PageItem}
    (h : x.run rounds = some ⟨visited, .ok items⟩) :
    ∃ s, x.Comes s ∧ visited = s.visited ∧ items = s.items := by
  cases hstart : x.start with
  | error e => simp [run, hstart] at h
  | ok found =>
      obtain ⟨first, origin⟩ := found
      rw [run_of_start hstart] at h
      obtain ⟨s, hreaches, hleave⟩ := While.reaches_of_run h
      exact ⟨s, ⟨first, origin, hstart, hreaches⟩, eq_of_inr_ok hleave⟩

theorem fromStart_of_itemOf {url : String} {item : PageItem} (h : item ∈ x.itemOf url) :
    x.FromStart item := by
  unfold itemOf at h
  split at h
  · cases h
  · next first origin hstart =>
      split at h
      · next found links hvisit =>
          obtain rfl : found = some item := h
          unfold visitPage at hvisit
          obtain ⟨response, -, hvisit⟩ := bind_eq_ok.mp hvisit
          obtain ⟨finalUrl, -, hvisit⟩ := bind_eq_ok.mp hvisit
          obtain ⟨⟨scheme, netloc⟩, hparse, hvisit⟩ := bind_eq_ok.mp hvisit
          dsimp only at hvisit
          by_cases horigin : netloc = origin
          · rw [if_neg (not_not.mpr horigin)] at hvisit
            obtain ⟨⟨title, text, links'⟩, -, hvisit⟩ := bind_eq_ok.mp hvisit
            dsimp only at hvisit
            by_cases htext : text = ""
            · rw [if_pos htext] at hvisit
              cases hvisit
            · rw [if_neg htext] at hvisit
              cases hvisit
              exact ⟨first, origin, scheme, hstart, horigin ▸ hparse⟩
          · rw [if_pos horigin] at hvisit
            cases hvisit
      · cases h

theorem Comes.nodup_visited (h : x.Comes s) : s.visited.Nodup := by
  have hnodup := h.consistent.nodup
  rw [h.consistent.split] at hnodup
  exact (List.nodup_append.mp hnodup).1

/-- The items of the visited pages have distinct URLs if no two pages lead to one. -/
theorem Comes.nodup_items_iff (h : x.Comes s) : (s.items.map PageItem.url).Nodup ↔
    ∀ u ∈ s.visited, ∀ v ∈ s.visited, ∀ item ∈ x.itemOf u, ∀ item' ∈ x.itemOf v,
      item.url = item'.url → u = v := by
  have hdistinct : s.visited.Pairwise (· ≠ ·) := h.nodup_visited
  rw [h.consistent.items, List.Nodup, List.pairwise_map, List.pairwise_filterMap]
  constructor
  · intro hpairs u hu v hv item hitem item' hitem' hsame
    by_contra hne
    have hsymm : Std.Symm fun u v => ∀ item, x.itemOf u = some item →
        ∀ item', x.itemOf v = some item' → item.url ≠ item'.url :=
      ⟨fun u v huv item hitem item' hitem' => (huv item' hitem' item hitem).symm⟩
    exact hpairs.forall hu hv hne item hitem item' hitem' hsame
  · intro hinjective
    refine hdistinct.imp_of_mem fun {u v} hu hv hne item hitem item' hitem' hsame => hne ?_
    exact hinjective u hu v hv item hitem item' hitem' hsame

/-- With few fruitless pages, the crawl ends after few fetches. -/
theorem ends_of_fruitless {bound : ℕ} (h : ∀ s, x.Comes s → x.fruitless s ≤ bound) :
    ∃ rounds outcome, x.run rounds = some outcome ∧
      outcome.visited.length ≤ x.maxPages + bound + 1 := by
  cases hstart : x.start with
  | error e => exact ⟨0, ⟨[], .error e⟩, by simp [run, hstart], Nat.zero_le _⟩
  | ok found =>
      obtain ⟨first, origin⟩ := found
      have hcomes : ∀ s, While.Reaches (x.round origin) (initial first) s → x.Comes s :=
        fun s hs => ⟨first, origin, hstart, hs⟩
      have hvisited : ∀ s, While.Reaches (x.round origin) (initial first) s →
          s.visited.length ≤ x.maxPages + bound := by
        intro s hs
        have hfew := (hcomes s hs).consistent.few
        have hfruitless := h s (hcomes s hs)
        rw [(hcomes s hs).length_visited]
        omega
      obtain ⟨rounds, hends⟩ : While.Ends (x.round origin) (initial first) := by
        refine While.ends_of_bound (fun s => s.visited.length) _ ?_ hvisited
        intro s s' hs hround
        obtain ⟨-, url, hurl⟩ := (hcomes s hs).consistent.round hstart hround
        rw [hurl, List.length_append]
        exact Nat.lt_succ_self _
      obtain ⟨outcome, houtcome⟩ := Option.isSome_iff_exists.mp hends
      obtain ⟨s, hs, hleave⟩ := While.reaches_of_run houtcome
      refine ⟨rounds, outcome, by rw [run_of_start hstart, houtcome], ?_⟩
      exact (length_visited_of_inr hleave).2.trans (Nat.succ_le_succ (hvisited s hs))

/-- What a crawl has visited when it ends includes what it has visited before. -/
theorem Comes.length_visited_le {rounds : ℕ} {outcome : Outcome} (h : x.Comes s)
    (hrun : x.run rounds = some outcome) : s.visited.length ≤ outcome.visited.length := by
  obtain ⟨first, origin, hstart, hreaches⟩ := h
  rw [run_of_start hstart] at hrun
  obtain ⟨m, hm⟩ := hreaches.run hrun
  obtain ⟨s', hs', hleave⟩ := While.reaches_of_run hm
  refine le_trans ?_ (length_visited_of_inr hleave).1
  have hgrow : x.Comes s' ∧ s.visited.length ≤ s'.visited.length := by
    refine hs'.invariant (I := fun s₁ => x.Comes s₁ ∧ s.visited.length ≤ s₁.visited.length)
      (fun s₁ s₂ h₁ hround => ?_) ⟨⟨first, origin, hstart, hreaches⟩, le_rfl⟩
    obtain ⟨⟨first', origin', hstart', h₁'⟩, hle⟩ := h₁
    cases hstart.symm.trans hstart'
    have hcomes : x.Comes s₁ := ⟨first, origin, hstart, h₁'⟩
    refine ⟨⟨first, origin, hstart, h₁'.tail hround⟩, hle.trans ?_⟩
    obtain ⟨-, url, hurl⟩ := hcomes.consistent.round hstart hround
    rw [hurl, List.length_append]
    exact Nat.le_add_right _ _
  exact hgrow.2

end Crawl

/-- Crawls are bounded exactly where their fruitless pages are and where no two pages lead to
one. -/
theorem boundedCrawls_iff (crawls : Set Crawl) : BoundedCrawls crawls ↔ FruitfulCrawls crawls := by
  constructor
  · rintro ⟨⟨bound, hbound⟩, hitems⟩
    refine ⟨⟨bound, fun x hx s hs => ?_⟩, fun x hx rounds visited items hrun => ?_⟩
    · obtain ⟨rounds, outcome, hrun, hfew⟩ := hbound x hx
      exact (List.countP_le_length.trans (hs.length_visited_le hrun)).trans hfew
    · obtain ⟨s, hs, rfl, rfl⟩ := Crawl.exists_comes_of_run hrun
      exact hs.nodup_items_iff.mp (hitems x hx rounds _ _ hrun).2.2
  · rintro ⟨⟨bound, hbound⟩, hdistinct⟩
    refine ⟨⟨fun m => m + bound m + 1, fun x hx => Crawl.ends_of_fruitless (hbound x hx)⟩, ?_⟩
    intro x hx rounds visited items hrun
    obtain ⟨s, hs, rfl, rfl⟩ := Crawl.exists_comes_of_run hrun
    refine ⟨hs.consistent.few, fun item hitem => ?_, ?_⟩
    · rw [hs.consistent.items] at hitem
      obtain ⟨url, -, hurl⟩ := List.mem_filterMap.mp hitem
      exact Crawl.fromStart_of_itemOf hurl
    · exact hs.nodup_items_iff.mpr (hdistinct x hx rounds _ _ hrun)

/-! ## Two small websites -/

def htmlResponse (url text : String) (hrefs : List String) : HttpResponse where
  url := url
  isRedirect := false
  location := none
  statusError := none
  contentLength := text.length
  contentType := "text/html"
  text := text
  title := none
  textLines := [text]
  hrefs := hrefs

/-- A website with absolute references on one origin. -/
def siteOf (get : String → HttpResponse) : Website where
  refusal _ := none
  get url := .ok (get url)
  urljoin _ href := .ok href
  urldefrag url := .ok url
  urlparse _ := .ok ("http", "site.test")

def crawlOf (get : String → HttpResponse) : Crawl where
  site := siteOf get
  config := [("url", .str "http://site.test/")]
  credentials := []
  includeContent := true

/-- Every page is empty and links to a page with a longer URL. -/
def endlessCrawl : Crawl := crawlOf fun url => htmlResponse url "" [url ++ "x"]

theorem visitPage_endlessCrawl (url : String) :
    visitPage endlessCrawl.site "site.test" true url = .ok (none, [url ++ "x"]) := by
  have hfetch : fetchPage endlessCrawl.site url = .ok (htmlResponse url "" [url ++ "x"]) := by
    simp [fetchPage, fetchFrom, endlessCrawl, crawlOf, siteOf, Website.validatePublicUrl, htmlResponse,
      bind, Except.bind]
  have hextract : extractPage endlessCrawl.site url (htmlResponse url "" [url ++ "x"]) =
      .ok (url, "", [url ++ "x"]) := by
    have hlines : (([""].map stripped).filter (· ≠ "")) = [] := by decide
    have hhtml : isInfix "text/html" (lower "text/html") = true := by decide
    have hplain : isInfix "text/plain" (lower "text/html") = false := by decide
    have hjoin : [url ++ "x"].mapM (endlessCrawl.site.urljoin url) = .ok [url ++ "x"] := by
      simp [endlessCrawl, crawlOf, siteOf, List.mapM_cons, bind, Except.bind, pure, Except.pure]
    unfold extractPage htmlResponse
    simp only [hhtml, hplain, hlines, hjoin]
    rfl
  have hdefrag : endlessCrawl.site.urldefrag url = .ok url := rfl
  have hparse : endlessCrawl.site.urlparse url = .ok ("http", "site.test") := rfl
  have hurl : (htmlResponse url "" [url ++ "x"]).url = url := rfl
  simp [visitPage, hfetch, hurl, hdefrag, hparse, hextract, bind, Except.bind, pure, Except.pure]

theorem turnPage_endlessCrawl {s : CrawlState} {url : String} (h : url ++ "x" ∉ s.queued) :
    endlessCrawl.turnPage "site.test" s url = .ok ⟨s.queue ++ [url ++ "x"],
      s.queued ++ [url ++ "x"], s.visited ++ [url], s.items⟩ := by
  have hlink : ∀ s' : CrawlState, s'.queued = s.queued →
      enqueueLink endlessCrawl.site "site.test" s' (url ++ "x") = .ok { s' with
        queue := s'.queue ++ [url ++ "x"], queued := s'.queued ++ [url ++ "x"] } := by
    intro s' hs'
    change Except.ok (if _ then _ else _) = _
    rw [if_pos ⟨by simp, rfl, hs' ▸ h⟩]
  change (visitPage endlessCrawl.site "site.test" true url >>= _) = _
  rw [visitPage_endlessCrawl]
  change [url ++ "x"].foldlM (enqueueLink endlessCrawl.site "site.test") _ = _
  rw [List.foldlM_cons, hlink ⟨s.queue, s.queued, s.visited ++ [url], s.items ++ none.toList⟩ rfl]
  simp [bind, Except.bind, pure, Except.pure]

/-- One page is waiting, and its URL is longer than all others. -/
def OneLonger (s : CrawlState) : Prop :=
  s.items = [] ∧ ∃ url, s.queue = [url] ∧ (∀ u ∈ s.queued, u.length ≤ url.length) ∧
    ∀ u ∈ s.visited, u.length < url.length

theorem OneLonger.round {s : CrawlState} (hs : OneLonger s) :
    ∃ s', endlessCrawl.round "site.test" s = .inl s' ∧ OneLonger s' := by
  obtain ⟨hitems, url, hqueue, hqueued, hvisited⟩ := hs
  have hlonger : url.length < (url ++ "x").length := by
    rw [String.length_append]
    exact Nat.lt_succ_self _
  have hturn := @turnPage_endlessCrawl { s with queue := [] } url
    fun hmem => absurd (hqueued _ hmem) (not_le.mpr hlonger)
  refine ⟨⟨[url ++ "x"], s.queued ++ [url ++ "x"], s.visited ++ [url], s.items⟩, ?_, hitems,
    url ++ "x", rfl, ?_, ?_⟩
  · have hfew : ¬endlessCrawl.maxPages ≤ s.items.length := by
      rw [hitems]
      exact not_le.mpr endlessCrawl.one_le_maxPages
    have hnew : url ∉ s.visited := fun hmem => absurd (hvisited url hmem) (lt_irrefl _)
    unfold Crawl.round
    rw [hqueue]
    dsimp only
    rw [if_neg hfew, if_neg hnew, hturn]
    rfl
  · intro u hu
    rcases List.mem_append.mp hu with hu | hu
    · exact (hqueued u hu).trans hlonger.le
    · rw [List.mem_singleton.mp hu]
  · intro u hu
    rcases List.mem_append.mp hu with hu | hu
    · exact (hvisited u hu).trans hlonger
    · rwa [List.mem_singleton.mp hu]

theorem endlessCrawl_never_ends (rounds : ℕ) : endlessCrawl.run rounds = none := by
  have hstart : endlessCrawl.start = .ok ("http://site.test/", "site.test") := rfl
  have hinitial : OneLonger (Crawl.initial "http://site.test/") :=
    ⟨rfl, "http://site.test/", rfl, fun u hu => by rw [List.mem_singleton.mp hu], nofun⟩
  have hnever := While.not_ends_of_invariant (fun s hs => OneLonger.round hs) hinitial
  rw [Crawl.run_of_start hstart]
  exact Option.not_isSome_iff_eq_none.mp fun hsome => hnever ⟨rounds, hsome⟩

/-- The page at another URL redirects to the first one. -/
def mirrorCrawl : Crawl := crawlOf fun url =>
  if url = "http://site.test/" then htmlResponse url "Hello" ["http://site.test/home"]
  else { htmlResponse url "" [] with isRedirect := true, location := some "http://site.test/" }

theorem crawls_not_bounded : ¬BoundedCrawls {endlessCrawl} ∧ ¬BoundedCrawls {mirrorCrawl} := by
  constructor
  · rintro ⟨⟨bound, hbound⟩, -⟩
    obtain ⟨rounds, outcome, hrun, -⟩ := hbound endlessCrawl rfl
    rw [endlessCrawl_never_ends] at hrun
    cases hrun
  · rintro ⟨-, hitems⟩
    have hdistinct := (hitems mirrorCrawl rfl 3 _ _ rfl).2.2
    revert hdistinct
    decide

end Zyntry
