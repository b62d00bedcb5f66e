import Zyntry.WebsiteCrawl

/-!
# Synchronising a website

An error of one page ends the whole crawl, and the synchronisation then returns no page at all.
What could have been fetched and extracted is said by a crawl that passes over the pages that
fail.
-/

namespace Zyntry

open Python

/-- The message of an error that `sync` catches. -/
def CrawlError.caught : CrawlError → Option String
  | httpError message => some message
  | valueError message => some message
  | other => none

/-- What `sync` returns, without its identifier and its time. -/
structure SyncReport where
  status : String
  items : List PageItem
  error : Option String
deriving DecidableEq, Repr

namespace Crawl

variable (x : Crawl)

/-- `sync`, whose crawl runs for at most a number of rounds. -/
def sync (rounds : ℕ) : Option (Except CrawlError SyncReport) :=
  (run { x with includeContent := true } rounds).map fun outcome =>
    match outcome.result with
    | .ok items => .ok ⟨"completed", items, none⟩
    | .error e =>
        match e.caught with
        | some message => .ok ⟨"failed", [], some message⟩
        | none => .error e

/-! ## A crawl that passes over failures -/

/-- A link that cannot be read adds nothing. -/
def skipLink (origin : String) (s : CrawlState) (link : String) : CrawlState :=
  match enqueueLink x.site origin s link with
  | .ok s' => s'
  | .error _ => s

/-- A page that cannot be fetched or extracted leaves nothing. -/
def skipPage (origin : String) (s : CrawlState) (url : String) : CrawlState :=
  match visitPage x.site origin x.includeContent url with
  | .ok (item, links) => links.foldl (x.skipLink origin) { s with
      visited := s.visited ++ [url], items := s.items ++ item.toList }
  | .error _ => { s with visited := s.visited ++ [url] }

def skipRound (origin : String) (s : CrawlState) : CrawlState ⊕ List PageItem :=
  match s.queue with
  | [] => .inr s.items
  | url :: queue =>
      if x.maxPages ≤ s.items.length then .inr s.items
      else if url ∈ s.visited then .inl { s with queue := queue }
      else .inl (x.skipPage origin { s with queue := queue } url)

/-- The item of a page that the crawl could fetch and extract. -/
def CouldExtract (item : PageItem) : Prop :=
  ∃ url origin s, x.start = .ok (url, origin) ∧
    While.Reaches (x.skipRound origin) (initial url) s ∧ item ∈ s.items

/-- The synchronisation returns the content of every such page. -/
def KeepsPages : Prop := ∃ rounds result, x.sync rounds = some (.ok result) ∧
  ∀ item, CouldExtract { x with includeContent := true } item → item ∈ result.items

/-! ## Pages that fail -/

/-- The crawl starts with an error, or it comes to a page that fails. -/
def Fails (e : CrawlError) : Prop :=
  x.start = .error e ∨ ∃ url origin s page queue, x.start = .ok (url, origin) ∧
    While.Reaches (x.round origin) (initial url) s ∧ s.queue = page :: queue ∧
      s.items.length < x.maxPages ∧ page ∉ s.visited ∧
        x.turnPage origin { s with queue := queue } page = .error e

variable {x} {origin : String} {s s' : CrawlState}

theorem foldl_skipLink_of_ok {links : List String}
    (h : links.foldlM (enqueueLink x.site origin) s = .ok s') :
    links.foldl (x.skipLink origin) s = s' := by
  induction links generalizing s with
  | nil =>
      cases h
      rfl
  | cons link links ih =>
      rw [List.foldlM_cons] at h
      obtain ⟨s₁, hlink, hlinks⟩ := bind_eq_ok.mp h
      rw [List.foldl_cons, skipLink, hlink]
      exact ih hlinks

theorem skipPage_of_ok {url : String} (h : x.turnPage origin s url = .ok s') :
    x.skipPage origin s url = s' := by
  unfold turnPage at h
  obtain ⟨⟨item, links⟩, hvisit, hlinks⟩ := bind_eq_ok.mp h
  unfold skipPage
  rw [hvisit]
  exact foldl_skipLink_of_ok hlinks

/-- A round with an error has come to a page that fails. -/
theorem fails_of_round {first : String} {visited : List String} {e : CrawlError}
    (hstart : x.start = .ok (first, origin))
    (hs : While.Reaches (x.round origin) (initial first) s)
    (h : x.round origin s = .inr ⟨visited, .error e⟩) : x.Fails e := by
  unfold round at h
  split at h
  · cases h
  · next page queue hqueue =>
      split_ifs at h with hmany hvisited
      · cases h
      · split at h
        · cases h
        · next e' hturn =>
            cases h
            exact .inr ⟨first, origin, s, page, queue, hstart, hs, hqueue, not_le.mp hmany,
              hvisited, hturn⟩

theorem fails_of_run {rounds : ℕ} {visited : List String} {e : CrawlError}
    (h : x.run rounds = some ⟨visited, .error e⟩) : x.Fails e := by
  cases hstart : x.start with
  | error e' =>
      have hrun : x.run rounds = some ⟨[], .error e'⟩ := by simp only [run, hstart]
      cases hrun.symm.trans h
      exact .inl hstart
  | ok found =>
      obtain ⟨first, origin⟩ := found
      rw [run_of_start hstart] at h
      obtain ⟨s, hs, hleave⟩ := While.reaches_of_run h
      exact fails_of_round hstart hs hleave

/-- A crawl that comes to a page that fails ends with the error. -/
theorem result_of_fails {rounds : ℕ} {outcome : Outcome} {e : CrawlError} (h : x.Fails e)
    (hrun : x.run rounds = some outcome) : outcome.result = .error e := by
  rcases h with hstart | ⟨first, origin, s, page, queue, hstart, hs, hqueue, hfew, hnew, hturn⟩
  · have hrun' : x.run rounds = some ⟨[], .error e⟩ := by simp only [run, hstart]
    cases hrun'.symm.trans hrun
    rfl
  · rw [run_of_start hstart] at hrun
    obtain ⟨m, hm⟩ := hs.run hrun
    have hleave : x.round origin s = .inr ⟨s.visited ++ [page], .error e⟩ := by
      unfold round
      rw [hqueue]
      dsimp only
      rw [if_neg (not_le.mpr hfew), if_neg hnew, hturn]
    cases While.run_unique hm (While.run_succ_of_inr hleave 0)
    rfl

theorem round_of_skipRound {first : String} (hnone : ∀ e, ¬x.Fails e)
    (hstart : x.start = .ok (first, origin))
    (hs : While.Reaches (x.round origin) (initial first) s)
    (h : x.skipRound origin s = .inl s') : x.round origin s = .inl s' := by
  unfold skipRound at h
  unfold round
  cases hqueue : s.queue with
  | nil =>
      rw [hqueue] at h
      cases h
  | cons page queue =>
      rw [hqueue] at h
      dsimp only at h ⊢
      split_ifs at h ⊢ with hmany hvisited
      · exact congrArg Sum.inl (Sum.inl.inj h)
      · cases hturn : x.turnPage origin { s with queue := queue } page with
        | error e =>
            exact absurd (.inr ⟨first, origin, s, page, queue, hstart, hs, hqueue,
              not_le.mp hmany, hvisited, hturn⟩) (hnone e)
        | ok turned =>
            rw [skipPage_of_ok hturn] at h
            exact congrArg Sum.inl (Sum.inl.inj h)

/-- Without failures, the two crawls come to the same states. -/
theorem reaches_of_skipRound {first : String} (hnone : ∀ e, ¬x.Fails e)
    (hstart : x.start = .ok (first, origin))
    (h : While.Reaches (x.skipRound origin) (initial first) s) :
    While.Reaches (x.round origin) (initial first) s := by
  induction h with
  | refl => exact .refl
  | tail _ hskip hs => exact hs.tail (round_of_skipRound hnone hstart hs hskip)

theorem items_subset_of_reaches {first : String} (hstart : x.start = .ok (first, origin))
    (hs : While.Reaches (x.round origin) (initial first) s)
    (h : While.Reaches (x.round origin) s s') : s.items ⊆ s'.items := by
  have hboth : While.Reaches (x.round origin) (initial first) s' ∧ s.items ⊆ s'.items := by
    refine h.invariant (I := fun s₁ => While.Reaches (x.round origin) (initial first) s₁ ∧
      s.items ⊆ s₁.items) (fun s₁ s₂ hs₁ hround => ?_) ⟨hs, List.Subset.refl _⟩
    have hconsistent := Comes.consistent ⟨first, origin, hstart, hs₁.1⟩
    obtain ⟨-, page, queue, -, hturn⟩ := round_eq_inl hconsistent hround
    obtain ⟨item, links, urls, -, -, rfl⟩ := turnPage_eq hturn hconsistent.nodup
    exact ⟨hs₁.1.tail hround, fun i hi => List.mem_append_left _ (hs₁.2 hi)⟩
  exact hboth.2

/-- Without failures, all that could be extracted is returned. -/
theorem mem_of_couldExtract {rounds : ℕ} {visited : List String} {items : List PageItem}
    {item : PageItem} (hnone : ∀ e, ¬x.Fails e)
    (hrun : x.run rounds = some ⟨visited, .ok items⟩) (h : x.CouldExtract item) :
    item ∈ items := by
  obtain ⟨first, origin, s, hstart, hskip, hitem⟩ := h
  have hs := reaches_of_skipRound hnone hstart hskip
  rw [run_of_start hstart] at hrun
  obtain ⟨m, hm⟩ := hs.run hrun
  obtain ⟨s', hs', hleave⟩ := While.reaches_of_run hm
  rw [(eq_of_inr_ok hleave).2]
  exact items_subset_of_reaches hstart hs hs' hitem

/-- The crawl ends, and either no page fails or nothing could be extracted at all. -/
structure Unharmed (x : Crawl) : Prop where
  ends : ∃ rounds outcome, x.run rounds = some outcome
  pages : (∀ e, ¬x.Fails e) ∨
    (∀ item, ¬x.CouldExtract item) ∧ ∀ e, x.Fails e → e.caught ≠ none

theorem sync_eq {rounds : ℕ} {outcome : Outcome}
    (h : run { x with includeContent := true } rounds = some outcome) : x.sync rounds =
      some (match outcome.result with
        | .ok items => .ok ⟨"completed", items, none⟩
        | .error e =>
            match e.caught with
            | some message => .ok ⟨"failed", [], some message⟩
            | none => .error e) := by
  rw [sync, h]
  rfl

/-- A synchronisation keeps the pages exactly if its crawl is unharmed. -/
theorem keepsPages_iff (x : Crawl) :
    x.KeepsPages ↔ Unharmed { x with includeContent := true } := by
  constructor
  · rintro ⟨rounds, result, hsync, hall⟩
    obtain ⟨⟨visited, outcome⟩, hrun, hresult⟩ := Option.map_eq_some_iff.mp hsync
    refine ⟨⟨rounds, _, hrun⟩, or_iff_not_imp_left.mpr fun hfails => ?_⟩
    push Not at hfails
    obtain ⟨e, he⟩ := hfails
    obtain rfl := result_of_fails he hrun
    dsimp only at hresult
    cases hcaught : e.caught with
    | none => simp [hcaught] at hresult
    | some message =>
        simp only [hcaught, Except.ok.injEq] at hresult
        subst hresult
        refine ⟨fun item hitem => List.not_mem_nil (hall item hitem), fun e' he' => ?_⟩
        cases result_of_fails he' hrun
        rw [hcaught]
        exact Option.some_ne_none _
  · rintro ⟨⟨rounds, ⟨visited, outcome⟩, hrun⟩, hpages⟩
    have hsync := sync_eq hrun
    cases outcome with
    | ok items =>
        refine ⟨rounds, _, hsync, fun item hitem => ?_⟩
        rcases hpages with hnone | ⟨hnothing, -⟩
        · exact mem_of_couldExtract hnone hrun hitem
        · exact absurd hitem (hnothing item)
    | error e =>
        have he := fails_of_run hrun
        rcases hpages with hnone | ⟨hnothing, hcaught⟩
        · exact absurd he (hnone e)
        · obtain ⟨message, hmessage⟩ := Option.ne_none_iff_exists'.mp (hcaught e he)
          dsimp only at hsync
          rw [hmessage] at hsync
          exact ⟨rounds, _, hsync, fun item hitem => absurd hitem (hnothing item)⟩

end Crawl

/-! ## A broken link -/

/-- The start page has text and a link to a page that is not found. -/
def brokenCrawl : Crawl := crawlOf fun url =>
  if url = "http://site.test/" then htmlResponse url "Hello" ["http://site.test/gone"]
  else { htmlResponse url "" [] with statusError := some "404 Not Found" }

/-- The page that is found. -/
def startItem : PageItem :=
  ⟨"http://site.test/", "http://site.test/", 5, "text/html", some "Hello"⟩

theorem couldExtract_startItem : brokenCrawl.CouldExtract startItem :=
  ⟨_, _, _, rfl, Relation.ReflTransGen.single rfl, .head _⟩

theorem brokenCrawl_loses_page : ¬brokenCrawl.KeepsPages := by
  have hrun : brokenCrawl.run 2 = some ⟨["http://site.test/", "http://site.test/gone"],
      .error (.httpError "404 Not Found")⟩ := rfl
  rintro ⟨rounds, result, hsync, hall⟩
  obtain ⟨outcome, houtcome, hresult⟩ := Option.map_eq_some_iff.mp hsync
  have hstart : brokenCrawl.start = .ok ("http://site.test/", "site.test") := rfl
  rw [Crawl.run_of_start hstart] at hrun
  change brokenCrawl.run rounds = some outcome at houtcome
  rw [Crawl.run_of_start hstart] at houtcome
  cases While.run_unique hrun houtcome
  cases hresult
  exact List.not_mem_nil (hall startItem couldExtract_startItem)

end Zyntry
