import SeoPlatform.Crawler.Parallelism
import SeoPlatform.Crawler.Parsing
import SeoPlatform.Foundation.QueueSearch
import SeoPlatform.Foundation.ExceptFlow

namespace SeoPlatform.Crawler.BoundedSearch

open SeoPlatform.Crawler.Crawling
open SeoPlatform.Crawler.Fetching
open SeoPlatform.Crawler.Models
open SeoPlatform.Crawler.Parallelism
open SeoPlatform.Crawler.Parsing
open SeoPlatform.Foundation.ExceptFlow
open SeoPlatform.Foundation.QueueSearch
open SeoPlatform.Foundation.ThreadPool
open SeoPlatform.Foundation.UrlText
open SeoPlatform.Shared.Exceptions

section Graphs

/-- The page that a url makes. -/
def pageAt (site : Site) (config : CrawlConfig) (origin url : String) (depth : Nat) :
    Except Exn PageData := do
  let fetched := resultToPage url (← site.fetch url) depth
  if fetched.isHtml site.rules && fetched.html ≠ "" then
    site.parsePage fetched origin config.followSubdomains
  else .ok fetched

/-- Where a link leads, if it is internal and crawlable. -/
def target (site : Site) (link : LinkRef) : Option String :=
  if link.isInternal && (isCrawlable site.rules link.href).toOption = some true then
    (normalizeUrl site.rules link.href).toOption
  else none

/-- Where the page of a url leads. A page that was not fetched well leads nowhere. -/
def successors (site : Site) (config : CrawlConfig) (origin url : String) : List String :=
  match pageAt site config origin url 0 with
  | .error _ => []
  | .ok page => if page.isOk then page.links.filterMap (target site) else []

/-- The address that an entry of a sitemap names, if it is of the site. -/
def sitemapAddress (site : Site) (config : CrawlConfig) (origin loc : String) : Option String :=
  (normalizeUrl site.rules loc).toOption.filter fun url =>
    (sameSite site.rules url origin config.followSubdomains).toOption = some true

/-- Those among the first entries. -/
def sitemapAddresses (site : Site) (config : CrawlConfig) (origin : String)
    (locs : List String) : List String :=
  (locs.take config.maxPages).filterMap (sitemapAddress site config origin)

/-- The site as a graph that is searched. -/
def graph (site : Site) (config : CrawlConfig) (origin start : String) (locs : List String) :
    Graph String where
  start := start
  seeds := sitemapAddresses site config origin locs
  allowed := site.allowed
  next := successors site config origin
  maxLevel := config.maxDepth
  maxDone := config.maxPages

/-- The crawl as a search of the graph. -/
def view (s : Progress) : Search String where
  seen := s.queued
  queue := s.frontier
  done := s.pages.map fun page => (page.url, page.depth)

end Graphs

section Turns

variable {site : Site} {config : CrawlConfig} {origin : String} {s s' : Progress}

theorem view_push (s : Progress) (url : String) (depth : Nat) :
    view (s.push url depth) = (view s).push url depth := by
  unfold Progress.push Search.push view
  by_cases hqueued : url ∈ s.queued
  · rw [if_pos (List.contains_iff_mem.mpr hqueued), if_pos hqueued]
  · rw [if_neg (fun h => hqueued (List.contains_iff_mem.mp h)), if_neg hqueued]

theorem view_follow {depth : Nat} {link : LinkRef} (h : follow site depth s link = .ok s') :
    view s' = (view s).pushAll (target site link).toList (depth + 1) := by
  unfold follow at h
  unfold target
  cases hinternal : link.isInternal with
  | false =>
      rw [hinternal] at h
      cases h
      rfl
  | true =>
      rw [hinternal] at h
      cases hcrawlable : isCrawlable site.rules link.href with
      | error e =>
          rw [hcrawlable] at h
          cases h
      | ok crawlable =>
          rw [hcrawlable] at h
          cases crawlable with
          | false =>
              cases h
              rfl
          | true =>
              cases hurl : normalizeUrl site.rules link.href with
              | error e =>
                  rw [hurl] at h
                  cases h
              | ok url =>
                  rw [hurl] at h
                  cases h
                  exact view_push s url (depth + 1)

theorem pushAll_append (s : Search String) (xs ys : List String) (level : Nat) :
    s.pushAll (xs ++ ys) level = (s.pushAll xs level).pushAll ys level :=
  List.foldl_append

/-- A fold whose steps put in a url at most puts them in one after the other. -/
theorem view_foldlM {α : Type} {f : Progress → α → Except Exn Progress}
    {url : α → Option String} {level : Nat}
    (hstep : ∀ s s' a, f s a = .ok s' → view s' = (view s).pushAll (url a).toList level)
    {items : List α} (h : items.foldlM f s = .ok s') :
    view s' = (view s).pushAll (items.filterMap url) level := by
  induction items generalizing s with
  | nil =>
      cases h
      rfl
  | cons a rest ih =>
      rw [List.foldlM_cons] at h
      cases hfirst : f s a with
      | error e =>
          rw [hfirst] at h
          cases h
      | ok after =>
          rw [hfirst] at h
          have hall : (a :: rest).filterMap url = (url a).toList ++ rest.filterMap url := by
            cases hurl : url a with
            | none => exact List.filterMap_cons_none hurl
            | some x => exact List.filterMap_cons_some hurl
          rw [ih h, hstep _ _ _ hfirst, hall, pushAll_append]

/-- What the search relies on of a parser: a page keeps its url, its depth and how
it was fetched, and the depth plays no part in what is found. -/
structure Parses (site : Site) : Prop where
  keeps : ∀ {page page' : PageData} {origin : String} {subdomains : Bool},
    site.parsePage page origin subdomains = .ok page' →
      page'.url = page.url ∧ page'.depth = page.depth ∧ page'.isOk = page.isOk
  depth : ∀ (page : PageData) (origin : String) (subdomains : Bool) (depth : Nat),
    site.parsePage { page with depth := depth } origin subdomains =
      (site.parsePage page origin subdomains).map fun page => { page with depth := depth }

theorem parses_parsedBy (site : Site) (library : Library) : Parses (parsedBy site library) :=
  ⟨parsePage_ok, fun _ _ _ depth => parsePage_depth depth⟩

theorem pageAt_depth (hsite : Parses site) (url : String) (depth : Nat) :
    pageAt site config origin url depth =
      (pageAt site config origin url 0).map fun page => { page with depth := depth } := by
  unfold pageAt
  cases site.fetch url with
  | error e => rfl
  | ok result =>
      have hsame : resultToPage url result depth =
          { resultToPage url result 0 with depth := depth } := rfl
      show (if _ then _ else _) = Except.map _ (if _ then _ else _)
      rw [hsame, hsite.depth]
      show (if (resultToPage url result 0).isHtml site.rules && _ then _ else _) = _
      split <;> rfl

theorem pageAt_ok (hsite : Parses site) {url : String} {depth : Nat} {page : PageData}
    (h : pageAt site config origin url depth = .ok page) :
    page.url = url ∧ page.depth = depth := by
  unfold pageAt at h
  simp only [bind, Except.bind] at h
  split at h
  · contradiction
  · split at h
    · obtain ⟨hurl, hdepth, -⟩ := hsite.keeps h
      exact ⟨hurl, hdepth⟩
    · cases h
      exact ⟨rfl, rfl⟩

theorem visit_eq (s : Progress) (item : String × Nat) :
    visit site config origin s item =
      (pageAt site config origin item.1 item.2).bind fun page =>
        if config.maxDepth ≤ item.2 || !page.isOk then
          .ok { s with pages := s.pages ++ [page] }
        else page.links.foldlM (follow site item.2) { s with pages := s.pages ++ [page] } := by
  unfold visit pageAt absorb
  cases site.fetch item.1 with
  | error e => rfl
  | ok result =>
      simp only [bind, Except.bind]
      split <;> rfl

/-- A visit takes the url out of the search, and puts in where its page leads. -/
theorem view_visit (hsite : Parses site) {url : String} {depth : Nat}
    (h : visit site config origin s (url, depth) = .ok s') :
    view s' =
      let after : Search String := { view s with done := (view s).done ++ [(url, depth)] }
      if config.maxDepth ≤ depth then after
      else after.pushAll (successors site config origin url) (depth + 1) := by
  rw [visit_eq] at h
  cases hpage : pageAt site config origin url depth with
  | error e =>
      rw [hpage] at h
      cases h
  | ok page =>
      obtain ⟨hurl, hdepth⟩ := pageAt_ok hsite hpage
      have hafter : view { s with pages := s.pages ++ [page] } =
          { view s with done := (view s).done ++ [(url, depth)] } := by
        unfold view
        rw [List.map_append, List.map_singleton, hurl, hdepth]
      have hnext : successors site config origin url =
          if page.isOk then page.links.filterMap (target site) else [] := by
        rw [pageAt_depth hsite] at hpage
        unfold successors
        cases hplain : pageAt site config origin url 0 with
        | error e =>
            rw [hplain] at hpage
            cases hpage
        | ok plain =>
            rw [hplain] at hpage
            cases hpage
            rfl
      rw [hpage] at h
      dsimp only [Except.bind] at h ⊢
      by_cases hlast : config.maxDepth ≤ depth
      · rw [if_pos hlast]
        rw [if_pos (by simp [hlast])] at h
        cases h
        exact hafter
      · rw [if_neg hlast, hnext]
        cases hok : page.isOk with
        | false =>
            rw [if_pos (by simp [hok])] at h
            cases h
            exact hafter
        | true =>
            rw [if_neg (by simp [hlast, hok])] at h
            rw [view_foldlM (f := follow site depth) (fun _ _ _ => view_follow) h, hafter]
            rfl

variable {start : String} {locs : List String}

theorem advance_of_ends
    (h : turn config.maxPages config.maxDepth site.allowed (visit site config origin) s = .ends) :
    advance (graph site config origin start locs) (view s) = none := by
  unfold turn at h
  cases hfront : s.frontier with
  | nil => exact advance_nil hfront
  | cons item rest =>
      rw [hfront] at h
      rcases item with ⟨url, depth⟩
      rw [advance_cons (s := view s) hfront]
      dsimp only at h
      split at h
      · rename_i hfull
        apply if_pos
        show config.maxPages ≤ (s.pages.map _).length
        rwa [List.length_map]
      · split at h
        · contradiction
        · split at h
          · contradiction
          · split at h <;> contradiction

theorem advance_of_goes (hsite : Parses site) {after : Progress}
    (h : turn config.maxPages config.maxDepth site.allowed (visit site config origin) s =
      .goes after) :
    advance (graph site config origin start locs) (view s) = some (view after) := by
  unfold turn at h
  cases hfront : s.frontier with
  | nil =>
      rw [hfront] at h
      contradiction
  | cons item rest =>
      rw [hfront] at h
      rcases item with ⟨url, depth⟩
      rw [advance_cons (s := view s) hfront]
      dsimp only at h
      have hroom : (view s).done.length = s.pages.length := List.length_map _
      split at h
      · contradiction
      · rename_i hopen
        rw [if_neg (by rw [hroom]; exact hopen)]
        split at h
        · rename_i hdeep
          cases h
          exact if_pos (.inl hdeep)
        · rename_i hnear
          split at h
          · rename_i hrefused
            cases h
            have hrefused : site.allowed url = false := by simpa using hrefused
            exact if_pos (.inr hrefused)
          · rename_i hallowed
            rw [if_neg (by
              rintro (hdeep | hrefused)
              · exact hnear hdeep
              · exact hallowed (by rw [show site.allowed url = false from hrefused]; rfl))]
            split at h
            · contradiction
            · rename_i hvisit
              cases h
              rw [view_visit hsite hvisit]
              rfl

/-- The plain search of a site is a search of its graph. -/
theorem ends_of_breadthFirst (hsite : Parses site) {last : Progress}
    (h : Sequential site config origin s (some last)) :
    Ends (graph site config origin start locs) (view s) (view last) := by
  generalize hfound : some last = found at h
  induction h with
  | ends hturn =>
      cases hfound
      exact .ends (advance_of_ends hturn)
  | raises => cases hfound
  | goes hturn _ ih => exact .goes (advance_of_goes hsite hturn) (ih hfound)

theorem sitemapAddress_of {loc url : String} (h : normalizeUrl site.rules loc = .ok url) :
    sitemapAddress site config origin loc =
      if (sameSite site.rules url origin config.followSubdomains).toOption = some true then
        some url
      else none := by
  unfold sitemapAddress
  rw [h]
  show (some url).filter _ = _
  simp only [Option.filter_some, decide_eq_true_eq]

theorem view_seed (h : seed site config origin start locs = .ok s) :
    view s = initial (graph site config origin start locs) := by
  unfold seed at h
  refine view_foldlM ?_ h
  intro s s' loc h
  cases hurl : normalizeUrl site.rules loc with
  | error e =>
      rw [hurl] at h
      cases h
  | ok url =>
      rw [hurl] at h
      rw [sitemapAddress_of hurl]
      by_cases hqueued : url ∈ s.queued
      · have hold : s' = s := by
          simp only [bind, Except.bind, if_pos (List.contains_iff_mem.mpr hqueued)] at h
          exact (Except.ok.inj h).symm
        have hpush : (view s).push url 1 = view s := if_pos hqueued
        rw [hold]
        split
        · exact hpush.symm
        · rfl
      · simp only [bind, Except.bind, if_neg (fun h => hqueued (List.contains_iff_mem.mp h))] at h
        cases hsame : sameSite site.rules url origin config.followSubdomains with
        | error e =>
            rw [hsame] at h
            cases h
        | ok same =>
            rw [hsame] at h
            cases same with
            | false =>
                cases h
                rfl
            | true =>
                cases h
                exact view_push s url 1

end Turns

section Ends

variable {site : Site} {config : CrawlConfig} {ctx ctx' : SiteContext} {s : Progress}

theorem discoverSitemaps_ok (h : discoverSitemaps site ctx = .ok ctx') :
    ctx'.startUrl = ctx.startUrl ∧ ctx'.origin = ctx.origin := by
  unfold discoverSitemaps at h
  obtain ⟨candidates, -, h⟩ := ok_of_bind h
  obtain ⟨found, -, h⟩ := ok_of_bind h
  cases h
  exact ⟨rfl, rfl⟩

theorem probeWellknown_ok (h : probeWellknown site ctx = .ok ctx') :
    ctx'.startUrl = ctx.startUrl ∧ ctx'.origin = ctx.origin ∧
      ctx'.sitemapLocs = ctx.sitemapLocs := by
  unfold probeWellknown at h
  obtain ⟨llms, -, h⟩ := ok_of_bind h
  obtain ⟨security, -, h⟩ := ok_of_bind h
  cases h
  exact ⟨rfl, rfl, rfl⟩

theorem prepared_ok (h : prepared site config = .ok (ctx, s)) :
    normalizeUrl site.rules config.startUrl = .ok ctx.startUrl ∧
      registrableOrigin site.rules ctx.startUrl = .ok ctx.origin ∧
      seed site config ctx.origin ctx.startUrl ctx.sitemapLocs = .ok s := by
  unfold prepared at h
  obtain ⟨start, hstart, h⟩ := ok_of_bind h
  obtain ⟨origin, horigin, h⟩ := ok_of_bind h
  obtain ⟨discovered, hdiscovered, h⟩ := ok_of_bind h
  obtain ⟨probed, hprobed, h⟩ := ok_of_bind h
  obtain ⟨s', hseed, h⟩ := ok_of_bind h
  obtain ⟨hsame, hsame'⟩ := discoverSitemaps_ok hdiscovered
  obtain ⟨hkept, hkept', -⟩ := probeWellknown_ok hprobed
  have hurl : probed.startUrl = start := hkept.trans hsame
  have hsite : probed.origin = origin := hkept'.trans hsame'
  cases h
  rw [hurl, hsite]
  exact ⟨hstart, horigin, hseed⟩

/-- What the rest of the crawl leaves of a context. -/
structure Keeps (ctx ctx' : SiteContext) : Prop where
  startUrl : ctx'.startUrl = ctx.startUrl
  origin : ctx'.origin = ctx.origin
  sitemapLocs : ctx'.sitemapLocs = ctx.sitemapLocs
  notes : ctx'.notes = ctx.notes
  pages : ctx'.pages.map (fun page => (page.url, page.depth)) =
    ctx.pages.map fun page => (page.url, page.depth)

theorem computeInlinks_ok (h : computeInlinks site ctx = .ok ctx') : Keeps ctx ctx' := by
  unfold computeInlinks at h
  obtain ⟨linked, -, h⟩ := ok_of_bind h
  obtain ⟨pages, hpages, h⟩ := ok_of_bind h
  cases h
  refine ⟨rfl, rfl, rfl, rfl, map_of_mapM ?_ hpages⟩
  intro page page' hpage
  obtain ⟨url, -, hpage⟩ := ok_of_bind hpage
  cases hpage
  rfl

theorem checkExternalLinks_ok {pool : Completion}
    (h : checkExternalLinks site config pool ctx = .ok ctx') : Keeps ctx ctx' := by
  unfold checkExternalLinks at h
  obtain ⟨targets, -, h⟩ := ok_of_bind h
  split at h
  · cases h
    exact ⟨rfl, rfl, rfl, rfl, rfl⟩
  · obtain ⟨statuses, -, h⟩ := ok_of_bind h
    cases h
    exact ⟨rfl, rfl, rfl, rfl, rfl⟩

theorem concluded_ok {pool : Completion} (h : concluded site config pool ctx s = .ok ctx') :
    Keeps { ctx with pages := s.pages, notes := ctx.notes ++ notes config s } ctx' := by
  unfold concluded at h
  obtain ⟨inlinked, hinlinks, h⟩ := ok_of_bind h
  have hkeeps := computeInlinks_ok hinlinks
  split at h
  · have hkeeps' := checkExternalLinks_ok h
    exact ⟨hkeeps'.startUrl.trans hkeeps.startUrl, hkeeps'.origin.trans hkeeps.origin,
      hkeeps'.sitemapLocs.trans hkeeps.sitemapLocs, hkeeps'.notes.trans hkeeps.notes,
      hkeeps'.pages.trans hkeeps.pages⟩
  · cases h
    exact hkeeps

/-- The note that addresses are left. -/
def remainingNote (config : CrawlConfig) (count : Nat) : String :=
  "سقف " ++ toString config.maxPages ++ " صفحه‌ای پر شد؛ حداقل " ++ toString count ++
    " آدرس دیگر باقی مانده است."

theorem remainingNote_mem (h : s.frontier ≠ []) :
    remainingNote config s.frontier.length ∈ notes config s := by
  unfold notes
  rw [if_neg h]
  exact List.mem_append_right _ (List.mem_singleton_self _)

/-- What a crawl has found is what a bounded breadth-first search of the site finds. -/
structure Bounded (site : Site) (config : CrawlConfig) (ctx : SiteContext) : Prop where
  start : normalizeUrl site.rules config.startUrl = .ok ctx.startUrl
  normalized : ∀ page ∈ ctx.pages, ∃ url, normalizeUrl site.rules url = .ok page.url
  distinct : (ctx.pages.map PageData.url).Nodup
  count : ctx.pages.length ≤ config.maxPages
  depths : ∀ page ∈ ctx.pages, page.depth ≤ config.maxDepth
  order : ctx.pages.Pairwise fun page next => page.depth ≤ next.depth
  shortest : ∀ page ∈ ctx.pages,
    Shortest (graph site config ctx.origin ctx.startUrl ctx.sitemapLocs) page.depth page.url
  complete : ∀ url distance,
    Shortest (graph site config ctx.origin ctx.startUrl ctx.sitemapLocs) distance url →
      distance ≤ config.maxDepth → site.allowed url = true →
      url ∉ ctx.pages.map PageData.url →
      ctx.pages.length = config.maxPages ∧
        ∃ count, 0 < count ∧ remainingNote config count ∈ ctx.notes

theorem normalized_of_target {link : LinkRef} {url : String} (h : target site link = some url) :
    normalizeUrl site.rules link.href = .ok url := by
  unfold target at h
  split at h
  · exact ok_of_toOption h
  · cases h

theorem target_of_successor {origin url next : String}
    (h : next ∈ successors site config origin url) : ∃ link, target site link = some next := by
  unfold successors at h
  cases hpage : pageAt site config origin url 0 with
  | error e =>
      rw [hpage] at h
      cases h
  | ok page =>
      rw [hpage] at h
      dsimp only at h
      split at h
      · obtain ⟨link, -, htarget⟩ := List.mem_filterMap.mp h
        exact ⟨link, htarget⟩
      · cases h

/-- What is reached in the graph has been normalised. -/
theorem normalized_of_reaches (hstart : normalizeUrl site.rules config.startUrl = .ok ctx.startUrl)
    {n : Nat} {url : String}
    (h : Reaches (graph site config ctx.origin ctx.startUrl ctx.sitemapLocs) n url) :
    ∃ raw, normalizeUrl site.rules raw = .ok url := by
  cases h with
  | start => exact ⟨_, hstart⟩
  | seed hseed =>
      obtain ⟨loc, -, haddress⟩ := List.mem_filterMap.mp hseed
      obtain ⟨hurl, -⟩ := Option.filter_eq_some_iff.mp haddress
      exact ⟨loc, ok_of_toOption hurl⟩
  | next _ _ hnext =>
      obtain ⟨link, htarget⟩ := target_of_successor hnext
      exact ⟨link.href, normalized_of_target htarget⟩

theorem bounded_of_ends {last : Progress} {pool : Completion} (hsite : Parses site)
    (hprepared : prepared site config = .ok (ctx, s))
    (hends : Sequential site config ctx.origin s (some last))
    (hconcluded : concluded site config pool ctx last = .ok ctx') : Bounded site config ctx' := by
  obtain ⟨hstart, -, hseed⟩ := prepared_ok hprepared
  obtain ⟨dropped, hlayered, hend⟩ := layered_ends (layered_initial _)
    (view_seed hseed ▸ ends_of_breadthFirst hsite hends)
  have hkeeps := concluded_ok hconcluded
  have hdone : (view last).done = ctx'.pages.map fun page => (page.url, page.depth) :=
    hkeeps.pages.symm
  have hurls : (view last).done.map Prod.fst = ctx'.pages.map PageData.url := by
    rw [hdone, List.map_map]
    rfl
  have hlength : (view last).done.length = ctx'.pages.length := by
    rw [hdone, List.length_map]
  have hmem : ∀ page ∈ ctx'.pages, (page.url, page.depth) ∈ (view last).done := by
    intro page hpage
    rw [hdone]
    exact List.mem_map_of_mem hpage
  have hshortest : ∀ page ∈ ctx'.pages,
      Shortest (graph site config ctx.origin ctx.startUrl ctx.sitemapLocs) page.depth page.url :=
    fun page hpage => hlayered.shortest _
      (List.mem_append_left _ (List.mem_append_left _ (hmem page hpage)))
  have hgraph : graph site config ctx'.origin ctx'.startUrl ctx'.sitemapLocs =
      graph site config ctx.origin ctx.startUrl ctx.sitemapLocs := by
    rw [hkeeps.origin, hkeeps.startUrl, hkeeps.sitemapLocs]
  refine ⟨?_, ?_, ?_, ?_, ?_, ?_, ?_, ?_⟩
  · rw [hkeeps.startUrl]
    exact hstart
  · exact fun page hpage => normalized_of_reaches hstart (hshortest page hpage).1
  · rw [← hurls]
    exact hlayered.nodup_done
  · rw [← hlength]
    exact hlayered.room
  · exact fun page hpage => (hlayered.done _ (hmem page hpage)).1
  · have hsorted := hlayered.doneSorted
    rwa [hdone, List.pairwise_map] at hsorted
  · rw [hgraph]
    exact hshortest
  · rw [hgraph]
    intro url distance hdistance hnear hallowed hleft
    obtain ⟨hqueue, hfull⟩ := hlayered.full hend hdistance.1 hnear hallowed (by
      intro level hlevel
      apply hleft
      rw [← hurls]
      exact List.mem_map_of_mem hlevel)
    refine ⟨hlength.symm.trans hfull, last.frontier.length, List.length_pos_iff.mpr hqueue, ?_⟩
    rw [hkeeps.notes]
    exact List.mem_append_right _ (remainingNote_mem hqueue)

end Ends

/-- With workers, and rounds enough, a crawl finds what a bounded search finds. -/
theorem crawl_found {site : Site} {config : CrawlConfig} (hsite : Parses site)
    (hworkers : 1 ≤ config.workers) (fetches probes : Completion) {fuel : Nat}
    (hfuel : config.maxPages + 2 ≤ fuel) :
    ∃ result, crawl site config fetches probes fuel = some result ∧
      ∀ ctx, result = .ok ctx → Bounded site config ctx := by
  obtain ⟨found, hfound, hsearch⟩ := searched_found site config hworkers fetches hfuel
  obtain ⟨result, hresult, hmade⟩ := crawl_of_searched probes hfound
  refine ⟨result, hresult, ?_⟩
  rintro ctx rfl
  obtain ⟨last, hlast, hmade⟩ := Option.bind_eq_some_iff.mp hmade.symm
  obtain ⟨⟨opened, s⟩, hprepared, hmade⟩ := Option.bind_eq_some_iff.mp hmade
  have hprepared := ok_of_toOption hprepared
  unfold FoundBySearch at hsearch
  rw [hprepared, hlast] at hsearch
  exact bounded_of_ends hsite hprepared hsearch (ok_of_toOption hmade)

/-- Two anchors and a mail address, on every page of the shop. -/
def shopLibrary : Library where
  soup _ := {
    anchors := [
      { href := "/cart", rel := .missing, text := "cart" },
      { href := "/a", rel := .missing, text := "a" },
      { href := "mailto:shop@shop.ir", rel := .missing, text := "mail" }] }
  isWord c := isAsciiLetter c
  sha1 text := text

end SeoPlatform.Crawler.BoundedSearch
