import SeoPlatform.Crawler.BoundedSearch

namespace SeoPlatform.Crawler.Inlinks

open SeoPlatform.Crawler.BoundedSearch
open SeoPlatform.Crawler.Crawling
open SeoPlatform.Crawler.Fetching
open SeoPlatform.Crawler.Models
open SeoPlatform.Crawler.Parallelism
open SeoPlatform.Foundation.ExceptFlow
open SeoPlatform.Foundation.QueueSearch
open SeoPlatform.Foundation.ThreadPool
open SeoPlatform.Foundation.UrlText
open SeoPlatform.Shared.Exceptions

section Rounds

variable {site : Site} {config : CrawlConfig} {origin : String} {fetches probes : Completion}

/-- More rounds than were needed change nothing. -/
theorem searchBatches_mono {fuel n : Nat} {s : Progress} {found : Except Exn Progress}
    (h : searchBatches site config origin fetches fuel n s = some found) (extra : Nat) :
    searchBatches site config origin fetches (fuel + extra) n s = some found := by
  induction fuel generalizing n s with
  | zero => cases h
  | succ fuel ih =>
      rw [Nat.add_right_comm]
      unfold searchBatches at h ⊢
      split at h
      · rename_i hover
        rwa [if_pos hover]
      · rename_i hover
        rw [if_neg hover]
        dsimp only at h ⊢
        split at h
        · rename_i hempty
          rw [if_pos hempty]
          exact ih h
        · rename_i hbatch
          rw [if_neg hbatch]
          split at h
          · exact h
          · split at h
            · exact h
            · exact ih h

/-- Without workers no page is fetched. -/
theorem pages_of_idle (hworkers : config.workers = 0) {fuel n : Nat} {s last : Progress}
    (h : searchBatches site config origin fetches fuel n s = some (.ok last)) :
    last.pages = s.pages := by
  have hcut : ∀ (count : Nat) (blocked : List String) (frontier : List (String × Nat)),
      (fillBatch site config count [] blocked frontier).1 = [] := by
    intro count blocked frontier
    cases frontier with
    | nil => rfl
    | cons item rest =>
        unfold fillBatch
        rw [if_neg (by simp [hworkers])]
  induction fuel generalizing n s with
  | zero => cases h
  | succ fuel ih =>
      unfold searchBatches at h
      split at h
      · cases h
        rfl
      · dsimp only at h
        rw [if_pos (hcut _ _ _)] at h
        have hlater := ih h
        exact hlater

end Rounds

section Crawls

variable {site : Site} {config : CrawlConfig} {fetches probes : Completion} {fuel : Nat}
  {ctx : SiteContext}

/-- A crawl that came to an end has prepared, searched and concluded. -/
theorem stages_of_crawl (h : crawl site config fetches probes fuel = some (.ok ctx)) :
    ∃ opened s last, prepared site config = .ok (opened, s) ∧
      searchBatches site config opened.origin fetches fuel 0 s = some (.ok last) ∧
      concluded site config probes opened last = .ok ctx := by
  unfold crawl at h
  split at h
  · cases h
  · rename_i opened s hprepared
    obtain ⟨found, hfound, hmade⟩ := Option.map_eq_some_iff.mp h
    obtain ⟨last, rfl, hconcluded⟩ := ok_of_bind hmade
    exact ⟨opened, s, last, hprepared, hfound, hconcluded⟩

theorem crawl_mono (h : crawl site config fetches probes fuel = some (.ok ctx)) (extra : Nat) :
    crawl site config fetches probes (fuel + extra) = some (.ok ctx) := by
  obtain ⟨opened, s, last, hprepared, hfound, hconcluded⟩ := stages_of_crawl h
  unfold crawl
  rw [hprepared]
  dsimp only
  rw [searchBatches_mono hfound extra]
  exact congrArg some hconcluded

/-- No url is crawled twice, with however many rounds and workers. -/
theorem nodup_urls_of_crawl (hsite : Parses site)
    (h : crawl site config fetches probes fuel = some (.ok ctx)) :
    (ctx.pages.map PageData.url).Nodup := by
  rcases Nat.eq_zero_or_pos config.workers with hidle | hworkers
  · obtain ⟨opened, s, last, hprepared, hfound, hconcluded⟩ := stages_of_crawl h
    have hdistinct := (layered_initial
      (graph site config opened.origin opened.startUrl opened.sitemapLocs)).nodup_done
    have hpages := (concluded_ok hconcluded).pages
    dsimp only at hpages
    rw [pages_of_idle hidle hfound] at hpages
    rw [← view_seed (prepared_ok hprepared).2.2] at hdistinct
    unfold view at hdistinct
    rwa [← hpages, List.map_map] at hdistinct
  · obtain ⟨result, hresult, hbounded⟩ := crawl_found hsite hworkers fetches probes
      (Nat.le_add_left (config.maxPages + 2) fuel)
    rw [crawl_mono h] at hresult
    exact (hbounded ctx (Option.some.inj hresult).symm).distinct

end Crawls

section Counts

variable {site : Site} {config : CrawlConfig} {ctx ctx' : SiteContext}

/-- The links that are counted do not depend on what was counted before. -/
theorem linkedUrls_congr (h : ctx'.pages.map (fun page => { page with inlinks := 0 }) =
    ctx.pages.map fun page => { page with inlinks := 0 }) :
    linkedUrls site ctx' = linkedUrls site ctx := by
  have hlinks : ∀ ctx : SiteContext, (ctx.htmlPages site.rules).flatMap PageData.links =
      ((ctx.pages.map fun page => { page with inlinks := 0 }).filter fun page =>
        page.isOk && page.isHtml site.rules).flatMap PageData.links := by
    intro ctx
    unfold SiteContext.htmlPages
    rw [List.filter_map, List.flatMap_map]
    rfl
  unfold linkedUrls
  rw [hlinks ctx', hlinks ctx, h]

/-- A page counts how often its own url is linked to. -/
structure Counted (site : Site) (ctx : SiteContext) (linked : List String) : Prop where
  links : linkedUrls site ctx = .ok linked
  count : ∀ page ∈ ctx.pages, ∃ url, normalizeUrl site.rules page.url = .ok url ∧
    page.inlinks = linked.count url

theorem counted_of_computeInlinks (h : computeInlinks site ctx = .ok ctx') :
    ∃ linked, Counted site ctx' linked := by
  unfold computeInlinks at h
  obtain ⟨linked, hlinked, h⟩ := ok_of_bind h
  obtain ⟨pages, hpages, h⟩ := ok_of_bind h
  cases h
  refine ⟨linked, ?_, ?_⟩
  · rw [linkedUrls_congr (map_of_mapM ?_ hpages)]
    · exact hlinked
    · intro page page' hpage
      obtain ⟨url, -, hpage⟩ := ok_of_bind hpage
      cases hpage
      rfl
  · intro page' hpage'
    obtain ⟨page, -, hpage⟩ := exists_of_mem_mapM hpages hpage'
    obtain ⟨url, hurl, hpage⟩ := ok_of_bind hpage
    cases hpage
    exact ⟨url, hurl, rfl⟩

theorem pages_checkExternalLinks {pool : Completion}
    (h : checkExternalLinks site config pool ctx = .ok ctx') : ctx'.pages = ctx.pages := by
  unfold checkExternalLinks at h
  obtain ⟨targets, -, h⟩ := ok_of_bind h
  split at h
  · cases h
    rfl
  · obtain ⟨statuses, -, h⟩ := ok_of_bind h
    cases h
    rfl

theorem counted_of_pages {linked : List String} (hpages : ctx'.pages = ctx.pages)
    (h : Counted site ctx linked) : Counted site ctx' linked := by
  constructor
  · rw [linkedUrls_congr (congrArg _ hpages)]
    exact h.links
  · rw [hpages]
    exact h.count

theorem counted_of_concluded {pool : Completion} {s : Progress}
    (h : concluded site config pool ctx s = .ok ctx') : ∃ linked, Counted site ctx' linked := by
  unfold concluded at h
  obtain ⟨inlinked, hinlinks, h⟩ := ok_of_bind h
  obtain ⟨linked, hcounted⟩ := counted_of_computeInlinks hinlinks
  split at h
  · exact ⟨linked, counted_of_pages (pages_checkExternalLinks h) hcounted⟩
  · cases h
    exact ⟨linked, hcounted⟩

/-- After a crawl every page has its links counted. -/
theorem counted_of_crawl {fetches probes : Completion} {fuel : Nat}
    (h : crawl site config fetches probes fuel = some (.ok ctx)) :
    ∃ linked, Counted site ctx linked := by
  obtain ⟨opened, s, last, -, -, hconcluded⟩ := stages_of_crawl h
  exact counted_of_concluded hconcluded

end Counts

end SeoPlatform.Crawler.Inlinks
