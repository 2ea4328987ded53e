import SeoPlatform.Crawler.Inlinks
import SeoPlatform.Engine.OrphanRule
import SeoPlatform.InternalLinks.Findings
import SeoPlatform.InternalLinks.Reported

namespace SeoPlatform.InternalLinks.OrphanLists

open SeoPlatform.Crawler.BoundedSearch
open SeoPlatform.Crawler.Crawling
open SeoPlatform.Crawler.Fetching
open SeoPlatform.Crawler.Inlinks
open SeoPlatform.Crawler.Models
open SeoPlatform.Crawler.Parallelism (inOrder)
open SeoPlatform.Crawler.Parsing
open SeoPlatform.Engine.AuditReport
open SeoPlatform.Engine.OrphanRule
open SeoPlatform.Foundation.Counter
open SeoPlatform.Foundation.ExceptFlow
open SeoPlatform.Foundation.JsonValue
open SeoPlatform.Foundation.Mapping
open SeoPlatform.Foundation.ThreadPool
open SeoPlatform.Foundation.UrlParse
open SeoPlatform.Foundation.UrlText
open SeoPlatform.InternalLinks.Building
open SeoPlatform.InternalLinks.Findings
open SeoPlatform.InternalLinks.Reported
open SeoPlatform.Orchestrator.Engine (asDict)
open SeoPlatform.Orchestrator.Planner (iterate)
open SeoPlatform.Shared.Exceptions

section Notions

/-- The crawl and the service both leave the url as it is. -/
structure Spelled (rules : TextRules) (url : String) : Prop where
  crawled : normalizeUrl rules url = .ok url
  served : normalise rules url = .ok url

structure OneSpelling (rules : TextRules) (ctx : SiteContext) : Prop where
  pages : ∀ page ∈ ctx.pages, Spelled rules page.url
  targets : ∀ page ∈ ctx.pages, ∀ link ∈ page.links, link.isInternal = true →
    Spelled rules link.href

def LinksTo (page : PageData) (url : String) : Prop :=
  ∃ link ∈ page.links, link.isInternal = true ∧ link.href = url

/-- Another crawled page links to the url. -/
def Supported (ctx : SiteContext) (url : String) : Prop :=
  ∃ other ∈ ctx.pages, other.url ≠ url ∧ LinksTo other url

/-- An indexable page other than the start page that no other page links to. -/
def Orphan (rules : TextRules) (ctx : SiteContext) (url : String) : Prop :=
  (∃ page ∈ ctx.indexablePages rules, page.url = url) ∧ url ≠ ctx.startUrl ∧ ¬ Supported ctx url

/-- The engine's rule reports the url. -/
def ReportedOrphan (rules : TextRules) (ctx : SiteContext) (url : String) : Prop :=
  ∃ issue ∈ checkOrphans rules ctx, issue.id = "orphan-pages" ∧ url ∈ issue.urls

/-- The rule reports, and the service lists from the report of the same crawl, exactly
the orphans. -/
def Agree (reader : Reader) (report : Report) : Prop :=
  ∃ graph listed, build reader (report.toDict reader.rules) = .ok graph ∧
    orphans reader.rules graph (Dict.get (report.toDict reader.rules) "start_url") = .ok listed ∧
    ∀ url, (ReportedOrphan reader.rules report.site url ↔ Orphan reader.rules report.site url) ∧
      (url ∈ listed ↔ Orphan reader.rules report.site url)

/-- A page that links to itself is linked to from another page as well, and one that
is linked to from another page is linked to from a page that was answered well. The
service spells the start page as no other page that nothing links to. -/
structure Comparable (rules : TextRules) (ctx : SiteContext) : Prop where
  itself : ∀ page ∈ ctx.indexablePages rules, page.url ≠ ctx.startUrl →
    LinksTo page page.url → Supported ctx page.url
  answered : ∀ page ∈ ctx.indexablePages rules, page.url ≠ ctx.startUrl →
    Supported ctx page.url → ∃ other ∈ ctx.htmlPages rules, LinksTo other page.url
  start : ∃ start, startOf rules (.str ctx.startUrl) = .ok start ∧
    ∀ page ∈ ctx.indexablePages rules, page.url ≠ ctx.startUrl →
      start = some page.url → Supported ctx page.url

end Notions

section Engine

variable {site : Site} {ctx : SiteContext}

theorem mem_htmlPages {rules : TextRules} {page : PageData} (h : page ∈ ctx.indexablePages rules) :
    page ∈ ctx.htmlPages rules := by
  obtain ⟨hpage, hindexable⟩ := List.mem_filter.mp h
  apply List.mem_filter.mpr
  unfold PageData.isIndexable at hindexable
  rw [Bool.and_eq_true] at hindexable
  exact ⟨hpage, hindexable.1⟩

/-- What is counted are the links of the pages that were answered well. -/
theorem mem_linked_iff (hspelled : OneSpelling site.rules ctx) {linked : List String}
    (h : linkedUrls site ctx = .ok linked) {url : String} :
    url ∈ linked ↔ ∃ page ∈ ctx.htmlPages site.rules, LinksTo page url := by
  have hhrefs : linkedUrls site ctx = .ok
      ((((ctx.htmlPages site.rules).flatMap PageData.links).filter LinkRef.isInternal).map
        LinkRef.href) := by
    apply mapM_ok
    intro link hlink
    obtain ⟨hlink, hinternal⟩ := List.mem_filter.mp hlink
    obtain ⟨page, hpage, hlink⟩ := List.mem_flatMap.mp hlink
    exact (hspelled.targets page (List.mem_filter.mp hpage).1 link hlink hinternal).crawled
  rw [hhrefs] at h
  obtain rfl := Except.ok.inj h
  unfold LinksTo
  constructor
  · intro hurl
    obtain ⟨link, hlink, rfl⟩ := List.mem_map.mp hurl
    obtain ⟨hlink, hinternal⟩ := List.mem_filter.mp hlink
    obtain ⟨page, hpage, hlink⟩ := List.mem_flatMap.mp hlink
    exact ⟨page, hpage, link, hlink, hinternal, rfl⟩
  · rintro ⟨page, hpage, link, hlink, hinternal, rfl⟩
    exact List.mem_map_of_mem
      (List.mem_filter.mpr ⟨List.mem_flatMap.mpr ⟨page, hpage, hlink⟩, hinternal⟩)

theorem inlinks_eq_zero_iff (hspelled : OneSpelling site.rules ctx) {linked : List String}
    (hcounted : Counted site ctx linked) {page : PageData} (hpage : page ∈ ctx.pages) :
    page.inlinks = 0 ↔ ¬ ∃ other ∈ ctx.htmlPages site.rules, LinksTo other page.url := by
  obtain ⟨url, hurl, hcount⟩ := hcounted.count page hpage
  rw [(hspelled.pages page hpage).crawled] at hurl
  obtain rfl := Except.ok.inj hurl
  rw [hcount, List.count_eq_zero, mem_linked_iff hspelled hcounted.links]

/-- Of the issues of the rule, one is about orphans. -/
theorem reportedOrphan_iff {rules : TextRules} (hpages : 3 ≤ (ctx.indexablePages rules).length)
    {url : String} :
    ReportedOrphan rules ctx url ↔
      ∃ page ∈ ctx.indexablePages rules, page.inlinks = 0 ∧ page.url ≠ ctx.startUrl ∧
        page.url = url := by
  have hmem : url ∈ orphanUrls rules ctx ↔
      ∃ page ∈ ctx.indexablePages rules, page.inlinks = 0 ∧ page.url ≠ ctx.startUrl ∧
        page.url = url := by
    unfold orphanUrls
    simp only [List.mem_map, List.mem_filter, Bool.and_eq_true, beq_iff_eq, bne_iff_ne, and_assoc]
  rw [← hmem]
  unfold ReportedOrphan checkOrphans
  rw [if_neg (by omega)]
  constructor
  · rintro ⟨issue, hissue, hid, hurl⟩
    rcases List.mem_append.mp hissue with hissue | hissue
    · split at hissue
      · cases hissue
      · rw [List.mem_singleton.mp hissue] at hurl
        exact hurl
    · split at hissue
      · rw [List.mem_singleton.mp hissue] at hid
        have hsame : "weak-internal-linking" = "orphan-pages" := hid
        exact absurd hsame (by decide)
      · cases hissue
  · intro hurl
    refine ⟨orphanIssue (orphanUrls rules ctx), List.mem_append_left _ ?_, rfl, hurl⟩
    rw [if_neg (List.ne_nil_of_mem hurl)]
    exact List.mem_singleton_self _

/-- Where a page has no inlinks exactly when no page links to it, the rule reports the pages
that nothing links to. -/
theorem reportedOrphan_iff_unlinked {rules : TextRules}
    (hpages : 3 ≤ (ctx.indexablePages rules).length)
    (hzero : ∀ page ∈ ctx.pages, page.inlinks = 0 ↔
      ¬ ∃ other ∈ ctx.htmlPages rules, LinksTo other page.url) (url : String) :
    ReportedOrphan rules ctx url ↔
      (∃ page ∈ ctx.indexablePages rules, page.url = url) ∧ url ≠ ctx.startUrl ∧
        ¬ ∃ other ∈ ctx.htmlPages rules, LinksTo other url := by
  rw [reportedOrphan_iff hpages]
  constructor
  · rintro ⟨page, hpage, hnone, hother, rfl⟩
    exact ⟨⟨page, hpage, rfl⟩, hother, (hzero page (List.mem_filter.mp hpage).1).mp hnone⟩
  · rintro ⟨⟨page, hpage, rfl⟩, hother, hnone⟩
    exact ⟨page, hpage, (hzero page (List.mem_filter.mp hpage).1).mpr hnone, hother, rfl⟩

end Engine

section Service

variable {reader : Reader} {report : Report}

theorem rowsOf_arr {α : Type} (row : α → Dict) (items : List α) :
    rowsOf (.arr (items.map fun item => .obj (row item))) = .ok (items.map row) := by
  have hlist : (Json.arr (items.map fun item => .obj (row item))).orElse (.arr []) =
      .arr (items.map fun item => .obj (row item)) := by
    cases items <;> rfl
  unfold rowsOf
  rw [hlist]
  show (items.map fun item => Json.obj (row item)).mapM asDict = _
  rw [List.mapM_map]
  exact mapM_ok fun item _ => rfl

/-- What the report says of one internal link. -/
def edgeRow (rules : TextRules) (source : String) (link : LinkRef) : Dict :=
  [("from", .str source),
   ("to", .str link.href),
   ("anchor", .str (String.ofList (link.anchor.toList.take 120))),
   ("nofollow", .bool (link.isNofollow rules))]

def internalLinks (ctx : SiteContext) : List (String × LinkRef) :=
  ctx.pages.flatMap fun page => (page.links.filter LinkRef.isInternal).map fun link =>
    (page.url, link)

theorem pageRows_toDict (rules : TextRules) (report : Report) :
    pageRows (report.toDict rules) = .ok (report.site.pages.map (pageRow rules)) := rowsOf_arr _ _

/-- All internal links are in a report that is not truncated. -/
theorem edgeRows_toDict {rules : TextRules}
    (huncut : Dict.get (internalEdges rules report.site.pages maxEdges) "truncated" =
      .bool false) :
    edgeRows (report.toDict rules) =
      .ok ((internalLinks report.site).map fun found => edgeRow rules found.1 found.2) := by
  have hshort : (internalLinks report.site).length ≤ maxEdges := by
    have hlimit : decide (maxEdges < (internalLinks report.site).length) = false :=
      Json.bool.inj huncut
    simpa using hlimit
  have hrows : edgeRows (report.toDict rules) =
      rowsOf (.arr (((internalLinks report.site).take maxEdges).map fun found =>
        .obj (edgeRow rules found.1 found.2))) := rfl
  rw [hrows, rowsOf_arr fun found : String × LinkRef => edgeRow rules found.1 found.2,
    List.take_of_length_le hshort]

theorem text_str (url : String) : reader.text (.str url) = url := by
  unfold Reader.text Json.orElse
  by_cases h : url = ""
  · subst h
    rfl
  · rw [if_pos (by simp [h])]

theorem stripped_str (text : String) : stripped (.str text) = .ok (strip text) := by
  unfold stripped Json.orElse
  by_cases h : text = ""
  · subst h
    rfl
  · rw [if_pos (by simp [h])]

/-- The page that the service makes of a crawled page. -/
def nodeOf (rules : TextRules) (page : PageData) : Page where
  url := page.url
  title := Json.ofOption .str page.title
  status := page.statusCode
  indexable := page.isIndexable rules
  depth := page.depth
  words := page.wordCount

theorem pageOf_pageRow {page : PageData} (h : normalise reader.rules page.url = .ok page.url) :
    pageOf reader (pageRow reader.rules page) = .ok (some (nodeOf reader.rules page)) := by
  have hurl : normalise reader.rules
      (reader.text (Dict.get (pageRow reader.rules page) "url")) = .ok page.url := by
    rw [← h]
    exact congrArg _ (text_str page.url)
  have hstatus : reader.int (Dict.get (pageRow reader.rules page) "status") = .ok _ :=
    int_nat page.statusCode
  have hdepth : reader.int (Dict.get (pageRow reader.rules page) "depth") = .ok _ :=
    int_nat page.depth
  have hwords : reader.int (Dict.get (pageRow reader.rules page) "words") = .ok _ :=
    int_nat page.wordCount
  unfold pageOf
  simp only [bind, Except.bind, hurl, hstatus, hdepth, hwords]
  rw [if_neg (normalise_ne_empty h)]
  rfl

/-- A link becomes an edge unless it leads to its own page. -/
def edgeFor (rules : TextRules) (found : String × LinkRef) : Option Edge :=
  if found.1 = found.2.href then none
  else some
    { source := found.1
      target := found.2.href
      anchor := strip (String.ofList (found.2.anchor.toList.take 120))
      nofollow := found.2.isNofollow rules }

theorem edgeOf_edgeRow {source : String} {link : LinkRef}
    (hsource : normalise reader.rules source = .ok source)
    (htarget : normalise reader.rules link.href = .ok link.href) :
    edgeOf reader (edgeRow reader.rules source link) =
      .ok (edgeFor reader.rules (source, link)) := by
  have hfrom : normalise reader.rules
      (reader.text (Dict.get (edgeRow reader.rules source link) "from")) = .ok source := by
    rw [← hsource]
    exact congrArg _ (text_str source)
  have hto : normalise reader.rules
      (reader.text (Dict.get (edgeRow reader.rules source link) "to")) = .ok link.href := by
    rw [← htarget]
    exact congrArg _ (text_str link.href)
  have hanchor : stripped (Dict.get (edgeRow reader.rules source link) "anchor") = .ok _ :=
    stripped_str (String.ofList (link.anchor.toList.take 120))
  unfold edgeOf edgeFor
  simp only [bind, Except.bind, hfrom, hto, hanchor]
  by_cases hsame : source = link.href
  · rw [if_pos (.inr (.inr hsame)), if_pos hsame]
  · have hnot : ¬ (source = "" ∨ link.href = "" ∨ source = link.href) := by
      rintro (h | h | h)
      · exact normalise_ne_empty hsource h
      · exact normalise_ne_empty htarget h
      · exact hsame h
    rw [if_neg hnot, if_neg hsame]
    rfl

theorem mem_internalLinks_iff {ctx : SiteContext} {found : String × LinkRef} :
    found ∈ internalLinks ctx ↔
      ∃ page ∈ ctx.pages, page.url = found.1 ∧ found.2 ∈ page.links ∧
        found.2.isInternal = true := by
  obtain ⟨source, link⟩ := found
  unfold internalLinks
  simp only [List.mem_flatMap, List.mem_map, List.mem_filter, Prod.mk.injEq]
  constructor
  · rintro ⟨page, hpage, link', ⟨hlink, hinternal⟩, rfl, rfl⟩
    exact ⟨page, hpage, rfl, hlink, hinternal⟩
  · rintro ⟨page, hpage, rfl, hlink, hinternal⟩
    exact ⟨page, hpage, link, ⟨hlink, hinternal⟩, rfl, rfl⟩

/-- The graph that the service builds of a crawl. -/
structure Drawn (rules : TextRules) (ctx : SiteContext) (graph : Graph) : Prop where
  pages : graph.pages.entries = ctx.pages.map fun page => (page.url, nodeOf rules page)
  edges : graph.edges = (internalLinks ctx).filterMap (edgeFor rules)

theorem build_toDict (hspelled : OneSpelling reader.rules report.site)
    (hdistinct : (report.site.pages.map PageData.url).Nodup)
    (huncut : Dict.get (internalEdges reader.rules report.site.pages maxEdges) "truncated" =
      .bool false) :
    ∃ graph, build reader (report.toDict reader.rules) = .ok graph ∧
      Drawn reader.rules report.site graph := by
  have hpages : (report.site.pages.map (pageRow reader.rules)).mapM (pageOf reader) =
      .ok (report.site.pages.map fun page => some (nodeOf reader.rules page)) := by
    rw [List.mapM_map]
    exact mapM_ok fun page hpage => pageOf_pageRow (hspelled.pages page hpage).served
  have hedges : ((internalLinks report.site).map fun found =>
      edgeRow reader.rules found.1 found.2).mapM (edgeOf reader) =
      .ok ((internalLinks report.site).map (edgeFor reader.rules)) := by
    rw [List.mapM_map]
    apply mapM_ok
    intro found hfound
    obtain ⟨page, hpage, hurl, hlink, hinternal⟩ := mem_internalLinks_iff.mp hfound
    apply edgeOf_edgeRow
    · rw [← hurl]
      exact (hspelled.pages page hpage).served
    · exact (hspelled.targets page hpage found.2 hlink hinternal).served
  refine ⟨_, (build_eq_ok_iff (pageRows_toDict _ _) (edgeRows_toDict huncut)).mpr
    ⟨_, _, hpages, hedges, rfl⟩, ?_, ?_⟩
  · have hnodes : ((report.site.pages.map fun page =>
        some (nodeOf reader.rules page)).filterMap id).map (fun page => (page.url, page)) =
        report.site.pages.map fun page => (page.url, nodeOf reader.rules page) := by
      rw [List.filterMap_map]
      show ((report.site.pages.filterMap (some ∘ nodeOf reader.rules)).map _) = _
      rw [List.filterMap_eq_map, List.map_map]
      rfl
    rw [hnodes]
    apply Dictionary.entries_ofPairs
    rw [List.map_map]
    exact hdistinct
  · show ((internalLinks report.site).map (edgeFor reader.rules)).filterMap id = _
    rw [List.filterMap_map]
    rfl

/-- What nothing else links to has no edge. -/
theorem countOf_eq_zero_iff {rules : TextRules} {ctx : SiteContext} {graph : Graph}
    (h : Drawn rules ctx graph) (url : String) :
    countOf (inlinkCounts graph) url = 0 ↔ ¬ Supported ctx url := by
  unfold inlinkCounts
  rw [countOf_tally, List.count_eq_zero, h.edges, not_iff_not, List.mem_map]
  unfold Supported LinksTo
  constructor
  · rintro ⟨ends, hends, rfl⟩
    obtain ⟨edge, hedge, rfl⟩ := List.mem_map.mp (List.mem_eraseDups.mp hends)
    obtain ⟨found, hfound, hmade⟩ := List.mem_filterMap.mp hedge
    obtain ⟨page, hpage, hurl, hlink, hinternal⟩ := mem_internalLinks_iff.mp hfound
    unfold edgeFor at hmade
    split at hmade
    · cases hmade
    · rename_i hdiffer
      obtain rfl := Option.some.inj hmade
      exact ⟨page, hpage, hurl ▸ hdiffer, found.2, hlink, hinternal, rfl⟩
  · rintro ⟨page, hpage, hdiffer, link, hlink, hinternal, rfl⟩
    refine ⟨(page.url, link.href), List.mem_eraseDups.mpr (List.mem_map.mpr
      ⟨_, List.mem_filterMap.mpr ⟨(page.url, link), ?_, if_neg hdiffer⟩, rfl⟩), rfl⟩
    exact mem_internalLinks_iff.mpr ⟨page, hpage, rfl, hlink, hinternal⟩

theorem startOf_str {rules : TextRules} {url spelled : String}
    (h : normalise rules url = .ok spelled) (hsome : url ≠ "") :
    startOf rules (.str url) = .ok (some spelled) := by
  unfold startOf
  rw [if_pos (by simp [hsome])]
  dsimp only
  rw [h]
  rfl

/-- The service lists the indexable pages that no other page links to, but for the one
it takes for the start. -/
theorem mem_orphans_iff {rules : TextRules} {ctx : SiteContext} {graph : Graph} {startUrl : Json}
    {start : Option String} {listed : List String} (h : Drawn rules ctx graph)
    (hstart : startOf rules startUrl = .ok start)
    (hlisted : orphans rules graph startUrl = .ok listed) {url : String} :
    url ∈ listed ↔
      (∃ page ∈ ctx.indexablePages rules, page.url = url) ∧ start ≠ some url ∧
        ¬ Supported ctx url := by
  unfold orphans at hlisted
  simp only [bind, Except.bind, hstart] at hlisted
  obtain rfl := Except.ok.inj hlisted
  rw [List.mem_insertionSort, h.pages, List.filter_map, List.map_map]
  simp only [List.mem_map, List.mem_filter, Function.comp_apply, Bool.and_eq_true, beq_iff_eq,
    bne_iff_ne, countOf_eq_zero_iff h, nodeOf]
  unfold SiteContext.indexablePages
  constructor
  · rintro ⟨page, ⟨hpage, ⟨hindexable, hnone⟩, hother⟩, rfl⟩
    exact ⟨⟨page, List.mem_filter.mpr ⟨hpage, hindexable⟩, rfl⟩, hother, hnone⟩
  · rintro ⟨⟨page, hpage, rfl⟩, hother, hnone⟩
    obtain ⟨hpage, hindexable⟩ := List.mem_filter.mp hpage
    exact ⟨page, ⟨hpage, ⟨hindexable, hnone⟩, hother⟩, rfl⟩

end Service

section Lists

variable {reader : Reader} {report : Report}

/-- After a crawl, written in one spelling and reported whole, the two lists agree in
exactly those cases. -/
theorem agree_iff {site : Site} {library : Library} {config : CrawlConfig}
    {fetches probes : Completion} {fuel : Nat}
    (hcrawl : crawl (parsedBy site library) config fetches probes fuel = some (.ok report.site))
    (hrules : reader.rules = site.rules)
    (hpages : 3 ≤ (report.site.indexablePages reader.rules).length)
    (huncut : Dict.get (internalEdges reader.rules report.site.pages maxEdges) "truncated" =
      .bool false)
    (hspelled : OneSpelling reader.rules report.site) :
    Agree reader report ↔ Comparable reader.rules report.site := by
  obtain ⟨linked, hcounted⟩ := counted_of_crawl hcrawl
  have hdistinct := nodup_urls_of_crawl (parses_parsedBy site library) hcrawl
  obtain ⟨graph, hbuild, hdrawn⟩ := build_toDict hspelled hdistinct huncut
  have hsite : OneSpelling (parsedBy site library).rules report.site := hrules ▸ hspelled
  have hzero : ∀ page ∈ report.site.pages, page.inlinks = 0 ↔
      ¬ ∃ other ∈ report.site.htmlPages reader.rules, LinksTo other page.url := by
    intro page hpage
    rw [hrules]
    exact inlinks_eq_zero_iff hsite hcounted hpage
  have hreported := reportedOrphan_iff_unlinked hpages hzero
  constructor
  · rintro ⟨graph', listed, hbuild', hlisted, hagree⟩
    obtain rfl := Except.ok.inj (hbuild.symm.trans hbuild')
    obtain ⟨start, hstart, -⟩ := ok_of_bind hlisted
    have hmem : ∀ url, url ∈ listed ↔
        (∃ page ∈ report.site.indexablePages reader.rules, page.url = url) ∧ start ≠ some url ∧
          ¬ Supported report.site url := by
      intro url
      exact mem_orphans_iff hdrawn hstart hlisted
    refine ⟨?_, ?_, start, hstart, ?_⟩
    · intro page hpage hother hitself
      by_contra halone
      have horphan := (hagree page.url).1.mpr ⟨⟨page, hpage, rfl⟩, hother, halone⟩
      exact ((hreported page.url).mp horphan).2.2 ⟨page, mem_htmlPages hpage, hitself⟩
    · intro page hpage hother hsupported
      by_contra hnone
      have horphan := (hagree page.url).1.mp
        ((hreported page.url).mpr ⟨⟨page, hpage, rfl⟩, hother, hnone⟩)
      exact horphan.2.2 hsupported
    · intro page hpage hother hsame
      by_contra halone
      have hin := (hagree page.url).2.mpr ⟨⟨page, hpage, rfl⟩, hother, halone⟩
      exact ((hmem page.url).mp hin).2.1 hsame
  · rintro ⟨hitself, hanswered, start, hstart, hspelledStart⟩
    obtain ⟨listed, hlisted⟩ : ∃ listed, orphans reader.rules graph
        (.str report.site.startUrl) = .ok listed := by
      unfold orphans
      simp only [bind, Except.bind, hstart]
      exact ⟨_, rfl⟩
    refine ⟨graph, listed, hbuild, hlisted, ?_⟩
    intro url
    rw [hreported, mem_orphans_iff hdrawn hstart hlisted]
    constructor
    · refine and_congr_right ?_
      rintro ⟨page, hpage, rfl⟩
      refine and_congr_right fun hother => not_congr ⟨?_, hanswered page hpage hother⟩
      rintro ⟨other, hlinks, hlink⟩
      have hcrawled := (List.mem_filter.mp hlinks).1
      by_cases hsame : other.url = page.url
      · obtain rfl := List.inj_on_of_nodup_map hdistinct hcrawled (List.mem_filter.mp hpage).1 hsame
        exact hitself other hpage hother hlink
      · exact ⟨other, hcrawled, hsame, hlink⟩
    · refine and_congr_right ?_
      rintro ⟨page, hpage, rfl⟩
      refine and_congr_left fun halone => not_congr ⟨?_, ?_⟩
      · intro hsame
        by_contra hother
        exact halone (hspelledStart page hpage hother hsame)
      · intro hstartUrl
        have hserved := (hspelled.pages page (List.mem_filter.mp hpage).1).served
        rw [← hstartUrl, startOf_str hserved (normalise_ne_empty hserved)] at hstart
        exact (Except.ok.inj hstart).symm

end Lists

section Village

/-- The answer to a request. -/
def answer (url : String) (status : Nat) (contentType text : String) : FetchResult where
  statusCode := status
  finalUrl := url
  redirectChain := []
  headers := []
  text := text
  byteSize := text.utf8ByteSize
  elapsedMs := 20
  contentType := contentType

/-- A site of three pages, the last of which only the sitemap and itself lead to. -/
def village : Site where
  rules := {
    lower := String.map Char.toLower
    casefold := String.map Char.toLower
    netlocFault := fun _ => none }
  robots := { robotsLoaded := true }
  fetch url := .ok (
    if url = "https://shop.ir/sitemap.xml" then
      answer url 200 "text/xml" "<urlset><loc>https://shop.ir/b</loc></urlset>"
    else if url = "https://shop.ir/" then answer url 200 "text/html" "start"
    else if url = "https://shop.ir/a" then answer url 200 "text/html" "a"
    else if url = "https://shop.ir/b" then answer url 200 "text/html" "b"
    else answer url 404 "text/html" "")
  checkStatus _ := .ok (200, none)
  allowed _ := true
  parsePage page _ _ := .ok page

def villageLibrary : Library where
  soup text := {
    anchors := [{
      href := if text = "start" then "/a" else if text = "a" then "/" else "/b"
      rel := .missing
      text := "" }] }
  isWord c := isAsciiLetter c
  sha1 text := text


theorem searchSitemaps_cons {normalize : String → Except Exn String}
    {readAt : String → Except Exn SitemapRead} {seen : List String} {s read : SitemapRead}
    {url sitemapUrl : String} {rest : List String} (hroom : seen.length < maxSitemaps)
    (hurl : normalize url = .ok sitemapUrl) (hnew : seen.contains sitemapUrl = false)
    (hread : readAt sitemapUrl = .ok read) :
    searchSitemaps normalize readAt seen s (url :: rest) =
      searchSitemaps normalize readAt (seen ++ [sitemapUrl]) (s.add read)
        (rest ++ read.children) := by
  rw [searchSitemaps, if_pos hroom, hurl]
  dsimp only
  rw [if_neg (by rw [hnew]; exact Bool.false_ne_true), hread]

theorem searchSitemaps_nil (normalize : String → Except Exn String)
    (readAt : String → Except Exn SitemapRead) (seen : List String) (s : SitemapRead) :
    searchSitemaps normalize readAt seen s [] = .ok s := by
  rw [searchSitemaps]

def villageSite : Site := parsedBy village villageLibrary

def villageConfig : CrawlConfig := { startUrl := "https://shop.ir/" }

/-- What is known of the village before its first page is fetched. -/
def villageOpened : SiteContext where
  startUrl := "https://shop.ir/"
  origin := "https://shop.ir"
  sitemapUrls := ["https://shop.ir/sitemap.xml"]
  sitemapLocs := ["https://shop.ir/b"]

def villageSeed : Progress where
  queued := ["https://shop.ir/", "https://shop.ir/b"]
  frontier := [("https://shop.ir/", 0), ("https://shop.ir/b", 1)]

def villageCandidates : List String :=
  ["https://shop.ir/sitemap.xml", "https://shop.ir/sitemap_index.xml",
    "https://shop.ir/sitemap-index.xml", "https://shop.ir/wp-sitemap.xml"]

theorem searchSitemaps_village :
    searchSitemaps (normalizeUrl villageSite.rules) (readSitemap villageSite) [] {}
      villageCandidates =
        .ok { found := ["https://shop.ir/sitemap.xml"], locs := ["https://shop.ir/b"] } := by
  have hread : readSitemap villageSite "https://shop.ir/sitemap.xml" =
      .ok { found := ["https://shop.ir/sitemap.xml"], locs := ["https://shop.ir/b"] } := by
    decide +kernel
  have hnone : ∀ url ∈ villageCandidates.tail, normalizeUrl villageSite.rules url = .ok url ∧
      readSitemap villageSite url = .ok {} := by
    decide +kernel
  simp only [villageCandidates, List.tail_cons, List.forall_mem_cons] at hnone
  unfold villageCandidates
  refine (searchSitemaps_cons (by decide) (by decide +kernel) (by decide) hread).trans ?_
  refine (searchSitemaps_cons (by decide) hnone.1.1 (by decide) hnone.1.2).trans ?_
  refine (searchSitemaps_cons (by decide) hnone.2.1.1 (by decide) hnone.2.1.2).trans ?_
  refine (searchSitemaps_cons (by decide) hnone.2.2.1.1 (by decide) hnone.2.2.1.2).trans ?_
  exact searchSitemaps_nil _ _ _ _

theorem prepared_village : prepared villageSite villageConfig =
    .ok (villageOpened, villageSeed) := by
  have hstart : normalizeUrl villageSite.rules villageConfig.startUrl =
      .ok "https://shop.ir/" := by decide +kernel
  have horigin : registrableOrigin villageSite.rules "https://shop.ir/" =
      .ok "https://shop.ir" := by decide +kernel
  have hcandidates : (["/sitemap.xml", "/sitemap_index.xml", "/sitemap-index.xml",
      "/wp-sitemap.xml"].mapM fun path =>
        (urljoin villageSite.rules "https://shop.ir" path).mapError Exn.valueError) =
      .ok villageCandidates := by decide +kernel
  have hrobots : robotsSitemaps villageSite.rules villageSite.robots.robotsTxt = [] := by
    decide +kernel
  have hdiscovered : discoverSitemaps villageSite
      { startUrl := "https://shop.ir/"
        origin := "https://shop.ir"
        targetKeywords := villageConfig.targetKeywords
        robotsTxt := villageSite.robots.robotsTxt
        robotsStatus := villageSite.robots.robotsStatus } = .ok villageOpened := by
    unfold discoverSitemaps
    simp only [bind, Except.bind, hcandidates, hrobots, List.nil_append, searchSitemaps_village]
    rfl
  have hprobed : probeWellknown villageSite villageOpened = .ok villageOpened := by
    decide +kernel
  have hseed : seed villageSite villageConfig "https://shop.ir" "https://shop.ir/"
      villageOpened.sitemapLocs = .ok villageSeed := by decide +kernel
  unfold prepared
  simp only [bind, Except.bind, hstart, horigin, hdiscovered, hprobed, hseed]

def villagePage (url : String) (depth : Nat) (html raw href : String) : PageData where
  url := url
  finalUrl := url
  statusCode := 200
  elapsedMs := 20
  contentType := "text/html"
  depth := depth
  html := html
  byteSize := html.utf8ByteSize
  links := [{ href := href, rawHref := raw, anchor := "", isInternal := true }]
  inlinks := 1

def villageContext : SiteContext :=
  { villageOpened with
    pages := [villagePage "https://shop.ir/" 0 "start" "/a" "https://shop.ir/a",
      villagePage "https://shop.ir/b" 1 "b" "/b" "https://shop.ir/b",
      villagePage "https://shop.ir/a" 1 "a" "/" "https://shop.ir/"] }

/-- The pages of the village, which is all that is linked to. -/
def villageUrls : List String := ["https://shop.ir/", "https://shop.ir/a", "https://shop.ir/b"]

theorem crawl_village :
    crawl villageSite villageConfig inOrder inOrder 3 = some (.ok villageContext) := by
  have hsearch : (searchBatches villageSite villageConfig villageOpened.origin inOrder 3 0
      villageSeed).map (fun found => do
        concluded villageSite villageConfig inOrder villageOpened (← found)) =
      some (.ok villageContext) := by decide +kernel
  unfold crawl
  rw [prepared_village]
  exact hsearch

def villageReader : Reader where
  rules := village.rules
  shown := fun _ => ""
  parseInt := fun _ => none

def villageReport : Report where
  site := villageContext
  issues := checkOrphans village.rules villageContext
  overallScore := 100
  categoryScores := []
  generatedAt := ""

theorem oneSpelling_village : OneSpelling villageReader.rules villageReport.site := by
  have hurls : ∀ url ∈ villageUrls, normalizeUrl village.rules url = .ok url ∧
      normalise village.rules url = .ok url := by decide +kernel
  have hpages : ∀ page ∈ villageContext.pages, page.url ∈ villageUrls := by decide
  have htargets : ∀ page ∈ villageContext.pages, ∀ link ∈ page.links,
      link.href ∈ villageUrls := by decide
  constructor
  · intro page hpage
    obtain ⟨hcrawled, hserved⟩ := hurls page.url (hpages page hpage)
    exact ⟨hcrawled, hserved⟩
  · intro page hpage link hlink hinternal
    obtain ⟨hcrawled, hserved⟩ := hurls link.href (htargets page hpage link hlink)
    exact ⟨hcrawled, hserved⟩

theorem agree_iff_village :
    Agree villageReader villageReport ↔ Comparable villageReader.rules villageReport.site :=
  @agree_iff villageReader villageReport village villageLibrary _ _ _ _ crawl_village rfl
    (by decide +kernel) rfl oneSpelling_village

/-- The page `/b` links to itself and nothing else links to it, and the rule does not
report it. -/
theorem not_agree_village :
    crawl (parsedBy village villageLibrary) villageConfig inOrder inOrder 3 =
        some (.ok villageReport.site) ∧
      3 ≤ (villageReport.site.indexablePages villageReader.rules).length ∧
      Dict.get (internalEdges villageReader.rules villageReport.site.pages maxEdges) "truncated" =
        .bool false ∧
      OneSpelling villageReader.rules villageReport.site ∧
      ¬ Agree villageReader villageReport := by
  have hpages : 3 ≤ (villageReport.site.indexablePages villageReader.rules).length := by
    decide +kernel
  refine ⟨crawl_village, hpages, rfl, oneSpelling_village, ?_⟩
  rintro ⟨graph, listed, -, -, hagree⟩
  have horphan : Orphan villageReader.rules villageReport.site "https://shop.ir/b" := by
    refine ⟨?_, by decide, ?_⟩
    · decide +kernel
    · rintro ⟨other, hother, hdiffer, link, hlink, hinternal, hhref⟩
      have hnone : ∀ other ∈ villageContext.pages, other.url ≠ "https://shop.ir/b" →
          ∀ link ∈ other.links, link.href ≠ "https://shop.ir/b" := by decide +kernel
      exact hnone other hother hdiffer link hlink hhref
  obtain ⟨page, hpage, hzero, -, hurl⟩ :=
    (reportedOrphan_iff hpages).mp ((hagree "https://shop.ir/b").1.mpr horphan)
  have hcounted : ∀ page ∈ villageContext.indexablePages village.rules, page.inlinks ≠ 0 := by
    decide +kernel
  exact hcounted page hpage hzero

end Village

end SeoPlatform.InternalLinks.OrphanLists
