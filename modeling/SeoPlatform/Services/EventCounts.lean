import SeoPlatform.Competitor.Analyze
import SeoPlatform.Content.Analyze
import SeoPlatform.Foundation.ExceptFlow
import SeoPlatform.InternalLinks.Findings

namespace SeoPlatform.Services.EventCounts

open SeoPlatform.Competitor.Analyze (Site Theme minCompetitors minTermLength subjects
  terms themes usable)
open SeoPlatform.Content.Analyze
open SeoPlatform.Foundation.Counter
open SeoPlatform.Foundation.Doubles (double)
open SeoPlatform.Foundation.ExceptFlow
open SeoPlatform.Foundation.JsonValue
open SeoPlatform.Foundation.Mapping
open SeoPlatform.Foundation.Tokens (tokens_of_forall)
open SeoPlatform.InternalLinks.Building (Edge Graph Reader)
open SeoPlatform.InternalLinks.Findings (brokenTargets targetsWhere)
open SeoPlatform.Shared.Exceptions
open SeoPlatform.Shared.Text

section Sets

variable (unicode : Unicode)

/-- The keyword was researched. -/
def Studied (keywords : List Keyword) (keyword : String) : Prop :=
  ∃ row ∈ keywords, row.keyword = keyword

/-- The indexable pages that target a keyword. -/
def targetedBy (pages : List Page) (keyword : String) : List Page :=
  pages.filter fun page => page.indexable && decide (targets unicode page keyword = .ok true)

def studied (keywords : List Keyword) : Set String := {keyword | Studied keywords keyword}

/-- The keywords that no page targets. -/
def uncovered (pages : List Page) (keywords : List Keyword) : Set String :=
  {keyword | Studied keywords keyword ∧ targetedBy unicode pages keyword = []}

/-- The keywords that several pages target. -/
def contested (pages : List Page) (keywords : List Keyword) : Set String :=
  {keyword | Studied keywords keyword ∧ 1 < (targetedBy unicode pages keyword).length}

/-- A page of the site declares a term. -/
def Uses (reader : Reader) (site : Site) (term : String) : Prop :=
  minTermLength ≤ term.length ∧ ∃ page ∈ site.indexable, ∃ declared,
    page.declared reader = .ok declared ∧ term ∈ words unicode declared

open Classical in
/-- The terms that enough of the competitors use, and the site itself does not. -/
noncomputable def missingTerms (reader : Reader) (mine : Site) (others : List Site) :
    Set String :=
  {term | minCompetitors ≤ (usable others).countP (Uses unicode reader · term) ∧
    ¬ Uses unicode reader mine term}

/-- The crawled pages that answered with an error and are linked to from inside. -/
def linkedErrors (graph : Graph) : Set String :=
  {url | (∃ page, graph.pages.get? url = some page ∧ page.reachable = false) ∧
    ∃ edge ∈ graph.edges, edge.target = url}

end Sets

section Content

variable {unicode : Unicode} {pages : List Page} {keywords : List Keyword}

theorem targeting_eq {keyword : String} {found : List Page}
    (h : targeting unicode pages keyword = .ok found) :
    found = pages.filter fun page => decide (targets unicode page keyword = .ok true) := by
  unfold targeting at h
  obtain ⟨marked, hmarked, h⟩ := ok_of_bind h
  rw [← filter_of_mapM hmarked]
  exact (Except.ok.inj h).symm

/-- Each keyword is kept once, with the pages that target it. -/
structure Matched (unicode : Unicode) (pages : List Page) (keywords : List Keyword)
    (matched : Dictionary String (List Page)) : Prop where
  keys : ∀ keyword, keyword ∈ matched.keys ↔ Studied keywords keyword
  found : ∀ entry ∈ matched.entries, entry.2 = targetedBy unicode pages entry.1

theorem matched_of_matchKeywords {matched : Dictionary String (List Page)}
    (h : matchKeywords unicode pages keywords = .ok matched) :
    Matched unicode pages keywords matched := by
  unfold matchKeywords at h
  obtain ⟨found, hfound, h⟩ := ok_of_bind h
  obtain rfl := Except.ok.inj h
  have hrow : ∀ pair ∈ found, ∃ row ∈ keywords, pair.1 = row.keyword ∧
      pair.2 = targetedBy unicode pages row.keyword := by
    intro pair hpair
    obtain ⟨row, hrow, hmade⟩ := exists_of_mem_mapM hfound hpair
    obtain ⟨list, hlist, hmade⟩ := ok_of_bind hmade
    cases hmade
    refine ⟨row, hrow, rfl, ?_⟩
    unfold targetedBy
    rw [targeting_eq hlist, List.filter_filter]
    apply List.filter_congr
    intro page _
    exact Bool.and_comm _ _
  have hkeys : found.map Prod.fst = keywords.map Keyword.keyword := by
    apply map_of_mapM _ hfound
    intro row pair hpair
    obtain ⟨list, -, hpair⟩ := ok_of_bind hpair
    cases hpair
    rfl
  constructor
  · intro keyword
    rw [Dictionary.mem_keys_ofPairs, hkeys]
    exact List.mem_map
  · intro entry hentry
    obtain ⟨row, -, hkeyword, hfound⟩ := hrow entry (Dictionary.mem_entries_ofPairs hentry)
    rw [hfound, hkeyword]

theorem ncard_studied {matched : Dictionary String (List Page)}
    (h : Matched unicode pages keywords matched) (kind : List Page → Bool) :
    {keyword | Studied keywords keyword ∧ kind (targetedBy unicode pages keyword) = true}.ncard =
      (matched.entries.filter fun entry => kind entry.2).length := by
  rw [← List.length_map Prod.fst]
  apply ncard_eq_length
  · exact (List.filter_sublist.map Prod.fst).nodup matched.nodup_keys
  · intro keyword
    rw [List.mem_map, ← h.keys]
    constructor
    · rintro ⟨entry, hentry, rfl⟩
      obtain ⟨hentry, hkind⟩ := List.mem_filter.mp hentry
      rw [h.found entry hentry] at hkind
      exact ⟨List.mem_map_of_mem hentry, hkind⟩
    · rintro ⟨hkey, hkind⟩
      obtain ⟨entry, hentry, rfl⟩ := List.mem_map.mp hkey
      refine ⟨entry, List.mem_filter.mpr ⟨hentry, ?_⟩, rfl⟩
      rw [h.found entry hentry]
      exact hkind

/-- What the analysis counts is counted among the keywords, and its lists are cut. -/
structure Counted (unicode : Unicode) (pages : List Page) (keywords : List Keyword)
    (summary : Summary) : Prop where
  covered : summary.covered + (uncovered unicode pages keywords).ncard = (studied keywords).ncard
  gaps : summary.gaps.length = min 25 (uncovered unicode pages keywords).ncard
  cannibalisation :
    summary.cannibalisation.length = min 25 (contested unicode pages keywords).ncard

theorem isOk_summarise {reader : Reader} {report research : Dict}
    {matched : Dictionary String (List Page)} (hpages : buildPages reader report = .ok pages)
    (hkeywords : buildKeywords reader research = .ok keywords)
    (hmatched : matchKeywords unicode pages keywords = .ok matched) :
    (summarise reader unicode report research).isOk = true := by
  simp only [summarise, hpages, hkeywords, hmatched, bind, Except.bind]
  rfl

theorem counted_of_summarise {reader : Reader} {report research : Dict} {summary : Summary}
    (hpages : buildPages reader report = .ok pages)
    (hkeywords : buildKeywords reader research = .ok keywords)
    (h : summarise reader unicode report research = .ok summary) :
    Counted unicode pages keywords summary := by
  unfold summarise at h
  obtain ⟨pages', hpages', h⟩ := ok_of_bind h
  obtain rfl := Except.ok.inj (hpages.symm.trans hpages')
  obtain ⟨keywords', hkeywords', h⟩ := ok_of_bind h
  obtain rfl := Except.ok.inj (hkeywords.symm.trans hkeywords')
  obtain ⟨matched, hmatched, h⟩ := ok_of_bind h
  obtain rfl := Except.ok.inj h
  have hspec := matched_of_matchKeywords hmatched
  have hstudied : (studied keywords).ncard = matched.entries.length := by
    have hall := ncard_studied hspec fun _ => true
    simpa [studied] using hall
  have huncovered : (uncovered unicode pages keywords).ncard =
      (matched.entries.filter fun entry => entry.2.isEmpty).length := by
    have hnone := ncard_studied hspec List.isEmpty
    simpa [uncovered] using hnone
  have hcontested : (contested unicode pages keywords).ncard =
      (matched.entries.filter fun entry => 1 < entry.2.length).length := by
    have hmany := ncard_studied hspec fun found => 1 < found.length
    simpa [contested] using hmany
  constructor
  · rw [huncovered, hstudied]
    have hsplit := matched.entries.length_eq_length_filter_add fun entry => !entry.2.isEmpty
    simpa using hsplit.symm
  · rw [huncovered]
    unfold gaps
    rw [List.length_take, List.length_insertionSort, List.length_map]
  · rw [hcontested]
    unfold cannibalisation
    rw [List.length_take, List.length_insertionSort, List.length_map]

end Content

section Competitor

variable {reader : Reader} {unicode : Unicode}

theorem terms_spec {site : Site} {counts : List (String × Nat)}
    (h : terms reader unicode site = .ok counts) :
    (counts.map Prod.fst).Nodup ∧
      ∀ term, term ∈ counts.map Prod.fst ↔ Uses unicode reader site term := by
  unfold terms at h
  obtain ⟨seen, hseen, h⟩ := ok_of_bind h
  obtain rfl := Except.ok.inj h
  rw [map_fst_tally]
  refine ⟨nodup_eraseDups _, ?_⟩
  intro term
  rw [List.mem_eraseDups, List.mem_flatten]
  constructor
  · rintro ⟨found, hfound, hterm⟩
    obtain ⟨page, hpage, hmade⟩ := exists_of_mem_mapM hseen hfound
    obtain ⟨declared, hdeclared, hmade⟩ := ok_of_bind hmade
    obtain rfl := Except.ok.inj hmade
    obtain ⟨hword, hlong⟩ := List.mem_filter.mp (List.mem_eraseDups.mp hterm)
    exact ⟨of_decide_eq_true hlong, page, hpage, declared, hdeclared, hword⟩
  · rintro ⟨hlong, page, hpage, declared, hdeclared, hword⟩
    obtain ⟨found, hfound, hmade⟩ := exists_mem_of_mapM hseen hpage
    unfold subjects at hmade
    rw [hdeclared] at hmade
    obtain rfl := Except.ok.inj hmade
    exact ⟨_, hfound, List.mem_eraseDups.mpr
      (List.mem_filter.mpr ⟨hword, decide_eq_true hlong⟩)⟩

open Classical in
/-- The competitors that use a term are counted. -/
theorem count_coverage {sites : List Site} {counts : List (List (String × Nat))}
    (h : sites.mapM (terms reader unicode) = .ok counts) (term : String) :
    (counts.flatten.map Prod.fst).count term =
      sites.countP fun site => Uses unicode reader site term := by
  induction sites generalizing counts with
  | nil =>
      cases h
      rfl
  | cons site rest ih =>
      rw [List.mapM_cons] at h
      obtain ⟨first, hfirst, h⟩ := ok_of_bind h
      obtain ⟨later, hrest, h⟩ := ok_of_bind h
      cases h
      obtain ⟨hnodup, hmem⟩ := terms_spec hfirst
      rw [List.flatten_cons, List.map_append, List.count_append, ih hrest, List.countP_cons,
        hnodup.count, Nat.add_comm]
      simp only [hmem, decide_eq_true_eq]

theorem length_themes {mine : Site} {others : List Site} {found : List Theme}
    (h : themes reader unicode mine others = .ok found) :
    found.length = min 25 (missingTerms unicode reader mine others).ncard := by
  unfold themes at h
  obtain ⟨ours, hours, h⟩ := ok_of_bind h
  obtain ⟨counts, hcounts, h⟩ := ok_of_bind h
  obtain rfl := Except.ok.inj h
  obtain ⟨-, hmine⟩ := terms_spec hours
  rw [List.length_take, List.length_insertionSort, List.length_map, ← List.length_map Prod.fst]
  congr 1
  refine (ncard_eq_length ?_ ?_).symm
  · apply (List.filter_sublist.map Prod.fst).nodup
    unfold Competitor.Analyze.coverageOf
    rw [map_fst_tally]
    exact nodup_eraseDups _
  · intro term
    rw [List.mem_map]
    constructor
    · rintro ⟨⟨term, used⟩, hentry, rfl⟩
      obtain ⟨hentry, hkept⟩ := List.mem_filter.mp hentry
      obtain ⟨-, rfl⟩ := mem_tally_iff.mp hentry
      rw [count_coverage hcounts] at hkept
      simp only [Bool.and_eq_true, decide_eq_true_eq, Bool.not_eq_true', List.contains_eq_mem,
        decide_eq_false_iff_not, hmine] at hkept
      exact hkept
    · rintro ⟨hused, hmissing⟩
      refine ⟨(term, (counts.flatten.map Prod.fst).count term), ?_, rfl⟩
      rw [← count_coverage hcounts] at hused
      refine List.mem_filter.mpr ⟨mem_tally_iff.mpr ⟨?_, rfl⟩, ?_⟩
      · apply List.count_pos_iff.mp
        exact lt_of_lt_of_le (by decide) hused
      · simp only [Bool.and_eq_true, decide_eq_true_eq, Bool.not_eq_true', List.contains_eq_mem,
          decide_eq_false_iff_not, hmine]
        exact ⟨hused, hmissing⟩

theorem length_missingThemes {mineReport : Dict} {competitorReports : List Dict} {mine : Site}
    {others : List Site} {comparison : Competitor.Analyze.Summary}
    (hmine : Competitor.Analyze.buildSite reader mineReport = .ok mine)
    (hothers : competitorReports.mapM (Competitor.Analyze.buildSite reader) = .ok others)
    (h : Competitor.Analyze.summarise reader unicode mineReport competitorReports =
      .ok comparison) :
    comparison.missingThemes.length = min 25 (missingTerms unicode reader mine others).ncard := by
  unfold Competitor.Analyze.summarise Competitor.Analyze.summariseWith at h
  split at h
  · cases h
  · obtain ⟨mine', hmine', h⟩ := ok_of_bind h
    obtain rfl := Except.ok.inj (hmine.symm.trans hmine')
    obtain ⟨others', hothers', h⟩ := ok_of_bind h
    obtain rfl := Except.ok.inj (hothers.symm.trans hothers')
    obtain ⟨myProfile, -, h⟩ := ok_of_bind h
    obtain ⟨theirProfiles, -, h⟩ := ok_of_bind h
    obtain ⟨missing, hmissing, h⟩ := ok_of_bind h
    obtain ⟨shared, -, h⟩ := ok_of_bind h
    obtain rfl := Except.ok.inj h
    exact length_themes hmissing

end Competitor

section Links

theorem length_brokenTargets (graph : Graph) :
    (brokenTargets graph).length = min 50 (linkedErrors graph).ncard := by
  have hitems : ∀ url, url ∈ graph.edges.filterMap (fun edge =>
      (graph.pages.get? edge.target).bind fun page =>
        if !page.reachable then some edge.target else none) ↔
      (∃ page, graph.pages.get? url = some page ∧ page.reachable = false) ∧
        ∃ edge ∈ graph.edges, edge.target = url := by
    intro url
    simp only [List.mem_filterMap, Option.bind_eq_some_iff, Option.ite_none_right_eq_some,
      Option.some.injEq, Bool.not_eq_true']
    constructor
    · rintro ⟨edge, hedge, page, hpage, hbroken, rfl⟩
      exact ⟨⟨page, hpage, hbroken⟩, edge, hedge, rfl⟩
    · rintro ⟨⟨page, hpage, hbroken⟩, edge, hedge, rfl⟩
      exact ⟨edge, hedge, page, hpage, hbroken, rfl⟩
  unfold brokenTargets targetsWhere
  dsimp only
  rw [List.filterMap_length_eq_length.mpr, length_mostCommon, ← List.length_map Prod.fst,
    map_fst_tally]
  · congr 1
    refine (ncard_eq_length (nodup_eraseDups _) ?_).symm
    intro url
    rw [List.mem_eraseDups]
    exact hitems url
  · intro entry hentry
    obtain ⟨hcounted, -⟩ := mem_tally_iff.mp (mem_of_mem_mostCommon hentry)
    obtain ⟨⟨page, hpage, -⟩, -⟩ := (hitems entry.1).mp hcounted
    rw [hpage]
    rfl

theorem brokenTargets_of_summarise {reader : Reader} {report : Dict} {graph : Graph}
    {links : InternalLinks.Findings.Summary}
    (hgraph : InternalLinks.Building.build reader report = .ok graph)
    (h : InternalLinks.Findings.summarise reader report = .ok links) :
    links.brokenTargets = brokenTargets graph := by
  unfold InternalLinks.Findings.summarise at h
  obtain ⟨graph', hgraph', h⟩ := ok_of_bind h
  obtain rfl := Except.ok.inj (hgraph.symm.trans hgraph')
  obtain ⟨ranking, -, h⟩ := ok_of_bind h
  obtain ⟨orphanUrls, -, h⟩ := ok_of_bind h
  obtain ⟨candidates, -, h⟩ := ok_of_bind h
  obtain rfl := Except.ok.inj h
  rfl

end Links

section Payloads

/-- The keywords that are covered and the gaps are all keywords. -/
def GapsCounted (keywords : List Keyword) (payload : Dict) : Prop :=
  ∃ covered gaps : Nat, Dict.get payload "covered" = .int covered ∧
    Dict.get payload "gap_count" = .int gaps ∧ covered + gaps = (studied keywords).ncard

/-- A field is the size of a set. -/
def CountOf (payload : Dict) (name : String) (counted : Set String) : Prop :=
  Dict.get payload name = .int counted.ncard

theorem int_min_eq_iff {limit count : Nat} :
    Json.int (min limit count : Nat) = .int count ↔ count ≤ limit := by
  rw [Json.int.injEq]
  omega

variable {reader : Reader} {unicode : Unicode}

theorem gapsCounted_iff {pages : List Page} {keywords : List Keyword} {content : Summary}
    (h : Counted unicode pages keywords content) (analysisId crawlId researchId : String) :
    GapsCounted keywords
        (analyzedPayload analysisId crawlId researchId (some content) "completed" none) ↔
      (uncovered unicode pages keywords).ncard ≤ 25 := by
  have hcovered := h.covered
  have hgaps := h.gaps
  constructor
  · rintro ⟨covered, gaps, hcoveredField, hgapsField, hsum⟩
    have hcoveredField : (content.covered : Int) = covered := Json.int.inj hcoveredField
    have hgapsField : (content.gaps.length : Int) = gaps := Json.int.inj hgapsField
    omega
  · intro hfew
    refine ⟨content.covered, content.gaps.length, rfl, rfl, ?_⟩
    omega

/-- Each count of the events counts what it says exactly as long as that is no more than
the list that it is taken from may hold. -/
theorem event_counts_iff {report research : Dict} {pages : List Page} {keywords : List Keyword}
    {content : Summary} (hpages : buildPages reader report = .ok pages)
    (hkeywords : buildKeywords reader research = .ok keywords)
    (hcontent : summarise reader unicode report research = .ok content)
    {mineReport : Dict} {competitorReports : List Dict} {mine : Site} {others : List Site}
    {comparison : Competitor.Analyze.Summary}
    (hmine : Competitor.Analyze.buildSite reader mineReport = .ok mine)
    (hothers : competitorReports.mapM (Competitor.Analyze.buildSite reader) = .ok others)
    (hcomparison : Competitor.Analyze.summarise reader unicode mineReport competitorReports =
      .ok comparison)
    {linkReport : Dict} {graph : Graph} {links : InternalLinks.Findings.Summary}
    (hgraph : InternalLinks.Building.build reader linkReport = .ok graph)
    (hlinks : InternalLinks.Findings.summarise reader linkReport = .ok links)
    (id crawlId researchId : String) (crawlIds : List String) :
    (GapsCounted keywords (analyzedPayload id crawlId researchId (some content) "completed" none) ↔
      (uncovered unicode pages keywords).ncard ≤ 25) ∧
    (CountOf (analyzedPayload id crawlId researchId (some content) "completed" none)
        "cannibalisation_count" (contested unicode pages keywords) ↔
      (contested unicode pages keywords).ncard ≤ 25) ∧
    (CountOf (Competitor.Analyze.comparedPayload id crawlId crawlIds (some comparison)
        "completed" none) "missing_theme_count" (missingTerms unicode reader mine others) ↔
      (missingTerms unicode reader mine others).ncard ≤ 25) ∧
    (CountOf (InternalLinks.Findings.analyzedPayload id crawlId (some links) "completed" none)
        "broken_target_count" (linkedErrors graph) ↔
      (linkedErrors graph).ncard ≤ 50) := by
  have hcounted := counted_of_summarise hpages hkeywords hcontent
  refine ⟨?_, ?_, ?_, ?_⟩
  · exact gapsCounted_iff hcounted id crawlId researchId
  · have hcount : Dict.get (analyzedPayload id crawlId researchId (some content) "completed" none)
        "cannibalisation_count" = .int content.cannibalisation.length := rfl
    unfold CountOf
    rw [hcount, hcounted.cannibalisation]
    exact int_min_eq_iff
  · have hcount : Dict.get (Competitor.Analyze.comparedPayload id crawlId crawlIds
        (some comparison) "completed" none) "missing_theme_count" =
          .int comparison.missingThemes.length := rfl
    unfold CountOf
    rw [hcount, length_missingThemes hmine hothers hcomparison]
    exact int_min_eq_iff
  · have hcount : Dict.get (InternalLinks.Findings.analyzedPayload id crawlId (some links)
        "completed" none) "broken_target_count" = .int links.brokenTargets.length := rfl
    unfold CountOf
    rw [hcount, brokenTargets_of_summarise hgraph hlinks, length_brokenTargets]
    exact int_min_eq_iff

end Payloads

section Shop

/-- A reader whose values are all texts and whole numbers. -/
def shopReader : Reader where
  rules := {
    lower := String.map Char.toLower
    casefold := String.map Char.toLower
    netlocFault := fun _ => none }
  shown _ := ""
  parseInt _ := none

/-- The crawl of a site of one page. -/
def shopReport : Dict :=
  [("start_url", .str "https://shop.ir/"),
   ("pages", .arr [.obj
     [("url", .str "https://shop.ir/"), ("title", .str "shoes"), ("status", .int 200),
      ("indexable", .bool true)]])]

def study (names : List String) : Dict := [("keywords", .arr (names.map .str))]

def keywordsOf (names : List String) : List Keyword :=
  names.map fun name => { keyword := name, demand := 0, intent := "unknown" }

def shopPages : List Page :=
  [{ url := "https://shop.ir/", title := .str "shoes" }]

theorem event_counts_iff_shop : ∃ content mine others comparison graph links,
    (GapsCounted (keywordsOf ["shoes", "bags"])
        (analyzedPayload "an-1" "cr-1" "kr-1" (some content) "completed" none) ↔
      (uncovered plainUnicode shopPages (keywordsOf ["shoes", "bags"])).ncard ≤ 25) ∧
    (CountOf (analyzedPayload "an-1" "cr-1" "kr-1" (some content) "completed" none)
        "cannibalisation_count"
        (contested plainUnicode shopPages (keywordsOf ["shoes", "bags"])) ↔
      (contested plainUnicode shopPages (keywordsOf ["shoes", "bags"])).ncard ≤ 25) ∧
    (CountOf (Competitor.Analyze.comparedPayload "an-1" "cr-1" ["cr-2"] (some comparison)
        "completed" none) "missing_theme_count"
        (missingTerms plainUnicode shopReader mine others) ↔
      (missingTerms plainUnicode shopReader mine others).ncard ≤ 25) ∧
    (CountOf (InternalLinks.Findings.analyzedPayload "an-1" "cr-1" (some links) "completed" none)
        "broken_target_count" (linkedErrors graph) ↔
      (linkedErrors graph).ncard ≤ 50) := by
  obtain ⟨content, hcontent⟩ := ok_of_isOk (x := summarise shopReader plainUnicode shopReport
    (study ["shoes", "bags"])) (by decide +kernel)
  obtain ⟨mine, hmine⟩ := ok_of_isOk (x := Competitor.Analyze.buildSite shopReader shopReport)
    (by decide +kernel)
  obtain ⟨others, hothers⟩ := ok_of_isOk (x := [shopReport].mapM
    (Competitor.Analyze.buildSite shopReader)) (by decide +kernel)
  obtain ⟨comparison, hcomparison⟩ := ok_of_isOk (x := Competitor.Analyze.summarise shopReader
    plainUnicode shopReport [shopReport]) (by decide +kernel)
  obtain ⟨graph, hgraph⟩ := ok_of_isOk (x := InternalLinks.Building.build shopReader
    shopReport) (by decide +kernel)
  obtain ⟨links, hlinks⟩ := ok_of_isOk (x := InternalLinks.Findings.summarise shopReader
    shopReport) (by decide +kernel)
  refine ⟨content, mine, others, comparison, graph, links, ?_⟩
  exact event_counts_iff rfl rfl hcontent hmine hothers hcomparison hgraph hlinks "an-1" "cr-1"
    "kr-1" ["cr-2"]

/-- Twenty-six keywords, none of which the shop has a page for. -/
def manyNames : List String :=
  (List.range 26).map fun n => String.ofList (List.replicate (n + 3) 'x')

theorem ncard_studied_many : (studied (keywordsOf manyNames)).ncard = 26 := by
  have hnodup : manyNames.Nodup := by
    refine List.nodup_range.map fun m n heq => ?_
    have hlength := congrArg String.length heq
    simp only [String.length_ofList, List.length_replicate] at hlength
    omega
  refine ncard_eq_length hnodup ?_
  intro keyword
  simp [Studied, keywordsOf]

/-- A page that shares no word with a keyword does not target it. -/
theorem targets_of_disjoint {unicode : Unicode} {page : Page} {keyword declared : String}
    (hdeclared : page.declared = .ok declared)
    (hdisjoint : ∀ w ∈ words unicode keyword, w ∉ words unicode declared) :
    targets unicode page keyword = .ok false := by
  have hhits : hits (words unicode keyword) (words unicode declared) = 0 :=
    List.countP_eq_zero.mpr fun w hw => by simpa using hdisjoint w hw
  have hnone : ¬ matchRatio ≤ double 0 := by decide +kernel
  simp only [targets, hdeclared]
  split
  · rfl
  · simpa [enough, hhits, bind, Except.bind] using hnone

theorem splitWords_many {name : String} (h : name ∈ manyNames) :
    splitWords (normalise plainUnicode name) = [name] := by
  obtain ⟨n, -, rfl⟩ := List.mem_map.mp h
  have hspelled : spelled plainUnicode (List.replicate (n + 3) 'x') =
      List.replicate (n + 3) 'x' := by
    have hother : ∀ entry ∈ foldTable, entry.1 ≠ 'x' := by decide
    have hfold : foldSpelling (List.replicate (n + 3) 'x') = List.replicate (n + 3) 'x' :=
      foldSpelling_of_notMem fun entry hentry hmem =>
        hother entry hentry (List.eq_of_mem_replicate hmem)
    have hkept : isDiacritic 'x' = false ∧ isPunctuation 'x' = false := by decide
    simp [spelled, plainUnicode, hfold, hkept]
  have hword : ∀ c ∈ List.replicate (n + 3) 'x', nonWord plainUnicode c = false := by
    intro c hc
    rw [List.eq_of_mem_replicate hc]
    decide
  rw [splitWords_normalise standard_plainUnicode, String.toList_ofList, hspelled,
    tokens_of_forall hword]
  simp [plainUnicode]

theorem targets_many {page : Page} (hpage : page ∈ shopPages) {name : String}
    (hname : name ∈ manyNames) : targets plainUnicode page name = .ok false := by
  obtain rfl := List.mem_singleton.mp hpage
  refine targets_of_disjoint rfl fun w hw hshoes => ?_
  have hw : w = name := by
    rw [mem_words_iff, splitWords_many hname, List.mem_singleton] at hw
    exact hw.1
  have hdeclared : ∀ w ∈ words plainUnicode (" ".intercalate ["shoes", "shoes", ""]),
      w = "shoes" := by decide +kernel
  obtain ⟨n, -, heq⟩ := List.mem_map.mp hname
  have hchars := congrArg String.toList (heq.trans (hw.symm.trans (hdeclared w hshoes)))
  rw [String.toList_ofList, List.replicate_succ] at hchars
  exact absurd (List.cons.inj hchars).1 (by decide)

theorem targeting_many {name : String} (h : name ∈ manyNames) :
    targeting plainUnicode shopPages name = .ok [] := by
  unfold targeting
  rw [mapM_ok (g := fun page => (page, false)) fun page hpage => by
    rw [targets_many hpage h]
    rfl]
  rfl

theorem matchKeywords_many : matchKeywords plainUnicode shopPages (keywordsOf manyNames) =
    .ok (.ofPairs ((keywordsOf manyNames).map fun row => (row.keyword, []))) := by
  have hfound : (keywordsOf manyNames).mapM (fun row => do
      .ok (row.keyword, ← targeting plainUnicode shopPages row.keyword)) =
        .ok ((keywordsOf manyNames).map fun row => (row.keyword, [])) :=
    mapM_ok fun row hrow => by
      obtain ⟨name, hname, rfl⟩ := List.mem_map.mp hrow
      rw [targeting_many hname]
      rfl
  simp only [matchKeywords, show shopPages.filter Page.indexable = shopPages from rfl, hfound]
  rfl

theorem not_gapsCounted_many : ∃ content,
    summarise shopReader plainUnicode shopReport (study manyNames) = .ok content ∧
      ¬ GapsCounted (keywordsOf manyNames)
        (analyzedPayload "an-1" "cr-1" "kr-1" (some content) "completed" none) := by
  have hcontent : (summarise shopReader plainUnicode shopReport (study manyNames)).isOk = true :=
    isOk_summarise rfl rfl matchKeywords_many
  obtain ⟨content, hcontent⟩ := ok_of_isOk hcontent
  refine ⟨content, hcontent, ?_⟩
  have hcounted : Counted plainUnicode shopPages (keywordsOf manyNames) content :=
    counted_of_summarise rfl rfl hcontent
  have huncovered : uncovered plainUnicode shopPages (keywordsOf manyNames) =
      studied (keywordsOf manyNames) := by
    ext name
    refine and_iff_left_of_imp fun ⟨row, hrow, hname⟩ => ?_
    obtain ⟨name', hname', rfl⟩ := List.mem_map.mp hrow
    refine List.filter_eq_nil_iff.mpr fun page hpage => ?_
    rw [← hname, targets_many hpage hname']
    simp
  rw [gapsCounted_iff hcounted, huncovered, ncard_studied_many]
  decide

end Shop

end SeoPlatform.Services.EventCounts
