import Mathlib.Algebra.Order.BigOperators.Group.List
import Mathlib.Data.List.Sort
import SeoPlatform.Crawler.Models
import SeoPlatform.Foundation.JsonValue
import SeoPlatform.Foundation.Rounding

namespace SeoPlatform.Engine.AuditReport

open SeoPlatform.Crawler.Models
open SeoPlatform.Foundation.JsonValue
open SeoPlatform.Foundation.Rounding
open SeoPlatform.Foundation.UrlText

inductive Severity where
  | critical
  | high
  | medium
  | low
  | info
  deriving DecidableEq, Repr

def Severity.value : Severity → String
  | .critical => "critical"
  | .high => "high"
  | .medium => "medium"
  | .low => "low"
  | .info => "info"

def Severity.weight : Severity → Nat
  | .critical => 30
  | .high => 15
  | .medium => 7
  | .low => 3
  | .info => 0

/-- From worst to mildest. -/
def Severity.order : Severity → Nat
  | .critical => 0
  | .high => 1
  | .medium => 2
  | .low => 3
  | .info => 4

def Severity.labelFa : Severity → String
  | .critical => "بحرانی"
  | .high => "زیاد"
  | .medium => "متوسط"
  | .low => "کم"
  | .info => "اطلاعی"

inductive Category where
  | indexing
  | content
  | technical
  | performance
  | structuredData
  | links
  | images
  | eeat
  | international
  | aiSearch
  deriving DecidableEq, Repr

def Category.value : Category → String
  | .indexing => "indexing"
  | .content => "content"
  | .technical => "technical"
  | .performance => "performance"
  | .structuredData => "structured_data"
  | .links => "links"
  | .images => "images"
  | .eeat => "eeat"
  | .international => "international"
  | .aiSearch => "ai_search"

def Category.labelFa : Category → String
  | .indexing => "ایندکس‌شدن و خزش"
  | .content => "محتوا و کلمات کلیدی"
  | .technical => "فنی"
  | .performance => "سرعت و Core Web Vitals"
  | .structuredData => "داده ساختاریافته"
  | .links => "لینک‌سازی"
  | .images => "تصاویر"
  | .eeat => "اعتبار و E-E-A-T"
  | .international => "چندزبانه"
  | .aiSearch => "جستجوی هوش مصنوعی"

def Category.labelEn : Category → String
  | .indexing => "Indexing & Crawling"
  | .content => "Content & Keywords"
  | .technical => "Technical"
  | .performance => "Speed & Core Web Vitals"
  | .structuredData => "Structured Data"
  | .links => "Linking"
  | .images => "Images"
  | .eeat => "Trust & E-E-A-T"
  | .international => "Internationalization"
  | .aiSearch => "AI Search"

/-- In the order of the enumeration. -/
def categories : List Category :=
  [.indexing, .content, .technical, .performance, .structuredData, .links, .images, .eeat,
    .international, .aiSearch]

/-- Weight of each category in the overall score. -/
def categoryWeight : Category → Rat
  | .indexing => 1.4
  | .content => 1.4
  | .technical => 1.2
  | .performance => 1.2
  | .links => 1.0
  | .structuredData => 0.8
  | .images => 0.7
  | .eeat => 1.0
  | .aiSearch => 0.7
  | .international => 0.5

structure Issue where
  id : String
  titleEn : String
  titleFa : String
  detailFa : String
  fixFa : String
  severity : Severity
  category : Category
  urls : List String := []
  evidence : String := ""
  docs : String := ""
  deriving DecidableEq, Repr

def Issue.affectedCount (issue : Issue) : Nat := issue.urls.length

def Issue.toDict (issue : Issue) : Dict :=
  [("id", .str issue.id),
   ("title_en", .str issue.titleEn),
   ("title_fa", .str issue.titleFa),
   ("detail_fa", .str issue.detailFa),
   ("fix_fa", .str issue.fixFa),
   ("severity", .str issue.severity.value),
   ("severity_fa", .str issue.severity.labelFa),
   ("category", .str issue.category.value),
   ("category_fa", .str issue.category.labelFa),
   ("category_en", .str issue.category.labelEn),
   ("urls", .arr ((issue.urls.take 50).map .str)),
   ("affected_count", .int issue.affectedCount),
   ("evidence", .str issue.evidence),
   ("docs", .str issue.docs)]

def gradeFor (score : Int) : String :=
  if 90 ≤ score then "عالی"
  else if 75 ≤ score then "خوب"
  else if 60 ≤ score then "قابل قبول"
  else if 40 ≤ score then "ضعیف"
  else "بحرانی"

structure CategoryScore where
  category : Category
  score : Int
  issueCount : Nat
  deriving DecidableEq, Repr

def CategoryScore.toDict (c : CategoryScore) : Dict :=
  [("category", .str c.category.value),
   ("label_fa", .str c.category.labelFa),
   ("label_en", .str c.category.labelEn),
   ("score", .int c.score),
   ("issue_count", .int c.issueCount),
   ("grade", .str (gradeFor c.score))]

structure Report where
  site : SiteContext
  issues : List Issue
  overallScore : Int
  categoryScores : List CategoryScore
  generatedAt : String

section Scoring

variable {K : Type} [Field K] [LinearOrder K] [FloorRing K]

/-- Severity drives the base penalty; breadth scales it sub-linearly. -/
def penalty (sqrt : K → K) (issue : Issue) (pageCount : Nat) : K :=
  if issue.severity.weight = 0 then 0
  else
    let affected := max 1 issue.affectedCount
    let breadth : K := min 1 ((affected : K) / (max 1 pageCount : Nat))
    (issue.severity.weight : K) * (55 / 100 + 45 / 100 * sqrt breadth)

/-- The core areas always, the optional ones only when relevant. -/
def isActive (rules : TextRules) (ctx : SiteContext) (issues : List Issue) : Category → Bool
  | .images => (ctx.htmlPages rules).any fun page => !page.images.isEmpty
  | .international =>
      ((ctx.htmlPages rules).any fun page => !page.hreflang.isEmpty) ||
        issues.any fun issue => issue.category = .international
  | _ => true

def scoreOf (sqrt : K → K) (issues : List Issue) (pageCount : Nat) (category : Category) :
    CategoryScore where
  category := category
  score :=
    let penalties := (issues.filter (·.category = category)).map (penalty sqrt · pageCount)
    max 0 (min 100 (roundEven (100 - penalties.sum)))
  issueCount :=
    (issues.filter fun issue => issue.category = category && issue.severity ≠ .info).length

/-- The weighted mean of the scores. -/
def overall (scores : List CategoryScore) : Int :=
  if scores.isEmpty then 100
  else
    let total := (scores.map fun c => categoryWeight c.category).sum
    roundEven ((scores.map fun c => (c.score : Rat) * categoryWeight c.category).sum / total)

/-- A critical issue anywhere caps the overall score. -/
def capped (issues : List Issue) (score : Int) : Int :=
  if issues.any (·.severity = .critical) then min score 45 else score

def buildReport (sqrt : K → K) (rules : TextRules) (ctx : SiteContext) (issues : List Issue)
    (generatedAt : String) : Report :=
  let pageCount := max 1 (ctx.htmlPages rules).length
  let scores :=
    (categories.filter (isActive rules ctx issues)).map (scoreOf sqrt issues pageCount)
  { site := ctx
    issues := issues
    overallScore := capped issues (overall scores)
    categoryScores := scores.insertionSort fun a b => a.score ≤ b.score
    generatedAt := generatedAt }

end Scoring

def Report.bySeverity (report : Report) (severity : Severity) : List Issue :=
  report.issues.filter fun issue => issue.severity = severity

def cheapFixes : List String :=
  ["title-missing", "title-too-long", "title-too-short", "meta-description-missing",
    "h1-missing", "image-alt-missing", "viewport-missing", "canonical-missing",
    "robots-no-sitemap", "html-lang-missing", "og-missing", "image-no-dimensions",
    "no-lazy-loading", "sitemap-missing", "charset-missing", "missing-rtl-direction",
    "no-breadcrumb-schema", "empty-anchor-text", "url-uppercase", "no-hsts"]

/-- The graver issue first, and of two as grave the wider one. -/
def worseThan (a b : Issue) : Prop :=
  a.severity.order < b.severity.order ∨
    (a.severity.order = b.severity.order ∧ b.affectedCount ≤ a.affectedCount)

instance : DecidableRel worseThan := fun _ _ => inferInstanceAs (Decidable (_ ∨ _))

/-- High impact, low effort. -/
def Report.quickWins (report : Report) : List Issue :=
  let isCheap (issue : Issue) : Bool :=
    cheapFixes.contains issue.id || issue.severity = .critical || issue.severity = .high
  ((report.issues.filter isCheap).insertionSort worseThan).take 8

/-- Ceiling on the internal edges carried in a report. -/
def maxEdges : Nat := 50000

/-- Headings kept per page. -/
def maxHeadings : Nat := 20

/-- Who links to whom inside the site, with what anchor. -/
def internalEdges (rules : TextRules) (pages : List PageData) (limit : Nat) : Dict :=
  let edges := pages.flatMap fun page =>
    (page.links.filter (·.isInternal)).map fun link => (page.url, link)
  [("edges", .arr ((edges.take limit).map fun (url, link) =>
      .obj [("from", .str url),
        ("to", .str link.href),
        ("anchor", .str (String.ofList (link.anchor.toList.take 120))),
        ("nofollow", .bool (link.isNofollow rules))])),
   ("truncated", .bool (limit < edges.length)),
   ("limit", .int limit)]

/-- `int(sum / len)`, and 0 of nothing. -/
def mean (values : List Nat) : Nat := values.sum / values.length

structure Stats where
  pagesCrawled : Nat
  htmlPages : Nat
  indexablePages : Nat
  errors : Nat
  redirects : Nat
  avgWords : Nat
  avgLoadMs : Nat
  sitemapUrls : Nat
  hasRobots : Bool
  totalIssues : Nat
  criticalCount : Nat
  highCount : Nat
  externalChecked : Nat
  deriving DecidableEq, Repr

def Report.stats (rules : TextRules) (report : Report) : Stats :=
  let pages := report.site.pages
  { pagesCrawled := pages.length
    htmlPages := (report.site.htmlPages rules).length
    indexablePages := (report.site.indexablePages rules).length
    errors := (pages.filter fun p => p.error.any (· ≠ "") || 400 ≤ p.statusCode).length
    redirects := (pages.filter fun p => !p.redirectChain.isEmpty).length
    avgWords := mean ((report.site.indexablePages rules).map (·.wordCount))
    avgLoadMs := mean (pages.map (·.elapsedMs))
    sitemapUrls := report.site.sitemapLocs.length
    hasRobots := report.site.robotsTxt.isSome
    totalIssues := report.issues.length
    criticalCount := (report.bySeverity .critical).length
    highCount := (report.bySeverity .high).length
    externalChecked := report.site.externalChecked }

def Stats.toDict (stats : Stats) : Dict :=
  [("pages_crawled", .int stats.pagesCrawled),
   ("html_pages", .int stats.htmlPages),
   ("indexable_pages", .int stats.indexablePages),
   ("errors", .int stats.errors),
   ("redirects", .int stats.redirects),
   ("avg_words", .int stats.avgWords),
   ("avg_load_ms", .int stats.avgLoadMs),
   ("sitemap_urls", .int stats.sitemapUrls),
   ("has_robots", .bool stats.hasRobots),
   ("total_issues", .int stats.totalIssues),
   ("critical_count", .int stats.criticalCount),
   ("high_count", .int stats.highCount),
   ("external_checked", .int stats.externalChecked)]

/-- What a report says of one page. -/
def pageRow (rules : TextRules) (page : PageData) : Dict :=
  [("url", .str page.url),
   ("status", .int page.statusCode),
   ("title", .ofOption .str page.title),
   ("words", .int page.wordCount),
   ("inlinks", .int page.inlinks),
   ("depth", .int page.depth),
   ("indexable", .bool (page.isIndexable rules)),
   ("load_ms", .int page.elapsedMs),
   ("content_hash", .str page.contentHash),
   ("description", .ofOption .str page.metaDescription),
   ("headings", .arr ((page.headings.take maxHeadings).map fun (level, text) =>
      .obj [("level", .int level), ("text", .str text)]))]

def Report.toDict (rules : TextRules) (report : Report) : Dict :=
  let issues (list : List Issue) : Json := .arr (list.map fun issue => .obj issue.toDict)
  [("start_url", .str report.site.startUrl),
   ("generated_at", .str report.generatedAt),
   ("overall_score", .int report.overallScore),
   ("grade", .str (gradeFor report.overallScore)),
   ("stats", .obj (report.stats rules).toDict),
   ("category_scores", .arr (report.categoryScores.map fun c => .obj c.toDict)),
   ("issues", issues report.issues),
   ("quick_wins", issues report.quickWins),
   ("critical", issues (report.bySeverity .critical)),
   ("pages", .arr (report.site.pages.map fun page => .obj (pageRow rules page))),
   ("links", .obj (internalEdges rules report.site.pages maxEdges)),
   ("psi", .null),
   ("notes", .arr (report.site.notes.map .str)),
   ("ai_suggestions", .null)]

section Ranges

theorem categoryWeight_pos (category : Category) : 0 < categoryWeight category := by
  cases category <;> decide +kernel

/-- A weighted mean lies where its values lie. -/
theorem overall_between {scores : List CategoryScore} {low high : Int} (hsome : scores ≠ [])
    (h : ∀ c ∈ scores, low ≤ c.score ∧ c.score ≤ high) :
    low ≤ overall scores ∧ overall scores ≤ high := by
  have hsums : (low : Rat) * (scores.map fun c => categoryWeight c.category).sum ≤
        (scores.map fun c => (c.score : Rat) * categoryWeight c.category).sum ∧
      (scores.map fun c => (c.score : Rat) * categoryWeight c.category).sum ≤
        (high : Rat) * (scores.map fun c => categoryWeight c.category).sum := by
    clear hsome
    induction scores with
    | nil => simp
    | cons c rest ih =>
        obtain ⟨hlower, hupper⟩ := ih fun d hd => h d (List.mem_cons_of_mem _ hd)
        obtain ⟨hlow, hhigh⟩ := h c List.mem_cons_self
        have hweight := categoryWeight_pos c.category
        have hlow' : (low : Rat) ≤ c.score := by exact_mod_cast hlow
        have hhigh' : (c.score : Rat) ≤ high := by exact_mod_cast hhigh
        have hstepLow := mul_le_mul_of_nonneg_right hlow' hweight.le
        have hstepHigh := mul_le_mul_of_nonneg_right hhigh' hweight.le
        simp only [List.map_cons, List.sum_cons]
        constructor <;> linarith
  have htotal : 0 < (scores.map fun c => categoryWeight c.category).sum := by
    apply List.sum_pos
    · intro w hw
      obtain ⟨c, -, rfl⟩ := List.mem_map.mp hw
      exact categoryWeight_pos c.category
    · simpa using hsome
  have hempty : scores.isEmpty = false := by simpa using hsome
  unfold overall
  rw [hempty, if_neg Bool.false_ne_true]
  constructor
  · apply le_roundEven
    rw [le_div_iff₀ htotal]
    exact hsums.1
  · apply roundEven_le
    rw [div_le_iff₀ htotal]
    exact hsums.2

theorem overall_mem_of_scores {scores : List CategoryScore}
    (h : ∀ c ∈ scores, 0 ≤ c.score ∧ c.score ≤ 100) :
    0 ≤ overall scores ∧ overall scores ≤ 100 := by
  by_cases hsome : scores = []
  · subst hsome
    decide
  · exact overall_between hsome h

variable {K : Type} [Field K] [LinearOrder K] [FloorRing K]

theorem scoreOf_mem {sqrt : K → K} {issues : List Issue} {pageCount : Nat} {category : Category} :
    0 ≤ (scoreOf sqrt issues pageCount category).score ∧
      (scoreOf sqrt issues pageCount category).score ≤ 100 := by
  unfold scoreOf
  dsimp only
  omega

theorem score_mem_of_buildReport {sqrt : K → K} {rules : TextRules} {ctx : SiteContext}
    {issues : List Issue} {generatedAt : String} {c : CategoryScore}
    (h : c ∈ (buildReport sqrt rules ctx issues generatedAt).categoryScores) :
    0 ≤ c.score ∧ c.score ≤ 100 := by
  simp only [buildReport, List.mem_insertionSort, List.mem_map] at h
  obtain ⟨category, -, rfl⟩ := h
  exact scoreOf_mem

theorem overallScore_mem_of_buildReport {sqrt : K → K} {rules : TextRules} {ctx : SiteContext}
    {issues : List Issue} {generatedAt : String} :
    0 ≤ (buildReport sqrt rules ctx issues generatedAt).overallScore ∧
      (buildReport sqrt rules ctx issues generatedAt).overallScore ≤ 100 := by
  have hrange : ∀ c ∈ (categories.filter (isActive rules ctx issues)).map
      (scoreOf sqrt issues (max 1 (ctx.htmlPages rules).length)),
      0 ≤ c.score ∧ c.score ≤ 100 := by
    intro c hc
    obtain ⟨category, -, rfl⟩ := List.mem_map.mp hc
    exact scoreOf_mem
  obtain ⟨hlower, hupper⟩ := overall_mem_of_scores hrange
  unfold buildReport capped
  dsimp only
  split <;> omega

end Ranges

end SeoPlatform.Engine.AuditReport
