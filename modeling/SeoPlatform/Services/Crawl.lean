import SeoPlatform.Engine.AuditReport
import SeoPlatform.Services.Runs

namespace SeoPlatform.Services.Crawl

open SeoPlatform.Crawler.Models
open SeoPlatform.Engine.AuditReport
open SeoPlatform.Foundation.JsonSchema
open SeoPlatform.Foundation.JsonValue
open SeoPlatform.Foundation.UrlText
open SeoPlatform.Services.Runs
open SeoPlatform.Shared.Contracts

/-- What a crawl brought home: the site, and the issues its rules found. -/
structure Crawled where
  ctx : SiteContext
  issues : List Issue
  generatedAt : String

/-- The numbers of a report in its event, zero where there is no report. -/
def statsOf (stats : Option Stats) : Dict :=
  let count (f : Stats → Nat) : Json := .int ((stats.map f).getD 0)
  [("pages_crawled", count (·.pagesCrawled)),
   ("indexable_pages", count (·.indexablePages)),
   ("errors", count (·.errors)),
   ("redirects", count (·.redirects)),
   ("avg_words", count (·.avgWords)),
   ("avg_load_ms", count (·.avgLoadMs)),
   ("total_issues", count (·.totalIssues)),
   ("critical_count", count (·.criticalCount)),
   ("high_count", count (·.highCount))]

def completedPayload (rules : TextRules) (crawlId startUrl : String)
    (result : Except String Report) : Dict :=
  let report := result.toOption
  [("crawl_id", .str crawlId),
   ("start_url", .str startUrl),
   ("status", .str (statusName result)),
   ("error", errorOf result),
   ("overall_score", .int ((report.map (·.overallScore)).getD 0)),
   ("grade", .str ((report.map fun r => gradeFor r.overallScore).getD "")),
   ("stats", .obj (statsOf (report.map (·.stats rules)))),
   ("category_scores", .arr (((report.map (·.categoryScores)).getD []).map fun c =>
      .obj [("category", .str c.category.value), ("score", .int c.score),
        ("issue_count", .int c.issueCount)])),
   ("result_url", .str ("/v1/crawls/" ++ crawlId))]

/-- One page.updated per indexable page. -/
def pagePayloads (rules : TextRules) (uuid5 : String → String) (crawlId : String)
    (report : Report) : List (EventType × Dict) :=
  (report.site.indexablePages rules).map fun page =>
    (.pageUpdated,
      [("page_id", .str (uuid5 page.url)),
       ("crawl_id", .str crawlId),
       ("url", .str page.url),
       ("title", .ofOption .str page.title),
       ("content_hash", .str page.contentHash),
       ("previous_content_hash", .null),
       ("word_count", .int page.wordCount),
       ("status_code", .int page.statusCode),
       ("indexable", .bool true)])

theorem crawlStats_statsOf (stats : Option Stats) : crawlStats (.obj (statsOf stats)) = true :=
  openObject_of_rows (by decide) (by decide) (by simp [statsOf])

theorem categoryScore_of_mem {c : CategoryScore} (hscore : 0 ≤ c.score ∧ c.score ≤ 100) :
    categoryScore (.obj [("category", .str c.category.value), ("score", .int c.score),
      ("issue_count", .int c.issueCount)]) = true := by
  refine openObject_of_rows (by decide) (by decide) ?_
  simp [percent_int, hscore]

theorem completedPayload_valid {rules : TextRules} {crawlId startUrl : String}
    {result : Except String Report}
    (hscores : ∀ report, result = .ok report →
      (0 ≤ report.overallScore ∧ report.overallScore ≤ 100) ∧
        ∀ c ∈ report.categoryScores, 0 ≤ c.score ∧ c.score ≤ 100) :
    Valid .crawlCompleted (completedPayload rules crawlId startUrl result) := by
  have hoverall : integerIn (some 0) (some 100)
      (.int ((result.toOption.map (·.overallScore)).getD 0)) = true := by
    rw [percent_int]
    cases result with
    | error text => simp [Except.toOption]
    | ok report => exact (hscores report rfl).1
  have hcategories : arrayOf 0 none categoryScore
      (.arr (((result.toOption.map (·.categoryScores)).getD []).map fun c =>
        .obj [("category", .str c.category.value), ("score", .int c.score),
          ("issue_count", .int c.issueCount)])) = true := by
    refine arrayOf_map rfl ?_
    intro c hc
    cases result with
    | error text => simp [Except.toOption] at hc
    | ok report => exact categoryScore_of_mem ((hscores report rfl).2 c hc)
  refine closedObject_of_rows (by decide) (by decide) ?_
  simp [eventSchema, crawlCompleted, completedPayload, crawlStats_statsOf, hoverall, hcategories]

/-- The crawl service. `sqrt` is the machine's, `uuid5` names a page by its url. -/
def service (sqrt : Rat → Rat) (rules : TextRules) (uuid5 : String → String) : Service where
  requested := .crawlRequested
  completed := .crawlCompleted
  idField := "crawl_id"
  producer := "crawl-service"
  Request := String
  Material := Crawled
  Report := Report
  read payload := readText payload "start_url"
  subject startUrl := startUrl
  work _ crawled := .ok (buildReport sqrt rules crawled.ctx crawled.issues crawled.generatedAt)
  document report := report.toDict rules
  payload := completedPayload rules
  followUps := pagePayloads rules uuid5
  payload_valid jobId request given := by
    apply completedPayload_valid
    intro report hreport
    cases given with
    | error text => contradiction
    | ok crawled =>
        obtain rfl := Except.ok.inj hreport
        exact ⟨overallScore_mem_of_buildReport, fun c hc => score_mem_of_buildReport hc⟩
  payload_names _ _ _ := ⟨rfl, rfl⟩
  followUps_other crawlId report event h := by
    obtain ⟨page, -, rfl⟩ := List.mem_map.mp h
    exact EventType.noConfusion

end SeoPlatform.Services.Crawl
