import SeoPlatform.Foundation.JsonSchema
import SeoPlatform.Shared.Exceptions

namespace SeoPlatform.Shared.Contracts

open SeoPlatform.Foundation.JsonValue
open SeoPlatform.Foundation.JsonSchema
open SeoPlatform.Shared.Exceptions

inductive EventType where
  | workflowRequested
  | workflowCompleted
  | crawlRequested
  | crawlCompleted
  | keywordResearchRequested
  | keywordResearched
  | serpCheckRequested
  | serpChecked
  | linksAnalysisRequested
  | linksAnalyzed
  | contentAnalysisRequested
  | contentAnalyzed
  | optimizerPlanRequested
  | optimizerPlanned
  | competitorComparisonRequested
  | competitorCompared
  | pageUpdated
  | reportRequested
  | reportRendered
  deriving DecidableEq, Repr

def EventType.name : EventType → String
  | .workflowRequested => "workflow.requested"
  | .workflowCompleted => "workflow.completed"
  | .crawlRequested => "crawl.requested"
  | .crawlCompleted => "crawl.completed"
  | .keywordResearchRequested => "keyword.research_requested"
  | .keywordResearched => "keyword.researched"
  | .serpCheckRequested => "serp.check_requested"
  | .serpChecked => "serp.checked"
  | .linksAnalysisRequested => "links.analysis_requested"
  | .linksAnalyzed => "links.analyzed"
  | .contentAnalysisRequested => "content.analysis_requested"
  | .contentAnalyzed => "content.analyzed"
  | .optimizerPlanRequested => "optimizer.plan_requested"
  | .optimizerPlanned => "optimizer.planned"
  | .competitorComparisonRequested => "competitor.comparison_requested"
  | .competitorCompared => "competitor.compared"
  | .pageUpdated => "page.updated"
  | .reportRequested => "report.requested"
  | .reportRendered => "report.rendered"

/-- A contract: the required fields, and the schema of each field there is. -/
structure Contract where
  required : List String
  fields : List (String × Schema)

/-- Every event contract is a closed object. -/
def Contract.schema (contract : Contract) : Schema :=
  closedObject contract.required contract.fields

def atLeast (minimum : Rat) : Schema := integerIn (some minimum) none

@[simp] theorem atLeast_natCast (n : Nat) : atLeast 0 (.int n) = true := by
  have hn : (0 : Rat) ≤ ((n : Int) : Rat) := by exact_mod_cast Nat.zero_le n
  simpa [atLeast, integerIn, within] using hn

theorem percent_int (n : Int) :
    integerIn (some 0) (some 100) (.int n) = true ↔ 0 ≤ n ∧ n ≤ 100 := by
  have h := integerIn_int 0 100 n
  push_cast at h
  rw [h]
  simp

def outcome : Schema := oneOf ["completed", "failed"]

def workflowInputsFields : List (String × Schema) :=
  [("start_url", string),
   ("seed", stringLength 0 (some 200)),
   ("max_pages", integerIn (some 1) (some 100000)),
   ("max_depth", integerIn (some 1) (some 20)),
   ("lang", stringLength 0 (some 10)),
   ("country", stringLength 0 (some 5)),
   ("track_keywords", integerIn (some 1) (some 50)),
   ("optimize_pages", integerIn (some 1) (some 25)),
   ("competitors", arrayOf 0 (some 4) (stringLength 0 (some 2048))),
   ("competitor_pages", integerIn (some 1) (some 200))]

def workflowRequested : Contract where
  required := ["workflow_id", "goal"]
  fields :=
    [("workflow_id", string),
     ("goal", oneOf ["site_audit"]),
     ("inputs", closedObject [] workflowInputsFields)]

def workflowStepFields : List (String × Schema) :=
  [("position", integer),
   ("kind", oneOf ["crawl", "keyword_research", "serp_check", "link_analysis",
      "content_analysis", "optimizer_plan"]),
   ("job_id", string),
   ("status", oneOf ["pending", "dispatched", "completed", "failed", "skipped"]),
   ("error", nullable string),
   ("result_url", nullable string)]

def workflowStep : Schema :=
  closedObject ["position", "kind", "job_id", "status"] workflowStepFields

def headlineFields : List (String × Schema) :=
  [("overall_score", nullable integer),
   ("total_issues", nullable integer),
   ("keywords_found", nullable integer),
   ("keywords_ranked", nullable integer),
   ("average_position", nullable number),
   ("orphan_pages", nullable integer),
   ("keyword_coverage", nullable number),
   ("pages_to_rewrite", nullable integer),
   ("competitors_compared", nullable integer),
   ("behind_on", nullable integer)]

def workflowCompleted : Contract where
  required := ["workflow_id", "goal", "status", "steps", "result_url"]
  fields :=
    [("workflow_id", string),
     ("goal", string),
     ("status", outcome),
     ("error", nullable string),
     ("steps", arrayOf 0 none workflowStep),
     ("headline", closedObject [] headlineFields),
     ("result_url", string)]

def crawlRequested : Contract where
  required := ["crawl_id", "start_url"]
  fields :=
    [("crawl_id", string),
     ("start_url", string),
     ("max_pages", integerIn (some 1) (some 100000)),
     ("max_depth", integerIn (some 1) (some 20)),
     ("user_agent", oneOf ["mobile", "desktop", "googlebot"]),
     ("respect_robots", boolean),
     ("check_external_links", boolean),
     ("follow_subdomains", boolean),
     ("target_keywords", arrayOf 0 (some 50) string)]

def crawlStats : Schema :=
  openObject ["pages_crawled", "indexable_pages", "total_issues"]
    [("pages_crawled", integer), ("indexable_pages", integer), ("errors", integer),
     ("redirects", integer), ("avg_words", integer), ("avg_load_ms", integer),
     ("total_issues", integer), ("critical_count", integer), ("high_count", integer)]

def categoryScore : Schema :=
  openObject ["category", "score"]
    [("category", string), ("score", integerIn (some 0) (some 100)), ("issue_count", integer)]

def crawlCompleted : Contract where
  required := ["crawl_id", "start_url", "status", "overall_score", "stats"]
  fields :=
    [("crawl_id", string),
     ("start_url", string),
     ("status", outcome),
     ("error", nullable string),
     ("overall_score", integerIn (some 0) (some 100)),
     ("grade", string),
     ("stats", crawlStats),
     ("category_scores", arrayOf 0 none categoryScore),
     ("result_url", string)]

def keywordResearchRequested : Contract where
  required := ["research_id", "seed"]
  fields :=
    [("research_id", string),
     ("seed", stringLength 1 (some 200)),
     ("lang", string),
     ("country", string),
     ("max_keywords", integerIn (some 10) (some 5000)),
     ("include_questions", boolean),
     ("include_alphabet", boolean),
     ("include_comparisons", boolean),
     ("sources", arrayOf 0 none (oneOf ["google", "youtube", "bing", "duckduckgo"]))]

def topKeyword : Schema :=
  openObject ["keyword", "demand", "intent"]
    [("keyword", string), ("demand", integer), ("opportunity", integer), ("intent", string)]

def keywordResearched : Contract where
  required := ["research_id", "seed", "status", "total"]
  fields :=
    [("research_id", string),
     ("seed", string),
     ("lang", string),
     ("country", string),
     ("status", outcome),
     ("error", nullable string),
     ("total", atLeast 0),
     ("cluster_count", atLeast 0),
     ("top_keywords", arrayOf 0 (some 25) topKeyword),
     ("result_url", string)]

def serpCheckRequested : Contract where
  required := ["check_id", "target_domain", "keywords"]
  fields :=
    [("check_id", string),
     ("target_domain", stringLength 0 (some 253)),
     ("keywords", arrayOf 1 (some 50) (stringLength 1 (some 200))),
     ("provider", stringLength 0 (some 40)),
     ("lang", stringLength 0 (some 10)),
     ("country", stringLength 0 (some 5))]

def bestRanking : Schema :=
  nullable (closedObject ["keyword", "position"]
    [("keyword", string), ("position", integer), ("url", nullable string)])

def outrankingDomain : Schema :=
  closedObject ["domain", "outranks_on"] [("domain", string), ("outranks_on", integer)]

def rankOpportunity : Schema :=
  closedObject ["keyword", "opportunity"]
    [("keyword", string), ("position", nullable integer), ("opportunity", integer)]

def serpChecked : Contract where
  required := ["check_id", "target_domain", "status", "result_url"]
  fields :=
    [("check_id", string),
     ("target_domain", string),
     ("status", outcome),
     ("error", nullable string),
     ("keywords_checked", atLeast 0),
     ("keywords_ranked", atLeast 0),
     ("average_position", nullable number),
     ("best", bestRanking),
     ("top_competitors", arrayOf 0 (some 10) outrankingDomain),
     ("opportunities", arrayOf 0 (some 25) rankOpportunity),
     ("result_url", string)]

def linksAnalysisRequested : Contract where
  required := ["crawl_id"]
  fields := [("analysis_id", string), ("crawl_id", string)]

def linkOpportunity : Schema :=
  closedObject ["url"] [("url", string), ("inlinks", atLeast 0), ("authority", number)]

def linksAnalyzed : Contract where
  required := ["analysis_id", "crawl_id", "status", "result_url"]
  fields :=
    [("analysis_id", string),
     ("crawl_id", string),
     ("status", outcome),
     ("error", nullable string),
     ("pages", atLeast 0),
     ("internal_links", atLeast 0),
     ("orphan_count", atLeast 0),
     ("dead_end_count", atLeast 0),
     ("broken_target_count", atLeast 0),
     ("max_depth", atLeast 0),
     ("average_inlinks", numberIn (some 0) none),
     ("top_opportunities", arrayOf 0 (some 10) linkOpportunity),
     ("result_url", string)]

def contentAnalysisRequested : Contract where
  required := ["crawl_id", "research_id"]
  fields := [("analysis_id", string), ("crawl_id", string), ("research_id", string)]

def contentGap : Schema :=
  closedObject ["keyword"] [("keyword", string), ("demand", integer)]

def contentAnalyzed : Contract where
  required := ["analysis_id", "crawl_id", "status", "result_url"]
  fields :=
    [("analysis_id", string),
     ("crawl_id", string),
     ("research_id", string),
     ("status", outcome),
     ("error", nullable string),
     ("pages", atLeast 0),
     ("keywords", atLeast 0),
     ("covered", atLeast 0),
     ("coverage", numberIn (some 0) (some 100)),
     ("gap_count", atLeast 0),
     ("cannibalisation_count", atLeast 0),
     ("top_gaps", arrayOf 0 (some 10) contentGap),
     ("result_url", string)]

def optimizerPlanRequested : Contract where
  required := ["crawl_id"]
  fields :=
    [("plan_id", string),
     ("crawl_id", string),
     ("research_id", nullable string),
     ("pages", integerIn (some 1) (some 25))]

def plannedPage : Schema :=
  closedObject ["url"] [("url", string), ("fixes", atLeast 0)]

def optimizerPlanned : Contract where
  required := ["plan_id", "crawl_id", "status", "result_url"]
  fields :=
    [("plan_id", string),
     ("crawl_id", string),
     ("status", outcome),
     ("error", nullable string),
     ("pages_examined", atLeast 0),
     ("pages_with_fixes", atLeast 0),
     ("fixes", atLeast 0),
     ("written_by", oneOf ["rules", "ai"]),
     ("pages", arrayOf 0 (some 10) plannedPage),
     ("result_url", string)]

def competitorComparisonRequested : Contract where
  required := ["crawl_id", "competitor_crawl_ids"]
  fields :=
    [("comparison_id", string),
     ("crawl_id", string),
     ("competitor_crawl_ids", arrayOf 1 (some 8) string)]

def competitorCompared : Contract where
  required := ["comparison_id", "crawl_id", "status", "result_url"]
  fields :=
    [("comparison_id", string),
     ("crawl_id", string),
     ("competitor_crawl_ids", arrayOf 0 (some 8) string),
     ("status", outcome),
     ("error", nullable string),
     ("compared_against", atLeast 0),
     ("behind_on", arrayOf 0 (some 10) string),
     ("ahead_on", arrayOf 0 (some 10) string),
     ("missing_theme_count", atLeast 0),
     ("top_missing_themes", arrayOf 0 (some 10) string),
     ("result_url", string)]

def pageUpdated : Contract where
  required := ["page_id", "url", "content_hash"]
  fields :=
    [("page_id", string),
     ("crawl_id", nullable string),
     ("url", string),
     ("title", nullable string),
     ("content_hash", string),
     ("previous_content_hash", nullable string),
     ("word_count", integer),
     ("status_code", integer),
     ("indexable", boolean)]

def reportRequested : Contract where
  required := ["workflow_id"]
  fields := [("report_id", string), ("workflow_id", string)]

def reportRendered : Contract where
  required := ["report_id", "workflow_id", "status", "result_url"]
  fields :=
    [("report_id", string),
     ("workflow_id", string),
     ("status", outcome),
     ("error", nullable string),
     ("title", nullable string),
     ("summary_source", oneOf ["rules", "ai"]),
     ("formats", arrayOf 0 none (oneOf ["html", "md"])),
     ("result_url", string),
     ("document_url", string)]

def eventSchema : EventType → Contract
  | .workflowRequested => workflowRequested
  | .workflowCompleted => workflowCompleted
  | .crawlRequested => crawlRequested
  | .crawlCompleted => crawlCompleted
  | .keywordResearchRequested => keywordResearchRequested
  | .keywordResearched => keywordResearched
  | .serpCheckRequested => serpCheckRequested
  | .serpChecked => serpChecked
  | .linksAnalysisRequested => linksAnalysisRequested
  | .linksAnalyzed => linksAnalyzed
  | .contentAnalysisRequested => contentAnalysisRequested
  | .contentAnalyzed => contentAnalyzed
  | .optimizerPlanRequested => optimizerPlanRequested
  | .optimizerPlanned => optimizerPlanned
  | .competitorComparisonRequested => competitorComparisonRequested
  | .competitorCompared => competitorCompared
  | .pageUpdated => pageUpdated
  | .reportRequested => reportRequested
  | .reportRendered => reportRendered

/-- Whether a payload satisfies the contract of an event type. -/
def Valid (type : EventType) (payload : Dict) : Prop :=
  (eventSchema type).schema (.obj payload) = true

instance (type : EventType) (payload : Dict) : Decidable (Valid type payload) :=
  inferInstanceAs (Decidable (_ = true))

/-- What a schema violation reads like, which the validator library words. -/
abbrev Wording := EventType → Dict → String

def validateEvent (wording : Wording) (type : EventType) (payload : Dict) : Except Exn Unit :=
  if Valid type payload then .ok ()
  else .error (.contractError (type.name ++ " payload invalid: " ++ wording type payload))

@[simp] theorem validateEvent_ok {wording : Wording} {type : EventType} {payload : Dict} :
    validateEvent wording type payload = .ok () ↔ Valid type payload := by
  unfold validateEvent
  split <;> simp_all

theorem valid_iff {type : EventType} {payload : Dict} :
    Valid type payload ↔
      (∀ name ∈ (eventSchema type).required, (Dict.get? payload name).isSome) ∧
        properties (eventSchema type).fields payload = true ∧
        ∀ name ∈ Dict.keys payload, name ∈ (eventSchema type).fields.map Prod.fst := by
  unfold Valid Contract.schema
  rw [closedObject_iff]
  constructor
  · rintro ⟨d, hd, h⟩
    cases hd
    exact h
  · exact fun h => ⟨payload, rfl, h⟩

/-- A field of a valid payload satisfies its schema where it is present. -/
theorem Valid.field {type : EventType} {payload : Dict} (h : Valid type payload)
    {name : String} {schema : Schema} (hfield : (name, schema) ∈ (eventSchema type).fields)
    {v : Json} (hv : Dict.get? payload name = some v) : schema v = true :=
  properties_iff.mp (valid_iff.mp h).2.1 (name, schema) hfield v hv

theorem Valid.required {type : EventType} {payload : Dict} (h : Valid type payload)
    {name : String} (hname : name ∈ (eventSchema type).required) :
    ∃ v, Dict.get? payload name = some v :=
  Option.isSome_iff_exists.mp ((valid_iff.mp h).1 name hname)

/-- A field read with `null` for an absent one. -/
theorem Valid.get {type : EventType} {payload : Dict} (h : Valid type payload)
    {name : String} {schema : Schema} (hfield : (name, schema) ∈ (eventSchema type).fields) :
    nullable schema (Dict.get payload name) = true :=
  nullable_get_of_openObject (openObject_of_closedObject h) hfield

end SeoPlatform.Shared.Contracts
