import SeoPlatform.Orchestrator.Store

namespace SeoPlatform.Orchestrator.Engine

open SeoPlatform.Foundation.JsonValue
open SeoPlatform.Foundation.UrlText
open SeoPlatform.Foundation.SqlTransaction
open SeoPlatform.Orchestrator.Planner
open SeoPlatform.Orchestrator.Store
open SeoPlatform.Shared.Contracts
open SeoPlatform.Shared.Exceptions
open SeoPlatform.Shared.Events

/-- What the engine asks of the runtime and of the modules beside it. -/
structure Env where
  rules : TextRules
  wording : Wording
  /-- `str` of a value that is no text. -/
  shown : Json → String
  /-- A seed from a crawl result whose `start_url` is no text. -/
  otherSeed : Json → Except Exn String
  otherSeed_raises : ∀ v e, otherSeed v = .error e → e.Ordinary
  /-- An `error` that is no text, as the driver sends it. -/
  otherError : Json → Except Exn (Option String)
  iso : Nat → String
  /-- `trends.compare`. -/
  compare : Option Dict → Dict → Except Exn (Option Dict)
  /-- `summary.deterministic`. -/
  deterministic : Dict → Except Exn Dict

def service : String := "orchestrator"

/-- Which completion event finishes which kind of step, and the id field that
ties it back. -/
def completions : EventType → Option (StepKind × String)
  | .crawlCompleted => some (.crawl, "crawl_id")
  | .keywordResearched => some (.keywordResearch, "research_id")
  | .serpChecked => some (.serpCheck, "check_id")
  | .linksAnalyzed => some (.linkAnalysis, "analysis_id")
  | .contentAnalyzed => some (.contentAnalysis, "analysis_id")
  | .optimizerPlanned => some (.optimizerPlan, "plan_id")
  | .competitorCompared => some (.competitorCheck, "comparison_id")
  | _ => none

/-- The kinds whose failure does not fail the workflow. -/
def Optional (kind : StepKind) : Prop := kind = .competitorCrawl

instance : DecidablePred Optional := fun kind => inferInstanceAs (Decidable (kind = _))

/-- `value[:n]`. -/
def sliced (n : Nat) : Json → Except Exn Json
  | .arr items => .ok (.arr (items.take n))
  | .str s => .ok (.str (String.ofList (s.toList.take n)))
  | .obj _ => .error (.keyError "slice")
  | _ => .error (.typeError "object is not subscriptable")

def asDict : Json → Except Exn Dict
  | .obj d => .ok d
  | _ => .error (.attributeError "object has no attribute 'get'")

def plain (payload : Dict) (names : List String) : Dict :=
  names.map fun name => (name, Dict.get payload name)

/-- The few fields worth reporting, not the whole event. -/
def stepResult (kind : StepKind) (payload : Dict) : Except Exn Dict :=
  match kind with
  | .crawl => do
      let stats ← asDict (Dict.getD payload "stats" (.obj []))
      .ok (plain payload ["crawl_id", "start_url", "overall_score", "grade"] ++
        plain stats ["total_issues", "pages_crawled"] ++
        [("category_scores", Dict.getD payload "category_scores" (.arr []))] ++
        plain payload ["result_url"])
  | .keywordResearch => do
      let top ← sliced 25 (Dict.getD payload "top_keywords" (.arr []))
      .ok (plain payload ["research_id", "seed", "total", "cluster_count"] ++
        [("top_keywords", top)] ++ plain payload ["result_url"])
  | .optimizerPlan => do
      let pages ← sliced 10 (Dict.getD payload "pages" (.arr []))
      .ok (plain payload ["plan_id", "crawl_id", "pages_examined", "pages_with_fixes", "fixes",
          "written_by"] ++
        [("pages", pages)] ++ plain payload ["result_url"])
  | .contentAnalysis => do
      let gaps ← sliced 10 (Dict.getD payload "top_gaps" (.arr []))
      .ok (plain payload ["analysis_id", "crawl_id", "research_id", "keywords", "covered",
          "coverage", "gap_count", "cannibalisation_count"] ++
        [("top_gaps", gaps)] ++ plain payload ["result_url"])
  | .competitorCheck => do
      let themes ← sliced 10 (Dict.getD payload "top_missing_themes" (.arr []))
      .ok (plain payload ["comparison_id", "crawl_id", "compared_against"] ++
        [("behind_on", Dict.getD payload "behind_on" (.arr [])),
         ("ahead_on", Dict.getD payload "ahead_on" (.arr []))] ++
        plain payload ["missing_theme_count"] ++
        [("top_missing_themes", themes)] ++ plain payload ["result_url"])
  | .linkAnalysis => do
      let top ← sliced 10 (Dict.getD payload "top_opportunities" (.arr []))
      .ok (plain payload ["analysis_id", "crawl_id", "pages", "internal_links", "orphan_count",
          "dead_end_count", "broken_target_count", "max_depth", "average_inlinks"] ++
        [("top_opportunities", top)] ++ plain payload ["result_url"])
  | .serpCheck | .competitorCrawl => do
      let rivals ← sliced 5 (Dict.getD payload "top_competitors" (.arr []))
      let openings ← sliced 10 (Dict.getD payload "opportunities" (.arr []))
      .ok (plain payload ["check_id", "target_domain", "keywords_checked", "keywords_ranked",
          "average_position", "best"] ++
        [("top_competitors", rivals), ("opportunities", openings)] ++
        plain payload ["result_url"])

/-- What `on_completion` reads out of an event before it touches the store. -/
structure Completion where
  jobId : String
  status : StepStatus
  result : Dict
  error : Option String

def errorText (env : Env) : Json → Except Exn (Option String)
  | .null => .ok none
  | .str s => .ok (some s)
  | v => env.otherError v

def readCompletion (env : Env) (type : EventType) (payload : Dict) : Except Exn Completion :=
  match completions type with
  | none => .error (.keyError type.name)
  | some (kind, idField) =>
      let jobId := Dict.get payload idField
      if jobId.truthy then do
        let failed := (Dict.get payload "status").str? = some "failed"
        let result ← stepResult kind payload
        let error ← errorText env (Dict.get payload "error")
        match jobId with
        | .str id => .ok ⟨id, if failed then .failed else .completed, result, error⟩
        | _ => .error (.database "UndefinedFunction" "operator does not exist")
      else .error (.valueError (type.name ++ " carries no " ++ idField))

/-- A step's result unless it is empty. -/
def heldResult (s : Step) : Option Dict := s.result.filter fun d => !d.isEmpty

/-- The first result of a kind that is there. -/
def resultOf (workflow : Workflow) (kind : StepKind) : Option Dict :=
  workflow.steps.findSome? fun s => if s.kind = kind then heldResult s else none

/-- Your crawl, never a competitor's. -/
def ownCrawl (workflow : Workflow) : Option Dict := resultOf workflow .crawl

def ownCrawlId (workflow : Workflow) : Json := Dict.get ((ownCrawl workflow).getD []) "crawl_id"

def researchId (workflow : Workflow) : Json :=
  Dict.get ((resultOf workflow .keywordResearch).getD []) "research_id"

def present (d : Dict) (name : String) : Dict :=
  match Dict.get d name with
  | .null => []
  | v => [(name, v)]

/-- The step's own parameters where it has them, the workflow's otherwise. -/
def crawlRequestParams (workflow : Workflow) (step : Step) : Except Exn Dict :=
  if (Dict.get step.params "start_url").truthy then
    .ok ([("start_url", Dict.get step.params "start_url")] ++ present step.params "max_pages" ++
      present step.params "max_depth")
  else
    match workflow.inputs.startUrl with
    | none => .error (.keyError "start_url")
    | some url =>
        .ok ([("start_url", .str url)] ++
          optionalField "max_pages" (workflow.inputs.maxPages.map .int) ++
          optionalField "max_depth" (workflow.inputs.maxDepth.map .int))

/-- The results of the competitor crawls that came back. -/
def rivalIds (workflow : Workflow) : List Json :=
  ((byPosition workflow.steps).filter fun s =>
      s.kind = .competitorCrawl ∧ s.status = .completed).map
    (fun s => Dict.get (s.result.getD []) "crawl_id")
  |>.filter Json.truthy

def competitorParams (workflow : Workflow) : Except Exn Dict :=
  let crawlId := ownCrawlId workflow
  if crawlId.truthy then
    if (rivalIds workflow).isEmpty then
      .error (.noWorkToDo "no competitor crawl finished, so there is nothing to compare with")
    else
      .ok [("crawl_id", crawlId), ("competitor_crawl_ids", .arr (rivalIds workflow))]
  else .error (.noWorkToDo "no crawl of your own site to compare")

def researchRequestParams (env : Env) (workflow : Workflow) : Except Exn Dict := do
  let crawlStep := workflow.steps.find? fun s => s.kind = .crawl
  let seed ← resolveSeed env.rules env.otherSeed workflow.inputs.seed workflow.inputs.startUrl
    (crawlStep.bind Step.result)
  if seed = "" then .error (.valueError "could not work out what to research")
  else
    .ok [("seed", .str seed), ("lang", .str (langOf workflow.inputs)),
      ("country", .str (countryOf workflow.inputs))]

def serpParams (env : Env) (workflow : Workflow) : Except Exn Dict := do
  let limit := orDefault workflow.inputs.trackKeywords defaultTracked
  let keywords ← keywordsToTrack env.rules env.shown (resultOf workflow .keywordResearch) limit
  if keywords = [] then .error (.noWorkToDo "research produced no keywords to rank-check")
  else do
    let domain ← domainOf env.rules (workflow.inputs.startUrl.getD "")
    if domain = "" then .error (.valueError "could not work out which domain to rank-check")
    else
      .ok [("target_domain", .str domain), ("keywords", .arr (keywords.map .str)),
        ("lang", .str (langOf workflow.inputs)), ("country", .str (countryOf workflow.inputs))]

def linksParams (workflow : Workflow) : Except Exn Dict :=
  let crawlId := ownCrawlId workflow
  if crawlId.truthy then .ok [("crawl_id", crawlId)]
  else .error (.noWorkToDo "no crawl to analyse")

def contentParams (workflow : Workflow) : Except Exn Dict :=
  let crawlId := ownCrawlId workflow
  let research := researchId workflow
  if crawlId.truthy && research.truthy then
    .ok [("crawl_id", crawlId), ("research_id", research)]
  else .error (.noWorkToDo "content coverage needs both a crawl and a keyword study")

def optimizerParams (workflow : Workflow) : Except Exn Dict :=
  let crawlId := ownCrawlId workflow
  if crawlId.truthy then
    .ok ([("crawl_id", crawlId),
        ("pages", .int (orDefault workflow.inputs.optimizePages defaultOptimized))] ++
      if (researchId workflow).truthy then [("research_id", researchId workflow)] else [])
  else .error (.noWorkToDo "no crawl to optimise")

/-- The request a kind of step is dispatched with: its type, and the field of
its payload that carries the step's job id. -/
def requestOf : StepKind → EventType × String
  | .crawl | .competitorCrawl => (.crawlRequested, "crawl_id")
  | .keywordResearch => (.keywordResearchRequested, "research_id")
  | .serpCheck => (.serpCheckRequested, "check_id")
  | .linkAnalysis => (.linksAnalysisRequested, "analysis_id")
  | .contentAnalysis => (.contentAnalysisRequested, "analysis_id")
  | .optimizerPlan => (.optimizerPlanRequested, "plan_id")
  | .competitorCheck => (.competitorComparisonRequested, "comparison_id")

def requestParams (env : Env) (workflow : Workflow) (step : Step) : Except Exn Dict :=
  match step.kind with
  | .crawl | .competitorCrawl => crawlRequestParams workflow step
  | .keywordResearch => researchRequestParams env workflow
  | .serpCheck => serpParams env workflow
  | .linkAnalysis => linksParams workflow
  | .contentAnalysis => contentParams workflow
  | .optimizerPlan => optimizerParams workflow
  | .competitorCheck => competitorParams workflow

/-- The request for a step, validated before it is staged. -/
def dispatchEvent (env : Env) (eventId : String) (workflow : Workflow) (step : Step) :
    Except Exn PendingEvent := do
  let params ← requestParams env workflow step
  let payload := ((requestOf step.kind).2, Json.str step.jobId) :: params
  validateEvent env.wording (requestOf step.kind).1 payload
  .ok {
    type := (requestOf step.kind).1
    payload := payload
    producer := service
    eventId := eventId
    correlationId := some workflow.workflowId
    causationId := none }

def resultUrl (s : Step) : Json := Dict.get (s.result.getD []) "result_url"

def stepEntry (s : Step) : Json :=
  .obj [("position", .int s.position), ("kind", .str s.kind.name), ("job_id", .str s.jobId),
    ("status", .str s.status.name), ("error", .ofOption .str s.error),
    ("result_url", resultUrl s)]

def stepEntries (workflow : Workflow) : Json :=
  .arr ((byPosition workflow.steps).map stepEntry)

/-- `len`. -/
def lengthOf : Json → Except Exn Nat
  | .arr items => .ok items.length
  | .str s => .ok s.length
  | .obj fields => .ok fields.length
  | _ => .error (.typeError "object has no len()")

/-- The headline's part about competitors, there only when a comparison ran. -/
def rivalHeadline (rivals : Dict) : Except Exn Dict :=
  if rivals.isEmpty then .ok []
  else do
    let behind ← lengthOf ((Dict.get rivals "behind_on").orElse (.arr []))
    .ok [("competitors_compared", Dict.get rivals "compared_against"), ("behind_on", .int behind)]

def headlineOf (workflow : Workflow) : Except Exn Dict := do
  let found := fun kind => (resultOf workflow kind).getD []
  let rivals ← rivalHeadline (found .competitorCheck)
  .ok ([("overall_score", Dict.get (found .crawl) "overall_score"),
    ("total_issues", Dict.get (found .crawl) "total_issues"),
    ("keywords_found", Dict.get (found .keywordResearch) "total"),
    ("keywords_ranked", Dict.get (found .serpCheck) "keywords_ranked"),
    ("average_position", Dict.get (found .serpCheck) "average_position"),
    ("orphan_pages", Dict.get (found .linkAnalysis) "orphan_count"),
    ("keyword_coverage", Dict.get (found .contentAnalysis) "coverage"),
    ("pages_to_rewrite", Dict.get (found .optimizerPlan) "pages_with_fixes")] ++ rivals)

/-- The previous run, with its id and finish time off the row. -/
def trendInput (env : Env) (previous : Workflow) : Option Dict :=
  match previous.report with
  | none => none
  | some report =>
      if report.isEmpty then none
      else
        some (Dict.set (Dict.set report "workflow_id" (.str previous.workflowId)) "finished_at"
          (.str (env.iso previous.updatedAt)))

def trendOf (env : Env) (previous : Option Workflow) (report : Dict) :
    Except Exn (Option Dict) :=
  match previous with
  | none => .ok none
  | some previous => env.compare (trendInput env previous) report

def withTrend (report : Dict) : Option Dict → Dict
  | none => report
  | some trend => if trend.isEmpty then report else Dict.set report "trend" (.obj trend)

/-- The report before the trend and the summary. -/
def baseReport (workflow : Workflow) (status : WorkflowStatus) (error : Option String)
    (steps : Json) (headline : Dict) : Dict :=
  let found := fun kind => (resultOf workflow kind).getD []
  [("goal", .str workflow.goal), ("status", .str status.name),
    ("error", .ofOption .str error), ("steps", steps), ("headline", .obj headline),
    ("crawl", .obj (found .crawl)), ("keywords", .obj (found .keywordResearch)),
    ("rankings", .obj (found .serpCheck)), ("links", .obj (found .linkAnalysis)),
    ("content", .obj (found .contentAnalysis)),
    ("optimizer", .obj (found .optimizerPlan))] ++
  if (found .competitorCheck).isEmpty then []
  else [("competitors", .obj (found .competitorCheck))]

/-- What the workflow produced, gathered in one place. -/
def reportOf (env : Env) (workflow : Workflow) (status : WorkflowStatus) (error : Option String)
    (steps : Json) (previous : Option Workflow) : Except Exn Dict := do
  let headline ← headlineOf workflow
  let report := baseReport workflow status error steps headline
  let trend ← trendOf env previous report
  let summary ← env.deterministic (withTrend report trend)
  .ok (Dict.set (withTrend report trend) "summary" (.obj summary))

def completedPayload (workflow : Workflow) (status : WorkflowStatus) (error : Option String)
    (steps : Json) (report : Dict) : Dict :=
  [("workflow_id", .str workflow.workflowId), ("goal", .str workflow.goal),
    ("status", .str status.name), ("error", .ofOption .str error), ("steps", steps),
    ("headline", Dict.get report "headline"),
    ("result_url", .str ("/v1/workflows/" ++ workflow.workflowId))]

/-- The event of a finish, unless its payload breaks the contract. -/
def completedEvents (env : Env) (eventId : String) (workflow : Workflow) (payload : Dict) :
    List PendingEvent :=
  match validateEvent env.wording .workflowCompleted payload with
  | .ok () =>
      [{ type := .workflowCompleted
         payload := payload
         producer := service
         eventId := eventId
         correlationId := some workflow.workflowId
         causationId := none }]
  | .error _ => []

/-- The previous run, or none where reading it raised. -/
def previousOrNone (workflow : Workflow) (status : WorkflowStatus) : StoreTx (Option Workflow) :=
  if status = .completed then tryCatch (previousCompleted workflow) fun _ => pure none
  else pure none

def finish (env : Env) (eventId : String) (workflow : Workflow) (status : WorkflowStatus)
    (error : Option String) : StoreTx Unit := do
  let steps := stepEntries workflow
  let previous ← previousOrNone workflow status
  let report ← fromExcept (reportOf env workflow status error steps previous)
  let payload := completedPayload workflow status error steps report
  let events := completedEvents env eventId workflow payload
  let _ ← setStatus workflow.workflowId status (some report) error events

def fatalSteps (workflow : Workflow) : List Step :=
  workflow.steps.filter fun s => s.status = .failed ∧ ¬ Optional s.kind

def firstError (failed : List Step) : String :=
  match byPosition failed with
  | [] => ""
  | s :: _ =>
      "step " ++ toString s.position ++ " (" ++ s.kind.name ++ ") failed: " ++
        textOr s.error "no reason given"

/-- Stage the request and mark the step, on the connection holding the lock. -/
def dispatch (workflowId : String) (step : Step) (event : PendingEvent) : StoreTx Unit := do
  let _ ← setStatus workflowId .running none none [event]
  markDispatched step.jobId

/-- What follows a step with nothing to do. -/
def advancePastSkipped (env : Env) (eventId workflowId : String) : StoreTx Unit := do
  match ← load workflowId with
  | none => throw (.attributeError "'NoneType' object has no attribute 'next_pending'")
  | some workflow =>
      match workflow.nextPending with
      | none => finish env eventId workflow .completed none
      | some step =>
          match dispatchEvent env eventId workflow step with
          | .ok event => dispatch workflowId step event
          | .error e => finish env eventId workflow .failed (some e.described)

/-- `advance` from the point where the workflow has been read. -/
def advanceLoaded (env : Env) (eventId workflowId : String) :
    Option Workflow → StoreTx Unit
  | none => pure ()
  | some workflow =>
      if workflow.status.Terminal then pure ()
      else if fatalSteps workflow ≠ [] then
        finish env eventId workflow .failed (some (firstError (fatalSteps workflow)))
      else if workflow.steps.any (fun s => s.status = .dispatched) then pure ()
      else
        match workflow.nextPending with
        | none => finish env eventId workflow .completed none
        | some step =>
            match dispatchEvent env eventId workflow step with
            | .ok event => dispatch workflowId step event
            | .error (.noWorkToDo reason) => do
                skipStep step.jobId reason
                advancePastSkipped env eventId workflowId
            | .error e => finish env eventId workflow .failed (some e.described)

/-- Take the workflow's lock and read it. -/
def claimAndLoad (workflowId : String) : StoreTx (Option Workflow) := do
  let _ ← lockRow workflowId
  load workflowId

/-- Dispatch the next step, or finish the workflow, under the row lock the
whole way. -/
def advance (env : Env) (eventId workflowId : String) : StoreTx Unit := do
  let workflow ← claimAndLoad workflowId
  advanceLoaded env eventId workflowId workflow

end SeoPlatform.Orchestrator.Engine
