import SeoPlatform.Optimizer.Planning
import SeoPlatform.Services.Runs

namespace SeoPlatform.Services.Optimizer

open SeoPlatform.Foundation.ExceptFlow
open SeoPlatform.Foundation.JsonSchema
open SeoPlatform.Foundation.JsonValue
open SeoPlatform.InternalLinks.Building (Reader)
open SeoPlatform.Optimizer.Planning
open SeoPlatform.Optimizer.Rewriting
open SeoPlatform.Services.Runs
open SeoPlatform.Shared.Contracts
open SeoPlatform.Shared.Exceptions
open SeoPlatform.Shared.Text (Unicode)

def defaultPages : Nat := 5

structure PlanRequest where
  crawlId : String
  researchId : Option String
  pages : Nat

/-- The report of the crawl, that of the study or an empty one, and what came of asking
the model. -/
structure Fetched where
  crawl : Dict
  research : Dict
  asked : Option (Except String Dict)

/-- What is to be changed, and who wrote it. -/
structure Planned where
  summary : Summary
  plans : List Plan
  writtenBy : String

section Documents

def optional (key : String) (value : Option String) : Dict :=
  match value with
  | some text => [(key, .str text)]
  | none => []

def fixRow (fix : Fix) : Json :=
  .obj
    ([("field", .str fix.field.name),
      ("problem", .str fix.problem),
      ("current", .str fix.current),
      ("candidate", .ofOption .str fix.candidate),
      ("keyword", .ofOption .str fix.keyword),
      ("min_length", .ofOption (fun n : Nat => .int n) fix.minLength),
      ("max_length", .ofOption (fun n : Nat => .int n) fix.maxLength),
      ("why_fa", .str fix.whyFa)] ++ optional "written_by" fix.writtenBy)

def planRow (plan : Plan) : Json :=
  .obj
    ([("url", .str plan.url),
      ("keyword", .ofOption .str plan.keyword),
      ("demand", .int plan.demand),
      ("words", .int plan.words),
      ("fixes", .arr (plan.fixes.map fixRow)),
      ("source", .str plan.source)] ++ optional "note" plan.note)

def toDict (planned : Planned) : Dict :=
  let summary := planned.summary
  [("pages_examined", .int summary.pagesExamined),
   ("pages_with_fixes", .int summary.pagesWithFixes),
   ("fixes", .int summary.fixes),
   ("by_problem", .obj (summary.byProblem.map fun entry => (entry.1, .int entry.2))),
   ("plans", .arr (planned.plans.map planRow)),
   ("limit", .int summary.limit),
   ("written_by", .str planned.writtenBy)]

end Documents

section Work

-- `shown` is `str` of what is no text, `isDigit` what `str.isdigit` takes for a digit
variable (reader : Reader) (isDigit : Char → Bool) (unicode : Unicode)

/-- The model only ever sees the bounded list, never every page. -/
def plan (pages : Nat) (fetched : Fetched) : Except Exn Planned := do
  let summary ← summarise reader isDigit unicode fetched.crawl fetched.research pages
  let plans ← enrich unicode reader.shown fetched.asked summary.plans
  .ok
    { summary := summary
      plans := plans
      writtenBy := if plans.any fun plan => plan.source = "ai" then "ai" else "rules" }

variable {reader isDigit unicode}

theorem writtenBy_of_plan {pages : Nat} {fetched : Fetched} {planned : Planned}
    (h : plan reader isDigit unicode pages fetched = .ok planned) :
    planned.writtenBy = "ai" ∨ planned.writtenBy = "rules" := by
  unfold plan at h
  obtain ⟨summary, -, h⟩ := ok_of_bind h
  obtain ⟨plans, -, h⟩ := ok_of_bind h
  cases h
  dsimp only
  split
  · exact .inl rfl
  · exact .inr rfl

end Work

section Payload

/-- Counts and the urls, not the copy. A plan that failed has no report. -/
def plannedPayload (planId crawlId : String) (planned : Option Planned) (status : String)
    (error : Option String) : Dict :=
  let count (f : Summary → Nat) : Json := .int ((planned.map fun p => f p.summary).getD 0 : Nat)
  [("plan_id", .str planId),
   ("crawl_id", .str crawlId),
   ("status", .str status),
   ("error", .ofOption .str error),
   ("pages_examined", count Summary.pagesExamined),
   ("pages_with_fixes", count Summary.pagesWithFixes),
   ("fixes", count Summary.fixes),
   ("written_by", .str ((planned.map Planned.writtenBy).getD "rules")),
   ("pages", .arr ((((planned.map Planned.plans).getD []).take 10).map fun plan =>
      .obj [("url", .str plan.url), ("fixes", .int plan.fixes.length)])),
   ("result_url", .str ("/v1/optimizer-plans/" ++ planId))]

theorem plannedPage_row (plan : Plan) :
    plannedPage (.obj [("url", .str plan.url), ("fixes", .int plan.fixes.length)]) = true :=
  closedObject_of_rows (by decide) (by decide) (by simp)

theorem plannedPayload_valid (planId crawlId : String) {planned : Option Planned}
    {status : String} {error : Option String} (hstatus : outcome (.str status) = true)
    (hwritten : ∀ found ∈ planned, found.writtenBy = "ai" ∨ found.writtenBy = "rules") :
    Valid .optimizerPlanned (plannedPayload planId crawlId planned status error) := by
  have hauthor : oneOf ["rules", "ai"]
      (.str ((planned.map Planned.writtenBy).getD "rules")) = true := by
    cases planned with
    | none => rfl
    | some found =>
        rcases hwritten found rfl with hai | hrules
        · simp [hai]
        · simp [hrules]
  have hpages : ∀ plans : List Plan, arrayOf 0 (some 10) plannedPage
      (.arr ((plans.take 10).map fun plan =>
        .obj [("url", .str plan.url), ("fixes", .int plan.fixes.length)])) = true :=
    fun plans => arrayOf_map (by simp) fun plan _ => plannedPage_row plan
  refine closedObject_of_rows (by decide) (by decide) ?_
  simp only [eventSchema, optimizerPlanned, plannedPayload, rows_cons, rows_nil, string_str,
    hstatus, nullable_string_ofOption, atLeast_natCast, hauthor, hpages, and_true]

end Payload

/-- The service that plans rewrites. The world gives the reports, and the answer of the
model. -/
def service (reader : Reader) (isDigit : Char → Bool) (unicode : Unicode) : Service where
  requested := .optimizerPlanRequested
  completed := .optimizerPlanned
  idField := "plan_id"
  producer := "optimizer-service"
  Request := PlanRequest
  Material := Fetched
  Report := Planned
  read payload := do
    let crawlId ← readText payload "crawl_id"
    let pages ← reader.int ((Dict.get payload "pages").orElse (.int defaultPages))
    .ok
      { crawlId := crawlId
        researchId := (Dict.get payload "research_id").str?
        pages := pages.toNat }
  subject request := request.crawlId
  work request fetched := plan reader isDigit unicode request.pages fetched
  document := toDict
  payload planId request result :=
    plannedPayload planId request.crawlId result.toOption (statusName result) (failureOf result)
  followUps _ _ := []
  payload_valid planId request given := by
    refine plannedPayload_valid _ _ (outcome_statusName _) ?_
    intro planned hplanned
    obtain ⟨fetched, hfetched⟩ := work_of_resultOf (ok_of_toOption hplanned)
    exact writtenBy_of_plan hfetched
  payload_names _ _ _ := ⟨rfl, rfl⟩
  followUps_other _ _ _ := List.not_mem_nil.elim

end SeoPlatform.Services.Optimizer
