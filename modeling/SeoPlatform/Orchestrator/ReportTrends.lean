import SeoPlatform.Foundation.ExceptFlow
import SeoPlatform.Orchestrator.Trends
import SeoPlatform.Reporting.Rendering

namespace SeoPlatform.Orchestrator.ReportTrends

open SeoPlatform.Foundation.ExceptFlow
open SeoPlatform.Foundation.JsonValue
open SeoPlatform.Orchestrator.Engine (Env asDict)
open SeoPlatform.Orchestrator.Planner (iterate)
open SeoPlatform.Orchestrator.Trends
open SeoPlatform.Reporting.Rendering (part text)
open SeoPlatform.Shared.Exceptions

def Direction.name : Direction → String
  | .better => "better"
  | .worse => "worse"
  | .level => "level"

def rowOf (change : Change) : Json :=
  .obj [("metric", .str change.metric), ("label_fa", .str change.labelFa),
    ("before", change.before), ("after", change.after), ("change", .float change.change),
    ("direction", .str (Direction.name change.direction))]

/-- A trend as it is kept in the report. -/
def fieldsOf (trend : Trend) : Dict :=
  [("compared_with", trend.comparedWith), ("compared_at", trend.comparedAt),
    ("changes", .arr (trend.changes.map rowOf)), ("better", .arr (trend.better.map .str)),
    ("worse", .arr (trend.worse.map .str)), ("pages_before", .int trend.pagesBefore),
    ("pages_after", .int trend.pagesAfter), ("comparable_sample", .bool trend.comparableSample),
    ("note", .ofOption .str trend.note)]

/-- How texts are read as numbers. -/
structure Reader where
  parseInt : String → Option Int
  parseFloat : String → Option Rat

/-- `int`. -/
def intOf (parseInt : String → Option Int) : Json → Except Exn Int
  | .int n => .ok n
  | .float q => .ok (q.num.tdiv q.den)
  | .bool b => .ok (if b then 1 else 0)
  | .str s =>
      match parseInt s with
      | some n => .ok n
      | none => .error (.valueError "invalid literal for int()")
  | _ => .error (.typeError "int() argument must be a string or a real number")

section Compare

variable (reader : Reader) (shown : Json → String)

/-- The contract makes a category a text, and a label is only ever printed. -/
def scoreOf (entry : Json) : Except Exn CategoryScore := do
  let fields ← asDict entry
  let label := Dict.get fields "label_fa"
  .ok
    { category := text shown (Dict.get fields "category")
      labelFa := if label.truthy then some (text shown label) else none
      score := Dict.get fields "score" }

def readReport (report : Dict) : Except Exn WorkflowReport := do
  let headline ← part report "headline"
  let crawl ← part report "crawl"
  let pages ← intOf reader.parseInt ((Dict.get crawl "pages_crawled").orElse (.int 0))
  let scores ← iterate ((Dict.get crawl "category_scores").orElse (.arr []))
  .ok
    { workflowId := Dict.get report "workflow_id"
      finishedAt := Dict.get report "finished_at"
      headline
      pagesCrawled := pages
      categoryScores := ← scores.mapM (scoreOf shown) }

/-- `compare` on the reports as they are kept. -/
def compareReports : Option Dict → Dict → Except Exn (Option Dict)
  | none, _ => .ok none
  | some previous, current =>
      if previous.isEmpty then .ok none
      else do
        let before ← readReport reader shown previous
        let after ← readReport reader shown current
        .ok ((compare reader.parseFloat (some before) after).map fieldsOf)

end Compare

/-- The engine with the trends of this package. -/
def comparing (reader : Reader) (env : Env) : Env :=
  { env with compare := compareReports reader env.shown }

/-- Whatever is compared, the outcome is kept as a trend. -/
theorem compareReports_ok {reader : Reader} {shown : Json → String} {previous : Option Dict}
    {current fields : Dict} (h : compareReports reader shown previous current = .ok (some fields)) :
    ∃ trend, fields = fieldsOf trend := by
  unfold compareReports at h
  split at h
  · cases h
  · split at h
    · cases h
    · obtain ⟨before, -, h⟩ := ok_of_bind h
      obtain ⟨after, -, h⟩ := ok_of_bind h
      obtain ⟨trend, -, rfl⟩ := Option.map_eq_some_iff.mp (Except.ok.inj h)
      exact ⟨trend, rfl⟩

end SeoPlatform.Orchestrator.ReportTrends
