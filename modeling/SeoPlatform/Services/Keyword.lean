import SeoPlatform.Engine.Research
import SeoPlatform.Foundation.ExceptFlow
import SeoPlatform.Services.Runs

namespace SeoPlatform.Services.Keyword

open SeoPlatform.Engine.Keywords
open SeoPlatform.Engine.Research
open SeoPlatform.Foundation.Counter
open SeoPlatform.Foundation.JsonSchema
open SeoPlatform.Foundation.JsonValue
open SeoPlatform.Foundation.UrlText
open SeoPlatform.Services.Runs
open SeoPlatform.Shared.Contracts
open SeoPlatform.Shared.Exceptions
open SeoPlatform.Shared.Text (Unicode)

/-- What a study is asked for. The other options only decide what the engines are asked. -/
structure StudyRequest where
  seed : String
  lang : String
  country : String
  maxKeywords : Json

/-- What the engines answer to each query, by turns, and the fields of the report that
the keywords do not decide. -/
structure Answers where
  suggestions : List (Except Exn (List Suggestion))
  others : Dict

structure Study where
  report : KeywordReport
  others : Dict

section Documents

variable (unicode : Unicode)

def clusterRow (cluster : Cluster) : Json :=
  .obj
    [("label", .str cluster.label),
     ("size", .int cluster.size),
     ("intent", .str cluster.intent),
     ("intent_fa", .str cluster.intentFa),
     ("avg_demand", .int cluster.avgDemand),
     ("primary", .str cluster.primary),
     ("keywords", .arr (cluster.keywords.map .obj))]

def intentBreakdown (keywords : List Keyword) : Dict :=
  (tally (keywords.map Keyword.intent)).map fun entry => (entry.1, .int entry.2)

def toDict (study : Study) : Dict :=
  let report := study.report
  [("seed", .str report.seed),
   ("lang", .str report.lang),
   ("country", .str report.country),
   ("total", .int report.keywords.length),
   ("keywords", .arr (report.keywords.map fun keyword => .obj (keyword.toDict unicode))),
   ("clusters", .arr (report.clusters.map clusterRow)),
   ("by_intent", .obj (intentBreakdown report.keywords))] ++ study.others

end Documents

section Work

variable (rules : TextRules) (unicode : Unicode)

/-- A list is cut at a whole number only. -/
def cutAt : Json → Except Exn Nat
  | .int n => .ok n.toNat
  | _ => .error (.typeError "slice indices must be integers or None or have an __index__ method")

def study (request : StudyRequest) (answers : Answers) : Except Exn Study := do
  -- nothing is cut where there is no seed
  let maxKeywords ← if strip request.seed = "" then .ok 0 else cutAt request.maxKeywords
  let config : KeywordConfig :=
    { seed := request.seed
      lang := request.lang
      country := request.country
      maxKeywords := maxKeywords }
  .ok { report := research rules unicode config answers.suggestions, others := answers.others }

end Work

section Payload

variable {unicode : Unicode}

theorem topKeyword_row (keyword : Keyword) :
    Shared.Contracts.topKeyword (Engine.Research.topKeyword unicode keyword) = true :=
  openObject_of_rows (by decide) (by decide) (by simp)

/-- A study that is announced keeps the contract, whatever it found. -/
theorem researchedPayload_valid (researchId seed : String) (report : Option KeywordReport)
    {status : String} {error : Option String} (hstatus : outcome (.str status) = true) :
    Valid .keywordResearched (researchedPayload unicode researchId seed report status error) := by
  have htop : ∀ keywords : List Keyword, arrayOf 0 (some 25) Shared.Contracts.topKeyword
      (.arr ((keywords.take 25).map (Engine.Research.topKeyword unicode))) = true :=
    fun keywords => arrayOf_map (by simp) fun keyword _ => topKeyword_row keyword
  refine closedObject_of_rows (by decide) (by decide) ?_
  simp only [eventSchema, keywordResearched, researchedPayload, rows_cons, rows_nil, string_str,
    hstatus, nullable_string_ofOption, atLeast_natCast, htop, and_true]

end Payload

/-- A text of a request, or what stands for it. -/
def textField (payload : Dict) (field fallback : String) : Except Exn String :=
  match Dict.getD payload field (.str fallback) with
  | .str text => .ok text
  | _ => .error (.typeError "expected a str")

/-- The service that researches keywords. The world gives what the engines answer. -/
def service (rules : TextRules) (unicode : Unicode) : Service where
  requested := .keywordResearchRequested
  completed := .keywordResearched
  idField := "research_id"
  producer := "keyword-service"
  Request := StudyRequest
  Material := Answers
  Report := Study
  read payload := do
    let seed ← readText payload "seed"
    let lang ← textField payload "lang" "fa"
    let country ← textField payload "country" "IR"
    .ok
      { seed := seed
        lang := lang
        country := country
        maxKeywords := Dict.getD payload "max_keywords" (.int 200) }
  subject request := request.seed
  work request answers := study rules unicode request answers
  document := toDict unicode
  payload researchId request result :=
    researchedPayload unicode researchId request.seed (result.toOption.map Study.report)
      (statusName result) (failureOf result)
  followUps _ _ := []
  payload_valid _ _ _ := researchedPayload_valid _ _ _ (outcome_statusName _)
  payload_names _ _ _ := ⟨rfl, rfl⟩
  followUps_other _ _ _ := List.not_mem_nil.elim

end SeoPlatform.Services.Keyword
