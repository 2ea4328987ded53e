import SeoPlatform.Serp.Analyze
import SeoPlatform.Services.Runs

namespace SeoPlatform.Services.Serp

open SeoPlatform.Foundation.Counter
open SeoPlatform.Foundation.JsonSchema
open SeoPlatform.Foundation.JsonValue
open SeoPlatform.Foundation.UrlText
open SeoPlatform.Serp.Analyze
open SeoPlatform.Services.Runs
open SeoPlatform.Shared.Contracts

structure CheckRequest where
  targetDomain : String
  keywords : List String

def checkedPayload (checkId domain : String) (result : Except String Report) : Dict :=
  let report := result.toOption
  [("check_id", .str checkId),
   ("target_domain", .str domain),
   ("status", .str (statusName result)),
   ("error", errorOf result),
   ("keywords_checked", .int ((report.map (·.keywordsChecked)).getD 0 : Nat)),
   ("keywords_ranked", .int ((report.map (·.keywordsRanked)).getD 0 : Nat)),
   ("average_position", .ofOption .float (report.bind (·.averagePosition))),
   ("best", .ofOption (fun best => .obj best.toDict) (report.bind (·.best))),
   ("top_competitors", .arr ((((report.map (·.topCompetitors)).getD []).take 10).map fun entry =>
      .obj (outranking entry))),
   ("opportunities", .arr ((((report.map (·.opportunities)).getD []).take 25).map fun o =>
      .obj o.toDict)),
   ("result_url", .str ("/v1/checks/" ++ checkId))]

theorem bestRanking_toDict (best : Option Best) :
    bestRanking (.ofOption (fun best => .obj best.toDict) best) = true := by
  cases best with
  | none => rfl
  | some best =>
      refine nullable_of (closedObject_of_rows (by decide) (by decide) ?_)
      simp [Best.toDict]

theorem outrankingDomain_outranking (entry : String × Nat) :
    outrankingDomain (.obj (outranking entry)) = true :=
  closedObject_of_rows (by decide) (by decide) (by simp [outranking])

theorem rankOpportunity_toDict (o : Opportunity) : rankOpportunity (.obj o.toDict) = true :=
  closedObject_of_rows (by decide) (by decide) (by simp [Opportunity.toDict])

theorem checkedPayload_valid (checkId domain : String) (result : Except String Report) :
    Valid .serpChecked (checkedPayload checkId domain result) := by
  refine closedObject_of_rows (by decide) (by decide) ?_
  have hcompetitors : ∀ entries : List (String × Nat), arrayOf 0 (some 10) outrankingDomain
      (.arr ((entries.take 10).map fun entry => .obj (outranking entry))) = true :=
    fun entries => arrayOf_map (by simp) fun entry _ => outrankingDomain_outranking entry
  have hopportunities : ∀ list : List Opportunity, arrayOf 0 (some 25) rankOpportunity
      (.arr ((list.take 25).map fun o => .obj o.toDict)) = true :=
    fun list => arrayOf_map (by simp) fun o _ => rankOpportunity_toDict o
  simp only [eventSchema, serpChecked, checkedPayload, rows_cons, rows_nil, string_str,
    outcome_statusName, nullable_errorOf, atLeast_natCast, nullable_number_ofOption,
    bestRanking_toDict, hcompetitors, hopportunities, and_true]

/-- The rank-check service. The world gives what the provider answers to each keyword. -/
def service (rules : TextRules) : Service where
  requested := .serpCheckRequested
  completed := .serpChecked
  idField := "check_id"
  producer := "serp-service"
  Request := CheckRequest
  Material := Provider
  Report := Report
  read payload := do
    let targetDomain ← readText payload "target_domain"
    let keywords ← readTexts payload "keywords"
    .ok { targetDomain, keywords }
  subject request := request.targetDomain
  work request fetch :=
    let rankings := checkKeywords rules fetch request.keywords request.targetDomain
    .ok (summarise rules rankings request.targetDomain)
  document := Report.toDict
  payload checkId request := checkedPayload checkId request.targetDomain
  followUps _ _ := []
  payload_valid _ _ _ := checkedPayload_valid _ _ _
  payload_names _ _ _ := ⟨rfl, rfl⟩
  followUps_other _ _ _ := List.not_mem_nil.elim

end SeoPlatform.Services.Serp
