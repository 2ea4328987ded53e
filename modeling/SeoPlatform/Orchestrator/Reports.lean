import SeoPlatform.Orchestrator.Conclusions

namespace SeoPlatform.Orchestrator.Reports

open SeoPlatform.Foundation.JsonValue
open SeoPlatform.Orchestrator.Planner
open SeoPlatform.Orchestrator.Store
open SeoPlatform.Orchestrator.StoreSpecs
open SeoPlatform.Orchestrator.Engine
open SeoPlatform.Orchestrator.AdvanceOutcomes
open SeoPlatform.Orchestrator.Snapshots
open SeoPlatform.Orchestrator.Changes
open SeoPlatform.Orchestrator.Coherence
open SeoPlatform.Orchestrator.Conclusions
open SeoPlatform.Shared.Exceptions
open SeoPlatform.Shared.Events

variable {env : Env} {w : Workflow} {status : WorkflowStatus} {error : Option String}
  {steps : Json} {previous : Option Workflow} {report headline : Dict}

/-- What a report is made of. -/
theorem reportOf_ok (h : reportOf env w status error steps previous = .ok report) :
    ∃ headline trend summary, headlineOf w = .ok headline ∧
      trendOf env previous (baseReport w status error steps headline) = .ok trend ∧
      report = Dict.set (withTrend (baseReport w status error steps headline) trend) "summary"
        (.obj summary) := by
  unfold reportOf at h
  cases hheadline : headlineOf w with
  | error e => simp [hheadline, bind, Except.bind] at h
  | ok headline =>
      simp only [hheadline, bind, Except.bind] at h
      cases htrend : trendOf env previous (baseReport w status error steps headline) with
      | error e => simp [htrend] at h
      | ok trend =>
          simp only [htrend] at h
          split at h
          · contradiction
          · exact ⟨headline, trend, _, rfl, htrend, (Except.ok.inj h).symm⟩

theorem get?_withTrend (report : Dict) (trend : Option Dict) {key : String} (h : key ≠ "trend") :
    Dict.get? (withTrend report trend) key = Dict.get? report key := by
  unfold withTrend
  split
  · rfl
  · split
    · rfl
    · exact Dict.get?_set_of_ne _ _ (Ne.symm h)

/-- The trend and the summary come on top of what the report gathered. -/
theorem get_of_reportOf (h : reportOf env w status error steps previous = .ok report) :
    ∃ headline, headlineOf w = .ok headline ∧ ∀ key, key ≠ "trend" → key ≠ "summary" →
      Dict.get report key = Dict.get (baseReport w status error steps headline) key := by
  obtain ⟨headline, trend, summary, hheadline, -, rfl⟩ := reportOf_ok h
  refine ⟨headline, hheadline, fun key htrend hsummary => ?_⟩
  unfold Dict.get
  rw [Dict.get?_set_of_ne _ _ (Ne.symm hsummary), get?_withTrend _ _ htrend]

theorem headline_of_reportOf (h : reportOf env w status error steps previous = .ok report) :
    ∃ headline, headlineOf w = .ok headline ∧ Dict.get report "headline" = .obj headline := by
  obtain ⟨headline, hheadline, hget⟩ := get_of_reportOf h
  exact ⟨headline, hheadline, by rw [hget _ (by simp) (by simp)]; rfl⟩

/-- What a headline is made of. -/
theorem headlineOf_ok (h : headlineOf w = .ok headline) :
    ∃ rivals, rivalHeadline ((resultOf w .competitorCheck).getD []) = .ok rivals ∧
      headline =
        [("overall_score", Dict.get ((resultOf w .crawl).getD []) "overall_score"),
          ("total_issues", Dict.get ((resultOf w .crawl).getD []) "total_issues"),
          ("keywords_found", Dict.get ((resultOf w .keywordResearch).getD []) "total"),
          ("keywords_ranked", Dict.get ((resultOf w .serpCheck).getD []) "keywords_ranked"),
          ("average_position", Dict.get ((resultOf w .serpCheck).getD []) "average_position"),
          ("orphan_pages", Dict.get ((resultOf w .linkAnalysis).getD []) "orphan_count"),
          ("keyword_coverage", Dict.get ((resultOf w .contentAnalysis).getD []) "coverage"),
          ("pages_to_rewrite",
            Dict.get ((resultOf w .optimizerPlan).getD []) "pages_with_fixes")] ++ rivals := by
  unfold headlineOf at h
  cases hrivals : rivalHeadline ((resultOf w .competitorCheck).getD []) with
  | error e => simp [hrivals, bind, Except.bind] at h
  | ok rivals =>
      simp only [hrivals, bind, Except.bind] at h
      exact ⟨rivals, rfl, (Except.ok.inj h).symm⟩

/-- What holds of the result of every completion holds of what a step keeps. -/
theorem holds_of_recorded {traffic : Traffic} {r : StepRow} {P : Dict → Prop} (hempty : P [])
    (hrecorded : Recorded env traffic r)
    (hread : ∀ type payload c, traffic.completion type payload →
      readCompletion env type payload = .ok c → P c.result) : P (r.result.getD []) := by
  cases hrecorded with
  | blank _ hresult | passed _ _ hresult =>
      rw [hresult]
      exact hempty
  | finished hpayload hcompletion _ _ hresult _ =>
      rw [hresult]
      exact hread _ _ _ hpayload hcompletion

/-- What holds of what every step keeps holds of the first result of a kind. -/
theorem holds_resultOf {P : Dict → Prop} (hempty : P [])
    (h : ∀ x ∈ w.steps, P (x.result.getD [])) (kind : StepKind) :
    P ((resultOf w kind).getD []) := by
  cases hresult : resultOf w kind with
  | none => exact hempty
  | some d =>
      obtain ⟨x, hx, hheld⟩ := List.exists_of_findSome?_eq_some hresult
      split at hheld
      · obtain ⟨hsome, -⟩ := Option.filter_eq_some_iff.mp hheld
        have hholds := h x hx
        rwa [hsome] at hholds
      · contradiction

/-- The report that a finish leaves in the row of its workflow. -/
theorem report_of_finishes {t s' : Db} {eventId : String} {row' : WorkflowRow}
    (h : Finishes env eventId w status error t s') (hrow' : row' ∈ s'.workflows.rows)
    (hid : row'.id = w.workflowId) :
    ∃ previous report, row'.report = some report ∧
      reportOf env w status error (stepEntries w) previous = .ok report := by
  obtain ⟨previous, report, hreport, rfl⟩ := h
  obtain ⟨row, -, rfl⟩ := mem_workflows_statusWritten.mp hrow'
  rw [withStatusWhere_id] at hid
  refine ⟨previous, report, ?_, hreport⟩
  rw [withStatusWhere_of_eq hid]
  rfl

end SeoPlatform.Orchestrator.Reports
