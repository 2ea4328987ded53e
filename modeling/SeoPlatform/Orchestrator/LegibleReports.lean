import SeoPlatform.Orchestrator.Deliveries
import SeoPlatform.Orchestrator.ReportTrends
import SeoPlatform.Orchestrator.Reports
import SeoPlatform.Orchestrator.Requests
import SeoPlatform.Orchestrator.StepResults

namespace SeoPlatform.Orchestrator.LegibleReports

open SeoPlatform.Foundation.ExceptFlow
open SeoPlatform.Foundation.JsonValue
open SeoPlatform.Foundation.JsonSchema
open SeoPlatform.Foundation.TransitionSystem
open SeoPlatform.Orchestrator.Planner
open SeoPlatform.Orchestrator.Store
open SeoPlatform.Orchestrator.StoreSpecs
open SeoPlatform.Orchestrator.Engine
open SeoPlatform.Orchestrator.AdvanceOutcomes
open SeoPlatform.Orchestrator.Snapshots
open SeoPlatform.Orchestrator.Workers
open SeoPlatform.Orchestrator.Changes
open SeoPlatform.Orchestrator.Coherence
open SeoPlatform.Orchestrator.Interleavings
open SeoPlatform.Orchestrator.Deliveries
open SeoPlatform.Orchestrator.StepResults
open SeoPlatform.Orchestrator.Conclusions
open SeoPlatform.Orchestrator.Reports
open SeoPlatform.Orchestrator.Requests
open SeoPlatform.Orchestrator.Trends (Trend)
open SeoPlatform.Orchestrator.ReportTrends
open SeoPlatform.Reporting.Rendering (part)
open SeoPlatform.Shared.Contracts
open SeoPlatform.Shared.Exceptions
open SeoPlatform.Shared.Events

/-- The pages of a plan, or how many pages there are of links. -/
def pagesField : Schema := fun v => integer v || arrayOf 0 none plannedPage v

/-- The fields of a step's result that are gone through, and what the contracts say
of each. -/
def listedFields : List (String × Schema) :=
  [("best", bestRanking),
   ("top_competitors", arrayOf 0 none outrankingDomain),
   ("opportunities", arrayOf 0 none rankOpportunity),
   ("top_opportunities", arrayOf 0 none linkOpportunity),
   ("top_gaps", arrayOf 0 none contentGap),
   ("pages", pagesField),
   ("behind_on", arrayOf 0 none string),
   ("ahead_on", arrayOf 0 none string),
   ("top_missing_themes", arrayOf 0 none string),
   ("top_keywords", arrayOf 0 none topKeyword)]

/-- Every field that is gone through is absent, `null`, or as its contract has it. -/
def Listed (result : Dict) : Prop :=
  ∀ field ∈ listedFields, nullable field.2 (Dict.get result field.1) = true

theorem Listed.field {result : Dict} (h : Listed result) (name : String) {schema : Schema}
    (hrow : listedFields.lookup name = some schema) :
    nullable schema (Dict.get result name) = true :=
  h (name, schema) (mem_of_lookup hrow)

theorem listed_nil : Listed [] := fun _ _ => rfl

section Results

variable {env : Env} {type : EventType} {payload result : Dict} {name : String} {item : Schema}
  {most : Option Nat} {n : Nat} {v : Json}

/-- A list of a payload that is kept up to some length. -/
theorem listed_of_sliced (hvalid : Valid type payload)
    (hrow : (eventSchema type).fields.lookup name = some (arrayOf 0 most item))
    (h : sliced n (Dict.getD payload name (.arr [])) = .ok v) :
    nullable (arrayOf 0 none item) v = true :=
  nullable_of (array_of_sliced (array_of_valid hvalid hrow) h)

theorem listed_of_crawl (h : stepResult .crawl payload = .ok result) : Listed result := by
  obtain ⟨stats, -, hresult⟩ := ok_of_bind h
  obtain rfl := Except.ok.inj hresult
  simp [Listed, listedFields, get_plain, get_plain_append, Dict.get_cons]

theorem listed_of_research (hvalid : Valid .keywordResearched payload)
    (h : stepResult .keywordResearch payload = .ok result) : Listed result := by
  obtain ⟨top, htop, hresult⟩ := ok_of_bind h
  obtain rfl := Except.ok.inj hresult
  have hwords := listed_of_sliced hvalid rfl htop
  simpa [Listed, listedFields, get_plain, get_plain_append, Dict.get_cons] using hwords

theorem listed_of_rankings (hvalid : Valid .serpChecked payload)
    (h : stepResult .serpCheck payload = .ok result) : Listed result := by
  obtain ⟨rivals, hrivals, hrest⟩ := ok_of_bind h
  obtain ⟨openings, hopenings, hresult⟩ := ok_of_bind hrest
  obtain rfl := Except.ok.inj hresult
  have hfields : nullable bestRanking (Dict.get payload "best") = true ∧
      nullable (arrayOf 0 none outrankingDomain) rivals = true ∧
      nullable (arrayOf 0 none rankOpportunity) openings = true :=
    ⟨field_of_valid hvalid rfl, listed_of_sliced hvalid rfl hrivals,
      listed_of_sliced hvalid rfl hopenings⟩
  simpa [Listed, listedFields, get_plain, get_plain_append, Dict.get_cons] using hfields

theorem listed_of_links (hvalid : Valid .linksAnalyzed payload)
    (h : stepResult .linkAnalysis payload = .ok result) : Listed result := by
  obtain ⟨top, htop, hresult⟩ := ok_of_bind h
  obtain rfl := Except.ok.inj hresult
  have hpages : nullable pagesField (Dict.get payload "pages") = true :=
    nullable_mono (fun v hv => by simp [pagesField, hv]) (integer_of_valid hvalid rfl)
  have hfields := And.intro hpages (listed_of_sliced hvalid rfl htop)
  simpa [Listed, listedFields, get_plain, get_plain_append, Dict.get_cons, and_comm] using hfields

theorem listed_of_content (hvalid : Valid .contentAnalyzed payload)
    (h : stepResult .contentAnalysis payload = .ok result) : Listed result := by
  obtain ⟨gaps, hgaps, hresult⟩ := ok_of_bind h
  obtain rfl := Except.ok.inj hresult
  have hfield := listed_of_sliced hvalid rfl hgaps
  simpa [Listed, listedFields, get_plain, get_plain_append, Dict.get_cons] using hfield

theorem listed_of_plan (hvalid : Valid .optimizerPlanned payload)
    (h : stepResult .optimizerPlan payload = .ok result) : Listed result := by
  obtain ⟨pages, hpages, hresult⟩ := ok_of_bind h
  obtain rfl := Except.ok.inj hresult
  have hfield : nullable pagesField pages = true :=
    nullable_mono (fun v hv => by simp [pagesField, hv]) (listed_of_sliced hvalid rfl hpages)
  simpa [Listed, listedFields, get_plain, get_plain_append, Dict.get_cons] using hfield

theorem listed_of_comparison (hvalid : Valid .competitorCompared payload)
    (h : stepResult .competitorCheck payload = .ok result) : Listed result := by
  obtain ⟨themes, hthemes, hresult⟩ := ok_of_bind h
  obtain rfl := Except.ok.inj hresult
  have hbehind := nullable_of (array_of_valid hvalid (show
    competitorCompared.fields.lookup "behind_on" = some (arrayOf 0 (some 10) string) from rfl))
  have hahead := nullable_of (array_of_valid hvalid (show
    competitorCompared.fields.lookup "ahead_on" = some (arrayOf 0 (some 10) string) from rfl))
  have hfields := And.intro hbehind (And.intro hahead (listed_of_sliced hvalid rfl hthemes))
  simpa [Listed, listedFields, get_plain, get_plain_append, Dict.get_cons] using hfields

/-- What is stored of a completion that keeps its contract can be gone through. -/
theorem listed_of_valid (hvalid : Valid type payload) {c : Completion}
    (hread : readCompletion env type payload = .ok c) : Listed c.result := by
  obtain ⟨kind, idField, hkind, -, -, hresult, -⟩ := readCompletion_ok hread
  cases type with
  | crawlCompleted =>
      cases hkind
      exact listed_of_crawl hresult
  | keywordResearched =>
      cases hkind
      exact listed_of_research hvalid hresult
  | serpChecked =>
      cases hkind
      exact listed_of_rankings hvalid hresult
  | linksAnalyzed =>
      cases hkind
      exact listed_of_links hvalid hresult
  | contentAnalyzed =>
      cases hkind
      exact listed_of_content hvalid hresult
  | optimizerPlanned =>
      cases hkind
      exact listed_of_plan hvalid hresult
  | competitorCompared =>
      cases hkind
      exact listed_of_comparison hvalid hresult
  | workflowRequested | workflowCompleted | crawlRequested | keywordResearchRequested
  | serpCheckRequested | linksAnalysisRequested | contentAnalysisRequested
  | optimizerPlanRequested | competitorComparisonRequested | pageUpdated | reportRequested
  | reportRendered => cases hkind

end Results

/-- The parts of a report that are results of steps. -/
def resultParts : List (String × StepKind) :=
  [("crawl", .crawl), ("keywords", .keywordResearch), ("rankings", .serpCheck),
   ("links", .linkAnalysis), ("content", .contentAnalysis), ("optimizer", .optimizerPlan),
   ("competitors", .competitorCheck)]

/-- What the readers of a report rely on. -/
structure Legible (report : Dict) : Prop where
  headline : ∃ headline, part report "headline" = .ok headline
  parts : ∀ name ∈ resultParts.map Prod.fst,
    ∃ result, Dict.getD report name (.obj []) = .obj result ∧ Listed result
  steps : ∃ steps : List Step,
    (Dict.get report "steps").orElse (.arr []) = .arr (steps.map stepEntry)
  trend : Dict.get report "trend" = .null ∨
    ∃ trend, Dict.get report "trend" = .obj (fieldsOf trend)

theorem legible_nil : Legible [] where
  headline := ⟨[], rfl⟩
  parts _ _ := ⟨[], rfl, listed_nil⟩
  steps := ⟨[], rfl⟩
  trend := .inl rfl

/-- A report is as legible as it was where only its trend or its summary is another. -/
theorem Legible.of_get? {report report' : Dict} (h : Legible report) {key : String}
    (hkey : key = "trend" ∨ key = "summary")
    (hget : ∀ name, name ≠ key → Dict.get? report' name = Dict.get? report name)
    (htrend : Dict.get report' "trend" = .null ∨
      ∃ trend, Dict.get report' "trend" = .obj (fieldsOf trend)) : Legible report' := by
  have hother : ∀ name, name ≠ "trend" → name ≠ "summary" →
      Dict.get? report' name = Dict.get? report name := by
    intro name hnotrend hnosummary
    refine hget name ?_
    rintro rfl
    exact hkey.elim hnotrend hnosummary
  refine ⟨?_, fun name hname => ?_, ?_, htrend⟩
  · unfold part Dict.get
    rw [hother _ (by simp) (by simp)]
    exact h.headline
  · unfold Dict.getD
    rw [hother name (by rintro rfl; simp [resultParts] at hname)
      (by rintro rfl; simp [resultParts] at hname)]
    exact h.parts name hname
  · unfold Dict.get
    rw [hother _ (by simp) (by simp)]
    exact h.steps

theorem Legible.set_summary {report : Dict} (h : Legible report) (summary : Json) :
    Legible (Dict.set report "summary" summary) := by
  have hget : ∀ name, name ≠ "summary" →
      Dict.get? (Dict.set report "summary" summary) name = Dict.get? report name :=
    fun name hname => Dict.get?_set_of_ne _ _ (Ne.symm hname)
  refine h.of_get? (.inr rfl) hget ?_
  unfold Dict.get
  rw [hget _ (by simp)]
  exact h.trend

theorem part_of_getD {report d : Dict} {name : String}
    (h : Dict.getD report name (.obj []) = .obj d) : part report name = .ok d := by
  unfold part Dict.get
  unfold Dict.getD at h
  cases hget : Dict.get? report name with
  | none =>
      rw [hget] at h
      exact congrArg asDict h
  | some v =>
      rw [hget, Option.getD_some] at h
      subst h
      cases d <;> rfl

/-- A part of a legible report is an object that can be gone through. -/
theorem Legible.part_ok {report : Dict} (h : Legible report) (name : String)
    (hname : name ∈ resultParts.map Prod.fst) : ∃ d, part report name = .ok d ∧ Listed d := by
  obtain ⟨d, hd, hlisted⟩ := h.parts name hname
  exact ⟨d, part_of_getD hd, hlisted⟩

section Reports

variable {reader : Reader} {env : Env} {w : Workflow} {status : WorkflowStatus}
  {error : Option String} {previous : Option Workflow} {report headline : Dict}

/-- The parts of a report before its trend are the results of the steps. -/
theorem getD_baseReport (steps : Json) {name : String} {kind : StepKind}
    (h : (name, kind) ∈ resultParts) :
    Dict.getD (baseReport w status error steps headline) name (.obj []) =
      .obj ((resultOf w kind).getD []) := by
  simp only [resultParts, List.mem_cons, Prod.mk.injEq, List.not_mem_nil, or_false] at h
  rcases h with ⟨rfl, rfl⟩ | ⟨rfl, rfl⟩ | ⟨rfl, rfl⟩ | ⟨rfl, rfl⟩ | ⟨rfl, rfl⟩ | ⟨rfl, rfl⟩ |
    ⟨rfl, rfl⟩
  · rfl
  · rfl
  · rfl
  · rfl
  · rfl
  · rfl
  · dsimp only [baseReport]
    cases hrivals : ((resultOf w .competitorCheck).getD []).isEmpty with
    | false => rfl
    | true =>
        rw [List.isEmpty_iff.mp hrivals]
        rfl

theorem legible_baseReport (hlisted : ∀ x ∈ w.steps, Listed (x.result.getD [])) :
    Legible (baseReport w status error (stepEntries w) headline) where
  headline := ⟨headline, part_of_getD rfl⟩
  parts name hname := by
    obtain ⟨⟨_, kind⟩, hpart, rfl⟩ := List.mem_map.mp hname
    exact ⟨_, getD_baseReport _ hpart, holds_resultOf listed_nil hlisted kind⟩
  steps := by
    refine ⟨byPosition w.steps, ?_⟩
    rw [show Dict.get (baseReport w status error (stepEntries w) headline) "steps" =
      stepEntries w from rfl]
    unfold stepEntries
    cases byPosition w.steps <;> rfl
  trend := by
    refine .inl ?_
    dsimp only [baseReport]
    split <;> rfl

theorem legible_withTrend (h : Legible report) {trend : Option Dict}
    (htrend : ∀ fields, trend = some fields → ∃ t, fields = fieldsOf t) :
    Legible (withTrend report trend) := by
  cases trend with
  | none => exact h
  | some fields =>
      obtain ⟨t, rfl⟩ := htrend fields rfl
      refine h.of_get? (.inl rfl) (fun name hname => get?_withTrend _ _ hname) (.inr ⟨t, ?_⟩)
      simp [withTrend, fieldsOf, Dict.get, Dict.get?_set]

/-- A report that is made of results that can be gone through is legible. -/
theorem legible_of_reportOf
    (h : reportOf (comparing reader env) w status error (stepEntries w) previous = .ok report)
    (hlisted : ∀ x ∈ w.steps, Listed (x.result.getD [])) : Legible report := by
  obtain ⟨headline, trend, summary, -, htrend, rfl⟩ := reportOf_ok h
  refine (legible_withTrend (legible_baseReport hlisted) ?_).set_summary _
  rintro fields rfl
  unfold trendOf at htrend
  split at htrend
  · cases htrend
  · exact compareReports_ok htrend

end Reports

section Runs

variable {reader : Reader} {env : Env} {traffic : Traffic} {s s' t : Db}

def KeepsContracts (traffic : Traffic) : Prop :=
  ∀ type payload, traffic.completion type payload → (completions type).isSome → Valid type payload

theorem keepsContracts_delivered {past : List (System × Label)} (h : ContractValid past) :
    KeepsContracts (delivered past) := by
  intro type payload hpayload hcompletion
  obtain ⟨⟨kind, idField⟩, hkind⟩ := Option.isSome_iff_exists.mp hcompletion
  exact h type payload kind idField ⟨hpayload, hkind⟩

def AllLegible (db : Db) : Prop := ∀ row ∈ db.workflows.rows, Legible (row.report.getD [])

/-- A status that is written keeps the report of a row, or puts its own there. -/
theorem allLegible_statusWritten {workflowId : String} {status : WorkflowStatus}
    {report : Option Dict} {error : Option String} {events : List PendingEvent}
    (h : AllLegible s) (hreport : Legible (report.getD [])) :
    AllLegible (statusWritten s workflowId status report error events) := by
  intro row' hrow'
  obtain ⟨row, hrow, rfl⟩ := mem_workflows_statusWritten.mp hrow'
  unfold WorkflowRow.withStatusWhere
  split
  · cases report with
    | none => exact h row hrow
    | some own => exact hreport
  · exact h row hrow

/-- A finish leaves a legible report. -/
theorem allLegible_of_finishes (hvalid : KeepsContracts traffic) {eventId workflowId : String}
    {w : Workflow} {status : WorkflowStatus} {error : Option String} (h : AllLegible t)
    (hrecorded : AllRecorded (comparing reader env) traffic t)
    (hw : snapshot t workflowId = some w)
    (hfinish : Finishes (comparing reader env) eventId w status error t s') : AllLegible s' := by
  obtain ⟨previous, report, hreport, rfl⟩ := hfinish
  refine allLegible_statusWritten h (legible_of_reportOf hreport fun x hx => ?_)
  obtain ⟨r, hr, -, rfl⟩ := (mem_steps_of_snapshot hw).mp hx
  refine holds_of_recorded listed_nil (hrecorded r hr) fun type payload c hpayload hread => ?_
  obtain ⟨kind, idField, hkind, -⟩ := readCompletion_ok hread
  exact listed_of_valid (hvalid _ _ hpayload (by simp [hkind])) hread

theorem allLegible_of_change (hvalid : KeepsContracts traffic) (h : AllLegible s)
    (hrecorded : AllRecorded (comparing reader env) traffic s)
    (hchange : Change (comparing reader env) traffic s s') : AllLegible s' := by
  cases hchange with
  | quiet hworkflows _ _ =>
      unfold AllLegible
      rw [hworkflows]
      exact h
  | created _ _ hcreated =>
      intro row' hrow'
      rcases (mem_workflows_created hcreated).mp hrow' with hrow | rfl
      · exact h row' hrow
      · exact legible_nil
  | started _ => exact allLegible_statusWritten h legible_nil
  | marked _ _ => exact h
  | summarised _ _ =>
      intro row' hrow'
      obtain ⟨row, hrow, rfl⟩ := List.mem_map.mp hrow'
      unfold WorkflowRow.withSummary
      split
      · exact (h row hrow).set_summary _
      · exact h row hrow
  | advanced _ hw _ _ hadvances =>
      cases hadvances with
      | fatal _ hfinish | done _ _ hfinish | refused _ _ _ _ hfinish =>
          exact allLegible_of_finishes hvalid h hrecorded hw hfinish
      | sent _ _ _ => exact allLegible_statusWritten h legible_nil
      | skipped _ hnext hevent hafter hpast =>
          have hrecorded' := (moved_skipped hw hnext hevent).allRecorded hrecorded
          cases hpast with
          | done _ hfinish | refused _ _ hfinish =>
              exact allLegible_of_finishes hvalid (t := skipped s _ _) h hrecorded' hafter hfinish
          | sent _ _ => exact allLegible_statusWritten (s := skipped s _ _) h legible_nil

/-- Over completions that keep their contracts, every report is legible. -/
theorem legible_of_run {past : List (System × Label)} {u : System}
    (run : Run (step (comparing reader env)) System.initial past u) (hvalid : ContractValid past)
    {row : WorkflowRow} (hrow : row ∈ u.db.workflows.rows) {report : Dict}
    (hreport : row.report = some report) : Legible report := by
  have hkeeps := keepsContracts_delivered hvalid
  have hlegible := (kept_of_run run (carries_delivered past)
    (fun db => AllRecorded (comparing reader env) (delivered past) db ∧ AllLegible db)
    ⟨fun _ hr => absurd hr List.not_mem_nil, fun _ hr => absurd hr List.not_mem_nil⟩
    fun _ _ _ h hchange => ⟨allRecorded_of_change h.1 hchange,
      allLegible_of_change hkeeps h.2 h.1 hchange⟩).2 row hrow
  rwa [hreport] at hlegible

end Runs

end SeoPlatform.Orchestrator.LegibleReports
