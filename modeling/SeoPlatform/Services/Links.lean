import SeoPlatform.InternalLinks.FullResult
import SeoPlatform.Services.Runs

namespace SeoPlatform.Services.Links

open SeoPlatform.Foundation.ExceptFlow
open SeoPlatform.Foundation.JsonSchema
open SeoPlatform.Foundation.JsonValue
open SeoPlatform.Foundation.Mapping
open SeoPlatform.Foundation.PythonJson
open SeoPlatform.Foundation.Rounding
open SeoPlatform.InternalLinks.Building
open SeoPlatform.InternalLinks.Findings
open SeoPlatform.InternalLinks.FullResult (fullResult)
open SeoPlatform.Services.Runs
open SeoPlatform.Shared.Contracts
open SeoPlatform.Shared.Exceptions

/-- A report as a crawl writes it: the depth of each page is a whole number of clicks. -/
structure CrawlReport where
  fields : Dict
  depths : ∀ rows, pageRows fields = .ok rows →
    ∀ row ∈ rows, ∃ n : Nat, Dict.get row "depth" = .int n

/-- What an analysis returns, and what its completion tells of it. -/
structure Analysis where
  summary : Summary
  fields : List (String × Value)

section Numbers

variable {reader : Reader}

theorem depth_nonneg_of_pageOf {row : Dict} {page : Page} {n : Nat}
    (hdepth : Dict.get row "depth" = .int n) (h : pageOf reader row = .ok (some page)) :
    0 ≤ page.depth := by
  unfold pageOf at h
  obtain ⟨url, -, h⟩ := ok_of_bind h
  split at h
  · cases h
  · obtain ⟨status, -, h⟩ := ok_of_bind h
    obtain ⟨depth, hread, h⟩ := ok_of_bind h
    obtain ⟨words, -, h⟩ := ok_of_bind h
    cases h
    rw [hdepth, int_nat] at hread
    cases hread
    exact Int.natCast_nonneg n

/-- The pages of the graph of a crawl are a whole number of clicks deep. -/
theorem depth_nonneg_of_build {report : CrawlReport} {graph : Graph}
    (h : build reader report.fields = .ok graph) :
    ∀ entry ∈ graph.pages.entries, 0 ≤ entry.2.depth := by
  unfold build at h
  obtain ⟨rows, hrows, h⟩ := ok_of_bind h
  obtain ⟨pages, hpages, h⟩ := ok_of_bind h
  obtain ⟨edgeRows, -, h⟩ := ok_of_bind h
  obtain ⟨edges, -, h⟩ := ok_of_bind h
  cases h
  intro entry hentry
  obtain ⟨page, hpage, rfl⟩ := List.mem_map.mp (Dictionary.mem_entries_ofPairs hentry)
  obtain ⟨found, hfound, rfl⟩ := List.mem_filterMap.mp hpage
  obtain ⟨row, hrow, hread⟩ := exists_of_mem_mapM hpages hfound
  obtain ⟨n, hdepth⟩ := report.depths rows hrows row hrow
  exact depth_nonneg_of_pageOf hdepth hread

theorem max_nonneg {depths : List Int} (h : ∀ depth ∈ depths, 0 ≤ depth) :
    0 ≤ depths.max?.getD 0 := by
  cases hmax : depths.max? with
  | none => exact le_refl 0
  | some top => exact h top (List.max?_mem hmax)

/-- A mean of numbers of links is no negative number. -/
theorem average_nonneg {inlinks : List Rat} (h : ∀ n ∈ inlinks, 0 ≤ n) :
    numberIn (some 0) none (if inlinks = [] then .int 0
      else .float (roundTenth (inlinks.sum / inlinks.length))) = true := by
  have hmean : 0 ≤ roundTenth (inlinks.sum / (inlinks.length : Rat)) :=
    roundTenth_nonneg (div_nonneg (List.sum_nonneg h) (Nat.cast_nonneg _))
  split
  · rfl
  · simpa [numberIn, within] using hmean

/-- The numbers of a summary that its contract bounds. -/
theorem bounds_of_summarise {report : CrawlReport} {summary : Summary}
    (h : summarise reader report.fields = .ok summary) :
    0 ≤ summary.maxDepth ∧ numberIn (some 0) none summary.averageInlinks = true := by
  unfold summarise at h
  obtain ⟨graph, hgraph, h⟩ := ok_of_bind h
  obtain ⟨ranking, -, h⟩ := ok_of_bind h
  obtain ⟨orphans, -, h⟩ := ok_of_bind h
  obtain ⟨candidates, -, h⟩ := ok_of_bind h
  cases h
  have hdepths := depth_nonneg_of_build hgraph
  refine ⟨max_nonneg fun depth hdepth => ?_, average_nonneg fun n hn => ?_⟩
  · obtain ⟨entry, hentry, rfl⟩ := List.mem_map.mp hdepth
    exact hdepths entry (List.mem_filter.mp hentry).1
  · obtain ⟨entry, -, rfl⟩ := List.mem_map.mp hn
    exact Nat.cast_nonneg _

end Numbers

section Payload

theorem linkOpportunity_row (row : Candidate) : linkOpportunity
    (.obj [("url", .str row.url), ("inlinks", .int row.inlinks),
      ("authority", .float row.authority)]) = true :=
  closedObject_of_rows (by decide) (by decide) (by simp)

theorem analyzedPayload_valid (analysisId crawlId : String) {summary : Option Summary}
    {status : String} {error : Option String} (hstatus : outcome (.str status) = true)
    (hbounds : ∀ found ∈ summary,
      0 ≤ found.maxDepth ∧ numberIn (some 0) none found.averageInlinks = true) :
    Valid .linksAnalyzed (analyzedPayload analysisId crawlId summary status error) := by
  have hdepth : atLeast 0 (.int ((summary.map Summary.maxDepth).getD 0)) = true := by
    cases summary with
    | none => rfl
    | some found =>
        lift found.maxDepth to Nat using (hbounds found rfl).1 with depth hdepth
        simp [← hdepth]
  have haverage : numberIn (some 0) none
      ((summary.map Summary.averageInlinks).getD (.int 0)) = true := by
    cases summary with
    | none => rfl
    | some found => exact (hbounds found rfl).2
  have hopportunities : ∀ rows : List Candidate, arrayOf 0 (some 10) linkOpportunity
      (.arr ((rows.take 10).map fun row => .obj [("url", .str row.url),
        ("inlinks", .int row.inlinks), ("authority", .float row.authority)])) = true :=
    fun rows => arrayOf_map (by simp) fun row _ => linkOpportunity_row row
  refine closedObject_of_rows (by decide) (by decide) ?_
  simp only [eventSchema, linksAnalyzed, analyzedPayload, rows_cons, rows_nil, string_str,
    hstatus, nullable_string_ofOption, atLeast_natCast, hdepth, haverage, hopportunities, and_true]

end Payload

section Work

variable (setOrder : List String → List String) (repr : Rat → String) (reader : Reader)

def analyse (report : CrawlReport) : Except Exn Analysis := do
  let summary ← summarise reader report.fields
  let fields ← fullResult setOrder reader report.fields
  .ok { summary := summary, fields := fields }

variable {setOrder reader} in
theorem summarise_of_analyse {report : CrawlReport} {analysis : Analysis}
    (h : analyse setOrder reader report = .ok analysis) :
    summarise reader report.fields = .ok analysis.summary := by
  unfold analyse at h
  obtain ⟨summary, hsummary, h⟩ := ok_of_bind h
  obtain ⟨fields, -, h⟩ := ok_of_bind h
  cases h
  exact hsummary

/-- The service that analyses the links of a site. The world gives the report of the
crawl. -/
def service : Service where
  requested := .linksAnalysisRequested
  completed := .linksAnalyzed
  idField := "analysis_id"
  producer := "internal-links-service"
  Request := String
  Material := CrawlReport
  Report := Analysis
  read payload := readText payload "crawl_id"
  subject crawlId := crawlId
  work _ report := analyse setOrder reader report
  document analysis := dumpsEntries repr (named analysis.fields)
  payload analysisId crawlId result :=
    analyzedPayload analysisId crawlId (result.toOption.map Analysis.summary) (statusName result)
      (failureOf result)
  followUps _ _ := []
  payload_valid analysisId crawlId given := by
    refine analyzedPayload_valid _ _ (outcome_statusName _) ?_
    intro summary hsummary
    obtain ⟨analysis, hanalysis, rfl⟩ := Option.map_eq_some_iff.mp hsummary
    obtain ⟨report, hreport⟩ := work_of_resultOf (ok_of_toOption hanalysis)
    exact bounds_of_summarise (summarise_of_analyse hreport)
  payload_names _ _ _ := ⟨rfl, rfl⟩
  followUps_other _ _ _ := List.not_mem_nil.elim

end Work

end SeoPlatform.Services.Links
