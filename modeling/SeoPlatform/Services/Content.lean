import SeoPlatform.Content.Analyze
import SeoPlatform.Content.TwoThirds
import SeoPlatform.Foundation.ExceptFlow
import SeoPlatform.Services.Runs

namespace SeoPlatform.Services.Content

open SeoPlatform.Content.Analyze
open SeoPlatform.Content.TwoThirds (double_zero)
open SeoPlatform.Foundation.Doubles
open SeoPlatform.Foundation.ExceptFlow
open SeoPlatform.Foundation.JsonSchema
open SeoPlatform.Foundation.JsonValue
open SeoPlatform.Foundation.Mapping
open SeoPlatform.Foundation.Rounding
open SeoPlatform.InternalLinks.Building (Reader)
open SeoPlatform.Services.Runs
open SeoPlatform.Shared.Contracts
open SeoPlatform.Shared.Exceptions
open SeoPlatform.Shared.Text (Unicode)

structure AnalysisRequest where
  crawlId : String
  researchId : String

/-- The report of a crawl and that of a keyword study. -/
structure Fetched where
  crawl : Dict
  research : Dict

section Documents

def listedRow (page : Listed) : Json :=
  .obj [("url", .str page.url), ("title", page.title), ("words", .int page.words)]

def gapRow (gap : Gap) : Json :=
  .obj [("keyword", .str gap.keyword), ("demand", .int gap.demand), ("intent", .str gap.intent)]

def clashRow (clash : Clash) : Json :=
  .obj [("keyword", .str clash.keyword), ("pages", .arr (clash.pages.map listedRow)),
    ("count", .int clash.count)]

def method : String :=
  "تطبیق بر اساس چیزی است که صفحه درباره‌ی خودش اعلام می‌کند: عنوان، " ++
    "توضیح متا و تیترها. متن بدنه بررسی نمی‌شود، پس ممکن است صفحه‌ای " ++
    "موضوعی را پوشش داده باشد و اینجا شکاف شمرده شود."

def toDict (summary : Summary) : Dict :=
  [("pages", .int summary.pages),
   ("indexable_pages", .int summary.indexablePages),
   ("keywords", .int summary.keywords),
   ("covered", .int summary.covered),
   ("coverage", .float summary.coverage),
   ("gaps", .arr (summary.gaps.map gapRow)),
   ("cannibalisation", .arr (summary.cannibalisation.map clashRow)),
   ("untargeted_pages", .arr (summary.untargetedPages.map listedRow)),
   ("method", .str method)]

end Documents

section Numbers

theorem double_one : double 1 = 1 := by decide +kernel

theorem double_hundred : double 100 = 100 := by decide +kernel

/-- What is between two doubles stays between them. -/
theorem between_double {low high x : Rat} (hlow : double low = low) (hhigh : double high = high)
    (h : low ≤ x ∧ x ≤ high) : low ≤ double x ∧ double x ≤ high := by
  constructor
  · calc
      low = double low := hlow.symm
      _ ≤ double x := double_mono h.1
  · calc
      double x ≤ double high := double_mono h.2
      _ = high := hhigh

/-- A share of no more than all is between nothing and all, in doubles as well. -/
theorem coverageOf_between {covered keywords : Nat} (h : covered ≤ keywords) :
    0 ≤ coverageOf covered keywords ∧ coverageOf covered keywords ≤ 100 := by
  unfold coverageOf
  split
  · norm_num
  · have hcount : (covered : Rat) ≤ keywords := by exact_mod_cast h
    have hshare : (0 : Rat) ≤ (covered : Rat) / keywords ∧ (covered : Rat) / keywords ≤ 1 :=
      ⟨div_nonneg (Nat.cast_nonneg _) (Nat.cast_nonneg _),
        div_le_one_of_le₀ hcount (Nat.cast_nonneg _)⟩
    have hratio : 0 ≤ double ((covered : Rat) / keywords) ∧
        double ((covered : Rat) / keywords) ≤ 1 :=
      between_double double_zero double_one hshare
    have hpercent : 0 ≤ double (double ((covered : Rat) / keywords) * 100) ∧
        double (double ((covered : Rat) / keywords) * 100) ≤ 100 :=
      between_double double_zero double_hundred ⟨by linarith [hratio.1], by linarith [hratio.2]⟩
    have hrounded : roundTenth (double (double ((covered : Rat) / keywords) * 100)) ≤
        ((100 : Int) : Rat) := roundTenth_le (by exact_mod_cast hpercent.2)
    exact between_double double_zero double_hundred
      ⟨roundTenth_nonneg hpercent.1, by exact_mod_cast hrounded⟩

variable {unicode : Unicode}

/-- A keyword is matched once. -/
theorem length_matchKeywords_le {pages : List Page} {keywords : List Keyword}
    {matched : Dictionary String (List Page)}
    (h : matchKeywords unicode pages keywords = .ok matched) :
    matched.entries.length ≤ keywords.length := by
  unfold matchKeywords at h
  obtain ⟨found, hfound, h⟩ := ok_of_bind h
  cases h
  have hsubset : (Dictionary.ofPairs found).keys ⊆ found.map Prod.fst :=
    fun key hkey => Dictionary.mem_keys_ofPairs.mp hkey
  have hsub := (List.subperm_of_subset (Dictionary.ofPairs found).nodup_keys hsubset).length_le
  have hlength := (forall₂_of_mapM hfound).length_eq
  unfold Dictionary.keys at hsub
  rw [List.length_map, List.length_map] at hsub
  omega

theorem coverage_of_summarise {reader : Reader} {report research : Dict} {summary : Summary}
    (h : summarise reader unicode report research = .ok summary) :
    0 ≤ summary.coverage ∧ summary.coverage ≤ 100 := by
  unfold summarise at h
  obtain ⟨pages, -, h⟩ := ok_of_bind h
  obtain ⟨keywords, -, h⟩ := ok_of_bind h
  obtain ⟨matched, hmatched, h⟩ := ok_of_bind h
  cases h
  exact coverageOf_between
    ((List.length_filter_le _ _).trans (length_matchKeywords_le hmatched))

end Numbers

section Payload

theorem contentGap_row (gap : Gap) :
    contentGap (.obj [("keyword", .str gap.keyword), ("demand", .int gap.demand)]) = true :=
  closedObject_of_rows (by decide) (by decide) (by simp)

theorem analyzedPayload_valid (analysisId crawlId researchId : String) {summary : Option Summary}
    {status : String} {error : Option String} (hstatus : outcome (.str status) = true)
    (hcoverage : ∀ found ∈ summary, 0 ≤ found.coverage ∧ found.coverage ≤ 100) :
    Valid .contentAnalyzed
      (analyzedPayload analysisId crawlId researchId summary status error) := by
  have hpercent : numberIn (some 0) (some 100)
      (((summary.map Summary.coverage).map .float).getD (.int 0)) = true := by
    cases summary with
    | none => rfl
    | some found => simpa [numberIn, within] using hcoverage found rfl
  have hgaps : ∀ rows : List Gap, arrayOf 0 (some 10) contentGap
      (.arr ((rows.take 10).map fun row =>
        .obj [("keyword", .str row.keyword), ("demand", .int row.demand)])) = true :=
    fun rows => arrayOf_map (by simp) fun row _ => contentGap_row row
  refine closedObject_of_rows (by decide) (by decide) ?_
  simp only [eventSchema, contentAnalyzed, analyzedPayload, rows_cons, rows_nil, string_str,
    hstatus, nullable_string_ofOption, atLeast_natCast, hpercent, hgaps, and_true]

end Payload

/-- The service that holds a site against a keyword study. The world gives both reports. -/
def service (reader : Reader) (unicode : Unicode) : Service where
  requested := .contentAnalysisRequested
  completed := .contentAnalyzed
  idField := "analysis_id"
  producer := "content-service"
  Request := AnalysisRequest
  Material := Fetched
  Report := Summary
  read payload := do
    let crawlId ← readText payload "crawl_id"
    let researchId ← readText payload "research_id"
    .ok { crawlId, researchId }
  subject request := request.crawlId
  work _ fetched := summarise reader unicode fetched.crawl fetched.research
  document := toDict
  payload analysisId request result :=
    analyzedPayload analysisId request.crawlId request.researchId result.toOption
      (statusName result) (failureOf result)
  followUps _ _ := []
  payload_valid analysisId request given := by
    refine analyzedPayload_valid _ _ _ (outcome_statusName _) ?_
    intro summary hsummary
    obtain ⟨fetched, hfetched⟩ := work_of_resultOf (ok_of_toOption hsummary)
    exact coverage_of_summarise hfetched
  payload_names _ _ _ := ⟨rfl, rfl⟩
  followUps_other _ _ _ := List.not_mem_nil.elim

end SeoPlatform.Services.Content
