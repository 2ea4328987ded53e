import SeoPlatform.Competitor.Analyze
import SeoPlatform.Foundation.ExceptFlow
import SeoPlatform.Services.Runs

namespace SeoPlatform.Services.Competitor

open SeoPlatform.Competitor.Analyze
open SeoPlatform.Foundation.Doubles
open SeoPlatform.Foundation.ExceptFlow
open SeoPlatform.Foundation.JsonSchema
open SeoPlatform.Foundation.JsonValue
open SeoPlatform.InternalLinks.Building (Reader)
open SeoPlatform.Services.Runs
open SeoPlatform.Shared.Contracts
open SeoPlatform.Shared.Exceptions
open SeoPlatform.Shared.Text (Unicode)

structure ComparisonRequest where
  crawlId : String
  competitorCrawlIds : List String

/-- The report of the own crawl, and what is there of another: its report, or the text
of `UnknownRecord`. -/
structure Fetched where
  mine : Dict
  fetch : String → Except String Dict

/-- A comparison, with the crawls that were missing from it. -/
structure Comparison where
  summary : Summary
  unavailable : List (String × String)

/-- `_distinct`. -/
def distinct (ids : List String) : List String := (ids.filter (· ≠ "")).eraseDups

section Documents

def profileRow (profile : Profile) : Json :=
  .obj
    [("label", .str profile.label),
     ("sampled", .int profile.sampled),
     ("comparable", .bool profile.comparable),
     ("titled", .float profile.titled),
     ("title_in_range", .float profile.titleInRange),
     ("described", .float profile.described),
     ("has_h1", .float profile.hasH1),
     ("median_words", .int profile.medianWords),
     ("thin", .float profile.thin),
     ("median_headings", .int profile.medianHeadings)]

def standingName : Standing → String
  | .level => "level"
  | .ahead => "ahead"
  | .behind => "behind"

def verdictRow (verdict : Verdict) : Json :=
  .obj
    [("metric", .str verdict.metric),
     ("label_fa", .str verdict.labelFa),
     ("yours", .float verdict.yours),
     ("competitor_median", .float verdict.competitorMedian),
     ("difference", .float verdict.difference),
     ("verdict", .str (standingName verdict.verdict))]

def lengthRow (verdict : LengthVerdict) : Json :=
  .obj
    [("yours", .int verdict.yours),
     ("competitor_median", .int verdict.competitorMedian),
     ("ratio", .float verdict.ratio),
     ("verdict", .str (standingName verdict.verdict))]

/-- A theme, with its pages under the name of whose they are. -/
def themeRow (pages : String) (theme : Theme) : Json :=
  .obj [("term", .str theme.term), ("competitors", .int theme.competitors),
    (pages, .int theme.pages)]

def method : String :=
  "مقایسه فقط روی نرخ‌ها و میانه‌هاست، نه تعداد صفحه‌ها — هر خزش سقف " ++
    "دارد و شمردن صفحه‌ها اندازه‌ی سقف را می‌سنجد نه اندازه‌ی سایت. سایتی با کمتر از " ++
    toString minSample ++ " صفحه‌ی ایندکس‌پذیر در داوری‌ها شرکت داده نمی‌شود، و یک عبارت " ++
    "وقتی «موضوع» است که دست‌کم " ++ toString minCompetitors ++ " رقیب رویش نوشته باشند."

def toDict (comparison : Comparison) : Dict :=
  let summary := comparison.summary
  [("you", profileRow summary.you),
   ("competitors", .arr (summary.competitors.map profileRow)),
   ("ignored", .arr (summary.ignored.map .str)),
   ("compared_against", .int summary.comparedAgainst),
   ("verdicts", .arr (summary.verdicts.map verdictRow)),
   ("behind_on", .arr (summary.behindOn.map .str)),
   ("ahead_on", .arr (summary.aheadOn.map .str)),
   ("content_length", .ofOption lengthRow summary.contentLength),
   ("missing_themes", .arr (summary.missingThemes.map (themeRow "their_pages"))),
   ("shared_themes", .arr (summary.sharedThemes.map (themeRow "your_pages"))),
   ("method", .str method),
   ("unavailable", .arr (comparison.unavailable.map fun entry =>
      .obj [("crawl_id", .str entry.1), ("error", .str entry.2)]))]

end Documents

section Work

/-- A competitor whose crawl is missing is no reason to lose the whole comparison. -/
def compare (reader : Reader) (unicode : Unicode) (competitorCrawlIds : List String)
    (fetched : Fetched) : Except Exn Comparison := do
  let theirs := competitorCrawlIds.filterMap fun id => (fetched.fetch id).toOption
  let unavailable := competitorCrawlIds.filterMap fun id =>
    match fetched.fetch id with
    | .ok _ => none
    | .error text => some (id, text)
  let summary ← summarise reader unicode fetched.mine theirs
  .ok { summary := summary, unavailable := unavailable }

variable {reader : Reader} {unicode : Unicode}

theorem summarise_of_compare {ids : List String} {fetched : Fetched} {comparison : Comparison}
    (h : compare reader unicode ids fetched = .ok comparison) :
    ∃ mine theirs, summarise reader unicode mine theirs = .ok comparison.summary := by
  unfold compare at h
  obtain ⟨summary, hsummary, h⟩ := ok_of_bind h
  cases h
  exact ⟨_, _, hsummary⟩

/-- There is one verdict on each metric, or none. -/
theorem length_rateVerdicts_le (fp : Rat → Rat) (mine : Profile) (others : List Profile) :
    (rateVerdicts fp mine others).length ≤ metrics.length := by
  unfold rateVerdicts
  dsimp only
  split
  · exact Nat.zero_le _
  · rw [List.length_map]

theorem lengths_of_summarise {mine : Dict} {theirs : List Dict} {summary : Summary}
    (h : summarise reader unicode mine theirs = .ok summary) :
    summary.behindOn.length ≤ 10 ∧ summary.aheadOn.length ≤ 10 := by
  unfold summarise summariseWith at h
  split at h
  · cases h
  · obtain ⟨mine, -, h⟩ := ok_of_bind h
    obtain ⟨others, -, h⟩ := ok_of_bind h
    obtain ⟨myProfile, -, h⟩ := ok_of_bind h
    obtain ⟨theirProfiles, -, h⟩ := ok_of_bind h
    obtain ⟨missing, -, h⟩ := ok_of_bind h
    obtain ⟨shared, -, h⟩ := ok_of_bind h
    cases h
    have hfive : metrics.length ≤ 10 := by decide
    have hselected : ∀ p : Verdict → Bool,
        (((rateVerdicts double myProfile theirProfiles).filter p).map Verdict.metric).length ≤
          10 := by
      intro p
      rw [List.length_map]
      calc
        _ ≤ (rateVerdicts double myProfile theirProfiles).length := List.length_filter_le _ _
        _ ≤ metrics.length := length_rateVerdicts_le _ _ _
        _ ≤ 10 := hfive
    exact ⟨hselected _, hselected _⟩

end Work

section Payload

theorem arrayOf_texts {limit : Nat} {texts : List String} (h : texts.length ≤ limit) :
    arrayOf 0 (some limit) string (.arr (texts.map .str)) = true :=
  arrayOf_map (by simpa using h) fun text _ => string_str text

theorem comparedPayload_valid (comparisonId crawlId : String) (competitorCrawlIds : List String)
    {summary : Option Summary} {status : String} {error : Option String}
    (hstatus : outcome (.str status) = true)
    (hlengths : ∀ found ∈ summary, found.behindOn.length ≤ 10 ∧ found.aheadOn.length ≤ 10) :
    Valid .competitorCompared
      (comparedPayload comparisonId crawlId competitorCrawlIds summary status error) := by
  have hids : arrayOf 0 (some 8) string
      (.arr ((competitorCrawlIds.take maxCompetitors).map .str)) = true :=
    arrayOf_texts (List.length_take_le _ _)
  have hbehind : arrayOf 0 (some 10) string
      (.arr (((summary.map Summary.behindOn).getD []).map .str)) = true := by
    cases summary with
    | none => rfl
    | some found => exact arrayOf_texts (hlengths found rfl).1
  have hahead : arrayOf 0 (some 10) string
      (.arr (((summary.map Summary.aheadOn).getD []).map .str)) = true := by
    cases summary with
    | none => rfl
    | some found => exact arrayOf_texts (hlengths found rfl).2
  have hthemes : ∀ rows : List Theme, arrayOf 0 (some 10) string
      (.arr ((rows.take 10).map fun row => .str row.term)) = true :=
    fun rows => arrayOf_map (by simp) fun row _ => string_str row.term
  have hnames : (competitorCompared.fields.map Prod.fst).Nodup := by decide
  have hrequired : ∀ name ∈ competitorCompared.required,
      name ∈ competitorCompared.fields.map Prod.fst := by decide
  refine closedObject_of_rows hnames hrequired ?_
  simp only [eventSchema, competitorCompared, comparedPayload, rows_cons, rows_nil, string_str,
    hstatus, nullable_string_ofOption, atLeast_natCast, hids, hbehind, hahead, hthemes, and_true]

end Payload

/-- The service that compares a site with others. The world gives the reports of the
crawls. -/
def service (reader : Reader) (unicode : Unicode) : Service where
  requested := .competitorComparisonRequested
  completed := .competitorCompared
  idField := "comparison_id"
  producer := "competitor-service"
  Request := ComparisonRequest
  Material := Fetched
  Report := Comparison
  read payload := do
    let crawlId ← readText payload "crawl_id"
    let ids ← readTexts payload "competitor_crawl_ids"
    .ok { crawlId := crawlId, competitorCrawlIds := distinct ids }
  subject request := request.crawlId
  work request fetched := compare reader unicode (distinct request.competitorCrawlIds) fetched
  document := toDict
  payload comparisonId request result :=
    comparedPayload comparisonId request.crawlId (distinct request.competitorCrawlIds)
      (result.toOption.map Comparison.summary) (statusName result) (failureOf result)
  followUps _ _ := []
  payload_valid comparisonId request given := by
    refine comparedPayload_valid _ _ _ (outcome_statusName _) ?_
    intro summary hsummary
    obtain ⟨comparison, hcomparison, rfl⟩ := Option.map_eq_some_iff.mp hsummary
    obtain ⟨fetched, hfetched⟩ := work_of_resultOf (ok_of_toOption hcomparison)
    obtain ⟨mine, theirs, h⟩ := summarise_of_compare hfetched
    exact lengths_of_summarise h
  payload_names _ _ _ := ⟨rfl, rfl⟩
  followUps_other _ _ _ := List.not_mem_nil.elim

end SeoPlatform.Services.Competitor
