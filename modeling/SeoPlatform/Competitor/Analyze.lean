import SeoPlatform.Content.Analyze
import SeoPlatform.Foundation.Counter

namespace SeoPlatform.Competitor.Analyze

open SeoPlatform.Content.Analyze (part)
open SeoPlatform.Foundation.Counter
open SeoPlatform.Foundation.Doubles
open SeoPlatform.Foundation.JsonValue
open SeoPlatform.Foundation.Rounding
open SeoPlatform.Foundation.UrlParse
open SeoPlatform.Foundation.UrlText
open SeoPlatform.InternalLinks.Building (Reader stripped)
open SeoPlatform.Orchestrator.Engine (asDict)
open SeoPlatform.Orchestrator.Planner (iterate)
open SeoPlatform.Shared.Exceptions
open SeoPlatform.Shared.Text

/-- Below this many pages a median means nothing. -/
def minSample : Nat := 5

/-- How far apart two rates have to be before they differ. -/
def rateMargin : Rat := 10

def lengthMargin : Rat := 3 / 2

/-- A theme has to be used by this many competitors. -/
def minCompetitors : Nat := 2

def minTermLength : Nat := 3

def titleMin : Nat := 25

def titleMax : Nat := 60

def thinWords : Int := 300

structure Page where
  url : String
  title : Json := .null
  description : Json := .null
  headings : List Dict := []
  wordCount : Int := 0
  indexable : Bool := true

structure Site where
  label : String
  pages : List Page := []

/-- Only indexable pages are compared. -/
def Site.indexable (site : Site) : List Page := site.pages.filter Page.indexable

/-- `len(value or "")`. -/
def lengthOf (value : Json) : Except Exn Nat :=
  match value.orElse (.str "") with
  | .str s => .ok s.length
  | .arr items => .ok items.length
  | .obj fields => .ok fields.length
  | _ => .error (.typeError "object has no len()")

section Reading

variable (reader : Reader)

/-- `str(value)`. -/
def shownText : Json → String
  | .str s => s
  | v => reader.shown v

def Page.h1 (page : Page) : Option String :=
  match page.headings.find? fun heading =>
      ["1", "h1", "H1"].contains (shownText reader (Dict.get heading "level")) with
  | none => none
  | some heading =>
      let text := strip (reader.text (Dict.get heading "text"))
      if text = "" then none else some text

/-- What the page says it is about. -/
def Page.declared (page : Page) : Except Exn String := do
  let title ← part page.title
  let description ← part page.description
  .ok (" ".intercalate ([title, description] ++
    page.headings.map fun heading => reader.text (Dict.get heading "text")))

/-- The host, or what stands in its place. -/
def siteLabel (report : Dict) : Except Exn String := do
  let url := reader.text (Dict.get report "start_url")
  let parts ← (urlsplit reader.rules url).mapError .valueError
  let host := reader.rules.lower parts.netloc
  .ok (
    if leads "www." host then String.ofList (host.toList.drop 4)
    else if host ≠ "" then host
    else if url ≠ "" then url
    else "unknown")

def dictOf : Json → Option Dict
  | .obj fields => some fields
  | _ => none

def pageOf (row : Dict) : Except Exn (Option Page) :=
  if !(Dict.get row "url").truthy then .ok none
  else do
    let headings ← iterate ((Dict.get row "headings").orElse (.arr []))
    let words ← reader.int (Dict.get row "words")
    .ok (some
      { url := shownText reader (Dict.get row "url")
        title := Dict.get row "title"
        description := Dict.get row "description"
        headings := headings.filterMap dictOf
        wordCount := words
        indexable := (Dict.getD row "indexable" (.bool true)).truthy })

def buildSite (report : Dict) : Except Exn Site := do
  let rows ← iterate ((Dict.get report "pages").orElse (.arr []))
  let pages ← rows.mapM fun row => do pageOf reader (← asDict row)
  .ok { label := ← siteLabel reader report, pages := pages.filterMap id }

end Reading

section Profiles

-- What the result of an operation is rounded to: `double`, or itself in exact arithmetic.
variable (fp : Rat → Rat)

/-- `statistics.median`, of values that are there. -/
def median (values : List Rat) : Rat :=
  let sorted := values.insertionSort (· ≤ ·)
  let middle (i : Nat) : Rat := (sorted[i]?).getD 0
  if values.length % 2 = 1 then middle (values.length / 2)
  else fp (fp (middle (values.length / 2 - 1) + middle (values.length / 2)) / 2)

/-- `int`, of a number. -/
def truncate (x : Rat) : Int := if 0 ≤ x then x.floor else x.ceil

def rate (pages : List Page) (predicate : Page → Except Exn Bool) : Except Exn Rat := do
  if pages = [] then .ok 0
  else
    let marks ← pages.mapM predicate
    .ok (fp (roundTenth (fp ((100 * marks.count true : Nat) / pages.length))))

/-- One site's habits, as rates and medians only. -/
structure Profile where
  label : String
  sampled : Nat
  comparable : Bool
  titled : Rat
  titleInRange : Rat
  described : Rat
  hasH1 : Rat
  medianWords : Int
  thin : Rat
  medianHeadings : Int

def profile (reader : Reader) (site : Site) : Except Exn Profile := do
  let pages := site.indexable
  let titled ← rate fp pages fun page => do .ok ((← stripped page.title) ≠ "")
  let titleInRange ← rate fp pages fun page => do
    let length ← lengthOf page.title
    .ok (titleMin ≤ length && length ≤ titleMax)
  let described ← rate fp pages fun page => do .ok ((← stripped page.description) ≠ "")
  let hasH1 ← rate fp pages fun page => .ok (page.h1 reader).isSome
  let thin ← rate fp pages fun page => .ok (page.wordCount < thinWords)
  .ok
    { label := site.label
      sampled := pages.length
      comparable := minSample ≤ pages.length
      titled := titled
      titleInRange := titleInRange
      described := described
      hasH1 := hasH1
      medianWords := if pages = [] then 0 else truncate (median fp (pages.map fun p => p.wordCount))
      thin := thin
      medianHeadings :=
        if pages = [] then 0 else truncate (median fp (pages.map fun p => p.headings.length)) }

end Profiles

section Verdicts

variable (fp : Rat → Rat)

inductive Standing where
  | level
  | ahead
  | behind
  deriving DecidableEq, Repr

/-- A rate that is compared, and whether more of it is better. -/
structure Metric where
  key : String
  higher : Bool
  labelFa : String
  value : Profile → Rat

def metrics : List Metric :=
  [⟨"titled", true, "صفحه‌های دارای عنوان", Profile.titled⟩,
   ⟨"title_in_range", true, "عنوان با طول مناسب", Profile.titleInRange⟩,
   ⟨"described", true, "صفحه‌های دارای توضیح متا", Profile.described⟩,
   ⟨"has_h1", true, "صفحه‌های دارای H1", Profile.hasH1⟩,
   ⟨"thin", false, "صفحه‌های کم‌محتوا", Profile.thin⟩]

structure Verdict where
  metric : String
  labelFa : String
  yours : Rat
  competitorMedian : Rat
  difference : Rat
  verdict : Standing

def verdictOf (mine : Profile) (comparable : List Profile) (metric : Metric) : Verdict :=
  let theirs := fp (roundTenth (median fp (comparable.map metric.value)))
  let ours := metric.value mine
  let gap := fp (roundTenth (fp (ours - theirs)))
  let better : Bool := if metric.higher then 0 < gap else gap < 0
  { metric := metric.key
    labelFa := metric.labelFa
    yours := ours
    competitorMedian := theirs
    difference := gap
    verdict := if |gap| < rateMargin then .level else if better then .ahead else .behind }

/-- Where you sit against the competitors' median, metric by metric. -/
def rateVerdicts (mine : Profile) (others : List Profile) : List Verdict :=
  let comparable := others.filter Profile.comparable
  if comparable.isEmpty then [] else metrics.map (verdictOf fp mine comparable)

structure LengthVerdict where
  yours : Int
  competitorMedian : Int
  ratio : Rat
  verdict : Standing

/-- Whether they simply write more than you. -/
def lengthVerdict (mine : Profile) (others : List Profile) : Option LengthVerdict :=
  let comparable := others.filter fun p => p.comparable && decide (0 < p.medianWords)
  if comparable.isEmpty || mine.medianWords = 0 then none
  else
    let theirs := truncate (median fp (comparable.map fun p => p.medianWords))
    let ratio := fp ((theirs : Rat) / mine.medianWords)
    some
      { yours := mine.medianWords
        competitorMedian := theirs
        ratio := fp (roundHundredth ratio)
        verdict :=
          if lengthMargin ≤ ratio then .behind
          else if ratio ≤ fp (1 / lengthMargin) then .ahead
          else .level }

end Verdicts

section Themes

variable (reader : Reader) (unicode : Unicode)

/-- The subjects of a page. -/
def subjects (page : Page) : Except Exn (List String) := do
  let declared ← page.declared reader
  .ok ((words unicode declared).filter fun w => minTermLength ≤ w.length).eraseDups

/-- What the site writes about, counted once per page. -/
def terms (site : Site) : Except Exn (List (String × Nat)) := do
  let seen ← site.indexable.mapM (subjects reader unicode)
  .ok (tally seen.flatten)

/-- The competitors that are large enough to be compared. -/
def usable (others : List Site) : List Site :=
  others.filter fun site => minSample ≤ site.indexable.length

structure Theme where
  term : String
  competitors : Nat
  pages : Nat
  deriving DecidableEq, Repr

/-- By how many competitors first, then by how many pages. -/
def Theme.before (a b : Theme) : Prop :=
  b.competitors < a.competitors ∨ a.competitors = b.competitors ∧
    (b.pages < a.pages ∨ a.pages = b.pages ∧ a.term ≤ b.term)

instance : DecidableRel Theme.before := fun a b =>
  inferInstanceAs (Decidable (b.competitors < a.competitors ∨ a.competitors = b.competitors ∧
    (b.pages < a.pages ∨ a.pages = b.pages ∧ a.term ≤ b.term)))

/-- How many competitors use each term. -/
def coverageOf (counts : List (List (String × Nat))) : List (String × Nat) :=
  tally (counts.flatten.map Prod.fst)

/-- On how many pages of theirs a term is. -/
def pagesWith (counts : List (List (String × Nat))) (term : String) : Nat :=
  (counts.map fun count => countOf count term).sum

/-- Subjects the market writes about and you do not. -/
def themes (mine : Site) (others : List Site) (limit : Nat := 25) : Except Exn (List Theme) := do
  let ours ← terms reader unicode mine
  let counts ← (usable others).mapM (terms reader unicode)
  let missing := (coverageOf counts).filter fun entry =>
    minCompetitors ≤ entry.2 && !(ours.map Prod.fst).contains entry.1
  let rows := missing.map fun entry =>
    ({ term := entry.1, competitors := entry.2, pages := pagesWith counts entry.1 } : Theme)
  .ok ((rows.insertionSort Theme.before).take limit)

/-- Subjects you and the market both cover. -/
def sharedThemes (mine : Site) (others : List Site) (limit : Nat := 15) :
    Except Exn (List Theme) := do
  let ours ← terms reader unicode mine
  let counts ← (usable others).mapM (terms reader unicode)
  let both := (coverageOf counts).filter fun entry =>
    minCompetitors ≤ entry.2 && (ours.map Prod.fst).contains entry.1
  let rows := both.map fun entry =>
    ({ term := entry.1, competitors := entry.2, pages := countOf ours entry.1 } : Theme)
  .ok ((rows.insertionSort Theme.before).take limit)

end Themes

section Reports

structure Summary where
  you : Profile
  competitors : List Profile
  ignored : List String
  comparedAgainst : Nat
  verdicts : List Verdict
  behindOn : List String
  aheadOn : List String
  contentLength : Option LengthVerdict
  missingThemes : List Theme
  sharedThemes : List Theme

/-- The comparison in an arithmetic. -/
def summariseWith (fp : Rat → Rat) (reader : Reader) (unicode : Unicode) (mineReport : Dict)
    (competitorReports : List Dict) : Except Exn Summary := do
  if competitorReports = [] then
    .error (.library "NoComparison" "a comparison needs at least one competitor crawl")
  else
    let mine ← buildSite reader mineReport
    let others ← competitorReports.mapM (buildSite reader)
    let myProfile ← profile fp reader mine
    let theirProfiles ← others.mapM (profile fp reader)
    let verdicts := rateVerdicts fp myProfile theirProfiles
    let missing ← themes reader unicode mine others
    let shared ← sharedThemes reader unicode mine others
    .ok
      { you := myProfile
        competitors := theirProfiles
        ignored := (theirProfiles.filter fun p => !p.comparable).map Profile.label
        comparedAgainst := (theirProfiles.filter Profile.comparable).length
        verdicts := verdicts
        behindOn := (verdicts.filter fun v => v.verdict = .behind).map Verdict.metric
        aheadOn := (verdicts.filter fun v => v.verdict = .ahead).map Verdict.metric
        contentLength := lengthVerdict fp myProfile theirProfiles
        missingThemes := missing
        sharedThemes := shared }

/-- The comparison as the code makes it, in doubles. -/
def summarise (reader : Reader) (unicode : Unicode) (mineReport : Dict)
    (competitorReports : List Dict) : Except Exn Summary :=
  summariseWith double reader unicode mineReport competitorReports

def maxCompetitors : Nat := 8

/-- The payload of `competitor.compared`. A comparison that failed has no summary. -/
def comparedPayload (comparisonId crawlId : String) (competitorCrawlIds : List String)
    (summary : Option Summary) (status : String) (error : Option String) : Dict :=
  [("comparison_id", .str comparisonId),
   ("crawl_id", .str crawlId),
   ("competitor_crawl_ids", .arr ((competitorCrawlIds.take maxCompetitors).map .str)),
   ("status", .str status),
   ("error", Json.ofOption .str error),
   ("compared_against", .int ((summary.map Summary.comparedAgainst).getD 0)),
   ("behind_on", .arr (((summary.map Summary.behindOn).getD []).map .str)),
   ("ahead_on", .arr (((summary.map Summary.aheadOn).getD []).map .str)),
   ("missing_theme_count", .int ((summary.map Summary.missingThemes).getD []).length),
   ("top_missing_themes",
    .arr ((((summary.map Summary.missingThemes).getD []).take 10).map fun row => .str row.term)),
   ("result_url", .str ("/v1/comparisons/" ++ comparisonId))]

end Reports

end SeoPlatform.Competitor.Analyze
