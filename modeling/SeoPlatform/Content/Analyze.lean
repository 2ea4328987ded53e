import SeoPlatform.Foundation.Doubles
import SeoPlatform.InternalLinks.Building
import SeoPlatform.Shared.Text

namespace SeoPlatform.Content.Analyze

open SeoPlatform.Foundation.Doubles
open SeoPlatform.Foundation.JsonValue
open SeoPlatform.Foundation.Mapping
open SeoPlatform.Foundation.Rounding
open SeoPlatform.InternalLinks.Building (Reader)
open SeoPlatform.Orchestrator.Engine (asDict)
open SeoPlatform.Orchestrator.Planner (iterate)
open SeoPlatform.Shared.Exceptions
open SeoPlatform.Shared.Text

/-- How much of a keyword's words must appear in what a page declares before the page
counts as targeting it. -/
def matchRatio : Rat := double (67 / 100)

structure Page where
  url : String
  title : Json := .null
  description : Json := .null
  headings : List String := []
  wordCount : Int := 0
  indexable : Bool := true

/-- `value or ""`, as a part of a text that is joined. -/
def part (value : Json) : Except Exn String :=
  match value.orElse (.str "") with
  | .str s => .ok s
  | _ => .error (.typeError "sequence item: expected str instance")

/-- Everything the page says about itself, the title twice. -/
def Page.declared (page : Page) : Except Exn String := do
  let title ← part page.title
  let description ← part page.description
  .ok (" ".intercalate ([title, title, description] ++ page.headings))

structure Keyword where
  keyword : String
  demand : Int
  intent : String
  deriving DecidableEq, Repr

section Reading

variable (reader : Reader)

/-- `str(value or fallback)`. -/
def textOr (value : Json) (fallback : String) : String :=
  match value.orElse (.str fallback) with
  | .str s => s
  | v => reader.shown v

def headingOf : Json → Option String
  | .obj heading => some (textOr reader (Dict.get heading "text") "")
  | _ => none

def pageOf (row : Dict) : Except Exn (Option Page) :=
  if !(Dict.get row "url").truthy then .ok none
  else do
    let headings ← iterate ((Dict.get row "headings").orElse (.arr []))
    let words ← reader.int (Dict.get row "words")
    .ok (some
      { url := textOr reader (Dict.get row "url") ""
        title := Dict.get row "title"
        description := Dict.get row "description"
        headings := headings.filterMap (headingOf reader)
        wordCount := words
        indexable := (Dict.get row "indexable").truthy })

def buildPages (report : Dict) : Except Exn (List Page) := do
  let rows ← iterate ((Dict.get report "pages").orElse (.arr []))
  let pages ← rows.mapM fun row => do pageOf reader (← asDict row)
  .ok (pages.filterMap id)

def keywordOf : Json → Except Exn (Option Keyword)
  | .str s => .ok (some { keyword := s, demand := 0, intent := "unknown" })
  | .obj row =>
      if (Dict.get row "keyword").truthy then do
        let demand ← reader.int (Dict.get row "demand")
        .ok (some
          { keyword := textOr reader (Dict.get row "keyword") ""
            demand := demand
            intent := textOr reader (Dict.get row "intent") "unknown" })
      else .ok none
  | _ => .ok none

/-- Accepts either the research service's report or the preview in its event. -/
def buildKeywords (research : Dict) : Except Exn (List Keyword) := do
  let rows ← iterate (((Dict.get research "keywords").orElse
    (Dict.get research "top_keywords")).orElse (.arr []))
  let keywords ← rows.mapM (keywordOf reader)
  .ok (keywords.filterMap id)

end Reading

section Matching

variable (unicode : Unicode)

/-- How many of the terms occur among the words. -/
def hits (terms declared : List String) : Nat := terms.countP declared.contains

/-- Whether enough of the terms occur among the words. -/
def enough (terms declared : List String) : Bool :=
  matchRatio ≤ double ((hits terms declared : Rat) / terms.length)

/-- Whether the page declares itself to be about a keyword. -/
def targets (page : Page) (keyword : String) : Except Exn Bool :=
  let terms := words unicode keyword
  if terms = [] then .ok false
  else do
    let declared ← page.declared
    .ok (enough terms (words unicode declared))

/-- Those of the pages that target a keyword. -/
def targeting (pages : List Page) (keyword : String) : Except Exn (List Page) := do
  let marked ← pages.mapM fun page => do .ok (page, ← targets unicode page keyword)
  .ok ((marked.filter Prod.snd).map Prod.fst)

/-- The pages that target each keyword. -/
def matchKeywords (pages : List Page) (keywords : List Keyword) :
    Except Exn (Dictionary String (List Page)) := do
  let indexable := pages.filter Page.indexable
  let found ← keywords.mapM fun row => do
    .ok (row.keyword, ← targeting unicode indexable row.keyword)
  .ok (.ofPairs found)

end Matching

section Findings

structure Gap where
  keyword : String
  demand : Int
  intent : String
  deriving DecidableEq, Repr

/-- Keywords with no page, the ones with the most demand first. -/
def gaps (matched : Dictionary String (List Page)) (keywords : List Keyword)
    (limit : Nat := 25) : List Gap :=
  let byKeyword : Dictionary String Keyword :=
    .ofPairs (keywords.map fun row => (row.keyword, row))
  let missing := (matched.entries.filter fun entry => entry.2.isEmpty).map fun entry =>
    let row := byKeyword.get? entry.1
    ({ keyword := entry.1
       demand := (row.map Keyword.demand).getD 0
       intent := (row.map Keyword.intent).getD "unknown" } : Gap)
  (missing.insertionSort fun a b =>
    b.demand < a.demand ∨ a.demand = b.demand ∧ a.keyword ≤ b.keyword).take limit

/-- A page, as a finding lists it. -/
structure Listed where
  url : String
  title : Json
  words : Int

def Page.listed (page : Page) : Listed where
  url := page.url
  title := page.title
  words := page.wordCount

structure Clash where
  keyword : String
  pages : List Listed
  count : Nat

/-- Keywords that several pages target at once. -/
def cannibalisation (matched : Dictionary String (List Page)) (limit : Nat := 25) : List Clash :=
  let clashes := (matched.entries.filter fun entry => 1 < entry.2.length).map fun entry =>
    ({ keyword := entry.1
       pages := ((entry.2.insertionSort fun p q => q.wordCount ≤ p.wordCount).take 5).map
         Page.listed
       count := entry.2.length } : Clash)
  (clashes.insertionSort fun a b =>
    b.count < a.count ∨ a.count = b.count ∧ a.keyword ≤ b.keyword).take limit

/-- Indexable pages that target none of the keywords. -/
def untargeted (pages : List Page) (matched : Dictionary String (List Page))
    (limit : Nat := 25) : List Listed :=
  let claimed := (matched.values.flatten).map Page.url
  ((pages.filter fun page => page.indexable && !claimed.contains page.url).map
    Page.listed).take limit

/-- The whole analysis of a crawl and a keyword study. -/
structure Summary where
  pages : Nat
  indexablePages : Nat
  keywords : Nat
  covered : Nat
  coverage : Rat
  gaps : List Gap
  cannibalisation : List Clash
  untargetedPages : List Listed

/-- A share in percent, to one digit. -/
def coverageOf (covered keywords : Nat) : Rat :=
  if keywords = 0 then 0
  else double (roundTenth (double (double ((covered : Rat) / keywords) * 100)))

def summarise (reader : Reader) (unicode : Unicode) (report research : Dict) :
    Except Exn Summary := do
  let pages ← buildPages reader report
  let keywords ← buildKeywords reader research
  let matched ← matchKeywords unicode pages keywords
  let covered := (matched.entries.filter fun entry => !entry.2.isEmpty).length
  .ok
    { pages := pages.length
      indexablePages := (pages.filter Page.indexable).length
      keywords := keywords.length
      covered := covered
      coverage := coverageOf covered keywords.length
      gaps := gaps matched keywords
      cannibalisation := cannibalisation matched
      untargetedPages := untargeted pages matched }

/-- The payload of `content.analyzed`. An analysis that failed has no summary. -/
def analyzedPayload (analysisId crawlId researchId : String) (summary : Option Summary)
    (status : String) (error : Option String) : Dict :=
  [("analysis_id", .str analysisId),
   ("crawl_id", .str crawlId),
   ("research_id", .str researchId),
   ("status", .str status),
   ("error", Json.ofOption .str error),
   ("pages", .int ((summary.map Summary.pages).getD 0)),
   ("keywords", .int ((summary.map Summary.keywords).getD 0)),
   ("covered", .int ((summary.map Summary.covered).getD 0)),
   ("coverage", ((summary.map Summary.coverage).map .float).getD (.int 0)),
   ("gap_count", .int ((summary.map Summary.gaps).getD []).length),
   ("cannibalisation_count", .int ((summary.map Summary.cannibalisation).getD []).length),
   ("top_gaps",
    .arr ((((summary.map Summary.gaps).getD []).take 10).map fun row =>
      .obj [("keyword", .str row.keyword), ("demand", .int row.demand)])),
   ("result_url", .str ("/v1/content-analyses/" ++ analysisId))]

end Findings

end SeoPlatform.Content.Analyze
