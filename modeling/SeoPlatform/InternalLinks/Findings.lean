import SeoPlatform.Foundation.Counter
import SeoPlatform.InternalLinks.Authority

namespace SeoPlatform.InternalLinks.Findings

open SeoPlatform.Foundation.Counter
open SeoPlatform.Foundation.JsonValue
open SeoPlatform.Foundation.Mapping
open SeoPlatform.Foundation.Rounding
open SeoPlatform.Foundation.UrlText
open SeoPlatform.InternalLinks.Authority
open SeoPlatform.InternalLinks.Building
open SeoPlatform.Shared.Exceptions

/-- Distinct linking pages, not link tags. -/
def inlinkCounts (graph : Graph) : List (String × Nat) :=
  tally ((graph.edges.map Edge.ends).eraseDups.map Prod.snd)

/-- The address of the start page, where there is one. -/
def startOf (rules : TextRules) (startUrl : Json) : Except Exn (Option String) :=
  if startUrl.truthy then
    match startUrl with
    | .str url => (normalise rules url).map some
    | _ => .error (.attributeError "object has no attribute 'strip'")
  else .ok none

def orphans (rules : TextRules) (graph : Graph) (startUrl : Json) : Except Exn (List String) := do
  let start ← startOf rules startUrl
  let counts := inlinkCounts graph
  let found := graph.pages.entries.filter fun entry =>
    entry.2.indexable && countOf counts entry.1 == 0 && start != some entry.1
  .ok ((found.map Prod.fst).insertionSort (· ≤ ·))

def deadEnds (graph : Graph) : List String :=
  let withOutgoing := graph.edges.map Edge.source
  let found := graph.pages.entries.filter fun entry =>
    entry.2.indexable && !withOutgoing.contains entry.1
  (found.map Prod.fst).insertionSort (· ≤ ·)

/-- A page that links lead to, and how many. -/
structure Target where
  url : String
  status : Int
  linkedFrom : Nat
  deriving DecidableEq, Repr

/-- The pages of a kind that links lead to, the ones with the most links first. -/
def targetsWhere (graph : Graph) (kind : Page → Bool) (limit : Nat) : List Target :=
  let counts := tally (graph.edges.filterMap fun edge =>
    (graph.pages.get? edge.target).bind fun page => if kind page then some edge.target else none)
  (mostCommon limit counts).filterMap fun found =>
    (graph.pages.get? found.1).map fun page =>
      { url := found.1, status := page.status, linkedFrom := found.2 }

/-- Links to pages that answered with an error. -/
def brokenTargets (graph : Graph) : List Target :=
  targetsWhere graph (fun page => !page.reachable) 50

def linksToNoindex (graph : Graph) : List Target :=
  targetsWhere graph (fun page => page.reachable && !page.indexable) 25

/-- The middle of a list in order, or a value for none. -/
def medianOf {α : Type} [LE α] [DecidableLE α] (values : List α) (fallback : α) : α :=
  let values := if values = [] then [fallback] else values
  ((values.insertionSort (· ≤ ·))[values.length / 2]?).getD fallback

structure Candidate where
  url : String
  title : Json
  words : Int
  inlinks : Nat
  depth : Int
  authority : Rat

def overlooked (rules : TextRules) (graph : Graph) (ranking : Ranks) (startUrl : Json) :
    Except Exn (List Candidate) := do
  let start ← startOf rules startUrl
  let counts := inlinkCounts graph
  let pages := graph.pages.entries.map Prod.snd
  let medianWords := medianOf
    ((pages.filter fun page => page.indexable && page.words != 0).map Page.words) 0
  let medianScore := medianOf ranking.values 0
  let found := graph.pages.entries.filter fun entry =>
    entry.2.indexable && entry.2.reachable && start != some entry.1 &&
      decide (medianWords ≤ entry.2.words) && decide (countOf counts entry.1 ≤ 2) &&
      decide ((ranking.get? entry.1).getD 0 ≤ medianScore)
  let candidates : List Candidate := found.map fun entry =>
    { url := entry.1
      title := entry.2.title
      words := entry.2.words
      inlinks := countOf counts entry.1
      depth := entry.2.depth
      authority := (ranking.get? entry.1).getD 0 }
  .ok ((candidates.insertionSort fun a b =>
    a.authority < b.authority ∨ a.authority = b.authority ∧ b.words ≤ a.words).take 15)

/-- What the event tells of the analysis of a site's links. -/
structure Summary where
  pages : Nat
  internalLinks : Nat
  averageInlinks : Json
  maxDepth : Int
  orphans : List String
  deadEnds : List String
  brokenTargets : List Target
  linksToNoindex : List Target
  overlooked : List Candidate

def summarise (reader : Reader) (report : Dict) : Except Exn Summary := do
  let graph ← build reader report
  let ranking ← authority graph
  let counts := inlinkCounts graph
  let startUrl := Dict.get report "start_url"
  let indexable := graph.pages.entries.filter fun entry => entry.2.indexable
  let inlinks : List Rat := indexable.map fun entry => countOf counts entry.1
  let orphanUrls ← orphans reader.rules graph startUrl
  let candidates ← overlooked reader.rules graph ranking startUrl
  .ok
    { pages := graph.pages.entries.length
      internalLinks := graph.edges.length
      averageInlinks :=
        if inlinks = [] then .int 0 else .float (roundTenth (inlinks.sum / inlinks.length))
      maxDepth := ((indexable.map fun entry => entry.2.depth).max?).getD 0
      orphans := orphanUrls
      deadEnds := deadEnds graph
      brokenTargets := brokenTargets graph
      linksToNoindex := linksToNoindex graph
      overlooked := candidates }

/-- The payload of `links.analyzed`. An analysis that failed has no summary. -/
def analyzedPayload (analysisId crawlId : String) (summary : Option Summary) (status : String)
    (error : Option String) : Dict :=
  [("analysis_id", .str analysisId),
   ("crawl_id", .str crawlId),
   ("status", .str status),
   ("error", Json.ofOption .str error),
   ("pages", .int ((summary.map Summary.pages).getD 0)),
   ("internal_links", .int ((summary.map Summary.internalLinks).getD 0)),
   ("orphan_count", .int ((summary.map Summary.orphans).getD []).length),
   ("dead_end_count", .int ((summary.map Summary.deadEnds).getD []).length),
   ("broken_target_count", .int ((summary.map Summary.brokenTargets).getD []).length),
   ("max_depth", .int ((summary.map Summary.maxDepth).getD 0)),
   ("average_inlinks", (summary.map Summary.averageInlinks).getD (.int 0)),
   ("top_opportunities",
    .arr ((((summary.map Summary.overlooked).getD []).take 10).map fun row =>
      .obj [("url", .str row.url), ("inlinks", .int row.inlinks),
        ("authority", .float row.authority)])),
   ("result_url", .str ("/v1/link-analyses/" ++ analysisId))]

end SeoPlatform.InternalLinks.Findings
