import SeoPlatform.Foundation.JsonValue
import SeoPlatform.Foundation.UrlText
import SeoPlatform.Shared.Exceptions

namespace SeoPlatform.Orchestrator.Planner

open SeoPlatform.Foundation.JsonValue
open SeoPlatform.Foundation.UrlText
open SeoPlatform.Shared.Exceptions

inductive StepKind where
  | crawl
  | keywordResearch
  | serpCheck
  | linkAnalysis
  | contentAnalysis
  | optimizerPlan
  | competitorCrawl
  | competitorCheck
  deriving DecidableEq, Repr

def StepKind.name : StepKind → String
  | .crawl => "crawl"
  | .keywordResearch => "keyword_research"
  | .serpCheck => "serp_check"
  | .linkAnalysis => "link_analysis"
  | .contentAnalysis => "content_analysis"
  | .optimizerPlan => "optimizer_plan"
  | .competitorCrawl => "competitor_crawl"
  | .competitorCheck => "competitor_check"

/-- The inputs document of a workflow. An absent field is `none`. -/
structure Inputs where
  startUrl : Option String
  seed : Option String
  maxPages : Option Int
  maxDepth : Option Int
  trackKeywords : Option Int
  optimizePages : Option Int
  competitors : Option (List String)
  competitorPages : Option Int
  lang : Option String
  country : Option String
  deriving DecidableEq, Repr

def optionalField (name : String) (v : Option Json) : Dict :=
  match v with
  | none => []
  | some v => [(name, v)]

/-- The document as it is stored and sent. -/
def Inputs.toDict (inputs : Inputs) : Dict :=
  optionalField "start_url" (inputs.startUrl.map .str) ++
  optionalField "seed" (inputs.seed.map .str) ++
  optionalField "max_pages" (inputs.maxPages.map .int) ++
  optionalField "max_depth" (inputs.maxDepth.map .int) ++
  optionalField "track_keywords" (inputs.trackKeywords.map .int) ++
  optionalField "optimize_pages" (inputs.optimizePages.map .int) ++
  optionalField "competitors" (inputs.competitors.map fun urls => .arr (urls.map .str)) ++
  optionalField "competitor_pages" (inputs.competitorPages.map .int) ++
  optionalField "lang" (inputs.lang.map .str) ++
  optionalField "country" (inputs.country.map .str)

def intField (d : Dict) (name : String) : Option Int :=
  match Dict.get d name with
  | .int n => some n
  | .float q => if q.den = 1 then some q.num else none
  | _ => none

def textField (d : Dict) (name : String) : Option String := (Dict.get d name).str?

/-- The inputs a document that keeps the contract holds. -/
def Inputs.ofDict (d : Dict) : Inputs where
  startUrl := textField d "start_url"
  seed := textField d "seed"
  maxPages := intField d "max_pages"
  maxDepth := intField d "max_depth"
  trackKeywords := intField d "track_keywords"
  optimizePages := intField d "optimize_pages"
  competitors :=
    match Dict.get d "competitors" with
    | .arr items => some (items.filterMap Json.str?)
    | _ => none
  competitorPages := intField d "competitor_pages"
  lang := textField d "lang"
  country := textField d "country"

/-- One planned step, before it is stored. -/
structure PlannedStep where
  position : Nat
  kind : StepKind
  jobId : String
  params : Dict

def defaultTracked : Int := 10
def defaultOptimized : Int := 5
def maxOptimized : Int := 25
def maxTracked : Int := 50
def maxCompetitors : Nat := 4
def defaultCompetitorPages : Int := 20
def maxCompetitorPages : Int := 200

/-- `value or fallback`, over a number that may be absent. -/
def orDefault (value : Option Int) (fallback : Int) : Int :=
  match value with
  | some n => if n = 0 then fallback else n
  | none => fallback

def langOf (inputs : Inputs) : String := inputs.lang.getD "fa"

def countryOf (inputs : Inputs) : String := inputs.country.getD "IR"

/-- A bare host parses like one behind slashes. -/
def withSlashes (url : String) : String :=
  if occurs ['/', '/'] url.toList then url else "//" ++ url

def parsedNetloc (rules : TextRules) (url : String) : Except Exn (List Char) :=
  (netlocOf rules (withSlashes url)).mapError .valueError

def dropWww (host : String) : String :=
  match host.toList with
  | 'w' :: 'w' :: 'w' :: '.' :: rest => String.ofList rest
  | _ => host

def domainOf (rules : TextRules) (url : String) : Except Exn String := do
  let netloc ← parsedNetloc rules url
  .ok (rules.lower (dropWww (hostname rules netloc)))

def originOf (rules : TextRules) (url : String) : Except Exn String := do
  let netloc ← parsedNetloc rules url
  let host ← domainOf rules url
  if host = "" then .ok ""
  else
    match ← (port netloc).mapError .valueError with
    | some (n + 1) => .ok (host ++ ":" ++ toString (n + 1))
    | _ => .ok host

/-- The loop of `competitors`: the urls taken so far, and their origins. -/
def competitorsFrom (rules : TextRules) :
    List String → List String → List String → Except Exn (List String)
  | [], urls, _ => .ok urls
  | raw :: rest, urls, seen =>
      let stripped := strip raw
      if stripped = "" then competitorsFrom rules rest urls seen
      else do
        let url := if occurs ['/', '/'] stripped.toList then stripped else "https://" ++ stripped
        let key ← originOf rules url
        if key = "" || key ∈ seen then competitorsFrom rules rest urls seen
        else if maxCompetitors ≤ (urls ++ [url]).length then .ok (urls ++ [url])
        else competitorsFrom rules rest (urls ++ [url]) (key :: seen)

def competitors (rules : TextRules) (inputs : Inputs) : Except Exn (List String) :=
  competitorsFrom rules (inputs.competitors.getD []) [] []

def competitorPages (inputs : Inputs) : Int :=
  match inputs.competitorPages with
  | none => defaultCompetitorPages
  | some asked => max 1 (min asked maxCompetitorPages)

def crawlParams (startUrl : String) (inputs : Inputs) : Dict :=
  [("start_url", .str startUrl)] ++
  optionalField "max_pages" (inputs.maxPages.map .int) ++
  optionalField "max_depth" (inputs.maxDepth.map .int)

def researchParams (inputs : Inputs) : Dict :=
  [("lang", .str (langOf inputs)), ("country", .str (countryOf inputs))] ++
  if strip (inputs.seed.getD "") = "" then []
  else [("seed", .str (strip (inputs.seed.getD "")))]

/-- The six steps every audit has. -/
def ownSteps (startUrl : String) (inputs : Inputs) (jobIds : Nat → String) : List PlannedStep :=
  [⟨1, .crawl, jobIds 1, crawlParams startUrl inputs⟩,
   ⟨2, .keywordResearch, jobIds 2, researchParams inputs⟩,
   ⟨3, .serpCheck, jobIds 3,
     [("lang", .str (langOf inputs)), ("country", .str (countryOf inputs)),
      ("top_keywords", .int (orDefault inputs.trackKeywords defaultTracked))]⟩,
   ⟨4, .linkAnalysis, jobIds 4, []⟩,
   ⟨5, .contentAnalysis, jobIds 5, []⟩,
   ⟨6, .optimizerPlan, jobIds 6,
     [("pages", .int (orDefault inputs.optimizePages defaultOptimized))]⟩]

/-- One crawl for each competitor, numbered on from `position`. -/
def rivalSteps (pages : Int) (jobIds : Nat → String) : Nat → List String → List PlannedStep
  | _, [] => []
  | position, url :: rest =>
      ⟨position, .competitorCrawl, jobIds position,
        [("start_url", .str url), ("max_pages", .int pages)]⟩ ::
      rivalSteps pages jobIds (position + 1) rest

/-- The comparison that follows the competitor crawls, when there are any. -/
def checkStep (jobIds : Nat → String) (rivals : List String) : List PlannedStep :=
  if rivals = [] then []
  else [⟨7 + rivals.length, .competitorCheck, jobIds (7 + rivals.length), []⟩]

/-- `jobIds` are the uuids drawn for the steps, by position. -/
def siteAudit (rules : TextRules) (inputs : Inputs) (jobIds : Nat → String) :
    Except Exn (List PlannedStep) :=
  let startUrl := strip (inputs.startUrl.getD "")
  if startUrl = "" then .error (.valueError "site_audit needs a start_url")
  else do
    let rivals ← competitors rules inputs
    .ok (ownSteps startUrl inputs jobIds ++
      rivalSteps (competitorPages inputs) jobIds 7 rivals ++ checkStep jobIds rivals)

def plan (rules : TextRules) (goal : String) (inputs : Inputs) (jobIds : Nat → String) :
    Except Exn (List PlannedStep) :=
  if goal = "site_audit" then siteAudit rules inputs jobIds
  else .error (.unknownGoal ("no plan for goal '" ++ goal ++ "'"))

/-- The characters of a text, as iterating over it yields them. -/
def letters (s : String) : List Json := s.toList.map fun c => .str (String.ofList [c])

/-- What a `for` loop over a value goes through. -/
def iterate : Json → Except Exn (List Json)
  | .arr items => .ok items
  | .str s => .ok (letters s)
  | .obj fields => .ok ((Dict.keys fields).map .str)
  | _ => .error (.typeError "object is not iterable")

/-- The term of one researched keyword. `shown` is `str`, for values that are
no text. -/
def termOf (shown : Json → String) : Json → Except Exn String
  | .obj fields =>
      match (Dict.get fields "keyword").orElse (.str "") with
      | .str s => .ok (strip s)
      | _ => .error (.attributeError "object has no attribute 'strip'")
  | .str s => .ok (strip s)
  | v => .ok (strip (shown v))

/-- The loop of `keywords_to_track`: the keywords taken so far, and their
case-folded forms. -/
def keywordsFrom (rules : TextRules) (shown : Json → String) (limit : Nat) :
    List Json → List String → List String → Except Exn (List String)
  | [], keywords, _ => .ok keywords
  | item :: rest, keywords, seen => do
      let term ← termOf shown item
      if term = "" || rules.casefold term ∈ seen then
        keywordsFrom rules shown limit rest keywords seen
      else if limit ≤ (keywords ++ [term]).length then .ok (keywords ++ [term])
      else
        keywordsFrom rules shown limit rest (keywords ++ [term]) (rules.casefold term :: seen)

def keywordsToTrack (rules : TextRules) (shown : Json → String)
    (researchResult : Option Dict) (limit : Int) : Except Exn (List String) := do
  let items ← iterate (Dict.getD (researchResult.getD []) "top_keywords" (.arr []))
  keywordsFrom rules shown (max 1 (min limit maxTracked)).toNat items [] []

/-- Each run of hyphens and underscores becomes one space. -/
def spaceSeparators : Bool → List Char → List Char
  | _, [] => []
  | inRun, c :: cs =>
      if c = '-' || c = '_' then
        if inRun then spaceSeparators true cs else ' ' :: spaceSeparators true cs
      else c :: spaceSeparators false cs

def seedFromDomain (rules : TextRules) (url : String) : Except Exn String := do
  let domain ← domainOf rules url
  let host := if domain = "" then url else domain
  let label := host.toList.takeWhile (· != '.')
  .ok (strip (String.ofList (spaceSeparators false label)))

/-- `otherSeed` is what the seed becomes for a crawl result whose `start_url`
is neither empty nor a text. -/
def resolveSeed (rules : TextRules) (otherSeed : Json → Except Exn String)
    (seed startUrl : Option String) (crawlResult : Option Dict) : Except Exn String :=
  let explicit := strip (seed.getD "")
  if explicit ≠ "" then .ok explicit
  else
    match (Dict.get (crawlResult.getD []) "start_url").orElse (.str (startUrl.getD "")) with
    | .str url => seedFromDomain rules url
    | v => otherSeed v

end SeoPlatform.Orchestrator.Planner
