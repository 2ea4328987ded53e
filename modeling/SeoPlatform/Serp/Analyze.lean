import SeoPlatform.Foundation.Counter
import SeoPlatform.Foundation.JsonValue
import SeoPlatform.Foundation.Rounding
import SeoPlatform.Foundation.UrlText
import SeoPlatform.Shared.Exceptions

namespace SeoPlatform.Serp.Analyze

open SeoPlatform.Foundation.Counter
open SeoPlatform.Foundation.JsonValue
open SeoPlatform.Foundation.Rounding
open SeoPlatform.Foundation.UrlText
open SeoPlatform.Shared.Exceptions

/-- A search result, as a provider extracts it. -/
structure Result where
  position : Int
  url : String
  domain : String
  deriving DecidableEq, Repr

/-- Rough click-through by organic position, in percent. -/
def ctrByPosition : Int → Option Rat
  | 1 => some 28
  | 2 => some 15
  | 3 => some 11
  | 4 => some 8
  | 5 => some 6
  | 6 => some 5
  | 7 => some 4
  | 8 => some 3
  | 9 => some 3
  | 10 => some 2
  | _ => none

/-- `position` is none where the target is not in the fetched page. -/
structure Ranking where
  keyword : String
  position : Option Int
  url : Option String := none
  competitorsAbove : List String := []
  error : Option String := none
  deriving DecidableEq, Repr

/-- `example.com` matches `blog.example.com`, but not `notexample.com`. -/
def sameSite (candidate target : String) : Bool :=
  candidate = target || ("." ++ target).toList.isSuffixOf candidate.toList

def withoutWww (host : String) : String :=
  if leads "www." host then String.ofList (host.toList.drop 4) else host

/-- The target's best position and who sits above it. -/
def rank (rules : TextRules) (keyword : String) (results : List Result) (targetDomain : String) :
    Ranking :=
  let target := withoutWww (rules.lower targetDomain)
  let ordered := results.insertionSort fun a b => a.position ≤ b.position
  let mine := ordered.find? fun r => target ≠ "" && sameSite r.domain target
  let above := ordered.filter fun r => mine.any fun m => r.position < m.position
  { keyword := keyword
    position := mine.map (·.position)
    url := mine.map (·.url)
    competitorsAbove := (above.map (·.domain)).eraseDups }

/-- 0-100, higher meaning more worth working on. -/
def opportunity : Option Int → Int
  | none => 100
  | some position =>
      if position = 1 then 0
      else
        let gain := 28 - (ctrByPosition position).getD 1
        max 0 (min 100 (roundEven (gain / 28 * 90)))

/-- A keyword and how much there is to gain on it. -/
structure Opportunity where
  keyword : String
  position : Option Int
  opportunity : Int
  deriving DecidableEq, Repr

structure Best where
  keyword : String
  position : Int
  url : Option String
  deriving DecidableEq, Repr

structure Report where
  targetDomain : String
  keywordsChecked : Nat
  keywordsRanked : Nat
  keywordsMissing : Nat
  averagePosition : Option Rat
  best : Option Best
  topCompetitors : List (String × Nat)
  opportunities : List Opportunity
  failures : List (String × String)
  deriving DecidableEq, Repr

/-- The rankings that have a position, with it. -/
def rankedOf (rankings : List Ranking) : List (Ranking × Int) :=
  rankings.filterMap fun r => r.position.map fun position => (r, position)

def averageOf (positions : List Int) : Option Rat :=
  if positions = [] then none
  else some (roundTenth ((positions.sum : Rat) / positions.length))

def bestOf (ranked : List (Ranking × Int)) : Option Best :=
  (ranked.insertionSort fun a b => a.2 ≤ b.2).head?.map fun (r, position) =>
    { keyword := r.keyword, position := position, url := r.url }

def moreToGain (a b : Opportunity) : Prop :=
  b.opportunity < a.opportunity ∨ (a.opportunity = b.opportunity ∧ a.keyword ≤ b.keyword)

instance : DecidableRel moreToGain := fun _ _ => inferInstanceAs (Decidable (_ ∨ _))

/-- Where the site stands, and what to do next. -/
def summarise (rules : TextRules) (rankings : List Ranking) (targetDomain : String) : Report :=
  let ranked := rankedOf rankings
  let isOwn (domain : String) : Bool :=
    targetDomain ≠ "" && sameSite domain (rules.lower targetDomain)
  let competitors := rankings.flatMap fun r => r.competitorsAbove.filter fun d => !isOwn d
  let answered := rankings.filter (·.error.isNone)
  { targetDomain := targetDomain
    keywordsChecked := rankings.length
    keywordsRanked := ranked.length
    keywordsMissing := (answered.filter (·.position.isNone)).length
    averagePosition := averageOf (ranked.map Prod.snd)
    best := bestOf ranked
    topCompetitors := mostCommon 10 (tally competitors)
    opportunities :=
      ((answered.map fun r =>
        { keyword := r.keyword, position := r.position
          opportunity := opportunity r.position : Opportunity }).insertionSort moreToGain).take 25
    failures := rankings.filterMap fun r => r.error.map fun error => (r.keyword, error) }

/-- What a provider answers to a keyword. -/
abbrev Provider := String → Except Exn (List Result)

/-- One keyword at a time. A keyword that fails is recorded and the rest continue. -/
def checkKeywords (rules : TextRules) (fetch : Provider) (keywords : List String)
    (domain : String) : List Ranking :=
  keywords.map fun keyword =>
    match fetch keyword with
    | .ok results => rank rules keyword results domain
    | .error e => { keyword := keyword, position := none, error := some e.described }

def Opportunity.toDict (o : Opportunity) : Dict :=
  [("keyword", .str o.keyword),
   ("position", .ofOption .int o.position),
   ("opportunity", .int o.opportunity)]

def Best.toDict (best : Best) : Dict :=
  [("keyword", .str best.keyword),
   ("position", .int best.position),
   ("url", .ofOption .str best.url)]

def outranking (entry : String × Nat) : Dict :=
  [("domain", .str entry.1), ("outranks_on", .int entry.2)]

def Report.toDict (report : Report) : Dict :=
  [("target_domain", .str report.targetDomain),
   ("keywords_checked", .int report.keywordsChecked),
   ("keywords_ranked", .int report.keywordsRanked),
   ("keywords_missing", .int report.keywordsMissing),
   ("average_position", .ofOption .float report.averagePosition),
   ("best", .ofOption (fun best => .obj best.toDict) report.best),
   ("top_competitors", .arr (report.topCompetitors.map fun entry => .obj (outranking entry))),
   ("opportunities", .arr (report.opportunities.map fun o => .obj o.toDict)),
   ("failures", .arr (report.failures.map fun (keyword, error) =>
      .obj [("keyword", .str keyword), ("error", .str error)]))]

end SeoPlatform.Serp.Analyze
