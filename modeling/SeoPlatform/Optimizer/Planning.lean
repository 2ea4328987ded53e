import SeoPlatform.Foundation.Counter
import SeoPlatform.Foundation.ExceptFlow
import SeoPlatform.Foundation.PercentDecoding
import SeoPlatform.Optimizer.Rewriting

namespace SeoPlatform.Optimizer.Planning

open SeoPlatform.Content.Analyze (Keyword buildKeywords)
open SeoPlatform.Foundation.Counter
open SeoPlatform.Foundation.Doubles
open SeoPlatform.Foundation.ExceptFlow
open SeoPlatform.Foundation.JsonValue
open SeoPlatform.Foundation.PercentDecoding
open SeoPlatform.Foundation.Tokens
open SeoPlatform.Foundation.UrlParse
open SeoPlatform.Foundation.UrlText
open SeoPlatform.InternalLinks.Building (Reader stripped)
open SeoPlatform.Optimizer.Covering
open SeoPlatform.Optimizer.Rewriting
open SeoPlatform.Optimizer.Titles (titleMax trimTitle)
open SeoPlatform.Orchestrator.Engine (asDict)
open SeoPlatform.Orchestrator.Planner (iterate)
open SeoPlatform.Shared.Exceptions
open SeoPlatform.Shared.Text

structure Page where
  url : String
  title : String := ""
  description : String := ""
  h1 : String := ""
  headings : List String := []
  words : Int := 0
  indexable : Bool := true

section Reading

variable (reader : Reader)

/-- `level == 1`. -/
def isFirstLevel : Json → Bool
  | .int n => n == 1
  | .float q => q == 1
  | .bool b => b
  | _ => false

def dictOf : Json → Option Dict
  | .obj fields => some fields
  | _ => none

def headingText (heading : Dict) : String := strip (reader.text (Dict.get heading "text"))

/-- The first heading of the first level. -/
def h1Of (headings : List Dict) : String :=
  match headings.find? fun heading => isFirstLevel (Dict.get heading "level") with
  | some heading => headingText reader heading
  | none => ""

def pageOf (row : Dict) : Except Exn (Option Page) :=
  if !(Dict.get row "url").truthy then .ok none
  else do
    let rows ← iterate ((Dict.get row "headings").orElse (.arr []))
    let headings := rows.filterMap dictOf
    let title ← stripped (Dict.get row "title")
    let description ← stripped (Dict.get row "description")
    let words ← reader.int (Dict.get row "words")
    .ok (some
      { url := reader.text (Dict.get row "url")
        title := title
        description := description
        h1 := h1Of reader headings
        headings := (headings.map (headingText reader)).filter (· ≠ "")
        words := words
        indexable := (Dict.get row "indexable").truthy })

def buildPages (report : Dict) : Except Exn (List Page) := do
  let rows ← iterate ((Dict.get report "pages").orElse (.arr []))
  let pages ← rows.mapM fun row => do pageOf reader (← asDict row)
  .ok (pages.filterMap id)

end Reading

section Matching

variable (unicode : Unicode)

/-- A keyword that a page covers half of or more. -/
structure Match where
  overlap : Rat
  terms : Nat
  row : Keyword

/-- How much of the keyword the page covers, then how specific the keyword is, then
demand. -/
def Match.less (a b : Match) : Prop :=
  a.overlap < b.overlap ∨ a.overlap = b.overlap ∧
    (a.terms < b.terms ∨ a.terms = b.terms ∧ a.row.demand < b.row.demand)

instance : DecidableRel Match.less := fun a b =>
  inferInstanceAs (Decidable (a.overlap < b.overlap ∨ a.overlap = b.overlap ∧
    (a.terms < b.terms ∨ a.terms = b.terms ∧ a.row.demand < b.row.demand)))

def matchOf (declared : List String) (row : Keyword) : Option Match :=
  let terms := words unicode row.keyword
  if terms = [] then none
  else
    let overlap := double ((terms.countP declared.contains : Rat) / terms.length)
    if 1 / 2 ≤ overlap then some { overlap := overlap, terms := terms.length, row := row }
    else none

/-- The first of the greatest. -/
def greatest : List Match → Option Match
  | [] => none
  | first :: rest => some (rest.foldl (fun best m => if best.less m then m else best) first)

/-- The keyword this page is closest to already targeting. -/
def keywordFor (page : Page) (keywords : List Keyword) : Option Keyword :=
  let declared := words unicode
    (" ".intercalate ([page.title, page.h1, page.description] ++ page.headings))
  if declared = [] then none
  else (greatest (keywords.filterMap (matchOf unicode declared))).map Match.row

end Matching

section Fixes

/-- `text or None`. -/
def textOrNone (text : String) : Option String := if text = "" then none else some text

/-- What separates the words of a url's path. -/
def isSlugMark (c : Char) : Bool := c == '/' || c == '-' || c == '_' || c == '.'

-- `isDigit` is what `str.isdigit` takes for a digit
variable (rules : TextRules) (isDigit : Char → Bool)

/-- The words of the url itself. -/
def slugWords (page : Page) : Except Exn (List String) := do
  let parts ← (urlsplit rules page.url).mapError .valueError
  let runs := tokens isSlugMark (unquote parts.path).toList
  .ok ((runs.filter fun run => !run.all isDigit).map String.ofList)

/-- What a missing title can be made of. -/
def titleSource (page : Page) : Except Exn String :=
  if page.h1 ≠ "" then .ok page.h1
  else do
    let slug ← slugWords rules isDigit page
    .ok (" ".intercalate (slug.drop (slug.length - 3)))

variable (unicode : Unicode)

/-- The keyword, where there is one and the text does not cover it. -/
def uncovered (text : String) (keyword : Option String) : Option String :=
  keyword.filter fun k => k ≠ "" && !covers unicode text k

/-- What is wrong with the title, and a candidate when one can be derived. -/
def titleFix (page : Page) (keyword : Option String) : Except Exn (Option Fix) :=
  let title := page.title
  if title = "" then do
    let source ← titleSource rules isDigit page
    .ok (some (fixOf .title "missing" title (textOrNone (trimTitle source)) keyword
      "صفحه اصلاً عنوان ندارد."))
  else if titleMax < title.length then
    .ok (some (fixOf .title "too_long" title (some (trimTitle title)) keyword
      ("عنوان " ++ toString title.length ++ " کاراکتر است و در نتایج بریده می‌شود.")))
  else
    match uncovered unicode title keyword with
    | some k =>
        -- no candidate: putting the keyword in mechanically stuffs the title
        .ok (some (fixOf .title "missing_keyword" title none keyword
          ("عبارت هدف «" ++ k ++ "» در عنوان نیست.")))
    | none =>
        if title.length < titleMin then
          .ok (some (fixOf .title "too_short" title none keyword
            ("عنوان فقط " ++ toString title.length ++ " کاراکتر است و جای استفاده‌نشده دارد.")))
        else .ok none

def descriptionFix (page : Page) (keyword : Option String) : Option Fix :=
  let description := page.description
  if description = "" then
    some (fixOf .description "missing" description none keyword
      "توضیح متا ندارد، پس گوگل خودش متنی از صفحه برمی‌دارد.")
  else if descMax < description.length then
    some (fixOf .description "too_long" description none keyword
      ("توضیح " ++ toString description.length ++ " کاراکتر است و بریده می‌شود."))
  else if description.length < descMin then
    some (fixOf .description "too_short" description none keyword
      ("توضیح فقط " ++ toString description.length ++ " کاراکتر است."))
  else
    (uncovered unicode description keyword).map fun k =>
      fixOf .description "missing_keyword" description none keyword
        ("عبارت هدف «" ++ k ++ "» در توضیح نیست.")

def h1Fix (page : Page) (keyword : Option String) : Option Fix :=
  if page.h1 = "" then
    some (fixOf .h1 "missing" "" (textOrNone page.title) keyword "صفحه تیتر H1 ندارد.")
  else
    (uncovered unicode page.h1 keyword).map fun k =>
      fixOf .h1 "missing_keyword" page.h1 none keyword
        ("عبارت هدف «" ++ k ++ "» در H1 نیست.")

/-- Everything worth changing on one page, or nothing. -/
def pagePlan (keywords : List Keyword) (page : Page) : Except Exn (Option Plan) := do
  let row := keywordFor unicode page keywords
  let keyword := row.map Keyword.keyword
  let title ← titleFix rules isDigit unicode page keyword
  let fixes := [title, descriptionFix unicode page keyword, h1Fix unicode page keyword].filterMap id
  if fixes.isEmpty then .ok none
  else
    .ok (some
      { url := page.url
        keyword := keyword
        demand := (row.map Keyword.demand).getD 0
        words := page.words
        fixes := fixes })

end Fixes

section Plans

/-- Most demand first, then the page with the most wrong with it. -/
def rank (plans : List Plan) : List Plan :=
  plans.insertionSort fun a b => b.demand < a.demand ∨ a.demand = b.demand ∧
    (b.fixes.length < a.fixes.length ∨ a.fixes.length = b.fixes.length ∧ a.url ≤ b.url)

structure Summary where
  pagesExamined : Nat
  pagesWithFixes : Nat
  fixes : Nat
  byProblem : List (String × Nat)
  plans : List Plan
  limit : Nat

/-- The pages worth rewriting, with what to change on each. -/
def summarise (reader : Reader) (isDigit : Char → Bool) (unicode : Unicode)
    (report research : Dict) (limit : Nat) : Except Exn Summary := do
  let pages := (← buildPages reader report).filter Page.indexable
  let keywords ← buildKeywords reader research
  let found ← pages.mapM (pagePlan reader.rules isDigit unicode keywords)
  let plans := rank (found.filterMap id)
  let problems := (plans.flatMap Plan.fixes).map Fix.problem
  .ok
    { pagesExamined := pages.length
      pagesWithFixes := plans.length
      fixes := (plans.map fun plan => plan.fixes.length).sum
      byProblem := (tally problems).insertionSort fun a b => a.1 ≤ b.1
      plans := plans.take limit
      limit := limit }

end Plans

section Briefs

variable {rules : TextRules} {isDigit : Char → Bool} {unicode : Unicode} {page : Page}
  {keyword : Option String}

/-- A fix is a brief for its field. -/
def Brief (fix : Fix) : Prop :=
  ∃ field problem current candidate keyword why,
    fix = fixOf field problem current candidate keyword why

theorem brief_fixOf (field : Field) (problem current : String) (candidate keyword : Option String)
    (why : String) : Brief (fixOf field problem current candidate keyword why) :=
  ⟨field, problem, current, candidate, keyword, why, rfl⟩

theorem brief_some {field : Field} {problem current : String} {candidate keyword : Option String}
    {why : String} :
    ∀ fix ∈ some (fixOf field problem current candidate keyword why), Brief fix := by
  rintro fix ⟨⟩
  exact brief_fixOf ..

theorem brief_titleFix {found : Option Fix}
    (h : titleFix rules isDigit unicode page keyword = .ok found) :
    ∀ fix ∈ found, Brief fix := by
  unfold titleFix at h
  dsimp only at h
  split at h
  · obtain ⟨source, -, h⟩ := ok_of_bind h
    cases h
    exact brief_some
  · split at h
    · cases h
      exact brief_some
    · split at h
      · cases h
        exact brief_some
      · split at h
        · cases h
          exact brief_some
        · cases h
          exact nofun

theorem brief_uncovered {text : String} {fixFor : String → Fix} (h : ∀ k, Brief (fixFor k)) :
    ∀ fix ∈ (uncovered unicode text keyword).map fixFor, Brief fix := by
  intro fix hfix
  obtain ⟨k, -, rfl⟩ := Option.map_eq_some_iff.mp hfix
  exact h k

theorem brief_descriptionFix : ∀ fix ∈ descriptionFix unicode page keyword, Brief fix := by
  unfold descriptionFix
  dsimp only
  split_ifs
  · exact brief_some
  · exact brief_some
  · exact brief_some
  · exact brief_uncovered fun k => brief_fixOf ..

theorem brief_h1Fix : ∀ fix ∈ h1Fix unicode page keyword, Brief fix := by
  unfold h1Fix
  split_ifs
  · exact brief_some
  · exact brief_uncovered fun k => brief_fixOf ..

/-- A plan is as the rules make it, and for something. -/
theorem built_pagePlan {keywords : List Content.Analyze.Keyword} {found : Option Plan}
    (h : pagePlan rules isDigit unicode keywords page = .ok found) :
    ∀ plan ∈ found, Built plan ∧ plan.fixes ≠ [] := by
  unfold pagePlan at h
  obtain ⟨title, htitle, h⟩ := ok_of_bind h
  dsimp only at h
  split at h
  · cases h
    exact nofun
  · rename_i hsome
    cases h
    rintro plan ⟨⟩
    refine ⟨⟨rfl, ?_⟩, ?_⟩
    · intro fix hfix
      obtain ⟨made, hmade, hmember⟩ := List.mem_filterMap.mp hfix
      simp only [List.mem_cons, List.not_mem_nil, or_false] at hmade
      rcases hmade with rfl | rfl | rfl
      · exact brief_titleFix htitle fix hmember
      · exact brief_descriptionFix fix hmember
      · exact brief_h1Fix fix hmember
    · simpa using hsome

/-- The plans that are enriched are as the rules make them. -/
theorem built_summarise {reader : Reader} {report research : Dict} {limit : Nat}
    {summary : Summary} (h : summarise reader isDigit unicode report research limit = .ok summary) :
    summary.plans.length ≤ limit ∧ ∀ plan ∈ summary.plans, Built plan ∧ plan.fixes ≠ [] := by
  unfold summarise at h
  obtain ⟨pages, -, h⟩ := ok_of_bind h
  obtain ⟨keywords, -, h⟩ := ok_of_bind h
  obtain ⟨found, hfound, h⟩ := ok_of_bind h
  cases h
  refine ⟨List.length_take_le _ _, fun plan hplan => ?_⟩
  have hranked := (List.mem_insertionSort _).mp (List.mem_of_mem_take hplan)
  obtain ⟨made, hmade, hplan⟩ := List.mem_filterMap.mp hranked
  obtain ⟨page, -, hpage⟩ := exists_of_mem_mapM hfound hmade
  exact built_pagePlan hpage plan hplan

end Briefs

end SeoPlatform.Optimizer.Planning
