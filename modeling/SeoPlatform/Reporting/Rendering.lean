import SeoPlatform.Foundation.TextTable
import SeoPlatform.Orchestrator.Engine

namespace SeoPlatform.Reporting.Rendering

open SeoPlatform.Foundation.JsonValue
open SeoPlatform.Foundation.TextTable
open SeoPlatform.Orchestrator.Engine (asDict sliced)
open SeoPlatform.Orchestrator.Planner (iterate)
open SeoPlatform.Shared.Exceptions

/-- A step of a workflow as the orchestrator serves it, by position. -/
structure ServedStep where
  position : Int
  kind : String
  status : String
  error : Option String

/-- A workflow as the orchestrator serves it. -/
structure Served where
  workflowId : String
  status : String
  createdAt : String
  error : Option String
  inputs : Dict
  steps : List ServedStep
  report : Option Dict

def statusFa : List (String × String) :=
  [("completed", "انجام شد"), ("failed", "شکست خورد"), ("skipped", "انجام نشد"),
   ("running", "در حال اجرا"), ("queued", "در صف"), ("pending", "در انتظار"),
   ("dispatched", "در حال اجرا")]

def stepFa : List (String × String) :=
  [("crawl", "خزش سایت"), ("keyword_research", "تحقیق کلمات کلیدی"),
   ("serp_check", "بررسی جایگاه"), ("link_analysis", "تحلیل لینک داخلی"),
   ("content_analysis", "پوشش محتوا"), ("optimizer_plan", "پیشنهاد بازنویسی"),
   ("competitor_crawl", "خزش سایت رقیب"), ("competitor_check", "مقایسه با رقبا")]

def headlineFa : List (String × String) :=
  [("overall_score", "امتیاز کلی"), ("total_issues", "تعداد ایرادها"),
   ("keywords_found", "کلمات کلیدی"), ("keywords_ranked", "رتبه‌گرفته"),
   ("average_position", "میانگین جایگاه"), ("orphan_pages", "صفحه‌ی یتیم"),
   ("keyword_coverage", "پوشش کلمات (٪)"), ("pages_to_rewrite", "صفحه برای بازنویسی"),
   ("competitors_compared", "رقیب مقایسه‌شده"), ("behind_on", "سنجه‌ای که عقب‌اید")]

/-- The name of a value in a table, or the value itself. -/
def named (table : List (String × String)) (value : String) : String :=
  (table.lookup value).getD value

section Values

/-- `str`. For a value that is no text it is `shown`. -/
def text (shown : Json → String) : Json → String
  | .str s => s
  | v => shown v

def field (v : Json) (key : String) : Except Exn Json := do .ok (Dict.get (← asDict v) key)

def fieldOr (v : Json) (key : String) (fallback : Json) : Except Exn Json := do
  .ok (Dict.getD (← asDict v) key fallback)

/-- A field that is an object, or an empty object for one that is empty. -/
def part (report : Dict) (key : String) : Except Exn Dict :=
  asDict ((Dict.get report key).orElse (.obj []))

/-- A value that is not `None`. -/
def notNull : Json → Option Json
  | .null => none
  | v => some v

/-- `value > 0`. -/
def positive : Json → Except Exn Bool
  | .bool b => .ok b
  | .int n => .ok (0 < n)
  | .float q => .ok (0 < q)
  | _ => .error (.typeError "'>' not supported")

/-- What a table of texts holds for a value. Lists and objects are no keys. -/
def lookupText (table : List (String × String)) (fallback : String) : Json → Except Exn String
  | .str s => .ok ((table.lookup s).getD fallback)
  | .arr _ | .obj _ => .error (.typeError "unhashable type")
  | _ => .ok fallback

/-- `"\n".join` takes texts alone. -/
def asText : Json → Except Exn String
  | .str s => .ok s
  | _ => .error (.typeError "expected str instance")

end Values

/-- What the report is about: what the workflow was asked for, or else what was
crawled. -/
def siteOf (w : Served) : Except Exn Json :=
  let own := Dict.get w.inputs "start_url"
  if own.truthy then .ok own
  else do
    let crawl := Dict.getD (w.report.getD []) "crawl" (.obj [])
    .ok ((← field crawl "start_url").orElse (.str ""))

def titleOf (shown : Json → String) (w : Served) : Except Exn String := do
  let site ← siteOf w
  .ok (if site.truthy then "گزارش سئو — " ++ text shown site else "گزارش سئو")

/-- A metric that was never measured is left out. -/
def headlineRows (report : Dict) : Except Exn (List (String × Json)) := do
  let headline ← part report "headline"
  .ok (headlineFa.filterMap fun (key, label) =>
    (notNull (Dict.get headline key)).map fun value => (label, value))

/-- The change, with which way is better already decided. -/
def arrow (shown : Json → String) (change : Json) : Except Exn String := do
  let delta ← fieldOr change "change" (.int 0)
  let sign := if ← positive delta then "+" ++ text shown delta else text shown delta
  let verdict ← lookupText [("better", "بهتر"), ("worse", "بدتر")] "بدون تغییر معنادار"
    (← field change "direction")
  .ok (sign ++ " (" ++ verdict ++ ")")

section Markdown

variable (shown : Json → String)

/-- The number of a section's rows is that of the list it is made of. -/
def rowsOf (rows : Json) (cells : Json → Except Exn (List String)) :
    Except Exn (List (List String)) := do
  (← iterate rows).mapM cells

/-- A section of the report, if there is something to show: a heading and a table. -/
def sectionMd (heading : String) (columns : List String) (rows : Json)
    (cells : Json → Except Exn (List String)) : Except Exn (List Block) :=
  if rows.truthy then do
    let body ← rowsOf rows cells
    .ok [.lines [heading, ""], .table columns body, .lines [""]]
  else .ok []

/-- The cells of a row that are read from fields, with the empty text for one that
is not there. -/
def fieldCells (keys : List String) (row : Json) : Except Exn (List String) :=
  keys.mapM fun key => do .ok (text shown (← fieldOr row key (.str "")))

def opportunityCells (row : Json) : Except Exn (List String) := do
  let position ← field row "position"
  .ok [text shown (← fieldOr row "keyword" (.str "")),
    text shown ((notNull position).getD (.str "پیدا نشد")),
    text shown (← fieldOr row "opportunity" (.str ""))]

/-- The label of a metric, or its name. -/
def labelOf (row : Json) : Except Exn Json := do
  fieldOr row "label_fa" (← fieldOr row "metric" (.str ""))

def changeCells (row : Json) : Except Exn (List String) := do
  .ok [text shown (← labelOf row), text shown (← fieldOr row "before" (.str "")),
    text shown (← fieldOr row "after" (.str "")), ← arrow shown row]

/-- What the plan's texts were written by. -/
def writtenFa (plan : Dict) : String :=
  if (Dict.get plan "written_by").str? = some "ai" then "متن آماده" else "دستورالعمل"

/-- `rankings["opportunities"][:15]`, where there is something to show. -/
def firstRows (n : Nat) (rows : Json) : Except Exn Json :=
  if rows.truthy then sliced n rows else .ok rows

def trendNoteMd (trend : Dict) : Except Exn (List Block) :=
  if (Dict.get trend "changes").truthy && (Dict.get trend "note").truthy then do
    .ok [.lines [← asText (Dict.get trend "note"), ""]]
  else .ok []

def sectionsMd (report : Dict) : Except Exn (List Block) := do
  let rankings ← part report "rankings"
  let opportunities ← sectionMd "## فرصت‌های رتبه" ["کلمه کلیدی", "جایگاه فعلی", "فرصت"]
    (← firstRows 15 (Dict.get rankings "opportunities")) (opportunityCells shown)
  let rivals ← sectionMd "## رقبا" ["دامنه", "روی چند عبارت بالاتر است"]
    (Dict.get rankings "top_competitors") (fieldCells shown ["domain", "outranks_on"])
  let content ← part report "content"
  let gaps ← sectionMd "## صفحه‌هایی که هنوز نوشته نشده‌اند" ["کلمه کلیدی", "تقاضا"]
    (Dict.get content "top_gaps") (fieldCells shown ["keyword", "demand"])
  let trend ← part report "trend"
  let changes ← sectionMd "## نسبت به اجرای قبلی" ["سنجه", "قبل", "حالا", "تغییر"]
    (Dict.get trend "changes") (changeCells shown)
  let noted ← trendNoteMd trend
  let competitors ← part report "competitors"
  let compared := text shown (Dict.getD competitors "compared_against" (.int 0))
  let themes ← sectionMd
    ("## موضوع‌هایی که رقبا پوشش می‌دهند و شما نه (" ++ compared ++ " رقیب مقایسه شد)") ["موضوع"]
    (Dict.get competitors "top_missing_themes") fun term => .ok [text shown term]
  let links ← part report "links"
  let pages ← sectionMd "## صفحاتی که لینک داخلی کم دارند"
    ["صفحه", "لینک ورودی", "اعتبار داخلی"] (Dict.get links "top_opportunities")
    (fieldCells shown ["url", "inlinks", "authority"])
  let plan ← part report "optimizer"
  let rewrites ← sectionMd ("## پیشنهاد بازنویسی (" ++ writtenFa plan ++ ")")
    ["صفحه", "تعداد اصلاح"] (Dict.get plan "pages") (fieldCells shown ["url", "fixes"])
  .ok (opportunities ++ rivals ++ gaps ++ changes ++ noted ++ themes ++ pages ++ rewrites)

/-- The lines of one of the next actions. -/
def actionMd (index : Nat) (action : Json) : Except Exn (List String) := do
  .ok [toString index ++ ". **" ++ text shown (← fieldOr action "action" (.str "")) ++ "**  ",
    "   " ++ text shown (← fieldOr action "why" (.str "")) ++ " — تلاش: " ++
      text shown (← fieldOr action "effort" (.str "—")) ++ "، اثر: " ++
      text shown (← fieldOr action "impact" (.str "—"))]

def sourceFa (summary : Dict) : String :=
  if (Dict.get summary "source").str? = some "ai" then "نوشته‌ی مدل" else "قانون‌محور"

def nextMd (actions : Json) : Except Exn (List String) :=
  if actions.truthy then do
    let listed ← (← iterate actions).zipIdx.mapM fun (action, n) => actionMd shown (n + 1) action
    .ok (["### قدم‌های بعدی", ""] ++ listed.flatten ++ [""])
  else .ok []

def watchMd (outs : Json) : Except Exn (List String) :=
  if outs.truthy then do
    .ok (["### چیزهایی که این گزارش نمی‌داند", ""] ++
      (← iterate outs).map (fun item => "- " ++ text shown item) ++ [""])
  else .ok []

def summaryMd (summary : Dict) : Except Exn (List Block) :=
  if (Dict.get summary "text_fa").truthy then do
    let next ← nextMd shown (Dict.get summary "next_actions")
    let watch ← watchMd shown (Dict.get summary "watch_outs")
    let summaryText ← asText (Dict.get summary "text_fa")
    .ok [.lines (["## خلاصه (" ++ sourceFa summary ++ ")", "", summaryText, ""] ++ next ++ watch)]
  else .ok []

/-- The steps, by position. -/
def sortedSteps (w : Served) : List ServedStep :=
  w.steps.insertionSort fun a b => a.position ≤ b.position

def stepCells (step : ServedStep) : List String :=
  [toString step.position, named stepFa step.kind, named statusFa step.status,
    step.error.getD ""]

/-- The Markdown report, block by block. -/
def markdownBlocks (w : Served) : Except Exn (List Block) := do
  let report := w.report.getD []
  let summary ← part report "summary"
  let opening := ["# " ++ (← titleOf shown w), "",
    "**وضعیت:** " ++ named statusFa w.status ++ "  ",
    "**تاریخ:** " ++ (if w.createdAt = "" then "—" else w.createdAt) ++ "  ",
    "**شناسه:** \x60" ++ w.workflowId ++ "\x60", ""]
  let fault :=
    if w.error.getD "" = "" then [] else ["> این تحلیل کامل نشد: " ++ w.error.getD "", ""]
  let summarised ← summaryMd shown summary
  let numbers ← headlineRows report
  let headline :=
    if numbers = [] then []
    else [.lines ["## اعداد اصلی", ""],
      .table ["معیار", "مقدار"] (numbers.map fun (label, value) => [label, text shown value]),
      .lines [""]]
  let steps :=
    if w.steps = [] then []
    else [.lines ["## مراحل", ""],
      .table ["#", "مرحله", "وضعیت", "توضیح"] ((sortedSteps w).map stepCells), .lines [""]]
  let sections ← sectionsMd shown report
  .ok ([.lines (opening ++ fault)] ++ summarised ++ headline ++ steps ++ sections ++
    [.lines ["---", "",
      "ساخته‌شده با ایجنت سئو. اعداد «فرصت» اولویت نسبی‌اند، نه پیش‌بینی ترافیک."]])

def markdown (w : Served) : Except Exn String := do .ok (toText (← markdownBlocks shown w))

end Markdown

section Html

/-- `html.escape`, quotes included. -/
def escapeChar : Char → List Char
  | '&' => "&amp;".toList
  | '<' => "&lt;".toList
  | '>' => "&gt;".toList
  | '"' => "&quot;".toList
  | '\'' => "&#x27;".toList
  | c => [c]

def escape (s : String) : String := String.ofList (s.toList.flatMap escapeChar)

variable (shown : Json → String)

/-- Every value goes through here. -/
def e : Json → String
  | .null => escape ""
  | v => escape (text shown v)

def cssLines : List String :=
  ["\n",
   ":root \x7b --ink:#16191d; --muted:#5f6874; --line:#e3e6ea; --accent:#2f5fd0; ",
   "--poor:#b02a37; \x7d\n",
   "* \x7b box-sizing: border-box; \x7d\n",
   "body \x7b margin:0 auto; padding:32px 24px 64px; max-width:900px; color:var(--ink);\n",
   "  font-family: Vazirmatn, \"Segoe UI\", Tahoma, sans-serif; line-height:1.75; \x7d\n",
   "h1 \x7b font-size:1.6rem; margin:0 0 4px; \x7d\n",
   "h2 \x7b font-size:1.15rem; margin:28px 0 10px; \x7d\n",
   "h3 \x7b font-size:1rem; margin:18px 0 8px; \x7d\n",
   "p.meta, .muted \x7b color:var(--muted); \x7d\n",
   "p.meta \x7b margin-top:0; font-size:.9rem; \x7d\n",
   "p.lede \x7b color:var(--muted); margin-top:0; \x7d\n",
   "p.error \x7b border:1px solid var(--poor); color:var(--poor); ",
   "border-radius:8px; padding:10px 12px; \x7d\n",
   "code \x7b direction:ltr; unicode-bidi:isolate; \x7d\n",
   "section \x7b border-top:1px solid var(--line); padding-top:4px; \x7d\n",
   "table \x7b width:100%; border-collapse:collapse; margin-top:6px; \x7d\n",
   "th, td \x7b text-align:start; padding:7px 8px; border-bottom:1px solid var(--line);\n",
   "  vertical-align:top; word-break:break-word; \x7d\n",
   "th \x7b color:var(--muted); font-size:.85rem; font-weight:600; \x7d\n",
   ".tiles \x7b display:grid; ",
   "grid-template-columns:repeat(auto-fit,minmax(140px,1fr)); gap:10px; \x7d\n",
   ".tile \x7b border:1px solid var(--line); border-radius:10px; padding:10px 12px; ",
   "\x7d\n",
   ".tile .value \x7b font-size:1.5rem; font-weight:700; \x7d\n",
   ".tile .name \x7b color:var(--muted); font-size:.82rem; \x7d\n",
   ".pill \x7b display:inline-block; padding:1px 10px; border-radius:999px; ",
   "font-size:.78rem;\n",
   "  border:1px solid var(--line); color:var(--muted); vertical-align:middle; \x7d\n",
   "ol li \x7b margin-bottom:10px; \x7d\n",
   "footer \x7b margin-top:36px; padding-top:12px; border-top:1px solid var(--line);\n",
   "  color:var(--muted); font-size:.85rem; \x7d\n",
   "/* Printing is how this becomes a PDF, so it is a first-class layout, not an\n",
   "   afterthought: no page breaks inside a table row, and sections stay whole. */\n",
   "@page \x7b size:A4; margin:16mm; \x7d\n",
   "@media print \x7b\n",
   "  body \x7b padding:0; max-width:none; \x7d\n",
   "  section \x7b break-inside:avoid; \x7d\n",
   "  tr, .tile \x7b break-inside:avoid; \x7d\n",
   "\x7d\n"]

def css : String := String.join cssLines

/-- A section with a table. -/
def tableHtml (heading : String) (columns : List String) (rows : List (List Json))
    (note : Json) : String :=
  let head := String.join (columns.map fun c => "<th>" ++ escape c ++ "</th>")
  let body := String.join (rows.map fun row =>
    "<tr>" ++ String.join (row.map fun cell => "<td>" ++ e shown cell ++ "</td>") ++ "</tr>")
  let lede := if note.truthy then "<p class='lede'>" ++ e shown note ++ "</p>" else ""
  "<section><h2>" ++ escape heading ++ "</h2>" ++ lede ++ "<table><thead><tr>" ++ head ++
    "</tr></thead><tbody>" ++ body ++ "</tbody></table></section>"

/-- A section of the report, if there is something to show. -/
def sectionHtml (heading : String) (columns : List String) (rows note : Json)
    (cells : Json → Except Exn (List Json)) : Except Exn (List String) :=
  if rows.truthy then do
    .ok [tableHtml shown heading columns (← (← iterate rows).mapM cells) note]
  else .ok []

def fieldValues (keys : List String) (row : Json) : Except Exn (List Json) :=
  keys.mapM fun key => fieldOr row key (.str "")

def opportunityValues (row : Json) : Except Exn (List Json) := do
  let position ← field row "position"
  .ok [← fieldOr row "keyword" (.str ""),
    (notNull position).getD (.str "پیدا نشد"),
    ← fieldOr row "opportunity" (.str "")]

def changeValues (row : Json) : Except Exn (List Json) := do
  .ok [← labelOf row, ← fieldOr row "before" (.str ""), ← fieldOr row "after" (.str ""),
    .str (← arrow shown row)]

def themesNote (compared : Json) : String :=
  text shown compared ++ " رقیب مقایسه شد. عبارتی اینجا می‌آید " ++
    "که دست‌کم دو رقیب رویش نوشته باشند و در سایت شما نباشد."

def sectionsHtml (report : Dict) : Except Exn (List String) := do
  let rankings ← part report "rankings"
  let opportunities ← sectionHtml shown "فرصت‌های رتبه" ["کلمه کلیدی", "جایگاه فعلی", "فرصت"]
    (← firstRows 15 (Dict.get rankings "opportunities"))
    (.str "عدد فرصت اولویت نسبی است، نه پیش‌بینی ترافیک.") opportunityValues
  let rivals ← sectionHtml shown "رقبا" ["دامنه", "روی چند عبارت بالاتر است"]
    (Dict.get rankings "top_competitors") (.str "") (fieldValues ["domain", "outranks_on"])
  let content ← part report "content"
  let gaps ← sectionHtml shown "صفحه‌هایی که هنوز نوشته نشده‌اند" ["کلمه کلیدی", "تقاضا"]
    (Dict.get content "top_gaps") (.str "") (fieldValues ["keyword", "demand"])
  let trend ← part report "trend"
  let changes ← sectionHtml shown "نسبت به اجرای قبلی" ["سنجه", "قبل", "حالا", "تغییر"]
    (Dict.get trend "changes") ((Dict.get trend "note").orElse (.str "")) (changeValues shown)
  let competitors ← part report "competitors"
  let themes ← sectionHtml shown "موضوع‌هایی که رقبا پوشش می‌دهند و شما نه" ["موضوع"]
    (Dict.get competitors "top_missing_themes")
    (.str (themesNote shown (Dict.getD competitors "compared_against" (.int 0))))
    fun term => .ok [term]
  let links ← part report "links"
  let pages ← sectionHtml shown "صفحاتی که لینک داخلی کم دارند"
    ["صفحه", "لینک ورودی", "اعتبار داخلی"] (Dict.get links "top_opportunities") (.str "")
    (fieldValues ["url", "inlinks", "authority"])
  let plan ← part report "optimizer"
  let rewrites ← sectionHtml shown ("پیشنهاد بازنویسی (" ++ writtenFa plan ++ ")")
    ["صفحه", "تعداد اصلاح"] (Dict.get plan "pages") (.str "") (fieldValues ["url", "fixes"])
  .ok (opportunities ++ rivals ++ gaps ++ changes ++ themes ++ pages ++ rewrites)

def actionHtml (action : Json) : Except Exn String := do
  .ok ("<li><strong>" ++ e shown (← fieldOr action "action" (.str "")) ++ "</strong><br>" ++
    "<span class='muted'>" ++ e shown (← fieldOr action "why" (.str "")) ++ " — " ++
    "تلاش: " ++ e shown (← fieldOr action "effort" (.str "—")) ++ "، " ++
    "اثر: " ++ e shown (← fieldOr action "impact" (.str "—")) ++ "</span></li>")

def nextHtml (actions : Json) : Except Exn (List String) :=
  if actions.truthy then do
    let listed ← (← iterate actions).mapM (actionHtml shown)
    .ok (["<h3>قدم‌های بعدی</h3><ol>"] ++ listed ++ ["</ol>"])
  else .ok []

def watchHtml (outs : Json) : Except Exn (List String) :=
  if outs.truthy then do
    .ok (["<h3>چیزهایی که این گزارش نمی‌داند</h3><ul class='muted'>"] ++
      (← iterate outs).map (fun item => "<li>" ++ e shown item ++ "</li>") ++ ["</ul>"])
  else .ok []

def summaryHtml (summary : Dict) : Except Exn (List String) :=
  if (Dict.get summary "text_fa").truthy then do
    let next ← nextHtml shown (Dict.get summary "next_actions")
    let watch ← watchHtml shown (Dict.get summary "watch_outs")
    .ok (["<section><h2>خلاصه <span class='pill'>" ++ escape (sourceFa summary) ++
      "</span></h2><p class='lede'>" ++ e shown (Dict.get summary "text_fa") ++ "</p>"] ++ next ++
      watch ++ ["</section>"])
  else .ok []

def numbersHtml (numbers : List (String × Json)) : List String :=
  if numbers = [] then []
  else
    let tiles := String.join (numbers.map fun (label, value) =>
      "<div class='tile'><div class='value'>" ++ e shown value ++ "</div>" ++
        "<div class='name'>" ++ escape label ++ "</div></div>")
    ["<section><h2>اعداد اصلی</h2><div class='tiles'>" ++ tiles ++ "</div></section>"]

def stepsHtml (steps : List ServedStep) : List String :=
  if steps = [] then []
  else
    let rows := String.join (steps.map fun s =>
      "<tr><td>" ++ escape (toString s.position) ++ "</td>" ++
        "<td>" ++ escape (named stepFa s.kind) ++ "</td>" ++
        "<td>" ++ escape (named statusFa s.status) ++ "</td>" ++
        "<td class='muted'>" ++ escape (s.error.getD "") ++ "</td></tr>")
    ["<section><h2>مراحل</h2><table><tbody>" ++ rows ++ "</tbody></table></section>"]

def openingHtml (w : Served) (title : String) : List String :=
  ["<h1>" ++ escape title ++ "</h1>",
    "<p class='meta'>" ++ "وضعیت: " ++ escape (named statusFa w.status) ++ " · تاریخ: " ++
      escape (if w.createdAt = "" then "—" else w.createdAt) ++ " · شناسه: <code>" ++
      escape w.workflowId ++ "</code>" ++ "</p>"] ++
  if w.error.getD "" = "" then []
  else ["<p class='error'>این تحلیل کامل نشد: " ++ escape (w.error.getD "") ++ "</p>"]

/-- One file, no external requests. -/
def document (w : Served) : Except Exn String := do
  let report := w.report.getD []
  let summary ← part report "summary"
  let title ← titleOf shown w
  let summarised ← summaryHtml shown summary
  let numbers ← headlineRows report
  let sections ← sectionsHtml shown report
  let body := openingHtml w title ++ summarised ++ numbersHtml shown numbers ++
    stepsHtml (sortedSteps w) ++ sections ++
    ["<footer>ساخته‌شده با ایجنت سئو. اعداد «فرصت» اولویت نسبی‌اند، " ++
      "نه پیش‌بینی ترافیک.</footer>"]
  .ok ("<!doctype html>\n" ++ "<html lang='fa' dir='rtl'><head><meta charset='utf-8'>" ++
    "<title>" ++ escape title ++ "</title>" ++
    "<meta name='viewport' content='width=device-width, initial-scale=1'>" ++
    "<style>" ++ css ++ "</style></head><body>" ++ String.join body ++ "</body></html>\n")

end Html

end SeoPlatform.Reporting.Rendering
