import SeoPlatform.Reporting.Rendering

namespace SeoPlatform.Orchestrator.Summaries

open SeoPlatform.Foundation.JsonValue
open SeoPlatform.Foundation.UrlText
open SeoPlatform.Orchestrator.Engine (asDict lengthOf sliced)
open SeoPlatform.Orchestrator.Planner (iterate)
open SeoPlatform.Reporting.Rendering (field fieldOr lookupText notNull part positive text)
open SeoPlatform.Shared.Exceptions

section Values

def stepFa : List (String × String) :=
  [("crawl", "خزش سایت"), ("keyword_research", "تحقیق کلمات کلیدی"),
   ("serp_check", "بررسی جایگاه"), ("link_analysis", "تحلیل لینک داخلی"),
   ("content_analysis", "پوشش محتوا"), ("optimizer_plan", "پیشنهاد بازنویسی"),
   ("competitor_crawl", "خزش سایت رقیب"), ("competitor_check", "مقایسه با رقبا")]

/-- `d[key]`. -/
def item (d : Dict) (key : String) : Except Exn Json :=
  match Dict.get? d key with
  | some v => .ok v
  | none => .error (.keyError key)

/-- `value <= n`. -/
def atMost (n : Int) : Json → Except Exn Bool
  | .bool b => .ok ((if b then 1 else 0) ≤ n)
  | .int m => .ok (m ≤ n)
  | .float q => .ok (q ≤ n)
  | _ => .error (.typeError "'<=' not supported")

/-- The first rows of a list that may be missing. -/
def firstRows (n : Nat) (rows : Json) : Except Exn (List Json) := do
  iterate (← sliced n (rows.orElse (.arr [])))

/-- `"، ".join` takes texts alone. -/
def texts (items : List Json) : Except Exn (List String) :=
  items.mapM fun
    | .str s => .ok s
    | _ => .error (.typeError "expected str instance")

end Values

section Sentences

-- `shown` is `str` of what is no text
variable (shown : Json → String)

/-- The row of the overall score, if there is one. -/
def scoreRow : List Json → Except Exn (Option Dict)
  | [] => .ok none
  | row :: rest => do
      let fields ← asDict row
      if (← item fields "metric").str? = some "overall_score" then .ok (some fields)
      else scoreRow rest

def lead : Option Dict → Except Exn String
  | none => .ok ""
  | some score => do
      if score.isEmpty then .ok ""
      else if (← item score "direction").str? = some "level" then .ok ""
      else
        let way := if ← positive (← item score "change") then "بالا رفته" else "پایین آمده"
        .ok ("امتیاز کلی از " ++ text shown (← item score "before") ++ " به " ++
          text shown (← item score "after") ++ " " ++ way ++ ". ")

/-- `trends.headline`, for a trend that shows something. -/
def moving (trend : Dict) : Except Exn String := do
  let better ← lengthOf (← item trend "better")
  let worse ← lengthOf (← item trend "worse")
  if better = 0 ∧ worse = 0 then .ok "نسبت به اجرای قبلی تغییر معناداری نیست."
  else do
    let opening ← lead shown (← scoreRow (← iterate (← item trend "changes")))
    if worse = 0 then
      .ok (opening ++ toString better ++ " سنجه بهتر شده و هیچ‌کدام بدتر نشده.")
    else if better = 0 then
      .ok (opening ++ toString worse ++ " سنجه بدتر شده و هیچ‌کدام بهتر نشده.")
    else
      .ok (opening ++ toString better ++ " سنجه بهتر و " ++ toString worse ++ " سنجه بدتر شده.")

def trendSentences (trend : Json) : Except Exn (List String) :=
  if trend.truthy then do
    let fields ← asDict trend
    if (Dict.get fields "changes").truthy then .ok [← moving shown fields] else .ok []
  else .ok []

def failedSentences (report : Dict) : List String :=
  if (Dict.get report "status").str? = some "failed" then
    ["این تحلیل کامل نشد: " ++
      text shown ((Dict.get report "error").orElse (.str "دلیلی ثبت نشده است")) ++ "."]
  else []

def crawlSentences (headline crawl : Dict) : List String :=
  let score := Dict.get headline "overall_score"
  let issues := Dict.get headline "total_issues"
  let crawled := Dict.get crawl "pages_crawled"
  let grade := Dict.get crawl "grade"
  (match notNull score with
    | none => []
    | some score =>
        ["امتیاز کلی سئوی سایت " ++ text shown score ++ " از ۱۰۰ است" ++
          (if grade.truthy then " (رتبه " ++ text shown grade ++ ")" else "") ++
          (if crawled.truthy then " و " ++ text shown crawled ++ " صفحه بررسی شد" else "") ++
          "."]) ++
  if issues.truthy then ["موتور قوانین " ++ text shown issues ++ " ایراد پیدا کرد."] else []

def keywordSentences (report headline : Dict) : Except Exn (List String) :=
  let found := Dict.get headline "keywords_found"
  if found.truthy then do
    let seed := Dict.get (← part report "keywords") "seed"
    .ok [text shown found ++ " کلمه‌ی کلیدی مرتبط" ++
      (if seed.truthy then " حول «" ++ text shown seed ++ "»" else "") ++ " استخراج شد."]
  else .ok []

def bestSentences (best : Json) : Except Exn (List String) :=
  if best.truthy then do
    .ok ["بهترین جایگاه " ++ text shown (← field best "position") ++ " برای «" ++
      text shown (← field best "keyword") ++ "» است."]
  else .ok []

def rankingSentences (headline rankings : Dict) : Except Exn (List String) :=
  let checked := Dict.get rankings "keywords_checked"
  if checked.truthy then do
    let ranked := (Dict.get headline "keywords_ranked").orElse (.int 0)
    let average :=
      match notNull (Dict.get headline "average_position") with
      | none => ""
      | some average => " و میانگین جایگاهش " ++ text shown average ++ " است"
    let best ← bestSentences shown (Dict.get rankings "best")
    .ok (["از " ++ text shown checked ++ " کلمه‌ی بررسی‌شده، سایت روی " ++ text shown ranked ++
      " مورد در نتایج دیده می‌شود" ++ average ++ "."] ++ best)
  else .ok []

def linkSentences (links : Dict) : List String :=
  let pages := Dict.get links "pages"
  let orphans := Dict.get links "orphan_count"
  let broken := Dict.get links "broken_target_count"
  if pages.truthy then
    [text shown pages ++ " صفحه با " ++
      text shown (Dict.getD links "internal_links" (.int 0)) ++ " لینک داخلی به هم وصل‌اند" ++
      (if orphans.truthy then
        " و " ++ text shown orphans ++ " صفحه هیچ لینک داخلی نمی‌گیرد" else "") ++ "."] ++
    if broken.truthy then
      [text shown broken ++ " صفحه‌ی خراب هنوز از داخل سایت لینک می‌گیرند."]
    else []
  else []

def contentSentences (content : Dict) : List String :=
  let keywords := Dict.get content "keywords"
  let clashes := Dict.get content "cannibalisation_count"
  if keywords.truthy then
    ["از " ++ text shown keywords ++ " کلمه‌ی بررسی‌شده، برای " ++
      text shown (Dict.getD content "covered" (.int 0)) ++ " مورد " ++ "صفحه‌ای وجود دارد (" ++
      text shown (Dict.getD content "coverage" (.int 0)) ++ " درصد پوشش)."] ++
    if clashes.truthy then
      ["روی " ++ text shown clashes ++ " عبارت، چند صفحه با هم رقابت می‌کنند."]
    else []
  else []

def planSentences (plan : Dict) : List String :=
  let pages := Dict.get plan "pages_with_fixes"
  if pages.truthy then
    ["برای " ++ text shown pages ++ " صفحه " ++ text shown (Dict.getD plan "fixes" (.int 0)) ++
      " اصلاح " ++ "مشخص پیشنهاد شده" ++
      (if (Dict.get plan "written_by").str? = some "ai" then " با متن آماده"
        else " به‌صورت دستورالعمل") ++ "."]
  else []

def standing (behind ahead : Nat) : String :=
  if behind ≠ 0 then
    "روی " ++ toString behind ++ " سنجه عقب‌اید" ++
      if ahead ≠ 0 then " و روی " ++ toString ahead ++ " سنجه جلوتر" else ""
  else if ahead ≠ 0 then "روی " ++ toString ahead ++ " سنجه جلوترید"
  else "روی هیچ سنجه‌ای اختلاف معناداری نیست"

def themeSentences (rivals : Dict) : Except Exn (List String) :=
  let themes := (Dict.get rivals "top_missing_themes").orElse (.arr [])
  if themes.truthy then do
    let count := Dict.getD rivals "missing_theme_count" (.int (← lengthOf themes))
    let listed := (← firstRows 5 themes).map fun t => "«" ++ text shown t ++ "»"
    .ok [text shown count ++ " موضوع هست که رقبا " ++
      "درباره‌اش نوشته‌اند و سایت شما نه، از جمله: " ++
      String.intercalate "، " listed ++ "."]
  else .ok []

def rivalSentences (rivals : Dict) : Except Exn (List String) :=
  let compared := Dict.get rivals "compared_against"
  if compared.truthy then do
    let behind ← lengthOf ((Dict.get rivals "behind_on").orElse (.arr []))
    let ahead ← lengthOf ((Dict.get rivals "ahead_on").orElse (.arr []))
    let themes ← themeSentences shown rivals
    .ok (["در برابر " ++ text shown compared ++ " رقیب، " ++ standing behind ahead ++ "."] ++
      themes)
  else .ok []

def competitorSentences (rankings : Dict) : Except Exn (List String) := do
  let rows ← firstRows 3 (Dict.get rankings "top_competitors")
  let domains ← rows.mapM fun row => field row "domain"
  if domains.isEmpty then .ok []
  else
    .ok ["رقبایی که بیش از همه بالاتر می‌ایستند: " ++
      String.intercalate "، " (← texts domains) ++ "."]

/-- The name of a kind of step, or the kind itself. -/
def kindName (kind : Json) : Except Exn String := lookupText stepFa (text shown kind) kind

def stepSentences (step : Json) : Except Exn (List String) := do
  if (← field step "status").str? = some "skipped" then
    .ok ["مرحله‌ی «" ++ (← kindName shown (← field step "kind")) ++ "» انجام نشد: " ++
      text shown (← field step "error") ++ "."]
  else .ok []

def skippedSentences (report : Dict) : Except Exn (List String) := do
  let steps ← iterate ((Dict.get report "steps").orElse (.arr []))
  .ok (← steps.mapM (stepSentences shown)).flatten

/-- `_sentences`. -/
def sentences (report headline rankings : Dict) : Except Exn (List String) := do
  let trend ← trendSentences shown (Dict.get report "trend")
  let crawl ← part report "crawl"
  let keywords ← keywordSentences shown report headline
  let ranked ← rankingSentences shown headline rankings
  let links ← part report "links"
  let content ← part report "content"
  let plan ← part report "optimizer"
  let rivals ← rivalSentences shown (← part report "competitors")
  let competitors ← competitorSentences rankings
  let skipped ← skippedSentences shown report
  let out := trend ++ failedSentences shown report ++ crawlSentences shown headline crawl ++
    keywords ++ ranked ++ linkSentences shown links ++
    contentSentences shown content ++ planSentences shown plan ++ rivals ++ competitors ++ skipped
  .ok (if out.isEmpty then ["این تحلیل نتیجه‌ای برای گزارش کردن تولید نکرد."] else out)

end Sentences

section Actions

variable (shown : Json → String)

def action (what why effort impact : String) : Json :=
  .obj [("action", .str what), ("why", .str why), ("effort", .str effort),
    ("impact", .str impact)]

def opportunityAction (row : Json) : Except Exn Json := do
  let keyword := text shown (← field row "keyword")
  match notNull (← field row "position") with
  | none =>
      .ok (action ("برای «" ++ keyword ++ "» یک صفحه‌ی اختصاصی و کامل بساز.")
        "سایت روی این عبارت در نتایج بررسی‌شده اصلاً دیده نمی‌شود." "زیاد" "زیاد")
  | some position =>
      if ← atMost 5 position then
        .ok (action ("صفحه‌ی مربوط به «" ++ keyword ++ "» را تقویت کن تا از جایگاه " ++
            text shown position ++ " بالاتر بیاید.")
          "نزدیک‌ترین برد ممکن؛ چند جایگاه بالاتر رفتن اینجا بیشترین کلیک را اضافه می‌کند."
          "کم" "زیاد")
      else
        .ok (action ("محتوای «" ++ keyword ++
            "» را بازنویسی کن و لینک داخلی به آن بده (جایگاه فعلی " ++ text shown position ++ ").")
          "در صفحه‌ی اول نتایج هست ولی پایین‌تر از جایی که کلیک بگیرد." "متوسط" "متوسط")

def linkAction (row : Json) : Except Exn Json := do
  .ok (action ("از یک صفحه‌ی قوی به «" ++ text shown (← field row "url") ++ "» لینک بده.")
    ("این صفحه محتوا دارد ولی فقط " ++ text shown (← fieldOr row "inlinks" (.int 0)) ++
      " لینک داخلی می‌گیرد؛ " ++ "ارزان‌ترین کاری که می‌شود برایش کرد همین است.")
    "کم" "متوسط")

def gapAction (row : Json) : Except Exn Json := do
  .ok (action ("صفحه‌ای برای «" ++ text shown (← field row "keyword") ++ "» بساز.")
    ("این عبارت در تحقیق کلمات کلیدی هست ولی هیچ صفحه‌ای خودش را " ++ "درباره‌ی آن اعلام نکرده.")
    "زیاد" "زیاد")

def issueActions (headline : Dict) : List Json :=
  let issues := Dict.get headline "total_issues"
  if issues.truthy then
    [action (text shown issues ++ " ایراد فنی گزارش خزش را از بالای فهرست به پایین برطرف کن.")
      "ایرادهای فنی سقف کار محتوایی را تعیین می‌کنند." "متوسط" "زیاد"]
  else []

/-- `_actions`. -/
def actions (report headline rankings : Dict) : Except Exn (List Json) := do
  let opportunities ← (← firstRows 3 (Dict.get rankings "opportunities")).mapM
    (opportunityAction shown)
  let links ← part report "links"
  let pages ← (← firstRows 2 (Dict.get links "top_opportunities")).mapM (linkAction shown)
  let content ← part report "content"
  let gaps ← (← firstRows 2 (Dict.get content "top_gaps")).mapM (gapAction shown)
  .ok ((opportunities ++ pages ++ gaps ++ issueActions shown headline).take 5)

end Actions

section Summaries

variable (shown : Json → String)

/-- What the numbers say, with no model involved. -/
def deterministic (report : Dict) : Except Exn Dict := do
  let headline ← part report "headline"
  let rankings ← part report "rankings"
  let said ← sentences shown report headline rankings
  let next ← actions shown report headline rankings
  .ok [("source", .str "rules"), ("text_fa", .str (String.intercalate " " said)),
    ("next_actions", .arr next), ("watch_outs", .arr []), ("note", .null)]

def promptStep (step : Json) : Except Exn String := do
  let error ← field step "error"
  .ok ("- مرحله " ++ text shown (← field step "position") ++ " (" ++
    text shown (← field step "kind") ++ "): " ++ text shown (← field step "status") ++
    if error.truthy then " — " ++ text shown error else "")

/-- A number that rows are sorted by. -/
def rank : Json → Except Exn Rat
  | .bool b => .ok (if b then 1 else 0)
  | .int n => .ok n
  | .float q => .ok q
  | _ => .error (.typeError "'<' not supported")

def ranked (step : Json) : Except Exn (Rat × Json) := do
  .ok (← rank (← fieldOr step "position" (.int 0)), step)

/-- The report, restated for a reader who cannot see the tables. `dumped` is `json.dumps`. -/
def prompt (dumped : Json → String) (report : Dict) : Except Exn String := do
  let headline ← part report "headline"
  let rankings ← part report "rankings"
  let keywords ← part report "keywords"
  let crawl ← part report "crawl"
  let rows ← (← iterate ((Dict.get report "steps").orElse (.arr []))).mapM ranked
  let sorted := (rows.insertionSort fun a b => a.1 ≤ b.1).map Prod.snd
  let steps := String.intercalate "\n" (← sorted.mapM (promptStep shown))
  let sample ← firstRows 20 (Dict.get keywords "top_keywords")
  let words := String.intercalate "، " (sample.map (text shown))
  let of := fun (d : Dict) key => text shown (Dict.get d key)
  let error := Dict.get report "error"
  .ok ("هدف: " ++ of report "goal" ++ "\n" ++ "وضعیت نهایی: " ++ of report "status" ++
    (if error.truthy then " — " ++ text shown error else "") ++ "\n\n" ++
    "مراحل:\n" ++ (if steps = "" then "—" else steps) ++ "\n\n" ++
    "نتیجه‌ی خزش:\n" ++ "- امتیاز کلی: " ++ of headline "overall_score" ++ " از ۱۰۰ (رتبه " ++
    of crawl "grade" ++ ")\n" ++ "- تعداد ایرادها: " ++ of headline "total_issues" ++ "\n" ++
    "- صفحات خزیده‌شده: " ++ of crawl "pages_crawled" ++ "\n\n" ++
    "نتیجه‌ی تحقیق کلمات کلیدی:\n" ++ "- عبارت اولیه: " ++
    text shown ((Dict.get keywords "seed").orElse (.str "—")) ++ "\n" ++
    "- تعداد کلمات یافت‌شده: " ++ of headline "keywords_found" ++ "\n" ++
    "- خوشه‌ها: " ++ of keywords "cluster_count" ++ "\n" ++
    "- نمونه: " ++ (if words = "" then "—" else words) ++ "\n\n" ++
    "نتیجه‌ی بررسی جایگاه:\n" ++ "- دامنه: " ++
    text shown ((Dict.get rankings "target_domain").orElse (.str "—")) ++ "\n" ++
    "- بررسی‌شده: " ++ of rankings "keywords_checked" ++ " | دیده‌شده در نتایج: " ++
    of headline "keywords_ranked" ++ " | میانگین جایگاه: " ++ of headline "average_position" ++
    "\n" ++
    "- فرصت‌ها: " ++ dumped ((Dict.get rankings "opportunities").orElse (.arr [])) ++ "\n" ++
    "- رقبا: " ++ dumped ((Dict.get rankings "top_competitors").orElse (.arr [])) ++ "\n\n" ++
    "توجه: «جایگاه خالی» یعنی سایت در صفحه‌ی نتایجی که بررسی شد پیدا نشد، نه اینکه " ++
    "قطعاً در هیچ جایگاهی نیست. عدد «فرصت» هم اولویت نسبی است، نه پیش‌بینی ترافیک.\n\n" ++
    "بر اساس دقیقاً همین داده‌ها:\n" ++
    "۱) وضعیت سئوی این سایت را در ۳ تا ۵ جمله خلاصه کن.\n" ++
    "۲) سه تا پنج اقدام بعدی را به ترتیب اولویت بنویس، با تخمین تلاش و اثر.\n" ++
    "۳) بگو این گزارش درباره‌ی چه چیزهایی نمی‌تواند قضاوت کند.")

/-- `str(answer.get("summary") or "").strip()`. -/
def written (answer : Dict) : String :=
  strip (text shown ((Dict.get answer "summary").orElse (.str "")))

/-- The summary for an answer of the model. -/
def answered (base answer : Dict) : Dict :=
  if written shown answer = "" then
    Dict.set base "note" (.str "پاسخ مدل خلاصه‌ای نداشت؛ خلاصه‌ی قانون‌محور استفاده شد.")
  else
    [("source", .str "ai"), ("text_fa", .str (written shown answer)),
      ("next_actions", (Dict.get answer "next_actions").orElse (Dict.get base "next_actions")),
      ("watch_outs", (Dict.get answer "watch_outs").orElse (.arr [])), ("note", .null)]

/-- `enrich`. The model was not asked, was unavailable for a reason, or gave an answer. -/
def enrich (dumped : Json → String) (asked : Option (Except String Dict)) (report : Dict) :
    Except Exn Dict := do
  let base ← deterministic shown report
  match asked with
  | none =>
      .ok (Dict.set base "note"
        (.str "ANTHROPIC_API_KEY تنظیم نشده؛ خلاصه‌ی قانون‌محور استفاده شد."))
  | some outcome => do
      let _ ← prompt shown dumped report
      match outcome with
      | .error reason =>
          .ok (Dict.set base "note" (.str ("خلاصه‌ی هوش مصنوعی ساخته نشد: " ++ reason)))
      | .ok answer => .ok (answered shown base answer)

end Summaries

end SeoPlatform.Orchestrator.Summaries
