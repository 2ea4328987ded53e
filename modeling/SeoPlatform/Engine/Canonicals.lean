import SeoPlatform.Engine.Hreflang

namespace SeoPlatform.Engine.Canonicals

open SeoPlatform.Crawler.Fetching
open SeoPlatform.Crawler.Models
open SeoPlatform.Engine.AuditReport
open SeoPlatform.Engine.Hreflang (address asciiRules issuesOf)
open SeoPlatform.Engine.OrphanRule (sample)
open SeoPlatform.Foundation.ExceptFlow
open SeoPlatform.Foundation.UrlText
open SeoPlatform.Shared.Exceptions

section Rule

variable (rules : TextRules)

/-- What the rule makes of the canonical of a page. -/
inductive Verdict where
  | missing
  | external
  | toNoindex
  | mismatched
  | own
  deriving DecidableEq, Repr

def verdictOf (origin : String) (noindexUrls : List String) (page : PageData) :
    Except Exn Verdict :=
  match page.canonical.filter (· ≠ "") with
  | none => .ok .missing
  | some text => do
      let canonical ← normalizeUrl rules text
      let current ← normalizeUrl rules (address page)
      let inside ← sameSite rules canonical origin true
      .ok (if !inside then .external
        else if canonical = current then .own
        else if canonical ∈ noindexUrls then .toNoindex
        else .mismatched)

def noindexPages (ctx : SiteContext) : List PageData :=
  (ctx.htmlPages rules).filter (PageData.isNoindex rules)

/-- The loop of `check_canonicals`. -/
def verdicts (ctx : SiteContext) : Except Exn (List (PageData × Verdict)) := do
  let noindexUrls ← (noindexPages rules ctx).mapM fun page => normalizeUrl rules page.url
  (ctx.indexablePages rules).mapM fun page => do
    .ok (page, ← verdictOf rules ctx.origin noindexUrls page)

def docsCanonical : String :=
  "https://developers.google.com/search/docs/crawling-indexing/consolidate-duplicate-urls"

def missingIssue (missing : List String) : Issue where
  id := "canonical-missing"
  titleEn := "Missing canonical tag"
  titleFa := "تگ canonical تعریف نشده"
  detailFa := toString missing.length ++
    " صفحه تگ rel=canonical ندارد. بدون آن، اگر همان محتوا از " ++
    "چند آدرس در دسترس باشد (با /، بدون /، با پارامتر UTM، http و https) گوگل " ++
    "خودش باید حدس بزند کدام نسخه اصلی است و ممکن است اشتباه انتخاب کند."
  fixFa :=
    "در <head> هر صفحه یک <link rel=\"canonical\" href=\"آدرس-مطلق-همان-صفحه\"> بگذار. " ++
    "حتماً آدرس مطلق و با پروتکل کامل باشد، نه نسبی."
  severity := .medium
  category := .indexing
  urls := missing
  evidence := sample missing 5
  docs := docsCanonical

def externalIssue (external : List String) : Issue where
  id := "canonical-external"
  titleEn := "Canonical points to another domain"
  titleFa := "canonical به دامنه‌ی دیگری اشاره می‌کند"
  detailFa := toString external.length ++
    " صفحه canonical خود را به دامنه‌ی دیگری داده است. این یعنی به " ++
    "گوگل می‌گویی «این صفحه را ایندکس نکن، نسخه‌ی اصلی جای دیگری است» — که اگر عمدی " ++
    "نباشد کل صفحه را از نتایج حذف می‌کند."
  fixFa := "اگر محتوا مال خودت است canonical را به آدرس همین دامنه اصلاح کن. اگر محتوای " ++
    "بازنشرشده است، این تنظیم درست است و نیازی به تغییر ندارد."
  severity := .critical
  category := .indexing
  urls := external
  evidence := sample external 3
  docs := docsCanonical

def toNoindexIssue (nonIndexableTarget : List String) : Issue where
  id := "canonical-to-noindex"
  titleEn := "Canonical points to a noindex page"
  titleFa := "canonical به صفحه‌ی noindex اشاره دارد"
  detailFa := toString nonIndexableTarget.length ++
    " صفحه canonical خود را به صفحه‌ای داده که خودش noindex است. " ++
    "این سیگنال متناقض است: گوگل نمی‌داند کدام نسخه را نگه دارد و معمولاً هر دو را کنار می‌گذارد."
  fixFa :=
    "یا noindex را از صفحه‌ی مقصد بردار، یا canonical را به یک صفحه‌ی قابل ایندکس تغییر بده."
  severity := .high
  category := .indexing
  urls := nonIndexableTarget
  evidence := sample nonIndexableTarget 3
  docs := docsCanonical

def mismatchIssue (mismatched : List String) : Issue where
  id := "canonical-mismatch"
  titleEn := "Canonical differs from page URL"
  titleFa := "canonical با آدرس خود صفحه فرق دارد"
  detailFa := toString mismatched.length ++
    " صفحه canonical خود را به آدرس دیگری داده‌اند. اگر این صفحات " ++
    "واقعاً نسخه‌ی تکراری هستند مشکلی نیست، اما اگر محتوای یکتا دارند از ایندکس خارج می‌شوند."
  fixFa := "فهرست را مرور کن: هر صفحه‌ای که محتوای مستقل دارد باید canonical به خودش بدهد."
  severity := .medium
  category := .indexing
  urls := mismatched
  evidence := sample mismatched 3
  docs := docsCanonical

def pagesOf (found : List (PageData × Verdict)) (wanted : List Verdict) : List PageData :=
  (found.filter fun entry => entry.2 ∈ wanted).map Prod.fst

def pairText (page : PageData) : String := page.url ++ " → " ++ page.canonical.getD "None"

/-- The rule `canonical`. -/
def checkCanonicals (ctx : SiteContext) : Except Exn (List Issue) := do
  let found ← verdicts rules ctx
  let missing := (pagesOf found [.missing]).map PageData.url
  let external := (pagesOf found [.external]).map pairText
  let mismatched := (pagesOf found [.toNoindex, .mismatched]).map pairText
  let nonIndexableTarget := (pagesOf found [.toNoindex]).map pairText
  .ok ((if missing = [] then [] else [missingIssue missing]) ++
    (if external = [] then [] else [externalIssue external]) ++
    (if nonIndexableTarget ≠ [] then [toNoindexIssue nonIndexableTarget]
    else if mismatched ≠ [] then [mismatchIssue mismatched]
    else []))

end Rule

section Listed

variable (rules : TextRules)

/-- The pages that a list of verdicts leads to, in the order of the issues. -/
def shown (found : List (PageData × Verdict)) : List PageData :=
  pagesOf found [.missing] ++ pagesOf found [.external] ++
    if pagesOf found [.toNoindex] ≠ [] then pagesOf found [.toNoindex]
    else pagesOf found [.toNoindex, .mismatched]

/-- The pages that are listed in an issue of the rule. -/
def listed (ctx : SiteContext) : List PageData :=
  shown ((verdicts rules ctx).toOption.getD [])

/-- How an issue of the rule lists a page. -/
def entryOf (page : PageData) : String :=
  if page.canonical.getD "" = "" then page.url else pairText page

/-- An indexable page whose canonical is another address of the same site. -/
structure Mismatched (ctx : SiteContext) (page : PageData) : Prop where
  indexable : page ∈ ctx.indexablePages rules
  elsewhere : ∃ text key current, page.canonical = some text ∧ text ≠ "" ∧
    normalizeUrl rules text = .ok key ∧ normalizeUrl rules (address page) = .ok current ∧
      sameSite rules key ctx.origin true = .ok true ∧ key ≠ current

/-- The canonical of a page is the address of one that asks not to be indexed. -/
def LeadsToNoindex (ctx : SiteContext) (page : PageData) : Prop :=
  ∃ text key, page.canonical = some text ∧ normalizeUrl rules text = .ok key ∧
    ∃ other ∈ noindexPages rules ctx, normalizeUrl rules other.url = .ok key

/-- The addresses that the rule reads are urls. -/
structure Parses (ctx : SiteContext) : Prop where
  noindex : ∀ page ∈ noindexPages rules ctx, ∃ key, normalizeUrl rules page.url = .ok key
  canonicals : ∀ page ∈ ctx.indexablePages rules, ∀ text, page.canonical = some text →
    text ≠ "" → ∃ key current inside, normalizeUrl rules text = .ok key ∧
      normalizeUrl rules (address page) = .ok current ∧
        sameSite rules key ctx.origin true = .ok inside

/-- No canonical of another page that leads to a noindex page stands in the way. -/
def Clear (ctx : SiteContext) (page : PageData) : Prop :=
  Parses rules ctx ∧ ∀ other, Mismatched rules ctx other → LeadsToNoindex rules ctx other →
    LeadsToNoindex rules ctx page

variable {rules}

/-- The verdicts, when the rule does not raise. -/
structure Found (rules : TextRules) (ctx : SiteContext) (noindexUrls : List String)
    (found : List (PageData × Verdict)) : Prop where
  noindex : (noindexPages rules ctx).mapM (fun page => normalizeUrl rules page.url) =
    .ok noindexUrls
  made : ((ctx.indexablePages rules).mapM fun page => do
    .ok (page, ← verdictOf rules ctx.origin noindexUrls page)) = .ok found
  verdicts : verdicts rules ctx = .ok found

theorem exists_found {ctx : SiteContext} {found : List (PageData × Verdict)}
    (h : verdicts rules ctx = .ok found) : ∃ noindexUrls, Found rules ctx noindexUrls found := by
  obtain ⟨noindexUrls, hnoindex, hmade⟩ := ok_of_bind (id h)
  exact ⟨noindexUrls, hnoindex, hmade, h⟩

theorem Found.mem_iff {ctx : SiteContext} {noindexUrls : List String}
    {found : List (PageData × Verdict)} (h : Found rules ctx noindexUrls found) {page : PageData}
    {wanted : List Verdict} :
    page ∈ pagesOf found wanted ↔ page ∈ ctx.indexablePages rules ∧
      ∃ verdict ∈ wanted, verdictOf rules ctx.origin noindexUrls page = .ok verdict := by
  unfold pagesOf
  rw [List.mem_map]
  constructor
  · rintro ⟨entry, hentry, rfl⟩
    obtain ⟨hfound, hwanted⟩ := List.mem_filter.mp hentry
    obtain ⟨page, hpage, hmade⟩ := exists_of_mem_mapM h.made hfound
    obtain ⟨verdict, hverdict, hmade⟩ := ok_of_bind hmade
    cases hmade
    exact ⟨hpage, verdict, of_decide_eq_true hwanted, hverdict⟩
  · rintro ⟨hpage, verdict, hwanted, hverdict⟩
    obtain ⟨entry, hentry, hmade⟩ := exists_mem_of_mapM h.made hpage
    rw [hverdict] at hmade
    cases hmade
    exact ⟨_, List.mem_filter.mpr ⟨hentry, decide_eq_true hwanted⟩, rfl⟩

theorem Found.mem_noindexUrls {ctx : SiteContext} {noindexUrls : List String}
    {found : List (PageData × Verdict)} (h : Found rules ctx noindexUrls found) {key : String} :
    key ∈ noindexUrls ↔
      ∃ other ∈ noindexPages rules ctx, normalizeUrl rules other.url = .ok key := by
  constructor
  · intro hkey
    exact exists_of_mem_mapM h.noindex hkey
  · rintro ⟨other, hother, hkey⟩
    obtain ⟨key', hmem, hkey'⟩ := exists_mem_of_mapM h.noindex hother
    rw [hkey] at hkey'
    obtain rfl := Except.ok.inj hkey'
    exact hmem

theorem filter_ne_empty {canonical : Option String} {text : String} (h : canonical = some text)
    (hsome : text ≠ "") : canonical.filter (· ≠ "") = some text := by
  rw [h, Option.filter_some, if_pos (decide_eq_true hsome)]

/-- The verdict on a page whose canonical is elsewhere on the site. -/
theorem Found.verdict_of_mismatched {ctx : SiteContext} {noindexUrls : List String}
    {found : List (PageData × Verdict)} (h : Found rules ctx noindexUrls found) {page : PageData}
    (hpage : Mismatched rules ctx page) :
    (LeadsToNoindex rules ctx page →
      verdictOf rules ctx.origin noindexUrls page = .ok .toNoindex) ∧
    (¬ LeadsToNoindex rules ctx page →
      verdictOf rules ctx.origin noindexUrls page = .ok .mismatched) := by
  obtain ⟨text, key, current, hcanonical, hsome, hkey, hcurrent, hinside, hne⟩ := hpage.elsewhere
  have hleads : LeadsToNoindex rules ctx page ↔ key ∈ noindexUrls := by
    rw [h.mem_noindexUrls]
    constructor
    · rintro ⟨text', key', hcanonical', hkey', hother⟩
      rw [hcanonical] at hcanonical'
      obtain rfl := Option.some.inj hcanonical'
      rw [hkey] at hkey'
      obtain rfl := Except.ok.inj hkey'
      exact hother
    · exact fun hother => ⟨text, key, hcanonical, hkey, hother⟩
  rw [hleads]
  unfold verdictOf
  rw [filter_ne_empty hcanonical hsome]
  simp only [bind, Except.bind, hkey, hcurrent, hinside]
  constructor
  · intro hmem
    simp [hne, hmem]
  · intro hmem
    simp [hne, hmem]

theorem Found.mismatched_of_verdict {ctx : SiteContext} {noindexUrls : List String}
    {found : List (PageData × Verdict)} (h : Found rules ctx noindexUrls found) {page : PageData}
    (hpage : page ∈ ctx.indexablePages rules)
    (hverdict : verdictOf rules ctx.origin noindexUrls page = .ok .toNoindex) :
    Mismatched rules ctx page ∧ LeadsToNoindex rules ctx page := by
  unfold verdictOf at hverdict
  split at hverdict
  · cases hverdict
  · rename_i text htext
    obtain ⟨hcanonical, hsome⟩ := Option.filter_eq_some_iff.mp htext
    obtain ⟨key, hkey, hverdict⟩ := ok_of_bind hverdict
    obtain ⟨current, hcurrent, hverdict⟩ := ok_of_bind hverdict
    obtain ⟨inside, hinside, hverdict⟩ := ok_of_bind hverdict
    have hbranch := Except.ok.inj hverdict
    split at hbranch
    · cases hbranch
    · rename_i hin
      split at hbranch
      · cases hbranch
      · rename_i hne
        split at hbranch
        · rename_i hmem
          refine ⟨⟨hpage, text, key, current, hcanonical, of_decide_eq_true hsome, hkey, hcurrent,
            ?_, hne⟩, text, key, hcanonical, hkey, h.mem_noindexUrls.mp hmem⟩
          rw [hinside]
          simpa using hin
        · cases hbranch

theorem parses_iff {ctx : SiteContext} :
    Parses rules ctx ↔ ∃ found, verdicts rules ctx = .ok found := by
  constructor
  · intro h
    obtain ⟨noindexUrls, hnoindex⟩ := exists_mapM_iff.mpr h.noindex
    have hmade : ∃ found, ((ctx.indexablePages rules).mapM fun page => do
        .ok (page, ← verdictOf rules ctx.origin noindexUrls page)) =
          (.ok found : Except Exn (List (PageData × Verdict))) := by
      rw [exists_mapM_iff]
      intro page hpage
      unfold verdictOf
      split
      · exact ⟨_, rfl⟩
      · rename_i text htext
        obtain ⟨hcanonical, hsome⟩ := Option.filter_eq_some_iff.mp htext
        obtain ⟨key, current, inside, hkey, hcurrent, hinside⟩ :=
          h.canonicals page hpage text hcanonical (of_decide_eq_true hsome)
        simp only [bind, Except.bind, hkey, hcurrent, hinside]
        exact ⟨_, rfl⟩
    obtain ⟨found, hfound⟩ := hmade
    refine ⟨found, ?_⟩
    unfold verdicts
    rw [hnoindex]
    exact hfound
  · rintro ⟨found, hverdicts⟩
    obtain ⟨noindexUrls, h⟩ := exists_found hverdicts
    refine ⟨exists_mapM_iff.mp ⟨_, h.noindex⟩, ?_⟩
    intro page hpage text hcanonical hsome
    obtain ⟨entry, -, hentry⟩ := exists_mem_of_mapM h.made hpage
    obtain ⟨verdict, hverdict, -⟩ := ok_of_bind hentry
    unfold verdictOf at hverdict
    rw [filter_ne_empty hcanonical hsome] at hverdict
    obtain ⟨key, hkey, hverdict⟩ := ok_of_bind hverdict
    obtain ⟨current, hcurrent, hverdict⟩ := ok_of_bind hverdict
    obtain ⟨inside, hinside, -⟩ := ok_of_bind hverdict
    exact ⟨key, current, inside, hkey, hcurrent, hinside⟩

/-- A page whose canonical is elsewhere on the site is listed when nothing stands in the
way. -/
theorem mem_listed_iff {ctx : SiteContext} {page : PageData} (hpage : Mismatched rules ctx page) :
    page ∈ listed rules ctx ↔ Clear rules ctx page := by
  unfold Clear
  rw [parses_iff]
  cases hverdicts : verdicts rules ctx with
  | error e =>
      have hnone : listed rules ctx = [] := by
        unfold listed
        rw [hverdicts]
        rfl
      simp [hnone]
  | ok found =>
      obtain ⟨noindexUrls, h⟩ := exists_found hverdicts
      have hshown : listed rules ctx = shown found := by
        unfold listed
        rw [hverdicts]
        rfl
      have hmem : ∀ verdict, verdictOf rules ctx.origin noindexUrls page = .ok verdict →
          ∀ wanted, page ∈ pagesOf found wanted ↔ verdict ∈ wanted := by
        intro verdict hverdict wanted
        rw [h.mem_iff, hverdict]
        simp [hpage.indexable]
      have hothers : pagesOf found [.toNoindex] = [] ↔
          ∀ other, Mismatched rules ctx other → ¬ LeadsToNoindex rules ctx other := by
        rw [List.eq_nil_iff_forall_not_mem]
        constructor
        · intro hnone other hother hleads
          exact hnone other (h.mem_iff.mpr ⟨hother.indexable, _, List.mem_singleton_self _,
            (h.verdict_of_mismatched hother).1 hleads⟩)
        · intro hnone other hother
          obtain ⟨hindexable, verdict, hwanted, hverdict⟩ := h.mem_iff.mp hother
          obtain rfl := List.mem_singleton.mp hwanted
          obtain ⟨hmismatched, hleads⟩ := h.mismatched_of_verdict hindexable hverdict
          exact hnone other hmismatched hleads
      rw [hshown]
      unfold shown
      by_cases hleads : LeadsToNoindex rules ctx page
      · have hpages := hmem _ ((h.verdict_of_mismatched hpage).1 hleads)
        have hfirst : page ∈ pagesOf found [.toNoindex] :=
          (hpages _).mpr (List.mem_singleton_self _)
        rw [if_pos (List.ne_nil_of_mem hfirst)]
        simp [hfirst, hleads]
      · have hpages := hmem _ ((h.verdict_of_mismatched hpage).2 hleads)
        by_cases hnone : pagesOf found [.toNoindex] = []
        · rw [if_neg (not_not_intro hnone)]
          simpa [hpages, hleads] using hothers.mp hnone
        · rw [if_pos hnone]
          simpa [hpages, hleads] using mt hothers.mpr hnone

theorem missing_iff {origin : String} {noindexUrls : List String} {page : PageData}
    {verdict : Verdict} (h : verdictOf rules origin noindexUrls page = .ok verdict) :
    verdict = .missing ↔ page.canonical.getD "" = "" := by
  unfold verdictOf at h
  split at h
  · rename_i hnone
    obtain rfl := Except.ok.inj h
    refine iff_of_true rfl ?_
    cases hcanonical : page.canonical with
    | none => rfl
    | some text =>
        rw [hcanonical, Option.filter_eq_none_iff] at hnone
        simpa using hnone
  · rename_i text htext
    obtain ⟨hcanonical, hsome⟩ := Option.filter_eq_some_iff.mp htext
    obtain ⟨key, -, h⟩ := ok_of_bind h
    obtain ⟨current, -, h⟩ := ok_of_bind h
    obtain ⟨inside, -, h⟩ := ok_of_bind h
    refine iff_of_false ?_ (by simpa [hcanonical] using hsome)
    rintro rfl
    have hbranch := Except.ok.inj h
    split_ifs at hbranch

theorem Found.map_entryOf {ctx : SiteContext} {noindexUrls : List String}
    {found : List (PageData × Verdict)} (h : Found rules ctx noindexUrls found)
    {wanted : List Verdict} (hwanted : .missing ∉ wanted) :
    (pagesOf found wanted).map entryOf = (pagesOf found wanted).map pairText := by
  apply List.map_congr_left
  intro page hpage
  obtain ⟨-, verdict, hmem, hverdict⟩ := h.mem_iff.mp hpage
  apply if_neg
  rw [← missing_iff hverdict]
  rintro rfl
  exact hwanted hmem

theorem Found.map_entryOf_missing {ctx : SiteContext} {noindexUrls : List String}
    {found : List (PageData × Verdict)} (h : Found rules ctx noindexUrls found) :
    (pagesOf found [.missing]).map entryOf = (pagesOf found [.missing]).map PageData.url := by
  apply List.map_congr_left
  intro page hpage
  obtain ⟨-, verdict, hmem, hverdict⟩ := h.mem_iff.mp hpage
  exact if_pos ((missing_iff hverdict).mp (List.mem_singleton.mp hmem))

theorem urls_checkCanonicals (ctx : SiteContext) :
    (issuesOf (checkCanonicals rules ctx)).flatMap Issue.urls =
      (listed rules ctx).map entryOf := by
  unfold listed checkCanonicals issuesOf
  cases hverdicts : verdicts rules ctx with
  | error e => rfl
  | ok found =>
      obtain ⟨noindexUrls, h⟩ := exists_found hverdicts
      have hissue : ∀ (texts : List String) (make : List String → Issue),
          (make texts).urls = texts →
            (if texts = [] then [] else [make texts]).flatMap Issue.urls = texts := by
        intro texts make hmake
        split
        · rename_i hnone
          rw [hnone]
          rfl
        · rw [List.flatMap_singleton, hmake]
      simp only [bind, Except.bind, Except.toOption, Option.getD_some, List.flatMap_append]
      rw [hissue _ missingIssue rfl, hissue _ externalIssue rfl]
      unfold shown
      rw [List.map_append, List.map_append, h.map_entryOf_missing, h.map_entryOf (by decide)]
      congr 1
      by_cases hnone : pagesOf found [.toNoindex] = []
      · rw [if_neg (by simp [hnone]), if_neg (not_not_intro hnone), h.map_entryOf (by decide)]
        rw [ite_not]
        exact hissue _ mismatchIssue rfl
      · rw [if_pos (by simpa using hnone), if_pos hnone, h.map_entryOf (by decide),
          List.flatMap_singleton]
        rfl

/-- The pages whose canonical is elsewhere on the site are all listed exactly when no two of
them differ in whether it leads to a noindex page, and a page stays listed in a site with
other pages exactly when it is not one that such a page newly stands in the way of. -/
theorem listed_iff (rules : TextRules) (ctx : SiteContext) :
    (issuesOf (checkCanonicals rules ctx)).flatMap Issue.urls =
        (listed rules ctx).map entryOf ∧
      ((∀ page, Mismatched rules ctx page → page ∈ listed rules ctx) ↔
        ∀ page, Mismatched rules ctx page → Clear rules ctx page) ∧
      ∀ ctx' page, Mismatched rules ctx page → Mismatched rules ctx' page →
        ((page ∈ listed rules ctx → page ∈ listed rules ctx') ↔
          (Clear rules ctx page → Clear rules ctx' page)) := by
  refine ⟨urls_checkCanonicals ctx, ?_, ?_⟩
  · exact forall_congr' fun page => imp_congr_right fun hpage => mem_listed_iff hpage
  · intro ctx' page hpage hpage'
    exact imp_congr (mem_listed_iff hpage) (mem_listed_iff hpage')

def pageAt (url : String) (canonical : String) : PageData where
  url := url
  statusCode := 200
  contentType := "text/html"
  canonical := some canonical

def shop : SiteContext where
  startUrl := "https://a.ir/"
  origin := "https://a.ir"
  pages := [pageAt "https://a.ir/red" "https://a.ir/"]

/-- The shop with a page whose canonical leads to one that asks not to be indexed. -/
def grownShop : SiteContext where
  startUrl := "https://a.ir/"
  origin := "https://a.ir"
  pages := shop.pages ++ [pageAt "https://a.ir/blue" "https://a.ir/old",
    { pageAt "https://a.ir/old" "https://a.ir/old" with metaRobots := "noindex" }]

theorem not_listed_beside_noindex :
    Mismatched asciiRules shop (pageAt "https://a.ir/red" "https://a.ir/") ∧
      pageAt "https://a.ir/red" "https://a.ir/" ∈ listed asciiRules shop ∧
      Mismatched asciiRules grownShop (pageAt "https://a.ir/red" "https://a.ir/") ∧
      pageAt "https://a.ir/red" "https://a.ir/" ∉ listed asciiRules grownShop := by
  have helsewhere : normalizeUrl asciiRules "https://a.ir/" = .ok "https://a.ir/" ∧
      normalizeUrl asciiRules "https://a.ir/red" = .ok "https://a.ir/red" ∧
      sameSite asciiRules "https://a.ir/" "https://a.ir" true = .ok true := by
    decide +kernel
  obtain ⟨hkey, hcurrent, hinside⟩ := helsewhere
  refine ⟨⟨by decide +kernel, ?_⟩, by decide +kernel, ⟨by decide +kernel, ?_⟩, by decide +kernel⟩
  · exact ⟨_, _, _, rfl, by decide, hkey, hcurrent, hinside, by decide⟩
  · exact ⟨_, _, _, rfl, by decide, hkey, hcurrent, hinside, by decide⟩

end Listed

end SeoPlatform.Engine.Canonicals
