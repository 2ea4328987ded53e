import SeoPlatform.Crawler.Fetching
import SeoPlatform.Engine.OrphanRule
import SeoPlatform.Foundation.ExceptFlow
import SeoPlatform.Foundation.Mapping

namespace SeoPlatform.Engine.Hreflang

open SeoPlatform.Crawler.Fetching
open SeoPlatform.Crawler.Models
open SeoPlatform.Engine.AuditReport
open SeoPlatform.Engine.OrphanRule (sample)
open SeoPlatform.Foundation.ExceptFlow
open SeoPlatform.Foundation.Mapping
open SeoPlatform.Foundation.UrlText
open SeoPlatform.Shared.Exceptions

section Codes

-- `\d` takes the decimal digits of every script
variable (isDecimal : Char → Bool)

def isRegion : List Char → Bool
  | ['-', a, b] => isAsciiLetter a && isAsciiLetter b
  | ['-', a, b, c] => isDecimal a && isDecimal b && isDecimal c
  | _ => false

def isScript : List Char → Bool
  | ['-', a, b, c, d] => [a, b, c, d].all isAsciiLetter
  | _ => false

/-- A language, optionally a script, optionally a region. -/
def isCode (cs : List Char) : Bool :=
  [2, 3].any fun n =>
    let language := cs.take n
    let rest := cs.drop n
    language.length == n && language.all (fun c => 'a' ≤ c && c ≤ 'z') &&
      (rest.isEmpty || isRegion isDecimal rest ||
        (isScript (rest.take 5) && ((rest.drop 5).isEmpty || isRegion isDecimal (rest.drop 5))))

/-- `HREFLANG_RE.match`. One line break may end the text. -/
def matchesHreflang (code : String) : Bool :=
  isCode isDecimal code.toList ||
    (code.toList.getLast? == some '\n' && isCode isDecimal code.toList.dropLast)

end Codes

section Findings

variable (rules : TextRules) (isDecimal : Char → Bool)

/-- `page.final_url or page.url`. -/
def address (page : PageData) : String := if page.finalUrl = "" then page.url else page.finalUrl

def isDefault (code : String) : Bool := rules.lower code == "x-default"

/-- What a page with alternates adds to the lists of the rule. -/
structure Findings where
  page : PageData
  invalid : List String
  noSelf : Bool
  noDefault : Bool
  unreciprocated : List String

/-- The alternates of a page that were crawled, list alternates and do not point back. -/
def unreciprocatedFrom (byUrl : Dictionary String PageData) (current : String) :
    List (String × String) → Except Exn (List String)
  | [] => .ok []
  | (_, href) :: rest => do
      let key ← normalizeUrl rules href
      match byUrl.get? key with
      | none => unreciprocatedFrom byUrl current rest
      | some target =>
          if target.hreflang.isEmpty then unreciprocatedFrom byUrl current rest
          else do
            let back ← target.hreflang.mapM fun entry => normalizeUrl rules entry.2
            let others ← unreciprocatedFrom byUrl current rest
            .ok (if current ∈ back then others else href :: others)

def findingsOf (byUrl : Dictionary String PageData) (page : PageData) : Except Exn Findings := do
  let current ← normalizeUrl rules (address page)
  let targets ← page.hreflang.mapM fun entry => normalizeUrl rules entry.2
  let unreciprocated ← unreciprocatedFrom rules byUrl current page.hreflang
  .ok {
    page := page
    invalid := (page.hreflang.map Prod.fst).filter fun code =>
      !isDefault rules code && !matchesHreflang isDecimal code
    noSelf := !targets.contains current
    noDefault := !(page.hreflang.map Prod.fst).any (isDefault rules)
    unreciprocated := unreciprocated }

def pagesWith (ctx : SiteContext) : List PageData :=
  (ctx.htmlPages rules).filter fun page => !page.hreflang.isEmpty

/-- The HTML pages by their final addresses, the later ones over the earlier ones. -/
def byUrl (ctx : SiteContext) : Except Exn (Dictionary String PageData) := do
  let pairs ← (ctx.htmlPages rules).mapM fun page => do
    .ok (← normalizeUrl rules (address page), page)
  .ok (.ofPairs pairs)

/-- The loop of `check_hreflang`. -/
def findings (ctx : SiteContext) : Except Exn (List Findings) :=
  if (pagesWith rules ctx).isEmpty then .ok []
  else do
    let byUrl ← byUrl rules ctx
    (pagesWith rules ctx).mapM (findingsOf rules isDecimal byUrl)

end Findings

section Issues

def docsHreflang : String :=
  "https://developers.google.com/search/docs/specialty/international/localized-versions"

def invalidIssue (invalid : List String) : Issue where
  id := "hreflang-invalid-code"
  titleEn := "Invalid hreflang codes"
  titleFa := "کد hreflang نامعتبر است"
  detailFa := toString invalid.length ++
    " مقدار hreflang فرمت درستی ندارد. فرمت درست کد زبان ISO 639-1 است " ++
    "که می‌تواند با کد کشور ISO 3166-1 ترکیب شود — مثل fa، fa-IR یا en-US. " ++
    "نکته‌ی رایج: «fa-FA» یا «en-UK» غلط است (درستشان fa-IR و en-GB است)."
  fixFa :=
    "کدها را با استاندارد تطبیق بده. کد زبان همیشه اول می‌آید و کد کشور به‌تنهایی مجاز نیست."
  severity := .high
  category := .international
  urls := invalid
  evidence := sample invalid 4
  docs := docsHreflang

def noSelfIssue (noSelf : List String) : Issue where
  id := "hreflang-no-self"
  titleEn := "hreflang missing self-reference"
  titleFa := "hreflang به خودش اشاره نمی‌کند"
  detailFa := toString noSelf.length ++
    " صفحه در فهرست hreflang خود، خودش را ذکر نکرده است. گوگل صراحتاً " ++
    "می‌گوید هر صفحه باید یک hreflang خودارجاع داشته باشد، وگرنه کل مجموعه نادیده گرفته می‌شود."
  fixFa := "به فهرست hreflang هر صفحه، خود آن صفحه را با کد زبان خودش اضافه کن."
  severity := .high
  category := .international
  urls := noSelf
  evidence := sample noSelf 4
  docs := docsHreflang

def notReciprocalIssue (unreciprocated : List String) : Issue where
  id := "hreflang-not-reciprocal"
  titleEn := "hreflang links are not reciprocal"
  titleFa := "لینک‌های hreflang دوطرفه نیستند"
  detailFa := toString unreciprocated.length ++
    " رابطه‌ی hreflang یک‌طرفه است: صفحه‌ی A به B اشاره می‌کند ولی " ++
    "B به A برنمی‌گردد. گوگل رابطه‌های یک‌طرفه را کاملاً نادیده می‌گیرد."
  fixFa := "همه‌ی نسخه‌های زبانی باید فهرست hreflang یکسان و کاملی داشته باشند که همه‌ی " ++
    "نسخه‌ها از جمله خودشان را پوشش بدهد."
  severity := .high
  category := .international
  urls := unreciprocated
  evidence := sample unreciprocated 4
  docs := docsHreflang

def noDefaultIssue (noDefault : List String) : Issue where
  id := "hreflang-no-x-default"
  titleEn := "No x-default hreflang"
  titleFa := "مقدار x-default تعریف نشده"
  detailFa := "هیچ صفحه‌ای hreflang با مقدار x-default ندارد. این مقدار به گوگل می‌گوید برای " ++
    "کاربرانی که هیچ‌کدام از زبان‌های تعریف‌شده با آن‌ها مطابقت ندارد، کدام نسخه را نشان بدهد."
  fixFa :=
    "یک ورودی `<link rel=\"alternate\" hreflang=\"x-default\" href=\"...\">` اضافه کن که " ++
    "معمولاً به نسخه‌ی انگلیسی یا به صفحه‌ی انتخاب زبان اشاره می‌کند."
  severity := .medium
  category := .international
  urls := noDefault
  evidence := sample noDefault 3
  docs := docsHreflang

variable (rules : TextRules) (isDecimal : Char → Bool)

def invalidTexts (found : List Findings) : List String :=
  found.flatMap fun f => f.invalid.map fun code => f.page.url ++ " → کد «" ++ code ++ "»"

def oneWayPairs (found : List Findings) : List (PageData × String) :=
  found.flatMap fun f => f.unreciprocated.map fun href => (f.page, href)

def pairText (pair : PageData × String) : String := pair.1.url ++ " ↔ " ++ pair.2

/-- The rule `hreflang`. -/
def checkHreflang (ctx : SiteContext) : Except Exn (List Issue) := do
  let found ← findings rules isDecimal ctx
  let invalid := invalidTexts found
  let noSelf := (found.filter Findings.noSelf).map fun f => f.page.url
  let noDefault := (found.filter Findings.noDefault).map fun f => f.page.url
  let unreciprocated := (oneWayPairs found).map pairText
  .ok ((if invalid = [] then [] else [invalidIssue invalid]) ++
    (if noSelf = [] then [] else [noSelfIssue noSelf]) ++
    (if unreciprocated = [] then [] else [notReciprocalIssue unreciprocated]) ++
    (if noDefault ≠ [] ∧ noDefault.length = (pagesWith rules ctx).length then
      [noDefaultIssue noDefault]
    else []))

end Issues

section OneWay

variable (rules : TextRules) (isDecimal : Char → Bool)

/-- The HTML page that was crawled at an address, the last of them where there are some. -/
def crawledAt (ctx : SiteContext) (key : String) : Option PageData :=
  (ctx.htmlPages rules).reverse.find? fun page => normalizeUrl rules (address page) = .ok key

/-- A page lists an alternate that was crawled and that does not list the page. -/
structure OneWay (ctx : SiteContext) (page : PageData) (href : String) (target : PageData) :
    Prop where
  html : page ∈ ctx.htmlPages rules
  lists : href ∈ page.hreflang.map Prod.snd
  crawled : ∃ key, normalizeUrl rules href = .ok key ∧ crawledAt rules ctx key = some target
  silent : ∀ entry ∈ target.hreflang,
    normalizeUrl rules entry.2 ≠ normalizeUrl rules (address page)

/-- The addresses of the HTML pages and of their alternates are urls. -/
def Parses (ctx : SiteContext) : Prop :=
  ∀ page ∈ ctx.htmlPages rules, (∃ key, normalizeUrl rules (address page) = .ok key) ∧
    ∀ entry ∈ page.hreflang, ∃ key, normalizeUrl rules entry.2 = .ok key

/-- The issues of a rule. One that raises has none. -/
def issuesOf (outcome : Except Exn (List Issue)) : List Issue := outcome.toOption.getD []

def reported (ctx : SiteContext) : List (PageData × String) :=
  oneWayPairs ((findings rules isDecimal ctx).toOption.getD [])

variable {rules isDecimal}

def keyOf (rules : TextRules) (url : String) : String := (normalizeUrl rules url).toOption.getD ""

theorem normalizeUrl_eq {url : String} (h : ∃ key, normalizeUrl rules url = .ok key) :
    normalizeUrl rules url = .ok (keyOf rules url) := by
  obtain ⟨key, hkey⟩ := h
  unfold keyOf
  rw [hkey]
  rfl

theorem hreflang_ne_nil {page : PageData} {href : String}
    (h : href ∈ page.hreflang.map Prod.snd) : page.hreflang ≠ [] := by
  intro hnone
  rw [hnone] at h
  cases h

theorem mem_pagesWith_iff {ctx : SiteContext} {page : PageData} :
    page ∈ pagesWith rules ctx ↔ page ∈ ctx.htmlPages rules ∧ page.hreflang ≠ [] := by
  unfold pagesWith
  rw [List.mem_filter]
  simp

theorem byUrl_spec {ctx : SiteContext} (h : Parses rules ctx) :
    ∃ pages, byUrl rules ctx = .ok pages ∧ ∀ key, pages.get? key = crawledAt rules ctx key := by
  have hpairs : ((ctx.htmlPages rules).mapM fun page => do
      .ok (← normalizeUrl rules (address page), page)) =
        .ok ((ctx.htmlPages rules).map fun page => (keyOf rules (address page), page)) := by
    apply mapM_ok
    intro page hpage
    rw [normalizeUrl_eq (h page hpage).1]
    rfl
  refine ⟨.ofPairs ((ctx.htmlPages rules).map fun page => (keyOf rules (address page), page)),
    ?_, ?_⟩
  · unfold byUrl
    rw [hpairs]
    rfl
  · intro key
    rw [Dictionary.get?_ofPairs, ← List.map_reverse, Dictionary.lookup_map_keyed]
    unfold crawledAt
    rw [← List.head?_filter, ← List.head?_filter]
    apply congrArg
    apply List.filter_congr
    intro page hpage
    rw [normalizeUrl_eq (h page (List.mem_reverse.mp hpage)).1]
    simp

/-- What the loop takes for an alternate that does not answer. -/
def Unanswered (rules : TextRules) (ctx : SiteContext) (current href : String) : Prop :=
  ∃ target, crawledAt rules ctx (keyOf rules href) = some target ∧ target.hreflang ≠ [] ∧
    ∀ entry ∈ target.hreflang, normalizeUrl rules entry.2 ≠ .ok current

theorem mem_skip_iff {P : String → Prop} {kept hrefs : List String}
    (h : ∀ href, href ∈ kept ↔ href ∈ hrefs ∧ P href) {first : String} (hfirst : ¬ P first)
    (href : String) : href ∈ kept ↔ href ∈ first :: hrefs ∧ P href := by
  rw [h, List.mem_cons]
  refine ⟨fun ⟨hlater, hP⟩ => ⟨Or.inr hlater, hP⟩, ?_⟩
  rintro ⟨rfl | hlater, hP⟩
  · exact absurd hP hfirst
  · exact ⟨hlater, hP⟩

theorem mem_keep_iff {P : String → Prop} {kept hrefs : List String}
    (h : ∀ href, href ∈ kept ↔ href ∈ hrefs ∧ P href) {first : String} (hfirst : P first)
    (href : String) : href ∈ first :: kept ↔ href ∈ first :: hrefs ∧ P href := by
  rw [List.mem_cons, h, List.mem_cons]
  constructor
  · rintro (rfl | ⟨hlater, hP⟩)
    · exact ⟨Or.inl rfl, hfirst⟩
    · exact ⟨Or.inr hlater, hP⟩
  · rintro ⟨rfl | hlater, hP⟩
    · exact Or.inl rfl
    · exact Or.inr ⟨hlater, hP⟩

theorem unreciprocatedFrom_spec {ctx : SiteContext} (h : Parses rules ctx)
    {pages : Dictionary String PageData} (hpages : ∀ key, pages.get? key = crawledAt rules ctx key)
    (current : String) (entries : List (String × String))
    (hentries : ∀ entry ∈ entries, ∃ key, normalizeUrl rules entry.2 = .ok key) :
    ∃ hrefs, unreciprocatedFrom rules pages current entries = .ok hrefs ∧
      ∀ href, href ∈ hrefs ↔
        href ∈ entries.map Prod.snd ∧ Unanswered rules ctx current href := by
  induction entries with
  | nil => exact ⟨[], rfl, by simp⟩
  | cons entry rest ih =>
      obtain ⟨code, href⟩ := entry
      rw [List.forall_mem_cons] at hentries
      obtain ⟨hrefs, hrest, hmem⟩ := ih hentries.2
      have hkey : normalizeUrl rules href = .ok (keyOf rules href) := normalizeUrl_eq hentries.1
      unfold unreciprocatedFrom
      rw [hkey]
      simp only [bind, Except.bind, hpages]
      cases hcrawled : crawledAt rules ctx (keyOf rules href) with
      | none =>
          refine ⟨hrefs, hrest, mem_skip_iff hmem ?_⟩
          rintro ⟨target, htarget, -⟩
          rw [hcrawled] at htarget
          cases htarget
      | some target =>
          have honly : ∀ other, crawledAt rules ctx (keyOf rules href) = some other →
              other = target := by
            intro other hother
            rw [hcrawled] at hother
            exact (Option.some.inj hother).symm
          dsimp only
          by_cases hempty : target.hreflang = []
          · refine ⟨hrefs, ?_, mem_skip_iff hmem ?_⟩
            · rw [if_pos (by simp [hempty])]
              exact hrest
            · rintro ⟨other, hother, hsome, -⟩
              exact hsome (honly other hother ▸ hempty)
          · have hthere : target ∈ ctx.htmlPages rules :=
              List.mem_reverse.mp (List.mem_of_find?_eq_some hcrawled)
            have hback : target.hreflang.mapM (fun entry => normalizeUrl rules entry.2) =
                .ok (target.hreflang.map fun entry => keyOf rules entry.2) :=
              mapM_ok fun entry hentry => normalizeUrl_eq ((h target hthere).2 entry hentry)
            have hiff : current ∈ target.hreflang.map (fun entry => keyOf rules entry.2) ↔
                ∃ entry ∈ target.hreflang, normalizeUrl rules entry.2 = .ok current := by
              rw [List.mem_map]
              refine exists_congr fun entry => and_congr_right fun hentry => ?_
              rw [normalizeUrl_eq ((h target hthere).2 entry hentry), Except.ok.injEq]
            rw [if_neg (by simp [hempty]), hback, hrest]
            dsimp only
            by_cases hanswers :
                current ∈ target.hreflang.map fun entry => keyOf rules entry.2
            · refine ⟨hrefs, by rw [if_pos hanswers], mem_skip_iff hmem ?_⟩
              rintro ⟨other, hother, -, hsilent⟩
              obtain ⟨entry, hentry, hsame⟩ := hiff.mp hanswers
              exact hsilent entry (honly other hother ▸ hentry) hsame
            · refine ⟨href :: hrefs, by rw [if_neg hanswers], mem_keep_iff hmem ?_⟩
              exact ⟨target, hcrawled, hempty,
                fun entry hentry hsame => hanswers (hiff.mpr ⟨entry, hentry, hsame⟩)⟩

variable (isDecimal) in
theorem findingsOf_spec {ctx : SiteContext} (h : Parses rules ctx)
    {pages : Dictionary String PageData} (hpages : ∀ key, pages.get? key = crawledAt rules ctx key)
    {page : PageData} (hpage : page ∈ ctx.htmlPages rules) :
    ∃ found, findingsOf rules isDecimal pages page = .ok found ∧ found.page = page ∧
      ∀ href, href ∈ found.unreciprocated ↔ href ∈ page.hreflang.map Prod.snd ∧
        Unanswered rules ctx (keyOf rules (address page)) href := by
  obtain ⟨haddress, hentries⟩ := h page hpage
  obtain ⟨hrefs, hhrefs, hmem⟩ := unreciprocatedFrom_spec h hpages
    (keyOf rules (address page)) page.hreflang hentries
  have htargets : page.hreflang.mapM (fun entry => normalizeUrl rules entry.2) =
      .ok (page.hreflang.map fun entry => keyOf rules entry.2) :=
    mapM_ok fun entry hentry => normalizeUrl_eq (hentries entry hentry)
  unfold findingsOf
  rw [normalizeUrl_eq haddress, htargets]
  simp only [bind, Except.bind, hhrefs]
  exact ⟨_, rfl, rfl, hmem⟩

variable (isDecimal) in
theorem findings_spec {ctx : SiteContext} (h : Parses rules ctx) :
    ∃ pages found, (∀ key, pages.get? key = crawledAt rules ctx key) ∧
      findings rules isDecimal ctx = .ok found ∧
        (pagesWith rules ctx).mapM (findingsOf rules isDecimal pages) = .ok found := by
  obtain ⟨pages, hbyUrl, hpages⟩ := byUrl_spec h
  have hmade : ∃ found, (pagesWith rules ctx).mapM (findingsOf rules isDecimal pages) =
      .ok found := by
    rw [exists_mapM_iff]
    intro page hpage
    obtain ⟨found, hfound, -⟩ :=
      findingsOf_spec isDecimal h hpages (mem_pagesWith_iff.mp hpage).1
    exact ⟨found, hfound⟩
  obtain ⟨found, hfound⟩ := hmade
  refine ⟨pages, found, hpages, ?_, hfound⟩
  unfold findings
  split
  · rename_i hnone
    rw [List.isEmpty_iff.mp hnone] at hfound
    exact hfound
  · rw [hbyUrl]
    exact hfound

theorem mem_reported_iff {ctx : SiteContext} (h : Parses rules ctx) {page : PageData}
    {href : String} :
    (page, href) ∈ reported rules isDecimal ctx ↔
      ∃ target, OneWay rules ctx page href target ∧ target.hreflang ≠ [] := by
  obtain ⟨pages, found, hpages, hfindings, hmade⟩ := findings_spec isDecimal h
  unfold reported oneWayPairs
  rw [hfindings, List.mem_flatMap]
  constructor
  · rintro ⟨f, hf, hpair⟩
    obtain ⟨href, hhref, heq⟩ := List.mem_map.mp hpair
    obtain ⟨source, hsource, hof⟩ := exists_of_mem_mapM hmade hf
    obtain ⟨hhtml, -⟩ := mem_pagesWith_iff.mp hsource
    obtain ⟨f', hf', hpage, hmem⟩ := findingsOf_spec isDecimal h hpages hhtml
    rw [hof] at hf'
    obtain rfl := Except.ok.inj hf'
    obtain ⟨rfl, rfl⟩ := Prod.mk.inj heq
    obtain ⟨hlists, target, hcrawled, hsome, hsilent⟩ := (hmem href).mp hhref
    obtain ⟨entry, hentry, hhref⟩ := List.mem_map.mp hlists
    refine ⟨target, ⟨hpage ▸ hhtml, hpage ▸ hlists, ⟨_, ?_, hcrawled⟩, ?_⟩, hsome⟩
    · exact normalizeUrl_eq (hhref ▸ (h source hhtml).2 entry hentry)
    · rw [hpage, normalizeUrl_eq (h source hhtml).1]
      exact hsilent
  · rintro ⟨target, honeWay, hsome⟩
    obtain ⟨f, hf, hof⟩ := exists_mem_of_mapM hmade
      (mem_pagesWith_iff.mpr ⟨honeWay.html, hreflang_ne_nil honeWay.lists⟩)
    obtain ⟨f', hf', hpage, hmem⟩ := findingsOf_spec isDecimal h hpages honeWay.html
    rw [hof] at hf'
    obtain rfl := Except.ok.inj hf'
    obtain ⟨key, hkey, hcrawled⟩ := honeWay.crawled
    have hsame : keyOf rules href = key := by
      have heq := normalizeUrl_eq ⟨key, hkey⟩
      rw [hkey] at heq
      exact (Except.ok.inj heq).symm
    have hsilent := honeWay.silent
    rw [normalizeUrl_eq (h page honeWay.html).1] at hsilent
    refine ⟨f, hf, List.mem_map.mpr ⟨href, (hmem href).mpr ⟨honeWay.lists, target, ?_, hsome,
      hsilent⟩, by rw [hpage]⟩⟩
    rw [hsame]
    exact hcrawled

/-- Where an address is no url, the rule raises and reports no pair. -/
theorem parses_of_mem_reported {ctx : SiteContext} {pair : PageData × String}
    (h : pair ∈ reported rules isDecimal ctx) : Parses rules ctx := by
  unfold reported at h
  cases hfindings : findings rules isDecimal ctx with
  | error e =>
      rw [hfindings] at h
      cases h
  | ok found =>
      have hread := hfindings
      rw [hfindings] at h
      unfold findings at hread
      split at hread
      · obtain rfl := Except.ok.inj hread
        cases h
      · obtain ⟨pages, hbyUrl, hmade⟩ := ok_of_bind hread
        obtain ⟨pairs, hpairs, -⟩ := ok_of_bind hbyUrl
        intro page hpage
        obtain ⟨keyed, -, hkeyed⟩ := exists_mem_of_mapM hpairs hpage
        obtain ⟨key, hkey, -⟩ := ok_of_bind hkeyed
        refine ⟨⟨key, hkey⟩, ?_⟩
        intro entry hentry
        obtain ⟨f, -, hof⟩ := exists_mem_of_mapM hmade
          (mem_pagesWith_iff.mpr ⟨hpage, List.ne_nil_of_mem hentry⟩)
        obtain ⟨current, -, hof⟩ := ok_of_bind hof
        obtain ⟨targets, htargets, -⟩ := ok_of_bind hof
        exact exists_mapM_iff.mp ⟨targets, htargets⟩ entry hentry

theorem filter_of_other {issues : List Issue} {issue : Issue}
    (h : issues = [] ∨ issues = [issue]) (hid : issue.id ≠ "hreflang-not-reciprocal") :
    issues.filter (fun issue => issue.id = "hreflang-not-reciprocal") = [] := by
  rcases h with rfl | rfl
  · rfl
  · exact List.filter_cons_of_neg (by simpa using hid)

/-- The issue on one-way alternates lists the pairs that are reported. -/
theorem urls_notReciprocal (ctx : SiteContext) :
    ((issuesOf (checkHreflang rules isDecimal ctx)).filter fun issue =>
      issue.id = "hreflang-not-reciprocal").flatMap Issue.urls =
        (reported rules isDecimal ctx).map pairText := by
  unfold reported issuesOf checkHreflang
  cases findings rules isDecimal ctx with
  | error e => rfl
  | ok found =>
      have hinvalid : "hreflang-invalid-code" ≠ "hreflang-not-reciprocal" := by decide
      have hnoSelf : "hreflang-no-self" ≠ "hreflang-not-reciprocal" := by decide
      have hnoDefault : "hreflang-no-x-default" ≠ "hreflang-not-reciprocal" := by decide
      simp only [bind, Except.bind, Except.toOption, Option.getD_some, List.filter_append]
      rw [filter_of_other (ite_eq_or_eq ..) hinvalid, filter_of_other (ite_eq_or_eq ..) hnoSelf,
        filter_of_other (ite_eq_or_eq ..).symm hnoDefault, List.append_nil, List.nil_append,
        List.nil_append]
      split
      · rename_i hnone
        rw [hnone]
        rfl
      · have hthis : [notReciprocalIssue ((oneWayPairs found).map pairText)].filter
            (fun issue => issue.id = "hreflang-not-reciprocal") =
              [notReciprocalIssue ((oneWayPairs found).map pairText)] :=
          List.filter_cons_of_pos (decide_eq_true rfl)
        rw [hthis, List.flatMap_singleton]
        rfl

/-- The rule reports the one-way pairs exactly when the target of each of them lists some
alternate, and all addresses are urls where there is one. -/
theorem reported_exact_iff (rules : TextRules) (isDecimal : Char → Bool) (ctx : SiteContext) :
    ((issuesOf (checkHreflang rules isDecimal ctx)).filter fun issue =>
        issue.id = "hreflang-not-reciprocal").flatMap Issue.urls =
          (reported rules isDecimal ctx).map pairText ∧
      ((∀ page href, (page, href) ∈ reported rules isDecimal ctx ↔
          ∃ target, OneWay rules ctx page href target) ↔
        ∀ page href target, OneWay rules ctx page href target →
          target.hreflang ≠ [] ∧ Parses rules ctx) := by
  refine ⟨urls_notReciprocal ctx, ?_, ?_⟩
  · intro hexact page href target honeWay
    have hreported := (hexact page href).mpr ⟨target, honeWay⟩
    have hparses := parses_of_mem_reported hreported
    obtain ⟨other, hother, hsome⟩ := (mem_reported_iff hparses).mp hreported
    obtain ⟨key, hkey, hcrawled⟩ := honeWay.crawled
    obtain ⟨key', hkey', hcrawled'⟩ := hother.crawled
    rw [hkey] at hkey'
    obtain rfl := Except.ok.inj hkey'
    rw [hcrawled] at hcrawled'
    obtain rfl := Option.some.inj hcrawled'
    exact ⟨hsome, hparses⟩
  · intro hlisted page href
    constructor
    · intro hreported
      obtain ⟨target, honeWay, -⟩ :=
        (mem_reported_iff (parses_of_mem_reported hreported)).mp hreported
      exact ⟨target, honeWay⟩
    · rintro ⟨target, honeWay⟩
      obtain ⟨hsome, hparses⟩ := hlisted page href target honeWay
      exact (mem_reported_iff hparses).mpr ⟨target, honeWay, hsome⟩

def asciiRules : TextRules where
  lower := String.map Char.toLower
  casefold := String.map Char.toLower
  netlocFault _ := none

def persian : PageData where
  url := "https://a.ir/"
  statusCode := 200
  contentType := "text/html"
  hreflang := [("fa", "https://a.ir/"), ("en", "https://a.ir/en")]

/-- The English page lists no alternates at all. -/
def english : PageData where
  url := "https://a.ir/en"
  statusCode := 200
  contentType := "text/html"

def bilingual : SiteContext where
  startUrl := "https://a.ir/"
  pages := [persian, english]

theorem not_reported_silent :
    ¬ ∀ page href, (page, href) ∈ reported asciiRules isDigit bilingual ↔
      ∃ target, OneWay asciiRules bilingual page href target := by
  intro hexact
  have hnone : reported asciiRules isDigit bilingual = [] := by decide +kernel
  have honeWay : OneWay asciiRules bilingual persian "https://a.ir/en" english :=
    ⟨by decide +kernel, by decide, ⟨"https://a.ir/en", by decide +kernel, by decide +kernel⟩,
      fun _ hentry => absurd hentry List.not_mem_nil⟩
  have hreported := (hexact persian "https://a.ir/en").mpr ⟨english, honeWay⟩
  rw [hnone] at hreported
  cases hreported

end OneWay

end SeoPlatform.Engine.Hreflang
