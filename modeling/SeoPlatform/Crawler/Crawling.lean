import SeoPlatform.Crawler.Models
import SeoPlatform.Foundation.ThreadPool

namespace SeoPlatform.Crawler.Crawling

open SeoPlatform.Crawler.Fetching
open SeoPlatform.Crawler.Models
open SeoPlatform.Foundation.ThreadPool
open SeoPlatform.Foundation.UrlText
open SeoPlatform.Foundation.UrlParse
open SeoPlatform.Shared.Exceptions

structure CrawlConfig where
  startUrl : String
  maxPages : Nat := 50
  maxDepth : Nat := 3
  workers : Nat := 4
  followSubdomains : Bool := false
  checkExternalLinks : Bool := true
  maxExternalChecks : Nat := 40
  targetKeywords : List String := []

/-- The site, as the fetcher and the parser see it: what a url answers, whether
`robots.txt` allows it, and what is parsed out of a page. -/
structure Site where
  rules : TextRules
  robots : Fetcher
  fetch : String → Except Exn FetchResult
  checkStatus : String → Except Exn (Nat × Option String)
  allowed : String → Bool
  parsePage : PageData → String → Bool → Except Exn PageData

def skipExtensions : List String :=
  [".jpg", ".jpeg", ".png", ".gif", ".webp", ".avif", ".svg", ".ico", ".bmp", ".css", ".js",
   ".mjs", ".json", ".xml", ".txt", ".pdf", ".zip", ".rar", ".gz", ".mp4", ".mp3", ".wav", ".avi",
   ".mov", ".woff", ".woff2", ".ttf", ".eot", ".doc", ".docx", ".xls", ".xlsx", ".ppt", ".pptx",
   ".dmg", ".exe", ".apk"]

def isCrawlable (rules : TextRules) (url : String) : Except Exn Bool := do
  let parsed ← (urlparse rules url "").mapError .valueError
  let path := (rules.lower parsed.path).toList
  .ok (!skipExtensions.any fun extension => extension.toList.isSuffixOf path)

section Sitemaps

def isLineBreak (c : Char) : Bool :=
  let n := c.toNat
  (10 ≤ n && n ≤ 13) || (28 ≤ n && n ≤ 30) || n == 0x85 || n == 0x2028 || n == 0x2029

/-- The `Sitemap:` lines of `robots.txt`. -/
def robotsSitemaps (rules : TextRules) (robotsTxt : Option String) : List String :=
  ((robotsTxt.getD "").toList.splitOnP isLineBreak).filterMap fun line =>
    if leads "sitemap:" (rules.lower (strip (String.ofList line))) then
      let value := strip (String.ofList (partition ':' line).2.2)
      if value = "" then none else some value
    else none

/-- The text before the first occurrence of a tag, in either case, and after it. -/
def aroundTag (tag : List Char) : List Char → Option (List Char × List Char)
  | [] => none
  | c :: cs =>
      if tag.isPrefixOf ((c :: cs).map Char.toLower) then some ([], (c :: cs).drop tag.length)
      else (aroundTag tag cs).map fun (before, after) => (c :: before, after)

/-- The texts between `<loc>` and `</loc>`. Each takes characters, of which there
are `fuel`. -/
def locsIn : Nat → List Char → List String
  | 0, _ => []
  | fuel + 1, body =>
      match aroundTag "<loc>".toList body with
      | none => []
      | some (_, rest) =>
          match aroundTag "</loc>".toList rest with
          | none => []
          | some (inner, rest) => strip (String.ofList inner) :: locsIn fuel rest

/-- What one sitemap adds to what was found. -/
structure SitemapRead where
  children : List String := []
  locs : List String := []
  found : List String := []
  errors : List String := []
  deriving DecidableEq, Repr

def readSitemap (site : Site) (sitemapUrl : String) : Except Exn SitemapRead := do
  let result ← site.fetch sitemapUrl
  let body := result.text.toList
  if result.error.isSome || result.statusCode ≠ 200 || !body.contains '<' then .ok {}
  else
    let index := occurs "<sitemapindex".toList body
    let html := occurs "html".toList (site.rules.lower result.contentType).toList
    if html && !occurs "<urlset".toList body && !index then
      .ok { errors := [sitemapUrl ++ " → HTML بازگرداند، نه XML"] }
    else if index then .ok { found := [sitemapUrl], children := locsIn body.length body }
    else .ok { found := [sitemapUrl], locs := locsIn body.length body }

/-- The children of a sitemap go to the queue, the rest is kept. -/
def SitemapRead.add (s read : SitemapRead) : SitemapRead where
  locs := s.locs ++ read.locs
  found := s.found ++ read.found
  errors := s.errors ++ read.errors

def maxSitemaps : Nat := 25

/-- The search for sitemaps, given how a url is normalised and read. -/
def searchSitemaps (normalize : String → Except Exn String)
    (readAt : String → Except Exn SitemapRead) (seen : List String) (s : SitemapRead) :
    List String → Except Exn SitemapRead
  | [] => .ok s
  | url :: rest =>
      if seen.length < maxSitemaps then
        match normalize url with
        | .error e => .error e
        | .ok sitemapUrl =>
            if seen.contains sitemapUrl then searchSitemaps normalize readAt seen s rest
            else
              match readAt sitemapUrl with
              | .error e => .error e
              | .ok read =>
                  searchSitemaps normalize readAt (seen ++ [sitemapUrl]) (s.add read)
                    (rest ++ read.children)
      else .ok s
termination_by queue => (maxSitemaps - seen.length, queue.length)
decreasing_by
  · exact Prod.Lex.right _ (Nat.lt_succ_self _)
  · apply Prod.Lex.left
    rw [List.length_append, List.length_singleton]
    omega

def discoverSitemaps (site : Site) (ctx : SiteContext) : Except Exn SiteContext := do
  let candidates ← ["/sitemap.xml", "/sitemap_index.xml", "/sitemap-index.xml",
    "/wp-sitemap.xml"].mapM fun path => (urljoin site.rules ctx.origin path).mapError .valueError
  let all := robotsSitemaps site.rules site.robots.robotsTxt ++ candidates
  let s ← searchSitemaps (normalizeUrl site.rules) (readSitemap site) [] {} all
  .ok { ctx with
    sitemapUrls := s.found
    sitemapLocs := s.locs.eraseDups
    sitemapErrors := ctx.sitemapErrors ++ s.errors }

def probe (site : Site) (ctx : SiteContext) (path : String) : Except Exn Bool := do
  let result ← site.fetch (← (urljoin site.rules ctx.origin path).mapError .valueError)
  .ok (result.statusCode = 200 && result.error.isNone &&
    !occurs "html".toList (site.rules.lower result.contentType).toList)

def probeWellknown (site : Site) (ctx : SiteContext) : Except Exn SiteContext := do
  let llms ← probe site ctx "/llms.txt"
  let security ← probe site ctx "/.well-known/security.txt"
  .ok { ctx with llmsTxtFound := llms, securityTxtFound := security }

end Sitemaps

section Search

/-- Where the search stands. -/
structure Progress where
  queued : List String
  frontier : List (String × Nat)
  pages : List PageData := []
  blocked : List String := []
  deriving DecidableEq, Repr

/-- A url is queued once. -/
def Progress.push (s : Progress) (target : String) (depth : Nat) : Progress :=
  if s.queued.contains target then s
  else { s with queued := s.queued ++ [target], frontier := s.frontier ++ [(target, depth)] }

/-- The start, and what the sitemaps list of the site. -/
def seed (site : Site) (config : CrawlConfig) (origin start : String) (locs : List String) :
    Except Exn Progress :=
  (locs.take config.maxPages).foldlM (fun s loc => do
      let normalized ← normalizeUrl site.rules loc
      if s.queued.contains normalized then .ok s
      else if ← sameSite site.rules normalized origin config.followSubdomains then
        .ok (s.push normalized 1)
      else .ok s)
    { queued := [start], frontier := [(start, 0)] }

def follow (site : Site) (depth : Nat) (s : Progress) (link : LinkRef) : Except Exn Progress := do
  if !link.isInternal then .ok s
  else if !(← isCrawlable site.rules link.href) then .ok s
  else .ok (s.push (← normalizeUrl site.rules link.href) (depth + 1))

/-- A fetched url becomes a page, and its links are queued. -/
def absorb (site : Site) (config : CrawlConfig) (origin : String) (s : Progress)
    (item : String × Nat) (result : FetchResult) : Except Exn Progress := do
  let fetched := resultToPage item.1 result item.2
  let page ←
    if fetched.isHtml site.rules && fetched.html ≠ "" then
      site.parsePage fetched origin config.followSubdomains
    else .ok fetched
  let s := { s with pages := s.pages ++ [page] }
  if config.maxDepth ≤ item.2 || !page.isOk then .ok s
  else page.links.foldlM (follow site item.2) s

/-- Cut a batch from the frontier: the batch, the urls that were found blocked,
and what is left. -/
def fillBatch (site : Site) (config : CrawlConfig) (count : Nat) :
    List (String × Nat) → List String → List (String × Nat) →
      List (String × Nat) × List String × List (String × Nat)
  | batch, blocked, [] => (batch, blocked, [])
  | batch, blocked, (url, depth) :: rest =>
      if batch.length < config.workers && count + batch.length < config.maxPages then
        if config.maxDepth < depth then fillBatch site config count batch blocked rest
        else if !site.allowed url then
          fillBatch site config count batch (blocked ++ [url]) rest
        else fillBatch site config count (batch ++ [(url, depth)]) blocked rest
      else (batch, blocked, (url, depth) :: rest)

/-- The loop over the batches. It is given `fuel` rounds; none is left where it
would go on. -/
def searchBatches (site : Site) (config : CrawlConfig) (origin : String) (pool : Completion) :
    Nat → Nat → Progress → Option (Except Exn Progress)
  | 0, _, _ => none
  | fuel + 1, n, s =>
      if s.frontier = [] || config.maxPages ≤ s.pages.length then some (.ok s)
      else
        let (batch, blocked, frontier) :=
          fillBatch site config s.pages.length [] s.blocked s.frontier
        let s := { s with blocked := blocked, frontier := frontier }
        if batch = [] then searchBatches site config origin pool fuel n s
        else
          match poolMap (fun item => site.fetch item.1) batch (pool.order n batch.length) with
          | .error e => some (.error e)
          | .ok results =>
              match (batch.zip results).foldlM
                  (fun s item => absorb site config origin s item.1 item.2) s with
              | .error e => some (.error e)
              | .ok s => searchBatches site config origin pool fuel (n + 1) s

def notes (config : CrawlConfig) (s : Progress) : List String :=
  (match s.blocked with
    | [] => []
    | first :: _ => [toString s.blocked.length ++
        " آدرس به‌خاطر robots.txt خزش نشد (نمونه: " ++ first ++ ")"]) ++
  if s.frontier = [] then []
  else ["سقف " ++ toString config.maxPages ++ " صفحه‌ای پر شد؛ حداقل " ++
    toString s.frontier.length ++ " آدرس دیگر باقی مانده است."]

end Search

section PostPass

/-- How often each url is linked to from inside the site. -/
def linkedUrls (site : Site) (ctx : SiteContext) : Except Exn (List String) :=
  (((ctx.htmlPages site.rules).flatMap PageData.links).filter LinkRef.isInternal).mapM
    fun link => normalizeUrl site.rules link.href

def computeInlinks (site : Site) (ctx : SiteContext) : Except Exn SiteContext := do
  let linked ← linkedUrls site ctx
  let pages ← ctx.pages.mapM fun page => do
    .ok { page with inlinks := linked.count (← normalizeUrl site.rules page.url) }
  .ok { ctx with pages := pages }

/-- The outbound links of a page, until there are enough. -/
def externalOf (rules : TextRules) (limit : Nat) (source : String) :
    List (String × String) → List LinkRef → Except Exn (List (String × String))
  | external, [] => .ok external
  | external, link :: rest => do
      if link.isInternal then externalOf rules limit source external rest
      else
        let key ← normalizeUrl rules link.href
        let external :=
          if external.any (·.1 = key) then external else external ++ [(key, source)]
        if limit ≤ external.length then .ok external
        else externalOf rules limit source external rest

/-- The outbound links of the site, each with the page it was found on first. -/
def externalLinks (rules : TextRules) (limit : Nat) :
    List (String × String) → List PageData → Except Exn (List (String × String))
  | external, [] => .ok external
  | external, page :: rest => do
      let external ← externalOf rules limit page.url external page.links
      if limit ≤ external.length then .ok external
      else externalLinks rules limit external rest

def checkExternalLinks (site : Site) (config : CrawlConfig) (pool : Completion)
    (ctx : SiteContext) : Except Exn SiteContext := do
  let targets ← externalLinks site.rules config.maxExternalChecks []
    (ctx.htmlPages site.rules)
  if targets = [] then .ok ctx
  else
    let statuses ←
      poolMap (fun item => site.checkStatus item.1) targets (pool.order 0 targets.length)
    .ok { ctx with
      externalChecked := targets.length
      brokenExternal := (targets.zip statuses).filterMap fun ((url, source), status, error) =>
        if error.isSome || 400 ≤ status || status = 0 then
          some { url := url, source := source, status := status, error := error }
        else none }

end PostPass

/-- Up to the first batch. -/
@[irreducible] def prepared (site : Site) (config : CrawlConfig) :
    Except Exn (SiteContext × Progress) := do
  let start ← normalizeUrl site.rules config.startUrl
  let origin ← registrableOrigin site.rules start
  let ctx : SiteContext := {
    startUrl := start
    origin := origin
    targetKeywords := config.targetKeywords
    robotsTxt := site.robots.robotsTxt
    robotsStatus := site.robots.robotsStatus }
  let ctx ← probeWellknown site (← discoverSitemaps site ctx)
  .ok (ctx, ← seed site config origin start ctx.sitemapLocs)

/-- After the last batch. -/
@[irreducible] def concluded (site : Site) (config : CrawlConfig) (pool : Completion)
    (ctx : SiteContext) (s : Progress) : Except Exn SiteContext := do
  let ctx ← computeInlinks site { ctx with
    pages := s.pages
    notes := ctx.notes ++ notes config s }
  if config.checkExternalLinks then checkExternalLinks site config pool ctx else .ok ctx

/-- `Crawler.crawl`, given the orders in which the two pools complete their tasks.
It is `none` where `fuel` rounds are not enough. -/
def crawl (site : Site) (config : CrawlConfig) (fetches probes : Completion) (fuel : Nat) :
    Option (Except Exn SiteContext) :=
  match prepared site config with
  | .error e => some (.error e)
  | .ok (ctx, s) =>
      (searchBatches site config ctx.origin fetches fuel 0 s).map fun found => do
        concluded site config probes ctx (← found)

end SeoPlatform.Crawler.Crawling
