import SeoPlatform.Crawler.Fetching

namespace SeoPlatform.Crawler.Models

open SeoPlatform.Foundation.UrlText
open SeoPlatform.Crawler.Fetching

structure LinkRef where
  href : String
  rawHref : String
  anchor : String
  rel : String := ""
  isInternal : Bool := false
  deriving DecidableEq, Repr

structure ImageRef where
  src : String
  alt : Option String
  deriving DecidableEq, Repr

/-- A crawled url: what the fetch brought, and of what the parser finds the parts
that the report and the rules on links, titles and directives read. -/
structure PageData where
  url : String
  finalUrl : String := ""
  statusCode : Nat := 0
  redirectChain : List (Nat × String) := []
  elapsedMs : Nat := 0
  contentType : String := ""
  headers : List (String × String) := []
  error : Option String := none
  depth : Nat := 0
  html : String := ""
  byteSize : Nat := 0
  title : Option String := none
  metaDescription : Option String := none
  metaRobots : String := ""
  canonical : Option String := none
  hreflang : List (String × String) := []
  headings : List (Nat × String) := []
  text : String := ""
  wordCount : Nat := 0
  images : List ImageRef := []
  links : List LinkRef := []
  inlinks : Nat := 0
  contentHash : String := ""
  deriving DecidableEq, Repr

def PageData.isHtml (rules : TextRules) (page : PageData) : Bool :=
  occurs "html".toList (rules.lower page.contentType).toList

def PageData.isOk (page : PageData) : Bool :=
  200 ≤ page.statusCode && page.statusCode < 300 && page.error.isNone

def PageData.isNoindex (rules : TextRules) (page : PageData) : Bool :=
  let directives := rules.lower page.metaRobots
  let header := rules.lower ((page.headers.lookup "x-robots-tag").getD "")
  occurs "noindex".toList directives.toList || occurs "noindex".toList header.toList

def PageData.isIndexable (rules : TextRules) (page : PageData) : Bool :=
  page.isOk && page.isHtml rules && !page.isNoindex rules

def resultToPage (url : String) (result : FetchResult) (depth : Nat) : PageData where
  url := url
  finalUrl := result.finalUrl
  statusCode := result.statusCode
  redirectChain := result.redirectChain
  elapsedMs := result.elapsedMs
  contentType := result.contentType
  headers := result.headers
  error := result.error
  html := result.text
  byteSize := result.byteSize
  depth := depth

/-- An outbound link that does not answer: its url, the page it was found on, the
status and the error. -/
structure BrokenLink where
  url : String
  source : String
  status : Nat
  error : Option String
  deriving DecidableEq, Repr

structure SiteContext where
  startUrl : String
  origin : String := ""
  pages : List PageData := []
  robotsTxt : Option String := none
  robotsStatus : Nat := 0
  sitemapUrls : List String := []
  sitemapLocs : List String := []
  sitemapErrors : List String := []
  llmsTxtFound : Bool := false
  securityTxtFound : Bool := false
  targetKeywords : List String := []
  notes : List String := []
  externalChecked : Nat := 0
  brokenExternal : List BrokenLink := []
  deriving DecidableEq, Repr

def SiteContext.htmlPages (rules : TextRules) (ctx : SiteContext) : List PageData :=
  ctx.pages.filter fun page => page.isOk && page.isHtml rules

def SiteContext.indexablePages (rules : TextRules) (ctx : SiteContext) : List PageData :=
  ctx.pages.filter (PageData.isIndexable rules)

def LinkRef.isNofollow (rules : TextRules) (link : LinkRef) : Bool :=
  occurs "nofollow".toList (rules.lower link.rel).toList

end SeoPlatform.Crawler.Models
