import SeoPlatform.Crawler.Crawling
import SeoPlatform.Foundation.ExceptFlow

namespace SeoPlatform.Crawler.Parsing

open SeoPlatform.Crawler.Crawling
open SeoPlatform.Crawler.Fetching
open SeoPlatform.Crawler.Models
open SeoPlatform.Foundation.ExceptFlow
open SeoPlatform.Foundation.UrlText
open SeoPlatform.Foundation.UrlParse
open SeoPlatform.Shared.Exceptions

/-- The `rel` of an anchor: the library gives a list or a text. -/
inductive Rel where
  | missing
  | listed (tokens : List String)
  | text (value : String)

structure AnchorTag where
  href : String
  rel : Rel
  text : String

structure LinkTag where
  tokens : List String
  href : Option String
  hreflang : Option String

structure ImageTag where
  src : Option String
  dataSrc : Option String
  alt : Option String

/-- What the HTML library finds in a document. Texts are as it joins them. -/
structure Soup where
  baseHref : Option String := none
  title : Option String := none
  /-- The content of the first `meta` tag of a name, in either case. -/
  metaContent : String → Option String := fun _ => none
  links : List LinkTag := []
  images : List ImageTag := []
  anchors : List AnchorTag := []
  headings : List (Nat × String) := []
  /-- The texts of the elements that may hold the main text, in the order of the
  selectors. -/
  candidates : List String := []
  bodyText : String := ""
  textWithoutBoilerplate : String := ""

/-- The HTML library, the word characters of the regular expressions, and the hash. -/
structure Library where
  soup : String → Soup
  isWord : Char → Bool
  sha1 : String → String

section Words

/-- Put one space for every run of characters of a kind. -/
def collapse (kind : Char → Bool) : Bool → List Char → List Char
  | _, [] => []
  | inside, c :: cs =>
      if kind c then if inside then collapse kind true cs else ' ' :: collapse kind true cs
      else c :: collapse kind false cs

def cleanText (text : String) : String :=
  strip (String.ofList (collapse isSpace false text.toList))

/-- The classes of characters that words are made of. -/
inductive Script where
  | latin
  | arabic
  | cjk
  deriving DecidableEq, Repr

def scriptOf (c : Char) : Option Script :=
  let n := c.toNat
  if isAsciiLetter c || isDigit c || c == '\'' || n == 0x2019 || c == '-' then some .latin
  else if (0x600 ≤ n && n ≤ 0x6FF) || (0x750 ≤ n && n ≤ 0x77F) then some .arabic
  else if 0x4E00 ≤ n && n ≤ 0x9FFF then some .cjk
  else none

/-- The runs of characters of one class, and the characters of those that stand
for a word each. -/
def countFrom : Option Script → List Char → Nat
  | _, [] => 0
  | before, c :: cs =>
      let starts := match scriptOf c with
        | none => false
        | some .cjk => true
        | some script => before ≠ some script
      (if starts then 1 else 0) + countFrom (scriptOf c) cs

def countWords (text : String) : Nat := countFrom none text.toList

/-- The first of the candidates with the most words. -/
def bestCandidate (candidates : List String) : String × Nat :=
  candidates.foldl (fun best candidate =>
    let score := countWords (cleanText candidate)
    if best.2 < score then (cleanText candidate, score) else best) ("", 0)

def extractMainText (soup : Soup) : String :=
  let best := bestCandidate soup.candidates
  if 50 ≤ best.2 then best.1
  else
    let text := cleanText soup.textWithoutBoilerplate
    if 30 ≤ countWords text then text else cleanText soup.bodyText

end Words

/-- A value that is there and not empty. -/
def given (value : Option String) : Option String := value.filter (· ≠ "")

def metaOf (soup : Soup) (name : String) : Option String := (soup.metaContent name).map strip

def join (rules : TextRules) (base url : String) : Except Exn String :=
  (urljoin rules base url).mapError .valueError

/-- Where the relative addresses of a page start from. -/
def baseUrl (rules : TextRules) (page : PageData) (soup : Soup) : Except Exn String :=
  let address := if page.finalUrl = "" then page.url else page.finalUrl
  match soup.baseHref with
  | none => .ok address
  | some href => join rules address href

def canonicalOf (rules : TextRules) (base : String) (soup : Soup) : Except Exn (Option String) :=
  match (soup.links.filter fun link => link.tokens.contains "canonical").head? with
  | none => .ok none
  | some link =>
      match given link.href with
      | none => .ok none
      | some href => (join rules base (strip href)).map some

def hreflangOf (rules : TextRules) (base : String) (soup : Soup) :
    Except Exn (List (String × String)) :=
  ((soup.links.filter fun link => link.tokens.contains "alternate").filterMap fun link =>
    match given link.hreflang, given link.href with
    | some hreflang, some href => some (hreflang, href)
    | _, _ => none).mapM fun (hreflang, href) => do
      .ok (strip hreflang, ← join rules base (strip href))

def imageOf (rules : TextRules) (base : String) (image : ImageTag) : Except Exn ImageRef := do
  let src := (given image.src).getD (image.dataSrc.getD "")
  .ok { src := ← if src = "" then .ok "" else join rules base src, alt := image.alt }

def skippedSchemes : List String := ["javascript:", "mailto:", "tel:", "#", "sms:", "data:"]

def relText : Rel → String
  | .missing => ""
  | .listed tokens => " ".intercalate tokens
  | .text value => value

/-- The link an anchor makes, unless it leads to something that is no page. -/
def linkOf (rules : TextRules) (base origin : String) (followSubdomains : Bool)
    (anchor : AnchorTag) : Except Exn (Option LinkRef) := do
  let raw := strip anchor.href
  if skippedSchemes.any fun scheme => leads scheme raw then .ok none
  else
    let absolute ← join rules base raw
    let parsed ← (urlparse rules absolute "").mapError .valueError
    if !(["http", "https"].contains parsed.scheme) then .ok none
    else
      .ok (some {
        href := absolute
        rawHref := raw
        anchor := String.ofList ((cleanText anchor.text).toList.take 200)
        rel := relText anchor.rel
        isInternal := ← sameSite rules absolute origin followSubdomains })

def linksOf (rules : TextRules) (base origin : String) (followSubdomains : Bool) (soup : Soup) :
    Except Exn (List LinkRef) := do
  let links ← soup.anchors.mapM (linkOf rules base origin followSubdomains)
  .ok (links.filterMap id)

/-- A change detector. -/
def contentHashOf (rules : TextRules) (library : Library) (text : String) : String :=
  library.sha1 (strip (String.ofList
    (collapse (fun c => !library.isWord c) false (rules.lower text).toList)))

/-- `parse_page`, as to the fields of a page that are kept here. -/
def parsePage (rules : TextRules) (library : Library) (page : PageData) (origin : String)
    (followSubdomains : Bool) : Except Exn PageData :=
  if page.html = "" || !page.isHtml rules then .ok page
  else do
    let soup := library.soup page.html
    let base ← baseUrl rules page soup
    let robots := (metaOf soup "robots").getD ""
    let canonical ← canonicalOf rules base soup
    let hreflang ← hreflangOf rules base soup
    let images ← soup.images.mapM (imageOf rules base)
    let links ← linksOf rules base origin followSubdomains soup
    let text := extractMainText soup
    .ok { page with
      title := match given soup.title with
        | some title => some (strip title)
        | none => page.title
      metaDescription := metaOf soup "description"
      metaRobots := if robots = "" then (metaOf soup "googlebot").getD "" else robots
      canonical := canonical.orElse fun _ => page.canonical
      hreflang := page.hreflang ++ hreflang
      images := page.images ++ images
      links := page.links ++ links
      headings := page.headings ++ soup.headings.map fun (level, text) => (level, cleanText text)
      text := text
      wordCount := countWords text
      contentHash := contentHashOf rules library text }

section Parsed

variable {rules : TextRules} {library : Library} {page page' : PageData} {origin : String}
  {followSubdomains : Bool}

/-- The depth of a page plays no part in what is parsed out of it. -/
theorem parsePage_depth (depth : Nat) :
    parsePage rules library { page with depth := depth } origin followSubdomains =
      (parsePage rules library page origin followSubdomains).map fun page =>
        { page with depth := depth } := by
  unfold parsePage
  have hhtml : ({ page with depth := depth } : PageData).isHtml rules = page.isHtml rules := rfl
  rw [hhtml]
  split
  · rfl
  · dsimp only [bind]
    apply map_of_bind
    intro base
    apply map_of_bind
    intro canonical
    apply map_of_bind
    intro hreflang
    apply map_of_bind
    intro images
    apply map_of_bind
    intro links
    rfl

/-- What was fetched stays. -/
theorem parsePage_ok (h : parsePage rules library page origin followSubdomains = .ok page') :
    page'.url = page.url ∧ page'.depth = page.depth ∧ page'.isOk = page.isOk := by
  unfold parsePage at h
  split at h
  · cases h
    exact ⟨rfl, rfl, rfl⟩
  · simp only [bind, Except.bind] at h
    repeat' split at h
    all_goals first
      | contradiction
      | cases h
        exact ⟨rfl, rfl, rfl⟩

end Parsed

/-- The site, with the pages parsed by the library. -/
def parsedBy (site : Site) (library : Library) : Site :=
  { site with parsePage := parsePage site.rules library }

end SeoPlatform.Crawler.Parsing
