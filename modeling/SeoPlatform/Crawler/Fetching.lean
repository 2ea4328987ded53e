import SeoPlatform.Shared.Outbound

namespace SeoPlatform.Crawler.Fetching

open SeoPlatform.Foundation.UrlText
open SeoPlatform.Foundation.UrlParse
open SeoPlatform.Shared.Exceptions
open SeoPlatform.Shared.Netguard
open SeoPlatform.Shared.Outbound

structure FetchResult where
  statusCode : Nat
  finalUrl : String
  redirectChain : List (Nat × String)
  headers : List (String × String)
  text : String
  byteSize : Nat
  elapsedMs : Nat
  contentType : String
  error : Option String := none
  deriving DecidableEq, Repr

/-- Canonicalise a url. -/
def normalizeUrl (rules : TextRules) (url : String) : Except Exn String := do
  let parsed ← (urlparse rules (strip url) "").mapError .valueError
  let scheme := if parsed.scheme = "" then "https" else parsed.scheme
  let netloc := rules.lower parsed.netloc
  let netloc :=
    if scheme = "http" && ":80".toList.isSuffixOf netloc.toList then
      String.ofList (netloc.toList.take (netloc.length - 3))
    else if scheme = "https" && ":443".toList.isSuffixOf netloc.toList then
      String.ofList (netloc.toList.take (netloc.length - 4))
    else netloc
  .ok (urlunparse { parsed with
    scheme := scheme
    netloc := netloc
    path := if parsed.path = "" then "/" else parsed.path
    fragment := "" })

def removeWww (host : String) : String :=
  if "www.".toList.isPrefixOf host.toList then String.ofList (host.toList.drop 4) else host

def sameSite (rules : TextRules) (url origin : String) (followSubdomains : Bool) :
    Except Exn Bool := do
  let host := rules.lower (← (urlparse rules url "").mapError .valueError).netloc
  let originHost := rules.lower (← (urlparse rules origin "").mapError .valueError).netloc
  if host = originHost then .ok true
  else if !followSubdomains then .ok (removeWww host = removeWww originHost)
  else
    let base := removeWww originHost
    .ok (host = base || ("." ++ base).toList.isSuffixOf host.toList)

def registrableOrigin (rules : TextRules) (url : String) : Except Exn String := do
  let parsed ← (urlparse rules url "").mapError .valueError
  .ok (parsed.scheme ++ "://" ++ parsed.netloc)

/-- What a fetcher knows of `robots.txt`. -/
structure Fetcher where
  robotsLoaded : Bool := false
  robotsTxt : Option String := none
  robotsStatus : Nat := 0

/-- Characters that are kept of `robots.txt`. -/
def maxRobotsLength : Nat := 200000

/-- The robots url goes to the library as it is. -/
def loadRobots (rules : TextRules) (exchange : Exchange) (fetcher : Fetcher) (wire : Wire)
    (origin : String) : Except Exn Unit × Fetcher × Wire :=
  if fetcher.robotsLoaded then (.ok (), fetcher, wire)
  else
    match urljoin rules origin "/robots.txt" with
    | .error text => (.error (.valueError text), { fetcher with robotsLoaded := true }, wire)
    | .ok robotsUrl =>
        let wire := request wire robotsUrl exchange
        match exchange.ending with
        | .response response =>
            let fetcher := { fetcher with
              robotsLoaded := true
              robotsStatus := response.status }
            let html := occurs "html".toList (response.header "content-type").toList
            match response.status = 200 && !html, response.body with
            | true, .ok body =>
                let kept := String.ofList (body.text.toList.take maxRobotsLength)
                (.ok (), { fetcher with robotsTxt := some kept }, wire)
            | true, .error _ => (.ok (), { fetcher with robotsStatus := 0 }, wire)
            | false, _ => (.ok (), fetcher, wire)
        | .tooManyRedirects _ | .timeout _ _ | .requestException _ _ =>
            (.ok (), { fetcher with robotsLoaded := true, robotsStatus := 0 }, wire)

inductive Method where
  | get
  | head
  deriving DecidableEq, Repr

def errorResult (url message : String) (elapsedMs : Nat) : FetchResult where
  statusCode := 0
  finalUrl := url
  redirectChain := []
  headers := []
  text := ""
  byteSize := 0
  elapsedMs := elapsedMs
  contentType := ""
  error := some message

/-- What `fetch` makes of an exchange. -/
def received (rules : TextRules) (timeout : Nat) (exchange : Exchange) (url : String)
    (method : Method) : FetchResult :=
  match exchange.ending with
  | .tooManyRedirects _ => errorResult url "redirect loop / too many redirects" exchange.elapsedMs
  | .timeout _ _ =>
      errorResult url ("timeout after " ++ toString timeout ++ "s") exchange.elapsedMs
  | .requestException className text =>
      errorResult url (className ++ ": " ++ text) exchange.elapsedMs
  | .response response =>
      let contentType := response.header "content-type"
      let lowered := (rules.lower contentType).toList
      let readable :=
        occurs "html".toList lowered || occurs "xml".toList lowered || contentType = ""
      let result := fun (text : String) (size : Nat) => {
        statusCode := response.status
        finalUrl := exchange.finalUrl url
        redirectChain := exchange.history url
        headers := response.headers
        text := text
        byteSize := size
        elapsedMs := exchange.elapsedMs
        contentType := contentType : FetchResult }
      match method, response.body with
      | .head, _ => result "" 0
      | .get, .error text => errorResult url ("read error: " ++ text) exchange.elapsedMs
      | .get, .ok body => result (if readable then body.text else "") body.size

/-- The guard first, then the request. -/
def fetch (env : Surroundings) (timeout : Nat) (exchange : Exchange) (wire : Wire)
    (url : String) (method : Method) : Except Exn FetchResult × Wire :=
  match check env wire url with
  | (.error (.targetNotAllowed text), wire) =>
      (.ok (errorResult url text exchange.elapsedMs), wire)
  | (.error e, wire) => (.error e, wire)
  | (.ok (), wire) =>
      (.ok (received env.rules timeout exchange url method), request wire url exchange)

/-- The surroundings of one request: what the check goes by, and the exchange. -/
structure Circumstances where
  env : Surroundings
  exchange : Exchange

/-- Servers that reject HEAD are asked again. -/
def FetchResult.fallsBack (result : FetchResult) : Bool :=
  result.error.isSome || [405, 403, 0].contains result.statusCode

/-- A HEAD request, and a GET where the server does not take it. -/
def checkStatus (first second : Circumstances) (timeout : Nat) (wire : Wire) (url : String) :
    Except Exn (Nat × Option String) × Wire :=
  match fetch first.env timeout first.exchange wire url .head with
  | (.error e, wire) => (.error e, wire)
  | (.ok result, wire) =>
      if result.fallsBack then
        match fetch second.env timeout second.exchange wire url .get with
        | (.error e, wire) => (.error e, wire)
        | (.ok result, wire) => (.ok (result.statusCode, result.error), wire)
      else (.ok (result.statusCode, result.error), wire)

end SeoPlatform.Crawler.Fetching
