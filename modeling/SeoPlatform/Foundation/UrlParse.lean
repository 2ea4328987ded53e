import SeoPlatform.Foundation.UrlText

namespace SeoPlatform.Foundation.UrlParse

open SeoPlatform.Foundation.UrlText

/-- The six parts of a url. -/
structure ParseResult where
  scheme : String
  netloc : String
  path : String
  params : String
  query : String
  fragment : String
  deriving DecidableEq, Repr

def usesRelative : List String :=
  ["", "ftp", "http", "gopher", "nntp", "imap", "wais", "file", "https", "shttp", "mms",
   "prospero", "rtsp", "rtsps", "rtspu", "sftp", "svn", "svn+ssh", "ws", "wss"]

def usesNetloc : List String :=
  ["", "ftp", "http", "gopher", "nntp", "telnet", "imap", "wais", "file", "mms", "https", "shttp",
   "snews", "prospero", "rtsp", "rtsps", "rtspu", "rsync", "svn", "svn+ssh", "sftp", "nfs", "git",
   "git+ssh", "ws", "wss", "itms-services"]

def usesParams : List String :=
  ["", "ftp", "hdl", "prospero", "http", "imap", "https", "shttp", "rtsp", "rtsps", "rtspu", "sip",
   "sips", "mms", "sftp", "tel"]

/-- What `urlsplit` removes before it reads a url. -/
def cleaned (url : List Char) : List Char :=
  (url.dropWhile fun c => c.toNat ≤ 32).filter fun c => c != '\t' && c != '\r' && c != '\n'

/-- The scheme, in lower case, and what follows it. -/
def splitScheme (scheme : String) (url : List Char) : String × List Char :=
  match partition ':' url with
  | (c :: cs, true, rest) =>
      if isAsciiLetter c && (c :: cs).all isSchemeChar then
        (String.ofList ((c :: cs).map Char.toLower), rest)
      else (scheme, url)
  | _ => (scheme, url)

def splitNetloc (rules : TextRules) (url : List Char) : Except String (List Char × List Char) :=
  match url with
  | '/' :: '/' :: rest =>
      let isDelimiter := fun c => c == '/' || c == '?' || c == '#'
      let netloc := rest.takeWhile fun c => !isDelimiter c
      if netloc.contains '[' != netloc.contains ']' then
        .error "Invalid IPv6 URL"
      else
        match rules.netlocFault (String.ofList netloc) with
        | some complaint => .error complaint
        | none => .ok (netloc, rest.dropWhile fun c => !isDelimiter c)
  | _ => .ok ([], url)

/-- The parameters of the last segment. -/
def splitParams (path : List Char) : List Char × List Char :=
  let last := afterLast '/' path
  match partition ';' last with
  | (segment, true, params) => (path.take (path.length - last.length) ++ segment, params)
  | (_, false, _) => (path, [])

/-- `urlparse`. The error is the text of the `ValueError`. -/
def urlparse (rules : TextRules) (url : String) (default : String) : Except String ParseResult := do
  let (scheme, rest) := splitScheme default (cleaned url.toList)
  let (netloc, rest) ← splitNetloc rules rest
  let (rest, _, fragment) := partition '#' rest
  let (path, _, query) := partition '?' rest
  let (path, params) := if usesParams.contains scheme then splitParams path else (path, [])
  .ok {
    scheme := scheme
    netloc := String.ofList netloc
    path := String.ofList path
    params := String.ofList params
    query := String.ofList query
    fragment := String.ofList fragment }

def urlunparse (parts : ParseResult) : String :=
  let path := if parts.params = "" then parts.path else parts.path ++ ";" ++ parts.params
  let located :=
    if parts.netloc ≠ "" ||
        (parts.scheme ≠ "" && usesNetloc.contains parts.scheme && !leads "//" path) then
      "//" ++ parts.netloc ++ (if path = "" || leads "/" path then path else "/" ++ path)
    else path
  (if parts.scheme = "" then "" else parts.scheme ++ ":") ++ located ++
    (if parts.query = "" then "" else "?" ++ parts.query) ++
    (if parts.fragment = "" then "" else "#" ++ parts.fragment)

/-- `urlsplit`: the parameters stay with the path. -/
def urlsplit (rules : TextRules) (url : String) : Except String ParseResult := do
  let (scheme, rest) := splitScheme "" (cleaned url.toList)
  let (netloc, rest) ← splitNetloc rules rest
  let (rest, _, fragment) := partition '#' rest
  let (path, _, query) := partition '?' rest
  .ok {
    scheme := scheme
    netloc := String.ofList netloc
    path := String.ofList path
    params := ""
    query := String.ofList query
    fragment := String.ofList fragment }

/-- The url of `urldefrag`. -/
def urldefrag (rules : TextRules) (url : String) : Except String String := do
  if url.toList.contains '#' then
    let parts ← urlparse rules url ""
    .ok (urlunparse { parts with fragment := "" })
  else .ok url

/-- Drop the segments that name the same or the upper directory. -/
def resolved : List (List Char) → List (List Char) → List (List Char)
  | done, [] => done
  | done, segment :: rest =>
      if segment = ['.', '.'] then resolved done.dropLast rest
      else if segment = ['.'] then resolved done rest
      else resolved (done ++ [segment]) rest

/-- The path that a path leads to from another. -/
def joinedPath (base path : String) : String :=
  let names := splitAt '/' base.toList
  let upper := if names.getLast? = some [] then names else names.dropLast
  let parts := splitAt '/' path.toList
  let segments :=
    if leads "/" path then parts
    else
      let all := upper ++ parts
      -- empty segments stay only at the ends
      all.take 1 ++ all.tail.dropLast.filter (· ≠ []) ++ all.tail.drop (all.length - 2)
  let last := segments.getLastD []
  let done := resolved [] segments ++ if last = ['.'] || last = ['.', '.'] then [[]] else []
  let text := String.ofList (joinWith '/' done)
  if text = "" then "/" else text

/-- `urljoin`. -/
def urljoin (rules : TextRules) (base url : String) : Except String String := do
  if base = "" then .ok url
  else if url = "" then .ok base
  else
    let b ← urlparse rules base ""
    let u ← urlparse rules url b.scheme
    if u.scheme ≠ b.scheme || !usesRelative.contains u.scheme then .ok url
    else if usesNetloc.contains u.scheme && u.netloc ≠ "" then .ok (urlunparse u)
    else
      let netloc := if usesNetloc.contains u.scheme then b.netloc else u.netloc
      if u.path = "" && u.params = "" then
        .ok (urlunparse { u with
          netloc := netloc
          path := b.path
          params := b.params
          query := if u.query = "" then b.query else u.query })
      else .ok (urlunparse { u with netloc := netloc, path := joinedPath b.path u.path })

end SeoPlatform.Foundation.UrlParse
