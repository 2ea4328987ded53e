import SeoPlatform.Foundation.Mapping
import SeoPlatform.Foundation.UrlParse
import SeoPlatform.Orchestrator.Engine

namespace SeoPlatform.InternalLinks.Building

open SeoPlatform.Foundation.JsonValue
open SeoPlatform.Foundation.Mapping
open SeoPlatform.Foundation.UrlParse
open SeoPlatform.Foundation.UrlText
open SeoPlatform.Orchestrator.Engine (asDict)
open SeoPlatform.Orchestrator.Planner (iterate)
open SeoPlatform.Shared.Exceptions

/-- How values of a report are read: the rules for urls, `str` of what is no text,
and `int` of a text. -/
structure Reader where
  rules : TextRules
  shown : Json → String
  parseInt : String → Option Int

structure Page where
  url : String
  title : Json
  status : Int
  indexable : Bool
  depth : Int
  words : Int

def Page.reachable (page : Page) : Bool := 200 ≤ page.status && page.status < 300

structure Edge where
  source : String
  target : String
  anchor : String
  nofollow : Bool
  deriving DecidableEq, Repr

def Edge.ends (edge : Edge) : String × String := (edge.source, edge.target)

structure Graph where
  pages : Dictionary String Page
  edges : List Edge

def Graph.urls (graph : Graph) : List String := graph.pages.keys

theorem Graph.nodup_urls (graph : Graph) : graph.urls.Nodup := graph.pages.nodup_keys

/-- Drop the slash at the end of a path, unless it is all of it. -/
def withoutSlash (path : String) : String :=
  if 1 < path.toList.length ∧ path.toList.getLast? = some '/' then
    String.ofList path.toList.dropLast
  else path

/-- One spelling per page. -/
def normalise (rules : TextRules) (url : String) : Except Exn String :=
  Except.mapError .valueError do
    let parts ← urlsplit rules (← urldefrag rules (strip url))
    .ok (urlunparse
      { scheme := rules.lower parts.scheme
        netloc := rules.lower parts.netloc
        path := withoutSlash (if parts.path = "" then "/" else parts.path)
        params := ""
        query := parts.query
        fragment := "" })

section Reading

variable (reader : Reader)

/-- `str(value or "")`. -/
def Reader.text (value : Json) : String :=
  match value.orElse (.str "") with
  | .str s => s
  | v => reader.shown v

/-- `int(value or 0)`. -/
def Reader.int (value : Json) : Except Exn Int :=
  match value.orElse (.int 0) with
  | .int n => .ok n
  | .bool b => .ok (if b then 1 else 0)
  | .float q => .ok (if 0 ≤ q then q.floor else q.ceil)
  | .str s =>
      match reader.parseInt s with
      | some n => .ok n
      | none => .error (.valueError "invalid literal for int()")
  | .null | .arr _ | .obj _ => .error (.typeError "int() argument must be a number")

variable {reader} in
theorem int_nat (n : Nat) : reader.int (.int n) = .ok (n : Int) := by
  unfold Reader.int Json.orElse
  by_cases h : n = 0
  · subst h
    rfl
  · rw [if_pos (by simp [h])]

/-- The rows of a list that may be missing. -/
def rowsOf (list : Json) : Except Exn (List Dict) := do
  (← iterate (list.orElse (.arr []))).mapM asDict

def pageOf (row : Dict) : Except Exn (Option Page) := do
  let url ← normalise reader.rules (reader.text (Dict.get row "url"))
  if url = "" then .ok none
  else do
    let status ← reader.int (Dict.get row "status")
    let depth ← reader.int (Dict.get row "depth")
    let words ← reader.int (Dict.get row "words")
    .ok (some
      { url := url
        title := Dict.get row "title"
        status := status
        indexable := (Dict.get row "indexable").truthy
        depth := depth
        words := words })

/-- `(value or "").strip()`. -/
def stripped (value : Json) : Except Exn String :=
  match value.orElse (.str "") with
  | .str s => .ok (strip s)
  | _ => .error (.attributeError "object has no attribute 'strip'")

/-- A page's link to itself is no edge. -/
def edgeOf (row : Dict) : Except Exn (Option Edge) := do
  let source ← normalise reader.rules (reader.text (Dict.get row "from"))
  let target ← normalise reader.rules (reader.text (Dict.get row "to"))
  if source = "" ∨ target = "" ∨ source = target then .ok none
  else do
    let anchor ← stripped (Dict.get row "anchor")
    .ok (some
      { source := source
        target := target
        anchor := anchor
        nofollow := (Dict.get row "nofollow").truthy })

def pageRows (report : Dict) : Except Exn (List Dict) := rowsOf (Dict.get report "pages")

def edgeRows (report : Dict) : Except Exn (List Dict) := do
  let links ← asDict ((Dict.get report "links").orElse (.obj []))
  rowsOf (Dict.get links "edges")

/-- Edges that point outside the crawled set are kept. -/
def build (report : Dict) : Except Exn Graph := do
  let pages ← (← pageRows report).mapM (pageOf reader)
  let edges ← (← edgeRows report).mapM (edgeOf reader)
  .ok
    { pages := .ofPairs ((pages.filterMap id).map fun page => (page.url, page))
      edges := edges.filterMap id }

end Reading

end SeoPlatform.InternalLinks.Building
