import SeoPlatform.Foundation.JsonValue
import SeoPlatform.Foundation.UrlText
import SeoPlatform.Shared.Exceptions

namespace SeoPlatform.Notifications.Deliver

open SeoPlatform.Foundation.JsonValue
open SeoPlatform.Foundation.UrlText
open SeoPlatform.Shared.Exceptions

/-- A row of `notification_channels`, without its project and its moments. -/
structure Channel where
  id : String
  tenantId : Option String
  kind : String
  target : String
  events : List String := []
  active : Bool := true
  deriving DecidableEq, Repr

def subscribable : List String := ["report.rendered", "workflow.completed"]

def retryableStatus : List Nat := [408, 425, 429, 500, 502, 503, 504]

/-- An empty list of events asks for all of them. -/
def wants (channel : Channel) (eventType : String) : Bool :=
  channel.active && (channel.events.isEmpty || channel.events.contains eventType)

/-- Whether the same delivery is worth attempting again. -/
def retryable (status : Option Nat) : Bool :=
  match status with
  | none => true
  | some code => retryableStatus.contains code

def absolute (baseUrl : String) (path : Json) : Except Exn Json :=
  if !path.truthy then .ok .null
  else if baseUrl = "" then .ok path
  else
    match path with
    | .str text =>
        if leads "http://" text || leads "https://" text then .ok (.str text)
        else
          let base := (baseUrl.toList.reverse.dropWhile (· == '/')).reverse
          .ok (.str (String.ofList base ++ text))
    | _ => .error (.attributeError "object has no attribute 'startswith'")

/-- A part of the payload, as a document. -/
def part (event : Dict) (name : String) : Except Exn Dict :=
  match (Dict.get event name).orElse (.obj []) with
  | .obj fields => .ok fields
  | _ => .error (.attributeError "object has no attribute 'get'")

/-- A summary and links. -/
def payload (eventType : String) (event : Dict) (baseUrl : String) : Except Exn Dict := do
  let head : Dict := [("event", .str eventType), ("workflow_id", Dict.get event "workflow_id")]
  if eventType = "report.rendered" then
    let documentUrl ← absolute baseUrl (Dict.get event "document_url")
    .ok (head ++
      [("report_id", Dict.get event "report_id"),
       ("title", Dict.get event "title"),
       ("status", Dict.get event "status"),
       ("summary_source", Dict.get event "summary_source"),
       ("formats", (Dict.get event "formats").orElse (.arr [])),
       ("document_url", documentUrl)])
  else
    let headline ← part event "headline"
    let resultUrl ← absolute baseUrl (Dict.get event "result_url")
    .ok (head ++
      [("status", Dict.get event "status"),
       ("goal", Dict.get event "goal"),
       ("overall_score", Dict.get headline "overall_score"),
       ("total_issues", Dict.get headline "total_issues"),
       ("result_url", resultUrl)])

end SeoPlatform.Notifications.Deliver
