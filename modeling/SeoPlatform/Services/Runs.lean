import SeoPlatform.Shared.PostgresStore

namespace SeoPlatform.Services.Runs

open SeoPlatform.Foundation.JsonSchema
open SeoPlatform.Foundation.JsonValue
open SeoPlatform.Foundation.SqlTransaction
open SeoPlatform.Shared.Contracts
open SeoPlatform.Shared.Events
open SeoPlatform.Shared.Exceptions
open SeoPlatform.Shared.Jobs
open SeoPlatform.Shared.PostgresStore

/-- What a job comes to: a report, or the text of the exception that ended it. The
world gives the material, or raises on the way to it. -/
def resultOf {ρ μ δ : Type} (work : ρ → μ → Except Exn δ) (request : ρ) :
    Except String μ → Except String δ
  | .error text => .error text
  | .ok material =>
      match work request material with
      | .error e => .error e.described
      | .ok report => .ok report

theorem work_of_resultOf {ρ μ δ : Type} {work : ρ → μ → Except Exn δ} {request : ρ}
    {given : Except String μ} {report : δ} (h : resultOf work request given = .ok report) :
    ∃ material, work request material = .ok report := by
  cases given with
  | error text => cases h
  | ok material =>
      refine ⟨material, ?_⟩
      unfold resultOf at h
      dsimp only at h
      split at h
      · cases h
      · rename_i found hfound
        cases h
        exact hfound

def statusName {δ : Type} : Except String δ → String
  | .ok _ => "completed"
  | .error _ => "failed"

/-- `error`, as a completion carries it. -/
def errorOf {δ : Type} : Except String δ → Json
  | .ok _ => .null
  | .error text => .str text

/-- The text of the exception that ended a job, where one did. -/
def failureOf {δ : Type} : Except String δ → Option String
  | .ok _ => none
  | .error text => some text

@[simp] theorem outcome_statusName {δ : Type} (result : Except String δ) :
    outcome (.str (statusName result)) = true := by
  cases result <;> rfl

@[simp] theorem nullable_errorOf {δ : Type} (result : Except String δ) :
    nullable string (errorOf result) = true := by
  cases result <;> rfl

/-- A text field of a request. -/
def readText (payload : Dict) (field : String) : Except Exn String :=
  match Dict.get? payload field with
  | some (.str text) => .ok text
  | some _ => .error (.typeError "expected a str")
  | none => .error (.keyError field)

/-- A field of a request that lists texts. -/
def readTexts (payload : Dict) (field : String) : Except Exn (List String) :=
  match Dict.get? payload field with
  | some (.arr items) =>
      items.mapM fun item =>
        match item with
        | .str text => .ok text
        | _ => .error (.typeError "expected a str")
  | some _ => .error (.typeError "expected a list")
  | none => .error (.keyError field)

/-- A service that does one kind of job: how it reads a request, what it works on,
and what it says of the outcome. Whatever the outcome, the completion keeps the
contract. -/
structure Service where
  requested : EventType
  completed : EventType
  idField : String
  producer : String
  Request : Type
  Material : Type
  Report : Type
  read : Dict → Except Exn Request
  subject : Request → String
  work : Request → Material → Except Exn Report
  document : Report → Dict
  payload : String → Request → Except String Report → Dict
  /-- The events that follow the completion of a job. -/
  followUps : String → Report → List (EventType × Dict)
  payload_valid : ∀ jobId request given,
    Valid completed (payload jobId request (resultOf work request given))
  payload_names : ∀ jobId request given,
    Dict.get? (payload jobId request given) idField = some (.str jobId) ∧
      Dict.get? (payload jobId request given) "status" = some (.str (statusName given))
  followUps_other : ∀ jobId report event, event ∈ followUps jobId report → event.1 ≠ completed

namespace Service

variable (service : Service)

/-- The events a job sends out when it ends, those left out that break their contract. -/
def outgoing (jobId : String) (request : service.Request)
    (result : Except String service.Report) : List (EventType × Dict) :=
  let after := match result with
    | .ok report => service.followUps jobId report
    | .error _ => []
  ((service.completed, service.payload jobId request result) :: after).filter fun event =>
    Valid event.1 event.2

/-- The ids of the events of a job are drawn one by one. -/
def staged (jobId : String) (request : service.Request) (result : Except String service.Report)
    (correlationId causationId : Option String) (ids : Nat → String) : List PendingEvent :=
  (service.outgoing jobId request result).zipIdx.map fun (event, i) =>
    { type := event.1
      payload := event.2
      producer := service.producer
      eventId := ids i
      correlationId := some (textOr correlationId jobId)
      causationId := causationId }

/-- The transaction that ends a job. -/
def finish (server : Server) (jobId : String) (request : service.Request)
    (result : Except String service.Report) (correlationId causationId : Option String)
    (ids : Nat → String) : JobTx JobRecord :=
  let events := service.staged jobId request result correlationId causationId ids
  match result with
  | .ok report => complete server jobId (service.document report) events
  | .error text => fail server jobId text events

end Service

end SeoPlatform.Services.Runs
