import Mathlib.Logic.Function.Basic
import SeoPlatform.Foundation.TransitionSystem
import SeoPlatform.Services.Runs

namespace SeoPlatform.Services.JobWorker

open SeoPlatform.Foundation.JsonValue
open SeoPlatform.Foundation.SqlTransaction
open SeoPlatform.Services.Runs
open SeoPlatform.Shared.Contracts
open SeoPlatform.Shared.Events
open SeoPlatform.Shared.Exceptions
open SeoPlatform.Shared.Jobs
open SeoPlatform.Shared.PostgresStore

/-- Where a handler stands, between two of its transactions. In `working` the job
is marked running, and it ends with the next transaction. -/
inductive Stage (service : Service) where
  | starting
  | creating (jobId : String) (request : service.Request)
  | marking (jobId : String) (request : service.Request)
  | working (jobId : String) (request : service.Request)

/-- What the world decides about the next transaction of a handler: the server's
answers, the uuids drawn, and what comes of the work. -/
structure Choice (service : Service) where
  faults : List (Option Exn)
  uuid : String
  given : Except String service.Material
  ids : Nat → String

inductive Next (service : Service) where
  | goto (stage : Stage service)
  | returned
  | raised

/-- The message a worker handles, and `_seen`. -/
structure Worker (service : Service) where
  job : Option (Envelope × Stage service)
  seen : List String

/-- The table of the jobs with the outbox, the workers on it, and the messages they
acknowledged. -/
structure System (service : Service) where
  db : JobDb
  workers : Nat → Worker service
  acked : List Envelope

inductive Label (service : Service) where
  | deliver (n : Nat) (e : Envelope)
  | run (n : Nat) (choice : Choice service)
  | crash (n : Nat)
  | tick

variable {service : Service} (server : Server) (wording : Wording)

def System.initial : System service where
  db := .empty
  workers _ := { job := none, seen := [] }
  acked := []

def seenMax : Nat := 10000

def remember (seen : List String) (id : String) : List String :=
  if seenMax ≤ seen.length then [id] else id :: seen

def after {α : Type} (r : Except Exn α × JobDb) (next : α → Next service) :
    Next service × JobDb :=
  match r with
  | (.ok a, db) => (next a, db)
  | (.error _, db) => (.raised, db)

/-- `payload.pop(...) or uuid4()`. -/
def requestedId (service : Service) (payload : Dict) (uuid : String) : String :=
  textOr (Dict.get payload service.idField).str? uuid

/-- A job that runs or has run already is not run again. -/
def guarded (jobId : String) (request : service.Request) : Option JobRecord → Next service
  | some record =>
      if record.status = .running ∨ record.status = .completed then .returned
      else .goto (.marking jobId request)
  | none => .goto (.creating jobId request)

/-- `handle` up to the guard against a job that exists. -/
def start (db : JobDb) (e : Envelope) (choice : Choice service) : Next service × JobDb :=
  match validateEvent wording service.requested e.payload with
  | .error _ => (.raised, db)
  | .ok () =>
      match service.read e.payload with
      | .error _ => (.raised, db)
      | .ok request =>
          let jobId := requestedId service e.payload choice.uuid
          after (transaction (get server jobId none) choice.faults db) (guarded jobId request)

/-- Tenancy comes from the envelope, not the payload. -/
def newJob (e : Envelope) (jobId : String) (request : service.Request) : NewJob where
  jobId := jobId
  subject := service.subject request
  tenantId := e.tenantId
  projectId := e.projectId

/-- What the work of a handler comes to, and the events it stages. -/
def eventsOf (e : Envelope) (jobId : String) (request : service.Request)
    (choice : Choice service) : List PendingEvent :=
  service.staged jobId request (resultOf service.work request choice.given)
    (some (textOr e.correlationId e.id)) (some e.id) choice.ids

/-- The next transaction of a handler. -/
def handlerStep (db : JobDb) (e : Envelope) (choice : Choice service) :
    Stage service → Next service × JobDb
  | .starting => start server wording db e choice
  | .creating jobId request =>
      after (transaction (create server (newJob e jobId request) db.clock) choice.faults db)
        fun _ => .goto (.marking jobId request)
  | .marking jobId request =>
      after (transaction (markRunning server jobId) choice.faults db)
        fun _ => .goto (.working jobId request)
  | .working jobId request =>
      after (transaction (service.finish server jobId request
        (resultOf service.work request choice.given) (some (textOr e.correlationId e.id))
        (some e.id) choice.ids) choice.faults db) fun _ => .returned

/-- The ids that are drawn for events are new. -/
def freshIds (db : JobDb) (events : List PendingEvent) : Bool :=
  decide (events.map (·.eventId)).Nodup &&
    events.all fun event => db.outbox.rows.all fun row => row.eventId ≠ event.eventId

def drawsFresh (db : JobDb) (e : Envelope) (choice : Choice service) : Stage service → Bool
  | .working jobId request => freshIds db (eventsOf e jobId request choice)
  | _ => true

def System.setWorker (s : System service) (n : Nat) (w : Worker service) : System service :=
  { s with workers := Function.update s.workers n w }

/-- A handler that raises sends its message to the dead letters. -/
def settle (s : System service) (n : Nat) (e : Envelope) : Next service → System service
  | .goto stage => s.setWorker n { (s.workers n) with job := some (e, stage) }
  | .returned =>
      { s.setWorker n { job := none, seen := remember (s.workers n).seen e.id } with
        acked := e :: s.acked }
  | .raised => s.setWorker n { (s.workers n) with job := none }

def deliver (s : System service) (n : Nat) (e : Envelope) : Option (System service) :=
  if (s.workers n).job.isSome ∨ e.type ≠ service.requested then none
  else if e.id ∈ (s.workers n).seen then some { s with acked := e :: s.acked }
  else some (s.setWorker n { (s.workers n) with job := some (e, .starting) })

def runStep (s : System service) (n : Nat) (choice : Choice service) : Option (System service) :=
  match (s.workers n).job with
  | none => none
  | some (e, stage) =>
      if drawsFresh s.db e choice stage then
        let (next, db) := handlerStep server wording s.db e choice stage
        some (settle { s with db := db } n e next)
      else none

/-- A message is delivered, a handler's next transaction runs, a process dies, or
time passes. -/
def step (s : System service) : Label service → Option (System service)
  | .deliver n e => deliver s n e
  | .run n choice => runStep server wording s n choice
  | .crash n => some (s.setWorker n { job := none, seen := [] })
  | .tick => some { s with db := { s.db with clock := s.db.clock + 1 } }

end SeoPlatform.Services.JobWorker
