import SeoPlatform.Foundation.TransitionSystem
import SeoPlatform.Orchestrator.Engine

namespace SeoPlatform.Orchestrator.Workers

open SeoPlatform.Foundation.JsonValue
open SeoPlatform.Foundation.UrlText
open SeoPlatform.Foundation.SqlTransaction
open SeoPlatform.Orchestrator.Planner
open SeoPlatform.Orchestrator.Store
open SeoPlatform.Orchestrator.Engine
open SeoPlatform.Shared.Contracts
open SeoPlatform.Shared.Exceptions
open SeoPlatform.Shared.Events

/-- The arguments of `engine.start`. -/
structure StartRequest where
  workflowId : String
  goal : String
  inputs : Inputs
  tenantId : Option String
  projectId : Option String

/-- Where a handler stands, between two of its transactions. `locked` is inside
`advance`: the row lock is held and the workflow read. `fresh` tells the
`advance` of `start` from that of `on_completion`. -/
inductive Stage where
  | starting
  | creating (request : StartRequest)
  | rereading (workflowId : String)
  | queued (workflowId : String)
  | completing
  | advancing (workflowId : String) (fresh : Bool)
  | locked (workflowId : String) (fresh : Bool) (loaded : Option Workflow)
  | closing (workflowId : String)
  | summarising
  | writing (workflowId : String) (summary : Dict)

/-- One thread of an orchestrator: the message it handles, or none for a task
of the API, and `_seen`. -/
structure Worker where
  job : Option (Option Envelope × Stage)
  seen : List String

/-- The database, the row locks held in it, the orchestrators on it, and the
messages their handlers returned from. -/
structure System where
  db : Db
  locks : List String
  workers : Nat → Worker
  acked : List Envelope

/-- What the world decides about the next transaction of a handler: the
server's answers, the uuids drawn, and the summary the language model writes. -/
structure Choice where
  faults : List (Option Exn)
  eventId : String
  uuid : String
  jobIds : Nat → String
  written : Except Exn Dict

inductive Label where
  | deliver (n : Nat) (e : Envelope)
  | submit (n : Nat) (request : StartRequest)
  | run (n : Nat) (choice : Choice)
  | crash (n : Nat)
  | tick

inductive Next where
  | goto (stage : Stage)
  | returned
  | raised

def seenMax : Nat := 10000

def remember (seen : List String) (id : String) : List String :=
  if seenMax ≤ seen.length then [id] else id :: seen

def after {α : Type} (r : Except Exn α × Db) (next : α → Next) : Next × Db :=
  match r with
  | (.ok a, db) => (next a, db)
  | (.error _, db) => (.raised, db)

def requestedId (payload : Dict) (uuid : String) : String :=
  textOr (Dict.get payload "workflow_id").str? uuid

def requestedGoal (payload : Dict) : String := textOr (Dict.get payload "goal").str? ""

def requestedInputs (payload : Dict) : Inputs :=
  match Dict.get payload "inputs" with
  | .obj d => Inputs.ofDict d
  | _ => Inputs.ofDict []

/-- What `_start` passes on to `engine.start`. -/
def startRequest (e : Envelope) (uuid : String) : StartRequest where
  workflowId := requestedId e.payload uuid
  goal := requestedGoal e.payload
  inputs := requestedInputs e.payload
  tenantId := e.tenantId
  projectId := e.projectId

/-- `_start` up to the guard against a workflow that exists. -/
def startGuard (env : Env) (db : Db) (e : Envelope) (choice : Choice) : Next × Db :=
  match validateEvent env.wording .workflowRequested e.payload with
  | .error _ => (.raised, db)
  | .ok () =>
      let request := startRequest e choice.uuid
      after (transaction (load request.workflowId) choice.faults db) fun found =>
        if found.isSome then .returned else .goto (.creating request)

/-- `engine.start` up to the commit of `create`. -/
def startCreate (env : Env) (db : Db) (r : StartRequest) (choice : Choice) : Next × Db :=
  match plan env.rules r.goal r.inputs choice.jobIds with
  | .error _ => (.raised, db)
  | .ok steps =>
      after (transaction (create r.workflowId r.goal r.inputs steps r.tenantId r.projectId)
        choice.faults db) fun _ => .goto (.rereading r.workflowId)

/-- An event that matched no step is ordinary; one that did moves its workflow. -/
def afterMark : Option String → Next
  | none => .returned
  | some workflowId => .goto (.advancing workflowId false)

/-- `on_completion` up to the commit of `mark_step`. -/
def complete (env : Env) (db : Db) (e : Envelope) (choice : Choice) : Next × Db :=
  match readCompletion env e.type e.payload with
  | .error _ => (.raised, db)
  | .ok c =>
      after (transaction (markStep c.jobId c.status (some c.result) c.error) choice.faults db)
        afterMark

/-- Whether a report's summary was written by the model already. -/
def summaryByModel (report : Dict) : Except Exn Bool := do
  let summary ← asDict ((Dict.get report "summary").orElse (.obj []))
  .ok ((Dict.get summary "source").str? = some "ai")

/-- What `_summarise` does with the workflow it read. -/
def rewriteSummary (workflowId : String) (workflow : Option Workflow) (choice : Choice) : Next :=
  match workflow with
  | none => .returned
  | some workflow =>
      match summaryByModel (workflow.report.getD []) with
      | .error _ => .raised
      | .ok true => .returned
      | .ok false =>
          match choice.written with
          | .error _ => .raised
          | .ok written =>
              if (Dict.get written "source").str? = some "ai" then
                .goto (.writing workflowId written)
              else .returned

def summarise (db : Db) (e : Envelope) (choice : Choice) : Next × Db :=
  let workflowId := Dict.get e.payload "workflow_id"
  if workflowId.truthy then
    match workflowId with
    | .str id =>
        after (transaction (load id) choice.faults db) fun found => rewriteSummary id found choice
    | _ => (.raised, db)
  else (.returned, db)

/-- The next transaction of a handler. -/
def handlerStep (env : Env) (db : Db) (e : Option Envelope) (choice : Choice) :
    Stage → Next × Db
  | .starting =>
      match e with
      | some e => startGuard env db e choice
      | none => (.raised, db)
  | .creating request => startCreate env db request choice
  | .rereading workflowId =>
      after (transaction (load workflowId) choice.faults db) fun _ => .goto (.queued workflowId)
  | .queued workflowId =>
      after (transaction (setStatus workflowId .running none none []) choice.faults db)
        fun _ => .goto (.advancing workflowId true)
  | .completing =>
      match e with
      | some e => complete env db e choice
      | none => (.raised, db)
  | .advancing workflowId fresh =>
      match ((claimAndLoad workflowId).run (.opened db choice.faults)).1 with
      | .error _ => (.raised, db)
      | .ok loaded => (.goto (.locked workflowId fresh loaded), db)
  | .locked workflowId fresh loaded =>
      after (transaction (advanceLoaded env choice.eventId workflowId loaded) choice.faults db)
        fun _ => if fresh then .goto (.closing workflowId) else .returned
  | .closing workflowId =>
      after (transaction (load workflowId) choice.faults db) fun _ => .returned
  | .summarising =>
      match e with
      | some e => summarise db e choice
      | none => (.raised, db)
  | .writing workflowId summary =>
      after (transaction (saveSummary workflowId summary) choice.faults db) fun _ => .returned

/-- The workflow row whose lock a stage holds. -/
def Stage.held : Stage → List String
  | .locked workflowId _ (some _) => [workflowId]
  | _ => []

/-- The workflow row a stage's transaction writes or locks, and so waits for. -/
def Stage.waitsFor : Stage → List String
  | .queued workflowId | .advancing workflowId _ | .writing workflowId _ => [workflowId]
  | _ => []

def Stage.drawsEventId : Stage → Bool
  | .locked _ _ _ => true
  | _ => false

/-- The handler a message is given to, or none for one no handler wants. -/
def entry (type : EventType) : Option Stage :=
  match type with
  | .workflowRequested => some .starting
  | .workflowCompleted => some .summarising
  | other => if (completions other).isSome then some .completing else none

def System.setWorker (s : System) (n : Nat) (w : Worker) : System :=
  { s with workers := fun m => if m = n then w else s.workers m }

def System.release (s : System) (stage : Stage) : System :=
  { s with locks := s.locks.filter fun l => l ∉ stage.held }

def System.acquire (s : System) (stage : Stage) : System :=
  { s with locks := stage.held ++ s.locks }

def System.ack (s : System) (e : Option Envelope) : System :=
  { s with acked := e.toList ++ s.acked }

def freshEventId (db : Db) (eventId : String) : Bool :=
  db.outbox.rows.all fun row => row.eventId ≠ eventId

def rememberHandled (seen : List String) : Option Envelope → List String
  | some e => remember seen e.id
  | none => seen

def settle (s : System) (n : Nat) (w : Worker) (e : Option Envelope) : Next → System
  | .goto stage => (s.setWorker n { w with job := some (e, stage) }).acquire stage
  | .returned => (s.setWorker n { job := none, seen := rememberHandled w.seen e }).ack e
  | .raised => s.setWorker n { w with job := none }

/-- A message reaches an idle worker. -/
def deliver (s : System) (n : Nat) (e : Envelope) : Option System :=
  match (s.workers n).job with
  | some _ => none
  | none =>
      if e.id ∈ (s.workers n).seen then some (s.ack e)
      else
        match entry e.type with
        | some stage => some (s.setWorker n { (s.workers n) with job := some (e, stage) })
        | none => some (settle s n (s.workers n) e .returned)

/-- The API hands a request it accepted to an idle thread. -/
def submit (s : System) (n : Nat) (request : StartRequest) : Option System :=
  match (s.workers n).job with
  | some _ => none
  | none =>
      some (s.setWorker n { (s.workers n) with job := some (none, .creating request) })

def runStep (env : Env) (s : System) (n : Nat) (choice : Choice) : Option System :=
  match (s.workers n).job with
  | none => none
  | some (e, stage) =>
      if stage.waitsFor.any (· ∈ s.locks) then none
      else if stage.drawsEventId && !freshEventId s.db choice.eventId then none
      else
        let (next, db) := handlerStep env s.db e choice stage
        some (settle { s.release stage with db := db } n (s.workers n) e next)

def crash (s : System) (n : Nat) : System :=
  match (s.workers n).job with
  | none => s.setWorker n { job := none, seen := [] }
  | some (_, stage) => (s.release stage).setWorker n { job := none, seen := [] }

/-- One step of the orchestrators: a message or a request arrives, a handler's
next transaction runs, a process dies, or time passes. -/
def step (env : Env) (s : System) : Label → Option System
  | .deliver n e => deliver s n e
  | .submit n request => submit s n request
  | .run n choice => runStep env s n choice
  | .crash n => some (crash s n)
  | .tick => some { s with db := { s.db with clock := s.db.clock + 1 } }

def System.initial : System where
  db := .empty
  locks := []
  workers := fun _ => { job := none, seen := [] }
  acked := []

section Ascii

/-- `str.lower` and `str.casefold` on ASCII. -/
def asciiLower (s : String) : String := String.ofList (s.toList.map Char.toLower)

def asciiRules : TextRules where
  lower := asciiLower
  casefold := asciiLower
  netlocFault _ := none

/-- The modules beside the engine, for texts in ASCII and reports without a
previous run. -/
def asciiEnv : Env where
  rules := asciiRules
  wording _ _ := "does not keep the schema"
  shown _ := ""
  otherSeed _ := .error (.typeError "expected a str")
  otherSeed_raises := by
    rintro v e ⟨⟩
    trivial
  otherError _ := .error (.database "ProgrammingError" "cannot adapt type 'dict'")
  iso _ := ""
  compare _ _ := .ok none
  deterministic _ :=
    .ok [("source", .str "rules"), ("text_fa", .str ""), ("next_actions", .arr []),
      ("watch_outs", .arr []), ("note", .null)]

/-- A server without faults, and the uuids drawn on it. -/
def drawn (eventId : String) : Choice where
  faults := []
  eventId := eventId
  uuid := "w"
  jobIds n := "job-" ++ toString n
  written := .error (.valueError "no model")

/-- A request for an audit, on the bus. -/
def auditRequest (id : String) (inputs : Inputs) : Envelope where
  id := id
  type := .workflowRequested
  payload :=
    [("workflow_id", .str "w"), ("goal", .str "site_audit"), ("inputs", .obj inputs.toDict)]
  producer := "orchestrator"
  occurredAt := 0
  tenantId := some "t"
  projectId := some "p"
  correlationId := some "w"

/-- The inputs of an audit of one site. -/
def oneSite : Inputs where
  startUrl := some "https://shop.ir"
  seed := none
  maxPages := none
  maxDepth := none
  trackKeywords := none
  optimizePages := none
  competitors := none
  competitorPages := none
  lang := none
  country := none

/-- A worker starts an audit, from the message to the first request. -/
def started (n : Nat) (e : Envelope) (eventId : String) : List Label :=
  .deliver n e :: List.replicate 7 (.run n (drawn eventId))

/-- The completion of a crawl, on the bus. -/
def crawlCompleted (id jobId : String) (rest : Dict) : Envelope where
  id := id
  type := .crawlCompleted
  payload := [("crawl_id", .str jobId)] ++ rest
  producer := "crawler"
  occurredAt := 0
  tenantId := some "t"
  projectId := some "p"
  correlationId := some "w"

/-- What a crawl says of a site it could read, next to its id. -/
def siteRead : Dict :=
  [("start_url", .str "https://shop.ir"), ("status", .str "completed"),
    ("overall_score", .int 80),
    ("stats", .obj [("pages_crawled", .int 3), ("indexable_pages", .int 3),
      ("total_issues", .int 2)])]

/-- What a crawl says of a site it could not read, next to its id. -/
def siteUnread : Dict :=
  [("start_url", .str "https://shop.ir"), ("status", .str "failed"), ("error", .str "timeout"),
    ("overall_score", .int 0),
    ("stats", .obj [("pages_crawled", .int 0), ("indexable_pages", .int 0),
      ("total_issues", .int 0)])]

/-- The completion of a study that found no keywords, on the bus. -/
def researched (id jobId : String) : Envelope where
  id := id
  type := .keywordResearched
  payload :=
    [("research_id", .str jobId), ("seed", .str "shop"), ("status", .str "completed"),
      ("total", .int 0)]
  producer := "keyword"
  occurredAt := 0
  tenantId := some "t"
  projectId := some "p"
  correlationId := some "w"

/-- The inputs of an audit of one site, next to another one. -/
def twoSites : Inputs := { oneSite with competitors := some ["https://rival.ir"] }

/-- The completion of a later step, on the bus. -/
def completed (type : EventType) (id : String) (payload : Dict) : Envelope where
  id := id
  type := type
  payload := payload
  producer := "worker"
  occurredAt := 0
  tenantId := some "t"
  projectId := some "p"
  correlationId := some "w"

/-- A worker handles a completion, from the message to the next request. -/
def handled (n : Nat) (e : Envelope) (eventId : String) : List Label :=
  .deliver n e :: List.replicate 3 (.run n (drawn eventId))

end Ascii

end SeoPlatform.Orchestrator.Workers
