import SeoPlatform.Orchestrator.Changes

namespace SeoPlatform.Orchestrator.HandlerOutcomes

open SeoPlatform.Foundation.JsonValue
open SeoPlatform.Foundation.SqlTransaction
open SeoPlatform.Orchestrator.Planner
open SeoPlatform.Orchestrator.Store
open SeoPlatform.Orchestrator.StoreSpecs
open SeoPlatform.Orchestrator.Engine
open SeoPlatform.Orchestrator.AdvanceOutcomes
open SeoPlatform.Orchestrator.Workers
open SeoPlatform.Shared.Contracts
open SeoPlatform.Shared.Exceptions
open SeoPlatform.Shared.Events

/-- What the next transaction of a handler comes to: where the handler goes on,
and what it leaves in the tables. -/
inductive Outcome (env : Env) (db : Db) (e : Option Envelope) (choice : Choice) :
    Stage → Next → Db → Prop
  | raised {stage : Stage} : Outcome env db e choice stage .raised db
  | known {e' : Envelope} (he : e = some e')
      (hknown : (snapshot db (requestedId e'.payload choice.uuid)).isSome) :
      Outcome env db e choice .starting .returned db
  | requested {e' : Envelope} (he : e = some e') (hvalid : Valid .workflowRequested e'.payload) :
      Outcome env db e choice .starting (.goto (.creating (startRequest e' choice.uuid))) db
  | created {request : StartRequest} {steps : List PlannedStep} {db' : Db}
      (hplan : plan env.rules request.goal request.inputs choice.jobIds = .ok steps)
      (hcreated : Created request.workflowId request.goal request.inputs steps request.tenantId
        request.projectId db db') :
      Outcome env db e choice (.creating request) (.goto (.rereading request.workflowId)) db'
  | reread {workflowId : String} :
      Outcome env db e choice (.rereading workflowId) (.goto (.queued workflowId)) db
  | begun {workflowId : String} :
      Outcome env db e choice (.queued workflowId) (.goto (.advancing workflowId true))
        (statusWritten db workflowId .running none none [])
  | marked {e' : Envelope} {c : Completion} (he : e = some e')
      (hread : readCompletion env e'.type e'.payload = .ok c) :
      Outcome env db e choice .completing
        (afterMark ((db.steps.rows.find? fun r => r.jobId = c.jobId ∧ r.status = .dispatched).map
          StepRow.workflowId))
        (db.updateStep c.jobId .dispatched ⟨c.status, some (some c.result), some c.error⟩)
  | claimed {workflowId : String} {fresh : Bool} :
      Outcome env db e choice (.advancing workflowId fresh)
        (.goto (.locked workflowId fresh (snapshot db workflowId))) db
  | waited {workflowId : String} {fresh : Bool} {loaded : Option Workflow}
      (hidle : ∀ w, loaded = some w → ¬ Actionable w) :
      Outcome env db e choice (.locked workflowId fresh loaded)
        (if fresh then .goto (.closing workflowId) else .returned) db
  | advanced {workflowId : String} {fresh : Bool} {w : Workflow} {db' : Db} (hact : Actionable w)
      (hadvances : Advances env choice.eventId workflowId w db db') :
      Outcome env db e choice (.locked workflowId fresh (some w))
        (if fresh then .goto (.closing workflowId) else .returned) db'
  | closed {workflowId : String} : Outcome env db e choice (.closing workflowId) .returned db
  | unwritten : Outcome env db e choice .summarising .returned db
  | written {workflowId : String} {summary : Dict} :
      Outcome env db e choice .summarising (.goto (.writing workflowId summary)) db
  | saved {workflowId : String} {summary : Dict} :
      Outcome env db e choice (.writing workflowId summary) .returned
        (db.updateSummary workflowId summary)

/-- A handler's transaction raises on the tables as they were, or goes on as its
program's specification says. -/
theorem after_transaction {α : Type} {p : StoreTx α} {R : Db → α → Db → Prop} (hp : Meets p R)
    (hclean : Clean p) (faults : List (Option Exn)) (db : Db) (next : α → Next) :
    after (transaction p faults db) next = (.raised, db) ∨
      ∃ a db', after (transaction p faults db) next = (next a, db') ∧ R db a db' := by
  rcases transaction_meets hp hclean faults db with ⟨err, h⟩ | ⟨a, db', h, hR⟩
  · exact .inl (by rw [h]; rfl)
  · exact .inr ⟨a, db', by rw [h]; rfl, hR⟩

variable {env : Env} {db : Db} {e : Option Envelope} {choice : Choice} {stage : Stage}

/-- A stage whose transaction meets its specification has an outcome where each
result that the specification allows is one. -/
theorem outcome_of_transaction {α : Type} {p : StoreTx α} {R : Db → α → Db → Prop}
    (hp : Meets p R) (hclean : Clean p) {next : α → Next}
    (h : ∀ a db', R db a db' → Outcome env db e choice stage (next a) db') :
    Outcome env db e choice stage (after (transaction p choice.faults db) next).1
      (after (transaction p choice.faults db) next).2 := by
  rcases after_transaction hp hclean choice.faults db next with hrun | ⟨a, db', hrun, hR⟩
  · rw [hrun]
    exact .raised
  · rw [hrun]
    exact h a db' hR

theorem outcome_of_start (e' : Envelope) :
    Outcome env db (some e') choice .starting (startGuard env db e' choice).1
      (startGuard env db e' choice).2 := by
  unfold startGuard
  cases hvalid : validateEvent env.wording .workflowRequested e'.payload with
  | error err => exact .raised
  | ok u =>
      refine outcome_of_transaction (load_meets _) (load_firm _).clean ?_
      rintro found db' ⟨rfl, rfl⟩
      split
      · rename_i hknown
        exact .known rfl hknown
      · exact .requested rfl (validateEvent_ok.mp hvalid)

theorem outcome_of_create (request : StartRequest) :
    Outcome env db e choice (.creating request) (startCreate env db request choice).1
      (startCreate env db request choice).2 := by
  unfold startCreate
  cases hplan : plan env.rules request.goal request.inputs choice.jobIds with
  | error err => exact .raised
  | ok steps =>
      refine outcome_of_transaction (create_meets _ _ _ _ _ _) (create_firm _ _ _ _ _ _).clean ?_
      exact fun _ db' hcreated => .created hplan hcreated

theorem outcome_of_complete (e' : Envelope) :
    Outcome env db (some e') choice .completing (complete env db e' choice).1
      (complete env db e' choice).2 := by
  unfold complete
  cases hread : readCompletion env e'.type e'.payload with
  | error err => exact .raised
  | ok c =>
      refine outcome_of_transaction (markStep_meets _ _ _ _) (statement_firm _).clean ?_
      rintro hit db' ⟨rfl, rfl⟩
      exact .marked rfl hread

theorem outcome_of_claim (workflowId : String) (fresh : Bool) :
    Outcome env db e choice (.advancing workflowId fresh)
      (handlerStep env db e choice (.advancing workflowId fresh)).1
      (handlerStep env db e choice (.advancing workflowId fresh)).2 := by
  simp only [handlerStep]
  rcases hrun : (claimAndLoad workflowId).run (.opened db choice.faults) with ⟨err | loaded, x⟩
  · exact .raised
  · have hfirm : x.aborted = false :=
      (bind_firm fun _ => load_firm workflowId : Firm (claimAndLoad workflowId)) _ _ _ hrun
    obtain ⟨-, -, rfl⟩ := claimAndLoad_meets workflowId _ _ _ hrun hfirm
    exact .claimed

theorem outcome_of_rewrite (workflowId : String) (found : Option Workflow) :
    Outcome env db e choice .summarising (rewriteSummary workflowId found choice) db := by
  unfold rewriteSummary
  split
  · exact .unwritten
  · split
    · exact .raised
    · exact .unwritten
    · split
      · exact .raised
      · split
        · exact .written
        · exact .unwritten

theorem outcome_of_summarise (e' : Envelope) :
    Outcome env db (some e') choice .summarising (summarise db e' choice).1
      (summarise db e' choice).2 := by
  unfold summarise
  dsimp only
  split
  · split
    · refine outcome_of_transaction (load_meets _) (load_firm _).clean ?_
      rintro found db' ⟨rfl, -⟩
      exact outcome_of_rewrite _ found
    · exact .raised
  · exact .unwritten

/-- Every transaction of a handler has one of the outcomes of its stage. -/
theorem outcome_of_handlerStep (env : Env) (db : Db) (e : Option Envelope) (choice : Choice)
    (stage : Stage) :
    Outcome env db e choice stage (handlerStep env db e choice stage).1
      (handlerStep env db e choice stage).2 := by
  cases stage with
  | starting =>
      cases e with
      | none => exact .raised
      | some e' => exact outcome_of_start e'
  | creating request => exact outcome_of_create request
  | rereading workflowId =>
      refine outcome_of_transaction (load_meets _) (load_firm _).clean ?_
      rintro found db' ⟨rfl, -⟩
      exact .reread
  | queued workflowId =>
      refine outcome_of_transaction (setStatus_meets _ _ _ _ _) (setStatus_firm _ _ _ _ _).clean ?_
      rintro row db' rfl
      exact .begun
  | completing =>
      cases e with
      | none => exact .raised
      | some e' => exact outcome_of_complete e'
  | advancing workflowId fresh => exact outcome_of_claim workflowId fresh
  | locked workflowId fresh loaded =>
      refine outcome_of_transaction (advanceLoaded_meets env choice.eventId workflowId loaded)
        (advanceLoaded_clean _ _ _ _) ?_
      rintro a db' (⟨hidle, rfl⟩ | ⟨w, rfl, hact, hadvances⟩)
      · exact .waited hidle
      · exact .advanced hact hadvances
  | closing workflowId =>
      refine outcome_of_transaction (load_meets _) (load_firm _).clean ?_
      rintro found db' ⟨rfl, -⟩
      exact .closed
  | summarising =>
      cases e with
      | none => exact .raised
      | some e' => exact outcome_of_summarise e'
  | writing workflowId summary =>
      refine outcome_of_transaction (saveSummary_meets _ _) (statement_firm _).clean ?_
      rintro a db' rfl
      exact .saved

end SeoPlatform.Orchestrator.HandlerOutcomes
