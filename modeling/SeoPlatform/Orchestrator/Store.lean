import Mathlib.Data.List.Sort
import SeoPlatform.Foundation.SqlTransaction
import SeoPlatform.Orchestrator.Planner
import SeoPlatform.Shared.Events

namespace SeoPlatform.Orchestrator.Store

open SeoPlatform.Foundation.JsonValue
open SeoPlatform.Foundation.ConstrainedTable
open SeoPlatform.Foundation.SqlTransaction
open SeoPlatform.Orchestrator.Planner
open SeoPlatform.Shared.Exceptions
open SeoPlatform.Shared.Events

inductive WorkflowStatus where
  | queued
  | running
  | completed
  | failed
  deriving DecidableEq, Repr

def WorkflowStatus.name : WorkflowStatus → String
  | .queued => "queued"
  | .running => "running"
  | .completed => "completed"
  | .failed => "failed"

def WorkflowStatus.Terminal : WorkflowStatus → Prop
  | .completed | .failed => True
  | .queued | .running => False

instance : DecidablePred WorkflowStatus.Terminal
  | .completed | .failed => .isTrue trivial
  | .queued | .running => .isFalse id

inductive StepStatus where
  | pending
  | dispatched
  | completed
  | failed
  | skipped
  deriving DecidableEq, Repr

def StepStatus.name : StepStatus → String
  | .pending => "pending"
  | .dispatched => "dispatched"
  | .completed => "completed"
  | .failed => "failed"
  | .skipped => "skipped"

structure Step where
  position : Nat
  kind : StepKind
  jobId : String
  status : StepStatus
  error : Option String
  result : Option Dict
  params : Dict

structure Workflow where
  workflowId : String
  goal : String
  inputs : Inputs
  status : WorkflowStatus
  steps : List Step
  tenantId : Option String
  projectId : Option String
  error : Option String
  report : Option Dict
  createdAt : Nat
  updatedAt : Nat

def byPosition (steps : List Step) : List Step :=
  steps.insertionSort fun a b => a.position ≤ b.position

def Workflow.nextPending (workflow : Workflow) : Option Step :=
  (byPosition workflow.steps).find? fun s => s.status = .pending

structure WorkflowRow where
  id : String
  tenantId : Option String
  projectId : Option String
  goal : String
  inputs : Inputs
  status : WorkflowStatus
  error : Option String
  report : Option Dict
  createdAt : Nat
  updatedAt : Nat

structure StepRow extends Step where
  workflowId : String

def SameWorkflow (a b : WorkflowRow) : Prop := a.id = b.id

instance : DecidableRel SameWorkflow := fun a b => inferInstanceAs (Decidable (a.id = b.id))

/-- `UNIQUE (workflow_id, position)` and the unique index on `job_id`. -/
def SameStep (a b : StepRow) : Prop :=
  a.jobId = b.jobId ∨ a.workflowId = b.workflowId ∧ a.position = b.position

instance : DecidableRel SameStep := fun a b =>
  inferInstanceAs
    (Decidable (a.jobId = b.jobId ∨ a.workflowId = b.workflowId ∧ a.position = b.position))

/-- The tables of the orchestrator, and the server's clock. -/
structure Db where
  workflows : Table WorkflowRow SameWorkflow
  steps : Table StepRow SameStep
  outbox : Outbox
  clock : Nat

def Db.empty : Db where
  workflows := .empty
  steps := .empty
  outbox := .empty
  clock := 0

/-- What an UPDATE of a step sets. `none` leaves a column as it is. -/
structure StepUpdate where
  status : StepStatus
  result : Option (Option Dict)
  error : Option (Option String)

def StepRow.updated (r : StepRow) (u : StepUpdate) : StepRow :=
  { r with status := u.status, result := u.result.getD r.result, error := u.error.getD r.error }

/-- `UPDATE workflow_steps SET ... WHERE job_id = ... AND status = ...`, on a row. -/
def StepRow.updatedWhere (jobId : String) (status : StepStatus) (u : StepUpdate)
    (r : StepRow) : StepRow :=
  if r.jobId = jobId ∧ r.status = status then r.updated u else r

@[simp] theorem updatedWhere_jobId (jobId : String) (status : StepStatus) (u : StepUpdate)
    (r : StepRow) : (r.updatedWhere jobId status u).jobId = r.jobId := by
  unfold StepRow.updatedWhere
  split <;> rfl

@[simp] theorem updatedWhere_workflowId (jobId : String) (status : StepStatus) (u : StepUpdate)
    (r : StepRow) : (r.updatedWhere jobId status u).workflowId = r.workflowId := by
  unfold StepRow.updatedWhere
  split <;> rfl

@[simp] theorem updatedWhere_position (jobId : String) (status : StepStatus) (u : StepUpdate)
    (r : StepRow) : (r.updatedWhere jobId status u).position = r.position := by
  unfold StepRow.updatedWhere
  split <;> rfl

@[simp] theorem updatedWhere_kind (jobId : String) (status : StepStatus) (u : StepUpdate)
    (r : StepRow) : (r.updatedWhere jobId status u).kind = r.kind := by
  unfold StepRow.updatedWhere
  split <;> rfl

@[simp] theorem updatedWhere_params (jobId : String) (status : StepStatus) (u : StepUpdate)
    (r : StepRow) : (r.updatedWhere jobId status u).params = r.params := by
  unfold StepRow.updatedWhere
  split <;> rfl

theorem sameStep_of_updatedWhere (jobId : String) (status : StepStatus) (u : StepUpdate)
    (a b : StepRow)
    (h : SameStep (a.updatedWhere jobId status u) (b.updatedWhere jobId status u)) :
    SameStep a b := by
  simpa [SameStep] using h

def Db.updateStep (db : Db) (jobId : String) (status : StepStatus) (u : StepUpdate) : Db :=
  { db with steps := db.steps.update _ (sameStep_of_updatedWhere jobId status u) }

def WorkflowRow.withStatus (r : WorkflowRow) (status : WorkflowStatus) (report : Option Dict)
    (error : Option String) (now : Nat) : WorkflowRow :=
  { r with status := status, report := report.or r.report, error := error, updatedAt := now }

def WorkflowRow.withStatusWhere (workflowId : String) (status : WorkflowStatus)
    (report : Option Dict) (error : Option String) (now : Nat) (r : WorkflowRow) : WorkflowRow :=
  if r.id = workflowId then r.withStatus status report error now else r

@[simp] theorem withStatusWhere_id (workflowId : String) (status : WorkflowStatus)
    (report : Option Dict) (error : Option String) (now : Nat) (r : WorkflowRow) :
    (r.withStatusWhere workflowId status report error now).id = r.id := by
  unfold WorkflowRow.withStatusWhere
  split <;> rfl

theorem sameWorkflow_of_withStatusWhere (workflowId : String) (status : WorkflowStatus)
    (report : Option Dict) (error : Option String) (now : Nat) (a b : WorkflowRow)
    (h : SameWorkflow (a.withStatusWhere workflowId status report error now)
      (b.withStatusWhere workflowId status report error now)) : SameWorkflow a b := by
  simpa [SameWorkflow] using h

def Db.updateWorkflow (db : Db) (workflowId : String) (status : WorkflowStatus)
    (report : Option Dict) (error : Option String) : Db :=
  { db with
    workflows := db.workflows.update _
      (sameWorkflow_of_withStatusWhere workflowId status report error db.clock) }

def Db.workflow? (db : Db) (workflowId : String) : Option WorkflowRow :=
  db.workflows.rows.find? fun r => r.id = workflowId

def Db.stepsOf (db : Db) (workflowId : String) : List Step :=
  byPosition ((db.steps.rows.filter fun r => r.workflowId = workflowId).map StepRow.toStep)

def WorkflowRow.toWorkflow (r : WorkflowRow) (steps : List Step) : Workflow where
  workflowId := r.id
  goal := r.goal
  inputs := r.inputs
  status := r.status
  steps := steps
  tenantId := r.tenantId
  projectId := r.projectId
  error := r.error
  report := r.report
  createdAt := r.createdAt
  updatedAt := r.updatedAt

abbrev StoreTx := Tx Db Exn

def insertWorkflow (row : WorkflowRow) : StoreTx Unit :=
  statement fun db =>
    match db.workflows.insert row with
    | some workflows => .ok ((), { db with workflows := workflows })
    | none => .error (uniqueViolation "workflows_pkey")

def insertStep (row : StepRow) : StoreTx Unit :=
  statement fun db =>
    match db.steps.insert row with
    | some steps => .ok ((), { db with steps := steps })
    | none => .error (uniqueViolation "workflow_steps")

def plannedRow (workflowId : String) (s : PlannedStep) : StepRow where
  position := s.position
  kind := s.kind
  jobId := s.jobId
  status := .pending
  error := none
  result := none
  params := s.params
  workflowId := workflowId

def insertSteps (workflowId : String) : List PlannedStep → StoreTx Unit
  | [] => pure ()
  | s :: rest => do
      insertStep (plannedRow workflowId s)
      insertSteps workflowId rest

def queuedRow (workflowId goal : String) (inputs : Inputs) (tenantId projectId : Option String)
    (now : Nat) : WorkflowRow where
  id := workflowId
  tenantId := tenantId
  projectId := projectId
  goal := goal
  inputs := inputs
  status := .queued
  error := none
  report := none
  createdAt := now
  updatedAt := now

/-- The workflow and its whole plan, in one transaction. -/
def create (workflowId goal : String) (inputs : Inputs) (steps : List PlannedStep)
    (tenantId projectId : Option String) : StoreTx Unit := do
  let now ← query Db.clock
  insertWorkflow (queuedRow workflowId goal inputs tenantId projectId now)
  insertSteps workflowId steps

/-- `UPDATE ... WHERE job_id = ... AND status = 'dispatched' RETURNING workflow_id`. -/
def markStep (jobId : String) (status : StepStatus) (result : Option Dict)
    (error : Option String) : StoreTx (Option String) :=
  statement fun db =>
    let hit := db.steps.rows.find? fun r => r.jobId = jobId ∧ r.status = .dispatched
    .ok (hit.map StepRow.workflowId,
      db.updateStep jobId .dispatched ⟨status, some result, some error⟩)

def skipStep (jobId reason : String) : StoreTx Unit :=
  modify fun db => db.updateStep jobId .pending ⟨.skipped, none, some (some reason)⟩

def markDispatched (jobId : String) : StoreTx Unit :=
  modify fun db => db.updateStep jobId .pending ⟨.dispatched, none, none⟩

def load (workflowId : String) : StoreTx (Option Workflow) := do
  match ← query (Db.workflow? · workflowId) with
  | none => pure none
  | some row =>
      let steps ← query (Db.stepsOf · workflowId)
      pure (some (row.toWorkflow steps))

def Db.staged (subject : Subject) (db : Db) (event : PendingEvent) : Db :=
  { db with outbox := stage db.outbox event subject }

def stageEvents (subject : Subject) : List PendingEvent → StoreTx Unit
  | [] => pure ()
  | event :: rest => do
      modify fun db => db.staged subject event
      stageEvents subject rest

/-- `_set_status`: the UPDATE, and the events staged for the row's tenant. -/
def writeStatus (workflowId : String) (status : WorkflowStatus) (report : Option Dict)
    (error : Option String) (events : List PendingEvent) : StoreTx Unit := do
  modify fun db => db.updateWorkflow workflowId status report error
  if events = [] then pure ()
  else
    let row ← query (Db.workflow? · workflowId)
    stageEvents ⟨workflowId, row.bind WorkflowRow.tenantId, row.bind WorkflowRow.projectId⟩ events

def setStatus (workflowId : String) (status : WorkflowStatus) (report : Option Dict)
    (error : Option String) (events : List PendingEvent) : StoreTx (Option Workflow) := do
  writeStatus workflowId status report error events
  load workflowId

/-- `SELECT id FROM workflows WHERE id = ... FOR UPDATE`. Waiting for the lock
is the scheduler's part. -/
def lockRow (workflowId : String) : StoreTx (Option String) :=
  query fun db => (db.workflow? workflowId).map WorkflowRow.id

/-- The row `ORDER BY created_at DESC LIMIT 1` picks. -/
def latest : List WorkflowRow → Option WorkflowRow
  | [] => none
  | r :: rest =>
      match latest rest with
      | none => some r
      | some other => if r.createdAt < other.createdAt then some other else some r

def Db.previousRow (db : Db) (workflow : Workflow) (startUrl : String) : Option WorkflowRow :=
  latest (db.workflows.rows.filter fun r =>
    r.id ≠ workflow.workflowId ∧ r.goal = workflow.goal ∧ r.status = .completed ∧
      r.tenantId = workflow.tenantId ∧ r.inputs.startUrl = some startUrl ∧
      ∃ own ∈ db.workflow? workflow.workflowId, r.createdAt ≤ own.createdAt)

def previousCompleted (workflow : Workflow) : StoreTx (Option Workflow) := do
  match workflow.inputs.startUrl with
  | none => pure none
  | some startUrl =>
      if startUrl = "" then pure none
      else
        match ← query (Db.previousRow · workflow startUrl) with
        | none => pure none
        | some row => load row.id

def WorkflowRow.withSummary (workflowId : String) (summary : Dict) (now : Nat)
    (r : WorkflowRow) : WorkflowRow :=
  if r.id = workflowId ∧ r.status.Terminal then
    { r with
      report := some (Dict.set (r.report.getD []) "summary" (.obj summary))
      updatedAt := now }
  else r

@[simp] theorem withSummary_id (r : WorkflowRow) (workflowId : String) (summary : Dict)
    (now : Nat) : (r.withSummary workflowId summary now).id = r.id := by
  unfold WorkflowRow.withSummary
  split <;> rfl

theorem sameWorkflow_of_withSummary (workflowId : String) (summary : Dict) (now : Nat)
    (a b : WorkflowRow)
    (h : SameWorkflow (a.withSummary workflowId summary now)
      (b.withSummary workflowId summary now)) : SameWorkflow a b := by
  simpa [SameWorkflow] using h

def Db.updateSummary (db : Db) (workflowId : String) (summary : Dict) : Db :=
  { db with
    workflows := db.workflows.update _
      (sameWorkflow_of_withSummary workflowId summary db.clock) }

/-- `jsonb_set` of one key, for a workflow that has finished. -/
def saveSummary (workflowId : String) (summary : Dict) : StoreTx Bool :=
  statement fun db =>
    .ok (db.workflows.rows.any fun r => r.id = workflowId ∧ r.status.Terminal,
      db.updateSummary workflowId summary)

end SeoPlatform.Orchestrator.Store
