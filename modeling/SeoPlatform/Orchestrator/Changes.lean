import SeoPlatform.Orchestrator.Snapshots
import SeoPlatform.Orchestrator.Workers

namespace SeoPlatform.Orchestrator.Changes

open SeoPlatform.Foundation.JsonValue
open SeoPlatform.Foundation.ConstrainedTable
open SeoPlatform.Orchestrator.Planner
open SeoPlatform.Orchestrator.Store
open SeoPlatform.Orchestrator.StoreSpecs
open SeoPlatform.Orchestrator.Engine
open SeoPlatform.Orchestrator.AdvanceOutcomes
open SeoPlatform.Orchestrator.Snapshots
open SeoPlatform.Orchestrator.Workers
open SeoPlatform.Shared.Contracts
open SeoPlatform.Shared.Exceptions
open SeoPlatform.Shared.Events

/-- What is known about the messages and requests of a run. -/
structure Traffic where
  completion : EventType → Dict → Prop
  request : StartRequest → Prop

/-- Any message and any request. -/
def Traffic.any : Traffic where
  completion _ _ := True
  request _ := True

/-- What one step of the orchestrators may do to the tables. -/
inductive Change (env : Env) (traffic : Traffic) (s : Db) : Db → Prop
  | quiet {s' : Db} (hworkflows : s'.workflows = s.workflows) (hsteps : s'.steps = s.steps)
      (houtbox : s'.outbox = s.outbox) : Change env traffic s s'
  | created {s' : Db} {r : StartRequest} {jobIds : Nat → String} {steps : List PlannedStep}
      (hrequest : traffic.request r)
      (hplan : plan env.rules r.goal r.inputs jobIds = .ok steps)
      (hcreated : Created r.workflowId r.goal r.inputs steps r.tenantId r.projectId s s') :
      Change env traffic s s'
  | started {workflowId : String}
      (hqueued : ∃ row ∈ s.workflows.rows, row.id = workflowId ∧ row.status = .queued) :
      Change env traffic s (statusWritten s workflowId .running none none [])
  | marked {type : EventType} {payload : Dict} {c : Completion}
      (hpayload : traffic.completion type payload)
      (hread : readCompletion env type payload = .ok c) :
      Change env traffic s
        (s.updateStep c.jobId .dispatched ⟨c.status, some (some c.result), some c.error⟩)
  | advanced {s' : Db} {eventId workflowId : String} {w : Workflow}
      (hfresh : ∀ row ∈ s.outbox.rows, row.eventId ≠ eventId)
      (hw : snapshot s workflowId = some w) (hbegun : w.status ≠ .queued) (hact : Actionable w)
      (hadvances : Advances env eventId workflowId w s s') : Change env traffic s s'
  | summarised (workflowId : String) (summary : Dict) :
      Change env traffic s (s.updateSummary workflowId summary)

@[simp] theorem steps_updateWorkflow (s : Db) (workflowId : String) (status : WorkflowStatus)
    (report : Option Dict) (error : Option String) :
    (s.updateWorkflow workflowId status report error).steps = s.steps := rfl

@[simp] theorem outbox_updateWorkflow (s : Db) (workflowId : String) (status : WorkflowStatus)
    (report : Option Dict) (error : Option String) :
    (s.updateWorkflow workflowId status report error).outbox = s.outbox := rfl

@[simp] theorem workflows_updateStep (s : Db) (jobId : String) (status : StepStatus)
    (u : StepUpdate) : (s.updateStep jobId status u).workflows = s.workflows := rfl

@[simp] theorem outbox_updateStep (s : Db) (jobId : String) (status : StepStatus)
    (u : StepUpdate) : (s.updateStep jobId status u).outbox = s.outbox := rfl

@[simp] theorem steps_updateSummary (s : Db) (workflowId : String) (summary : Dict) :
    (s.updateSummary workflowId summary).steps = s.steps := rfl

@[simp] theorem outbox_updateSummary (s : Db) (workflowId : String) (summary : Dict) :
    (s.updateSummary workflowId summary).outbox = s.outbox := rfl

theorem staged_foldl (subject : Subject) (events : List PendingEvent) (s : Db) :
    (events.foldl (Db.staged subject) s).steps = s.steps ∧
      (events.foldl (Db.staged subject) s).workflows = s.workflows ∧
      (events.foldl (Db.staged subject) s).clock = s.clock := by
  induction events generalizing s with
  | nil => exact ⟨rfl, rfl, rfl⟩
  | cons event rest ih => exact ih (s.staged subject event)

@[simp] theorem steps_statusWritten (s : Db) (workflowId : String) (status : WorkflowStatus)
    (report : Option Dict) (error : Option String) (events : List PendingEvent) :
    (statusWritten s workflowId status report error events).steps = s.steps :=
  (staged_foldl _ events _).1

theorem workflows_statusWritten (s : Db) (workflowId : String) (status : WorkflowStatus)
    (report : Option Dict) (error : Option String) (events : List PendingEvent) :
    (statusWritten s workflowId status report error events).workflows.rows =
      s.workflows.rows.map (·.withStatusWhere workflowId status report error s.clock) := by
  have h := (staged_foldl ⟨workflowId,
    ((s.updateWorkflow workflowId status report error).workflow? workflowId).bind
      WorkflowRow.tenantId,
    ((s.updateWorkflow workflowId status report error).workflow? workflowId).bind
      WorkflowRow.projectId⟩ events (s.updateWorkflow workflowId status report error)).2.1
  exact congrArg Table.rows h

@[simp] theorem withStatusWhere_tenantId (workflowId : String) (status : WorkflowStatus)
    (report : Option Dict) (error : Option String) (now : Nat) (r : WorkflowRow) :
    (r.withStatusWhere workflowId status report error now).tenantId = r.tenantId := by
  unfold WorkflowRow.withStatusWhere
  split <;> rfl

@[simp] theorem withStatusWhere_projectId (workflowId : String) (status : WorkflowStatus)
    (report : Option Dict) (error : Option String) (now : Nat) (r : WorkflowRow) :
    (r.withStatusWhere workflowId status report error now).projectId = r.projectId := by
  unfold WorkflowRow.withStatusWhere
  split <;> rfl

theorem workflow?_updateWorkflow (s : Db) (workflowId other : String) (status : WorkflowStatus)
    (report : Option Dict) (error : Option String) :
    (s.updateWorkflow workflowId status report error).workflow? other =
      (s.workflow? other).map (·.withStatusWhere workflowId status report error s.clock) := by
  simp [Db.workflow?, Db.updateWorkflow, List.find?_map, Function.comp_def]

/-- For whom an event of a workflow is staged. -/
def subjectOf (s : Db) (workflowId : String) : Subject where
  jobId := workflowId
  tenantId := (s.workflow? workflowId).bind WorkflowRow.tenantId
  projectId := (s.workflow? workflowId).bind WorkflowRow.projectId

/-- The one event a status is written with goes to the end of the outbox, with
the tenant and the project of the row. -/
theorem outbox_statusWritten {s : Db} {workflowId : String} {status : WorkflowStatus}
    {report : Option Dict} {error : Option String} {event : PendingEvent}
    (hfresh : ∀ row ∈ s.outbox.rows, row.eventId ≠ event.eventId) :
    (statusWritten s workflowId status report error [event]).outbox.rows =
      s.outbox.rows ++ [stagedRow event (subjectOf s workflowId)] := by
  have hsubject : (⟨workflowId,
      ((s.updateWorkflow workflowId status report error).workflow? workflowId).bind
        WorkflowRow.tenantId,
      ((s.updateWorkflow workflowId status report error).workflow? workflowId).bind
        WorkflowRow.projectId⟩ : Subject) = subjectOf s workflowId := by
    rw [workflow?_updateWorkflow]
    unfold subjectOf
    cases s.workflow? workflowId <;> simp
  unfold statusWritten
  simp only [List.foldl_cons, List.foldl_nil, hsubject]
  exact rows_stage_of_fresh hfresh

theorem mem_workflows_statusWritten {s : Db} {workflowId : String} {status : WorkflowStatus}
    {report : Option Dict} {error : Option String} {events : List PendingEvent}
    {row' : WorkflowRow} :
    row' ∈ (statusWritten s workflowId status report error events).workflows.rows ↔
      ∃ row ∈ s.workflows.rows,
        row.withStatusWhere workflowId status report error s.clock = row' := by
  rw [workflows_statusWritten, List.mem_map]

/-- A request as it was built: its type and its job are those of the step. -/
theorem dispatchEvent_ok {env : Env} {eventId : String} {w : Workflow} {step : Step}
    {event : PendingEvent} (h : dispatchEvent env eventId w step = .ok event) :
    ∃ params, requestParams env w step = .ok params ∧
      Valid (requestOf step.kind).1 (((requestOf step.kind).2, Json.str step.jobId) :: params) ∧
      event = {
        type := (requestOf step.kind).1
        payload := ((requestOf step.kind).2, Json.str step.jobId) :: params
        producer := service
        eventId := eventId
        correlationId := some w.workflowId
        causationId := none } := by
  unfold dispatchEvent at h
  cases hparams : requestParams env w step with
  | error e => simp [hparams, bind, Except.bind] at h
  | ok params =>
      simp only [hparams, bind, Except.bind] at h
      cases hvalid : validateEvent env.wording (requestOf step.kind).1
          (((requestOf step.kind).2, Json.str step.jobId) :: params) with
      | error e => simp [hvalid] at h
      | ok u =>
          simp only [hvalid, Except.ok.injEq] at h
          exact ⟨params, rfl, validateEvent_ok.mp hvalid, h.symm⟩

/-- What `on_completion` reads is the event's, by the row of `completions`. -/
theorem readCompletion_ok {env : Env} {type : EventType} {payload : Dict} {c : Completion}
    (h : readCompletion env type payload = .ok c) :
    ∃ kind idField, completions type = some (kind, idField) ∧
      Dict.get payload idField = .str c.jobId ∧ c.jobId ≠ "" ∧
      stepResult kind payload = .ok c.result ∧
      errorText env (Dict.get payload "error") = .ok c.error ∧
      c.status =
        if (Dict.get payload "status").str? = some "failed" then .failed else .completed := by
  unfold readCompletion at h
  cases hkind : completions type with
  | none => simp [hkind] at h
  | some row =>
      rcases row with ⟨kind, idField⟩
      simp only [hkind] at h
      split at h
      · rename_i htruthy
        cases hresult : stepResult kind payload with
        | error e => simp [hresult, bind, Except.bind] at h
        | ok result =>
            cases herror : errorText env (Dict.get payload "error") with
            | error e => simp [hresult, herror, bind, Except.bind] at h
            | ok error =>
                simp only [hresult, herror, bind, Except.bind] at h
                split at h
                · rename_i id hid
                  cases h
                  rw [hid, truthy_str] at htruthy
                  exact ⟨kind, idField, rfl, hid, by simpa using htruthy, hresult, rfl, by simp⟩
                · simp at h
      · simp at h

/-- The events of a finish: the announcement where its payload keeps the
contract, else nothing. -/
theorem completedEvents_eq (env : Env) (eventId : String) (w : Workflow) (payload : Dict) :
    completedEvents env eventId w payload =
      if Valid .workflowCompleted payload then
        [{ type := .workflowCompleted
           payload := payload
           producer := service
           eventId := eventId
           correlationId := some w.workflowId
           causationId := none }]
      else [] := by
  unfold completedEvents validateEvent
  by_cases h : Valid .workflowCompleted payload
  · rw [if_pos h, if_pos h]
  · rw [if_neg h, if_neg h]

end SeoPlatform.Orchestrator.Changes
