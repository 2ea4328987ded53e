import SeoPlatform.Orchestrator.StepLives

namespace SeoPlatform.Orchestrator.Staging

open SeoPlatform.Foundation.JsonValue
open SeoPlatform.Orchestrator.Store
open SeoPlatform.Orchestrator.StoreSpecs
open SeoPlatform.Orchestrator.Engine
open SeoPlatform.Orchestrator.AdvanceOutcomes
open SeoPlatform.Orchestrator.Snapshots
open SeoPlatform.Orchestrator.Workers
open SeoPlatform.Orchestrator.Changes
open SeoPlatform.Orchestrator.FlowView
open SeoPlatform.Orchestrator.Refinement
open SeoPlatform.Orchestrator.Coherence
open SeoPlatform.Shared.Contracts
open SeoPlatform.Shared.Events

variable {env : Env} {traffic : Traffic} {s s' : Db} {eventId : String}

/-- The announcement of a finish. -/
def announcement (eventId : String) (w : Workflow) (payload : Dict) : PendingEvent where
  type := .workflowCompleted
  payload := payload
  producer := service
  eventId := eventId
  correlationId := some w.workflowId
  causationId := none

/-- What a row of the outbox says of the workflow it is staged for. -/
structure StagedFor (row : WorkflowRow) (o : OutboxRow) : Prop where
  correlation : o.correlationId = some row.id
  tenant : o.tenantId = row.tenantId
  project : o.projectId = row.projectId

/-- What a change adds to the outbox: nothing, or one event of a workflow
under way. -/
inductive Stages (s s' : Db) : Prop
  | nothing (houtbox : s'.outbox.rows = s.outbox.rows)
  | one {row : WorkflowRow} {o : OutboxRow} (hrow : row ∈ s.workflows.rows)
      (hlive : ¬ row.status.Terminal) (houtbox : s'.outbox.rows = s.outbox.rows ++ [o])
      (hfor : StagedFor row o)
      (hkind : (requestField o.eventType).isSome ∨ o.eventType = .workflowCompleted ∧
        ∃ row' ∈ s'.workflows.rows, row'.id = row.id ∧ row'.status.Terminal)
      (hnamed : o.eventType = .workflowCompleted →
        Dict.get? o.payload "workflow_id" = some (.str row.id))

theorem subjectOf_of_mem {row : WorkflowRow} (h : row ∈ s.workflows.rows) :
    subjectOf s row.id = ⟨row.id, row.tenantId, row.projectId⟩ := by
  have hrow := workflow?_eq_some.mpr ⟨h, rfl⟩
  simp [subjectOf, hrow]

/-- An event staged for the subject of a workflow is staged for its row. -/
theorem stagedFor_stagedRow {row : WorkflowRow} (h : row ∈ s.workflows.rows)
    {event : PendingEvent} (hevent : event.correlationId = some row.id) :
    StagedFor row (stagedRow event (subjectOf s row.id)) := by
  rw [subjectOf_of_mem h]
  refine ⟨?_, rfl, rfl⟩
  simp only [stagedRow, hevent, textOr]
  split <;> rfl

theorem outbox_of_finishes {w : Workflow} {status : WorkflowStatus} {error : Option String}
    (hfresh : ∀ row ∈ s.outbox.rows, row.eventId ≠ eventId)
    (h : Finishes env eventId w status error s s') :
    s'.outbox.rows = s.outbox.rows ∨ ∃ payload,
      s'.outbox.rows =
        s.outbox.rows ++
          [stagedRow (announcement eventId w payload) (subjectOf s w.workflowId)] ∧
      Dict.get? payload "workflow_id" = some (.str w.workflowId) := by
  obtain ⟨previous, report, -, rfl⟩ := h
  rw [completedEvents_eq]
  split
  · exact .inr ⟨_, outbox_statusWritten hfresh, rfl⟩
  · exact .inl rfl

theorem workflows_of_finishes {w : Workflow} {status : WorkflowStatus} {error : Option String}
    (h : Finishes env eventId w status error s s') {row : WorkflowRow}
    (hrow : row ∈ s.workflows.rows) (hid : row.id = w.workflowId) :
    ∃ row' ∈ s'.workflows.rows, row'.id = row.id ∧ row'.status = status := by
  obtain ⟨previous, report, -, rfl⟩ := h
  refine ⟨_, mem_workflows_statusWritten.mpr ⟨row, hrow, rfl⟩, withStatusWhere_id .., ?_⟩
  rw [withStatusWhere_of_eq hid]
  rfl

theorem stages_of_finishes {w : Workflow} {status : WorkflowStatus} {error : Option String}
    {row : WorkflowRow} (hfresh : ∀ row ∈ s.outbox.rows, row.eventId ≠ eventId)
    (hrow : row ∈ s.workflows.rows) (hid : row.id = w.workflowId)
    (hlive : ¬ row.status.Terminal) (h : Finishes env eventId w status error s s')
    (hterminal : status.Terminal) : Stages s s' := by
  rcases outbox_of_finishes hfresh h with houtbox | ⟨payload, houtbox, hnamed⟩
  · exact .nothing houtbox
  · rw [← hid] at houtbox hnamed
    refine .one hrow hlive houtbox
      (stagedFor_stagedRow hrow (congrArg some hid.symm)) (.inr ⟨rfl, ?_⟩) fun _ => hnamed
    obtain ⟨row', hrow', hid', hstatus⟩ := workflows_of_finishes h hrow hid
    exact ⟨row', hrow', hid', hstatus ▸ hterminal⟩

theorem stages_of_dispatched {w : Workflow} {step : Step} {event : PendingEvent}
    {row : WorkflowRow} (hfresh : ∀ row ∈ s.outbox.rows, row.eventId ≠ eventId)
    (hrow : row ∈ s.workflows.rows) (hid : row.id = w.workflowId)
    (hlive : ¬ row.status.Terminal) (h : dispatchEvent env eventId w step = .ok event) :
    Stages s (dispatched s row.id step event) := by
  obtain ⟨params, -, -, rfl⟩ := dispatchEvent_ok h
  refine .one hrow hlive (outbox_statusWritten hfresh)
    (stagedFor_stagedRow hrow (congrArg some hid.symm)) (.inl ?_) fun hcompleted => ?_
  · simp [stagedRow, requestField_requestOf]
  · have hfield := requestField_requestOf step.kind
    have hnone : requestField (requestOf step.kind).1 = none := congrArg requestField hcompleted
    rw [hfield] at hnone
    contradiction

theorem Stages.after_skip (step : Step) (reason : String)
    (h : Stages (skipped s step reason) s') : Stages s s' := by
  cases h with
  | nothing houtbox => exact .nothing houtbox
  | one hrow hlive houtbox hfor hkind hnamed =>
      exact .one hrow hlive houtbox hfor hkind hnamed

/-- What a change of the tables adds to the outbox. -/
theorem stages_of_change (h : Change env traffic s s') : Stages s s' := by
  cases h with
  | quiet _ _ houtbox => exact .nothing (by rw [houtbox])
  | created _ _ hcreated => exact .nothing (by rw [hcreated.outbox])
  | started _ => exact .nothing rfl
  | marked _ _ => exact .nothing rfl
  | summarised _ _ => exact .nothing rfl
  | @advanced _ eventId workflowId w hfresh hw _ hact hadvances =>
      obtain ⟨row, hrow, rfl, rfl⟩ := snapshot_eq_some.mp hw
      have hlive := hact.live
      cases hadvances with
      | fatal _ hfinish => exact stages_of_finishes hfresh hrow rfl hlive hfinish trivial
      | done _ _ hfinish => exact stages_of_finishes hfresh hrow rfl hlive hfinish trivial
      | refused _ _ _ _ hfinish => exact stages_of_finishes hfresh hrow rfl hlive hfinish trivial
      | sent _ _ hevent => exact stages_of_dispatched hfresh hrow rfl hlive hevent
      | @skipped _ step reason after _ _ _ hafter hpast =>
          have hid := workflowId_of_snapshot hafter
          have hrow' : row ∈ (skipped s step reason).workflows.rows := hrow
          have hfresh' : ∀ row ∈ (skipped s step reason).outbox.rows, row.eventId ≠ eventId :=
            hfresh
          refine Stages.after_skip step reason ?_
          cases hpast with
          | done _ hfinish => exact stages_of_finishes hfresh' hrow' hid.symm hlive hfinish trivial
          | refused _ _ hfinish =>
              exact stages_of_finishes hfresh' hrow' hid.symm hlive hfinish trivial
          | sent _ hevent => exact stages_of_dispatched hfresh' hrow' hid.symm hlive hevent

end SeoPlatform.Orchestrator.Staging
