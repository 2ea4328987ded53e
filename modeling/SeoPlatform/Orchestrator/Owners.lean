import SeoPlatform.Orchestrator.OneAudit
import SeoPlatform.Orchestrator.Requests
import SeoPlatform.Services.JobOwners

namespace SeoPlatform.Orchestrator.Owners

open SeoPlatform.Foundation.JsonValue
open SeoPlatform.Foundation.TransitionSystem
open SeoPlatform.Orchestrator.Changes
open SeoPlatform.Orchestrator.FlowView
open SeoPlatform.Orchestrator.Firings
open SeoPlatform.Orchestrator.Interleavings
open SeoPlatform.Orchestrator.Plans
open SeoPlatform.Orchestrator.Refinement
open SeoPlatform.Orchestrator.Requests
open SeoPlatform.Orchestrator.Schedules
open SeoPlatform.Orchestrator.Snapshots
open SeoPlatform.Orchestrator.Staging
open SeoPlatform.Orchestrator.Store
open SeoPlatform.Orchestrator.StoreSpecs
open SeoPlatform.Orchestrator.Engine
open SeoPlatform.Orchestrator.Workers
open SeoPlatform.Services.JobOwners
open SeoPlatform.Shared.Contracts
open SeoPlatform.Shared.Events

/-- Whom a workflow is done for. -/
def ownerOf (row : WorkflowRow) : Owner where
  workflowId := row.id
  tenantId := row.tenantId
  projectId := row.projectId

/-- Whom the workflow that a schedule fires is done for. -/
def firedFor (firing : Firing) : Owner where
  workflowId := firing.workflowId
  tenantId := firing.schedule.tenantId
  projectId := firing.schedule.projectId

/-- An event is about a workflow: it asks for the job of one of its steps, or announces
its finish. -/
inductive Concerns (db : Db) (workflowId : String) (o : OutboxRow) : Prop
  | request {c : StepRow} (hc : c ∈ db.steps.rows) (hown : c.workflowId = workflowId)
      (hjob : requestJob o = some c.jobId)
  | announcement (htype : o.eventType = .workflowCompleted)
      (hid : Dict.get? o.payload "workflow_id" = some (.str workflowId))

/-- Every event is about a workflow, and carries its owner. -/
def Filed (db : Db) : Prop :=
  ∀ o ∈ db.outbox.rows, ∃ row ∈ db.workflows.rows, RowFor (ownerOf row) o ∧
    ((requestField o.eventType).isSome ∨ o.eventType = .workflowCompleted ∧
      Dict.get? o.payload "workflow_id" = some (.str row.id))

variable {env : Env} {traffic : Traffic} {s s' : Db}

theorem ownerOf_of_same {row row' : WorkflowRow} (h : SameIdentity row row') :
    ownerOf row' = ownerOf row := by
  unfold ownerOf
  rw [h.id, h.tenantId, h.projectId]

theorem filed_of_change (h : Filed s) (hchange : Change env traffic s s') : Filed s' := by
  have hkept : ∀ o, (∃ row ∈ s.workflows.rows, RowFor (ownerOf row) o ∧
      ((requestField o.eventType).isSome ∨ o.eventType = .workflowCompleted ∧
        Dict.get? o.payload "workflow_id" = some (.str row.id))) →
      ∃ row ∈ s'.workflows.rows, RowFor (ownerOf row) o ∧
        ((requestField o.eventType).isSome ∨ o.eventType = .workflowCompleted ∧
          Dict.get? o.payload "workflow_id" = some (.str row.id)) := by
    rintro o ⟨row, hrow, hfor⟩
    obtain ⟨row', hrow', hsame⟩ := workflow_after hchange hrow
    refine ⟨row', hrow', ?_⟩
    rwa [ownerOf_of_same hsame, hsame.id]
  intro o ho
  apply hkept
  cases stages_of_change hchange with
  | nothing houtbox =>
      rw [houtbox] at ho
      exact h o ho
  | @one row new hrow hlive houtbox hfor hkind hnamed =>
      rw [houtbox] at ho
      rcases List.mem_append.mp ho with hold | hnew
      · exact h o hold
      · obtain rfl := List.mem_singleton.mp hnew
        refine ⟨row, hrow, ⟨hfor.correlation, hfor.tenant, hfor.project⟩, ?_⟩
        exact hkind.imp_right fun hcompleted => ⟨hcompleted.1, hnamed hcompleted.1⟩

/-- An event that is about a workflow carries its owner. -/
theorem rowFor_of_concerns (hcoherent : Coherent s) (hfiled : Filed s) {row : WorkflowRow}
    (hrow : row ∈ s.workflows.rows) {o : OutboxRow} (ho : o ∈ s.outbox.rows)
    (h : Concerns s row.id o) : RowFor (ownerOf row) o := by
  obtain ⟨other, hother, hfor, hkind⟩ := hfiled o ho
  suffices hid : other.id = row.id by
    rwa [← eq_of_id hother hrow hid]
  cases h with
  | @request c hc hown hjob =>
      obtain ⟨r, hr, hjob', -, hcorrelation⟩ :=
        hcoherent.requested o ho (requestField_of_requestJob hjob)
      obtain rfl := eq_of_jobId hr hc (Option.some.inj (hjob'.symm.trans hjob))
      rw [← hown]
      exact Option.some.inj (hfor.correlation.symm.trans hcorrelation)
  | announcement htype hid =>
      rcases hkind with hrequest | ⟨-, hnamed⟩
      · rw [htype] at hrequest
        contradiction
      · exact Json.str.inj (Option.some.inj (hnamed.symm.trans hid))

/-- Every event is about a workflow. -/
theorem concerns_of_mem (hcoherent : Coherent s) (hfiled : Filed s) {o : OutboxRow}
    (ho : o ∈ s.outbox.rows) : ∃ row ∈ s.workflows.rows, Concerns s row.id o := by
  obtain ⟨row, hrow, hfor, hkind⟩ := hfiled o ho
  refine ⟨row, hrow, ?_⟩
  rcases hkind with hrequest | ⟨htype, hnamed⟩
  · obtain ⟨r, hr, hjob, -, hcorrelation⟩ := hcoherent.requested o ho hrequest
    refine .request hr ?_ hjob
    exact Option.some.inj (hcorrelation.symm.trans hfor.correlation)
  · exact .announcement htype hnamed

/-- The rows of the outbox stay. -/
theorem outbox_of_change (h : Change env traffic s s') {o : OutboxRow}
    (ho : o ∈ s.outbox.rows) : o ∈ s'.outbox.rows := by
  cases stages_of_change h with
  | nothing houtbox => rwa [houtbox]
  | one _ _ houtbox _ _ _ =>
      rw [houtbox]
      exact List.mem_append_left _ ho

/-- The event of a firing carries the owner of its schedule. -/
theorem rowFor_firing {firing : Firing} (h : firing.workflowId ≠ "") :
    RowFor (firedFor firing) (Firing.row firing) where
  correlation := by simp [Firing.row, stagedRow, Firing.request, firedFor, textOr, h]
  tenant := rfl
  project := rfl

end SeoPlatform.Orchestrator.Owners
