import SeoPlatform.Orchestrator.Changes
import SeoPlatform.Orchestrator.FlowView

namespace SeoPlatform.Orchestrator.Refinement

open SeoPlatform.Foundation.JsonValue
open SeoPlatform.Foundation.ConstrainedTable
open SeoPlatform.Foundation.SequentialFlow
open SeoPlatform.Orchestrator.Planner
open SeoPlatform.Orchestrator.Store
open SeoPlatform.Orchestrator.StoreSpecs
open SeoPlatform.Orchestrator.Engine
open SeoPlatform.Orchestrator.AdvanceOutcomes
open SeoPlatform.Orchestrator.Snapshots
open SeoPlatform.Orchestrator.Changes
open SeoPlatform.Orchestrator.FlowView
open SeoPlatform.Shared.Contracts
open SeoPlatform.Shared.Events

/-- What an outbox row that asks for a job says about the step it asks for. -/
def AsksFor (o : OutboxRow) (r : StepRow) : Prop :=
  requestJob o = some r.jobId ∧ o.eventType = (requestOf r.kind).1 ∧
    o.correlationId = some r.workflowId

theorem requestField_of_requestJob {o : OutboxRow} {job : String} (h : requestJob o = some job) :
    (requestField o.eventType).isSome := by
  obtain ⟨field, hfield, -⟩ := Option.bind_eq_some_iff.mp h
  rw [hfield]
  rfl

/-- How the rows of the three tables belong together. -/
structure Linked (db : Db) : Prop where
  owned : ∀ r ∈ db.steps.rows, ∃ row ∈ db.workflows.rows, row.id = r.workflowId
  queued : ∀ row ∈ db.workflows.rows, row.status = .queued →
    ∀ r ∈ db.steps.rows, r.workflowId = row.id → r.status = .pending
  closed : ∀ row ∈ db.workflows.rows, row.status.Terminal →
    ∀ r ∈ db.steps.rows, r.workflowId = row.id → r.status ≠ .dispatched
  requested : ∀ o ∈ db.outbox.rows, (requestField o.eventType).isSome →
    ∃ r ∈ db.steps.rows, AsksFor o r

/-- The invariant of the tables: their rows belong together, and every
workflow is an orderly flow. -/
structure Coherent (db : Db) : Prop extends Linked db where
  orderly : ∀ workflowId, (flow db workflowId).Orderly

theorem coherent_empty : Coherent .empty where
  owned r hr := by simp [Db.empty] at hr
  queued row hrow := by simp [Db.empty] at hrow
  closed row hrow := by simp [Db.empty] at hrow
  requested o ho := by simp [Db.empty] at ho
  orderly _ := Flow.orderly_idle (fun _ => .inl rfl) rfl

/-- A workflow in which nothing failed for good and nothing is in flight. -/
structure Ready (db : Db) (workflowId : String) : Prop where
  sound : ∀ r ∈ db.steps.rows, r.workflowId = workflowId → r.status = .failed → Optional r.kind
  idle : ∀ r ∈ db.steps.rows, r.workflowId = workflowId → r.status ≠ .dispatched

theorem ready_of_snapshot {s : Db} {workflowId : String} {w : Workflow}
    (hw : snapshot s workflowId = some w) (hact : Actionable w) (hsound : fatalSteps w = []) :
    Ready s workflowId where
  sound r hr hworkflow hfailed := by
    have hmem := (mem_steps_of_snapshot hw).mpr ⟨r, hr, hworkflow, rfl⟩
    by_contra hrequired
    have hfatal : r.toStep ∈ fatalSteps w :=
      List.mem_filter.mpr ⟨hmem, by simp [hfailed, hrequired]⟩
    rw [hsound] at hfatal
    exact List.not_mem_nil hfatal
  idle r hr hworkflow :=
    hact.idle hsound _ ((mem_steps_of_snapshot hw).mpr ⟨r, hr, hworkflow, rfl⟩)

theorem ready_skipped {s : Db} {workflowId : String} (h : Ready s workflowId) (step : Step)
    (reason : String) : Ready (skipped s step reason) workflowId where
  sound r' hr' hworkflow hfailed := by
    obtain ⟨r, hr, rfl⟩ := mem_updateStep.mp hr'
    by_cases hhit : r.jobId = step.jobId ∧ r.status = .pending
    · rw [updatedWhere_of_hit hhit.1 hhit.2] at hfailed
      exact absurd hfailed (by simp [StepRow.updated])
    · rw [updatedWhere_of_miss hhit] at hworkflow hfailed ⊢
      exact h.sound r hr hworkflow hfailed
  idle r' hr' hworkflow := by
    obtain ⟨r, hr, rfl⟩ := mem_updateStep.mp hr'
    by_cases hhit : r.jobId = step.jobId ∧ r.status = .pending
    · rw [updatedWhere_of_hit hhit.1 hhit.2]
      simp [StepRow.updated]
    · rw [updatedWhere_of_miss hhit] at hworkflow ⊢
      exact h.idle r hr hworkflow

theorem requestField_requestOf (kind : StepKind) :
    requestField (requestOf kind).1 = some (requestOf kind).2 := by
  cases kind <;> rfl

/-- The row a dispatch stages asks for its step. -/
theorem asksFor_stagedRow {env : Env} {eventId : String} {w : Workflow} {r : StepRow}
    {event : PendingEvent} (h : dispatchEvent env eventId w r.toStep = .ok event)
    (hworkflow : w.workflowId = r.workflowId) (subject : Subject)
    (hsubject : subject.jobId = r.workflowId) : AsksFor (stagedRow event subject) r := by
  obtain ⟨params, -, -, rfl⟩ := dispatchEvent_ok h
  refine ⟨?_, rfl, ?_⟩
  · simp [requestJob, stagedRow, requestField_requestOf, Dict.get]
  · simp only [stagedRow, textOr, hworkflow, hsubject]
    split <;> rfl

/-- In a ready workflow the first pending step is due. -/
theorem due_of_nextPending {s : Db} {workflowId : String} {w : Workflow} {step : Step}
    (hw : snapshot s workflowId = some w) (hready : Ready s workflowId)
    (hnext : w.nextPending = some step) :
    ∃ r ∈ s.steps.rows, r.workflowId = workflowId ∧ r.toStep = step ∧ r.status = .pending ∧
      (flow s workflowId).Due r.position := by
  obtain ⟨hstep, hpending, hfirst⟩ := nextPending_eq_some hnext
  obtain ⟨r, hr, hworkflow, rfl⟩ := (mem_steps_of_snapshot hw).mp hstep
  subst hworkflow
  refine ⟨r, hr, rfl, rfl, hpending, ?_, fun position hlt => ?_⟩
  · rw [progress_of_mem hr, hpending]
    rfl
  · by_cases habsent : (flow s r.workflowId).progress position = .absent
    · exact .inl habsent
    · obtain ⟨r', hr', hworkflow', rfl⟩ := exists_row_of_progress habsent
      have hmem : r'.toStep ∈ w.steps := (mem_steps_of_snapshot hw).mpr ⟨r', hr', hworkflow', rfl⟩
      rw [← hworkflow', progress_of_mem hr']
      cases hstatus : r'.status with
      | pending => exact absurd (hfirst _ hmem hstatus) (Nat.not_le.mpr hlt)
      | dispatched => exact absurd hstatus (hready.idle r' hr' hworkflow')
      | completed => exact .inr (.inl rfl)
      | skipped => exact .inr (.inr (.inr rfl))
      | failed =>
          have hoptional := hready.sound r' hr' hworkflow' hstatus
          exact .inr (.inr (.inl (by simp [progressOf, hoptional])))

/-- No other row has the job of a row. -/
theorem miss_of_hit {s : Db} {r : StepRow} (hr : r ∈ s.steps.rows) {other : String}
    (hother : other ≠ r.workflowId) (status : StepStatus) :
    ∀ r' ∈ s.steps.rows, r'.workflowId = other → ¬ (r'.jobId = r.jobId ∧ r'.status = status) := by
  rintro r' hr' hworkflow ⟨hjob, -⟩
  exact hother (hworkflow ▸ congrArg StepRow.workflowId (eq_of_jobId hr' hr hjob))

theorem flow_statusWritten_of_silent {s : Db} {workflowId : String} {status : WorkflowStatus}
    {report : Option Dict} {error : Option String} {events : List PendingEvent}
    (hfresh : ∀ event ∈ events, ∀ row ∈ s.outbox.rows, row.eventId ≠ event.eventId)
    (hevents : events = [] ∨ ∃ event, events = [event] ∧ requestField event.type = none)
    (other : String) :
    flow (statusWritten s workflowId status report error events) other = flow s other := by
  rcases hevents with rfl | ⟨event, rfl, hsilent⟩
  · exact flow_congr (fun _ => rfl) rfl
  · rw [flow_of_outbox other (steps_statusWritten s workflowId status report error [event])
      (outbox_statusWritten (hfresh event (List.mem_singleton_self _)))]
    simp [requestedPosition, requestJob, stagedRow, hsilent]

/-- A finish moves no stage and launches none. -/
theorem flow_of_finishes {env : Env} {eventId : String} {w : Workflow}
    {status : WorkflowStatus} {error : Option String} {s s' : Db}
    (hfresh : ∀ row ∈ s.outbox.rows, row.eventId ≠ eventId)
    (h : Finishes env eventId w status error s s') (other : String) :
    flow s' other = flow s other := by
  obtain ⟨previous, report, -, rfl⟩ := h
  rw [completedEvents_eq]
  refine flow_statusWritten_of_silent ?_ ?_ other
  · split
    · intro event hevent
      obtain rfl := List.mem_singleton.mp hevent
      exact hfresh
    · simp
  · split
    · exact .inr ⟨_, rfl, rfl⟩
    · exact .inl rfl

/-- A skip is one move of the flow of its workflow, and no move of another. -/
theorem flow_of_skipped {s : Db} {r : StepRow} (hr : r ∈ s.steps.rows)
    (hpending : r.status = .pending) (hdue : (flow s r.workflowId).Due r.position)
    (reason other : String) :
    Relation.ReflTransGen Flow.Step (flow s other)
      (flow (skipped s r.toStep reason) other) := by
  unfold skipped
  by_cases hother : other = r.workflowId
  · subst hother
    have hhit := flow_updateStep_hit hr ⟨.skipped, none, some (some reason)⟩
    rw [hpending] at hhit
    rw [hhit]
    exact .single (.skip hdue)
  · rw [flow_updateStep_miss _ (miss_of_hit hr hother .pending)]

/-- A dispatch is one launch in the flow of its workflow. -/
theorem flow_of_dispatched {env : Env} {eventId : String} {s : Db} {w : Workflow} {r : StepRow}
    {event : PendingEvent} (hfresh : ∀ row ∈ s.outbox.rows, row.eventId ≠ eventId)
    (hr : r ∈ s.steps.rows) (hworkflow : w.workflowId = r.workflowId)
    (hpending : r.status = .pending) (hdue : (flow s r.workflowId).Due r.position)
    (hevent : dispatchEvent env eventId w r.toStep = .ok event) (other : String) :
    Relation.ReflTransGen Flow.Step (flow s other)
      (flow (dispatched s r.workflowId r.toStep event) other) := by
  obtain ⟨params, -, -, hshape⟩ := dispatchEvent_ok hevent
  have hfresh' : ∀ row ∈ s.outbox.rows, row.eventId ≠ event.eventId := by
    rw [hshape]
    exact hfresh
  obtain ⟨hjob, -, -⟩ := asksFor_stagedRow hevent hworkflow (subjectOf s r.workflowId) rfl
  have houtbox : (statusWritten s r.workflowId .running none none [event]).outbox.rows =
      s.outbox.rows ++ [stagedRow event (subjectOf s r.workflowId)] :=
    outbox_statusWritten hfresh'
  have hwritten := fun workflowId =>
    flow_of_outbox workflowId (steps_statusWritten s r.workflowId .running none none [event])
      houtbox
  have hr' : r ∈ (statusWritten s r.workflowId .running none none [event]).steps.rows := by
    rw [steps_statusWritten]
    exact hr
  unfold dispatched
  by_cases hother : other = r.workflowId
  · subst hother
    have hposition : requestedPosition s r.workflowId
        (stagedRow event (subjectOf s r.workflowId)) = some r.position :=
      requestedPosition_eq_some.mpr ⟨r, hr, hjob, rfl, rfl⟩
    have hhit := flow_updateStep_hit hr' ⟨.dispatched, none, none⟩
    rw [hpending, hwritten] at hhit
    rw [hhit]
    simp only [List.filterMap_cons, hposition, List.filterMap_nil]
    exact .single (.launch hdue)
  · have hposition : requestedPosition s other
        (stagedRow event (subjectOf s r.workflowId)) = none := by
      by_contra hsome
      obtain ⟨position, hposition⟩ := Option.ne_none_iff_exists'.mp hsome
      obtain ⟨r', hr', hjob', hworkflow', -⟩ := requestedPosition_eq_some.mp hposition
      rw [hjob, Option.some.injEq] at hjob'
      exact hother (hworkflow' ▸ congrArg StepRow.workflowId (eq_of_jobId hr' hr hjob'.symm))
    rw [flow_updateStep_miss _ (miss_of_hit hr' hother .pending), hwritten]
    simp only [List.filterMap_cons, hposition, List.filterMap_nil, List.append_nil]
    exact .refl

/-- Marking a step moves its stage out of flight, where it was in flight. -/
theorem flow_of_marked {env : Env} {s : Db} {type : EventType} {payload : Dict}
    {c : Completion} (hread : readCompletion env type payload = .ok c) (other : String) :
    Relation.ReflTransGen Flow.Step (flow s other)
      (flow (s.updateStep c.jobId .dispatched ⟨c.status, some (some c.result), some c.error⟩)
        other) := by
  by_cases hhit : ∃ r ∈ s.steps.rows, r.workflowId = other ∧
      r.jobId = c.jobId ∧ r.status = .dispatched
  · obtain ⟨r, hr, rfl, hjob, hstatus⟩ := hhit
    have hflow := flow_updateStep_hit hr ⟨c.status, some (some c.result), some c.error⟩
    rw [hjob, hstatus] at hflow
    rw [hflow]
    refine .single (.settle ?_ ?_)
    · rw [progress_of_mem hr, hstatus]
      rfl
    · obtain ⟨-, -, -, -, -, -, -, houtcome⟩ := readCompletion_ok hread
      rw [houtcome]
      split <;> by_cases hoptional : Optional r.kind <;> simp [progressOf, hoptional]
  · rw [flow_updateStep_miss]
    intro r hr hworkflow h
    exact hhit ⟨r, hr, hworkflow, h⟩

end SeoPlatform.Orchestrator.Refinement
