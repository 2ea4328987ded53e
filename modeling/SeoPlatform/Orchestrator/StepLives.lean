import SeoPlatform.Orchestrator.Interleavings
import SeoPlatform.Orchestrator.NoWork

namespace SeoPlatform.Orchestrator.StepLives

open SeoPlatform.Foundation.JsonValue
open SeoPlatform.Foundation.ConstrainedTable
open SeoPlatform.Foundation.SequentialFlow
open SeoPlatform.Foundation.TransitionSystem
open SeoPlatform.Orchestrator.Planner
open SeoPlatform.Orchestrator.Store
open SeoPlatform.Orchestrator.StoreSpecs
open SeoPlatform.Orchestrator.Engine
open SeoPlatform.Orchestrator.AdvanceOutcomes
open SeoPlatform.Orchestrator.Snapshots
open SeoPlatform.Orchestrator.Workers
open SeoPlatform.Orchestrator.Changes
open SeoPlatform.Orchestrator.NoWork
open SeoPlatform.Orchestrator.FlowView
open SeoPlatform.Orchestrator.Refinement
open SeoPlatform.Orchestrator.Coherence
open SeoPlatform.Orchestrator.Frames
open SeoPlatform.Orchestrator.Soundness
open SeoPlatform.Orchestrator.Interleavings
open SeoPlatform.Shared.Contracts
open SeoPlatform.Shared.Events

/-- One move of a step's row. -/
inductive Moves (env : Env) (traffic : Traffic) (r : StepRow) : StepRow → Prop
  | stays : Moves env traffic r r
  | sent (hpending : r.status = .pending) :
      Moves env traffic r (r.updated ⟨.dispatched, none, none⟩)
  | passed (hpending : r.status = .pending) (hkind : MaySkip r.kind) (reason : String) :
      Moves env traffic r (r.updated ⟨.skipped, none, some (some reason)⟩)
  | marked {type : EventType} {payload : Dict} {c : Completion}
      (hdispatched : r.status = .dispatched) (hpayload : traffic.completion type payload)
      (hread : readCompletion env type payload = .ok c) (hjob : r.jobId = c.jobId) :
      Moves env traffic r (r.updated ⟨c.status, some (some c.result), some c.error⟩)

variable {env : Env} {traffic : Traffic} {s s' : Db}

/-- What a change does to the table of steps: each row makes one move at most,
or the rows of a plan come in. -/
inductive Reshapes (env : Env) (traffic : Traffic) (s s' : Db) : Prop
  | moved (f : StepRow → StepRow) (hrows : s'.steps.rows = s.steps.rows.map f)
      (hmoves : ∀ r ∈ s.steps.rows, Moves env traffic r (f r))
  | enrolled {r : StartRequest} {jobIds : Nat → String} {steps : List PlannedStep}
      (hrequest : traffic.request r)
      (hplan : plan env.rules r.goal r.inputs jobIds = .ok steps)
      (hcreated : Created r.workflowId r.goal r.inputs steps r.tenantId r.projectId s s')

theorem reshapes_of_steps (h : s'.steps = s.steps) : Reshapes env traffic s s' :=
  .moved id (by rw [h, List.map_id]) fun _ _ => .stays

theorem moves_sent (jobId : String) (r : StepRow) :
    Moves env traffic r (r.updatedWhere jobId .pending ⟨.dispatched, none, none⟩) := by
  unfold StepRow.updatedWhere
  split
  · rename_i hhit
    exact .sent hhit.2
  · exact .stays

theorem moves_passed {jobId : String} (reason : String) {r : StepRow}
    (hkind : r.jobId = jobId → MaySkip r.kind) :
    Moves env traffic r (r.updatedWhere jobId .pending ⟨.skipped, none, some (some reason)⟩) := by
  unfold StepRow.updatedWhere
  split
  · rename_i hhit
    exact .passed hhit.2 (hkind hhit.1) reason
  · exact .stays

/-- A step that is skipped is not dispatched in the same breath. -/
theorem moves_passed_sent {jobId : String} (jobId' reason : String) {r : StepRow}
    (hkind : r.jobId = jobId → MaySkip r.kind) :
    Moves env traffic r
      ((r.updatedWhere jobId .pending ⟨.skipped, none, some (some reason)⟩).updatedWhere jobId'
        .pending ⟨.dispatched, none, none⟩) := by
  by_cases hhit : r.jobId = jobId ∧ r.status = .pending
  · rw [updatedWhere_of_hit hhit.1 hhit.2, updatedWhere_of_miss (by simp [StepRow.updated])]
    exact .passed hhit.2 (hkind hhit.1) reason
  · rw [updatedWhere_of_miss hhit]
    exact moves_sent jobId' r

theorem steps_of_finishes {eventId : String} {w : Workflow} {status : WorkflowStatus}
    {error : Option String} (h : Finishes env eventId w status error s s') :
    s'.steps = s.steps := by
  obtain ⟨previous, report, -, rfl⟩ := h
  exact steps_statusWritten ..

theorem reshapes_of_skipped {step : Step} {reason : String}
    (hkind : ∀ r ∈ s.steps.rows, r.jobId = step.jobId → MaySkip r.kind)
    (h : s'.steps = (skipped s step reason).steps) : Reshapes env traffic s s' :=
  .moved (StepRow.updatedWhere step.jobId .pending ⟨.skipped, none, some (some reason)⟩)
    (by rw [h]; rfl) fun r hr => moves_passed reason (hkind r hr)

/-- What a change of the tables does to the steps. -/
theorem reshapes_of_change (h : Change env traffic s s') : Reshapes env traffic s s' := by
  cases h with
  | quiet _ hsteps _ => exact reshapes_of_steps hsteps
  | created hrequest hplan hcreated => exact .enrolled hrequest hplan hcreated
  | started _ => exact reshapes_of_steps (steps_statusWritten ..)
  | summarised _ _ => exact reshapes_of_steps rfl
  | @marked _ _ c hpayload hread =>
      refine .moved _ rfl fun r _ => ?_
      unfold StepRow.updatedWhere
      split
      · rename_i hhit
        exact .marked hhit.2 hpayload hread hhit.1
      · exact .stays
  | advanced _ hw _ _ hadvances =>
      cases hadvances with
      | fatal _ hfinish => exact reshapes_of_steps (steps_of_finishes hfinish)
      | done _ _ hfinish => exact reshapes_of_steps (steps_of_finishes hfinish)
      | refused _ _ _ _ hfinish => exact reshapes_of_steps (steps_of_finishes hfinish)
      | @sent step event _ _ _ =>
          refine .moved (StepRow.updatedWhere step.jobId .pending ⟨.dispatched, none, none⟩) ?_
            fun r _ => moves_sent _ r
          simp [dispatched, Db.updateStep]
      | @skipped _ step reason _ _ hnext hevent _ hpast =>
          have hkind : ∀ r ∈ s.steps.rows, r.jobId = step.jobId → MaySkip r.kind := by
            intro r hr hjob
            obtain ⟨own, hown, -, rfl⟩ :=
              (mem_steps_of_snapshot hw).mp (nextPending_eq_some hnext).1
            rw [eq_of_jobId hr hown hjob]
            exact maySkip_of_noWork (noWork_of_dispatchEvent hevent)
          cases hpast with
          | done _ hfinish => exact reshapes_of_skipped hkind (steps_of_finishes hfinish)
          | refused _ _ hfinish => exact reshapes_of_skipped hkind (steps_of_finishes hfinish)
          | @sent step' event _ _ =>
              refine .moved
                (StepRow.updatedWhere step'.jobId .pending ⟨.dispatched, none, none⟩ ∘
                  StepRow.updatedWhere step.jobId .pending ⟨.skipped, none, some (some reason)⟩)
                ?_ fun r hr => moves_passed_sent _ _ (hkind r hr)
              simp [dispatched, skipped, Db.updateStep]

/-- What a row says of the plan it comes from. -/
def plannedOf (r : StepRow) : PlannedStep where
  position := r.position
  kind := r.kind
  jobId := r.jobId
  params := r.params

@[simp] theorem plannedOf_plannedRow (workflowId : String) (p : PlannedStep) :
    plannedOf (plannedRow workflowId p) = p := rfl

/-- A move leaves a row the step it was planned as. -/
theorem identity_of_moves {r r' : StepRow} (h : Moves env traffic r r') :
    plannedOf r' = plannedOf r ∧ r'.workflowId = r.workflowId := by
  cases h <;> exact ⟨rfl, rfl⟩

theorem jobId_of_moves {r r' : StepRow} (h : Moves env traffic r r') : r'.jobId = r.jobId :=
  congrArg PlannedStep.jobId (identity_of_moves h).1

/-- A row after a change was there before it, or is new. -/
theorem row_before (h : Change env traffic s s') {r' : StepRow} (hr' : r' ∈ s'.steps.rows) :
    (∃ r ∈ s.steps.rows, Moves env traffic r r') ∨
      ∃ workflowId p, r' = plannedRow workflowId p := by
  cases reshapes_of_change h with
  | moved f hrows hmoves =>
      rw [hrows] at hr'
      obtain ⟨r, hr, rfl⟩ := List.mem_map.mp hr'
      exact .inl ⟨r, hr, hmoves r hr⟩
  | @enrolled request _ _ _ _ hcreated =>
      rcases (mem_steps_created hcreated).mp hr' with hr | ⟨p, -, rfl⟩
      · exact .inl ⟨r', hr, .stays⟩
      · exact .inr ⟨request.workflowId, p, rfl⟩

/-- A row before a change is there after it. -/
theorem row_after (h : Change env traffic s s') {r : StepRow} (hr : r ∈ s.steps.rows) :
    ∃ r' ∈ s'.steps.rows, Moves env traffic r r' := by
  cases reshapes_of_change h with
  | moved f hrows hmoves =>
      refine ⟨f r, ?_, hmoves r hr⟩
      rw [hrows]
      exact List.mem_map.mpr ⟨r, hr, rfl⟩
  | enrolled _ _ hcreated => exact ⟨r, (mem_steps_created hcreated).mpr (.inl hr), .stays⟩

/-- The step was sent out at some time. -/
def StepStatus.Launched (status : StepStatus) : Prop :=
  status = .dispatched ∨ status = .completed ∨ status = .failed

theorem launched_iff {kind : StepKind} {status : StepStatus} :
    (progressOf kind status).Launched ↔ StepStatus.Launched status := by
  cases status with
  | failed =>
      by_cases hoptional : Optional kind <;>
        simp [progressOf, Progress.Launched, StepStatus.Launched, hoptional]
  | pending | dispatched | completed | skipped =>
      simp [progressOf, Progress.Launched, StepStatus.Launched]

theorem outcome_of_completion {type : EventType} {payload : Dict} {c : Completion}
    (h : readCompletion env type payload = .ok c) : c.status = .completed ∨ c.status = .failed := by
  obtain ⟨-, -, -, -, -, -, -, hstatus⟩ := readCompletion_ok h
  rw [hstatus]
  split
  · exact .inr rfl
  · exact .inl rfl

/-- A step that was sent out stays sent out. -/
theorem launched_of_moves {r r' : StepRow} (h : Moves env traffic r r')
    (hlaunched : StepStatus.Launched r.status) : StepStatus.Launched r'.status := by
  cases h with
  | stays => exact hlaunched
  | sent _ => exact .inl rfl
  | passed hpending _ _ =>
      rw [hpending] at hlaunched
      simp [StepStatus.Launched] at hlaunched
  | marked _ _ hread _ => exact .inr (outcome_of_completion hread)

/-- A step gets into flight by being dispatched. -/
theorem dispatched_of_moves {r r' : StepRow} (h : Moves env traffic r r')
    (hbefore : ¬ StepStatus.Launched r.status) (hafter : StepStatus.Launched r'.status) :
    r'.status = .dispatched := by
  cases h with
  | stays => exact absurd hafter hbefore
  | sent _ => rfl
  | passed _ _ _ => simp [StepStatus.Launched, StepRow.updated] at hafter
  | marked hdispatched _ _ _ => exact absurd (.inl hdispatched) hbefore

end SeoPlatform.Orchestrator.StepLives
