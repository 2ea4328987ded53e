import SeoPlatform.Orchestrator.Conclusions

namespace SeoPlatform.Orchestrator.Requests

open SeoPlatform.Foundation.JsonValue
open SeoPlatform.Foundation.SequentialFlow
open SeoPlatform.Orchestrator.Planner
open SeoPlatform.Orchestrator.Store
open SeoPlatform.Orchestrator.StoreSpecs
open SeoPlatform.Orchestrator.Engine
open SeoPlatform.Orchestrator.AdvanceOutcomes
open SeoPlatform.Orchestrator.Snapshots
open SeoPlatform.Orchestrator.Changes
open SeoPlatform.Orchestrator.NoWork
open SeoPlatform.Orchestrator.FlowView
open SeoPlatform.Orchestrator.Refinement
open SeoPlatform.Orchestrator.Coherence
open SeoPlatform.Orchestrator.StepLives
open SeoPlatform.Orchestrator.Staging
open SeoPlatform.Orchestrator.Plans
open SeoPlatform.Orchestrator.Conclusions
open SeoPlatform.Shared.Contracts
open SeoPlatform.Shared.Exceptions
open SeoPlatform.Shared.Events

variable {env : Env} {traffic : Traffic} {s s' t : Db} {w : Workflow} {r : StepRow}
  {event : PendingEvent}

/-- The rows of one table of steps are those of another, moved. -/
def Moved (env : Env) (traffic : Traffic) (s t : Db) : Prop :=
  ∃ f : StepRow → StepRow, t.steps.rows = s.steps.rows.map f ∧
    ∀ r ∈ s.steps.rows, Moves env traffic r (f r)

theorem Moved.refl (s : Db) : Moved env traffic s s :=
  ⟨id, (List.map_id _).symm, fun _ _ => .stays⟩

theorem Moved.allRecorded (h : Moved env traffic s t) (hrecorded : AllRecorded env traffic s) :
    AllRecorded env traffic t := by
  obtain ⟨f, hrows, hmoves⟩ := h
  intro r hr
  rw [hrows] at hr
  obtain ⟨old, hold, rfl⟩ := List.mem_map.mp hr
  exact recorded_of_moves (hrecorded old hold) (hmoves old hold)

/-- A change that asks for the job of a step: the tables and the workflow the
request is made from, the step's row, and the request. -/
structure Asks (env : Env) (traffic : Traffic) (s s' t : Db) (w : Workflow) (r : StepRow)
    (event : PendingEvent) : Prop where
  workflows : t.workflows = s.workflows
  moved : Moved env traffic s t
  read : snapshot t r.workflowId = some w
  ready : Ready t r.workflowId
  mem : r ∈ t.steps.rows
  due : (flow t r.workflowId).Due r.position
  asked : dispatchEvent env event.eventId w r.toStep = .ok event
  steps : s'.steps = (dispatched t r.workflowId r.toStep event).steps
  outbox : s'.outbox.rows =
    s.outbox.rows ++ [stagedRow event (subjectOf s r.workflowId)]

theorem asks_of_dispatched {eventId workflowId : String} {step : Step}
    (hworkflows : t.workflows = s.workflows) (houtbox : t.outbox = s.outbox)
    (hmoved : Moved env traffic s t) (hfresh : ∀ o ∈ s.outbox.rows, o.eventId ≠ eventId)
    (hw : snapshot t workflowId = some w) (hready : Ready t workflowId)
    (hnext : w.nextPending = some step) (hevent : dispatchEvent env eventId w step = .ok event)
    (hafter : s' = dispatched t workflowId step event) :
    ∃ t w r event, Asks env traffic s s' t w r event := by
  obtain ⟨r, hr, rfl, rfl, -, hdue⟩ := due_of_nextPending hw hready hnext
  have hid : event.eventId = eventId := by
    obtain ⟨params, -, -, rfl⟩ := dispatchEvent_ok hevent
    rfl
  refine ⟨t, w, r, event, hworkflows, hmoved, hw, hready, hr, hdue, hid ▸ hevent, by rw [hafter],
    ?_⟩
  have hsubject : subjectOf t r.workflowId = subjectOf s r.workflowId := by
    simp [subjectOf, Db.workflow?, hworkflows]
  rw [← hsubject, ← houtbox, hafter]
  refine outbox_statusWritten fun o ho => ?_
  rw [hid]
  exact hfresh o (houtbox ▸ ho)

theorem moved_skipped {workflowId reason : String} {step : Step} {eventId : String}
    (hw : snapshot s workflowId = some w) (hnext : w.nextPending = some step)
    (hevent : dispatchEvent env eventId w step = .error (.noWorkToDo reason)) :
    Moved env traffic s (skipped s step reason) := by
  refine ⟨_, rfl, fun r hr => moves_passed reason fun hjob => ?_⟩
  obtain ⟨own, hown, -, rfl⟩ := (mem_steps_of_snapshot hw).mp (nextPending_eq_some hnext).1
  rw [eq_of_jobId hr hown hjob]
  exact maySkip_of_noWork (noWork_of_dispatchEvent hevent)

/-- The rows a finish is about are those before it, moved. -/
theorem moved_of_concludes {eventId workflowId : String} {w' : Workflow}
    {status : WorkflowStatus} {error : Option String} (hw : snapshot s workflowId = some w)
    (h : Concludes env eventId workflowId w s w' t status error) : Moved env traffic s t := by
  cases h with
  | fatal | done | refused => exact .refl s
  | donePast _ hnext hevent _ _ => exact moved_skipped hw hnext hevent
  | refusedPast _ hnext hevent _ _ _ => exact moved_skipped hw hnext hevent

/-- What a change adds to the outbox: nothing, an announcement, or a request. -/
theorem asks_of_change (h : Change env traffic s s') :
    s'.outbox.rows = s.outbox.rows ∨
      (∃ o, s'.outbox.rows = s.outbox.rows ++ [o] ∧ o.eventType = .workflowCompleted) ∨
      ∃ t w r event, Asks env traffic s s' t w r event := by
  have hfinished : ∀ {t : Db} {eventId : String} {w : Workflow} {status : WorkflowStatus}
      {error : Option String}, t.outbox = s.outbox →
        (∀ o ∈ s.outbox.rows, o.eventId ≠ eventId) →
          Finishes env eventId w status error t s' → s'.outbox.rows = s.outbox.rows ∨
            (∃ o, s'.outbox.rows = s.outbox.rows ++ [o] ∧ o.eventType = .workflowCompleted) ∨
            ∃ t w r event, Asks env traffic s s' t w r event := by
    intro t eventId w status error houtbox hfresh hfinish
    rcases outbox_of_finishes (houtbox ▸ hfresh) hfinish with hsame | ⟨payload, hone, -⟩
    · exact .inl (by rw [hsame, houtbox])
    · exact .inr (.inl ⟨_, by rw [hone, houtbox], rfl⟩)
  cases h with
  | quiet _ _ houtbox => exact .inl (by rw [houtbox])
  | created _ _ hcreated => exact .inl (by rw [hcreated.outbox])
  | started _ => exact .inl rfl
  | marked _ _ => exact .inl rfl
  | summarised _ _ => exact .inl rfl
  | advanced hfresh hw _ hact hadvances =>
      cases hadvances with
      | fatal _ hfinish => exact hfinished rfl hfresh hfinish
      | done _ _ hfinish => exact hfinished rfl hfresh hfinish
      | refused _ _ _ _ hfinish => exact hfinished rfl hfresh hfinish
      | sent hsound hnext hevent =>
          exact .inr (.inr (asks_of_dispatched rfl rfl (.refl s) hfresh hw
            (ready_of_snapshot hw hact hsound) hnext hevent rfl))
      | @skipped _ step reason after hsound hnext hevent hafter hpast =>
          have hworkflows : (skipped s step reason).workflows = s.workflows := rfl
          have houtbox : (skipped s step reason).outbox = s.outbox := rfl
          cases hpast with
          | done _ hfinish => exact hfinished houtbox hfresh hfinish
          | refused _ _ hfinish => exact hfinished houtbox hfresh hfinish
          | sent hnext' hevent' =>
              have hmoved : Moved env traffic s (skipped s step reason) :=
                moved_skipped hw hnext hevent
              have hready := ready_skipped (ready_of_snapshot hw hact hsound) step reason
              exact .inr (.inr
                (asks_of_dispatched hworkflows houtbox hmoved hfresh hafter hready hnext' hevent'
                  rfl))

end SeoPlatform.Orchestrator.Requests
