import SeoPlatform.Orchestrator.Refinement

namespace SeoPlatform.Orchestrator.Coherence

open SeoPlatform.Foundation.JsonValue
open SeoPlatform.Foundation.ConstrainedTable
open SeoPlatform.Foundation.SequentialFlow
open SeoPlatform.Orchestrator.Planner
open SeoPlatform.Orchestrator.Store
open SeoPlatform.Orchestrator.StoreSpecs
open SeoPlatform.Orchestrator.Engine
open SeoPlatform.Orchestrator.AdvanceOutcomes
open SeoPlatform.Orchestrator.Snapshots
open SeoPlatform.Orchestrator.Workers
open SeoPlatform.Orchestrator.Changes
open SeoPlatform.Orchestrator.FlowView
open SeoPlatform.Orchestrator.Refinement
open SeoPlatform.Shared.Contracts
open SeoPlatform.Shared.Events

theorem asksFor_updatedWhere {o : OutboxRow} {r : StepRow} (h : AsksFor o r) (jobId : String)
    (status : StepStatus) (u : StepUpdate) : AsksFor o (r.updatedWhere jobId status u) := by
  simpa [AsksFor] using h

/-- A failure that stops a workflow leaves nothing in flight. -/
theorem idle_of_fatal {s : Db} (h : Coherent s) {workflowId : String} {w : Workflow}
    (hw : snapshot s workflowId = some w) (hfatal : fatalSteps w ≠ []) :
    ∀ r ∈ s.steps.rows, r.workflowId = workflowId → r.status ≠ .dispatched := by
  intro r hr hworkflow hdispatched
  obtain ⟨t, ht⟩ := List.exists_mem_of_ne_nil _ hfatal
  obtain ⟨hmem, hfailed⟩ := List.mem_filter.mp ht
  simp only [decide_eq_true_eq] at hfailed
  obtain ⟨rt, hrt, hworkflow', rfl⟩ := (mem_steps_of_snapshot hw).mp hmem
  have hflight : (flow s workflowId).progress r.position = .inFlight := by
    rw [← hworkflow, progress_of_mem hr, hdispatched]
    rfl
  have hstop : (flow s workflowId).progress rt.position = .failed := by
    rw [← hworkflow', progress_of_mem hrt, hfailed.1]
    simp [progressOf, hfailed.2]
  have horder := h.orderly workflowId
  rcases Nat.lt_trichotomy r.position rt.position with hlt | heq | hlt
  · have hpassed := horder.before _ _ hlt (by simp [hstop]) (by simp [hstop])
    rw [hflight] at hpassed
    exact not_passed_inFlight hpassed
  · rw [heq, hstop] at hflight
    contradiction
  · have hpassed := horder.before _ _ hlt (by simp [hflight]) (by simp [hflight])
    rw [hstop] at hpassed
    simp [Progress.Passed] at hpassed

/-- A workflow `advance` acts on has nothing in flight. -/
theorem idle_of_actionable {s : Db} (h : Coherent s) {workflowId : String} {w : Workflow}
    (hw : snapshot s workflowId = some w) (hact : Actionable w) :
    ∀ r ∈ s.steps.rows, r.workflowId = workflowId → r.status ≠ .dispatched := by
  by_cases hsound : fatalSteps w = []
  · exact (ready_of_snapshot hw hact hsound).idle
  · exact idle_of_fatal h hw hsound

theorem linked_updateStep {s : Db} (h : Linked s) {jobId : String} {status : StepStatus}
    {u : StepUpdate}
    (hopen : ∀ r ∈ s.steps.rows, r.jobId = jobId → r.status = status →
      ∀ row ∈ s.workflows.rows, row.id = r.workflowId →
        row.status ≠ .queued ∧ (u.status = .dispatched → ¬ row.status.Terminal)) :
    Linked (s.updateStep jobId status u) where
  owned r' hr' := by
    obtain ⟨r, hr, rfl⟩ := mem_updateStep.mp hr'
    simpa using h.owned r hr
  queued row hrow hqueued r' hr' hworkflow := by
    obtain ⟨r, hr, rfl⟩ := mem_updateStep.mp hr'
    rw [updatedWhere_workflowId] at hworkflow
    by_cases hhit : r.jobId = jobId ∧ r.status = status
    · exact absurd hqueued (hopen r hr hhit.1 hhit.2 row hrow hworkflow.symm).1
    · rw [updatedWhere_of_miss hhit]
      exact h.queued row hrow hqueued r hr hworkflow
  closed row hrow hterminal r' hr' hworkflow := by
    obtain ⟨r, hr, rfl⟩ := mem_updateStep.mp hr'
    rw [updatedWhere_workflowId] at hworkflow
    by_cases hhit : r.jobId = jobId ∧ r.status = status
    · rw [updatedWhere_of_hit hhit.1 hhit.2]
      intro hdispatched
      exact (hopen r hr hhit.1 hhit.2 row hrow hworkflow.symm).2 hdispatched hterminal
    · rw [updatedWhere_of_miss hhit]
      exact h.closed row hrow hterminal r hr hworkflow
  requested o ho hfield := by
    obtain ⟨r, hr, hasks⟩ := h.requested o ho hfield
    exact ⟨_, mem_updateStep.mpr ⟨r, hr, rfl⟩, asksFor_updatedWhere hasks jobId status u⟩

theorem withStatusWhere_of_ne {r : WorkflowRow} {workflowId : String} {status : WorkflowStatus}
    {report : Option Dict} {error : Option String} {now : Nat} (h : r.id ≠ workflowId) :
    r.withStatusWhere workflowId status report error now = r := by
  simp [WorkflowRow.withStatusWhere, h]

theorem withStatusWhere_of_eq {r : WorkflowRow} {workflowId : String} {status : WorkflowStatus}
    {report : Option Dict} {error : Option String} {now : Nat} (h : r.id = workflowId) :
    r.withStatusWhere workflowId status report error now =
      r.withStatus status report error now := by
  simp [WorkflowRow.withStatusWhere, h]

theorem linked_statusWritten {s : Db} (h : Linked s) {workflowId : String}
    {status : WorkflowStatus} {report : Option Dict} {error : Option String}
    {events : List PendingEvent} (hbegun : status ≠ .queued)
    (hidle : status.Terminal →
      ∀ r ∈ s.steps.rows, r.workflowId = workflowId → r.status ≠ .dispatched)
    (hrequested : ∀ o ∈ (statusWritten s workflowId status report error events).outbox.rows,
      (requestField o.eventType).isSome → ∃ r ∈ s.steps.rows, AsksFor o r) :
    Linked (statusWritten s workflowId status report error events) where
  owned r hr := by
    rw [steps_statusWritten] at hr
    obtain ⟨row, hrow, hid⟩ := h.owned r hr
    exact ⟨_, mem_workflows_statusWritten.mpr ⟨row, hrow, rfl⟩, by simpa using hid⟩
  queued row' hrow' hqueued r hr hworkflow := by
    rw [steps_statusWritten] at hr
    obtain ⟨row, hrow, rfl⟩ := mem_workflows_statusWritten.mp hrow'
    by_cases hid : row.id = workflowId
    · rw [withStatusWhere_of_eq hid] at hqueued
      exact absurd hqueued hbegun
    · rw [withStatusWhere_of_ne hid] at hqueued hworkflow
      exact h.queued row hrow hqueued r hr hworkflow
  closed row' hrow' hterminal r hr hworkflow := by
    rw [steps_statusWritten] at hr
    obtain ⟨row, hrow, rfl⟩ := mem_workflows_statusWritten.mp hrow'
    rw [withStatusWhere_id] at hworkflow
    by_cases hid : row.id = workflowId
    · rw [withStatusWhere_of_eq hid] at hterminal
      exact hidle hterminal r hr (hworkflow.trans hid)
    · rw [withStatusWhere_of_ne hid] at hterminal
      exact h.closed row hrow hterminal r hr hworkflow
  requested o ho hfield := by
    rw [steps_statusWritten]
    exact hrequested o ho hfield

theorem linked_of_finishes {env : Env} {eventId : String} {w : Workflow}
    {status : WorkflowStatus} {error : Option String} {s s' : Db} (h : Linked s)
    (hfresh : ∀ row ∈ s.outbox.rows, row.eventId ≠ eventId) (hbegun : status ≠ .queued)
    (hidle : ∀ r ∈ s.steps.rows, r.workflowId = w.workflowId → r.status ≠ .dispatched)
    (hfinish : Finishes env eventId w status error s s') : Linked s' := by
  obtain ⟨previous, report, -, rfl⟩ := hfinish
  refine linked_statusWritten h hbegun (fun _ => hidle) ?_
  rw [completedEvents_eq]
  intro o ho hfield
  split at ho
  · rw [outbox_statusWritten hfresh] at ho
    rcases List.mem_append.mp ho with ho | ho
    · exact h.requested o ho hfield
    · obtain rfl := List.mem_singleton.mp ho
      simp [stagedRow, requestField] at hfield
  · exact h.requested o ho hfield

theorem linked_of_dispatched {env : Env} {eventId : String} {s : Db} {w : Workflow}
    {r : StepRow} {event : PendingEvent} (h : Linked s)
    (hfresh : ∀ row ∈ s.outbox.rows, row.eventId ≠ eventId) (hr : r ∈ s.steps.rows)
    (hworkflow : w.workflowId = r.workflowId)
    (hevent : dispatchEvent env eventId w r.toStep = .ok event) :
    Linked (dispatched s r.workflowId r.toStep event) := by
  have hfresh' : ∀ row ∈ s.outbox.rows, row.eventId ≠ event.eventId := by
    obtain ⟨params, -, -, rfl⟩ := dispatchEvent_ok hevent
    exact hfresh
  have hwritten : Linked (statusWritten s r.workflowId .running none none [event]) := by
    refine linked_statusWritten h (by simp) (fun hterminal => absurd hterminal id) ?_
    intro o ho hfield
    rw [outbox_statusWritten hfresh'] at ho
    rcases List.mem_append.mp ho with ho | ho
    · exact h.requested o ho hfield
    · obtain rfl := List.mem_singleton.mp ho
      exact ⟨r, hr, asksFor_stagedRow hevent hworkflow _ rfl⟩
  refine linked_updateStep hwritten fun r' hr' hjob hstatus row' hrow' hid => ?_
  rw [steps_statusWritten] at hr'
  obtain rfl := eq_of_jobId hr' hr hjob
  obtain ⟨row, hrow, rfl⟩ := mem_workflows_statusWritten.mp hrow'
  rw [withStatusWhere_id] at hid
  rw [withStatusWhere_of_eq hid]
  exact ⟨by simp [WorkflowRow.withStatus], fun _ => id⟩

/-- A workflow under way has rows that are neither queued nor closed. -/
theorem linked_of_skipped {s : Db} {workflowId : String} {w : Workflow} {r : StepRow}
    (h : Linked s) (hw : snapshot s workflowId = some w) (hbegun : w.status ≠ .queued)
    (hr : r ∈ s.steps.rows) (hworkflow : r.workflowId = workflowId) (reason : String) :
    Linked (skipped s r.toStep reason) := by
  refine linked_updateStep h fun r' hr' hjob _ row hrow hid => ⟨?_, fun h => by simp at h⟩
  obtain rfl := eq_of_jobId hr' hr hjob
  obtain ⟨own, hown, hid', rfl⟩ := snapshot_eq_some.mp hw
  rw [eq_of_id hrow hown (hid.trans (hworkflow.trans hid'.symm))]
  exact hbegun

section Created

variable {r : StartRequest} {steps : List PlannedStep} {s s' : Db}

theorem mem_steps_created
    (h : Created r.workflowId r.goal r.inputs steps r.tenantId r.projectId s s') {row : StepRow} :
    row ∈ s'.steps.rows ↔
      row ∈ s.steps.rows ∨ ∃ p ∈ steps, plannedRow r.workflowId p = row := by
  rw [h.steps, List.mem_append, List.mem_map]

theorem mem_workflows_created
    (h : Created r.workflowId r.goal r.inputs steps r.tenantId r.projectId s s')
    {row : WorkflowRow} :
    row ∈ s'.workflows.rows ↔
      row ∈ s.workflows.rows ∨
        row = queuedRow r.workflowId r.goal r.inputs r.tenantId r.projectId s.clock := by
  rw [h.workflows, List.mem_append, List.mem_singleton]

/-- The id of a created workflow was not taken. -/
theorem id_fresh_of_created
    (h : Created r.workflowId r.goal r.inputs steps r.tenantId r.projectId s s') :
    ∀ row ∈ s.workflows.rows, row.id ≠ r.workflowId := by
  have hapart := s'.workflows.apart
  rw [h.workflows] at hapart
  intro row hrow
  exact (List.pairwise_append.mp hapart).2.2 row hrow _ (List.mem_singleton_self _)

theorem no_steps_of_created (hlinked : Linked s)
    (h : Created r.workflowId r.goal r.inputs steps r.tenantId r.projectId s s') :
    ∀ row ∈ s.steps.rows, row.workflowId ≠ r.workflowId := by
  intro row hrow heq
  obtain ⟨owner, howner, hid⟩ := hlinked.owned row hrow
  exact id_fresh_of_created h owner howner (hid.trans heq)

theorem linked_of_created (hlinked : Linked s)
    (h : Created r.workflowId r.goal r.inputs steps r.tenantId r.projectId s s') :
    Linked s' where
  owned row hrow := by
    rcases (mem_steps_created h).mp hrow with hrow | ⟨p, hp, rfl⟩
    · obtain ⟨owner, howner, hid⟩ := hlinked.owned row hrow
      exact ⟨owner, (mem_workflows_created h).mpr (.inl howner), hid⟩
    · exact ⟨_, (mem_workflows_created h).mpr (.inr rfl), rfl⟩
  queued owner howner hqueued row hrow hworkflow := by
    rcases (mem_steps_created h).mp hrow with hrow | ⟨p, hp, rfl⟩
    · rcases (mem_workflows_created h).mp howner with howner | rfl
      · exact hlinked.queued owner howner hqueued row hrow hworkflow
      · exact absurd hworkflow (no_steps_of_created hlinked h row hrow)
    · rfl
  closed owner howner hterminal row hrow hworkflow := by
    rcases (mem_steps_created h).mp hrow with hrow | ⟨p, hp, rfl⟩
    · rcases (mem_workflows_created h).mp howner with howner | rfl
      · exact hlinked.closed owner howner hterminal row hrow hworkflow
      · exact absurd hworkflow (no_steps_of_created hlinked h row hrow)
    · simp [plannedRow]
  requested o ho hfield := by
    rw [h.outbox] at ho
    obtain ⟨row, hrow, hasks⟩ := hlinked.requested o ho hfield
    exact ⟨row, (mem_steps_created h).mpr (.inl hrow), hasks⟩

/-- A created workflow is enrolled; the flows of the others stay. -/
theorem flow_of_created (hlinked : Linked s)
    (h : Created r.workflowId r.goal r.inputs steps r.tenantId r.projectId s s')
    (other : String) :
    Relation.ReflTransGen Flow.Step (flow s other) (flow s' other) := by
  have hlog : (flow s' other).log = (flow s other).log := by
    simp only [flow, h.outbox]
    refine List.filterMap_congr fun o ho => ?_
    refine Option.ext fun position => ?_
    rw [requestedPosition_eq_some, requestedPosition_eq_some]
    constructor
    · rintro ⟨row, hrow, hjob, hworkflow, hposition⟩
      obtain ⟨known, hknown, hasks⟩ := hlinked.requested o ho (requestField_of_requestJob hjob)
      have hsame : row = known := by
        refine eq_of_jobId hrow ((mem_steps_created h).mpr (.inl hknown)) ?_
        have := hasks.1
        rw [hjob] at this
        exact Option.some.inj this
      exact ⟨row, hsame ▸ hknown, hjob, hworkflow, hposition⟩
    · rintro ⟨row, hrow, rest⟩
      exact ⟨row, (mem_steps_created h).mpr (.inl hrow), rest⟩
  by_cases hother : other = r.workflowId
  · subst hother
    refine .single (.enroll (fun position => ?_) (fun position => ?_) hlog)
    · exact progress_absent fun row hrow hworkflow =>
        absurd hworkflow (no_steps_of_created hlinked h row hrow)
    · by_cases habsent : (flow s' r.workflowId).progress position = .absent
      · exact .inl habsent
      · obtain ⟨row, hrow, hworkflow, rfl⟩ := exists_row_of_progress habsent
        rcases (mem_steps_created h).mp hrow with hold | ⟨p, hp, rfl⟩
        · exact absurd hworkflow (no_steps_of_created hlinked h row hold)
        · exact .inr (progress_of_mem hrow)
  · suffices hflow : flow s' other = flow s other by rw [hflow]
    refine flow_congr (fun position => ?_) hlog
    simp only [flow]
    have hstep : Db.stepAt s' other position = Db.stepAt s other position := by
      refine Option.ext fun row => ?_
      rw [stepAt_eq_some, stepAt_eq_some, mem_steps_created h]
      constructor
      · rintro ⟨hrow | ⟨p, hp, rfl⟩, hworkflow, hposition⟩
        · exact ⟨hrow, hworkflow, hposition⟩
        · exact absurd hworkflow (Ne.symm hother)
      · rintro ⟨hrow, rest⟩
        exact ⟨.inl hrow, rest⟩
    rw [hstep]

end Created

theorem linked_updateSummary {s : Db} (h : Linked s) (workflowId : String) (summary : Dict) :
    Linked (s.updateSummary workflowId summary) := by
  have hrows : ∀ row' ∈ (s.updateSummary workflowId summary).workflows.rows,
      ∃ row ∈ s.workflows.rows, row'.id = row.id ∧ row'.status = row.status := by
    intro row' hrow'
    obtain ⟨row, hrow, rfl⟩ := List.mem_map.mp hrow'
    refine ⟨row, hrow, by simp, ?_⟩
    unfold WorkflowRow.withSummary
    split <;> rfl
  refine ⟨fun r hr => ?_, fun row' hrow' hqueued r hr hworkflow => ?_,
    fun row' hrow' hterminal r hr hworkflow => ?_, h.requested⟩
  · obtain ⟨row, hrow, hid⟩ := h.owned r hr
    exact ⟨_, List.mem_map.mpr ⟨row, hrow, rfl⟩, by simpa using hid⟩
  · obtain ⟨row, hrow, hid, hstatus⟩ := hrows row' hrow'
    exact h.queued row hrow (hstatus ▸ hqueued) r hr (hworkflow.trans hid)
  · obtain ⟨row, hrow, hid, hstatus⟩ := hrows row' hrow'
    exact h.closed row hrow (hstatus ▸ hterminal) r hr (hworkflow.trans hid)

/-- An `advance` moves the flow of its workflow by at most a skip and a launch,
and keeps the rows together. -/
theorem advance_refines {env : Env} {eventId workflowId : String} {w : Workflow} {s s' : Db}
    (h : Coherent s) (hfresh : ∀ row ∈ s.outbox.rows, row.eventId ≠ eventId)
    (hw : snapshot s workflowId = some w) (hbegun : w.status ≠ .queued) (hact : Actionable w)
    (hadvances : Advances env eventId workflowId w s s') :
    Linked s' ∧ ∀ other, Relation.ReflTransGen Flow.Step (flow s other) (flow s' other) := by
  have hid := workflowId_of_snapshot hw
  have hidle := idle_of_actionable h hw hact
  -- A finish leaves every flow as it is.
  have hfinished : ∀ {status error t}, status ≠ .queued →
      Finishes env eventId w status error s t → Linked t ∧
        ∀ other, Relation.ReflTransGen Flow.Step (flow s other) (flow t other) := by
    intro status error t hstatus hfinish
    refine ⟨linked_of_finishes h.toLinked hfresh hstatus (by rw [hid]; exact hidle) hfinish,
      fun other => ?_⟩
    rw [flow_of_finishes hfresh hfinish]
  cases hadvances with
  | fatal _ hfinish => exact hfinished (by simp) hfinish
  | done _ _ hfinish => exact hfinished (by simp) hfinish
  | refused _ _ _ _ hfinish => exact hfinished (by simp) hfinish
  | sent hsound hnext hevent =>
      obtain ⟨r, hr, rfl, rfl, hpending, hdue⟩ :=
        due_of_nextPending hw (ready_of_snapshot hw hact hsound) hnext
      exact ⟨linked_of_dispatched h.toLinked hfresh hr hid hevent,
        flow_of_dispatched hfresh hr hid hpending hdue hevent⟩
  | @skipped _ step reason after hsound hnext _ hafter hpast =>
      have hready := ready_of_snapshot hw hact hsound
      obtain ⟨r, hr, rfl, rfl, hpending, hdue⟩ := due_of_nextPending hw hready hnext
      have hlinked := linked_of_skipped h.toLinked hw hbegun hr rfl reason
      have hready' := ready_skipped hready r.toStep reason
      have hfresh' : ∀ row ∈ (skipped s r.toStep reason).outbox.rows, row.eventId ≠ eventId :=
        hfresh
      have hflow := flow_of_skipped hr hpending hdue reason
      have hid' := workflowId_of_snapshot hafter
      cases hpast with
      | done _ hfinish =>
          refine ⟨linked_of_finishes hlinked hfresh' (by simp) (by rw [hid']; exact hready'.idle)
            hfinish, fun other => ?_⟩
          rw [flow_of_finishes hfresh' hfinish]
          exact hflow other
      | refused _ _ hfinish =>
          refine ⟨linked_of_finishes hlinked hfresh' (by simp) (by rw [hid']; exact hready'.idle)
            hfinish, fun other => ?_⟩
          rw [flow_of_finishes hfresh' hfinish]
          exact hflow other
      | sent hnext' hevent =>
          obtain ⟨r', hr', hworkflow, rfl, hpending', hdue'⟩ :=
            due_of_nextPending hafter hready' hnext'
          rw [← hworkflow] at hdue' hid' ⊢
          exact ⟨linked_of_dispatched hlinked hfresh' hr' hid' hevent, fun other =>
            (hflow other).trans (flow_of_dispatched hfresh' hr' hid' hpending' hdue' hevent other)⟩

/-- Every change of the tables is made of moves of the flows. -/
theorem change_refines {env : Env} {traffic : Traffic} {s s' : Db} (h : Coherent s)
    (hchange : Change env traffic s s') :
    Linked s' ∧ ∀ other, Relation.ReflTransGen Flow.Step (flow s other) (flow s' other) := by
  cases hchange with
  | quiet hworkflows hsteps houtbox =>
      refine ⟨?_, fun other => ?_⟩
      · refine ⟨?_, ?_, ?_, ?_⟩ <;> simp only [hworkflows, hsteps, houtbox]
        · exact h.owned
        · exact h.queued
        · exact h.closed
        · exact h.requested
      · have hflow : flow s' other = flow s other := by
          unfold flow Db.stepAt requestedPosition
          rw [hsteps, houtbox]
        rw [hflow]
  | created _ _ hcreated =>
      exact ⟨linked_of_created h.toLinked hcreated, flow_of_created h.toLinked hcreated⟩
  | @started workflowId hqueued =>
      obtain ⟨row, hrow, rfl, hqueued⟩ := hqueued
      refine ⟨linked_statusWritten h.toLinked (by simp) (fun hterminal => absurd hterminal id)
        h.requested, fun other => ?_⟩
      rw [flow_statusWritten_of_silent (by simp) (.inl rfl)]
  | @marked _ _ c _ hread =>
      refine ⟨linked_updateStep h.toLinked fun r hr _ hstatus row hrow hid =>
        ⟨fun hqueued => ?_, fun hdispatched => ?_⟩, flow_of_marked hread⟩
      · have hpending := h.queued row hrow hqueued r hr hid.symm
        rw [hstatus] at hpending
        contradiction
      · obtain ⟨-, -, -, -, -, -, -, houtcome⟩ := readCompletion_ok hread
        simp only [houtcome] at hdispatched
        split at hdispatched <;> contradiction
  | advanced hfresh hw hbegun hact hadvances =>
      exact advance_refines h hfresh hw hbegun hact hadvances
  | summarised workflowId summary =>
      refine ⟨linked_updateSummary h.toLinked workflowId summary, fun other => ?_⟩
      have hflow : flow (s.updateSummary workflowId summary) other = flow s other := rfl
      rw [hflow]

theorem coherent_of_change {env : Env} {traffic : Traffic} {s s' : Db} (h : Coherent s)
    (hchange : Change env traffic s s') : Coherent s' where
  toLinked := (change_refines h hchange).1
  orderly other := (h.orderly other).steps ((change_refines h hchange).2 other)

end SeoPlatform.Orchestrator.Coherence
