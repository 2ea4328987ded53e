import SeoPlatform.Orchestrator.Coherence

namespace SeoPlatform.Orchestrator.Frames

open SeoPlatform.Foundation.JsonValue
open SeoPlatform.Foundation.ConstrainedTable
open SeoPlatform.Orchestrator.Planner
open SeoPlatform.Orchestrator.Store
open SeoPlatform.Orchestrator.StoreSpecs
open SeoPlatform.Orchestrator.Engine
open SeoPlatform.Orchestrator.AdvanceOutcomes
open SeoPlatform.Orchestrator.Snapshots
open SeoPlatform.Orchestrator.Workers
open SeoPlatform.Orchestrator.Changes
open SeoPlatform.Orchestrator.FlowView
open SeoPlatform.Orchestrator.Refinement
open SeoPlatform.Orchestrator.Coherence
open SeoPlatform.Shared.Events

theorem sameRows_statusWritten {s : Db} {workflowId other : String} (hother : other ≠ workflowId)
    (status : WorkflowStatus) (report : Option Dict) (error : Option String)
    (events : List PendingEvent) :
    SameRows other s (statusWritten s workflowId status report error events) where
  workflow := by
    unfold Db.workflow?
    rw [workflows_statusWritten, List.find?_map]
    have hpred : ((fun r : WorkflowRow => decide (r.id = other)) ∘
        WorkflowRow.withStatusWhere workflowId status report error s.clock) =
          fun r => decide (r.id = other) := by
      funext r
      simp
    rw [hpred]
    cases hfind : s.workflows.rows.find? fun r => decide (r.id = other) with
    | none => rfl
    | some row =>
        have hid : row.id = other := by simpa using List.find?_some hfind
        rw [Option.map_some, withStatusWhere_of_ne (by rw [hid]; exact hother)]
  steps := by rw [steps_statusWritten]

theorem sameRows_updateStep {s : Db} {jobId other : String} {status : StepStatus}
    (u : StepUpdate)
    (hmiss : ∀ r ∈ s.steps.rows, r.workflowId = other → ¬ (r.jobId = jobId ∧ r.status = status)) :
    SameRows other s (s.updateStep jobId status u) where
  workflow := rfl
  steps := by
    have hpred : ((fun r : StepRow => decide (r.workflowId = other)) ∘
        StepRow.updatedWhere jobId status u) = fun r => decide (r.workflowId = other) := by
      funext r
      simp
    simp only [Db.updateStep, Table.rows_update, List.filter_map, hpred]
    refine (List.map_congr_left fun r hr => ?_).trans (List.map_id _)
    obtain ⟨hmem, hworkflow⟩ := List.mem_filter.mp hr
    exact updatedWhere_of_miss (hmiss r hmem (by simpa using hworkflow))

theorem sameRows_of_finishes {env : Env} {eventId other : String} {w : Workflow}
    {status : WorkflowStatus} {error : Option String} {s s' : Db}
    (hother : other ≠ w.workflowId) (h : Finishes env eventId w status error s s') :
    SameRows other s s' := by
  obtain ⟨previous, report, -, rfl⟩ := h
  exact sameRows_statusWritten hother _ _ _ _

theorem sameRows_of_skipped {s : Db} {r : StepRow} (hr : r ∈ s.steps.rows) {other : String}
    (hother : other ≠ r.workflowId) (reason : String) :
    SameRows other s (skipped s r.toStep reason) :=
  sameRows_updateStep _ (miss_of_hit hr hother .pending)

theorem sameRows_of_dispatched {s : Db} {r : StepRow} (hr : r ∈ s.steps.rows) {other : String}
    (hother : other ≠ r.workflowId) (event : PendingEvent) :
    SameRows other s (dispatched s r.workflowId r.toStep event) := by
  refine (sameRows_statusWritten hother .running none none [event]).trans ?_
  refine sameRows_updateStep _ (miss_of_hit ?_ hother .pending)
  rw [steps_statusWritten]
  exact hr

/-- An `advance` touches no workflow but its own. -/
theorem sameRows_of_advances {env : Env} {eventId workflowId other : String} {w : Workflow}
    {s s' : Db} (hw : snapshot s workflowId = some w) (hother : other ≠ workflowId)
    (h : Advances env eventId workflowId w s s') : SameRows other s s' := by
  have hid := workflowId_of_snapshot hw
  have hne : other ≠ w.workflowId := by
    rw [hid]
    exact hother
  cases h with
  | fatal _ hfinish => exact sameRows_of_finishes hne hfinish
  | done _ _ hfinish => exact sameRows_of_finishes hne hfinish
  | refused _ _ _ _ hfinish => exact sameRows_of_finishes hne hfinish
  | sent _ hnext _ =>
      obtain ⟨r, hr, rfl, rfl⟩ := (mem_steps_of_snapshot hw).mp (nextPending_eq_some hnext).1
      exact sameRows_of_dispatched hr hother _
  | @skipped _ step reason after _ hnext _ hafter hpast =>
      obtain ⟨r, hr, rfl, rfl⟩ := (mem_steps_of_snapshot hw).mp (nextPending_eq_some hnext).1
      have hskip := sameRows_of_skipped hr hother reason
      have hne' : other ≠ after.workflowId := by
        rw [workflowId_of_snapshot hafter]
        exact hother
      cases hpast with
      | done _ hfinish => exact hskip.trans (sameRows_of_finishes hne' hfinish)
      | refused _ _ hfinish => exact hskip.trans (sameRows_of_finishes hne' hfinish)
      | sent hnext' _ =>
          obtain ⟨r', hr', hworkflow, rfl⟩ :=
            (mem_steps_of_snapshot hafter).mp (nextPending_eq_some hnext').1
          rw [← hworkflow] at hother ⊢
          exact hskip.trans (sameRows_of_dispatched hr' hother _)

theorem sameRows_of_created {r : StartRequest} {steps : List PlannedStep} {s s' : Db}
    {other : String}
    (h : Created r.workflowId r.goal r.inputs steps r.tenantId r.projectId s s')
    (hexists : ∃ row ∈ s.workflows.rows, row.id = other) : SameRows other s s' := by
  obtain ⟨row, hrow, hid⟩ := hexists
  have hother : other ≠ r.workflowId := hid ▸ id_fresh_of_created h row hrow
  refine ⟨?_, ?_⟩
  · rw [workflow?_eq_some.mpr ⟨hrow, hid⟩, workflow?_eq_some]
    exact ⟨(mem_workflows_created h).mpr (.inl hrow), hid⟩
  · rw [h.steps, List.filter_append]
    have hnone : (steps.map (plannedRow r.workflowId)).filter
        (fun row => decide (row.workflowId = other)) = [] := by
      refine List.filter_eq_nil_iff.mpr fun row hrow => ?_
      obtain ⟨p, -, rfl⟩ := List.mem_map.mp hrow
      simp [plannedRow, Ne.symm hother]
    rw [hnone, List.append_nil]

theorem sameRows_of_quiet {s s' : Db} (hworkflows : s'.workflows = s.workflows)
    (hsteps : s'.steps = s.steps) (other : String) : SameRows other s s' :=
  ⟨by unfold Db.workflow?; rw [hworkflows], by rw [hsteps]⟩

theorem sameRows_updateSummary {s : Db} {workflowId other : String}
    (hother : other ≠ workflowId) (summary : Dict) :
    SameRows other s (s.updateSummary workflowId summary) where
  workflow := by
    simp only [Db.workflow?, Db.updateSummary, Table.rows_update, List.find?_map]
    have hpred : ((fun r : WorkflowRow => decide (r.id = other)) ∘
        WorkflowRow.withSummary workflowId summary s.clock) = fun r => decide (r.id = other) := by
      funext r
      simp
    rw [hpred]
    cases hfind : s.workflows.rows.find? fun r => decide (r.id = other) with
    | none => rfl
    | some row =>
        have hid : row.id = other := by simpa using List.find?_some hfind
        have hmiss : row.withSummary workflowId summary s.clock = row := by
          simp [WorkflowRow.withSummary, hid, hother]
        rw [Option.map_some, hmiss]
  steps := rfl

/-- The workflow has been created and its `start` has got no further. -/
def Unstarted (db : Db) (workflowId : String) : Prop :=
  ∃ row ∈ db.workflows.rows, row.id = workflowId ∧ row.status = .queued

/-- The workflow is past its `queued`. -/
def Begun (db : Db) (workflowId : String) : Prop :=
  ∃ row ∈ db.workflows.rows, row.id = workflowId ∧ row.status ≠ .queued

theorem not_begun_of_unstarted {db : Db} {workflowId : String} (h : Unstarted db workflowId) :
    ¬ Begun db workflowId := by
  rintro ⟨row, hrow, hid, hstatus⟩
  obtain ⟨row', hrow', hid', hqueued⟩ := h
  rw [eq_of_id hrow hrow' (hid.trans hid'.symm)] at hstatus
  exact hstatus hqueued

theorem mem_of_sameRows {db db' : Db} {workflowId : String} (h : SameRows workflowId db db')
    {row : WorkflowRow} (hrow : row ∈ db.workflows.rows) (hid : row.id = workflowId) :
    row ∈ db'.workflows.rows := by
  have hfound := workflow?_eq_some.mpr ⟨hrow, hid⟩
  rw [← h.workflow] at hfound
  exact (workflow?_eq_some.mp hfound).1

theorem Unstarted.of_sameRows {db db' : Db} {workflowId : String}
    (h : Unstarted db workflowId) (hsame : SameRows workflowId db db') :
    Unstarted db' workflowId := by
  obtain ⟨row, hrow, hid, hstatus⟩ := h
  exact ⟨row, mem_of_sameRows hsame hrow hid, hid, hstatus⟩

theorem Begun.of_sameRows {db db' : Db} {workflowId : String}
    (h : Begun db workflowId) (hsame : SameRows workflowId db db') : Begun db' workflowId := by
  obtain ⟨row, hrow, hid, hstatus⟩ := h
  exact ⟨row, mem_of_sameRows hsame hrow hid, hid, hstatus⟩

theorem Begun.statusWritten {db : Db} {workflowId other : String} (h : Begun db workflowId)
    {status : WorkflowStatus} (hstatus : status ≠ .queued) (report : Option Dict)
    (error : Option String) (events : List PendingEvent) :
    Begun (statusWritten db other status report error events) workflowId := by
  obtain ⟨row, hrow, hid, hbegun⟩ := h
  refine ⟨_, mem_workflows_statusWritten.mpr ⟨row, hrow, rfl⟩, by simpa using hid, ?_⟩
  unfold WorkflowRow.withStatusWhere
  split
  · exact hstatus
  · exact hbegun

theorem Begun.of_finishes {env : Env} {eventId workflowId : String} {w : Workflow}
    {status : WorkflowStatus} {error : Option String} {s s' : Db} (h : Begun s workflowId)
    (hstatus : status ≠ .queued) (hfinish : Finishes env eventId w status error s s') :
    Begun s' workflowId := by
  obtain ⟨previous, report, -, rfl⟩ := hfinish
  exact h.statusWritten hstatus _ _ _

/-- No change takes a workflow back to `queued`. -/
theorem Begun.of_change {env : Env} {traffic : Traffic} {s s' : Db} {workflowId : String}
    (h : Begun s workflowId) (hchange : Change env traffic s s') : Begun s' workflowId := by
  cases hchange with
  | quiet hworkflows hsteps _ => exact h.of_sameRows (sameRows_of_quiet hworkflows hsteps _)
  | created _ _ hcreated =>
      have hexists : ∃ row ∈ s.workflows.rows, row.id = workflowId :=
        h.imp fun row hrow => ⟨hrow.1, hrow.2.1⟩
      exact h.of_sameRows (sameRows_of_created hcreated hexists)
  | started _ => exact h.statusWritten (by simp) _ _ _
  | marked _ _ => exact h
  | advanced _ _ _ _ hadvances =>
      cases hadvances with
      | fatal _ hfinish => exact h.of_finishes (by simp) hfinish
      | done _ _ hfinish => exact h.of_finishes (by simp) hfinish
      | refused _ _ _ _ hfinish => exact h.of_finishes (by simp) hfinish
      | sent _ _ _ => exact h.statusWritten (by simp) _ _ _
      | @skipped _ step reason _ _ _ _ _ hpast =>
          have hskip : Begun (skipped s step reason) workflowId := h
          cases hpast with
          | done _ hfinish => exact hskip.of_finishes (by simp) hfinish
          | refused _ _ hfinish => exact hskip.of_finishes (by simp) hfinish
          | sent _ _ => exact hskip.statusWritten (by simp) _ _ _
  | summarised other summary =>
      obtain ⟨row, hrow, hid, hbegun⟩ := h
      refine ⟨_, List.mem_map.mpr ⟨row, hrow, rfl⟩, by simpa using hid, ?_⟩
      unfold WorkflowRow.withSummary
      split <;> exact hbegun

end SeoPlatform.Orchestrator.Frames
