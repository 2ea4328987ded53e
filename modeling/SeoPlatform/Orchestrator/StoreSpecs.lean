import SeoPlatform.Orchestrator.Store

namespace SeoPlatform.Orchestrator.StoreSpecs

open SeoPlatform.Foundation.JsonValue
open SeoPlatform.Foundation.ConstrainedTable
open SeoPlatform.Foundation.SqlTransaction
open SeoPlatform.Orchestrator.Planner
open SeoPlatform.Orchestrator.Store
open SeoPlatform.Shared.Exceptions
open SeoPlatform.Shared.Events

/-- What `load` reads, as one function of the tables. -/
def snapshot (db : Db) (workflowId : String) : Option Workflow :=
  (db.workflow? workflowId).map fun row => row.toWorkflow (db.stepsOf workflowId)

/-- What `_set_status` writes, as one function of the tables. -/
def statusWritten (db : Db) (workflowId : String) (status : WorkflowStatus)
    (report : Option Dict) (error : Option String) (events : List PendingEvent) : Db :=
  let written := db.updateWorkflow workflowId status report error
  let row := written.workflow? workflowId
  events.foldl
    (Db.staged ⟨workflowId, row.bind WorkflowRow.tenantId, row.bind WorkflowRow.projectId⟩) written

theorem load_meets (workflowId : String) :
    Meets (load workflowId) fun s a s' => s' = s ∧ a = snapshot s workflowId := by
  unfold load
  refine (bind_meets (query_meets _)
    (S := fun row s a s' => row = s.workflow? workflowId → s' = s ∧ a = snapshot s workflowId)
    fun row => ?_).mono ?_
  · cases row with
    | none =>
        refine (pure_meets _).mono fun s a s' ⟨ha, hs⟩ hrow => ?_
        simp [snapshot, ← hrow, ha, hs]
    | some row =>
        refine (bind_meets (query_meets _) fun steps => pure_meets _).mono ?_
        rintro s a s' ⟨steps, s₁, ⟨rfl, rfl⟩, rfl, rfl⟩ hrow
        simp [snapshot, ← hrow]
  · rintro s a s' ⟨row, s₁, ⟨rfl, rfl⟩, h⟩
    exact h rfl

theorem load_firm (workflowId : String) : Firm (load workflowId) := by
  unfold load
  refine (query_firm _).bind fun row => ?_
  cases row with
  | none => exact pure_clean _
  | some row => exact ((query_firm _).bind fun _ => pure_clean _).clean

theorem load_raisesOnlySql (workflowId : String) : RaisesOnlySql (load workflowId) := by
  unfold load
  refine bind_raisesOnlySql (query_raisesOnlySql _) fun row => ?_
  cases row with
  | none => exact pure_raisesOnlySql _
  | some row => exact bind_raisesOnlySql (query_raisesOnlySql _) fun _ => pure_raisesOnlySql _

theorem lockRow_meets (workflowId : String) : Meets (lockRow workflowId) fun s _ s' => s' = s :=
  (query_meets _).mono fun _ _ _ h => h.2

theorem stageEvents_meets (subject : Subject) (events : List PendingEvent) :
    Meets (stageEvents subject events) fun s _ s' =>
      s' = events.foldl (Db.staged subject) s := by
  induction events with
  | nil => exact (pure_meets _).mono fun _ _ _ h => h.2
  | cons event rest ih =>
      refine (bind_meets (modify_meets _) fun _ => ih).mono ?_
      rintro s a s' ⟨_, s₁, rfl, rfl⟩
      rfl

theorem writeStatus_meets (workflowId : String) (status : WorkflowStatus) (report : Option Dict)
    (error : Option String) (events : List PendingEvent) :
    Meets (writeStatus workflowId status report error events) fun s _ s' =>
      s' = statusWritten s workflowId status report error events := by
  unfold writeStatus
  cases events with
  | nil =>
      refine (bind_meets (modify_meets _) fun _ => pure_meets ()).mono ?_
      rintro s a s' ⟨_, s₁, rfl, -, rfl⟩
      rfl
  | cons event rest =>
      refine (bind_meets (modify_meets _) fun _ =>
        bind_meets (query_meets _) fun row => stageEvents_meets _ _).mono ?_
      rintro s a s' ⟨_, s₁, rfl, row, s₂, ⟨rfl, rfl⟩, rfl⟩
      rfl

theorem stageEvents_clean (subject : Subject) (events : List PendingEvent) :
    Clean (stageEvents subject events) := by
  induction events with
  | nil => exact pure_clean _
  | cons event rest ih => exact bind_clean (modify_firm _).clean fun _ => ih

theorem writeStatus_firm (workflowId : String) (status : WorkflowStatus) (report : Option Dict)
    (error : Option String) (events : List PendingEvent) :
    Firm (writeStatus workflowId status report error events) := by
  unfold writeStatus
  refine (modify_firm _).bind fun _ => ?_
  split
  · exact pure_clean _
  · exact ((query_firm _).bind fun _ => stageEvents_clean _ _).clean

theorem setStatus_firm (workflowId : String) (status : WorkflowStatus) (report : Option Dict)
    (error : Option String) (events : List PendingEvent) :
    Firm (setStatus workflowId status report error events) :=
  (writeStatus_firm _ _ _ _ _).bind fun _ => (load_firm _).clean

theorem setStatus_meets (workflowId : String) (status : WorkflowStatus) (report : Option Dict)
    (error : Option String) (events : List PendingEvent) :
    Meets (setStatus workflowId status report error events) fun s _ s' =>
      s' = statusWritten s workflowId status report error events := by
  refine (bind_meets (writeStatus_meets _ _ _ _ _) fun _ => load_meets _).mono ?_
  rintro s a s' ⟨_, s₁, rfl, rfl, -⟩
  rfl

theorem skipStep_meets (jobId reason : String) :
    Meets (skipStep jobId reason) fun s _ s' =>
      s' = s.updateStep jobId .pending ⟨.skipped, none, some (some reason)⟩ :=
  modify_meets _

theorem markDispatched_meets (jobId : String) :
    Meets (markDispatched jobId) fun s _ s' =>
      s' = s.updateStep jobId .pending ⟨.dispatched, none, none⟩ :=
  modify_meets _

theorem markStep_meets (jobId : String) (status : StepStatus) (result : Option Dict)
    (error : Option String) :
    Meets (markStep jobId status result error) fun s a s' =>
      a = (s.steps.rows.find? fun r => r.jobId = jobId ∧ r.status = .dispatched).map
          StepRow.workflowId ∧
        s' = s.updateStep jobId .dispatched ⟨status, some result, some error⟩ := by
  refine (statement_meets _).mono fun s a s' h => ?_
  cases h
  exact ⟨rfl, rfl⟩

theorem saveSummary_meets (workflowId : String) (summary : Dict) :
    Meets (saveSummary workflowId summary) fun s _ s' =>
      s' = s.updateSummary workflowId summary := by
  refine (statement_meets _).mono fun s a s' h => ?_
  cases h
  rfl

theorem previousCompleted_raisesOnlySql (workflow : Workflow) :
    RaisesOnlySql (previousCompleted workflow) := by
  unfold previousCompleted
  cases workflow.inputs.startUrl with
  | none => exact pure_raisesOnlySql _
  | some startUrl =>
      dsimp only
      split
      · exact pure_raisesOnlySql _
      · refine bind_raisesOnlySql (query_raisesOnlySql _) fun row => ?_
        cases row with
        | none => exact pure_raisesOnlySql _
        | some row => exact load_raisesOnlySql _

/-- Reading the previous run changes nothing. -/
theorem previousCompleted_meets (workflow : Workflow) :
    Meets (previousCompleted workflow) fun s _ s' => s' = s := by
  unfold previousCompleted
  cases workflow.inputs.startUrl with
  | none => exact (pure_meets _).mono fun _ _ _ h => h.2
  | some startUrl =>
      dsimp only
      split
      · exact (pure_meets _).mono fun _ _ _ h => h.2
      · refine (bind_meets (query_meets _) (S := fun _ s _ s' => s' = s) fun row => ?_).mono ?_
        · cases row with
          | none => exact (pure_meets _).mono fun _ _ _ h => h.2
          | some row => exact (load_meets _).mono fun _ _ _ h => h.1
        · rintro s a s' ⟨row, s₁, ⟨-, rfl⟩, rfl⟩
          rfl

/-- The plan's rows as `create` adds them. -/
structure Created (workflowId goal : String) (inputs : Inputs) (steps : List PlannedStep)
    (tenantId projectId : Option String) (s s' : Db) : Prop where
  workflows : s'.workflows.rows =
    s.workflows.rows ++ [queuedRow workflowId goal inputs tenantId projectId s.clock]
  steps : s'.steps.rows = s.steps.rows ++ steps.map (plannedRow workflowId)
  outbox : s'.outbox = s.outbox
  clock : s'.clock = s.clock

theorem insertWorkflow_meets (row : WorkflowRow) :
    Meets (insertWorkflow row) fun s _ s' =>
      s'.workflows.rows = s.workflows.rows ++ [row] ∧ s'.steps = s.steps ∧
        s'.outbox = s.outbox ∧ s'.clock = s.clock := by
  refine (statement_meets _).mono fun s a s' h => ?_
  cases hinsert : s.workflows.insert row with
  | none => simp [hinsert] at h
  | some workflows =>
      simp only [hinsert, Except.ok.injEq, Prod.mk.injEq, true_and] at h
      subst h
      exact ⟨(Table.insert_eq_some.mp hinsert).2, rfl, rfl, rfl⟩

theorem insertSteps_clean (workflowId : String) (steps : List PlannedStep) :
    Clean (insertSteps workflowId steps) := by
  induction steps with
  | nil => exact pure_clean _
  | cons step rest ih => exact bind_clean (statement_firm _).clean fun _ => ih

theorem create_firm (workflowId goal : String) (inputs : Inputs) (steps : List PlannedStep)
    (tenantId projectId : Option String) :
    Firm (create workflowId goal inputs steps tenantId projectId) :=
  (query_firm _).bind fun _ => ((statement_firm _).bind fun _ => insertSteps_clean _ _).clean

theorem insertSteps_meets (workflowId : String) (steps : List PlannedStep) :
    Meets (insertSteps workflowId steps) fun s _ s' =>
      s'.steps.rows = s.steps.rows ++ steps.map (plannedRow workflowId) ∧
        s'.workflows = s.workflows ∧ s'.outbox = s.outbox ∧ s'.clock = s.clock := by
  induction steps with
  | nil =>
      refine (pure_meets _).mono ?_
      rintro s a s' ⟨-, rfl⟩
      simp
  | cons step rest ih =>
      refine (bind_meets (statement_meets _) fun _ => ih).mono ?_
      rintro s a s' ⟨_, s₁, hs₁, hsteps, hworkflows, houtbox, hclock⟩
      cases hinsert : s.steps.insert (plannedRow workflowId step) with
      | none => simp [hinsert] at hs₁
      | some table =>
          simp only [hinsert, Except.ok.injEq, Prod.mk.injEq, true_and] at hs₁
          subst hs₁
          refine ⟨?_, hworkflows, houtbox, hclock⟩
          rw [hsteps, (Table.insert_eq_some.mp hinsert).2, List.map_cons, List.append_assoc]
          rfl

theorem create_meets (workflowId goal : String) (inputs : Inputs) (steps : List PlannedStep)
    (tenantId projectId : Option String) :
    Meets (create workflowId goal inputs steps tenantId projectId) fun s _ s' =>
      Created workflowId goal inputs steps tenantId projectId s s' := by
  refine (bind_meets (query_meets _) fun now =>
    bind_meets (insertWorkflow_meets _) fun _ => insertSteps_meets _ _).mono ?_
  rintro s a s' ⟨now, s₁, ⟨rfl, rfl⟩, _, s₂, ⟨hworkflows, hsteps₂, houtbox₂, hclock₂⟩, hsteps,
    hworkflows', houtbox, hclock⟩
  exact {
    workflows := by rw [hworkflows', hworkflows]
    steps := by rw [hsteps, hsteps₂]
    outbox := by rw [houtbox, houtbox₂]
    clock := by rw [hclock, hclock₂] }

end SeoPlatform.Orchestrator.StoreSpecs
