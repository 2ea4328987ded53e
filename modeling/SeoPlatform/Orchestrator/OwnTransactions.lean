import SeoPlatform.Foundation.TwoRuns
import SeoPlatform.Orchestrator.FlowView
import SeoPlatform.Orchestrator.OwnRows

namespace SeoPlatform.Orchestrator.OwnTransactions

open SeoPlatform.Foundation.JsonValue
open SeoPlatform.Foundation.ConstrainedTable
open SeoPlatform.Foundation.SqlTransaction
open SeoPlatform.Foundation.TwoRuns
open SeoPlatform.Orchestrator.Planner
open SeoPlatform.Orchestrator.Store
open SeoPlatform.Orchestrator.Engine
open SeoPlatform.Orchestrator.Snapshots
open SeoPlatform.Orchestrator.Changes
open SeoPlatform.Orchestrator.FlowView
open SeoPlatform.Orchestrator.OwnRows
open SeoPlatform.Shared.Contracts
open SeoPlatform.Shared.Exceptions
open SeoPlatform.Shared.Events

/-- A workflow of the tenant, as it was read. -/
structure Own (tenant : Option String) (workflowId : String) (w : Workflow) : Prop where
  id : w.workflowId = workflowId
  tenant : w.tenantId = tenant

variable {tenant : Option String} {mine : String → Bool} {claim : Option (String × String)}
variable {workflowId : String}

section Statements

/-- What an identifier of the tenant finds. -/
theorem workflow?_follows (hmine : mine workflowId = true) :
    Follows (Mirrors tenant mine claim) (query (Db.workflow? · workflowId) : StoreTx _)
      (query (Db.workflow? · workflowId))
      (Same fun found => ∀ r ∈ found, r.id = workflowId ∧ r.tenantId = tenant) :=
  query_follows fun _ _ h => ⟨h.workflow?_eq hmine, fun _ hr => h.tenant_of_workflow? hmine hr⟩

theorem load_follows (hmine : mine workflowId = true) :
    Follows (Mirrors tenant mine claim) (load workflowId) (load workflowId)
      (Same fun found => ∀ w ∈ found, Own tenant workflowId w) := by
  refine bind_follows (workflow?_follows hmine) ?_
  rintro _ row ⟨rfl, hrow⟩
  cases row with
  | none => exact pure_follows ⟨rfl, by simp⟩
  | some row =>
      obtain ⟨hid, htenant⟩ := hrow row rfl
      refine bind_follows (V := Same fun _ => True) (query_follows fun _ _ h => ?_) ?_
      · exact ⟨by rw [h.own, stepsOf_ownRows hmine], trivial⟩
      · rintro _ steps ⟨rfl, -⟩
        refine pure_follows ⟨rfl, ?_⟩
        rintro _ ⟨⟩
        exact ⟨hid, htenant⟩

theorem stageEvents_follows {eventId : String} {subject : Subject}
    (hsubject : subject.tenantId = tenant) (events : List PendingEvent)
    (hevents : ∀ event ∈ events, event.eventId = eventId) :
    Follows (Mirrors tenant mine (some (workflowId, eventId))) (stageEvents subject events)
      (stageEvents subject events) (Same fun _ => True) := by
  induction events with
  | nil => exact pure_follows ⟨rfl, trivial⟩
  | cons event rest ih =>
      obtain ⟨hevent, hrest⟩ := List.forall_mem_cons.mp hevents
      refine bind_follows (V := Same fun _ => True)
        (modify_follows ⟨rfl, trivial⟩ fun _ _ h => ?_) fun _ _ _ => ih hrest
      exact h.staged hsubject hevent

/-- The update alone. -/
theorem updateWorkflow_follows (status : WorkflowStatus) (report : Option Dict)
    (error : Option String) :
    Follows (Mirrors tenant mine claim)
      (modify (·.updateWorkflow workflowId status report error) : StoreTx Unit)
      (modify (·.updateWorkflow workflowId status report error)) (Same fun _ => True) :=
  modify_follows ⟨rfl, trivial⟩ fun _ _ h => h.updateWorkflow _ _ _ _

theorem writeStatus_follows {eventId : String} (hmine : mine workflowId = true)
    (status : WorkflowStatus) (report : Option Dict) (error : Option String)
    (events : List PendingEvent) (hevents : ∀ event ∈ events, event.eventId = eventId) :
    Follows (Mirrors tenant mine (some (workflowId, eventId)))
      (writeStatus workflowId status report error events)
      (writeStatus workflowId status report error events) (Same fun _ => True) := by
  unfold writeStatus
  refine bind_follows (updateWorkflow_follows _ _ _) fun _ _ _ => ?_
  split
  · exact pure_follows ⟨rfl, trivial⟩
  · have hfound : Follows (Mirrors tenant mine (some (workflowId, eventId)))
        (query (Db.workflow? · workflowId) : StoreTx _) (query (Db.workflow? · workflowId))
        (Same fun found => found.bind WorkflowRow.tenantId = tenant) := by
      refine query_follows fun s _ h => ⟨h.workflow?_eq hmine, ?_⟩
      obtain ⟨r, hr, hid, htenant⟩ := (h.claimed _ rfl).there
      rw [workflow?_eq_some.mpr ⟨hr, hid⟩]
      exact htenant
    refine bind_follows hfound ?_
    rintro _ row ⟨rfl, hrow⟩
    exact stageEvents_follows hrow events hevents

theorem setStatus_follows {eventId : String} (hmine : mine workflowId = true)
    (status : WorkflowStatus) (report : Option Dict) (error : Option String)
    (events : List PendingEvent) (hevents : ∀ event ∈ events, event.eventId = eventId) :
    Follows (Mirrors tenant mine (some (workflowId, eventId)))
      (setStatus workflowId status report error events)
      (setStatus workflowId status report error events)
      (Same fun found => ∀ w ∈ found, Own tenant workflowId w) :=
  bind_follows (writeStatus_follows hmine status report error events hevents) fun _ _ _ =>
    load_follows hmine

/-- A status written without events claims nothing. -/
theorem setStatus_follows_of_silent (hmine : mine workflowId = true) (status : WorkflowStatus)
    (report : Option Dict) (error : Option String) :
    Follows (Mirrors tenant mine claim) (setStatus workflowId status report error [])
      (setStatus workflowId status report error [])
      (Same fun found => ∀ w ∈ found, Own tenant workflowId w) :=
  bind_follows (V := Same fun _ => True) (bind_follows (updateWorkflow_follows _ _ _) fun _ _ _ =>
    pure_follows ⟨rfl, trivial⟩) fun _ _ _ => load_follows hmine

/-- The completion of a job finds a workflow of the tenant's on both tables, or one of
somebody else's on the first. -/
theorem markStep_follows (jobId : String) (status : StepStatus) (result : Option Dict)
    (error : Option String) :
    Follows (Mirrors tenant mine claim) (markStep jobId status result error)
      (markStep jobId status result error) fun hit hit' => hit' = hit.filter mine := by
  refine statement_follows fun s s' h => .ok ⟨?_, h.updateStep _ _ _⟩
  have hunique : ∀ a ∈ s.steps.rows, ∀ b ∈ s.steps.rows,
      decide (a.jobId = jobId ∧ a.status = .dispatched) = true →
      decide (b.jobId = jobId ∧ b.status = .dispatched) = true → a = b := by
    intro a ha b hb hpa hpb
    refine eq_of_jobId ha hb ?_
    rw [(of_decide_eq_true hpa).1, (of_decide_eq_true hpb).1]
  rw [h.own]
  simp only [ownRows, rows_delete_not]
  rw [find?_filter_of_unique _ _ hunique]
  generalize s.steps.rows.find? _ = hit
  cases hit with
  | none => rfl
  | some r => by_cases hr : mine r.workflowId = true <;> simp [Option.filter_some, hr]

theorem saveSummary_follows (hmine : mine workflowId = true) (summary : Dict) :
    Follows (Mirrors tenant mine claim) (saveSummary workflowId summary)
      (saveSummary workflowId summary) (Same fun _ => True) := by
  refine statement_follows fun s s' h => .ok ⟨⟨?_, trivial⟩, h.updateSummary _ _⟩
  rw [h.own]
  simp only [ownRows, rows_delete_not]
  rw [List.any_filter]
  congr 1
  funext r
  by_cases hr : r.id = workflowId
  · simp [hr, hmine]
  · simp [hr]

end Statements

section Engine

/-- The runs a finish may compare with are the tenant's. -/
theorem previousRow_ownRows {s : Db} (hsorted : Sorted tenant mine s) {w : Workflow}
    (hown : Own tenant workflowId w) (hmine : mine workflowId = true) (startUrl : String) :
    (ownRows tenant mine s).previousRow w startUrl = s.previousRow w startUrl := by
  obtain ⟨rfl, htenant⟩ := hown
  unfold Db.previousRow
  rw [workflow?_ownRows hmine]
  simp only [ownRows, rows_delete_not]
  rw [List.filter_filter]
  refine congrArg latest (List.filter_congr fun r hr => ?_)
  by_cases hr' : r.tenantId = w.tenantId
  · rw [htenant] at hr'
    simp [(hsorted r hr).mp hr']
  · simp [hr']

theorem mem_of_latest {rows : List WorkflowRow} {r : WorkflowRow} (h : latest rows = some r) :
    r ∈ rows := by
  induction rows with
  | nil => cases h
  | cons first rest ih =>
      unfold latest at h
      cases hrest : latest rest with
      | none =>
          rw [hrest] at h
          cases h
          exact List.mem_cons_self
      | some other =>
          rw [hrest] at h
          dsimp only at h
          split at h
          · cases h
            exact List.mem_cons_of_mem _ (ih hrest)
          · cases h
            exact List.mem_cons_self

theorem previousCompleted_follows {w : Workflow} (hown : Own tenant workflowId w)
    (hmine : mine workflowId = true) :
    Follows (Mirrors tenant mine claim) (previousCompleted w) (previousCompleted w)
      (Same fun _ => True) := by
  unfold previousCompleted
  cases w.inputs.startUrl with
  | none => exact pure_follows ⟨rfl, trivial⟩
  | some startUrl =>
      dsimp only
      split
      · exact pure_follows ⟨rfl, trivial⟩
      · have hquery : Follows (Mirrors tenant mine claim)
            (query (Db.previousRow · w startUrl) : StoreTx _) (query (Db.previousRow · w startUrl))
            (Same fun found => ∀ r ∈ found, mine r.id = true) := by
          refine query_follows fun s s' h => ⟨?_, fun r hr => ?_⟩
          · rw [h.own, previousRow_ownRows h.sorted hown hmine]
          · obtain ⟨hmem, hmeets⟩ := List.mem_filter.mp (mem_of_latest hr)
            exact (h.sorted r hmem).mp ((of_decide_eq_true hmeets).2.2.2.1.trans hown.tenant)
        refine bind_follows hquery ?_
        rintro _ row ⟨rfl, hrow⟩
        cases row with
        | none => exact pure_follows ⟨rfl, trivial⟩
        | some row =>
            exact (load_follows (hrow row rfl)).mono fun _ _ h => ⟨h.1, trivial⟩

theorem previousOrNone_follows {w : Workflow} (hown : Own tenant workflowId w)
    (hmine : mine workflowId = true) (status : WorkflowStatus) :
    Follows (Mirrors tenant mine claim) (previousOrNone w status) (previousOrNone w status)
      (Same fun _ => True) := by
  unfold previousOrNone
  split
  · exact tryCatch_follows (previousCompleted_follows hown hmine) fun _ =>
      pure_follows ⟨rfl, trivial⟩
  · exact pure_follows ⟨rfl, trivial⟩

theorem agrees_same {ε α : Type} (r : Except ε α) : Agrees (Same fun _ => True) r r := by
  cases r with
  | ok a => exact .ok ⟨rfl, trivial⟩
  | error e => exact .error e

variable {env : Env} {eventId : String}

theorem completedEvents_eventId {w : Workflow} {payload : Dict} {event : PendingEvent}
    (h : event ∈ completedEvents env eventId w payload) : event.eventId = eventId := by
  rw [completedEvents_eq] at h
  split at h
  · rw [List.mem_singleton.mp h]
  · exact absurd h List.not_mem_nil

theorem finish_follows {w : Workflow} (hown : Own tenant workflowId w)
    (hmine : mine workflowId = true) (status : WorkflowStatus) (error : Option String) :
    Follows (Mirrors tenant mine (some (workflowId, eventId)))
      (finish env eventId w status error) (finish env eventId w status error)
      (Same fun _ => True) := by
  unfold finish
  dsimp only
  refine bind_follows (previousOrNone_follows hown hmine status) ?_
  rintro _ previous ⟨rfl, -⟩
  refine bind_follows (fromExcept_follows (agrees_same _)) ?_
  rintro _ report ⟨rfl, -⟩
  rw [hown.id]
  refine bind_follows (setStatus_follows hmine _ _ _ _ fun event hevent =>
    completedEvents_eventId hevent) fun _ _ _ => pure_follows ⟨rfl, trivial⟩

theorem markDispatched_follows (jobId : String) :
    Follows (Mirrors tenant mine claim) (markDispatched jobId) (markDispatched jobId)
      (Same fun _ => True) :=
  modify_follows ⟨rfl, trivial⟩ fun _ _ h => h.updateStep _ _ _

theorem skipStep_follows (jobId reason : String) :
    Follows (Mirrors tenant mine claim) (skipStep jobId reason) (skipStep jobId reason)
      (Same fun _ => True) :=
  modify_follows ⟨rfl, trivial⟩ fun _ _ h => h.updateStep _ _ _

theorem dispatch_follows {w : Workflow} {step : Step} {event : PendingEvent}
    (hmine : mine workflowId = true) (hevent : dispatchEvent env eventId w step = .ok event) :
    Follows (Mirrors tenant mine (some (workflowId, eventId))) (dispatch workflowId step event)
      (dispatch workflowId step event) (Same fun _ => True) := by
  obtain ⟨params, -, -, hshape⟩ := dispatchEvent_ok hevent
  refine bind_follows (setStatus_follows hmine _ _ _ _ ?_) fun _ _ _ => markDispatched_follows _
  intro event' hmem
  rw [List.mem_singleton.mp hmem, hshape]

theorem advancePastSkipped_follows (hmine : mine workflowId = true) :
    Follows (Mirrors tenant mine (some (workflowId, eventId)))
      (advancePastSkipped env eventId workflowId) (advancePastSkipped env eventId workflowId)
      (Same fun _ => True) := by
  refine bind_follows (load_follows hmine) ?_
  rintro _ found ⟨rfl, hown⟩
  cases found with
  | none => exact throw_follows _
  | some w =>
      dsimp only
      cases w.nextPending with
      | none => exact finish_follows (hown w rfl) hmine _ _
      | some step =>
          dsimp only
          cases hevent : dispatchEvent env eventId w step with
          | ok event => exact dispatch_follows hmine hevent
          | error e => exact finish_follows (hown w rfl) hmine _ _

/-- An `advance` of a workflow of the tenant does the same on the tenant's part of the tables. -/
theorem advanceLoaded_follows (hmine : mine workflowId = true) {loaded : Option Workflow}
    (hown : ∀ w ∈ loaded, Own tenant workflowId w) :
    Follows (Mirrors tenant mine (some (workflowId, eventId)))
      (advanceLoaded env eventId workflowId loaded)
      (advanceLoaded env eventId workflowId loaded) (Same fun _ => True) := by
  cases loaded with
  | none => exact pure_follows ⟨rfl, trivial⟩
  | some w =>
      have hw := hown w rfl
      unfold advanceLoaded
      dsimp only
      split
      · exact pure_follows ⟨rfl, trivial⟩
      split
      · exact finish_follows hw hmine _ _
      split
      · exact pure_follows ⟨rfl, trivial⟩
      cases w.nextPending with
      | none => exact finish_follows hw hmine _ _
      | some step =>
          dsimp only
          cases hevent : dispatchEvent env eventId w step with
          | ok event => exact dispatch_follows hmine hevent
          | error e =>
              cases e with
              | noWorkToDo reason =>
                  exact bind_follows (skipStep_follows _ _) fun _ _ _ =>
                    advancePastSkipped_follows hmine
              | contractError | unknownGoal | unknownTenant | targetNotAllowed | library
              | valueError | typeError | attributeError | keyError | database =>
                  exact finish_follows hw hmine _ _

theorem claimAndLoad_follows (hmine : mine workflowId = true) :
    Follows (Mirrors tenant mine claim) (claimAndLoad workflowId) (claimAndLoad workflowId)
      (Same fun found => ∀ w ∈ found, Own tenant workflowId w) := by
  refine bind_follows (V := Same fun _ => True)
    (query_follows fun _ _ h => ⟨?_, trivial⟩) fun _ _ _ => load_follows hmine
  rw [h.workflow?_eq hmine]

end Engine

section Creating

/-- No other tenant's step has one of the jobs. -/
def Unshared (mine : String → Bool) (jobs : List String) (db : Db) : Prop :=
  ∀ r ∈ db.steps.rows, r.jobId ∈ jobs → mine r.workflowId = true

/-- The tenant's part of the tables, while the tenant's steps go into them. -/
structure Enrolls (tenant : Option String) (mine : String → Bool) (jobs : List String)
    (s s' : Db) : Prop extends Mirrors tenant mine none s s' where
  unshared : Unshared mine jobs s

variable {jobs : List String}

theorem insertWorkflow_follows {row : WorkflowRow} (hmine : mine row.id = true)
    (htenant : row.tenantId = tenant) :
    Follows (Enrolls tenant mine jobs) (insertWorkflow row) (insertWorkflow row)
      (Same fun _ => True) := by
  refine statement_follows fun s s' h => ?_
  have hclash : ∀ old ∈ s.workflows.rows, SameWorkflow old row → mine old.id = true := by
    rintro old - hsame
    rw [show old.id = row.id from hsame]
    exact hmine
  have hinsert : s'.workflows.insert row =
      (s.workflows.insert row).map fun table => table.delete fun r => !mine r.id := by
    rw [h.own]
    exact insert_delete_not s.workflows hmine hclash
  rw [hinsert]
  cases hadded : s.workflows.insert row with
  | none => exact .error _
  | some table =>
      refine .ok ⟨⟨rfl, trivial⟩, ⟨?_, fun r hr => ?_, by simp⟩, h.unshared⟩
      · rw [h.own]
        rfl
      · rw [(Table.insert_eq_some.mp hadded).2] at hr
        rcases List.mem_append.mp hr with hold | hnew
        · exact h.sorted r hold
        · rw [List.mem_singleton.mp hnew]
          exact iff_of_true htenant hmine

theorem insertStep_follows {row : StepRow} (hmine : mine row.workflowId = true)
    (hjob : row.jobId ∈ jobs) :
    Follows (Enrolls tenant mine jobs) (insertStep row) (insertStep row)
      (Same fun _ => True) := by
  refine statement_follows fun s s' h => ?_
  have hclash : ∀ old ∈ s.steps.rows, SameStep old row → mine old.workflowId = true := by
    rintro old hold (hsame | ⟨hsame, -⟩)
    · exact h.unshared old hold (hsame ▸ hjob)
    · rw [hsame]
      exact hmine
  have hinsert : s'.steps.insert row =
      (s.steps.insert row).map fun table => table.delete fun r => !mine r.workflowId := by
    rw [h.own]
    exact insert_delete_not s.steps hmine hclash
  rw [hinsert]
  cases hadded : s.steps.insert row with
  | none => exact .error _
  | some table =>
      refine .ok ⟨⟨rfl, trivial⟩, ⟨?_, h.sorted, by simp⟩, fun r hr hmem => ?_⟩
      · rw [h.own]
        rfl
      · rw [(Table.insert_eq_some.mp hadded).2] at hr
        rcases List.mem_append.mp hr with hold | hnew
        · exact h.unshared r hold hmem
        · rw [List.mem_singleton.mp hnew]
          exact hmine

theorem insertSteps_follows (hmine : mine workflowId = true) (steps : List PlannedStep)
    (hjobs : ∀ p ∈ steps, p.jobId ∈ jobs) :
    Follows (Enrolls tenant mine jobs) (insertSteps workflowId steps)
      (insertSteps workflowId steps) (Same fun _ => True) := by
  induction steps with
  | nil => exact pure_follows ⟨rfl, trivial⟩
  | cons p rest ih =>
      obtain ⟨hp, hrest⟩ := List.forall_mem_cons.mp hjobs
      exact bind_follows (insertStep_follows hmine hp) fun _ _ _ => ih hrest

/-- A workflow of the tenant is created on the tenant's part of the tables as on the whole. -/
theorem create_follows (hmine : mine workflowId = true) (goal : String) (inputs : Inputs)
    (steps : List PlannedStep) (projectId : Option String) (hjobs : ∀ p ∈ steps, p.jobId ∈ jobs) :
    Follows (Enrolls tenant mine jobs)
      (create workflowId goal inputs steps tenant projectId)
      (create workflowId goal inputs steps tenant projectId) (Same fun _ => True) := by
  refine bind_follows (V := Same fun _ => True) (query_follows fun s s' h => ?_) ?_
  · exact ⟨by rw [h.own]; rfl, trivial⟩
  · rintro _ now ⟨rfl, -⟩
    exact bind_follows (insertWorkflow_follows hmine rfl) fun _ _ _ =>
      insertSteps_follows hmine steps hjobs

end Creating

end SeoPlatform.Orchestrator.OwnTransactions
