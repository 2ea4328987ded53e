import SeoPlatform.Foundation.SequentialFlow
import SeoPlatform.Orchestrator.AdvanceOutcomes

namespace SeoPlatform.Orchestrator.FlowView

open SeoPlatform.Foundation.JsonValue
open SeoPlatform.Foundation.ConstrainedTable
open SeoPlatform.Foundation.SequentialFlow
open SeoPlatform.Orchestrator.Planner
open SeoPlatform.Orchestrator.Store
open SeoPlatform.Orchestrator.StoreSpecs
open SeoPlatform.Orchestrator.Engine
open SeoPlatform.Orchestrator.AdvanceOutcomes
open SeoPlatform.Shared.Contracts
open SeoPlatform.Shared.Events

/-- A step's status as the progress of a stage. -/
def progressOf (kind : StepKind) : StepStatus → Progress
  | .pending => .waiting
  | .dispatched => .inFlight
  | .completed => .done
  | .skipped => .skipped
  | .failed => if Optional kind then .forgiven else .failed

/-- The payload field of a request that carries the job id. -/
def requestField : EventType → Option String
  | .crawlRequested => some "crawl_id"
  | .keywordResearchRequested => some "research_id"
  | .serpCheckRequested => some "check_id"
  | .linksAnalysisRequested => some "analysis_id"
  | .contentAnalysisRequested => some "analysis_id"
  | .optimizerPlanRequested => some "plan_id"
  | .competitorComparisonRequested => some "comparison_id"
  | _ => none

/-- The job an outbox row asks for. -/
def requestJob (o : OutboxRow) : Option String :=
  (requestField o.eventType).bind fun field => (Dict.get o.payload field).str?

def Db.stepAt (db : Db) (workflowId : String) (position : Nat) : Option StepRow :=
  db.steps.rows.find? fun r => r.workflowId = workflowId ∧ r.position = position

/-- The position of the step of a workflow that an outbox row asks for. -/
def requestedPosition (db : Db) (workflowId : String) (o : OutboxRow) : Option Nat :=
  (requestJob o).bind fun job =>
    (db.steps.rows.find? fun r => r.jobId = job ∧ r.workflowId = workflowId).map fun r => r.position

/-- A workflow as a sequential flow over its positions. -/
def flow (db : Db) (workflowId : String) : Flow Nat where
  progress position :=
    match Db.stepAt db workflowId position with
    | none => .absent
    | some r => progressOf r.kind r.status
  log := db.outbox.rows.filterMap (requestedPosition db workflowId)

theorem sameStep_symm (a b : StepRow) (h : SameStep a b) : SameStep b a := by
  rcases h with h | ⟨h, h'⟩
  · exact .inl h.symm
  · exact .inr ⟨h.symm, h'.symm⟩

theorem eq_of_jobId {db : Db} {a b : StepRow} (ha : a ∈ db.steps.rows) (hb : b ∈ db.steps.rows)
    (h : a.jobId = b.jobId) : a = b :=
  db.steps.eq_of_clash sameStep_symm ha hb (.inl h)

theorem eq_of_position {db : Db} {a b : StepRow} (ha : a ∈ db.steps.rows)
    (hb : b ∈ db.steps.rows) (hworkflow : a.workflowId = b.workflowId)
    (hposition : a.position = b.position) : a = b :=
  db.steps.eq_of_clash sameStep_symm ha hb (.inr ⟨hworkflow, hposition⟩)

theorem stepAt_eq_some {db : Db} {workflowId : String} {position : Nat} {r : StepRow} :
    Db.stepAt db workflowId position = some r ↔
      r ∈ db.steps.rows ∧ r.workflowId = workflowId ∧ r.position = position := by
  unfold Db.stepAt
  constructor
  · intro h
    have hp := List.find?_some h
    simp only [decide_eq_true_eq] at hp
    exact ⟨List.mem_of_find?_eq_some h, hp⟩
  · rintro ⟨hr, hworkflow, hposition⟩
    refine db.steps.find?_eq_some_of_unique hr (by simp [hworkflow, hposition]) ?_
    intro other hother hp
    simp only [decide_eq_true_eq] at hp
    exact eq_of_position hother hr (by rw [hp.1, hworkflow]) (by rw [hp.2, hposition])

theorem stepAt_eq_none {db : Db} {workflowId : String} {position : Nat} :
    Db.stepAt db workflowId position = none ↔
      ∀ r ∈ db.steps.rows, r.workflowId = workflowId → r.position ≠ position := by
  simp [Db.stepAt, List.find?_eq_none]

theorem progress_of_mem {db : Db} {r : StepRow} (hr : r ∈ db.steps.rows) :
    (flow db r.workflowId).progress r.position = progressOf r.kind r.status := by
  have h := stepAt_eq_some.mpr ⟨hr, rfl, rfl⟩
  simp only [flow, h]

theorem progress_absent {db : Db} {workflowId : String} {position : Nat}
    (h : ∀ r ∈ db.steps.rows, r.workflowId = workflowId → r.position ≠ position) :
    (flow db workflowId).progress position = .absent := by
  simp only [flow, stepAt_eq_none.mpr h]

/-- A stage of the view that is there is a row of the table. -/
theorem exists_row_of_progress {db : Db} {workflowId : String} {position : Nat}
    (h : (flow db workflowId).progress position ≠ .absent) :
    ∃ r ∈ db.steps.rows, r.workflowId = workflowId ∧ r.position = position := by
  by_contra hnone
  exact h (progress_absent fun r hr hworkflow hposition => hnone ⟨r, hr, hworkflow, hposition⟩)

theorem requestedPosition_eq_some {db : Db} {workflowId : String} {o : OutboxRow}
    {position : Nat} :
    requestedPosition db workflowId o = some position ↔
      ∃ r ∈ db.steps.rows, requestJob o = some r.jobId ∧ r.workflowId = workflowId ∧
        r.position = position := by
  unfold requestedPosition
  constructor
  · intro h
    obtain ⟨job, hjob, hfind⟩ := Option.bind_eq_some_iff.mp h
    obtain ⟨r, hr, hposition⟩ := Option.map_eq_some_iff.mp hfind
    have hp := List.find?_some hr
    simp only [decide_eq_true_eq] at hp
    exact ⟨r, List.mem_of_find?_eq_some hr, by rw [hjob, hp.1], hp.2, hposition⟩
  · rintro ⟨r, hr, hjob, hworkflow, hposition⟩
    have hfind : (db.steps.rows.find? fun r' => r'.jobId = r.jobId ∧ r'.workflowId = workflowId) =
        some r := by
      refine db.steps.find?_eq_some_of_unique hr (by simp [hworkflow]) ?_
      intro other hother hp
      simp only [decide_eq_true_eq] at hp
      exact eq_of_jobId hother hr hp.1
    rw [hjob, Option.bind_some, hfind, Option.map_some, hposition]

/-- The view reads nothing but the steps of its workflow and the requests. -/
theorem flow_congr {db db' : Db} {workflowId : String}
    (hprogress : ∀ position, (flow db' workflowId).progress position =
      (flow db workflowId).progress position)
    (hlog : (flow db' workflowId).log = (flow db workflowId).log) :
    flow db' workflowId = flow db workflowId := by
  have hfun : (flow db' workflowId).progress = (flow db workflowId).progress :=
    funext hprogress
  cases hflow : flow db workflowId
  cases hflow' : flow db' workflowId
  rw [hflow, hflow'] at hfun hlog
  simp only at hfun hlog
  rw [hfun, hlog]

theorem mem_updateStep {db : Db} {jobId : String} {status : StepStatus} {u : StepUpdate}
    {r' : StepRow} :
    r' ∈ (db.updateStep jobId status u).steps.rows ↔
      ∃ r ∈ db.steps.rows, r.updatedWhere jobId status u = r' := by
  simp [Db.updateStep]

theorem updatedWhere_of_hit {r : StepRow} {jobId : String} {status : StepStatus}
    {u : StepUpdate} (hjob : r.jobId = jobId) (hstatus : r.status = status) :
    r.updatedWhere jobId status u = r.updated u := by
  simp [StepRow.updatedWhere, hjob, hstatus]

theorem updatedWhere_of_miss {r : StepRow} {jobId : String} {status : StepStatus}
    {u : StepUpdate} (h : ¬ (r.jobId = jobId ∧ r.status = status)) :
    r.updatedWhere jobId status u = r := by
  simp [StepRow.updatedWhere, h]

theorem stepAt_updateStep (db : Db) (jobId : String) (status : StepStatus) (u : StepUpdate)
    (workflowId : String) (position : Nat) :
    Db.stepAt (db.updateStep jobId status u) workflowId position =
      (Db.stepAt db workflowId position).map (StepRow.updatedWhere jobId status u) := by
  simp [Db.stepAt, Db.updateStep, List.find?_map, Function.comp_def]

theorem requestedPosition_updateStep (db : Db) (jobId : String) (status : StepStatus)
    (u : StepUpdate) (workflowId : String) :
    requestedPosition (db.updateStep jobId status u) workflowId =
      requestedPosition db workflowId := by
  funext o
  simp [requestedPosition, Db.updateStep, List.find?_map, Function.comp_def]

/-- An UPDATE that hits a row moves that stage of the view. -/
theorem flow_updateStep_hit {db : Db} {r : StepRow} (hr : r ∈ db.steps.rows) (u : StepUpdate) :
    flow (db.updateStep r.jobId r.status u) r.workflowId =
      (flow db r.workflowId).set r.position (progressOf r.kind u.status) := by
  have hlog : (flow (db.updateStep r.jobId r.status u) r.workflowId).log =
      (flow db r.workflowId).log := by
    simp only [flow, requestedPosition_updateStep]
    rfl
  have hprogress : (flow (db.updateStep r.jobId r.status u) r.workflowId).progress =
      ((flow db r.workflowId).set r.position (progressOf r.kind u.status)).progress := by
    funext position
    by_cases hposition : position = r.position
    · subst hposition
      rw [progress_set_self]
      have hstep := stepAt_eq_some.mpr ⟨hr, rfl, rfl⟩
      simp only [flow, stepAt_updateStep, hstep, Option.map_some,
        updatedWhere_of_hit rfl rfl]
      rfl
    · rw [progress_set_of_ne _ _ hposition]
      simp only [flow, stepAt_updateStep]
      cases hstep : Db.stepAt db r.workflowId position with
      | none => rfl
      | some other =>
          obtain ⟨hother, -, hposition'⟩ := stepAt_eq_some.mp hstep
          have hmiss : ¬ (other.jobId = r.jobId ∧ other.status = r.status) := by
            rintro ⟨hjob, -⟩
            rw [eq_of_jobId hother hr hjob] at hposition'
            exact hposition hposition'.symm
          rw [Option.map_some, updatedWhere_of_miss hmiss]
  cases hflow : flow (db.updateStep r.jobId r.status u) r.workflowId
  rw [hflow] at hlog hprogress
  simp only at hlog hprogress
  rw [hlog, hprogress]
  rfl

/-- An UPDATE that hits no row of a workflow leaves its view. -/
theorem flow_updateStep_miss {db : Db} {jobId : String} {status : StepStatus}
    {workflowId : String} (u : StepUpdate)
    (hmiss : ∀ r ∈ db.steps.rows, r.workflowId = workflowId →
      ¬ (r.jobId = jobId ∧ r.status = status)) :
    flow (db.updateStep jobId status u) workflowId = flow db workflowId := by
  refine flow_congr (fun position => ?_) ?_
  · simp only [flow, stepAt_updateStep]
    cases hstep : Db.stepAt db workflowId position with
    | none => rfl
    | some r =>
        obtain ⟨hr, hworkflow, -⟩ := stepAt_eq_some.mp hstep
        rw [Option.map_some, updatedWhere_of_miss (hmiss r hr hworkflow)]
  · simp only [flow, requestedPosition_updateStep]
    rfl

/-- Rows added to the outbox are added to the log. -/
theorem flow_of_outbox {db db' : Db} {added : List OutboxRow} (workflowId : String)
    (hsteps : db'.steps = db.steps) (houtbox : db'.outbox.rows = db.outbox.rows ++ added) :
    flow db' workflowId =
      { flow db workflowId with
        log := (flow db workflowId).log ++ added.filterMap (requestedPosition db workflowId) } := by
  have hposition : requestedPosition db' workflowId = requestedPosition db workflowId := by
    funext o
    simp only [requestedPosition, hsteps]
  have hstep : Db.stepAt db' workflowId = Db.stepAt db workflowId := by
    funext position
    simp only [Db.stepAt, hsteps]
  simp only [flow, hposition, hstep, houtbox, List.filterMap_append]

end SeoPlatform.Orchestrator.FlowView
