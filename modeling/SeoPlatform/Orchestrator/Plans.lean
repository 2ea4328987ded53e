import SeoPlatform.Orchestrator.StepLives

namespace SeoPlatform.Orchestrator.Plans

open SeoPlatform.Foundation.JsonValue
open SeoPlatform.Foundation.UrlText
open SeoPlatform.Foundation.TransitionSystem
open SeoPlatform.Orchestrator.Planner
open SeoPlatform.Orchestrator.Store
open SeoPlatform.Orchestrator.StoreSpecs
open SeoPlatform.Orchestrator.Engine
open SeoPlatform.Orchestrator.AdvanceOutcomes
open SeoPlatform.Orchestrator.Snapshots
open SeoPlatform.Orchestrator.Workers
open SeoPlatform.Orchestrator.Changes
open SeoPlatform.Orchestrator.FlowView
open SeoPlatform.Orchestrator.Refinement
open SeoPlatform.Orchestrator.Coherence
open SeoPlatform.Orchestrator.Interleavings
open SeoPlatform.Orchestrator.StepLives
open SeoPlatform.Shared.Exceptions

section Plan

variable {rules : TextRules} {goal : String} {inputs : Inputs} {jobIds : Nat → String}
  {steps : List PlannedStep}

/-- What a plan is made of. -/
theorem plan_ok (h : plan rules goal inputs jobIds = .ok steps) :
    goal = "site_audit" ∧ strip (inputs.startUrl.getD "") ≠ "" ∧
      ∃ rivals, competitors rules inputs = .ok rivals ∧
        steps = ownSteps (strip (inputs.startUrl.getD "")) inputs jobIds ++
          rivalSteps (competitorPages inputs) jobIds 7 rivals ++ checkStep jobIds rivals := by
  unfold plan at h
  split at h
  · rename_i hgoal
    simp only [siteAudit] at h
    split at h
    · contradiction
    · rename_i hurl
      cases hrivals : competitors rules inputs with
      | error err => simp [hrivals, bind, Except.bind] at h
      | ok rivals =>
          simp only [hrivals, bind, Except.bind, Except.ok.injEq] at h
          exact ⟨hgoal, hurl, rivals, rfl, h.symm⟩
  · contradiction

theorem mem_rivalSteps {pages : Int} {urls : List String} {position : Nat} {p : PlannedStep}
    (h : p ∈ rivalSteps pages jobIds position urls) :
    p.kind = .competitorCrawl ∧ position ≤ p.position ∧ p.position < position + urls.length ∧
      ∃ url ∈ urls, p.params = [("start_url", .str url), ("max_pages", .int pages)] := by
  induction urls generalizing position with
  | nil => simp [rivalSteps] at h
  | cons url rest ih =>
      rcases List.mem_cons.mp h with rfl | hmem
      · exact ⟨rfl, Nat.le_refl _, by simp, url, List.mem_cons_self, rfl⟩
      · obtain ⟨hkind, hle, hlt, other, hother, hparams⟩ := ih hmem
        refine ⟨hkind, by omega, ?_, other, List.mem_cons_of_mem _ hother, hparams⟩
        rw [List.length_cons]
        omega

/-- Where a step of a kind stands in a plan with so many competitors. -/
def PlacedAt (rivals : Nat) (kind : StepKind) (position : Nat) : Prop :=
  match kind with
  | .crawl => position = 1
  | .keywordResearch => position = 2
  | .serpCheck => position = 3
  | .linkAnalysis => position = 4
  | .contentAnalysis => position = 5
  | .optimizerPlan => position = 6
  | .competitorCrawl => 7 ≤ position ∧ position < 7 + rivals
  | .competitorCheck => position = 7 + rivals

/-- The shape of a plan: each step in its place, and the six own steps there. -/
structure Shaped (rivals : Nat) (steps : List PlannedStep) : Prop where
  placed : ∀ p ∈ steps, PlacedAt rivals p.kind p.position
  own : ∀ kind, kind ≠ .competitorCrawl → kind ≠ .competitorCheck → ∃ p ∈ steps, p.kind = kind
  alone : rivals = 0 → ∀ p ∈ steps, p.kind ≠ .competitorCrawl ∧ p.kind ≠ .competitorCheck
  compared : rivals ≠ 0 → ∃ p ∈ steps, p.kind = .competitorCheck

theorem mem_checkStep {rivals : List String} {p : PlannedStep} (h : p ∈ checkStep jobIds rivals) :
    rivals ≠ [] ∧ p.kind = .competitorCheck ∧ p.position = 7 + rivals.length := by
  unfold checkStep at h
  split at h
  · simp at h
  · rename_i hrivals
    obtain rfl := List.mem_singleton.mp h
    exact ⟨hrivals, rfl, rfl⟩

theorem shaped_of_parts (url : String) (inputs : Inputs) (jobIds : Nat → String) (pages : Int)
    (rivals : List String) :
    Shaped rivals.length (ownSteps url inputs jobIds ++ rivalSteps pages jobIds 7 rivals ++
      checkStep jobIds rivals) where
  placed p hp := by
    rcases List.mem_append.mp hp with hp | hp
    · rcases List.mem_append.mp hp with hp | hp
      · simp only [ownSteps, List.mem_cons, List.not_mem_nil, or_false] at hp
        rcases hp with rfl | rfl | rfl | rfl | rfl | rfl <;> rfl
      · obtain ⟨hkind, hle, hlt, -⟩ := mem_rivalSteps hp
        rw [hkind]
        exact ⟨hle, hlt⟩
    · obtain ⟨-, hkind, hposition⟩ := mem_checkStep hp
      rw [hkind]
      exact hposition
  own kind hcrawl hcheck := by
    have hown : ∃ p ∈ ownSteps url inputs jobIds, p.kind = kind := by
      cases kind with
      | competitorCrawl => exact absurd rfl hcrawl
      | competitorCheck => exact absurd rfl hcheck
      | crawl | keywordResearch | serpCheck | linkAnalysis | contentAnalysis | optimizerPlan =>
          simp [ownSteps]
    obtain ⟨p, hp, hkind⟩ := hown
    exact ⟨p, List.mem_append_left _ (List.mem_append_left _ hp), hkind⟩
  alone hzero p hp := by
    rcases List.mem_append.mp hp with hp | hp
    · rcases List.mem_append.mp hp with hp | hp
      · simp only [ownSteps, List.mem_cons, List.not_mem_nil, or_false] at hp
        rcases hp with rfl | rfl | rfl | rfl | rfl | rfl <;> simp
      · obtain ⟨-, hle, hlt, -⟩ := mem_rivalSteps hp
        omega
    · obtain ⟨hrivals, -⟩ := mem_checkStep hp
      exact absurd (List.length_eq_zero_iff.mp hzero) hrivals
  compared hsome := by
    have hrivals : rivals ≠ [] := fun h => hsome (by rw [h, List.length_nil])
    refine ⟨⟨7 + rivals.length, .competitorCheck, jobIds (7 + rivals.length), []⟩,
      List.mem_append_right _ ?_, rfl⟩
    rw [checkStep, if_neg hrivals]
    exact List.mem_singleton_self _

end Plan

/-- What of a workflow's row never changes. -/
structure SameIdentity (row row' : WorkflowRow) : Prop where
  id : row'.id = row.id
  goal : row'.goal = row.goal
  inputs : row'.inputs = row.inputs
  tenantId : row'.tenantId = row.tenantId
  projectId : row'.projectId = row.projectId

theorem SameIdentity.refl (row : WorkflowRow) : SameIdentity row row := ⟨rfl, rfl, rfl, rfl, rfl⟩

variable {env : Env} {traffic : Traffic} {s s' : Db}

theorem identity_withStatusWhere (row : WorkflowRow) (workflowId : String)
    (status : WorkflowStatus) (report : Option Dict) (error : Option String) (now : Nat) :
    SameIdentity row (row.withStatusWhere workflowId status report error now) := by
  unfold WorkflowRow.withStatusWhere
  split <;> exact ⟨rfl, rfl, rfl, rfl, rfl⟩

theorem identity_withSummary (row : WorkflowRow) (workflowId : String) (summary : Dict)
    (now : Nat) : SameIdentity row (row.withSummary workflowId summary now) := by
  unfold WorkflowRow.withSummary
  split <;> exact ⟨rfl, rfl, rfl, rfl, rfl⟩

/-- A workflow's row after a change was there before it, or is new. -/
theorem workflow_before (h : Change env traffic s s') {row' : WorkflowRow}
    (hrow' : row' ∈ s'.workflows.rows) :
    (∃ row ∈ s.workflows.rows, SameIdentity row row') ∨
      ∃ request jobIds steps, traffic.request request ∧
        plan env.rules request.goal request.inputs jobIds = .ok steps ∧
        Created request.workflowId request.goal request.inputs steps request.tenantId
          request.projectId s s' ∧
        row' = queuedRow request.workflowId request.goal request.inputs request.tenantId
          request.projectId s.clock := by
  have hwritten : ∀ {t : Db} {workflowId : String} {status : WorkflowStatus}
      {report : Option Dict} {error : Option String} {events : List Shared.Events.PendingEvent},
      t.workflows = s.workflows →
        row' ∈ (statusWritten t workflowId status report error events).workflows.rows →
          ∃ row ∈ s.workflows.rows, SameIdentity row row' := by
    intro t workflowId status report error events ht hmem
    obtain ⟨row, hrow, rfl⟩ := mem_workflows_statusWritten.mp hmem
    rw [ht] at hrow
    exact ⟨row, hrow, identity_withStatusWhere ..⟩
  have hfinished : ∀ {t : Db} {eventId : String} {w : Workflow} {status : WorkflowStatus}
      {error : Option String}, t.workflows = s.workflows →
        Finishes env eventId w status error t s' →
          ∃ row ∈ s.workflows.rows, SameIdentity row row' := by
    rintro t eventId w status error ht ⟨previous, report, -, rfl⟩
    exact hwritten ht hrow'
  cases h with
  | quiet hworkflows _ _ =>
      rw [hworkflows] at hrow'
      exact .inl ⟨row', hrow', .refl row'⟩
  | created hrequest hplan hcreated =>
      rcases (mem_workflows_created hcreated).mp hrow' with hrow | rfl
      · exact .inl ⟨row', hrow, .refl row'⟩
      · exact .inr ⟨_, _, _, hrequest, hplan, hcreated, rfl⟩
  | started _ => exact .inl (hwritten rfl hrow')
  | marked _ _ => exact .inl ⟨row', hrow', .refl row'⟩
  | summarised _ _ =>
      obtain ⟨row, hrow, rfl⟩ := List.mem_map.mp hrow'
      exact .inl ⟨row, hrow, identity_withSummary ..⟩
  | advanced _ _ _ _ hadvances =>
      refine .inl ?_
      cases hadvances with
      | fatal _ hfinish => exact hfinished rfl hfinish
      | done _ _ hfinish => exact hfinished rfl hfinish
      | refused _ _ _ _ hfinish => exact hfinished rfl hfinish
      | sent _ _ _ => exact hwritten rfl hrow'
      | @skipped _ step reason _ _ _ _ _ hpast =>
          have hskip : (skipped s step reason).workflows = s.workflows := rfl
          cases hpast with
          | done _ hfinish => exact hfinished hskip hfinish
          | refused _ _ hfinish => exact hfinished hskip hfinish
          | sent _ _ => exact hwritten hskip hrow'

/-- A workflow's row before a change is there after it. -/
theorem workflow_after (h : Change env traffic s s') {row : WorkflowRow}
    (hrow : row ∈ s.workflows.rows) : ∃ row' ∈ s'.workflows.rows, SameIdentity row row' := by
  have hwritten : ∀ {t : Db} {workflowId : String} {status : WorkflowStatus}
      {report : Option Dict} {error : Option String} {events : List Shared.Events.PendingEvent},
      t.workflows = s.workflows →
        ∃ row' ∈ (statusWritten t workflowId status report error events).workflows.rows,
          SameIdentity row row' := by
    intro t workflowId status report error events ht
    exact ⟨_, mem_workflows_statusWritten.mpr ⟨row, ht ▸ hrow, rfl⟩, identity_withStatusWhere ..⟩
  have hfinished : ∀ {t : Db} {eventId : String} {w : Workflow} {status : WorkflowStatus}
      {error : Option String}, t.workflows = s.workflows →
        Finishes env eventId w status error t s' →
          ∃ row' ∈ s'.workflows.rows, SameIdentity row row' := by
    rintro t eventId w status error ht ⟨previous, report, -, rfl⟩
    exact hwritten ht
  cases h with
  | quiet hworkflows _ _ => exact ⟨row, hworkflows ▸ hrow, .refl row⟩
  | created hrequest hplan hcreated =>
      exact ⟨row, (mem_workflows_created hcreated).mpr (.inl hrow), .refl row⟩
  | started _ => exact hwritten rfl
  | marked _ _ => exact ⟨row, hrow, .refl row⟩
  | summarised _ _ => exact ⟨_, List.mem_map_of_mem hrow, identity_withSummary ..⟩
  | advanced _ _ _ _ hadvances =>
      cases hadvances with
      | fatal _ hfinish => exact hfinished rfl hfinish
      | done _ _ hfinish => exact hfinished rfl hfinish
      | refused _ _ _ _ hfinish => exact hfinished rfl hfinish
      | sent _ _ _ => exact hwritten rfl
      | @skipped _ step reason _ _ _ _ _ hpast =>
          have hskip : (skipped s step reason).workflows = s.workflows := rfl
          cases hpast with
          | done _ hfinish => exact hfinished hskip hfinish
          | refused _ _ hfinish => exact hfinished hskip hfinish
          | sent _ _ => exact hwritten hskip

/-- The planned steps of a workflow, as the table holds them. -/
def planOf (db : Db) (workflowId : String) : List PlannedStep :=
  (db.steps.rows.filter fun r => r.workflowId = workflowId).map plannedOf

/-- The plan of a workflow is the plan of an accepted request. -/
def PlannedFrom (env : Env) (traffic : Traffic) (db : Db) (row : WorkflowRow) : Prop :=
  ∃ request jobIds, traffic.request request ∧
    plan env.rules request.goal request.inputs jobIds = .ok (planOf db row.id) ∧
    row.id = request.workflowId ∧ row.goal = request.goal ∧ row.inputs = request.inputs ∧
    row.tenantId = request.tenantId ∧ row.projectId = request.projectId

def AllPlanned (env : Env) (traffic : Traffic) (db : Db) : Prop :=
  ∀ row ∈ db.workflows.rows, PlannedFrom env traffic db row

theorem planOf_of_moved {f : StepRow → StepRow} (hrows : s'.steps.rows = s.steps.rows.map f)
    (hmoves : ∀ r ∈ s.steps.rows, Moves env traffic r (f r)) (workflowId : String) :
    planOf s' workflowId = planOf s workflowId := by
  unfold planOf
  rw [hrows]
  generalize s.steps.rows = rows at hmoves
  induction rows with
  | nil => rfl
  | cons r rest ih =>
      obtain ⟨hplanned, hworkflow⟩ := identity_of_moves (hmoves r List.mem_cons_self)
      have hrest := ih fun r' hr' => hmoves r' (List.mem_cons_of_mem _ hr')
      by_cases hown : r.workflowId = workflowId
      · simp [hworkflow, hown, hplanned, hrest]
      · simp [hworkflow, hown, hrest]

theorem planOf_of_created {request : StartRequest} {steps : List PlannedStep}
    (h : Created request.workflowId request.goal request.inputs steps request.tenantId
      request.projectId s s') (workflowId : String) :
    planOf s' workflowId =
      planOf s workflowId ++ if workflowId = request.workflowId then steps else [] := by
  unfold planOf
  rw [h.steps, List.filter_append, List.map_append]
  congr 1
  by_cases hown : workflowId = request.workflowId
  · have hall : (steps.map (plannedRow request.workflowId)).filter
        (fun r => decide (r.workflowId = workflowId)) =
          steps.map (plannedRow request.workflowId) := by
      refine List.filter_eq_self.mpr fun r hr => ?_
      obtain ⟨p, -, rfl⟩ := List.mem_map.mp hr
      simp [plannedRow, hown]
    rw [hall, if_pos hown, List.map_map]
    exact (List.map_congr_left fun p _ => plannedOf_plannedRow _ p).trans (List.map_id _)
  · have hnone : (steps.map (plannedRow request.workflowId)).filter
        (fun r => decide (r.workflowId = workflowId)) = [] := by
      refine List.filter_eq_nil_iff.mpr fun r hr => ?_
      obtain ⟨p, -, rfl⟩ := List.mem_map.mp hr
      simp [plannedRow, Ne.symm hown]
    rw [hnone, if_neg hown, List.map_nil]

theorem planOf_fresh (hlinked : Linked s) {request : StartRequest} {steps : List PlannedStep}
    (h : Created request.workflowId request.goal request.inputs steps request.tenantId
      request.projectId s s') : planOf s request.workflowId = [] := by
  unfold planOf
  rw [List.map_eq_nil_iff, List.filter_eq_nil_iff]
  intro r hr hown
  exact no_steps_of_created hlinked h r hr (by simpa using hown)

/-- A workflow keeps the plan it was created with. -/
theorem allPlanned_of_change (hcoherent : Coherent s) (h : AllPlanned env traffic s)
    (hchange : Change env traffic s s') : AllPlanned env traffic s' := by
  intro row' hrow'
  rcases workflow_before hchange hrow' with
    ⟨row, hrow, hid, hgoal, hinputs, htenant, hproject⟩ |
      ⟨request, jobIds, steps, hrequest, hplan, hcreated, rfl⟩
  · have hsame : planOf s' row.id = planOf s row.id := by
      cases reshapes_of_change hchange with
      | moved f hrows hmoves => exact planOf_of_moved hrows hmoves row.id
      | enrolled _ _ hcreated =>
          rw [planOf_of_created hcreated, if_neg (id_fresh_of_created hcreated row hrow),
            List.append_nil]
    unfold PlannedFrom
    rw [hid, hgoal, hinputs, htenant, hproject, hsame]
    exact h row hrow
  · refine ⟨request, jobIds, hrequest, ?_, rfl, rfl, rfl, rfl, rfl⟩
    rw [show (queuedRow request.workflowId request.goal request.inputs request.tenantId
      request.projectId s.clock).id = request.workflowId from rfl, planOf_of_created hcreated,
      if_pos rfl, planOf_fresh hcoherent.toLinked hcreated, List.nil_append]
    exact hplan

theorem allPlanned_of_run {past : List (System × Label)} {t : System}
    (run : Run (step env) System.initial past t) (hcarries : Carries traffic past) :
    AllPlanned env traffic t.db :=
  kept_of_run run hcarries (AllPlanned env traffic)
    (fun _ hrow => absurd hrow List.not_mem_nil)
    fun _ _ hcoherent h hchange => allPlanned_of_change hcoherent h hchange

theorem mem_planOf {workflowId : String} {p : PlannedStep} :
    p ∈ planOf s workflowId ↔ ∃ r ∈ s.steps.rows, r.workflowId = workflowId ∧ plannedOf r = p := by
  simp [planOf, and_assoc]

/-- The shape of a workflow's plan, over its rows. -/
theorem shaped_of_planned {row : WorkflowRow} (h : PlannedFrom env traffic s row) :
    ∃ rivals, competitors env.rules row.inputs = .ok rivals ∧
      Shaped rivals.length (planOf s row.id) := by
  obtain ⟨request, jobIds, -, hplan, -, -, hinputs, -, -⟩ := h
  obtain ⟨-, -, rivals, hrivals, hsteps⟩ := plan_ok hplan
  refine ⟨rivals, hinputs ▸ hrivals, ?_⟩
  rw [hsteps]
  exact shaped_of_parts _ _ _ _ _

end SeoPlatform.Orchestrator.Plans
