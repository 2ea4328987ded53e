import SeoPlatform.Orchestrator.Conclusions

namespace SeoPlatform.Orchestrator.Skipping

open SeoPlatform.Foundation.JsonValue
open SeoPlatform.Foundation.SequentialFlow
open SeoPlatform.Foundation.TransitionSystem
open SeoPlatform.Orchestrator.Planner
open SeoPlatform.Orchestrator.Store
open SeoPlatform.Orchestrator.StoreSpecs
open SeoPlatform.Orchestrator.Engine
open SeoPlatform.Orchestrator.AdvanceOutcomes
open SeoPlatform.Orchestrator.Snapshots
open SeoPlatform.Orchestrator.Workers
open SeoPlatform.Orchestrator.Changes
open SeoPlatform.Orchestrator.NoWork
open SeoPlatform.Orchestrator.FlowView
open SeoPlatform.Orchestrator.Refinement
open SeoPlatform.Orchestrator.Coherence
open SeoPlatform.Orchestrator.Frames
open SeoPlatform.Orchestrator.Soundness
open SeoPlatform.Orchestrator.Interleavings
open SeoPlatform.Orchestrator.StepLives
open SeoPlatform.Orchestrator.Absorbing
open SeoPlatform.Orchestrator.Plans
open SeoPlatform.Orchestrator.Conclusions
open SeoPlatform.Shared.Contracts
open SeoPlatform.Shared.Exceptions
open SeoPlatform.Shared.Events

variable {env : Env} {traffic : Traffic} {s s' : Db} {workflowId : String} {w after : Workflow}

/-- The stored result of every crawl step that completed carries the id of a
crawl. -/
def CrawlsKept (db : Db) : Prop :=
  ∀ r ∈ db.steps.rows, r.kind = .crawl → r.status = .completed →
    (Dict.get (r.result.getD []) "crawl_id").truthy = true

/-- A result that holds a field is held. -/
theorem heldResult_of_field {step : Step} {name : String}
    (h : (Dict.get (step.result.getD []) name).truthy = true) :
    heldResult step = step.result := by
  cases hresult : step.result with
  | none => simp [heldResult, hresult]
  | some d =>
      cases d with
      | nil => simp [hresult, Dict.get] at h
      | cons field rest => simp [heldResult, hresult]

/-- The result of a kind that only one step has. -/
theorem resultOf_of_unique {step : Step} (hmem : step ∈ w.steps)
    (hunique : ∀ t ∈ w.steps, t.kind = step.kind → t = step) :
    resultOf w step.kind = heldResult step := by
  unfold resultOf
  generalize w.steps = steps at hmem hunique
  induction steps with
  | nil => exact absurd hmem List.not_mem_nil
  | cons t rest ih =>
      by_cases hkind : t.kind = step.kind
      · obtain rfl := hunique t List.mem_cons_self hkind
        rw [List.findSome?_cons, if_pos rfl]
        cases hheld : heldResult t with
        | some d => rfl
        | none =>
            simp only [List.findSome?_eq_none_iff]
            intro u hu
            split
            · rename_i hsame
              rw [hunique u (List.mem_cons_of_mem _ hu) hsame, hheld]
            · rfl
      · have hrest : step ∈ rest := by
          rcases List.mem_cons.mp hmem with rfl | hrest
          · exact absurd rfl hkind
          · exact hrest
        rw [List.findSome?_cons, if_neg hkind]
        exact ih hrest fun u hu => hunique u (List.mem_cons_of_mem _ hu)

section Places

variable {row : WorkflowRow} {rivals : Nat}

/-- A row of a workflow stands where its plan places its kind. -/
theorem placed_row (hshape : Shaped rivals (planOf s row.id)) {r : StepRow}
    (hr : r ∈ s.steps.rows) (hworkflow : r.workflowId = row.id) :
    PlacedAt rivals r.kind r.position :=
  hshape.placed (plannedOf r) (mem_planOf.mpr ⟨r, hr, hworkflow, rfl⟩)

theorem own_row (hshape : Shaped rivals (planOf s row.id)) {kind : StepKind}
    (hcrawl : kind ≠ .competitorCrawl) (hcheck : kind ≠ .competitorCheck) :
    ∃ r ∈ s.steps.rows, r.workflowId = row.id ∧ r.kind = kind := by
  obtain ⟨p, hp, hkind⟩ := hshape.own kind hcrawl hcheck
  obtain ⟨r, hr, hworkflow, rfl⟩ := mem_planOf.mp hp
  exact ⟨r, hr, hworkflow, hkind⟩

/-- A kind other than the competitor crawls has one row in a workflow. -/
theorem alone_row (hshape : Shaped rivals (planOf s row.id)) {r r' : StepRow}
    (hr : r ∈ s.steps.rows) (hr' : r' ∈ s.steps.rows) (hworkflow : r.workflowId = row.id)
    (hworkflow' : r'.workflowId = row.id) (hkind : r'.kind = r.kind)
    (hown : r.kind ≠ .competitorCrawl) : r' = r := by
  have hplaced := placed_row hshape hr hworkflow
  have hplaced' := placed_row hshape hr' hworkflow'
  rw [hkind] at hplaced'
  refine eq_of_position hr' hr (hworkflow'.trans hworkflow.symm) ?_
  cases h : r.kind with
  | competitorCrawl => exact absurd h hown
  | crawl | keywordResearch | serpCheck | linkAnalysis | contentAnalysis | optimizerPlan
  | competitorCheck =>
      rw [h] at hplaced hplaced'
      exact hplaced'.trans hplaced.symm

theorem ownCrawlId_of_row (hshape : Shaped rivals (planOf s row.id))
    (hw : snapshot s row.id = some w) {r : StepRow} (hr : r ∈ s.steps.rows)
    (hworkflow : r.workflowId = row.id) (hkind : r.kind = .crawl)
    (hkept : (Dict.get (r.result.getD []) "crawl_id").truthy = true) :
    ownCrawlId w = Dict.get (r.result.getD []) "crawl_id" := by
  have hresult : resultOf w .crawl = heldResult r.toStep := by
    rw [← hkind]
    refine resultOf_of_unique ((mem_steps_of_snapshot hw).mpr ⟨r, hr, hworkflow, rfl⟩) ?_
    intro t ht hsame
    obtain ⟨r', hr', hworkflow', rfl⟩ := (mem_steps_of_snapshot hw).mp ht
    rw [alone_row hshape hr hr' hworkflow hworkflow' hsame (by simp [hkind])]
  rw [ownCrawlId, ownCrawl, hresult, heldResult_of_field hkept]

end Places

/-- What a step with nothing to do, and a step after it, look like in the
tables. -/
structure Succession (s : Db) (workflowId : String) (r r' : StepRow) (reason : String)
    (after : Workflow) : Prop where
  mem : r ∈ s.steps.rows
  mem' : r' ∈ s.steps.rows
  workflow : r.workflowId = workflowId
  workflow' : r'.workflowId = workflowId
  pending : r.status = .pending
  pending' : r'.status = .pending
  later : r.position < r'.position
  due : (flow s workflowId).Due r.position
  next : ∀ t ∈ s.steps.rows, t.workflowId = workflowId → t.status = .pending → t ≠ r →
    r'.position ≤ t.position

theorem succession_of_skipped {step step' : Step} {reason : String}
    (hw : snapshot s workflowId = some w) (hready : Ready s workflowId)
    (hnext : w.nextPending = some step)
    (hafter : snapshot (skipped s step reason) workflowId = some after)
    (hnext' : after.nextPending = some step') :
    ∃ r r', r.toStep = step ∧ r'.toStep = step' ∧
      Succession s workflowId r r' reason after := by
  obtain ⟨r, hr, hworkflow, rfl, hpending, hdue⟩ := due_of_nextPending hw hready hnext
  obtain ⟨hmem', hpending', hfirst'⟩ := nextPending_eq_some hnext'
  -- A row that is not the skipped one is the same in both tables.
  have hsame : ∀ t ∈ s.steps.rows, t ≠ r →
      t.updatedWhere r.jobId .pending ⟨.skipped, none, some (some reason)⟩ = t :=
    fun t ht hne => updatedWhere_of_miss fun hhit => hne (eq_of_jobId ht hr hhit.1)
  obtain ⟨u, hu, huworkflow, rfl⟩ := (mem_steps_of_snapshot hafter).mp hmem'
  obtain ⟨r', hr', rfl⟩ := mem_updateStep.mp hu
  have hne : r' ≠ r := by
    rintro rfl
    rw [updatedWhere_of_hit rfl hpending] at hpending'
    cases hpending'
  rw [hsame r' hr' hne] at hpending' huworkflow hfirst'
  refine ⟨r, r', rfl, by rw [hsame r' hr' hne], hr, hr', hworkflow, huworkflow, hpending,
    hpending', ?_, hdue, ?_⟩
  · obtain ⟨-, -, hfirst⟩ := nextPending_eq_some hnext
    have hle := hfirst _ ((mem_steps_of_snapshot hw).mpr ⟨r', hr', huworkflow, rfl⟩) hpending'
    refine Nat.lt_of_le_of_ne hle fun heq => hne ?_
    exact eq_of_position hr' hr (huworkflow.trans hworkflow.symm) heq.symm
  · intro t ht htworkflow htpending htne
    refine hfirst' t.toStep ((mem_steps_of_snapshot hafter).mpr ⟨t, ?_, htworkflow, rfl⟩) htpending
    exact mem_updateStep.mpr ⟨t, ht, hsame t ht htne⟩

/-- Between a step that waits and the step after it, no step of the plan lies. -/
theorem adjacent_of_succession {r r' t : StepRow} {reason : String}
    (hcoherent : Coherent s) (h : Succession s workflowId r r' reason after)
    (ht : t ∈ s.steps.rows) (hworkflow : t.workflowId = workflowId)
    (hlater : r.position < t.position) : r'.position ≤ t.position := by
  have hwaiting : ¬ ((flow s workflowId).progress r.position).Passed := by
    rw [h.due.1]
    exact not_passed_waiting
  have huntouched := (hcoherent.orderly workflowId).untouched_after hlater hwaiting
  rw [← hworkflow, progress_of_mem ht] at huntouched
  have hpending : t.status = .pending := by
    cases hstatus : t.status with
    | pending => rfl
    | dispatched | completed | skipped => simp [hstatus, progressOf] at huntouched
    | failed =>
        by_cases hoptional : Optional t.kind <;>
          simp [hstatus, progressOf, hoptional] at huntouched
  refine h.next t ht hworkflow hpending ?_
  rintro rfl
  exact absurd hlater (Nat.lt_irrefl _)

/-- Your own crawl is over before any step that may have nothing to do is due. -/
theorem crawl_over {row : WorkflowRow} {rivals : Nat}
    (hshape : Shaped rivals (planOf s row.id)) (hrecorded : AllRecorded env traffic s)
    {r : StepRow} (hr : r ∈ s.steps.rows) (hworkflow : r.workflowId = row.id)
    (hdue : (flow s row.id).Due r.position) (hkind : MaySkip r.kind) :
    ∃ c ∈ s.steps.rows, c.workflowId = row.id ∧ c.kind = .crawl ∧ c.status = .completed := by
  obtain ⟨c, hc, hcworkflow, hckind⟩ := own_row hshape
    (show StepKind.crawl ≠ .competitorCrawl by simp) (by simp)
  have hcplaced := placed_row hshape hc hcworkflow
  have hplaced := placed_row hshape hr hworkflow
  rw [hckind] at hcplaced
  have hbefore : c.position < r.position := by
    rw [show c.position = 1 from hcplaced]
    cases h : r.kind with
    | crawl | keywordResearch | competitorCrawl =>
        rw [h] at hkind
        exact hkind.elim
    | serpCheck | linkAnalysis | contentAnalysis | optimizerPlan | competitorCheck =>
        rw [h] at hplaced
        simp only [PlacedAt] at hplaced
        omega
  have hpassed := hdue.2 c.position hbefore
  rw [← hcworkflow, progress_of_mem hc] at hpassed
  refine ⟨c, hc, hcworkflow, hckind, ?_⟩
  cases hstatus : c.status with
  | completed => rfl
  | pending | dispatched => simp [hstatus, progressOf, Progress.Passed] at hpassed
  | failed => simp [hstatus, progressOf, Progress.Passed, Optional, hckind] at hpassed
  | skipped =>
      cases hrecorded c hc with
      | blank hblank _ => simp [hstatus] at hblank
      | passed _ hskip _ =>
          rw [hckind] at hskip
          exact hskip.elim
      | finished _ hread _ hfinished _ _ =>
          rcases outcome_of_completion hread with houtcome | houtcome <;>
            simp [hstatus, houtcome] at hfinished

/-- After a step with nothing to do comes one that has something to do. -/
theorem second_has_work {row : WorkflowRow} {step step' : Step} {reason eventId : String}
    (hcoherent : Coherent s) (hplanned : PlannedFrom env traffic s row)
    (hrecorded : AllRecorded env traffic s) (hkept : CrawlsKept s)
    (hw : snapshot s row.id = some w) (hact : Actionable w) (hsound : fatalSteps w = [])
    (hnext : w.nextPending = some step)
    (hevent : dispatchEvent env eventId w step = .error (.noWorkToDo reason))
    (hafter : snapshot (skipped s step reason) row.id = some after)
    (hnext' : after.nextPending = some step') : Busy (requestParams env after step') := by
  obtain ⟨rivals, -, hshape⟩ := shaped_of_planned hplanned
  obtain ⟨r, r', rfl, rfl, hsucc⟩ :=
    succession_of_skipped hw (ready_of_snapshot hw hact hsound) hnext hafter hnext'
  have hparams := noWork_of_dispatchEvent hevent
  have hkind := maySkip_of_noWork hparams
  obtain ⟨c, hc, hcworkflow, hckind, hcompleted⟩ :=
    crawl_over hshape hrecorded hsucc.mem hsucc.workflow hsucc.due hkind
  have hcid := hkept c hc hckind hcompleted
  -- Both before the skip and after it, the own crawl is there.
  have hbefore : (ownCrawlId w).truthy = true := by
    rw [ownCrawlId_of_row hshape hw hc hcworkflow hckind hcid]
    exact hcid
  have hpast : (ownCrawlId after).truthy = true := by
    have hshape' : Shaped rivals.length (planOf (skipped s r.toStep reason) row.id) := by
      have hmoves : ∀ t ∈ s.steps.rows, Moves env traffic t
          (t.updatedWhere r.jobId .pending ⟨.skipped, none, some (some reason)⟩) :=
        fun t ht => moves_passed reason fun hjob => eq_of_jobId ht hsucc.mem hjob ▸ hkind
      have hplan : planOf (skipped s r.toStep reason) row.id = planOf s row.id :=
        planOf_of_moved rfl hmoves row.id
      rw [hplan]
      exact hshape
    have hc' : c ∈ (skipped s r.toStep reason).steps.rows :=
      mem_updateStep.mpr ⟨c, hc, updatedWhere_of_miss (by simp [hcompleted])⟩
    rw [ownCrawlId_of_row hshape' hafter hc' hcworkflow hckind hcid]
    exact hcid
  have hbusy : r.kind ≠ .linkAnalysis ∧ r.kind ≠ .optimizerPlan := by
    constructor <;> intro h
    · exact busy_behind_crawl (.inl h) hbefore reason hparams
    · exact busy_behind_crawl (.inr h) hbefore reason hparams
  have hplaced := placed_row hshape hsucc.mem hsucc.workflow
  have hplaced' := placed_row hshape hsucc.mem' hsucc.workflow'
  have hlater := hsucc.later
  -- The steps behind the crawl lie between any two others that may be skipped.
  have hbetween : ∀ t ∈ s.steps.rows, t.workflowId = row.id → r.position < t.position →
      r'.position ≤ t.position :=
    fun t ht hworkflow => adjacent_of_succession hcoherent hsucc ht hworkflow
  obtain ⟨l, hl, hlworkflow, hlkind⟩ := own_row hshape
    (show StepKind.linkAnalysis ≠ .competitorCrawl by simp) (by simp)
  obtain ⟨o, ho, howorkflow, hokind⟩ := own_row hshape
    (show StepKind.optimizerPlan ≠ .competitorCrawl by simp) (by simp)
  have hlplaced := placed_row hshape hl hlworkflow
  have hoplaced := placed_row hshape ho howorkflow
  rw [hlkind] at hlplaced
  rw [hokind] at hoplaced
  have hlink := hbetween l hl hlworkflow
  have hoptimizer := hbetween o ho howorkflow
  intro reason' hparams'
  have hkind' := maySkip_of_noWork hparams'
  cases hr' : r'.kind with
  | linkAnalysis => exact busy_behind_crawl (.inl hr') hpast reason' hparams'
  | optimizerPlan => exact busy_behind_crawl (.inr hr') hpast reason' hparams'
  | crawl | keywordResearch | competitorCrawl =>
      rw [hr'] at hkind'
      exact hkind'
  | serpCheck | contentAnalysis | competitorCheck =>
      rw [hr'] at hplaced'
      cases hr : r.kind with
      | linkAnalysis => exact hbusy.1 hr
      | optimizerPlan => exact hbusy.2 hr
      | crawl | keywordResearch | competitorCrawl =>
          rw [hr] at hkind
          exact hkind
      | serpCheck | contentAnalysis | competitorCheck =>
          rw [hr] at hplaced
          simp only [PlacedAt] at hplaced hplaced' hlplaced hoplaced
          omega

end SeoPlatform.Orchestrator.Skipping
