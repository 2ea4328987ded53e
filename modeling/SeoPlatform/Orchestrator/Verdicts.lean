import SeoPlatform.Orchestrator.Deliveries
import SeoPlatform.Orchestrator.Skipping
import SeoPlatform.Orchestrator.StepResults

namespace SeoPlatform.Orchestrator.Verdicts

open SeoPlatform.Foundation.JsonValue
open SeoPlatform.Foundation.SequentialFlow
open SeoPlatform.Foundation.TransitionSystem
open SeoPlatform.Orchestrator.Planner
open SeoPlatform.Orchestrator.Store
open SeoPlatform.Orchestrator.StoreSpecs
open SeoPlatform.Orchestrator.Engine
open SeoPlatform.Orchestrator.AdvanceOutcomes
open SeoPlatform.Orchestrator.Snapshots
open SeoPlatform.Orchestrator.Workers
open SeoPlatform.Orchestrator.Changes
open SeoPlatform.Orchestrator.NoWork
open SeoPlatform.Orchestrator.FlowView
open SeoPlatform.Orchestrator.Refinement
open SeoPlatform.Orchestrator.Coherence
open SeoPlatform.Orchestrator.Frames
open SeoPlatform.Orchestrator.Soundness
open SeoPlatform.Orchestrator.Interleavings
open SeoPlatform.Orchestrator.Deliveries
open SeoPlatform.Orchestrator.StepLives
open SeoPlatform.Orchestrator.Absorbing
open SeoPlatform.Orchestrator.Plans
open SeoPlatform.Orchestrator.Conclusions
open SeoPlatform.Orchestrator.Skipping
open SeoPlatform.Orchestrator.StepResults
open SeoPlatform.Shared.Contracts
open SeoPlatform.Shared.Exceptions
open SeoPlatform.Shared.Events

variable {env : Env} {traffic : Traffic} {s s' : Db} {workflowId : String} {w : Workflow}

/-- A request that is refused is refused under every event id. -/
theorem refused_under {eventId : String} {step : Step} {e : Exn}
    (h : dispatchEvent env eventId w step = .error e) (other : String) :
    dispatchEvent env other w step = .error e := by
  unfold dispatchEvent at h ⊢
  cases hparams : requestParams env w step with
  | error err => simpa [hparams, bind, Except.bind] using h
  | ok params =>
      simp only [hparams, bind, Except.bind] at h ⊢
      split at h
      · exact h
      · cases h

/-- A request is made of the steps and the inputs of its workflow. -/
theorem dispatchEvent_congr {w' : Workflow} (hsteps : w'.steps = w.steps)
    (hinputs : w'.inputs = w.inputs) (hid : w'.workflowId = w.workflowId) (eventId : String)
    (step : Step) : dispatchEvent env eventId w' step = dispatchEvent env eventId w step := by
  have hparams : requestParams env w' step = requestParams env w step := by
    cases w
    cases w'
    cases hsteps
    cases hinputs
    rfl
  unfold dispatchEvent
  rw [hparams, hid]

/-- A step failed that a workflow cannot do without. -/
def FailedForGood (db : Db) (workflowId : String) : Prop :=
  ∃ r ∈ db.steps.rows, r.workflowId = workflowId ∧ r.status = .failed ∧ ¬ Optional r.kind

/-- The request of the next step was refused, and not for want of work. -/
def RefusedForGood (env : Env) (db : Db) (workflowId : String) : Prop :=
  ∃ w step e, snapshot db workflowId = some w ∧ w.nextPending = some step ∧
    (∀ eventId, dispatchEvent env eventId w step = .error e) ∧ ∀ reason, e ≠ .noWorkToDo reason

/-- The step came back, had nothing to do, or was a competitor's crawl that
failed. -/
def Over (r : StepRow) : Prop :=
  r.status = .completed ∨ r.status = .skipped ∨ r.status = .failed ∧ r.kind = .competitorCrawl

/-- Workflows fail for good reasons only, and complete with every step over. -/
structure Sparing (env : Env) (db : Db) : Prop where
  failed : ∀ row ∈ db.workflows.rows, row.status = .failed →
    FailedForGood db row.id ∨ RefusedForGood env db row.id
  completed : ∀ row ∈ db.workflows.rows, row.status = .completed →
    ∀ r ∈ db.steps.rows, r.workflowId = row.id → Over r

theorem over_of_ready {workflowId : String} (hw : snapshot s workflowId = some w)
    (hready : Ready s workflowId) (hlast : w.nextPending = none) :
    ∀ r ∈ s.steps.rows, r.workflowId = workflowId → Over r := by
  intro r hr hworkflow
  have hmem := (mem_steps_of_snapshot hw).mpr ⟨r, hr, hworkflow, rfl⟩
  cases hstatus : r.status with
  | pending => exact absurd hstatus (nextPending_eq_none hlast _ hmem)
  | dispatched => exact absurd hstatus (hready.idle r hr hworkflow)
  | completed => exact .inl hstatus
  | skipped => exact .inr (.inl hstatus)
  | failed => exact .inr (.inr ⟨hstatus, hready.sound r hr hworkflow hstatus⟩)

theorem ready_of_concludes {workflowId eventId : String} {w' : Workflow} {t : Db}
    {error : Option String} (hw : snapshot s workflowId = some w) (hact : Actionable w)
    (h : Concludes env eventId workflowId w s w' t .completed error) :
    Ready t workflowId ∧ w'.nextPending = none := by
  cases h with
  | done hsound hnext => exact ⟨ready_of_snapshot hw hact hsound, hnext⟩
  | donePast hsound _ _ _ hlast =>
      exact ⟨ready_skipped (ready_of_snapshot hw hact hsound) _ _, hlast⟩

/-- The rows of a workflow that a finish leaves, and what `load` reads then. -/
theorem snapshot_of_finishes {workflowId eventId : String} {w' : Workflow} {t : Db}
    {status : WorkflowStatus} {error : Option String} (hw' : snapshot t workflowId = some w')
    (h : Finishes env eventId w' status error t s') :
    ∃ w'', snapshot s' workflowId = some w'' ∧ w''.steps = w'.steps ∧ w''.inputs = w'.inputs ∧
      w''.workflowId = w'.workflowId ∧ s'.steps = t.steps := by
  obtain ⟨row, hrow, hid, rfl⟩ := snapshot_eq_some.mp hw'
  have hsteps := steps_of_finishes h
  have hstepsOf : s'.stepsOf row.id = t.stepsOf row.id := by
    unfold Db.stepsOf
    rw [hsteps]
  rw [← hid]
  obtain ⟨previous, report, -, rfl⟩ := h
  have hidentity := identity_withStatusWhere row row.id status (some report) error t.clock
  refine ⟨_, snapshot_eq_some.mpr
    ⟨_, mem_workflows_statusWritten.mpr ⟨row, hrow, rfl⟩, withStatusWhere_id .., rfl⟩,
    hstepsOf, hidentity.inputs, hidentity.id, hsteps⟩

/-- A finish fails a workflow for a good reason. -/
theorem failed_of_finale {row' : WorkflowRow} {eventId : String} {w' : Workflow} {t : Db}
    {error : Option String} {row : WorkflowRow} (hcoherent : Coherent s)
    (hplanned : PlannedFrom env traffic s row)
    (hrecorded : AllRecorded env traffic s) (hkept : CrawlsKept s) (hid : row.id = row'.id)
    (h : Finale env s s' row'.id eventId w w' t .failed error) :
    FailedForGood s' row'.id ∨ RefusedForGood env s' row'.id := by
  rw [← hid] at h ⊢
  obtain ⟨w'', hw'', hsteps, hinputs, hid', hsame⟩ :=
    snapshot_of_finishes (snapshot_of_concludes h.before h.concludes) h.finishes
  have hrefused : ∀ {step : Step} {e : Exn}, w'.nextPending = some step →
      dispatchEvent env eventId w' step = .error e → (∀ reason, e ≠ .noWorkToDo reason) →
        RefusedForGood env s' row.id := by
    intro step e hnext hevent hfault
    refine ⟨w'', step, e, hw'', ?_, fun other => ?_, hfault⟩
    · unfold Workflow.nextPending
      rw [hsteps]
      exact hnext
    · rw [dispatchEvent_congr hsteps hinputs hid']
      exact refused_under hevent other
  have hconcludes := h.concludes
  cases hconcludes with
  | fatal hfatal =>
      obtain ⟨step, hstep⟩ := List.exists_mem_of_ne_nil _ hfatal
      obtain ⟨hmem, hfailed⟩ := List.mem_filter.mp hstep
      simp only [decide_eq_true_eq] at hfailed
      obtain ⟨r, hr, hworkflow, rfl⟩ := (mem_steps_of_snapshot h.before).mp hmem
      refine .inl ⟨r, ?_, hworkflow, hfailed⟩
      rw [hsame]
      exact hr
  | refused _ hnext hevent hfault => exact .inr (hrefused hnext hevent hfault)
  | refusedPast hsound hnext hevent hafter hnext' hevent' =>
      refine .inr (hrefused hnext' hevent' fun reason hnone => ?_)
      subst hnone
      exact second_has_work hcoherent hplanned hrecorded hkept h.before h.actionable hsound hnext
        hevent hafter hnext' reason (noWork_of_dispatchEvent hevent')

/-- What is said of a finished workflow goes on to be so. -/
theorem sparing_of_finished {row row' : WorkflowRow} (hcoherent : Coherent s)
    (h : Sparing env s) (hchange : Change env traffic s s') (hrow : row ∈ s.workflows.rows)
    (hrow' : row' ∈ s'.workflows.rows) (hid : row.id = row'.id) (hterminal : row.status.Terminal) :
    (row'.status = .failed → FailedForGood s' row'.id ∨ RefusedForGood env s' row'.id) ∧
      (row'.status = .completed →
        ∀ r ∈ s'.steps.rows, r.workflowId = row'.id → Over r) := by
  obtain ⟨⟨other, hother, hsame⟩, hsteps⟩ := rows_of_change hcoherent hrow hterminal hchange
  obtain rfl := eq_of_id hother hrow' (hsame.id.trans hid)
  have hrows : ∀ r, r ∈ s'.steps.rows → r.workflowId = other.id → r ∈ s.steps.rows := by
    intro r hr hworkflow
    have hmem : r ∈ s'.steps.rows.filter fun r => r.workflowId = row.id :=
      List.mem_filter.mpr ⟨hr, by simp [hworkflow, hid]⟩
    rw [hsteps] at hmem
    exact (List.mem_filter.mp hmem).1
  have hrows' : ∀ r, r ∈ s.steps.rows → r.workflowId = other.id → r ∈ s'.steps.rows := by
    intro r hr hworkflow
    have hmem : r ∈ s.steps.rows.filter fun r => r.workflowId = row.id :=
      List.mem_filter.mpr ⟨hr, by simp [hworkflow, hid]⟩
    rw [← hsteps] at hmem
    exact (List.mem_filter.mp hmem).1
  have hstepsOf : s'.stepsOf row.id = s.stepsOf row.id := by
    unfold Db.stepsOf
    rw [hsteps]
  constructor
  · intro hfailed
    rw [hsame.status] at hfailed
    rw [hid.symm]
    rcases h.failed row hrow hfailed with
      ⟨r, hr, hworkflow, hfatal⟩ | ⟨w, step, e, hw, hnext, hevent, hfault⟩
    · exact .inl ⟨r, hrows' r hr (hworkflow.trans hid), hworkflow, hfatal⟩
    · obtain ⟨own, hown, hownid, rfl⟩ := snapshot_eq_some.mp hw
      obtain rfl := eq_of_id hown hrow hownid
      have hidentity : SameIdentity own other := by
        rcases workflow_before hchange hrow' with ⟨old, hold, hidentity⟩ |
          ⟨request, jobIds, steps, -, -, hcreated, rfl⟩
        · obtain rfl := eq_of_id hold hrow (hidentity.id.symm.trans hid.symm)
          exact hidentity
        · exact absurd hid (id_fresh_of_created hcreated own hrow)
      refine .inr ⟨_, step, e, snapshot_eq_some.mpr ⟨other, hrow', hid.symm, rfl⟩, ?_,
        fun eventId => ?_, hfault⟩
      · rw [hstepsOf]
        exact hnext
      · rw [← hevent eventId]
        exact dispatchEvent_congr hstepsOf hidentity.inputs hidentity.id eventId step
  · intro hcompleted r hr hworkflow
    rw [hsame.status] at hcompleted
    exact h.completed row hrow hcompleted r (hrows r hr hworkflow) (hworkflow.trans hid.symm)

/-- The results that a change leaves were the results before it. -/
theorem crawlsKept_before (h : CrawlsKept s') (hchange : Change env traffic s s') :
    CrawlsKept s := by
  intro r hr hkind hcompleted
  obtain ⟨r', hr', hmoves⟩ := row_after hchange hr
  obtain rfl := eq_of_moves hmoves (.inl hcompleted)
  exact h r' hr' hkind hcompleted

theorem sparing_of_change (hcoherent : Coherent s) (hplanned : AllPlanned env traffic s)
    (hrecorded : AllRecorded env traffic s) (hkept : CrawlsKept s) (h : Sparing env s)
    (hchange : Change env traffic s s') : Sparing env s' := by
  have hall : ∀ row' ∈ s'.workflows.rows,
      (row'.status = .failed → FailedForGood s' row'.id ∨ RefusedForGood env s' row'.id) ∧
        (row'.status = .completed →
          ∀ r ∈ s'.steps.rows, r.workflowId = row'.id → Over r) := by
    intro row' hrow'
    by_cases hterminal : row'.status.Terminal
    · rcases finale_of_change hchange hrow' hterminal with
        ⟨row, hrow, hid, hterminal'⟩ | ⟨eventId, w, w', t, error, hfinale⟩
      · exact sparing_of_finished hcoherent h hchange hrow hrow' hid hterminal'
      · obtain ⟨row, hrow, hid, -⟩ := snapshot_eq_some.mp hfinale.before
        constructor
        · intro hfailed
          rw [hfailed] at hfinale
          exact failed_of_finale hcoherent (hplanned row hrow) hrecorded hkept hid hfinale
        · intro hcompleted
          rw [hcompleted] at hfinale
          obtain ⟨hready, hlast⟩ :=
            ready_of_concludes hfinale.before hfinale.actionable hfinale.concludes
          rw [steps_of_finishes hfinale.finishes]
          exact over_of_ready (snapshot_of_concludes hfinale.before hfinale.concludes) hready hlast
    · refine ⟨fun hfailed => absurd ?_ hterminal, fun hcompleted => absurd ?_ hterminal⟩
      · rw [hfailed]
        trivial
      · rw [hcompleted]
        trivial
  exact ⟨fun row' hrow' => (hall row' hrow').1, fun row' hrow' => (hall row' hrow').2⟩

/-- A step with nothing to do is skipped by whatever moves its workflow on. -/
theorem skipped_of_change {step : Step} {eventId reason : String} (hcoherent : Coherent s)
    (hw : snapshot s workflowId = some w) (hact : Actionable w) (hsound : fatalSteps w = [])
    (hnext : w.nextPending = some step)
    (hevent : dispatchEvent env eventId w step = .error (.noWorkToDo reason))
    (hchange : Change env traffic s s') :
    SameRows workflowId s s' ∨ (s'.steps = s.steps ∧ ∀ row ∈ s'.workflows.rows,
      row.id = workflowId → ¬ row.status.Terminal) ∨
    ∃ r ∈ s'.steps.rows, r.workflowId = workflowId ∧ r.jobId = step.jobId ∧
      r.status = .skipped := by
  obtain ⟨row, hrow, hid, rfl⟩ := snapshot_eq_some.mp hw
  have hlive : ¬ row.status.Terminal := hact.live
  cases hchange with
  | quiet hworkflows hsteps _ => exact .inl (sameRows_of_quiet hworkflows hsteps _)
  | created _ _ hcreated => exact .inl (sameRows_of_created hcreated ⟨row, hrow, hid⟩)
  | @started other _ =>
      by_cases hother : workflowId = other
      · subst hother
        refine .inr (.inl ⟨steps_statusWritten .., ?_⟩)
        intro row' hrow' hid'
        obtain ⟨old, -, rfl⟩ := mem_workflows_statusWritten.mp hrow'
        rw [withStatusWhere_id] at hid'
        rw [withStatusWhere_of_eq hid']
        exact fun hterminal => hterminal
      · exact .inl (sameRows_statusWritten hother _ _ _ _)
  | marked _ _ =>
      refine .inl (sameRows_updateStep _ fun r hr hworkflow hhit => ?_)
      exact idle_of_actionable hcoherent hw hact r hr hworkflow hhit.2
  | summarised other summary =>
      refine .inr (.inl ⟨rfl, ?_⟩)
      intro row' hrow' hid'
      obtain ⟨old, hold, rfl⟩ := List.mem_map.mp hrow'
      rw [withSummary_id] at hid'
      obtain rfl := eq_of_id hold hrow (hid'.trans hid.symm)
      unfold WorkflowRow.withSummary
      split <;> exact hlive
  | @advanced _ other otherId v _ hv _ _ hadvances =>
      by_cases hother : workflowId = otherId
      swap
      · exact .inl (sameRows_of_advances hv hother hadvances)
      subst hother
      obtain rfl := Option.some.inj (hw.symm.trans hv)
      have hrefused := refused_under hevent other
      cases hadvances with
      | fatal hfatal _ => exact absurd hsound hfatal
      | done _ hnext' _ =>
          rw [hnext] at hnext'
          contradiction
      | sent _ hnext' hevent' =>
          obtain rfl := Option.some.inj (hnext.symm.trans hnext')
          rw [hrefused] at hevent'
          contradiction
      | refused _ hnext' hevent' hfault _ =>
          obtain rfl := Option.some.inj (hnext.symm.trans hnext')
          rw [hrefused] at hevent'
          obtain rfl := Except.error.inj hevent'
          exact absurd rfl (hfault reason)
      | @skipped _ step' reason' after _ hnext' _ hafter hpast =>
          obtain rfl := Option.some.inj (hnext.symm.trans hnext')
          obtain ⟨hmem, hpending, -⟩ := nextPending_eq_some hnext
          obtain ⟨r, hr, hworkflow, rfl⟩ := (mem_steps_of_snapshot hw).mp hmem
          have hpassed : r.updated ⟨.skipped, none, some (some reason')⟩ ∈
              (skipped s r.toStep reason').steps.rows :=
            mem_updateStep.mpr ⟨r, hr, updatedWhere_of_hit rfl hpending⟩
          refine .inr (.inr
            ⟨r.updated ⟨.skipped, none, some (some reason')⟩, ?_, hworkflow, rfl, rfl⟩)
          cases hpast with
          | done _ hfinish =>
              rw [steps_of_finishes hfinish]
              exact hpassed
          | refused _ _ hfinish =>
              rw [steps_of_finishes hfinish]
              exact hpassed
          | @sent step' event _ _ =>
              refine mem_updateStep.mpr ⟨_, ?_, updatedWhere_of_miss (by simp [StepRow.updated])⟩
              rw [steps_statusWritten]
              exact hpassed

theorem sparing_of_run {past : List (System × Label)} {u : System}
    (run : Run (step env) System.initial past u) (hcarries : Carries traffic past)
    (hkept : CrawlsKept u.db) : Sparing env u.db := by
  refine (kept_of_run run hcarries
    (fun db => AllPlanned env traffic db ∧ AllRecorded env traffic db ∧
      (CrawlsKept db → Sparing env db)) ?_ ?_).2.2 hkept
  · refine ⟨fun _ hrow => absurd hrow List.not_mem_nil,
      fun _ hr => absurd hr List.not_mem_nil, fun _ => ⟨?_, ?_⟩⟩
    · exact fun _ hrow => absurd hrow List.not_mem_nil
    · exact fun _ hrow => absurd hrow List.not_mem_nil
  · rintro db db' hcoherent ⟨hplanned, hrecorded, hsparing⟩ hchange
    refine ⟨allPlanned_of_change hcoherent hplanned hchange,
      allRecorded_of_change hrecorded hchange, fun hkept' => ?_⟩
    have hkept := crawlsKept_before hkept' hchange
    exact sparing_of_change hcoherent hplanned hrecorded hkept (hsparing hkept) hchange

/-- Every completion that a crawl of the own site is finished by carries the id
of a crawl. -/
def CrawlsNamed (past : List (System × Label)) (db : Db) : Prop :=
  ∀ type payload kind idField, DeliveredCompletion past type payload kind idField →
    ∀ r ∈ db.steps.rows, r.kind = .crawl → Dict.get payload idField = .str r.jobId →
      (Dict.get payload "status").str? ≠ some "failed" →
        (Dict.get payload "crawl_id").truthy = true

/-- A crawl that is not failed by an event without the crawl's id is kept. -/
theorem crawlsKept_of_named {past : List (System × Label)} {u : System}
    (run : Run (step env) System.initial past u) (hvalid : ContractValid past)
    (hnamed : CrawlsNamed past u.db) : CrawlsKept u.db := by
  intro r hr hkind hcompleted
  cases allRecorded_of_run run (carries_delivered past) r hr with
  | blank hstatus _ => simp [hcompleted] at hstatus
  | passed hstatus _ _ => simp [hcompleted] at hstatus
  | @finished type payload c hpayload hread hjob hstatus hresult _ =>
      obtain ⟨kind, idField, hcompletion, hid, -, -, -, houtcome⟩ := readCompletion_ok hread
      have hdelivered : DeliveredCompletion past type payload kind idField :=
        ⟨hpayload, hcompletion⟩
      rw [hresult, Option.getD_some, crawlId_of_valid (hvalid _ _ _ _ hdelivered) hread]
      refine hnamed _ _ _ _ hdelivered r hr hkind (hjob ▸ hid) fun hfailed => ?_
      rw [hstatus, houtcome, if_pos hfailed] at hcompleted
      contradiction

/-- What skipping and optional failures leave of an audit, in a state reached by
a run. -/
structure Lenient (env : Env) (s : System) : Prop where
  failed : ∀ row ∈ s.db.workflows.rows, row.status = .failed →
    FailedForGood s.db row.id ∨ RefusedForGood env s.db row.id
  skipped : ∀ label s' workflowId w pending eventId reason,
    Workers.step env s label = some s' → snapshot s.db workflowId = some w → Actionable w →
      fatalSteps w = [] → w.nextPending = some pending →
      dispatchEvent env eventId w pending = .error (.noWorkToDo reason) →
        SameRows workflowId s.db s'.db ∨
        (s'.db.steps = s.db.steps ∧
          ∀ row ∈ s'.db.workflows.rows, row.id = workflowId → ¬ row.status.Terminal) ∨
        ∃ r ∈ s'.db.steps.rows, r.workflowId = workflowId ∧ r.jobId = pending.jobId ∧
          r.status = .skipped
  completed : ∀ row ∈ s.db.workflows.rows, row.status = .completed →
    ∀ r ∈ s.db.steps.rows, r.workflowId = row.id → Over r

/-- In every run over completions that keep their contract, where those that
finish an own crawl say which, an audit fails for good reasons only. -/
theorem skipping_spares {past : List (System × Label)} {s : System}
    (run : Run (step env) System.initial past s) (hvalid : ContractValid past)
    (hnamed : CrawlsNamed past s.db) : Lenient env s := by
  have hsparing := sparing_of_run run (carries_any past) (crawlsKept_of_named run hvalid hnamed)
  refine ⟨hsparing.failed, ?_, hsparing.completed⟩
  intro label s' workflowId w pending eventId reason hstep hw hact hsound hnext hevent
  have hbefore := sound_of_run run (carries_any past)
  have hchange := (sound_step hbefore (allowed_any label) hstep).2
  exact skipped_of_change hbefore.coherent hw hact hsound hnext hevent hchange

section Checks

/-- Whether a message names the crawl, where it finishes an own crawl. -/
def namesCrawls (db : Db) : Label → Bool
  | .deliver _ e =>
      (completions e.type).all fun row =>
        db.steps.rows.all fun r =>
          r.kind ≠ .crawl || (Dict.get e.payload row.2).str? ≠ some r.jobId ||
            (Dict.get e.payload "status").str? = some "failed" ||
            (Dict.get e.payload "crawl_id").truthy
  | _ => true

theorem crawlsNamed_of_labels {past : List (System × Label)} {labels : List Label} {db : Db}
    (hpast : past.map Prod.snd = labels) (h : labels.all (namesCrawls db) = true) :
    CrawlsNamed past db := by
  intro type payload kind idField hdelivered r hr hcrawl hid hstatus
  obtain ⟨n, e, hmessage, rfl, rfl, hkind⟩ := message_of_delivered hpast hdelivered
  have hchecked := List.all_eq_true.mp h _ hmessage
  simp only [namesCrawls, hkind, Option.all_some, List.all_eq_true] at hchecked
  simpa [hcrawl, hid, hstatus] using hchecked r hr

/-- An audit whose study found nothing to check the rank of. -/
def emptyStudy : List Label :=
  started 0 (auditRequest "m" oneSite) "e" ++
    handled 0 (crawlCompleted "c" "job-1" siteRead) "f" ++ handled 0 (researched "d" "job-2") "g"

theorem skipping_spares_skipped : ∃ (past : List (System × Label)) (s : System),
    past.map Prod.snd = emptyStudy ∧ Lenient asciiEnv s ∧
      s.db.steps.rows.map (fun r => r.status) =
        [.completed, .completed, .skipped, .dispatched, .pending, .pending] := by
  obtain ⟨past, s, hpast, run, hcheck⟩ :=
    Run.of_check (step asciiEnv) System.initial emptyStudy
      (fun _ s => s.db.steps.rows.map (fun r => r.status) =
          [.completed, .completed, .skipped, .dispatched, .pending, .pending] ∧
        emptyStudy.all (namesCrawls s.db)) (by decide +kernel)
  simp only [decide_eq_true_eq] at hcheck
  exact ⟨past, s, hpast, skipping_spares run (contractValid_of_labels hpast (by decide +kernel))
    (crawlsNamed_of_labels hpast hcheck.2), hcheck.1⟩

/-- An audit whose crawl is finished by a study that found nothing. -/
def crawlByStudy : List Label :=
  started 0 (auditRequest "m" oneSite) "e" ++
    handled 0 (researched "c" "job-1") "f" ++ handled 0 (researched "d" "job-2") "g"

/-- Whether an audit failed without a failed step, and its next step has nothing
to do. -/
def failedIdle (db : Db) : Bool :=
  db.workflows.rows.any (fun row => row.id = "w" ∧ row.status = .failed) &&
    db.steps.rows.all (fun r => r.status ≠ .failed) &&
    (snapshot db "w").all fun w => w.nextPending.all fun step =>
      match dispatchEvent asciiEnv "e" w step with
      | .error (.noWorkToDo _) => true
      | _ => false

theorem not_lenient_of_failedIdle {s : System} (h : failedIdle s.db = true) :
    ¬ Lenient asciiEnv s := by
  simp only [failedIdle, Bool.and_eq_true, List.any_eq_true, List.all_eq_true,
    decide_eq_true_eq] at h
  obtain ⟨⟨⟨row, hrow, hid, hfailed⟩, hspared⟩, hidle⟩ := h
  intro hlenient
  rcases hlenient.failed row hrow hfailed with ⟨r, hr, -, hfatal, -⟩ |
    ⟨w, pending, e, hw, hnext, hevent, hfault⟩
  · exact hspared r hr hfatal
  · rw [hid] at hw
    simp only [hw, hnext, Option.all_some, hevent] at hidle
    split at hidle
    · rename_i reason herror
      exact hfault reason (Except.error.inj herror)
    · contradiction

/-- Two steps with nothing to do in a row fail an audit. -/
theorem skipping_fails : ∃ (past : List (System × Label)) (s : System),
    past.map Prod.snd = crawlByStudy ∧ Run (step asciiEnv) System.initial past s ∧
      ContractValid past ∧ ¬ Lenient asciiEnv s := by
  obtain ⟨past, s, hpast, run, hcheck⟩ :=
    Run.of_check (step asciiEnv) System.initial crawlByStudy (fun _ s => failedIdle s.db)
      (by decide +kernel)
  exact ⟨past, s, hpast, run, contractValid_of_labels hpast (by decide +kernel),
    not_lenient_of_failedIdle hcheck⟩

end Checks

end SeoPlatform.Orchestrator.Verdicts
