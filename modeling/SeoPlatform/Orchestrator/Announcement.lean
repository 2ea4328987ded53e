import SeoPlatform.Orchestrator.Deliveries
import SeoPlatform.Orchestrator.Reports
import SeoPlatform.Orchestrator.Requests
import SeoPlatform.Orchestrator.StepResults
import SeoPlatform.Foundation.ExceptFlow

namespace SeoPlatform.Orchestrator.Announcement

open SeoPlatform.Foundation.ExceptFlow
open SeoPlatform.Foundation.JsonValue
open SeoPlatform.Foundation.JsonSchema
open SeoPlatform.Foundation.TransitionSystem
open SeoPlatform.Orchestrator.Planner
open SeoPlatform.Orchestrator.Store
open SeoPlatform.Orchestrator.StoreSpecs
open SeoPlatform.Orchestrator.Engine
open SeoPlatform.Orchestrator.AdvanceOutcomes
open SeoPlatform.Orchestrator.Snapshots
open SeoPlatform.Orchestrator.Workers
open SeoPlatform.Orchestrator.Changes
open SeoPlatform.Orchestrator.Refinement
open SeoPlatform.Orchestrator.Interleavings
open SeoPlatform.Orchestrator.Deliveries
open SeoPlatform.Orchestrator.StepLives
open SeoPlatform.Orchestrator.Staging
open SeoPlatform.Orchestrator.Absorbing
open SeoPlatform.Orchestrator.Plans
open SeoPlatform.Orchestrator.Conclusions
open SeoPlatform.Orchestrator.Reports
open SeoPlatform.Orchestrator.Requests
open SeoPlatform.Orchestrator.StepResults
open SeoPlatform.Shared.Contracts
open SeoPlatform.Shared.Events

variable {env : Env} {traffic : Traffic} {s s' t : Db} {w : Workflow}

/-- A kind of step that only plans with competitors have. -/
def OfCompetitors (kind : StepKind) : Prop :=
  kind = .competitorCrawl ∨ kind = .competitorCheck

/-- The contract of the announcement knows the kinds of an audit without
competitors. -/
theorem workflowStep_stepEntry {x : Step} (hresult : Typed (x.result.getD [])) :
    workflowStep (stepEntry x) = true ↔ ¬ OfCompetitors x.kind := by
  have hurl : nullable string (resultUrl x) = true :=
    hresult ("result_url", string) (by simp [resultFields])
  have herror : nullable string (Json.ofOption .str x.error) = true := by
    cases x.error <;> rfl
  have hstatus : x.status.name ∈ ["pending", "dispatched", "completed", "failed", "skipped"] := by
    cases x.status <;> simp [StepStatus.name]
  have hkind : x.kind.name ∈ ["crawl", "keyword_research", "serp_check", "link_analysis",
      "content_analysis", "optimizer_plan"] ↔ ¬ OfCompetitors x.kind := by
    cases x.kind <;> simp [StepKind.name, OfCompetitors]
  rw [← hkind]
  simp [workflowStep, workflowStepFields, stepEntry, closedObject, openObject, properties,
    Dict.keys, hurl, herror, hstatus]

theorem valid_completedPayload {status : WorkflowStatus} (hterminal : status.Terminal)
    (error : Option String) (steps : Json) (report : Dict) :
    Valid .workflowCompleted (completedPayload w status error steps report) ↔
      arrayOf 0 none workflowStep steps = true ∧
        closedObject [] headlineFields (Dict.get report "headline") = true := by
  have hstatus : status.name ∈ ["completed", "failed"] := by
    cases status <;> first | exact hterminal.elim | simp [WorkflowStatus.name]
  have herror : nullable string (Json.ofOption .str error) = true := by
    cases error <;> rfl
  simp [valid_iff, eventSchema, workflowCompleted, completedPayload, properties, Dict.keys,
    outcome, herror, hstatus]

theorem typed_nil : Typed [] := fun _ _ => rfl

theorem typed_of_recorded {r : StepRow} (hrecorded : Recorded env traffic r)
    (hvalid : ∀ type payload, traffic.completion type payload → (completions type).isSome →
      Valid type payload) : Typed (r.result.getD []) := by
  refine holds_of_recorded typed_nil hrecorded fun type payload c hpayload hread => ?_
  obtain ⟨kind, idField, hkind, -⟩ := readCompletion_ok hread
  exact typed_of_valid (hvalid _ _ hpayload (by simp [hkind])) hread

theorem rivalHeadline_ok {result rivals : Dict} (hresult : Typed result)
    (h : rivalHeadline result = .ok rivals) :
    ∀ entry ∈ rivals, ∃ schema, headlineFields.lookup entry.1 = some schema ∧
      schema entry.2 = true := by
  unfold rivalHeadline at h
  split at h
  · cases h
    simp
  · obtain ⟨behind, -, hrivals⟩ := ok_of_bind h
    rw [← Except.ok.inj hrivals]
    simp only [List.forall_mem_cons, List.not_mem_nil, false_imp_iff, implies_true, and_true]
    exact ⟨⟨_, rfl, hresult.field rfl⟩, ⟨_, rfl, rfl⟩⟩

/-- The headline of typed results keeps the contract. -/
theorem headline_valid (h : ∀ x ∈ w.steps, Typed (x.result.getD [])) {headline : Dict}
    (hheadline : headlineOf w = .ok headline) :
    closedObject [] headlineFields (.obj headline) = true := by
  obtain ⟨rivals, hrivals, rfl⟩ := headlineOf_ok hheadline
  have hfound := holds_resultOf typed_nil h
  refine closedObject_of_entries (by decide +kernel) (List.forall_mem_nil _) ?_
  rw [List.forall_mem_append]
  refine ⟨?_, rivalHeadline_ok (hfound .competitorCheck) hrivals⟩
  simp only [List.forall_mem_cons, List.not_mem_nil, false_imp_iff, implies_true, and_true]
  exact ⟨⟨_, rfl, (hfound .crawl).field rfl⟩, ⟨_, rfl, (hfound .crawl).field rfl⟩,
    ⟨_, rfl, (hfound .keywordResearch).field rfl⟩, ⟨_, rfl, (hfound .serpCheck).field rfl⟩,
    ⟨_, rfl, (hfound .serpCheck).field rfl⟩, ⟨_, rfl, (hfound .linkAnalysis).field rfl⟩,
    ⟨_, rfl, (hfound .contentAnalysis).field rfl⟩, ⟨_, rfl, (hfound .optimizerPlan).field rfl⟩⟩

/-- The payload of a finish keeps its contract for the plans without
competitors, and for no other. -/
theorem valid_of_reportOf {status : WorkflowStatus} {error : Option String}
    {previous : Option Workflow} {report : Dict} (hterminal : status.Terminal)
    (h : ∀ x ∈ w.steps, Typed (x.result.getD []))
    (hreport : reportOf env w status error (stepEntries w) previous = .ok report) :
    Valid .workflowCompleted (completedPayload w status error (stepEntries w) report) ↔
      ∀ x ∈ w.steps, ¬ OfCompetitors x.kind := by
  obtain ⟨headline, hheadline, hget⟩ := headline_of_reportOf hreport
  rw [valid_completedPayload hterminal, hget]
  have hsteps : arrayOf 0 none workflowStep (stepEntries w) = true ↔
      ∀ x ∈ w.steps, workflowStep (stepEntry x) = true := by
    simp [arrayOf, stepEntries, mem_byPosition]
  rw [hsteps]
  constructor
  · rintro ⟨hentries, -⟩ x hx
    exact (workflowStep_stepEntry (h x hx)).mp (hentries x hx)
  · intro hkinds
    exact ⟨fun x hx => (workflowStep_stepEntry (h x hx)).mpr (hkinds x hx),
      headline_valid h hheadline⟩

/-- A plan has steps of competitors when there are competitors. -/
theorem noRivals_iff {row : WorkflowRow} (hplanned : PlannedFrom env traffic t row)
    (hw : snapshot t row.id = some w) :
    (∀ x ∈ w.steps, ¬ OfCompetitors x.kind) ↔ competitors env.rules row.inputs = .ok [] := by
  obtain ⟨rivals, hrivals, hshape⟩ := shaped_of_planned hplanned
  rw [hrivals, Except.ok.injEq]
  constructor
  · intro hnone
    by_contra hsome
    obtain ⟨p, hp, hkind⟩ := hshape.compared fun hzero => hsome (List.length_eq_zero_iff.mp hzero)
    obtain ⟨r, hr, hworkflow, rfl⟩ := mem_planOf.mp hp
    exact hnone r.toStep ((mem_steps_of_snapshot hw).mpr ⟨r, hr, hworkflow, rfl⟩) (.inr hkind)
  · rintro rfl x hx hcompetitors
    obtain ⟨r, hr, hworkflow, rfl⟩ := (mem_steps_of_snapshot hw).mp hx
    obtain ⟨hcrawl, hcheck⟩ :=
      hshape.alone rfl (plannedOf r) (mem_planOf.mpr ⟨r, hr, hworkflow, rfl⟩)
    exact hcompetitors.elim hcrawl hcheck

/-- The finish of a workflow that a change makes is announced, once, with a
payload that keeps the contract. -/
structure Announced (s s' : Db) (workflowId : String) : Prop where
  before : announcements s workflowId = 0
  after : announcements s' workflowId = 1
  valid : ∀ o ∈ s'.outbox.rows, o.eventType = .workflowCompleted →
    o.correlationId = some workflowId → Valid .workflowCompleted o.payload

/-- A finish is announced where its payload keeps the contract. -/
theorem announced_iff_of_finishes {eventId : String} {status : WorkflowStatus}
    {error : Option String} (hzero : announcements s w.workflowId = 0)
    (houtbox : t.outbox = s.outbox) (hfresh : ∀ o ∈ t.outbox.rows, o.eventId ≠ eventId)
    (h : Finishes env eventId w status error t s') :
    ∃ previous report, reportOf env w status error (stepEntries w) previous = .ok report ∧
      (Announced s s' w.workflowId ↔ Valid .workflowCompleted
        (completedPayload w status error (stepEntries w) report)) := by
  obtain ⟨previous, report, hreport, rfl⟩ := h
  refine ⟨previous, report, hreport, ?_⟩
  have hnone : ∀ o ∈ s.outbox.rows, ¬ (o.eventType = .workflowCompleted ∧
      o.correlationId = some w.workflowId) := by
    simpa [announcements, List.countP_eq_zero] using hzero
  rw [completedEvents_eq]
  by_cases hvalid : Valid .workflowCompleted
      (completedPayload w status error (stepEntries w) report)
  · rw [if_pos hvalid]
    refine iff_of_true ⟨hzero, ?_, ?_⟩ hvalid
    · unfold announcements
      rw [outbox_statusWritten hfresh, houtbox, List.countP_append]
      unfold announcements at hzero
      rw [hzero]
      simp [stagedRow, textOr, subjectOf]
    · intro o ho htype hcorrelation
      rw [outbox_statusWritten hfresh, houtbox] at ho
      rcases List.mem_append.mp ho with ho | ho
      · exact absurd ⟨htype, hcorrelation⟩ (hnone o ho)
      · rw [List.mem_singleton.mp ho]
        exact hvalid
  · rw [if_neg hvalid]
    refine iff_of_false (fun hannounced => ?_) hvalid
    have hafter := hannounced.after
    change announcements t w.workflowId = 1 at hafter
    rw [announcements, houtbox] at hafter
    rw [announcements] at hzero
    omega

/-- A finish of a workflow in a run over completions that keep their contracts:
the step that makes it, and the row before and after. -/
structure FinishingStep (env : Env) (past : List (System × Label)) (s : System) (label : Label)
    (s' : System) (row row' : WorkflowRow) : Prop where
  run : Run (step env) System.initial past s
  valid : ContractValid past
  made : step env s label = some s'
  mem : row ∈ s.db.workflows.rows
  live : ¬ row.status.Terminal
  mem' : row' ∈ s'.db.workflows.rows
  same : row'.id = row.id
  finished : row'.status.Terminal

/-- A finish is announced, once and within its contract, for the workflows
without competitors, and for no others. -/
theorem finish_announced_iff {past : List (System × Label)} {s s' : System} {label : Label}
    {row row' : WorkflowRow} (h : FinishingStep env past s label s' row row') :
    Announced s.db s'.db row.id ↔ competitors env.rules row.inputs = .ok [] := by
  have hsound := sound_of_run h.run (carries_any past)
  have hchange := (sound_step hsound (allowed_any label) h.made).2
  have hplanned := allPlanned_of_run h.run (carries_delivered past) row h.mem
  have hrecorded := allRecorded_of_run h.run (carries_delivered past)
  have hzero : announcements s.db row.id = 0 := by
    have honce := kept_of_run h.run (carries_any past) AnnouncedOnce (fun _ => .inl rfl)
      fun _ _ hcoherent h hchange => announcedOnce_of_change hcoherent h hchange
    rcases honce row.id with hzero | ⟨-, other, hother, hid, hterminal⟩
    · exact hzero
    · rw [eq_of_id hother h.mem hid] at hterminal
      exact absurd hterminal h.live
  rcases finale_of_change hchange h.mem' h.finished with
    ⟨other, hother, hid, hterminal⟩ | ⟨eventId, w, w', t, error, hfinale⟩
  · rw [eq_of_id hother h.mem (hid.trans h.same)] at hterminal
    exact absurd hterminal h.live
  · rw [h.same] at hfinale
    have hw' := snapshot_of_concludes hfinale.before hfinale.concludes
    obtain ⟨f, hrows, hmoves⟩ : Moved env (delivered past) s.db t :=
      moved_of_concludes hfinale.before hfinale.concludes
    have hplannedt : PlannedFrom env (delivered past) t row := by
      unfold PlannedFrom
      rw [planOf_of_moved hrows hmoves]
      exact hplanned
    have htyped : ∀ x ∈ w'.steps, Typed (x.result.getD []) := by
      intro x hx
      obtain ⟨r, hr, -, rfl⟩ := (mem_steps_of_snapshot hw').mp hx
      refine typed_of_recorded (Moved.allRecorded ⟨f, hrows, hmoves⟩ hrecorded r hr) ?_
      intro type payload hdelivered hcompletion
      obtain ⟨⟨kind, idField⟩, hkind⟩ := Option.isSome_iff_exists.mp hcompletion
      exact h.valid type payload kind idField ⟨hdelivered, hkind⟩
    have houtbox := (workflows_of_concludes hfinale.concludes).2
    have hid := workflowId_of_snapshot hw'
    obtain ⟨previous, report, hreport, hiff⟩ := announced_iff_of_finishes (hid ▸ hzero) houtbox
      (houtbox ▸ hfinale.fresh) hfinale.finishes
    rw [← hid, hiff, valid_of_reportOf h.finished htyped hreport, noRivals_iff hplannedt hw']

section Checks

/-- The last step of an audit whose crawl failed. -/
def crawlFails (inputs : Inputs) : List Label :=
  started 0 (auditRequest "m" inputs) "e" ++
    [.deliver 0 (crawlCompleted "c" "job-1" siteUnread), .run 0 (drawn "f"), .run 0 (drawn "f")]

/-- What the next step of the first worker makes of an audit. -/
def finishesAs (announced : Nat) (s : System) : Bool :=
  (step asciiEnv s (.run 0 (drawn "f"))).any fun s' =>
    s.db.workflows.rows.any (fun row => row.id = "w" ∧ ¬ row.status.Terminal) &&
      s'.db.workflows.rows.any (fun row => row.id = "w" ∧ row.status = .failed) &&
      announcements s'.db "w" = announced

theorem finishingStep_of_check (inputs : Inputs) (announced : Nat)
    (hcheck : (replay (step asciiEnv) System.initial (crawlFails inputs)).any
      (fun r => finishesAs announced r.2) = true)
    (hvalid : (crawlFails inputs).all keepsContract = true) :
    ∃ past s s' row row',
      FinishingStep asciiEnv past s (.run 0 (drawn "f")) s' row row' ∧ row.id = "w" ∧
        announcements s'.db "w" = announced := by
  obtain ⟨past, s, hpast, run, hfinish⟩ :=
    Run.of_check (step asciiEnv) System.initial (crawlFails inputs)
      (fun _ s => finishesAs announced s)
      hcheck
  obtain ⟨s', hstep, hchecked⟩ := (Option.any_eq_true _ _).mp hfinish
  simp only [Bool.and_eq_true, List.any_eq_true, decide_eq_true_eq] at hchecked
  obtain ⟨⟨⟨row, hrow, hid, hlive⟩, row', hrow', hid', hfailed⟩, hcount⟩ := hchecked
  refine ⟨past, s, s', row, row', ⟨run, contractValid_of_labels hpast hvalid, hstep, hrow, hlive,
    hrow', hid'.trans hid.symm, ?_⟩, hid, hcount⟩
  rw [hfailed]
  trivial

/-- The failed audit of one site is announced. -/
theorem finish_announced_iff_failed : ∃ (past : List (System × Label)) (s s' : System)
    (row : WorkflowRow), Run (step asciiEnv) System.initial past s ∧
      step asciiEnv s (.run 0 (drawn "f")) = some s' ∧ row ∈ s.db.workflows.rows ∧
      announcements s'.db row.id = 1 ∧
      (Announced s.db s'.db row.id ↔ competitors asciiRules row.inputs = .ok []) := by
  obtain ⟨past, s, s', row, row', h, hid, hcount⟩ :=
    finishingStep_of_check oneSite 1 (by decide +kernel) (by decide +kernel)
  exact ⟨past, s, s', row, h.run, h.made, h.mem, by rw [hid, hcount], finish_announced_iff h⟩

/-- The failed audit of a site next to a competitor's is not announced. -/
theorem finish_unannounced : ∃ (past : List (System × Label)) (s s' : System)
    (row row' : WorkflowRow),
      FinishingStep asciiEnv past s (.run 0 (drawn "f")) s' row row' ∧
        ¬ Announced s.db s'.db row.id := by
  obtain ⟨past, s, s', row, row', h, hid, hcount⟩ :=
    finishingStep_of_check twoSites 0 (by decide +kernel) (by decide +kernel)
  refine ⟨past, s, s', row, row', h, fun hannounced => ?_⟩
  have hafter := hannounced.after
  rw [hid, hcount] at hafter
  contradiction

end Checks

end SeoPlatform.Orchestrator.Announcement
