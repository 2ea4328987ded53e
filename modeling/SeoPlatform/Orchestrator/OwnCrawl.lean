import SeoPlatform.Orchestrator.Deliveries
import SeoPlatform.Orchestrator.Reports
import SeoPlatform.Orchestrator.Requests
import SeoPlatform.Orchestrator.Skipping
import SeoPlatform.Orchestrator.StepResults
import SeoPlatform.Foundation.ExceptFlow

namespace SeoPlatform.Orchestrator.OwnCrawl

open SeoPlatform.Foundation.ExceptFlow
open SeoPlatform.Foundation.JsonValue
open SeoPlatform.Foundation.SequentialFlow
open SeoPlatform.Foundation.TransitionSystem
open SeoPlatform.Orchestrator.Planner
open SeoPlatform.Orchestrator.Store
open SeoPlatform.Orchestrator.StoreSpecs
open SeoPlatform.Orchestrator.Engine
open SeoPlatform.Orchestrator.AdvanceOutcomes
open SeoPlatform.Orchestrator.Snapshots
open SeoPlatform.Orchestrator.Workers
open SeoPlatform.Orchestrator.Changes
open SeoPlatform.Orchestrator.NoWork
open SeoPlatform.Orchestrator.FlowView
open SeoPlatform.Orchestrator.Refinement
open SeoPlatform.Orchestrator.Coherence
open SeoPlatform.Orchestrator.Frames
open SeoPlatform.Orchestrator.Interleavings
open SeoPlatform.Orchestrator.Deliveries
open SeoPlatform.Orchestrator.StepLives
open SeoPlatform.Orchestrator.Absorbing
open SeoPlatform.Orchestrator.Plans
open SeoPlatform.Orchestrator.Conclusions
open SeoPlatform.Orchestrator.Reports
open SeoPlatform.Orchestrator.Requests
open SeoPlatform.Orchestrator.Skipping
open SeoPlatform.Orchestrator.StepResults
open SeoPlatform.Shared.Contracts
open SeoPlatform.Shared.Exceptions
open SeoPlatform.Shared.Events

variable {env : Env} {traffic : Traffic} {s s' t : Db} {workflowId : String} {w : Workflow}

/-- A crawl that came back says that it is the crawl of its step. -/
def CrawlsOwn (db : Db) : Prop :=
  ∀ r ∈ db.steps.rows, r.kind = .crawl ∨ r.kind = .competitorCrawl → r.status = .completed →
    Dict.get (r.result.getD []) "crawl_id" = .str r.jobId ∧ r.jobId ≠ ""

theorem crawlsOwn_before (h : CrawlsOwn s') (hchange : Change env traffic s s') :
    CrawlsOwn s := by
  intro r hr hkind hcompleted
  obtain ⟨r', hr', hmoves⟩ := row_after hchange hr
  obtain rfl := eq_of_moves hmoves (.inl hcompleted)
  exact h r' hr' hkind hcompleted

/-- A dispatch leaves the rows of the steps that came back. -/
theorem mem_of_dispatched {step : Step} {event : PendingEvent} {r : StepRow}
    (hsteps : s'.steps = (dispatched t workflowId step event).steps)
    (hcompleted : r.status = .completed) :
    r ∈ s'.steps.rows ↔ r ∈ t.steps.rows := by
  rw [hsteps]
  unfold dispatched
  rw [mem_updateStep, steps_statusWritten]
  constructor
  · rintro ⟨old, hold, rfl⟩
    by_cases hhit : old.jobId = step.jobId ∧ old.status = .pending
    · rw [updatedWhere_of_hit hhit.1 hhit.2] at hcompleted
      simp [StepRow.updated] at hcompleted
    · rwa [updatedWhere_of_miss hhit]
  · exact fun hr => ⟨r, hr, updatedWhere_of_miss (by simp [hcompleted])⟩

/-- The row of a competitor's crawl that completed. -/
structure IsRival (db : Db) (workflowId : String) (r : StepRow) : Prop where
  mem : r ∈ db.steps.rows
  workflow : r.workflowId = workflowId
  kind : r.kind = .competitorCrawl
  completed : r.status = .completed

/-- The competitors' crawls that completed, in the order of the plan. -/
structure RivalsOf (db : Db) (workflowId : String) (rivals : List Step) : Prop where
  sorted : rivals.Pairwise fun a b => a.position < b.position
  exact : ∀ x, x ∈ rivals ↔ ∃ r, IsRival db workflowId r ∧ r.toStep = x

theorem RivalsOf.congr {rivals : List Step} (h : RivalsOf s workflowId rivals)
    (hsame : ∀ r, IsRival s' workflowId r ↔ IsRival s workflowId r) :
    RivalsOf s' workflowId rivals :=
  ⟨h.sorted, fun x => (h.exact x).trans
    (exists_congr fun r => and_congr_left fun _ => (hsame r).symm)⟩

/-- The steps of a workflow stand at different positions. -/
theorem steps_sorted (hw : snapshot s workflowId = some w) :
    (byPosition w.steps).Pairwise fun a b => a.position < b.position := by
  have hapart : (byPosition w.steps).Pairwise fun a b => a.position ≠ b.position := by
    have hsymm : ∀ {a b : Step}, a.position ≠ b.position → b.position ≠ a.position :=
      fun h => h.symm
    rw [steps_of_snapshot hw]
    refine ((byPosition_perm _).pairwise_iff hsymm).mpr ?_
    refine ((byPosition_perm _).pairwise_iff hsymm).mpr ?_
    rw [List.pairwise_map, List.pairwise_filter]
    refine s.steps.apart.imp fun hclash ha hb heq => hclash (.inr ⟨?_, heq⟩)
    simp only [decide_eq_true_eq] at ha hb
    exact ha.trans hb.symm
  exact (byPosition_sorted w.steps).and hapart |>.imp fun h => Nat.lt_of_le_of_ne h.1 h.2

theorem rivalIds_of_snapshot (hown : CrawlsOwn s) (hw : snapshot s workflowId = some w) :
    ∃ rivals, RivalsOf s workflowId rivals ∧ rivalIds w = rivals.map fun x => .str x.jobId := by
  let rivals := (byPosition w.steps).filter fun x =>
    x.kind = .competitorCrawl ∧ x.status = .completed
  have hexact : ∀ x, x ∈ rivals ↔ ∃ r, IsRival s workflowId r ∧ r.toStep = x := by
    intro x
    simp only [rivals, List.mem_filter, mem_byPosition, mem_steps_of_snapshot hw, decide_eq_true_eq]
    constructor
    · rintro ⟨⟨r, hr, hworkflow, rfl⟩, hkind, hcompleted⟩
      exact ⟨r, ⟨hr, hworkflow, hkind, hcompleted⟩, rfl⟩
    · rintro ⟨r, h, rfl⟩
      exact ⟨⟨r, h.mem, h.workflow, rfl⟩, h.kind, h.completed⟩
  refine ⟨rivals, ⟨(steps_sorted hw).filter _, hexact⟩, ?_⟩
  have hids : ∀ x ∈ rivals, Dict.get (x.result.getD []) "crawl_id" = .str x.jobId ∧
      (Json.str x.jobId).truthy = true := by
    intro x hx
    obtain ⟨r, h, rfl⟩ := (hexact x).mp hx
    obtain ⟨hid, hne⟩ := hown r h.mem (.inr h.kind) h.completed
    exact ⟨hid, by simpa using hne⟩
  have hmap : (rivals.map fun x => Dict.get (x.result.getD []) "crawl_id") =
      rivals.map fun x => .str x.jobId := List.map_congr_left fun x hx => (hids x hx).1
  change (rivals.map fun x => Dict.get (x.result.getD []) "crawl_id").filter Json.truthy = _
  rw [hmap, List.filter_eq_self]
  intro v hv
  obtain ⟨x, hx, rfl⟩ := List.mem_map.mp hv
  exact (hids x hx).2

/-- The kinds of step whose request names your own crawl. -/
def BehindCrawl (kind : StepKind) : Prop :=
  kind = .linkAnalysis ∨ kind = .contentAnalysis ∨ kind = .optimizerPlan ∨ kind = .competitorCheck

theorem maySkip_of_behindCrawl {kind : StepKind} (h : BehindCrawl kind) : MaySkip kind := by
  rcases h with rfl | rfl | rfl | rfl <;> trivial

theorem crawlId_of_params {step : Step} {params : Dict} (hkind : BehindCrawl step.kind)
    (h : requestParams env w step = .ok params) : Dict.get params "crawl_id" = ownCrawlId w := by
  unfold requestParams at h
  by_cases hcrawl : (ownCrawlId w).truthy = true
  · rcases hkind with hkind | hkind | hkind | hkind
    · simp only [hkind, linksParams, hcrawl] at h
      cases h
      rfl
    · simp only [hkind, contentParams, hcrawl, Bool.true_and] at h
      split at h
      · cases h
        rfl
      · contradiction
    · simp only [hkind, optimizerParams, hcrawl] at h
      cases h
      rfl
    · simp only [hkind, competitorParams, hcrawl, if_true] at h
      split at h
      · contradiction
      · cases h
        rfl
  · rw [Bool.not_eq_true] at hcrawl
    rcases hkind with hkind | hkind | hkind | hkind <;>
      simp [hkind, linksParams, contentParams, optimizerParams, competitorParams, hcrawl] at h

theorem rivals_of_params {step : Step} {params : Dict} (hkind : step.kind = .competitorCheck)
    (h : requestParams env w step = .ok params) :
    rivalIds w ≠ [] ∧ Dict.get params "competitor_crawl_ids" = .arr (rivalIds w) := by
  unfold requestParams at h
  simp only [hkind, competitorParams] at h
  split at h
  · split at h
    · contradiction
    · rename_i hrivals
      cases h
      exact ⟨by simpa using hrivals, rfl⟩
  · contradiction

/-- A request's payload is its parameters behind the step's job id. -/
theorem payload_of_dispatchEvent {eventId : String} {step : Step} {event : PendingEvent}
    (h : dispatchEvent env eventId w step = .ok event) :
    ∃ params, requestParams env w step = .ok params ∧
      ∀ name ≠ (requestOf step.kind).2, Dict.get event.payload name = Dict.get params name := by
  obtain ⟨params, hparams, -, rfl⟩ := dispatchEvent_ok h
  exact ⟨params, hparams, fun name hname => by rw [Dict.get_cons, if_neg (Ne.symm hname)]⟩

/-- What a request behind the own crawl says of the crawls of its workflow. -/
structure NamesCrawls (db : Db) (o : OutboxRow) (r : StepRow) : Prop where
  own : BehindCrawl r.kind → ∃ c ∈ db.steps.rows, c.workflowId = r.workflowId ∧
    c.kind = .crawl ∧ Dict.get o.payload "crawl_id" = .str c.jobId
  rivals : r.kind = .competitorCheck → ∃ rivals, RivalsOf db r.workflowId rivals ∧ rivals ≠ [] ∧
    Dict.get o.payload "competitor_crawl_ids" = .arr (rivals.map fun x => .str x.jobId)

/-- A request names the crawls when it is made. -/
theorem namesCrawls_of_asks {row : WorkflowRow} {rivals : Nat} {r : StepRow} {event : PendingEvent}
    {subject : Subject} (hshape : Shaped rivals (planOf t row.id))
    (hrecorded : AllRecorded env traffic t) (hown : CrawlsOwn t)
    (hworkflow : row.id = r.workflowId) (h : Asks env traffic s s' t w r event) :
    NamesCrawls t (stagedRow event subject) r := by
  have hw := h.read
  rw [← hworkflow] at hw
  obtain ⟨params, hparams, hpayload⟩ := payload_of_dispatchEvent h.asked
  have hfield : (requestOf r.kind).2 ≠ "competitor_crawl_ids" := by
    cases r.kind <;> simp [requestOf]
  constructor
  · intro hkind
    obtain ⟨c, hc, hcworkflow, hckind, hcompleted⟩ := crawl_over hshape hrecorded h.mem
      hworkflow.symm (hworkflow ▸ h.due) (maySkip_of_behindCrawl hkind)
    obtain ⟨hid, hne⟩ := hown c hc (.inl hckind) hcompleted
    refine ⟨c, hc, hcworkflow.trans hworkflow, hckind, ?_⟩
    have hfield' : (requestOf r.kind).2 ≠ "crawl_id" := by
      rcases hkind with hkind | hkind | hkind | hkind <;> simp [hkind, requestOf]
    change Dict.get event.payload "crawl_id" = _
    rw [hpayload _ hfield'.symm, crawlId_of_params hkind hparams,
      ownCrawlId_of_row hshape hw hc hcworkflow hckind (by rw [hid]; simpa using hne), hid]
  · intro hkind
    obtain ⟨hsome, hids⟩ := rivals_of_params hkind hparams
    obtain ⟨steps, hrivals, heq⟩ := rivalIds_of_snapshot hown h.read
    refine ⟨steps, hrivals, ?_, ?_⟩
    · rintro rfl
      exact hsome (by rw [heq, List.map_nil])
    · change Dict.get event.payload "competitor_crawl_ids" = _
      rw [hpayload _ hfield.symm, hids, heq]

/-- Where a step was asked for, the steps before it came back or were skipped. -/
theorem settled_before_request {o : OutboxRow} {r r' : StepRow} (hcoherent : Coherent s)
    (ho : o ∈ s.outbox.rows) (hr' : r' ∈ s.steps.rows) (hasks : AsksFor o r')
    (hr : r ∈ s.steps.rows) (hworkflow : r.workflowId = r'.workflowId)
    (hlt : r.position < r'.position) :
    r.status = .completed ∨ r.status = .failed ∨ r.status = .skipped := by
  have hlogged : r'.position ∈ (flow s r'.workflowId).log :=
    List.mem_filterMap.mpr
      ⟨o, ho, requestedPosition_eq_some.mpr ⟨r', hr', hasks.1, rfl, rfl⟩⟩
  have horderly := hcoherent.orderly r'.workflowId
  have hlaunched := (horderly.logged _).mp hlogged
  have hpassed := horderly.before _ _ hlt
    (fun habsent => not_launched_absent (habsent ▸ hlaunched))
    (fun hwaiting => not_launched_waiting (hwaiting ▸ hlaunched))
  rw [← hworkflow, progress_of_mem hr] at hpassed
  cases hstatus : r.status with
  | completed => exact .inl rfl
  | failed => exact .inr (.inl rfl)
  | skipped => exact .inr (.inr rfl)
  | pending | dispatched => simp [hstatus, progressOf, Progress.Passed] at hpassed

/-- Once every competitor's crawl is over, no more of them complete. -/
theorem isRival_kept (hchange : Change env traffic s s')
    (hsettled : ∀ r ∈ s.steps.rows, r.workflowId = workflowId → r.kind = .competitorCrawl →
      r.status = .completed ∨ r.status = .failed ∨ r.status = .skipped) (x : StepRow) :
    IsRival s' workflowId x ↔ IsRival s workflowId x := by
  constructor
  · rintro ⟨hx, hworkflow, hkind, hcompleted⟩
    rcases row_before hchange hx with ⟨r, hr, hmoves⟩ | ⟨other, p, rfl⟩
    · obtain ⟨hplanned, hsame⟩ := identity_of_moves hmoves
      have hrkind : r.kind = .competitorCrawl :=
        (congrArg PlannedStep.kind hplanned).symm.trans hkind
      obtain rfl := eq_of_moves hmoves (hsettled r hr (hsame.symm.trans hworkflow) hrkind)
      exact ⟨hr, hworkflow, hkind, hcompleted⟩
    · simp [plannedRow] at hcompleted
  · rintro ⟨hx, hworkflow, hkind, hcompleted⟩
    obtain ⟨r', hr', hmoves⟩ := row_after hchange hx
    obtain rfl := eq_of_moves hmoves (.inl hcompleted)
    exact ⟨hr', hworkflow, hkind, hcompleted⟩

/-- What a request said of the crawls stays so. -/
theorem namesCrawls_kept {row : WorkflowRow} {rivals : Nat} {o : OutboxRow} {r r' : StepRow}
    (hcoherent : Coherent s) (hshape : Shaped rivals (planOf s row.id))
    (hworkflow : row.id = r.workflowId) (hchange : Change env traffic s s')
    (ho : o ∈ s.outbox.rows) (hr : r ∈ s.steps.rows) (hasks : AsksFor o r)
    (hmoves : Moves env traffic r r') (h : NamesCrawls s o r) : NamesCrawls s' o r' := by
  obtain ⟨hplanned, hsame⟩ := identity_of_moves hmoves
  have hkind : r'.kind = r.kind := congrArg PlannedStep.kind hplanned
  constructor
  · rw [hkind, hsame]
    intro hbehind
    obtain ⟨c, hc, hcworkflow, hckind, hid⟩ := h.own hbehind
    obtain ⟨c', hc', hcmoves⟩ := row_after hchange hc
    obtain ⟨hcplanned, hcsame⟩ := identity_of_moves hcmoves
    refine ⟨c', hc', hcsame.trans hcworkflow,
      (congrArg PlannedStep.kind hcplanned).trans hckind, ?_⟩
    rw [hid, jobId_of_moves hcmoves]
  · rw [hkind, hsame]
    intro hcheck
    obtain ⟨steps, hrivals, hsome, hids⟩ := h.rivals hcheck
    refine ⟨steps, hrivals.congr (isRival_kept hchange fun x hx hxworkflow hxkind => ?_),
      hsome, hids⟩
    refine settled_before_request hcoherent ho hr hasks hx hxworkflow ?_
    have hplaced := placed_row hshape hr hworkflow.symm
    have hxplaced := placed_row hshape hx (hxworkflow.trans hworkflow.symm)
    rw [hcheck] at hplaced
    rw [hxkind] at hxplaced
    simp only [PlacedAt] at hplaced hxplaced
    omega

/-- What a request says of the crawls stays so when its step is marked. -/
theorem namesCrawls_sent {step : Step} {event : PendingEvent} {o : OutboxRow} {r r' : StepRow}
    (hsteps : s'.steps = (dispatched t workflowId step event).steps)
    (hplanned : plannedOf r' = plannedOf r) (hsame : r'.workflowId = r.workflowId)
    (h : NamesCrawls t o r) : NamesCrawls s' o r' := by
  have hkind : r'.kind = r.kind := congrArg PlannedStep.kind hplanned
  constructor
  · rw [hkind, hsame]
    intro hbehind
    obtain ⟨c, hc, hcworkflow, hckind, hid⟩ := h.own hbehind
    refine ⟨c.updatedWhere step.jobId .pending ⟨.dispatched, none, none⟩, ?_, ?_, ?_, ?_⟩
    · rw [hsteps]
      exact mem_updateStep.mpr ⟨c, by rwa [steps_statusWritten], rfl⟩
    · rw [updatedWhere_workflowId, hcworkflow]
    · rw [updatedWhere_kind, hckind]
    · rw [updatedWhere_jobId, hid]
  · rw [hkind, hsame]
    intro hcheck
    obtain ⟨steps, hrivals, hsome, hids⟩ := h.rivals hcheck
    refine ⟨steps, hrivals.congr fun x => ?_, hsome, hids⟩
    constructor
    · rintro ⟨hx, hworkflow, hxkind, hcompleted⟩
      exact ⟨(mem_of_dispatched hsteps hcompleted).mp hx, hworkflow, hxkind, hcompleted⟩
    · rintro ⟨hx, hworkflow, hxkind, hcompleted⟩
      exact ⟨(mem_of_dispatched hsteps hcompleted).mpr hx, hworkflow, hxkind, hcompleted⟩

/-- Every request behind the own crawls names them. -/
def AllNameCrawls (db : Db) : Prop :=
  ∀ o ∈ db.outbox.rows, ∀ r ∈ db.steps.rows, AsksFor o r → NamesCrawls db o r

theorem allNameCrawls_of_change (hcoherent : Coherent s) (hplanned : AllPlanned env traffic s)
    (hrecorded : AllRecorded env traffic s) (hown' : CrawlsOwn s') (h : AllNameCrawls s)
    (hchange : Change env traffic s s') : AllNameCrawls s' := by
  have hshaped : ∀ r ∈ s.steps.rows, ∃ (row : WorkflowRow) (rivals : Nat), row.id = r.workflowId ∧
      Shaped rivals (planOf s row.id) := by
    intro r hr
    obtain ⟨row, hrow, hid⟩ := hcoherent.owned r hr
    obtain ⟨rivals, -, hshape⟩ := shaped_of_planned (hplanned row hrow)
    exact ⟨row, rivals.length, hid, hshape⟩
  have hold : ∀ o ∈ s.outbox.rows, ∀ r' ∈ s'.steps.rows, AsksFor o r' → NamesCrawls s' o r' := by
    intro o ho r' hr' hasks'
    obtain ⟨r, hr, hasks⟩ := hcoherent.requested o ho (requestField_of_requestJob hasks'.1)
    obtain ⟨own, hown, hmoves⟩ := row_after hchange hr
    have hjob : own.jobId = r'.jobId := by
      rw [jobId_of_moves hmoves]
      exact Option.some.inj (hasks.1.symm.trans hasks'.1)
    obtain rfl := eq_of_jobId hown hr' hjob
    obtain ⟨row, rivals, hid, hshape⟩ := hshaped r hr
    exact namesCrawls_kept hcoherent hshape hid hchange ho hr hasks hmoves (h o ho r hr hasks)
  rcases asks_of_change hchange with houtbox | ⟨o, houtbox, htype⟩ | ⟨t, w, r, event, hasks⟩
  · intro o ho
    rw [houtbox] at ho
    exact hold o ho
  · intro o' ho' r' hr' hasks'
    rw [houtbox] at ho'
    rcases List.mem_append.mp ho' with ho' | ho'
    · exact hold o' ho' r' hr' hasks'
    · obtain rfl := List.mem_singleton.mp ho'
      have hfield := requestField_of_requestJob hasks'.1
      rw [htype] at hfield
      contradiction
  · intro o' ho' r' hr' hasks'
    rw [hasks.outbox] at ho'
    rcases List.mem_append.mp ho' with ho' | ho'
    · exact hold o' ho' r' hr' hasks'
    · obtain rfl := List.mem_singleton.mp ho'
      obtain ⟨f, hrows, hmoves⟩ := hasks.moved
      obtain ⟨r₀, hr₀, hmove⟩ : ∃ r₀ ∈ s.steps.rows, Moves env traffic r₀ r := by
        have hr := hasks.mem
        rw [hrows] at hr
        obtain ⟨r₀, hr₀, rfl⟩ := List.mem_map.mp hr
        exact ⟨r₀, hr₀, hmoves r₀ hr₀⟩
      obtain ⟨row, rivals, hid, hshape⟩ := hshaped r₀ hr₀
      have hworkflow : row.id = r.workflowId := hid.trans (identity_of_moves hmove).2.symm
      rw [← planOf_of_moved hrows hmoves] at hshape
      have hrecordedt : AllRecorded env traffic t := hasks.moved.allRecorded hrecorded
      have hownt : CrawlsOwn t := fun x hx hkind hcompleted =>
        hown' x ((mem_of_dispatched hasks.steps hcompleted).mpr hx) hkind hcompleted
      -- The row the request asks for is the row it was made for.
      have hsent : r.updatedWhere r.jobId .pending ⟨.dispatched, none, none⟩ ∈ s'.steps.rows := by
        rw [hasks.steps]
        exact mem_updateStep.mpr ⟨r, by rw [steps_statusWritten]; exact hasks.mem, rfl⟩
      have hfor := asksFor_stagedRow hasks.asked (workflowId_of_snapshot hasks.read)
        (subjectOf s r.workflowId) rfl
      have hjob : r'.jobId = r.jobId := Option.some.inj (hasks'.1.symm.trans hfor.1)
      obtain rfl := eq_of_jobId hr' hsent (by rw [updatedWhere_jobId, hjob])
      obtain ⟨hplanned, hsame⟩ := identity_of_moves
        (moves_sent r.jobId r : Moves env traffic r _)
      exact namesCrawls_sent hasks.steps hplanned hsame
        (namesCrawls_of_asks hshape hrecordedt hownt hworkflow hasks)

/-- What the final report of a workflow says of its own crawl. -/
structure ReportsOwn (row : WorkflowRow) (c : StepRow) : Prop where
  crawl : Dict.get (row.report.getD []) "crawl" = .obj (c.result.getD [])
  score : ∃ headline, Dict.get (row.report.getD []) "headline" = .obj headline ∧
    Dict.get headline "overall_score" = Dict.get (c.result.getD []) "overall_score"

theorem getD_heldResult (step : Step) : (heldResult step).getD [] = step.result.getD [] := by
  unfold heldResult
  cases step.result with
  | none => rfl
  | some d => cases d <;> rfl

/-- The one result of a kind that a plan has once. -/
theorem resultOf_of_row {row : WorkflowRow} {rivals : Nat}
    (hshape : Shaped rivals (planOf s row.id)) (hw : snapshot s row.id = some w) {c : StepRow}
    (hc : c ∈ s.steps.rows) (hworkflow : c.workflowId = row.id) (hkind : c.kind = .crawl) :
    (resultOf w .crawl).getD [] = c.result.getD [] := by
  have hresult : resultOf w c.toStep.kind = heldResult c.toStep := by
    refine resultOf_of_unique ((mem_steps_of_snapshot hw).mpr ⟨c, hc, hworkflow, rfl⟩) ?_
    intro x hx hsame
    obtain ⟨r, hr, hrworkflow, rfl⟩ := (mem_steps_of_snapshot hw).mp hx
    rw [alone_row hshape hc hr hworkflow hrworkflow hsame (by simp [hkind])]
  change resultOf w c.kind = _ at hresult
  rw [← hkind, hresult, getD_heldResult]

theorem reportsOwn_of_finale {row row' : WorkflowRow} {rivals : Nat} {eventId : String}
    {w' : Workflow} {status : WorkflowStatus} {error : Option String}
    (hshape : Shaped rivals (planOf t row.id)) (hid : row.id = row'.id)
    (hrow' : row' ∈ s'.workflows.rows)
    (h : Finale env s s' row'.id eventId w w' t status error) {c : StepRow}
    (hc : c ∈ t.steps.rows) (hworkflow : c.workflowId = row.id) (hkind : c.kind = .crawl) :
    ReportsOwn row' c := by
  have hw' := snapshot_of_concludes h.before h.concludes
  obtain ⟨previous, report, hreport, hmade⟩ := report_of_finishes h.finishes hrow'
    (workflowId_of_snapshot hw').symm
  obtain ⟨headline, hheadline, hget⟩ := get_of_reportOf hmade
  rw [← hid] at hw'
  have hresult := resultOf_of_row hshape hw' hc hworkflow hkind
  refine ⟨?_, headline, ?_, ?_⟩
  · rw [← hresult, hreport, Option.getD_some, hget _ (by simp) (by simp)]
    simp [baseReport, Dict.get_cons]
  · rw [hreport, Option.getD_some, hget _ (by simp) (by simp)]
    simp [baseReport, Dict.get_cons]
  · obtain ⟨rivals, -, rfl⟩ := headlineOf_ok hheadline
    rw [← hresult]
    simp [Dict.get_cons]

/-- Every final report is about the own crawl. -/
def AllReportOwn (db : Db) : Prop :=
  ∀ row ∈ db.workflows.rows, row.status.Terminal → ∀ c ∈ db.steps.rows,
    c.workflowId = row.id → c.kind = .crawl → ReportsOwn row c

theorem allReportOwn_of_change (hcoherent : Coherent s) (hplanned : AllPlanned env traffic s)
    (h : AllReportOwn s) (hchange : Change env traffic s s') : AllReportOwn s' := by
  intro row' hrow' hterminal c hc hworkflow hkind
  rcases finale_of_change hchange hrow' hterminal with
    ⟨row, hrow, hid, hbefore⟩ | ⟨eventId, w, w', t, error, hfinale⟩
  · obtain ⟨⟨other, hother, hsame⟩, hsteps⟩ := rows_of_change hcoherent hrow hbefore hchange
    obtain rfl := eq_of_id hother hrow' (hsame.id.trans hid)
    have hc' : c ∈ s'.steps.rows.filter fun r => r.workflowId = row.id :=
      List.mem_filter.mpr ⟨hc, by simp [hworkflow, hid]⟩
    rw [hsteps] at hc'
    have hown := h row hrow hbefore c (List.mem_filter.mp hc').1 (hworkflow.trans hid.symm) hkind
    have hget : ∀ key ≠ "summary", Dict.get (other.report.getD []) key =
        Dict.get (row.report.getD []) key :=
      fun key hkey => congrArg (·.getD Json.null) (hsame.report key hkey)
    refine ⟨(hget _ (by simp)).trans hown.crawl, ?_⟩
    obtain ⟨headline, hheadline, hscore⟩ := hown.score
    exact ⟨headline, (hget _ (by simp)).trans hheadline, hscore⟩
  · obtain ⟨row, hrow, hid, -⟩ := snapshot_eq_some.mp hfinale.before
    obtain ⟨rivals, -, hshape⟩ := shaped_of_planned (hplanned row hrow)
    have hmoved : Moved env traffic s t := moved_of_concludes hfinale.before hfinale.concludes
    obtain ⟨f, hrows, hmoves⟩ := hmoved
    rw [← planOf_of_moved hrows hmoves] at hshape
    rw [steps_of_finishes hfinale.finishes] at hc
    exact reportsOwn_of_finale hshape hid hrow' hfinale hc (hworkflow.trans hid.symm) hkind

/-- The steps that crawl, of the own site or of a competitor's, are finished by
crawls. -/
def CrawlsByCrawls (past : List (System × Label)) (db : Db) : Prop :=
  ∀ type payload kind idField, DeliveredCompletion past type payload kind idField →
    ∀ r ∈ db.steps.rows, r.kind = .crawl ∨ r.kind = .competitorCrawl →
      Dict.get payload idField = .str r.jobId → type = .crawlCompleted

theorem crawlsOwn_of_run {past : List (System × Label)} {u : System}
    (run : Run (step env) System.initial past u) (hcrawls : CrawlsByCrawls past u.db) :
    CrawlsOwn u.db := by
  intro r hr hkind hcompleted
  cases allRecorded_of_run run (carries_delivered past) r hr with
  | blank hstatus _ => simp [hcompleted] at hstatus
  | passed hstatus _ _ => simp [hcompleted] at hstatus
  | @finished type payload c hpayload hread hjob hstatus hresult _ =>
      obtain ⟨kind, idField, hcompletion, hid, hne, hparts, -, -⟩ := readCompletion_ok hread
      rw [← hjob] at hid hne
      obtain rfl := hcrawls _ _ _ _ ⟨hpayload, hcompletion⟩ r hr hkind hid
      cases hcompletion
      obtain ⟨stats, -, hparts⟩ := ok_of_bind hparts
      rw [hresult, Option.getD_some, ← Except.ok.inj hparts]
      refine ⟨?_, hne⟩
      rw [← hid]
      simp [get_plain_append]

/-- The requests that name the own crawl. -/
def namingOwnCrawl : List EventType :=
  [.linksAnalysisRequested, .contentAnalysisRequested, .optimizerPlanRequested,
    .competitorComparisonRequested]

/-- The own crawl of a workflow: its one step of kind `crawl`. -/
structure IsOwnCrawl (db : Db) (workflowId : String) (c : StepRow) : Prop where
  mem : c ∈ db.steps.rows
  workflow : c.workflowId = workflowId
  kind : c.kind = .crawl
  single : ∀ r ∈ db.steps.rows, r.workflowId = workflowId → r.kind = .crawl → r = c

/-- What keeps the own crawl of a workflow and those of its competitors apart,
in a state reached by a run. -/
structure NeverMixed (db : Db) : Prop where
  own : ∀ row ∈ db.workflows.rows, ∃ c, IsOwnCrawl db row.id c
  requests : ∀ o ∈ db.outbox.rows, o.eventType ∈ namingOwnCrawl →
    ∃ workflowId c, o.correlationId = some workflowId ∧ IsOwnCrawl db workflowId c ∧
      Dict.get o.payload "crawl_id" = .str c.jobId
  comparisons : ∀ o ∈ db.outbox.rows, o.eventType = .competitorComparisonRequested →
    ∃ workflowId rivals, o.correlationId = some workflowId ∧ RivalsOf db workflowId rivals ∧
      rivals ≠ [] ∧
      Dict.get o.payload "competitor_crawl_ids" = .arr (rivals.map fun x => .str x.jobId) ∧
      ∀ c, IsOwnCrawl db workflowId c → ∀ x ∈ rivals, x.jobId ≠ c.jobId
  reports : ∀ row ∈ db.workflows.rows, row.status.Terminal → ∀ c, IsOwnCrawl db row.id c →
    ReportsOwn row c

theorem behindCrawl_of_type {kind : StepKind} (h : (requestOf kind).1 ∈ namingOwnCrawl) :
    BehindCrawl kind := by
  cases kind <;> simp [requestOf, namingOwnCrawl, BehindCrawl] at h ⊢

theorem competitorCheck_of_type {kind : StepKind}
    (h : (requestOf kind).1 = .competitorComparisonRequested) : kind = .competitorCheck := by
  cases kind <;> simp [requestOf] at h ⊢

section Runs

variable {past : List (System × Label)} {s : System}

theorem allNameCrawls_of_run (run : Run (step env) System.initial past s)
    (hcrawls : CrawlsByCrawls past s.db) : AllNameCrawls s.db := by
  have hkept := kept_of_run run (carries_any past)
    (fun db => AllPlanned env .any db ∧ AllRecorded env .any db ∧
      (CrawlsOwn db → AllNameCrawls db))
    ⟨fun _ hrow => absurd hrow List.not_mem_nil, fun _ hr => absurd hr List.not_mem_nil,
      fun _ _ ho => absurd ho List.not_mem_nil⟩
    fun db db' hcoherent ⟨hplanned, hrecorded, h⟩ hchange =>
      ⟨allPlanned_of_change hcoherent hplanned hchange, allRecorded_of_change hrecorded hchange,
        fun hown => allNameCrawls_of_change hcoherent hplanned hrecorded hown
          (h (crawlsOwn_before hown hchange)) hchange⟩
  exact hkept.2.2 (crawlsOwn_of_run run hcrawls)

theorem allReportOwn_of_run (run : Run (step env) System.initial past s) :
    AllReportOwn s.db := by
  have hkept := kept_of_run run (carries_any past)
    (fun db => AllPlanned env .any db ∧ AllReportOwn db)
    ⟨fun _ hrow => absurd hrow List.not_mem_nil, fun _ hrow => absurd hrow List.not_mem_nil⟩
    fun db db' hcoherent ⟨hplanned, h⟩ hchange =>
      ⟨allPlanned_of_change hcoherent hplanned hchange,
        allReportOwn_of_change hcoherent hplanned h hchange⟩
  exact hkept.2

/-- The one crawl step of a workflow is its own crawl. -/
theorem isOwnCrawl_of_run (run : Run (step env) System.initial past s) {row : WorkflowRow}
    {c : StepRow} (hrow : row ∈ s.db.workflows.rows) (hc : c ∈ s.db.steps.rows)
    (hworkflow : c.workflowId = row.id) (hkind : c.kind = .crawl) :
    IsOwnCrawl s.db row.id c := by
  obtain ⟨rivals, -, hshape⟩ :=
    shaped_of_planned (allPlanned_of_run run (carries_any past) row hrow)
  refine ⟨hc, hworkflow, hkind, fun r hr hrworkflow hrkind => ?_⟩
  exact alone_row hshape hc hr hworkflow hrworkflow (hrkind.trans hkind.symm) (by simp [hkind])

end Runs

section Checks

/-- Whether a message that names a step that crawls is a crawl's completion. -/
def crawlsByCrawls (db : Db) : Label → Bool
  | .deliver _ e =>
      (completions e.type).all fun row =>
        db.steps.rows.all fun r =>
          (r.kind ≠ .crawl ∧ r.kind ≠ .competitorCrawl) ||
            (Dict.get e.payload row.2).str? ≠ some r.jobId || e.type = .crawlCompleted
  | _ => true

theorem crawlsByCrawls_of_labels {past : List (System × Label)} {labels : List Label} {db : Db}
    (hpast : past.map Prod.snd = labels) (h : labels.all (crawlsByCrawls db) = true) :
    CrawlsByCrawls past db := by
  intro type payload kind idField hdelivered r hr hcrawl hid
  obtain ⟨n, e, hmessage, rfl, rfl, hkind⟩ := message_of_delivered hpast hdelivered
  have hchecked := List.all_eq_true.mp h _ hmessage
  simp only [crawlsByCrawls, hkind, Option.all_some, List.all_eq_true] at hchecked
  rcases hcrawl with hcrawl | hcrawl <;> simpa [hcrawl, hid] using hchecked r hr

/-- An audit of two sites, up to the comparison. -/
def comparison : List Label :=
  started 0 (auditRequest "m" twoSites) "e" ++
    handled 0 (crawlCompleted "c1" "job-1" siteRead) "e1" ++
    handled 0 (researched "c2" "job-2") "e2" ++
    handled 0 (completed .linksAnalyzed "c4" [("analysis_id", .str "job-4")]) "e4" ++
    handled 0 (completed .contentAnalyzed "c5" [("analysis_id", .str "job-5")]) "e5" ++
    handled 0 (completed .optimizerPlanned "c6" [("plan_id", .str "job-6")]) "e6" ++
    handled 0 (crawlCompleted "c7" "job-7" siteRead) "e7"

end Checks

end SeoPlatform.Orchestrator.OwnCrawl
