import SeoPlatform.Orchestrator.Interleavings
import SeoPlatform.Orchestrator.OwnTransactions
import SeoPlatform.Orchestrator.Plans

namespace SeoPlatform.Orchestrator.OwnHandlers

open SeoPlatform.Foundation.JsonValue
open SeoPlatform.Foundation.ConstrainedTable
open SeoPlatform.Foundation.SqlTransaction
open SeoPlatform.Foundation.TwoRuns
open SeoPlatform.Foundation.UrlText
open SeoPlatform.Orchestrator.Planner
open SeoPlatform.Orchestrator.Store
open SeoPlatform.Orchestrator.StoreSpecs
open SeoPlatform.Orchestrator.Engine
open SeoPlatform.Orchestrator.AdvanceOutcomes
open SeoPlatform.Orchestrator.Snapshots
open SeoPlatform.Orchestrator.Workers
open SeoPlatform.Orchestrator.Changes
open SeoPlatform.Orchestrator.HandlerOutcomes
open SeoPlatform.Orchestrator.FlowView
open SeoPlatform.Orchestrator.Frames
open SeoPlatform.Orchestrator.Soundness
open SeoPlatform.Orchestrator.OwnRows
open SeoPlatform.Orchestrator.OwnTransactions
open SeoPlatform.Orchestrator.Plans
open SeoPlatform.Shared.Contracts
open SeoPlatform.Shared.Exceptions
open SeoPlatform.Shared.Events

/-- Whether a handler at a stage works for the tenant. Whose a completion or a finish is shows
in the tables only. -/
def works (tenant : Option String) (mine : String → Bool) (e : Option Envelope) : Stage → Bool
  | .starting => e.any fun e => e.tenantId = tenant
  | .creating r => r.tenantId = tenant
  | .rereading workflowId | .queued workflowId | .advancing workflowId _
  | .locked workflowId _ _ | .closing workflowId | .writing workflowId _ => mine workflowId
  | .completing | .summarising => true

/-- What the identifiers a handler carries say of whom it works for. -/
def Fit (tenant : Option String) (mine : String → Bool) : Stage → Prop
  | .creating r => r.tenantId = tenant ↔ mine r.workflowId = true
  | .locked workflowId _ loaded =>
      mine workflowId = true → ∀ w ∈ loaded, Own tenant workflowId w
  | _ => True

/-- Requests come to a handler under one of the tenant's identifiers where they are the
tenant's and only there, and the jobs drawn for the tenant are nobody's yet. -/
def ArrivesApart (tenant : Option String) (mine : String → Bool) (db : Db) (choice : Choice)
    (e : Option Envelope) : Stage → Prop
  | .starting => ∀ e' ∈ e,
      e'.tenantId = tenant ↔ mine (requestedId e'.payload choice.uuid) = true
  | .creating r => r.tenantId = tenant →
      ∀ row ∈ db.steps.rows, ∀ i, row.jobId ≠ choice.jobIds i
  | _ => True

/-- What a worker goes on with. -/
def nextJob (e : Option Envelope) : Next → Option (Option Envelope × Stage)
  | .goto stage => some (e, stage)
  | .returned | .raised => none

/-- On the tenant's tables a worker goes on with what it does for the tenant. -/
def GoesOn (tenant : Option String) (mine : String → Bool) (e : Option Envelope)
    (next next' : Next) : Prop :=
  nextJob e next' = (nextJob e next).filter fun j => works tenant mine j.1 j.2

variable {env : Env} {tenant : Option String} {mine : String → Bool}
variable {claim : Option (String × String)} {s s' : Db} {e : Option Envelope} {choice : Choice}
variable {stage : Stage} {next next' : Next} {workflowId : String}

theorem goesOn_of_same (h : ∀ stage, next = .goto stage → works tenant mine e stage = true) :
    GoesOn tenant mine e next next := by
  unfold GoesOn
  cases next with
  | goto stage =>
      have hworks := h stage rfl
      simp [nextJob, Option.filter_some, hworks]
  | returned | raised => rfl

theorem goesOn_of_left (h : ∀ stage, next = .goto stage → works tenant mine e stage = false)
    (h' : nextJob e next' = none) : GoesOn tenant mine e next next' := by
  unfold GoesOn
  rw [h']
  cases next with
  | goto stage => simp [nextJob, Option.filter_some, h stage rfl]
  | returned | raised => rfl

section Foreign

/-- What somebody else's work leaves of the tenant's part of the tables: all of it. -/
structure Untouched (tenant : Option String) (mine : String → Bool) (s s' : Db) : Prop where
  rows : ownRows tenant mine s' = ownRows tenant mine s
  sorted : Sorted tenant mine s'

theorem Untouched.trans {s'' : Db} (h : Untouched tenant mine s s')
    (h' : Untouched tenant mine s' s'') : Untouched tenant mine s s'' :=
  ⟨h'.rows.trans h.rows, h'.sorted⟩

theorem sorted_of_map {f : WorkflowRow → WorkflowRow} (h : Sorted tenant mine s)
    (hid : ∀ r, (f r).id = r.id) (htenant : ∀ r, (f r).tenantId = r.tenantId)
    (hrows : s'.workflows.rows = s.workflows.rows.map f) : Sorted tenant mine s' := by
  intro r' hr'
  rw [hrows] at hr'
  obtain ⟨r, hr, rfl⟩ := List.mem_map.mp hr'
  rw [hid, htenant]
  exact h r hr

theorem ownRows_stagedAll_of_other {subject : Subject} (h : subject.tenantId ≠ tenant)
    (events : List PendingEvent) (s : Db) :
    ownRows tenant mine (events.foldl (Db.staged subject) s) = ownRows tenant mine s := by
  induction events generalizing s with
  | nil => rfl
  | cons event rest ih => exact (ih _).trans (ownRows_staged_of_other s event h)

theorem untouched_statusWritten (hsorted : Sorted tenant mine s)
    (hthere : ∃ r ∈ s.workflows.rows, r.id = workflowId) (hother : mine workflowId = false)
    (status : WorkflowStatus) (report : Option Dict) (error : Option String)
    (events : List PendingEvent) :
    Untouched tenant mine s (statusWritten s workflowId status report error events) where
  rows := by
    obtain ⟨r, hr, rfl⟩ := hthere
    have htenant : r.tenantId ≠ tenant := fun h => by
      rw [(hsorted r hr).mp h] at hother
      contradiction
    refine (ownRows_stagedAll_of_other ?_ events _).trans
      (ownRows_updateWorkflow_of_other s status report error hother)
    rw [workflow?_updateWorkflow, workflow?_eq_some.mpr ⟨hr, rfl⟩]
    simpa using htenant
  sorted := sorted_of_map hsorted (withStatusWhere_id workflowId status report error s.clock)
    (withStatusWhere_tenantId workflowId status report error s.clock)
    (workflows_statusWritten s workflowId status report error events)

theorem untouched_updateStep (hsorted : Sorted tenant mine s) {r : StepRow}
    (hr : r ∈ s.steps.rows) (hother : mine r.workflowId = false) (status : StepStatus)
    (u : StepUpdate) : Untouched tenant mine s (s.updateStep r.jobId status u) where
  rows := by
    refine ownRows_updateStep_of_other status u fun r' hr' hjob => ?_
    rw [eq_of_jobId hr' hr hjob]
    exact hother
  sorted := hsorted

theorem untouched_of_finishes {eventId : String} {w : Workflow} {status : WorkflowStatus}
    {error : Option String} (hsorted : Sorted tenant mine s)
    (hthere : ∃ r ∈ s.workflows.rows, r.id = w.workflowId) (hother : mine w.workflowId = false)
    (h : Finishes env eventId w status error s s') : Untouched tenant mine s s' := by
  obtain ⟨previous, report, -, rfl⟩ := h
  exact untouched_statusWritten hsorted hthere hother _ _ _ _

theorem untouched_dispatched (hsorted : Sorted tenant mine s)
    (hthere : ∃ r ∈ s.workflows.rows, r.id = workflowId) (hother : mine workflowId = false)
    {r : StepRow} (hr : r ∈ s.steps.rows) (hworkflow : r.workflowId = workflowId)
    (event : PendingEvent) : Untouched tenant mine s (dispatched s workflowId r.toStep event) := by
  have hwritten :=
    untouched_statusWritten hsorted hthere hother .running none none [event]
  refine hwritten.trans (untouched_updateStep hwritten.sorted ?_ ?_ _ _)
  · rw [steps_statusWritten]
    exact hr
  · rw [hworkflow]
    exact hother

/-- An `advance` of somebody else's workflow. -/
theorem untouched_of_advances {eventId : String} {w : Workflow} (hsorted : Sorted tenant mine s)
    (hw : snapshot s workflowId = some w) (hother : mine workflowId = false)
    (h : Advances env eventId workflowId w s s') : Untouched tenant mine s s' := by
  obtain ⟨row, hrow, hid, -⟩ := snapshot_eq_some.mp hw
  have hthere : ∃ r ∈ s.workflows.rows, r.id = workflowId := ⟨row, hrow, hid⟩
  have hwid := workflowId_of_snapshot hw
  have hthere' : ∃ r ∈ s.workflows.rows, r.id = w.workflowId := hwid ▸ hthere
  have hother' : mine w.workflowId = false := hwid ▸ hother
  cases h with
  | fatal _ hfinish => exact untouched_of_finishes hsorted hthere' hother' hfinish
  | done _ _ hfinish => exact untouched_of_finishes hsorted hthere' hother' hfinish
  | refused _ _ _ _ hfinish => exact untouched_of_finishes hsorted hthere' hother' hfinish
  | sent _ hnext _ =>
      obtain ⟨r, hr, hworkflow, rfl⟩ :=
        (mem_steps_of_snapshot hw).mp (nextPending_eq_some hnext).1
      exact untouched_dispatched hsorted hthere hother hr hworkflow _
  | @skipped _ step reason after _ hnext _ hafter hpast =>
      obtain ⟨r, hr, hworkflow, rfl⟩ :=
        (mem_steps_of_snapshot hw).mp (nextPending_eq_some hnext).1
      have hskip : Untouched tenant mine s (skipped s r.toStep reason) :=
        untouched_updateStep hsorted hr (hworkflow ▸ hother) _ _
      have hafterId := workflowId_of_snapshot hafter
      refine hskip.trans ?_
      cases hpast with
      | done _ hfinish =>
          exact untouched_of_finishes hskip.sorted (hafterId ▸ hthere) (hafterId ▸ hother) hfinish
      | refused _ _ hfinish =>
          exact untouched_of_finishes hskip.sorted (hafterId ▸ hthere) (hafterId ▸ hother) hfinish
      | sent hnext' _ =>
          obtain ⟨r', hr', hworkflow', rfl⟩ :=
            (mem_steps_of_snapshot hafter).mp (nextPending_eq_some hnext').1
          exact untouched_dispatched hskip.sorted hthere hother hr' hworkflow' _

theorem untouched_of_created {r : StartRequest} {steps : List PlannedStep}
    (hsorted : Sorted tenant mine s) (htenant : r.tenantId ≠ tenant)
    (hother : mine r.workflowId = false)
    (h : Created r.workflowId r.goal r.inputs steps r.tenantId r.projectId s s') :
    Untouched tenant mine s s' where
  rows := by
    refine ext_db ?_ ?_ (by simp only [ownRows, h.outbox]) h.clock
    · simp only [ownRows, rows_delete_not, h.workflows, List.filter_append]
      simp [queuedRow, hother]
    · simp only [ownRows, rows_delete_not, h.steps, List.filter_append]
      have hnone : (steps.map (plannedRow r.workflowId)).filter (fun row => mine row.workflowId) =
          [] := by
        refine List.filter_eq_nil_iff.mpr fun row hrow => ?_
        obtain ⟨p, -, rfl⟩ := List.mem_map.mp hrow
        simp [plannedRow, hother]
      rw [hnone, List.append_nil]
  sorted := by
    intro row hrow
    rw [h.workflows] at hrow
    rcases List.mem_append.mp hrow with hold | hnew
    · exact hsorted row hold
    · rw [List.mem_singleton.mp hnew]
      simp [queuedRow, htenant, hother]

/-- The next transaction of a handler that works for somebody else. -/
theorem foreign_of_outcome (hsorted : Sorted tenant mine s) (hfit : Fit tenant mine stage)
    (hok : StageOk .any s e stage) (hforeign : works tenant mine e stage = false)
    (h : Outcome env s e choice stage next s') :
    Untouched tenant mine s s' ∧
      ∀ stage', next = .goto stage' → works tenant mine e stage' = false := by
  have hsame : Untouched tenant mine s s := ⟨rfl, hsorted⟩
  cases h with
  | raised => exact ⟨hsame, by simp⟩
  | known he _ => exact ⟨hsame, by simp⟩
  | @requested e' he _ =>
      subst he
      refine ⟨hsame, ?_⟩
      rintro _ ⟨⟩
      exact hforeign
  | @created request _ _ _ hcreated =>
      have htenant : request.tenantId ≠ tenant := by simpa [works] using hforeign
      have hother : mine request.workflowId = false := by
        cases hmine : mine request.workflowId with
        | false => rfl
        | true => exact absurd (hfit.mpr hmine) htenant
      refine ⟨untouched_of_created hsorted htenant hother hcreated, ?_⟩
      rintro _ ⟨⟩
      exact hother
  | reread =>
      refine ⟨hsame, ?_⟩
      rintro _ ⟨⟩
      exact hforeign
  | begun =>
      obtain ⟨row, hrow, hid, -⟩ := hok
      refine ⟨untouched_statusWritten hsorted ⟨row, hrow, hid⟩ hforeign _ _ _ _, ?_⟩
      rintro _ ⟨⟩
      exact hforeign
  | marked _ _ => simp [works] at hforeign
  | claimed =>
      refine ⟨hsame, ?_⟩
      rintro _ ⟨⟩
      exact hforeign
  | @waited workflowId fresh loaded hidle =>
      refine ⟨hsame, fun stage' hgoto => ?_⟩
      rw [closing_of_afterwards hgoto]
      exact hforeign
  | @advanced workflowId fresh w _ hact hadvances =>
      refine ⟨untouched_of_advances hsorted (hok.2 w rfl hact) hforeign hadvances, ?_⟩
      intro stage' hgoto
      rw [closing_of_afterwards hgoto]
      exact hforeign
  | closed => exact ⟨hsame, by simp⟩
  | unwritten => exact ⟨hsame, by simp⟩
  | written => simp [works] at hforeign
  | @saved workflowId summary =>
      refine ⟨⟨ownRows_updateSummary_of_other s summary hforeign, ?_⟩, by simp⟩
      exact sorted_of_map hsorted (fun r => withSummary_id r workflowId summary s.clock)
        (withSummary_tenantId workflowId summary s.clock) rfl

end Foreign

/-- The identifiers a handler goes on with fit whom it works for. -/
theorem fit_of_outcome (hsorted : Sorted tenant mine s)
    (hapart : ArrivesApart tenant mine s choice e stage)
    (h : Outcome env s e choice stage next s') {stage' : Stage} (hgoto : next = .goto stage') :
    Fit tenant mine stage' := by
  cases h with
  | raised | known | closed | unwritten | saved => simp at hgoto
  | @requested e' he _ =>
      cases hgoto
      exact hapart e' he
  | created | reread | begun | written =>
      cases hgoto
      trivial
  | marked _ _ =>
      obtain ⟨workflowId, -, rfl⟩ := advancing_of_afterMark hgoto
      trivial
  | @claimed workflowId fresh =>
      cases hgoto
      intro hmine w hw
      obtain ⟨row, hrow, rfl, rfl⟩ := snapshot_eq_some.mp hw
      exact ⟨rfl, (hsorted row hrow).mpr hmine⟩
  | waited _ | advanced _ _ =>
      rw [closing_of_afterwards hgoto]
      trivial

section Kept

/-- What a handler's next transaction comes to, on the tables and on the tenant's part of them. -/
structure Together (tenant : Option String) (mine : String → Bool) (e : Option Envelope)
    (whole own : Next × Db) : Prop where
  tables : Mirrors tenant mine none whole.2 own.2
  goesOn : GoesOn tenant mine e whole.1 own.1

theorem Mirrors.unclaimed (h : Mirrors tenant mine claim s s') :
    Mirrors tenant mine none s s' :=
  ⟨h.own, h.sorted, by simp⟩

theorem after_together {α : Type} {R : Db → Db → Prop} {V : α → α → Prop} {p : StoreTx α}
    (hR : ∀ s s', R s s' → Mirrors tenant mine none s s') (hp : Follows R p p V)
    (hst : R s s') {then_ : α → Next}
    (hnext : ∀ a b, V a b → GoesOn tenant mine e (then_ a) (then_ b)) :
    Together tenant mine e (after (transaction p choice.faults s) then_)
      (after (transaction p choice.faults s') then_) := by
  obtain ⟨hvalues, hafter⟩ := transaction_follows hp choice.faults hst
  rcases hrun : transaction p choice.faults s with ⟨r, d⟩
  rcases hrun' : transaction p choice.faults s' with ⟨r', d'⟩
  rw [hrun, hrun'] at hvalues hafter
  cases hvalues with
  | ok hvalue => exact ⟨hR _ _ hafter, hnext _ _ hvalue⟩
  | error err =>
      have hraised : GoesOn tenant mine e .raised .raised := goesOn_of_same (by simp)
      exact ⟨hR _ _ hafter, hraised⟩

theorem goesOn_returned : GoesOn tenant mine e .returned .returned := goesOn_of_same (by simp)

theorem goesOn_raised : GoesOn tenant mine e .raised .raised := goesOn_of_same (by simp)

theorem goesOn_goto (h : works tenant mine e stage = true) :
    GoesOn tenant mine e (.goto stage) (.goto stage) := by
  refine goesOn_of_same ?_
  rintro _ ⟨⟩
  exact h

theorem startGuard_together {e' : Envelope} (h : Mirrors tenant mine none s s')
    (htenant : e'.tenantId = tenant)
    (hmine : mine (requestedId e'.payload choice.uuid) = true) :
    Together tenant mine (some e') (startGuard env s e' choice)
      (startGuard env s' e' choice) := by
  unfold startGuard
  cases validateEvent env.wording .workflowRequested e'.payload with
  | error err => exact ⟨h, goesOn_raised⟩
  | ok u =>
      refine after_together (fun _ _ h => h) (load_follows hmine) h ?_
      rintro _ found ⟨rfl, -⟩
      split
      · exact goesOn_returned
      · exact goesOn_goto (decide_eq_true htenant)

theorem jobId_of_rivalSteps {pages : Int} {jobIds : Nat → String} {position : Nat}
    {urls : List String} {p : PlannedStep} (h : p ∈ rivalSteps pages jobIds position urls) :
    p.jobId = jobIds p.position := by
  induction urls generalizing position with
  | nil => exact absurd h List.not_mem_nil
  | cons url rest ih =>
      rcases List.mem_cons.mp h with rfl | hrest
      · rfl
      · exact ih hrest

/-- The jobs of a plan are the ones drawn for it. -/
theorem jobId_of_plan {rules : TextRules} {goal : String} {inputs : Inputs}
    {jobIds : Nat → String} {steps : List PlannedStep}
    (h : plan rules goal inputs jobIds = .ok steps) {p : PlannedStep} (hp : p ∈ steps) :
    p.jobId = jobIds p.position := by
  obtain ⟨-, -, rivals, -, rfl⟩ := plan_ok h
  rcases List.mem_append.mp hp with hp | hcheck
  · rcases List.mem_append.mp hp with hown | hrival
    · simp only [ownSteps, List.mem_cons, List.not_mem_nil, or_false] at hown
      rcases hown with rfl | rfl | rfl | rfl | rfl | rfl <;> rfl
    · exact jobId_of_rivalSteps hrival
  · unfold checkStep at hcheck
    split at hcheck
    · exact absurd hcheck List.not_mem_nil
    · rw [List.mem_singleton.mp hcheck]

theorem startCreate_together {r : StartRequest} (h : Mirrors tenant mine none s s')
    (htenant : r.tenantId = tenant) (hmine : mine r.workflowId = true)
    (hjobs : ∀ row ∈ s.steps.rows, ∀ i, row.jobId ≠ choice.jobIds i) :
    Together tenant mine e (startCreate env s r choice) (startCreate env s' r choice) := by
  unfold startCreate
  cases hplan : plan env.rules r.goal r.inputs choice.jobIds with
  | error err => exact ⟨h, goesOn_raised⟩
  | ok steps =>
      have hunshared : Unshared mine (steps.map PlannedStep.jobId) s := by
        intro row hrow hmem
        obtain ⟨p, hp, hjob⟩ := List.mem_map.mp hmem
        exact absurd (hjob.symm.trans (jobId_of_plan hplan hp)) (hjobs row hrow p.position)
      have hcreate : Follows (Enrolls tenant mine (steps.map PlannedStep.jobId))
          (create r.workflowId r.goal r.inputs steps r.tenantId r.projectId)
          (create r.workflowId r.goal r.inputs steps r.tenantId r.projectId)
          (Same fun _ => True) :=
        htenant ▸ create_follows hmine _ _ _ _ fun p hp => List.mem_map_of_mem hp
      refine after_together (fun _ _ h => h.toMirrors) hcreate ⟨h, hunshared⟩ fun _ _ _ => ?_
      exact goesOn_goto hmine

theorem complete_together {e' : Envelope} (h : Mirrors tenant mine none s s') :
    Together tenant mine e (complete env s e' choice) (complete env s' e' choice) := by
  unfold complete
  cases readCompletion env e'.type e'.payload with
  | error err => exact ⟨h, goesOn_raised⟩
  | ok c =>
      refine after_together (fun _ _ h => h) (markStep_follows _ _ _ _) h ?_
      rintro hit _ rfl
      cases hit with
      | none => exact goesOn_returned
      | some workflowId =>
          cases hmine : mine workflowId with
          | true =>
              rw [Option.filter_some_pos hmine]
              exact goesOn_goto hmine
          | false =>
              rw [Option.filter_some_neg hmine]
              refine goesOn_of_left ?_ rfl
              rintro _ ⟨⟩
              exact hmine

theorem stage_of_rewrite {found : Option Workflow} {stage : Stage}
    (h : rewriteSummary workflowId found choice = .goto stage) :
    ∃ summary, stage = .writing workflowId summary := by
  unfold rewriteSummary at h
  split at h
  · contradiction
  · split at h
    · contradiction
    · contradiction
    · split at h
      · contradiction
      · split at h
        · cases h
          exact ⟨_, rfl⟩
        · contradiction

/-- Reading a finish back changes nothing, and ends at the summary of a workflow that is there
or nowhere. -/
theorem reads_summary (db : Db) (choice : Choice) (workflowId : String) :
    ∃ next, (after (transaction (load workflowId) choice.faults db) fun found =>
        rewriteSummary workflowId found choice) = (next, db) ∧
      ∀ stage, next = .goto stage →
        (snapshot db workflowId).isSome ∧ ∃ summary, stage = .writing workflowId summary := by
  rcases after_transaction (load_meets workflowId) (load_firm workflowId).clean choice.faults db
      (fun found => rewriteSummary workflowId found choice) with hrun | ⟨found, d, hrun, rfl, rfl⟩
  · exact ⟨.raised, hrun, by simp⟩
  · refine ⟨_, hrun, fun stage hgoto => ⟨?_, stage_of_rewrite hgoto⟩⟩
    cases hfound : snapshot d workflowId with
    | none =>
        rw [hfound] at hgoto
        contradiction
    | some w => rfl

/-- The finish of somebody else's workflow is none on the tenant's tables. -/
theorem summary_left (h : Mirrors tenant mine none s s') (hother : mine workflowId = false) :
    Together tenant mine e
      (after (transaction (load workflowId) choice.faults s) fun found =>
        rewriteSummary workflowId found choice)
      (after (transaction (load workflowId) choice.faults s') fun found =>
        rewriteSummary workflowId found choice) := by
  have hnone : snapshot s' workflowId = none := by
    cases hfound : snapshot s' workflowId with
    | none => rfl
    | some w =>
        obtain ⟨row, hrow, rfl, -⟩ := snapshot_eq_some.mp hfound
        rw [h.own] at hrow
        have hmine := (Table.mem_delete.mp hrow).2
        simp [hother] at hmine
  obtain ⟨next, hrun, hstages⟩ := reads_summary s choice workflowId
  obtain ⟨next', hrun', hstages'⟩ := reads_summary s' choice workflowId
  rw [hrun, hrun']
  refine ⟨h, goesOn_of_left ?_ ?_⟩
  · intro stage hgoto
    obtain ⟨-, summary, rfl⟩ := hstages stage hgoto
    exact hother
  · dsimp only
    cases next' with
    | goto stage' =>
        have hthere := (hstages' stage' rfl).1
        rw [hnone] at hthere
        contradiction
    | returned | raised => rfl

theorem summarise_together {e' : Envelope} (h : Mirrors tenant mine none s s') :
    Together tenant mine e (summarise s e' choice) (summarise s' e' choice) := by
  unfold summarise
  dsimp only
  split
  · split
    · rename_i workflowId _
      cases hmine : mine workflowId with
      | false => exact summary_left h hmine
      | true =>
          refine after_together (fun _ _ h => h) (load_follows hmine) h ?_
          rintro _ found ⟨rfl, -⟩
          refine goesOn_of_same fun stage hgoto => ?_
          obtain ⟨summary, rfl⟩ := stage_of_rewrite hgoto
          exact hmine
    · exact ⟨h, goesOn_raised⟩
  · exact ⟨h, goesOn_returned⟩

variable (env) in
/-- The next transaction of a handler that works for the tenant is the same on the tenant's
part of the tables. -/
theorem handlerStep_together (h : Mirrors tenant mine none s s') (hfit : Fit tenant mine stage)
    (hok : StageOk .any s e stage) (hapart : ArrivesApart tenant mine s choice e stage)
    (hfresh : stage.drawsEventId = true → freshEventId s choice.eventId = true)
    (hworks : works tenant mine e stage = true) :
    Together tenant mine e (handlerStep env s e choice stage)
      (handlerStep env s' e choice stage) := by
  cases stage with
  | starting =>
      cases e with
      | none => contradiction
      | some e' =>
          have htenant : e'.tenantId = tenant := of_decide_eq_true hworks
          exact startGuard_together h htenant ((hapart e' rfl).mp htenant)
  | creating r =>
      have htenant : r.tenantId = tenant := of_decide_eq_true hworks
      exact startCreate_together h htenant (hfit.mp htenant) (hapart htenant)
  | rereading workflowId =>
      exact after_together (fun _ _ h => h) (load_follows hworks) h fun _ _ _ =>
        goesOn_goto hworks
  | queued workflowId =>
      exact after_together (fun _ _ h => h) (setStatus_follows_of_silent hworks _ _ _) h
        fun _ _ _ => goesOn_goto hworks
  | completing =>
      cases e with
      | none => exact ⟨h, goesOn_raised⟩
      | some e' => exact complete_together h
  | advancing workflowId fresh =>
      have hclaims : Follows (Mirrors tenant mine none) (claimAndLoad workflowId)
          (claimAndLoad workflowId) (Same fun found => ∀ w ∈ found, Own tenant workflowId w) :=
        claimAndLoad_follows hworks
      obtain ⟨hvalues, -⟩ := hclaims (.opened s choice.faults) (.opened s' choice.faults)
        ⟨h, rfl, rfl⟩
      simp only [handlerStep]
      generalize ((claimAndLoad workflowId).run (.opened s choice.faults)).1 = r at hvalues ⊢
      generalize ((claimAndLoad workflowId).run (.opened s' choice.faults)).1 = r' at hvalues ⊢
      cases hvalues with
      | error err => exact ⟨h, goesOn_raised⟩
      | @ok found found' hsame =>
          obtain ⟨rfl, -⟩ := hsame
          exact ⟨h, goesOn_goto hworks⟩
  | locked workflowId fresh loaded =>
      obtain ⟨⟨row, hrow, hid, -⟩, -⟩ := hok
      have hnew := List.all_eq_true.mp (hfresh rfl)
      have hclaim : Mirrors tenant mine (some (workflowId, choice.eventId)) s s' := by
        refine ⟨h.own, h.sorted, ?_⟩
        rintro c ⟨⟩
        refine ⟨⟨row, hrow, hid, (h.sorted row hrow).mpr (hid ▸ hworks)⟩, fun o ho hsame => ?_⟩
        exact absurd hsame (of_decide_eq_true (hnew o ho))
      refine after_together (fun _ _ h => Mirrors.unclaimed h)
        (advanceLoaded_follows hworks (hfit hworks)) hclaim fun _ _ _ => ?_
      refine goesOn_of_same fun stage' hgoto => ?_
      rw [closing_of_afterwards hgoto]
      exact hworks
  | closing workflowId =>
      exact after_together (fun _ _ h => h) (load_follows hworks) h fun _ _ _ => goesOn_returned
  | summarising =>
      cases e with
      | none => exact ⟨h, goesOn_raised⟩
      | some e' => exact summarise_together h
  | writing workflowId summary =>
      exact after_together (fun _ _ h => h) (saveSummary_follows hworks summary) h
        fun _ _ _ => goesOn_returned

end Kept

end SeoPlatform.Orchestrator.OwnHandlers
