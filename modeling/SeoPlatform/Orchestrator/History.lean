import SeoPlatform.Orchestrator.Snapshots
import SeoPlatform.Orchestrator.Workers

namespace SeoPlatform.Orchestrator.History

open SeoPlatform.Foundation.JsonValue
open SeoPlatform.Foundation.SqlTransaction
open SeoPlatform.Orchestrator.Planner
open SeoPlatform.Orchestrator.Store
open SeoPlatform.Orchestrator.StoreSpecs
open SeoPlatform.Orchestrator.Engine
open SeoPlatform.Orchestrator.AdvanceOutcomes
open SeoPlatform.Orchestrator.Snapshots
open SeoPlatform.Shared.Contracts
open SeoPlatform.Shared.Exceptions
open SeoPlatform.Shared.Events

/-- A workflow under way, none of whose steps is left to do or to wait for. -/
structure LastStepDone (w : Workflow) : Prop where
  live : ¬ w.status.Terminal
  sound : fatalSteps w = []
  idle : ∀ s ∈ w.steps, s.status ≠ .dispatched
  last : w.nextPending = none

/-- The workflow is completed, its report is stored and its announcement is
staged. -/
def FinishCommitted (db : Db) (workflowId : String) : Prop :=
  (∃ row ∈ db.workflows.rows, row.id = workflowId ∧ row.status = .completed ∧
    row.report.isSome) ∧
  ∃ o ∈ db.outbox.rows, o.eventType = .workflowCompleted ∧ o.correlationId = some workflowId

abbrev Connection := Session Db Exn

variable {env : Env} {eventId : String} {w : Workflow} {x y z : Connection} {e : Exn}

theorem writeStatus_raises_of_aborted (workflowId : String) (status : WorkflowStatus)
    (report : Option Dict) (error : Option String) (events : List PendingEvent)
    (h : x.aborted = true) :
    ∃ e y, Raises (writeStatus workflowId status report error events) x e y :=
  ⟨_, _, bind_raises.mpr (.inl (statement_raises_of_aborted _ h))⟩

theorem setStatus_raises_of_aborted (workflowId : String) (status : WorkflowStatus)
    (report : Option Dict) (error : Option String) (events : List PendingEvent)
    (h : x.aborted = true) :
    ∃ e y, Raises (setStatus workflowId status report error events) x e y := by
  obtain ⟨e, y, hraises⟩ := writeStatus_raises_of_aborted workflowId status report error events h
  exact ⟨e, y, bind_raises.mpr (.inl hraises)⟩

/-- The failed read is caught, on the connection as it left it. -/
theorem previousOrNone_returns (h : Raises (previousCompleted w) x e y) :
    Returns (previousOrNone w .completed) x none y := by
  unfold previousOrNone
  rw [if_pos rfl]
  exact tryCatch_returns.mpr (.inr ⟨e, y, h, pure_returns.mpr ⟨rfl, rfl⟩⟩)

/-- The status that follows the failed read is never written. -/
theorem finish_raises (env : Env) (eventId : String) (h : Raises (previousCompleted w) x e y) :
    ∃ e' z, Raises (finish env eventId w .completed none) x e' z := by
  have haborted := previousCompleted_raisesOnlySql w x e y h
  cases hreport : reportOf env w .completed none (stepEntries w) none with
  | error err =>
      refine ⟨err, y, bind_raises.mpr (.inr ⟨none, y, previousOrNone_returns h, ?_⟩)⟩
      refine bind_raises.mpr (.inl ?_)
      simp only [hreport]
      rfl
  | ok report =>
      obtain ⟨e', z, hwrite⟩ := setStatus_raises_of_aborted w.workflowId .completed (some report)
        none (completedEvents env eventId w
          (completedPayload w .completed none (stepEntries w) report)) haborted
      refine ⟨e', z, bind_raises.mpr (.inr ⟨none, y, previousOrNone_returns h, ?_⟩)⟩
      refine bind_raises.mpr (.inr ⟨report, y, ?_, bind_raises.mpr (.inl hwrite)⟩)
      exact fromExcept_returns.mpr ⟨hreport, rfl⟩

/-- Where no step is left, `advance` does nothing but finish. -/
theorem advanceLoaded_eq_finish (env : Env) (eventId workflowId : String) (h : LastStepDone w) :
    advanceLoaded env eventId workflowId (some w) = finish env eventId w .completed none := by
  have hidle : w.steps.any (fun s => s.status = .dispatched) = false := by
    simpa using h.idle
  simp [advanceLoaded, h.live, h.sound, hidle, h.last]

theorem snapshot_of_claim {workflowId : String} {db : Db} {faults : List (Option Exn)}
    {loaded : Option Workflow}
    (h : Returns (claimAndLoad workflowId) (.opened db faults) loaded x) :
    loaded = snapshot db workflowId := by
  have hfirm : x.aborted = false :=
    (bind_firm fun _ => load_firm workflowId : Firm (claimAndLoad workflowId)) _ _ _ h
  exact (claimAndLoad_meets workflowId _ _ _ h hfirm).2.2

/-- A previous run that cannot be read loses the finish: whatever the error and
whatever the workflow, the transaction rolls back. -/
theorem finish_lost_with_history (env : Env) (eventId workflowId : String) (db : Db)
    (faults : List (Option Exn))
    (hclaim : Returns (claimAndLoad workflowId) (.opened db faults) (some w) x)
    (hlast : LastStepDone w) (hfailed : Raises (previousCompleted w) x e y) :
    (∃ e', transaction (advance env eventId workflowId) faults db = (.error e', db)) ∧
      ¬ FinishCommitted (transaction (advance env eventId workflowId) faults db).2
        workflowId := by
  obtain ⟨e', z, hfinish⟩ := finish_raises env eventId hfailed
  have hadvance : Raises (advance env eventId workflowId) (.opened db faults) e' z := by
    refine bind_raises.mpr (.inr ⟨some w, x, hclaim, ?_⟩)
    rwa [advanceLoaded_eq_finish env eventId workflowId hlast]
  have hrun := transaction_raises hadvance
  refine ⟨⟨e', hrun⟩, ?_⟩
  rw [hrun]
  rintro ⟨⟨row, hrow, hid, hcompleted, -⟩, -⟩
  obtain ⟨own, hown, hid', rfl⟩ := snapshot_eq_some.mp (snapshot_of_claim hclaim).symm
  rw [eq_of_id hrow hown (hid.trans hid'.symm)] at hcompleted
  refine hlast.live ?_
  change own.status.Terminal
  rw [hcompleted]
  trivial

/-- A step of the audit "w" that came back. -/
def doneRow (position : Nat) (kind : StepKind) : StepRow where
  position := position
  kind := kind
  jobId := "job-" ++ toString position
  status := .completed
  error := none
  result := some [("result_url", .str "/v1/jobs")]
  params := []
  workflowId := "w"

/-- An audit whose six steps came back, about to be finished. -/
def doneAudit : Db where
  workflows :=
    { rows := [{
        id := "w"
        tenantId := some "t"
        projectId := some "p"
        goal := "site_audit"
        inputs := Workers.oneSite
        status := .running
        error := none
        report := none
        createdAt := 0
        updatedAt := 0 }]
      apart := List.pairwise_singleton _ _ }
  steps :=
    { rows := [doneRow 1 .crawl, doneRow 2 .keywordResearch, doneRow 3 .serpCheck,
        doneRow 4 .linkAnalysis, doneRow 5 .contentAnalysis, doneRow 6 .optimizerPlan]
      apart := by decide +kernel }
  outbox := .empty
  clock := 0

/-- The server takes the lock and reads the workflow, and then cancels the read
of the previous run. -/
def cancelled : List (Option Exn) :=
  [none, none, none,
    some (.database "QueryCanceled" "canceling statement due to statement timeout")]

theorem doneAudit_claimed : ∃ w x e y,
    Returns (claimAndLoad "w") (.opened doneAudit cancelled) (some w) x ∧ LastStepDone w ∧
      Raises (previousCompleted w) x e y := by
  refine ⟨_, _, _, _, rfl, ⟨?_, ?_, ?_, ?_⟩, rfl⟩
  · decide +kernel
  · rfl
  · decide +kernel
  · rfl

/-- The finish of an audit, lost with the read of its previous run. -/
theorem finish_lost_with_history_cancelled :
    (∃ e', transaction (advance Workers.asciiEnv "e" "w") cancelled doneAudit =
      (.error e', doneAudit)) ∧
    ¬ FinishCommitted (transaction (advance Workers.asciiEnv "e" "w") cancelled doneAudit).2
      "w" := by
  obtain ⟨w, x, e, y, hclaim, hlast, hfailed⟩ := doneAudit_claimed
  exact finish_lost_with_history Workers.asciiEnv "e" "w" doneAudit cancelled hclaim hlast hfailed

/-- A finish does not always commit when the look at the history fails. -/
theorem finish_not_kept_with_history : ¬ ∀ (env : Env) (eventId workflowId : String) (db : Db)
    (faults : List (Option Exn)) (w : Workflow) (x y : Connection) (e : Exn),
    Returns (claimAndLoad workflowId) (.opened db faults) (some w) x → LastStepDone w →
      Raises (previousCompleted w) x e y →
        FinishCommitted (transaction (advance env eventId workflowId) faults db).2
          workflowId := by
  intro hclaim
  obtain ⟨w, x, e, y, hreturns, hlast, hfailed⟩ := doneAudit_claimed
  obtain ⟨⟨row, hrow, -, hcompleted, -⟩, -⟩ :=
    hclaim Workers.asciiEnv "e" "w" doneAudit cancelled w x y e hreturns hlast hfailed
  have hrunning : (transaction (advance Workers.asciiEnv "e" "w") cancelled
      doneAudit).2.workflows.rows.all (fun row => row.status ≠ .completed) = true := by
    decide +kernel
  exact absurd hcompleted (by simpa using List.all_eq_true.mp hrunning row hrow)

end SeoPlatform.Orchestrator.History
