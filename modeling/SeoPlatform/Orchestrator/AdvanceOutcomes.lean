import SeoPlatform.Orchestrator.Engine
import SeoPlatform.Orchestrator.StoreSpecs

namespace SeoPlatform.Orchestrator.AdvanceOutcomes

open SeoPlatform.Foundation.JsonValue
open SeoPlatform.Foundation.SqlTransaction
open SeoPlatform.Orchestrator.Store
open SeoPlatform.Orchestrator.StoreSpecs
open SeoPlatform.Orchestrator.Engine
open SeoPlatform.Shared.Exceptions
open SeoPlatform.Shared.Events

/-- The tables after a finish that committed. -/
def Finishes (env : Env) (eventId : String) (workflow : Workflow) (status : WorkflowStatus)
    (error : Option String) (s s' : Db) : Prop :=
  ∃ previous report,
    reportOf env workflow status error (stepEntries workflow) previous = .ok report ∧
    s' = statusWritten s workflow.workflowId status (some report) error
      (completedEvents env eventId workflow
        (completedPayload workflow status error (stepEntries workflow) report))

/-- The tables after a dispatch that committed. -/
def dispatched (s : Db) (workflowId : String) (step : Step) (event : PendingEvent) : Db :=
  (statusWritten s workflowId .running none none [event]).updateStep step.jobId .pending
    ⟨.dispatched, none, none⟩

def skipped (s : Db) (step : Step) (reason : String) : Db :=
  s.updateStep step.jobId .pending ⟨.skipped, none, some (some reason)⟩

/-- How `advance` goes on past a step it skipped. -/
inductive AdvancesPast (env : Env) (eventId workflowId : String) (workflow : Workflow)
    (s : Db) : Db → Prop
  | done {s' : Db} (hnext : workflow.nextPending = none)
      (hfinish : Finishes env eventId workflow .completed none s s') :
      AdvancesPast env eventId workflowId workflow s s'
  | sent {step : Step} {event : PendingEvent} (hnext : workflow.nextPending = some step)
      (hevent : dispatchEvent env eventId workflow step = .ok event) :
      AdvancesPast env eventId workflowId workflow s (dispatched s workflowId step event)
  | refused {s' : Db} {step : Step} {e : Exn} (hnext : workflow.nextPending = some step)
      (hevent : dispatchEvent env eventId workflow step = .error e)
      (hfinish : Finishes env eventId workflow .failed (some e.described) s s') :
      AdvancesPast env eventId workflowId workflow s s'

/-- A workflow on which `advance` acts: open, and waiting for nothing. -/
structure Actionable (workflow : Workflow) : Prop where
  live : ¬ workflow.status.Terminal
  idle : fatalSteps workflow = [] → ∀ s ∈ workflow.steps, s.status ≠ .dispatched

/-- Every way an `advance` that commits changes the tables. -/
inductive Advances (env : Env) (eventId workflowId : String) (workflow : Workflow)
    (s : Db) : Db → Prop
  | fatal {s' : Db} (hfatal : fatalSteps workflow ≠ [])
      (hfinish : Finishes env eventId workflow .failed (some (firstError (fatalSteps workflow)))
        s s') :
      Advances env eventId workflowId workflow s s'
  | done {s' : Db} (hsound : fatalSteps workflow = []) (hnext : workflow.nextPending = none)
      (hfinish : Finishes env eventId workflow .completed none s s') :
      Advances env eventId workflowId workflow s s'
  | sent {step : Step} {event : PendingEvent} (hsound : fatalSteps workflow = [])
      (hnext : workflow.nextPending = some step)
      (hevent : dispatchEvent env eventId workflow step = .ok event) :
      Advances env eventId workflowId workflow s (dispatched s workflowId step event)
  | skipped {s' : Db} {step : Step} {reason : String} {after : Workflow}
      (hsound : fatalSteps workflow = []) (hnext : workflow.nextPending = some step)
      (hevent : dispatchEvent env eventId workflow step = .error (.noWorkToDo reason))
      (hafter : snapshot (AdvanceOutcomes.skipped s step reason) workflowId = some after)
      (hpast : AdvancesPast env eventId workflowId after
        (AdvanceOutcomes.skipped s step reason) s') :
      Advances env eventId workflowId workflow s s'
  | refused {s' : Db} {step : Step} {e : Exn} (hsound : fatalSteps workflow = [])
      (hnext : workflow.nextPending = some step)
      (hevent : dispatchEvent env eventId workflow step = .error e)
      (hfault : ∀ reason, e ≠ .noWorkToDo reason)
      (hfinish : Finishes env eventId workflow .failed (some e.described) s s') :
      Advances env eventId workflowId workflow s s'

theorem previousOrNone_meets (workflow : Workflow) (status : WorkflowStatus) :
    Meets (previousOrNone workflow status) fun s _ s' => s' = s := by
  unfold previousOrNone
  split
  · exact tryCatch_meets (previousCompleted_raisesOnlySql workflow)
      (previousCompleted_meets workflow) fun _ => pure_meets _
  · exact (pure_meets _).mono fun _ _ _ h => h.2

theorem finish_meets (env : Env) (eventId : String) (workflow : Workflow)
    (status : WorkflowStatus) (error : Option String) :
    Meets (finish env eventId workflow status error) fun s _ s' =>
      Finishes env eventId workflow status error s s' := by
  refine (bind_meets (previousOrNone_meets _ _) fun previous =>
    bind_meets (fromExcept_meets _) fun report =>
      bind_meets (setStatus_meets _ _ _ _ _) fun _ => pure_meets ()).mono ?_
  rintro s a s' ⟨previous, s₁, rfl, report, s₂, ⟨hreport, rfl⟩, _, s₃, rfl, -, rfl⟩
  exact ⟨previous, report, hreport, rfl⟩

/-- A finish that returns has written its status: reading the previous run may
have been swallowed, the write may not. -/
theorem finish_firm (env : Env) (eventId : String) (workflow : Workflow)
    (status : WorkflowStatus) (error : Option String) :
    Firm (finish env eventId workflow status error) :=
  bind_firm fun _ => bind_firm fun _ => (setStatus_firm _ _ _ _ _).bind fun _ => pure_clean ()

theorem dispatch_firm (workflowId : String) (step : Step) (event : PendingEvent) :
    Firm (dispatch workflowId step event) :=
  bind_firm fun _ => modify_firm _

theorem dispatch_meets (workflowId : String) (step : Step) (event : PendingEvent) :
    Meets (dispatch workflowId step event) fun s _ s' =>
      s' = dispatched s workflowId step event := by
  refine (bind_meets (setStatus_meets _ _ _ _ _) fun _ => markDispatched_meets _).mono ?_
  rintro s a s' ⟨_, s₁, rfl, rfl⟩
  rfl

theorem advancePastSkipped_meets (env : Env) (eventId workflowId : String) :
    Meets (advancePastSkipped env eventId workflowId) fun s _ s' =>
      ∃ after, snapshot s workflowId = some after ∧
        AdvancesPast env eventId workflowId after s s' := by
  unfold advancePastSkipped
  refine (bind_meets (load_meets workflowId)
    (S := fun loaded s _ s' => ∃ after, loaded = some after ∧
      AdvancesPast env eventId workflowId after s s') fun loaded => ?_).mono ?_
  · cases loaded with
    | none => exact throw_meets _ _
    | some after =>
        dsimp only
        cases hnext : after.nextPending with
        | none =>
            exact (finish_meets _ _ _ _ _).mono fun s _ s' h => ⟨after, rfl, .done hnext h⟩
        | some step =>
            dsimp only
            cases hevent : dispatchEvent env eventId after step with
            | ok event =>
                refine (dispatch_meets _ _ _).mono fun s _ s' h => ⟨after, rfl, ?_⟩
                exact h ▸ .sent hnext hevent
            | error e =>
                exact (finish_meets _ _ _ _ _).mono fun s _ s' h =>
                  ⟨after, rfl, .refused hnext hevent h⟩
  · rintro s a s' ⟨loaded, s₁, ⟨rfl, rfl⟩, after, hloaded, h⟩
    exact ⟨after, hloaded, h⟩

/-- What the part of `advance` behind the read does where it commits: nothing
for a workflow that is not there, not open or waiting, else one of the ways of
`Advances`. -/
theorem advanceLoaded_meets (env : Env) (eventId workflowId : String)
    (loaded : Option Workflow) :
    Meets (advanceLoaded env eventId workflowId loaded) fun s _ s' =>
      (∀ workflow, loaded = some workflow → ¬ Actionable workflow) ∧ s' = s ∨
        ∃ workflow, loaded = some workflow ∧ Actionable workflow ∧
          Advances env eventId workflowId workflow s s' := by
  have hskip : (∀ workflow, loaded = some workflow → ¬ Actionable workflow) →
      Meets (pure () : StoreTx Unit) fun s _ s' =>
        (∀ workflow, loaded = some workflow → ¬ Actionable workflow) ∧ s' = s ∨
          ∃ workflow, loaded = some workflow ∧ Actionable workflow ∧
            Advances env eventId workflowId workflow s s' :=
    fun hidle => (pure_meets _).mono fun _ _ _ h => .inl ⟨hidle, h.2⟩
  cases loaded with
  | none => exact hskip (by simp)
  | some workflow =>
      unfold advanceLoaded
      dsimp only
      by_cases hterminal : workflow.status.Terminal
      · rw [if_pos hterminal]
        refine hskip ?_
        rintro _ ⟨⟩ hact
        exact hact.live hterminal
      rw [if_neg hterminal]
      by_cases hfatal : fatalSteps workflow = []
      swap
      · rw [if_pos hfatal]
        exact (finish_meets _ _ _ _ _).mono fun s _ s' h =>
          .inr ⟨workflow, rfl, ⟨hterminal, fun h' => absurd h' hfatal⟩, .fatal hfatal h⟩
      rw [if_neg (not_not.mpr hfatal)]
      by_cases hwaiting : workflow.steps.any (fun s => s.status = .dispatched) = true
      · rw [if_pos hwaiting]
        refine hskip ?_
        rintro _ ⟨⟩ hact
        obtain ⟨s, hs, hdispatched⟩ := List.any_eq_true.mp hwaiting
        exact hact.idle hfatal s hs (by simpa using hdispatched)
      rw [if_neg hwaiting]
      have hact : Actionable workflow := by
        refine ⟨hterminal, fun _ s hs hdispatched => hwaiting ?_⟩
        exact List.any_eq_true.mpr ⟨s, hs, by simpa using hdispatched⟩
      cases hnext : workflow.nextPending with
      | none =>
          exact (finish_meets _ _ _ _ _).mono fun s _ s' h =>
            .inr ⟨workflow, rfl, hact, .done hfatal hnext h⟩
      | some step =>
          dsimp only
          cases hevent : dispatchEvent env eventId workflow step with
          | ok event =>
              refine (dispatch_meets _ _ _).mono fun s _ s' h => .inr ⟨workflow, rfl, hact, ?_⟩
              exact h ▸ .sent hfatal hnext hevent
          | error e =>
              by_cases hreason : ∃ reason, e = .noWorkToDo reason
              · obtain ⟨reason, rfl⟩ := hreason
                refine (bind_meets (skipStep_meets _ _) fun _ =>
                  advancePastSkipped_meets _ _ _).mono ?_
                rintro s a s' ⟨_, s₁, rfl, after, hafter, h⟩
                exact .inr ⟨workflow, rfl, hact, .skipped hfatal hnext hevent hafter h⟩
              · have hfault : ∀ reason, e ≠ .noWorkToDo reason :=
                  fun reason h => hreason ⟨reason, h⟩
                have hfinish : Meets
                    (finish env eventId workflow .failed (some e.described)) fun s _ s' =>
                      (∀ w, some workflow = some w → ¬ Actionable w) ∧ s' = s ∨
                        ∃ w, some workflow = some w ∧ Actionable w ∧
                          Advances env eventId workflowId w s s' :=
                  (finish_meets _ _ _ _ _).mono fun s _ s' h =>
                    .inr ⟨workflow, rfl, hact, .refused hfatal hnext hevent hfault h⟩
                cases e with
                | noWorkToDo reason => exact absurd rfl (hfault reason)
                | contractError | unknownGoal | unknownTenant | targetNotAllowed | library
                | valueError | typeError | attributeError | keyError | database => exact hfinish

theorem advancePastSkipped_firm (env : Env) (eventId workflowId : String) :
    Firm (advancePastSkipped env eventId workflowId) := by
  unfold advancePastSkipped
  refine bind_firm fun loaded => ?_
  cases loaded with
  | none => exact throw_firm _
  | some after =>
      dsimp only
      cases after.nextPending with
      | none => exact finish_firm _ _ _ _ _
      | some step =>
          dsimp only
          cases dispatchEvent env eventId after step with
          | ok event => exact dispatch_firm _ _ _
          | error e => exact finish_firm _ _ _ _ _

theorem advanceLoaded_clean (env : Env) (eventId workflowId : String)
    (loaded : Option Workflow) : Clean (advanceLoaded env eventId workflowId loaded) := by
  cases loaded with
  | none => exact pure_clean _
  | some workflow =>
      unfold advanceLoaded
      dsimp only
      split
      · exact pure_clean _
      split
      · exact (finish_firm _ _ _ _ _).clean
      split
      · exact pure_clean _
      split
      · exact (finish_firm _ _ _ _ _).clean
      split
      · exact (dispatch_firm _ _ _).clean
      · exact bind_clean (modify_firm _).clean fun _ => (advancePastSkipped_firm _ _ _).clean
      · exact (finish_firm _ _ _ _ _).clean

theorem claimAndLoad_meets (workflowId : String) :
    Meets (claimAndLoad workflowId) fun s a s' => s' = s ∧ a = snapshot s workflowId := by
  refine (bind_meets (lockRow_meets _) fun _ => load_meets _).mono ?_
  rintro s a s' ⟨_, s₁, rfl, rfl, rfl⟩
  exact ⟨rfl, rfl⟩

end SeoPlatform.Orchestrator.AdvanceOutcomes
