import SeoPlatform.Orchestrator.Absorbing
import SeoPlatform.Orchestrator.Plans

namespace SeoPlatform.Orchestrator.Conclusions

open SeoPlatform.Foundation.JsonValue
open SeoPlatform.Foundation.TransitionSystem
open SeoPlatform.Orchestrator.Planner
open SeoPlatform.Orchestrator.Store
open SeoPlatform.Orchestrator.StoreSpecs
open SeoPlatform.Orchestrator.Engine
open SeoPlatform.Orchestrator.AdvanceOutcomes
open SeoPlatform.Orchestrator.Snapshots
open SeoPlatform.Orchestrator.Workers
open SeoPlatform.Orchestrator.Changes
open SeoPlatform.Orchestrator.NoWork
open SeoPlatform.Orchestrator.FlowView
open SeoPlatform.Orchestrator.Refinement
open SeoPlatform.Orchestrator.Coherence
open SeoPlatform.Orchestrator.Frames
open SeoPlatform.Orchestrator.Interleavings
open SeoPlatform.Orchestrator.StepLives
open SeoPlatform.Orchestrator.Staging
open SeoPlatform.Orchestrator.Absorbing
open SeoPlatform.Orchestrator.Plans
open SeoPlatform.Shared.Contracts
open SeoPlatform.Shared.Exceptions
open SeoPlatform.Shared.Events

/-- How an `advance` on a workflow comes to a finish: the workflow and the
tables it finishes on, the status and the error. -/
inductive Concludes (env : Env) (eventId workflowId : String) (w : Workflow) (s : Db) :
    Workflow → Db → WorkflowStatus → Option String → Prop
  | fatal (hfatal : fatalSteps w ≠ []) :
      Concludes env eventId workflowId w s w s .failed (some (firstError (fatalSteps w)))
  | done (hsound : fatalSteps w = []) (hnext : w.nextPending = none) :
      Concludes env eventId workflowId w s w s .completed none
  | refused {step : Step} {e : Exn} (hsound : fatalSteps w = [])
      (hnext : w.nextPending = some step) (hevent : dispatchEvent env eventId w step = .error e)
      (hfault : ∀ reason, e ≠ .noWorkToDo reason) :
      Concludes env eventId workflowId w s w s .failed (some e.described)
  | donePast {step : Step} {reason : String} {after : Workflow} (hsound : fatalSteps w = [])
      (hnext : w.nextPending = some step)
      (hevent : dispatchEvent env eventId w step = .error (.noWorkToDo reason))
      (hafter : snapshot (skipped s step reason) workflowId = some after)
      (hlast : after.nextPending = none) :
      Concludes env eventId workflowId w s after (skipped s step reason) .completed none
  | refusedPast {step step' : Step} {reason : String} {after : Workflow} {e : Exn}
      (hsound : fatalSteps w = []) (hnext : w.nextPending = some step)
      (hevent : dispatchEvent env eventId w step = .error (.noWorkToDo reason))
      (hafter : snapshot (skipped s step reason) workflowId = some after)
      (hnext' : after.nextPending = some step')
      (hevent' : dispatchEvent env eventId after step' = .error e) :
      Concludes env eventId workflowId w s after (skipped s step reason) .failed
        (some e.described)

/-- A change that finishes a workflow. -/
structure Finale (env : Env) (s s' : Db) (workflowId eventId : String) (w w' : Workflow) (t : Db)
    (status : WorkflowStatus) (error : Option String) : Prop where
  fresh : ∀ o ∈ s.outbox.rows, o.eventId ≠ eventId
  before : snapshot s workflowId = some w
  begun : w.status ≠ .queued
  actionable : Actionable w
  concludes : Concludes env eventId workflowId w s w' t status error
  finishes : Finishes env eventId w' status error t s'

variable {env : Env} {traffic : Traffic} {s s' t : Db} {workflowId eventId : String}
  {w w' : Workflow} {status : WorkflowStatus} {error : Option String}

theorem workflows_of_concludes (h : Concludes env eventId workflowId w s w' t status error) :
    t.workflows = s.workflows ∧ t.outbox = s.outbox := by
  cases h <;> exact ⟨rfl, rfl⟩

theorem snapshot_of_concludes (hw : snapshot s workflowId = some w)
    (h : Concludes env eventId workflowId w s w' t status error) :
    snapshot t workflowId = some w' := by
  cases h with
  | fatal | done | refused => exact hw
  | donePast _ _ _ hafter _ => exact hafter
  | refusedPast _ _ _ hafter _ _ => exact hafter

/-- A finished workflow was finished before the change, or is finished by it. -/
theorem finale_of_change (h : Change env traffic s s') {row' : WorkflowRow}
    (hrow' : row' ∈ s'.workflows.rows) (hterminal : row'.status.Terminal) :
    (∃ row ∈ s.workflows.rows, row.id = row'.id ∧ row.status.Terminal) ∨
      ∃ eventId w w' t error, Finale env s s' row'.id eventId w w' t row'.status error := by
  -- A status that is written is the row's own, or the row is another's.
  have hwritten : ∀ {t : Db} {other : String} {status : WorkflowStatus} {report : Option Dict}
      {error : Option String} {events : List PendingEvent}, t.workflows = s.workflows →
        row' ∈ (statusWritten t other status report error events).workflows.rows →
          (∃ row ∈ s.workflows.rows, row.id = row'.id ∧ row.status.Terminal) ∨
            other = row'.id ∧ row'.status = status := by
    intro t other status report error events ht hmem
    obtain ⟨row, hrow, rfl⟩ := mem_workflows_statusWritten.mp hmem
    rw [ht] at hrow
    by_cases hid : row.id = other
    · refine .inr ⟨by rw [withStatusWhere_id, hid], ?_⟩
      rw [withStatusWhere_of_eq hid]
      rfl
    · rw [withStatusWhere_of_ne hid] at hterminal ⊢
      exact .inl ⟨row, hrow, rfl, hterminal⟩
  cases h with
  | quiet hworkflows _ _ =>
      rw [hworkflows] at hrow'
      exact .inl ⟨row', hrow', rfl, hterminal⟩
  | created _ _ hcreated =>
      rcases (mem_workflows_created hcreated).mp hrow' with hrow | rfl
      · exact .inl ⟨row', hrow, rfl, hterminal⟩
      · exact hterminal.elim
  | started _ =>
      rcases hwritten rfl hrow' with hold | ⟨-, hstatus⟩
      · exact .inl hold
      · rw [hstatus] at hterminal
        exact hterminal.elim
  | marked _ _ => exact .inl ⟨row', hrow', rfl, hterminal⟩
  | summarised _ _ =>
      obtain ⟨row, hrow, rfl⟩ := List.mem_map.mp hrow'
      refine .inl ⟨row, hrow, (withSummary_id ..).symm, ?_⟩
      unfold WorkflowRow.withSummary at hterminal
      split at hterminal <;> exact hterminal
  | @advanced _ eventId workflowId w hfresh hw hbegun hact hadvances =>
      have hsent : ∀ (t : Db) {step : Step} {event : PendingEvent},
          t.workflows = s.workflows → s' = dispatched t workflowId step event →
            ∃ row ∈ s.workflows.rows, row.id = row'.id ∧ row.status.Terminal := by
        rintro t step event ht rfl
        rcases hwritten ht hrow' with hold | ⟨-, hstatus⟩
        · exact hold
        · rw [hstatus] at hterminal
          exact hterminal.elim
      have hfinished : ∀ {w' : Workflow} {t : Db} {status : WorkflowStatus}
          {error : Option String}, Concludes env eventId workflowId w s w' t status error →
            Finishes env eventId w' status error t s' →
              (∃ row ∈ s.workflows.rows, row.id = row'.id ∧ row.status.Terminal) ∨
                ∃ eventId w w' t error,
                  Finale env s s' row'.id eventId w w' t row'.status error := by
        intro w' t status error hconcludes hfinish
        have hid := workflowId_of_snapshot (snapshot_of_concludes hw hconcludes)
        have hfinish' := hfinish
        obtain ⟨previous, report, -, hs'⟩ := hfinish'
        subst hs'
        rcases hwritten (workflows_of_concludes hconcludes).1 hrow' with hold | ⟨hown, hstatus⟩
        · exact .inl hold
        · rw [hid] at hown
          subst hown
          rw [hstatus]
          exact .inr ⟨eventId, w, w', t, error, hfresh, hw, hbegun, hact, hconcludes, hfinish⟩
      cases hadvances with
      | fatal hfatal hfinish => exact hfinished (.fatal hfatal) hfinish
      | done hsound hnext hfinish => exact hfinished (.done hsound hnext) hfinish
      | refused hsound hnext hevent hfault hfinish =>
          exact hfinished (.refused hsound hnext hevent hfault) hfinish
      | sent _ _ _ => exact .inl (hsent s rfl rfl)
      | @skipped _ step reason _ hsound hnext hevent hafter hpast =>
          cases hpast with
          | done hlast hfinish =>
              exact hfinished (.donePast hsound hnext hevent hafter hlast) hfinish
          | refused hnext' hevent' hfinish =>
              exact hfinished (.refusedPast hsound hnext hevent hafter hnext' hevent') hfinish
          | sent _ _ => exact .inl (hsent (skipped s step reason) rfl rfl)

/-- Where a row's outcome comes from. -/
inductive Recorded (env : Env) (traffic : Traffic) (r : StepRow) : Prop
  | blank (hstatus : r.status = .pending ∨ r.status = .dispatched) (hresult : r.result = none)
  | passed (hstatus : r.status = .skipped) (hkind : MaySkip r.kind) (hresult : r.result = none)
  | finished {type : EventType} {payload : Dict} {c : Completion}
      (hpayload : traffic.completion type payload)
      (hread : readCompletion env type payload = .ok c) (hjob : r.jobId = c.jobId)
      (hstatus : r.status = c.status) (hresult : r.result = some c.result)
      (herror : r.error = c.error)

theorem recorded_of_moves {r r' : StepRow} (h : Recorded env traffic r)
    (hmoves : Moves env traffic r r') : Recorded env traffic r' := by
  cases hmoves with
  | stays => exact h
  | marked _ hpayload hread hjob => exact .finished hpayload hread hjob rfl rfl rfl
  | sent hpending =>
      cases h with
      | blank _ hresult => exact .blank (.inr rfl) hresult
      | passed hstatus _ _ =>
          rw [hpending] at hstatus
          contradiction
      | finished _ hread _ hstatus _ _ =>
          rcases outcome_of_completion hread with houtcome | houtcome <;>
          · rw [hpending, houtcome] at hstatus
            contradiction
  | passed hpending hkind reason =>
      cases h with
      | blank _ hresult => exact .passed rfl hkind hresult
      | passed hstatus _ _ =>
          rw [hpending] at hstatus
          contradiction
      | finished _ hread _ hstatus _ _ =>
          rcases outcome_of_completion hread with houtcome | houtcome <;>
          · rw [hpending, houtcome] at hstatus
            contradiction

def AllRecorded (env : Env) (traffic : Traffic) (db : Db) : Prop :=
  ∀ r ∈ db.steps.rows, Recorded env traffic r

theorem allRecorded_of_change (h : AllRecorded env traffic s) (hchange : Change env traffic s s') :
    AllRecorded env traffic s' := by
  intro r' hr'
  rcases row_before hchange hr' with ⟨r, hr, hmoves⟩ | ⟨workflowId, p, rfl⟩
  · exact recorded_of_moves (h r hr) hmoves
  · exact .blank (.inl rfl) rfl

theorem allRecorded_of_run {past : List (System × Label)} {u : System}
    (run : Run (step env) System.initial past u) (hcarries : Carries traffic past) :
    AllRecorded env traffic u.db :=
  kept_of_run run hcarries (AllRecorded env traffic) (fun _ hr => absurd hr List.not_mem_nil)
    fun _ _ _ h hchange => allRecorded_of_change h hchange

/-- What a row's move leaves of a step that came back. -/
theorem eq_of_moves {r r' : StepRow} (h : Moves env traffic r r')
    (hstatus : r.status = .completed ∨ r.status = .failed ∨ r.status = .skipped) : r' = r := by
  cases h with
  | stays => rfl
  | sent hpending => simp [hpending] at hstatus
  | passed hpending _ _ => simp [hpending] at hstatus
  | marked hdispatched _ _ _ => simp [hdispatched] at hstatus

end SeoPlatform.Orchestrator.Conclusions
