import SeoPlatform.Orchestrator.Absorbing

namespace SeoPlatform.Orchestrator.Resumption

open SeoPlatform.Foundation.JsonValue
open SeoPlatform.Foundation.SequentialFlow
open SeoPlatform.Foundation.TransitionSystem
open SeoPlatform.Orchestrator.Store
open SeoPlatform.Orchestrator.StoreSpecs
open SeoPlatform.Orchestrator.Engine
open SeoPlatform.Orchestrator.AdvanceOutcomes
open SeoPlatform.Orchestrator.Snapshots
open SeoPlatform.Orchestrator.Workers
open SeoPlatform.Orchestrator.Changes
open SeoPlatform.Orchestrator.HandlerOutcomes
open SeoPlatform.Orchestrator.FlowView
open SeoPlatform.Orchestrator.Refinement
open SeoPlatform.Orchestrator.Coherence
open SeoPlatform.Orchestrator.Frames
open SeoPlatform.Orchestrator.Soundness
open SeoPlatform.Orchestrator.Interleavings
open SeoPlatform.Orchestrator.StepLives
open SeoPlatform.Orchestrator.Staging
open SeoPlatform.Orchestrator.Absorbing
open SeoPlatform.Shared.Contracts
open SeoPlatform.Shared.Events

/-- The workflow has finished, or a step of it is in flight. -/
def Held (db : Db) (workflowId : String) : Prop :=
  (∃ row ∈ db.workflows.rows, row.id = workflowId ∧ row.status.Terminal) ∨
    ∃ r ∈ db.steps.rows, r.workflowId = workflowId ∧ r.status = .dispatched

/-- The workflow has finished, or waits for exactly one step whose request is
in the outbox. -/
def Settled (db : Db) (workflowId : String) : Prop :=
  (∃ row ∈ db.workflows.rows, row.id = workflowId ∧ row.status.Terminal) ∨
    ∃ r ∈ db.steps.rows, r.workflowId = workflowId ∧ r.status = .dispatched ∧
      (∀ r' ∈ db.steps.rows, r'.workflowId = workflowId → r'.status = .dispatched → r' = r) ∧
      ∃ o ∈ db.outbox.rows, AsksFor o r

/-- A handler stands between the commit that made a workflow's move due and the
`advance` that makes it. -/
def Carries (workflowId : String) : Stage → Prop
  | .rereading other | .queued other | .advancing other _ => other = workflowId
  | .locked other _ loaded => other = workflowId ∧ ∃ w, loaded = some w ∧ Actionable w
  | _ => False

/-- The step cuts a handler off there: its process dies, or its transaction
raises. -/
def CutsOff (env : Env) (s : System) : Label → Prop
  | .crash n => ∃ e stage workflowId, At s n e stage ∧ Carries workflowId stage
  | .run n choice => ∃ e stage workflowId, At s n e stage ∧ Carries workflowId stage ∧
      (handlerStep env s.db e choice stage).1 = .raised
  | .deliver _ _ | .submit _ _ | .tick => False

/-- Every workflow has finished, waits for a step, or is being moved. -/
def Attended (s : System) : Prop :=
  ∀ row ∈ s.db.workflows.rows, Held s.db row.id ∨
    ∃ n e stage, At s n e stage ∧ Carries row.id stage

variable {env : Env} {traffic : Traffic} {db db' : Db} {workflowId : String}

theorem settled_of_held (hcoherent : Coherent db) (h : Held db workflowId) :
    Settled db workflowId := by
  rcases h with hterminal | ⟨r, hr, rfl, hdispatched⟩
  · exact .inl hterminal
  · have hflight : ∀ r' ∈ db.steps.rows, r'.workflowId = r.workflowId →
        r'.status = .dispatched → (flow db r.workflowId).progress r'.position = .inFlight := by
      intro r' hr' hworkflow hdispatched'
      rw [← hworkflow, progress_of_mem hr', hdispatched']
      rfl
    have horder := hcoherent.orderly r.workflowId
    refine .inr ⟨r, hr, rfl, hdispatched, fun r' hr' hworkflow hdispatched' => ?_, ?_⟩
    · exact eq_of_position hr' hr hworkflow
        (horder.single (hflight r' hr' hworkflow hdispatched') (hflight r hr rfl hdispatched))
    · have hlogged : r.position ∈ (flow db r.workflowId).log := by
        rw [horder.logged, hflight r hr rfl hdispatched]
        exact .inl rfl
      obtain ⟨o, ho, hposition⟩ := List.mem_filterMap.mp hlogged
      obtain ⟨r', hr', hjob, hworkflow, hsame⟩ := requestedPosition_eq_some.mp hposition
      obtain rfl := eq_of_position hr' hr hworkflow hsame
      obtain ⟨owner, howner, hasks⟩ := hcoherent.requested o ho (requestField_of_requestJob hjob)
      have hsameJob : owner.jobId = r'.jobId := Option.some.inj (hasks.1.symm.trans hjob)
      exact ⟨o, ho, eq_of_jobId howner hr' hsameJob ▸ hasks⟩

theorem held_of_sameRows (h : Held db workflowId) (hsame : SameRows workflowId db db') :
    Held db' workflowId := by
  rcases h with ⟨row, hrow, hid, hterminal⟩ | ⟨r, hr, hworkflow, hdispatched⟩
  · exact .inl ⟨row, mem_of_sameRows hsame hrow hid, hid, hterminal⟩
  · have hmem : r ∈ db.steps.rows.filter fun r => r.workflowId = workflowId :=
      List.mem_filter.mpr ⟨hr, by simpa using hworkflow⟩
    rw [← hsame.steps] at hmem
    exact .inr ⟨r, (List.mem_filter.mp hmem).1, hworkflow, hdispatched⟩

theorem held_of_finishes {eventId : String} {w : Workflow} {status : WorkflowStatus}
    {error : Option String} (hexists : ∃ row ∈ db.workflows.rows, row.id = w.workflowId)
    (h : Finishes env eventId w status error db db') (hterminal : status.Terminal) :
    Held db' w.workflowId := by
  obtain ⟨row, hrow, hid⟩ := hexists
  obtain ⟨row', hrow', hid', hstatus⟩ := workflows_of_finishes h hrow hid
  exact .inl ⟨row', hrow', hid'.trans hid, hstatus ▸ hterminal⟩

theorem held_of_dispatched {r : StepRow} {event : PendingEvent} (hr : r ∈ db.steps.rows)
    (hpending : r.status = .pending) :
    Held (dispatched db r.workflowId r.toStep event) r.workflowId := by
  refine .inr ⟨r.updatedWhere r.jobId .pending ⟨.dispatched, none, none⟩, ?_, by simp, ?_⟩
  · exact mem_updateStep.mpr ⟨r, by rwa [steps_statusWritten], rfl⟩
  · rw [updatedWhere_of_hit rfl hpending]
    rfl

theorem exists_row_of_snapshot {w : Workflow} (h : snapshot db workflowId = some w) :
    ∃ row ∈ db.workflows.rows, row.id = w.workflowId := by
  obtain ⟨row, hrow, -, rfl⟩ := snapshot_eq_some.mp h
  exact ⟨row, hrow, rfl⟩

/-- An `advance` that acts leaves its workflow finished or waiting. -/
theorem held_of_advances {eventId : String} {w : Workflow} (hw : snapshot db workflowId = some w)
    (h : Advances env eventId workflowId w db db') : Held db' workflowId := by
  have hid := workflowId_of_snapshot hw
  have hexists := exists_row_of_snapshot hw
  cases h with
  | fatal _ hfinish => exact hid ▸ held_of_finishes hexists hfinish trivial
  | done _ _ hfinish => exact hid ▸ held_of_finishes hexists hfinish trivial
  | refused _ _ _ _ hfinish => exact hid ▸ held_of_finishes hexists hfinish trivial
  | sent _ hnext _ =>
      obtain ⟨hstep, hpending, -⟩ := nextPending_eq_some hnext
      obtain ⟨r, hr, rfl, rfl⟩ := (mem_steps_of_snapshot hw).mp hstep
      exact held_of_dispatched hr hpending
  | skipped _ _ _ hafter hpast =>
      have hid' := workflowId_of_snapshot hafter
      have hexists' := exists_row_of_snapshot hafter
      cases hpast with
      | done _ hfinish => exact hid' ▸ held_of_finishes hexists' hfinish trivial
      | refused _ _ hfinish => exact hid' ▸ held_of_finishes hexists' hfinish trivial
      | sent hnext' _ =>
          obtain ⟨hstep, hpending, -⟩ := nextPending_eq_some hnext'
          obtain ⟨r, hr, rfl, rfl⟩ := (mem_steps_of_snapshot hafter).mp hstep
          exact held_of_dispatched hr hpending

/-- A workflow on which `advance` does not act has finished or waits. -/
theorem held_of_idle {w : Workflow} (hw : snapshot db workflowId = some w)
    (hidle : ¬ Actionable w) : Held db workflowId := by
  obtain ⟨row, hrow, hid, rfl⟩ := snapshot_eq_some.mp hw
  by_cases hterminal : row.status.Terminal
  · exact .inl ⟨row, hrow, hid, hterminal⟩
  · by_contra hnone
    refine hidle ⟨hterminal, fun _ step hstep hdispatched => hnone (.inr ?_)⟩
    obtain ⟨r, hr, hworkflow, rfl⟩ := (mem_steps_of_snapshot hw).mp hstep
    exact ⟨r, hr, hworkflow, hdispatched⟩

/-- A completion takes a workflow's step out of flight only to go on to its
`advance`. -/
theorem held_of_marked {c : Completion} (h : Held db workflowId) :
    Held (db.updateStep c.jobId .dispatched ⟨c.status, some (some c.result), some c.error⟩)
        workflowId ∨
      afterMark ((db.steps.rows.find? fun r => r.jobId = c.jobId ∧ r.status = .dispatched).map
        StepRow.workflowId) = .goto (.advancing workflowId false) := by
  rcases h with hterminal | ⟨r, hr, rfl, hdispatched⟩
  · exact .inl (.inl hterminal)
  · by_cases hjob : r.jobId = c.jobId
    · have hfind : (db.steps.rows.find? fun r => r.jobId = c.jobId ∧ r.status = .dispatched) =
          some r := by
        refine db.steps.find?_eq_some_of_unique hr (by simp [hjob, hdispatched]) ?_
        intro other hother hp
        simp only [decide_eq_true_eq] at hp
        exact eq_of_jobId hother hr (hp.1.trans hjob.symm)
      rw [hfind]
      exact .inr rfl
    · refine .inl (.inr ⟨r, mem_updateStep.mpr ⟨r, hr, ?_⟩, rfl, hdispatched⟩)
      exact updatedWhere_of_miss fun hhit => hjob hhit.1

/-- What an outcome makes of a workflow that is attended: it is held, carried on
by this handler, or left to another. -/
theorem attended_of_outcome {e : Option Envelope} {choice : Choice} {stage : Stage} {next : Next}
    (hok : StageOk traffic db e stage) (h : Outcome env db e choice stage next db')
    (hraised : next = .raised → ∀ workflowId, ¬ Carries workflowId stage) {row' : WorkflowRow}
    (hrow' : row' ∈ db'.workflows.rows) :
    Held db' row'.id ∨ (∃ stage', next = .goto stage' ∧ Carries row'.id stage') ∨
      ∃ row ∈ db.workflows.rows, row.id = row'.id ∧ ¬ Held db row.id ∧ ¬ Carries row.id stage := by
  -- Where the handler carries nothing, a workflow is held as before or not held.
  have hother : ∀ row ∈ db.workflows.rows, row.id = row'.id → ¬ Carries row.id stage →
      (Held db row.id → Held db' row.id) →
        Held db' row'.id ∨ (∃ stage', next = .goto stage' ∧ Carries row'.id stage') ∨
          ∃ row ∈ db.workflows.rows, row.id = row'.id ∧ ¬ Held db row.id ∧
            ¬ Carries row.id stage := by
    intro row hrow hid hcarries hkept
    by_cases hheld : Held db row.id
    · exact .inl (hid ▸ hkept hheld)
    · exact .inr (.inr ⟨row, hrow, hid, hheld, hcarries⟩)
  cases h with
  | raised => exact hother row' hrow' rfl (hraised rfl _) id
  | known | requested | closed | unwritten | written => exact hother row' hrow' rfl id id
  | waited hidle =>
      refine hother row' hrow' rfl ?_ id
      rintro ⟨-, w, hw, hact⟩
      exact hidle w hw hact
  | created hplan hcreated =>
      rcases (mem_workflows_created hcreated).mp hrow' with hrow | rfl
      · exact hother row' hrow rfl id fun hheld =>
          held_of_sameRows hheld (sameRows_of_created hcreated ⟨row', hrow, rfl⟩)
      · exact .inr (.inl ⟨_, rfl, rfl⟩)
  | @reread other =>
      by_cases hid : other = row'.id
      · exact .inr (.inl ⟨_, rfl, hid⟩)
      · exact hother row' hrow' rfl hid id
  | @begun other =>
      obtain ⟨row, hrow, rfl⟩ := mem_workflows_statusWritten.mp hrow'
      rw [withStatusWhere_id]
      by_cases hid : other = row.id
      · exact .inr (.inl ⟨_, rfl, hid⟩)
      · have hkept := hother row hrow (withStatusWhere_id ..).symm hid fun hheld =>
          held_of_sameRows hheld (sameRows_statusWritten (Ne.symm hid) _ _ _ _)
        rwa [withStatusWhere_id] at hkept
  | marked _ _ =>
      by_cases hheld : Held db row'.id
      · rcases held_of_marked hheld with hheld' | hnext
        · exact .inl hheld'
        · exact .inr (.inl ⟨_, hnext, rfl⟩)
      · exact .inr (.inr ⟨row', hrow', rfl, hheld, id⟩)
  | @claimed other fresh =>
      by_cases hid : other = row'.id
      · subst hid
        have hw := snapshot_eq_some.mpr ⟨row', hrow', rfl, rfl⟩
        by_cases hact : Actionable (row'.toWorkflow (db.stepsOf row'.id))
        · exact .inr (.inl ⟨_, rfl, rfl, _, hw, hact⟩)
        · exact .inl (held_of_idle hw hact)
      · exact hother row' hrow' rfl hid id
  | @advanced other fresh w _ hact hadvances =>
      have hw : snapshot db other = some w := hok.2 w rfl hact
      by_cases hid : other = row'.id
      · exact .inl (hid ▸ held_of_advances hw hadvances)
      · have hsame := sameRows_of_advances hw (Ne.symm hid) hadvances
        obtain ⟨row, hrow⟩ : ∃ row, db.workflow? row'.id = some row := by
          rw [← hsame.workflow]
          exact ⟨row', workflow?_eq_some.mpr ⟨hrow', rfl⟩⟩
        obtain ⟨hmem, hid'⟩ := workflow?_eq_some.mp hrow
        refine hother row hmem hid' (fun hcarries => hid (hcarries.1.trans hid')) fun hheld => ?_
        rw [hid'] at hheld ⊢
        exact held_of_sameRows hheld hsame
  | @saved other summary =>
      obtain ⟨row, hrow, rfl⟩ := List.mem_map.mp hrow'
      refine hother row hrow (withSummary_id ..).symm id fun hheld => ?_
      rcases hheld with ⟨own, hown, hid, hterminal⟩ | hflight
      · refine .inl ⟨_, List.mem_map.mpr ⟨own, hown, rfl⟩, (withSummary_id ..).trans hid, ?_⟩
        unfold WorkflowRow.withSummary
        split <;> exact hterminal
      · exact .inr hflight

variable {s s' : System}

theorem attended_of_quiet (h : Attended s) (hdb : s'.db.workflows = s.db.workflows)
    (hsteps : s'.db.steps = s.db.steps)
    (hstages : ∀ n e stage workflowId, At s n e stage → Carries workflowId stage →
      At s' n e stage) : Attended s' := by
  intro row hrow
  rw [hdb] at hrow
  rcases h row hrow with hheld | ⟨n, e, stage, hat, hcarries⟩
  · refine .inl ?_
    unfold Held
    rwa [hdb, hsteps]
  · exact .inr ⟨n, e, stage, hstages n e stage row.id hat hcarries, hcarries⟩

theorem at_of_ne {m n : Nat} {w : Worker} {e : Option Envelope} {stage : Stage}
    (hat : At s m e stage) (hm : m ≠ n) : At (s.setWorker n w) m e stage := by
  unfold At
  rwa [setWorker_of_ne s w hm]

theorem attended_run {n : Nat} {choice : Choice} (h : Attended s) (hsound : Sound traffic s)
    (hkept : ¬ CutsOff env s (.run n choice)) (hstep : runStep env s n choice = some s') :
    Attended s' := by
  unfold runStep at hstep
  cases hjob : (s.workers n).job with
  | none => simp [hjob] at hstep
  | some job =>
      rcases job with ⟨e, stage⟩
      simp only [hjob] at hstep
      split at hstep
      · contradiction
      · split at hstep
        · contradiction
        · obtain rfl := Option.some.inj hstep
          intro row' hrow'
          rw [settle_db] at hrow' ⊢
          rcases attended_of_outcome (hsound.stageOk n e stage hjob)
            (outcome_of_handlerStep env s.db e choice stage)
            (fun hraised workflowId hcarries =>
              hkept ⟨e, stage, workflowId, hjob, hcarries, hraised⟩) hrow' with
            hheld | ⟨stage', hnext, hcarries⟩ | ⟨row, hrow, hid, hheld, hcarries⟩
          · exact .inl hheld
          · refine .inr ⟨n, e, stage', ?_, hcarries⟩
            rw [hnext]
            exact congrArg Worker.job (setWorker_self _ n _)
          · rcases h row hrow with hheld' | ⟨m, e', other, hat, hcarries'⟩
            · exact absurd hheld' hheld
            · have hm : m ≠ n := by
                rintro rfl
                obtain ⟨-, rfl⟩ := Prod.mk.inj (Option.some.inj (hat.symm.trans hjob))
                exact hcarries hcarries'
              refine .inr ⟨m, e', other, ?_, hid ▸ hcarries'⟩
              unfold At
              rw [settle_of_ne _ _ _ _ hm]
              exact hat

/-- As long as no handler is cut off, no workflow is left unattended. -/
theorem attended_step {label : Label} (h : Attended s) (hsound : Sound traffic s)
    (hkept : ¬ CutsOff env s label) (hstep : step env s label = some s') : Attended s' := by
  cases label with
  | run n choice => exact attended_run h hsound hkept hstep
  | tick =>
      obtain rfl := Option.some.inj hstep
      exact attended_of_quiet h rfl rfl fun _ _ _ _ hat _ => hat
  | crash n =>
      obtain rfl := Option.some.inj hstep
      have hstages : ∀ m e stage workflowId, At s m e stage → Carries workflowId stage →
          m ≠ n := by
        rintro m e stage workflowId hat hcarries rfl
        exact hkept ⟨e, stage, workflowId, hat, hcarries⟩
      unfold crash
      split
      · exact attended_of_quiet h rfl rfl fun m e stage workflowId hat hcarries =>
          at_of_ne hat (hstages m e stage workflowId hat hcarries)
      · exact attended_of_quiet h rfl rfl fun m e stage workflowId hat hcarries =>
          at_of_ne (s := s.release _) hat (hstages m e stage workflowId hat hcarries)
  | deliver n e =>
      change deliver s n e = some s' at hstep
      unfold deliver at hstep
      cases hjob : (s.workers n).job with
      | some job => simp [hjob] at hstep
      | none =>
          have hstages : ∀ m e' stage, At s m e' stage → m ≠ n := by
            rintro m e' stage hat rfl
            exact absurd (hat.symm.trans hjob) (by simp)
          simp only [hjob] at hstep
          split at hstep
          · obtain rfl := Option.some.inj hstep
            exact attended_of_quiet h rfl rfl fun _ _ _ _ hat _ => hat
          · split at hstep
            · obtain rfl := Option.some.inj hstep
              exact attended_of_quiet h rfl rfl fun m e' stage _ hat _ =>
                at_of_ne hat (hstages m e' stage hat)
            · obtain rfl := Option.some.inj hstep
              exact attended_of_quiet h rfl rfl fun m e' stage _ hat _ =>
                at_of_ne hat (hstages m e' stage hat)
  | submit n request =>
      change submit s n request = some s' at hstep
      unfold submit at hstep
      cases hjob : (s.workers n).job with
      | some job => simp [hjob] at hstep
      | none =>
          simp only [hjob] at hstep
          obtain rfl := Option.some.inj hstep
          refine attended_of_quiet h rfl rfl fun m e' stage _ hat _ => at_of_ne hat ?_
          rintro rfl
          exact absurd (hat.symm.trans hjob) (by simp)

end SeoPlatform.Orchestrator.Resumption
