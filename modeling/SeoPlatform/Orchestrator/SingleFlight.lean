import SeoPlatform.Orchestrator.StepLives

namespace SeoPlatform.Orchestrator.SingleFlight

open SeoPlatform.Foundation.SequentialFlow
open SeoPlatform.Foundation.TransitionSystem
open SeoPlatform.Orchestrator.Planner
open SeoPlatform.Orchestrator.Store
open SeoPlatform.Orchestrator.Engine
open SeoPlatform.Orchestrator.Workers
open SeoPlatform.Orchestrator.Changes
open SeoPlatform.Orchestrator.FlowView
open SeoPlatform.Orchestrator.Refinement
open SeoPlatform.Orchestrator.Soundness
open SeoPlatform.Orchestrator.Interleavings
open SeoPlatform.Orchestrator.StepLives
open SeoPlatform.Shared.Events

/-- A step of the job was in flight at some moment of a run. -/
def EverDispatched (past : List (System × Label)) (s : System) (jobId : String) : Prop :=
  ∃ t ∈ visited past s, ∃ r ∈ t.db.steps.rows, r.jobId = jobId ∧ r.status = .dispatched

/-- A step of the job has been sent out. -/
def Sent (jobId : String) (db : Db) : Prop :=
  ∃ r ∈ db.steps.rows, r.jobId = jobId ∧ StepStatus.Launched r.status

variable {env : Env} {traffic : Traffic}

theorem sent_of_change {s s' : Db} {jobId : String} (h : Change env traffic s s')
    (hsent : Sent jobId s) : Sent jobId s' := by
  obtain ⟨r, hr, hjob, hlaunched⟩ := hsent
  obtain ⟨r', hr', hmoves⟩ := row_after h hr
  exact ⟨r', hr', (jobId_of_moves hmoves).trans hjob, launched_of_moves hmoves hlaunched⟩

/-- A job is sent out by a step that gets into flight. -/
theorem dispatched_of_change {s s' : Db} {jobId : String} (h : Change env traffic s s')
    (hbefore : ¬ Sent jobId s) (hafter : Sent jobId s') :
    ∃ r ∈ s'.steps.rows, r.jobId = jobId ∧ r.status = .dispatched := by
  obtain ⟨r', hr', hjob, hlaunched⟩ := hafter
  rcases row_before h hr' with ⟨r, hr, hmoves⟩ | ⟨workflowId, p, rfl⟩
  · refine ⟨r', hr', hjob, dispatched_of_moves hmoves (fun hold => hbefore ?_) hlaunched⟩
    exact ⟨r, hr, (jobId_of_moves hmoves).symm.trans hjob, hold⟩
  · simp [plannedRow, StepStatus.Launched] at hlaunched

/-- Over a run, what was in flight once is what has been sent out. -/
theorem everDispatched_iff {past : List (System × Label)} {s : System}
    (run : Run (step env) System.initial past s) (jobId : String) :
    EverDispatched past s jobId ↔ Sent jobId s.db := by
  induction run with
  | refl =>
      constructor
      · rintro ⟨t, ht, r, hr, -⟩
        obtain rfl : t = System.initial := by simpa [visited] using ht
        exact absurd hr List.not_mem_nil
      · rintro ⟨r, hr, -⟩
        exact absurd hr List.not_mem_nil
  | @snoc past s s' label run hstep ih =>
      have hsound := sound_of_run run (carries_any past)
      have hallowed : Label.Allowed .any label :=
        carries_any (past ++ [(s, label)]) (s, label) (by simp)
      obtain ⟨-, hchange⟩ := sound_step hsound hallowed hstep
      constructor
      · rintro ⟨t, ht, r, hr, hjob, hdispatched⟩
        rcases mem_visited_snoc.mp ht with hmem | rfl
        · exact sent_of_change hchange (ih.mp ⟨t, hmem, r, hr, hjob, hdispatched⟩)
        · exact ⟨r, hr, hjob, .inl hdispatched⟩
      · intro hsent
        by_cases hbefore : Sent jobId s.db
        · obtain ⟨t, ht, rest⟩ := ih.mpr hbefore
          exact ⟨t, mem_visited_snoc.mpr (.inl ht), rest⟩
        · exact ⟨s', last_mem_visited _ _, dispatched_of_change hchange hbefore hsent⟩

/-- Among the rows of the outbox, those that ask for a job are those that the
log of its workflow lists at the step's position. -/
theorem count_requests {db : Db} {r : StepRow} (hr : r ∈ db.steps.rows) :
    db.outbox.rows.countP (fun o => requestJob o = some r.jobId) =
      (flow db r.workflowId).log.count r.position := by
  simp only [flow, List.count_eq_countP, List.countP_filterMap]
  refine List.countP_congr fun o _ => ?_
  have hiff : requestJob o = some r.jobId ↔
      requestedPosition db r.workflowId o = some r.position := by
    rw [requestedPosition_eq_some]
    constructor
    · exact fun hjob => ⟨r, hr, hjob, rfl, rfl⟩
    · rintro ⟨r', hr', hjob, hworkflow, hposition⟩
      rw [hjob, eq_of_position hr' hr hworkflow hposition]
  cases hposition : requestedPosition db r.workflowId o with
  | none => simp [hiff, hposition]
  | some position => simp [hiff, hposition]

/-- What single flight is, in a state reached by a run. -/
structure Holds (past : List (System × Label)) (s : System) : Prop where
  single : ∀ a ∈ s.db.steps.rows, ∀ b ∈ s.db.steps.rows, a.workflowId = b.workflowId →
    a.status = .dispatched → b.status = .dispatched → a = b
  requested : ∀ r ∈ s.db.steps.rows, EverDispatched past s r.jobId →
    s.db.outbox.rows.countP (fun o => requestJob o = some r.jobId) = 1
  unrequested : ∀ r ∈ s.db.steps.rows, ¬ EverDispatched past s r.jobId →
    s.db.outbox.rows.countP (fun o => requestJob o = some r.jobId) = 0
  owned : ∀ o ∈ s.db.outbox.rows, (requestField o.eventType).isSome →
    ∃ r ∈ s.db.steps.rows, AsksFor o r
  ordered : ∀ workflowId,
    (s.db.outbox.rows.filterMap (requestedPosition s.db workflowId)).Pairwise (· < ·)
  passed : ∀ a ∈ s.db.steps.rows, ∀ b ∈ s.db.steps.rows, a.workflowId = b.workflowId →
    a.position < b.position → b.status = .dispatched →
      a.status = .completed ∨ a.status = .skipped ∨
        a.status = .failed ∧ a.kind = .competitorCrawl

/-- In every state that any number of orchestrators reach, whatever they are
told in whatever order, every workflow is in single flight. -/
theorem single_flight {past : List (System × Label)} {s : System}
    (run : Run (step env) System.initial past s) : Holds past s := by
  have hcoherent := (sound_of_run run (carries_any past)).coherent
  have hinFlight : ∀ r ∈ s.db.steps.rows, r.status = .dispatched →
      (flow s.db r.workflowId).progress r.position = .inFlight := by
    intro r hr hdispatched
    rw [progress_of_mem hr, hdispatched]
    rfl
  have hlogged : ∀ r ∈ s.db.steps.rows, r.position ∈ (flow s.db r.workflowId).log ↔
      EverDispatched past s r.jobId := by
    intro r hr
    rw [(hcoherent.orderly r.workflowId).logged, progress_of_mem hr, launched_iff,
      everDispatched_iff run]
    constructor
    · exact fun hlaunched => ⟨r, hr, rfl, hlaunched⟩
    · rintro ⟨r', hr', hjob, hlaunched⟩
      rwa [← eq_of_jobId hr' hr hjob]
  have hnodup : ∀ workflowId, (flow s.db workflowId).log.Nodup := fun workflowId =>
    (hcoherent.orderly workflowId).sorted.imp ne_of_lt
  refine ⟨?_, ?_, ?_, hcoherent.requested, fun workflowId => (hcoherent.orderly workflowId).sorted,
    ?_⟩
  · intro a ha b hb hworkflow hdispatched hdispatched'
    have hflight := hinFlight b hb hdispatched'
    rw [← hworkflow] at hflight
    exact eq_of_position ha hb hworkflow
      ((hcoherent.orderly a.workflowId).single (hinFlight a ha hdispatched) hflight)
  · intro r hr hever
    rw [count_requests hr]
    exact List.count_eq_one_of_mem (hnodup _) ((hlogged r hr).mpr hever)
  · intro r hr hnever
    rw [count_requests hr, List.count_eq_zero]
    exact fun hmem => hnever ((hlogged r hr).mp hmem)
  · intro a ha b hb hworkflow hlt hdispatched
    have hflight := hinFlight b hb hdispatched
    rw [← hworkflow] at hflight
    have hpassed := (hcoherent.orderly a.workflowId).before _ _ hlt (by simp [hflight])
      (by simp [hflight])
    rw [progress_of_mem ha] at hpassed
    cases hstatus : a.status with
    | completed => exact .inl rfl
    | skipped => exact .inr (.inl rfl)
    | failed =>
        by_cases hoptional : Optional a.kind
        · exact .inr (.inr ⟨rfl, hoptional⟩)
        · simp [hstatus, progressOf, hoptional, Progress.Passed] at hpassed
    | pending | dispatched => simp [hstatus, progressOf, Progress.Passed] at hpassed

/-- One audit, up to its first request. -/
theorem single_flight_started : ∃ (past : List (System × Label)) (s : System),
    past.map Prod.snd = started 0 (auditRequest "m" oneSite) "e" ∧ Holds past s ∧
      s.db.steps.rows.map (fun r => (r.position, r.status)) =
        [(1, .dispatched), (2, .pending), (3, .pending), (4, .pending), (5, .pending),
          (6, .pending)] := by
  obtain ⟨past, s, hpast, run, hstatuses⟩ :=
    Run.of_check (step asciiEnv) System.initial (started 0 (auditRequest "m" oneSite) "e")
      (fun _ s => s.db.steps.rows.map (fun r => (r.position, r.status)) =
        [(1, .dispatched), (2, .pending), (3, .pending), (4, .pending), (5, .pending),
          (6, .pending)]) (by decide +kernel)
  exact ⟨past, s, hpast, single_flight run, by simpa using hstatuses⟩

end SeoPlatform.Orchestrator.SingleFlight
