import SeoPlatform.Orchestrator.Acknowledgement

namespace SeoPlatform.Orchestrator.HandledCompletions

open SeoPlatform.Foundation.JsonValue
open SeoPlatform.Orchestrator.Acknowledgement
open SeoPlatform.Orchestrator.Changes
open SeoPlatform.Orchestrator.Coherence
open SeoPlatform.Orchestrator.Engine
open SeoPlatform.Orchestrator.FlowView
open SeoPlatform.Orchestrator.HandlerOutcomes
open SeoPlatform.Orchestrator.Interleavings
open SeoPlatform.Orchestrator.Refinement
open SeoPlatform.Orchestrator.Soundness
open SeoPlatform.Orchestrator.StepLives
open SeoPlatform.Orchestrator.Store
open SeoPlatform.Orchestrator.Workers
open SeoPlatform.Shared.Contracts
open SeoPlatform.Shared.Events

variable {env : Env} {traffic : Traffic} {db db' : Db} {s s' : System} {label : Label} {n : Nat}
  {e : Envelope} {known genuine : Envelope → Prop}

/-- A completion names the job of a step. -/
def Reports (e : Envelope) (r : StepRow) : Prop :=
  ∃ kind idField, completions e.type = some (kind, idField) ∧
    Dict.get e.payload idField = .str r.jobId

theorem jobId_of_reports {r r' : StepRow} (h : Reports e r) (h' : Reports e r') :
    r.jobId = r'.jobId := by
  obtain ⟨kind, idField, hcompletion, hget⟩ := h
  obtain ⟨kind', idField', hcompletion', hget'⟩ := h'
  rw [hcompletion] at hcompletion'
  cases hcompletion'
  rw [hget] at hget'
  exact Json.str.inj hget'

/-- The step is over. -/
def StepStatus.Over (status : StepStatus) : Prop := status = .completed ∨ status = .failed

theorem over_of_moves {r r' : StepRow} (h : Moves env traffic r r')
    (hover : StepStatus.Over r.status) : StepStatus.Over r'.status := by
  cases h with
  | stays => exact hover
  | sent hpending | passed hpending =>
      rw [hpending] at hover
      rcases hover with hover | hover <;> contradiction
  | marked hdispatched =>
      rw [hdispatched] at hover
      rcases hover with hover | hover <;> contradiction

/-- The step that a completion names was sent out. -/
def Awaited (db : Db) (e : Envelope) : Prop :=
  ∃ r ∈ db.steps.rows, Reports e r ∧ StepStatus.Launched r.status

/-- The step that a completion names is over. -/
def Noted (db : Db) (e : Envelope) : Prop :=
  ∃ r ∈ db.steps.rows, Reports e r ∧ StepStatus.Over r.status

theorem reports_of_moves {r r' : StepRow} (h : Moves env traffic r r') (hreports : Reports e r) :
    Reports e r' := by
  obtain ⟨kind, idField, hcompletion, hget⟩ := hreports
  exact ⟨kind, idField, hcompletion, by rw [hget, jobId_of_moves h]⟩

theorem awaited_of_change (h : Change env traffic db db') (hawaited : Awaited db e) :
    Awaited db' e := by
  obtain ⟨r, hr, hreports, hlaunched⟩ := hawaited
  obtain ⟨r', hr', hmoves⟩ := row_after h hr
  exact ⟨r', hr', reports_of_moves hmoves hreports, launched_of_moves hmoves hlaunched⟩

theorem noted_of_change (h : Change env traffic db db') (hnoted : Noted db e) : Noted db' e := by
  obtain ⟨r, hr, hreports, hover⟩ := hnoted
  obtain ⟨r', hr', hmoves⟩ := row_after h hr
  exact ⟨r', hr', reports_of_moves hmoves hreports, over_of_moves hmoves hover⟩

theorem noted_of_alike {e' : Envelope} (htype : e'.type = e.type)
    (hpayload : e'.payload = e.payload)
    (h : Noted db e') : Noted db e := by
  obtain ⟨r, hr, ⟨kind, idField, hcompletion, hget⟩, hover⟩ := h
  exact ⟨r, hr, ⟨kind, idField, htype ▸ hcompletion, hpayload ▸ hget⟩, hover⟩

/-- A step whose request is in the outbox was sent out. -/
theorem launched_of_asksFor (hcoherent : Coherent db) {o : OutboxRow} (ho : o ∈ db.outbox.rows)
    {r : StepRow} (hr : r ∈ db.steps.rows) (hjob : requestJob o = some r.jobId) :
    StepStatus.Launched r.status := by
  have hlogged : r.position ∈ (flow db r.workflowId).log :=
    List.mem_filterMap.mpr ⟨o, ho, requestedPosition_eq_some.mpr ⟨r, hr, hjob, rfl, rfl⟩⟩
  have hlaunched := ((hcoherent.orderly r.workflowId).logged r.position).mp hlogged
  rwa [progress_of_mem hr, launched_iff] at hlaunched

/-- The transaction that marks a completion leaves its step over. -/
theorem noted_of_marked {c : Completion} (hread : readCompletion env e.type e.payload = .ok c)
    (hawaited : Awaited db e) :
    Noted (db.updateStep c.jobId .dispatched ⟨c.status, some (some c.result), some c.error⟩) e := by
  obtain ⟨r, hr, hreports, hlaunched⟩ := hawaited
  obtain ⟨kind, idField, hcompletion, hget, -⟩ := readCompletion_ok hread
  have hjob : r.jobId = c.jobId := by
    obtain ⟨kind', idField', hcompletion', hget'⟩ := hreports
    rw [hcompletion] at hcompletion'
    cases hcompletion'
    rw [hget] at hget'
    exact (Json.str.inj hget').symm
  refine ⟨_, mem_updateStep.mpr ⟨r, hr, rfl⟩, ?_, ?_⟩
  · obtain ⟨kind', idField', hcompletion', hget'⟩ := hreports
    exact ⟨kind', idField', hcompletion', by rw [hget', updatedWhere_jobId]⟩
  · by_cases hdispatched : r.status = .dispatched
    · rw [updatedWhere_of_hit hjob hdispatched]
      exact outcome_of_completion hread
    · rw [updatedWhere_of_miss fun hhit => hdispatched hhit.2]
      exact hlaunched.resolve_left hdispatched

/-- Where a genuine completion is in hand its step was sent out, and once it is marked the
step is over. -/
structure Reported (genuine : Envelope → Prop) (s : System) : Prop where
  carried : ∀ n e stage, At s n (some e) stage → genuine e →
    Awaited s.db e ∧ (stage ≠ .completing → Noted s.db e)
  acked : ∀ e ∈ s.acked, genuine e → Noted s.db e

theorem reported_initial : Reported genuine System.initial where
  carried n e stage hat := by simp [At, System.initial] at hat
  acked e he := absurd he List.not_mem_nil

/-- What a handler of a completion leaves behind. -/
theorem noted_of_outcome {choice : Choice} {stage : Stage} {next : Next}
    (h : Outcome env db (some e) choice stage next db') (hchange : Change env traffic db db')
    (hawaited : Awaited db e) (hnoted : stage ≠ .completing → Noted db e)
    (hnext : next ≠ .raised) : Noted db' e := by
  by_cases hstage : stage = .completing
  · subst hstage
    cases h with
    | raised => contradiction
    | marked he hread =>
        cases he
        exact noted_of_marked hread hawaited
  · exact noted_of_change hchange (hnoted hstage)

theorem mem_acked_settle {t : System} {w : Worker} {o : Option Envelope} {next : Next}
    (h : e ∈ (settle t n w o next).acked) : e ∈ t.acked ∨ next = .returned ∧ o = some e := by
  cases next with
  | goto | raised => exact .inl h
  | returned =>
      rcases List.mem_append.mp h with hmem | hmem
      · exact .inr ⟨rfl, Option.mem_toList.mp hmem⟩
      · exact .inl hmem

theorem reported_run {choice : Choice} (h : Reported genuine s)
    (hchange : Change env traffic s.db s'.db) (hstep : runStep env s n choice = some s') :
    Reported genuine s' := by
  unfold runStep at hstep
  cases hjob : (s.workers n).job with
  | none => simp [hjob] at hstep
  | some job =>
      rcases job with ⟨o, stage⟩
      simp only [hjob] at hstep
      split at hstep
      · contradiction
      · split at hstep
        · contradiction
        · obtain rfl := Option.some.inj hstep
          rw [settle_db] at hchange
          have houtcome := outcome_of_handlerStep env s.db o choice stage
          -- The handler that moves has marked its completion, whatever stage it stands at.
          have hmoved : ∀ e', o = some e' → genuine e' →
              (handlerStep env s.db o choice stage).1 ≠ .raised →
                Noted (handlerStep env s.db o choice stage).2 e' := by
            rintro e' rfl hgenuine hnext
            obtain ⟨hawaited, hnoted⟩ := h.carried n e' stage hjob hgenuine
            exact noted_of_outcome houtcome hchange hawaited hnoted hnext
          refine ⟨fun m e' other hat hgenuine => ?_, fun e' he' hgenuine => ?_⟩
          · rw [settle_db]
            by_cases hm : m = n
            · subst hm
              obtain ⟨ho, hnext⟩ := settle_at hat
              have hawaited := (h.carried m e' stage (ho ▸ hjob) hgenuine).1
              refine ⟨awaited_of_change hchange hawaited, fun _ => ?_⟩
              exact hmoved e' ho.symm hgenuine (by simp [hnext])
            · have hbefore : At s m (some e') other := by
                unfold At at hat ⊢
                rwa [settle_of_ne _ _ _ _ hm] at hat
              obtain ⟨hawaited, hnoted⟩ := h.carried m e' other hbefore hgenuine
              exact ⟨awaited_of_change hchange hawaited,
                fun hstage => noted_of_change hchange (hnoted hstage)⟩
          · rw [settle_db]
            rcases mem_acked_settle he' with hbefore | ⟨hnext, ho⟩
            · exact noted_of_change hchange (h.acked e' hbefore hgenuine)
            · exact hmoved e' ho hgenuine (by simp [hnext])

theorem entry_of_completion (h : (completions e.type).isSome) :
    entry e.type = some .completing := by
  cases htype : e.type <;> rw [htype] at h <;> first | rfl | contradiction

/-- What is known of the ids of messages: one stands for one message. -/
structure Alike (known genuine : Envelope → Prop) : Prop where
  same : ∀ a b, known a → known b → a.id = b.id → a.type = b.type ∧ a.payload = b.payload
  earlier : ∀ a b, known a → known b → a.id = b.id → genuine b → genuine a
  completes : ∀ e, genuine e → (completions e.type).isSome

theorem reported_deliver (halike : Alike known genuine) (haccounted : Accounted known s)
    (h : Reported genuine s) (he : known e) (hawaited : genuine e → Awaited s.db e)
    (hstep : deliver s n e = some s') : Reported genuine s' := by
  unfold deliver at hstep
  cases hjob : (s.workers n).job with
  | some job => simp [hjob] at hstep
  | none =>
      simp only [hjob] at hstep
      split at hstep
      · rename_i hseen
        obtain rfl := Option.some.inj hstep
        refine ⟨h.carried, fun e' he' hgenuine => ?_⟩
        rcases List.mem_cons.mp he' with rfl | hbefore
        · obtain ⟨before, hbefore, hid⟩ := haccounted.seen n e'.id hseen
          have hknown := (haccounted.acked before hbefore).1
          obtain ⟨htype, hpayload⟩ := halike.same before e' hknown he hid
          have hearlier := halike.earlier before e' hknown he hid hgenuine
          exact noted_of_alike htype hpayload (h.acked before hbefore hearlier)
        · exact h.acked e' hbefore hgenuine
      · split at hstep
        · rename_i stage hentry
          obtain rfl := Option.some.inj hstep
          refine ⟨fun m e' other hat hgenuine => ?_, h.acked⟩
          by_cases hm : m = n
          · subst hm
            cases job_of_setWorker hat
            rw [entry_of_completion (halike.completes e hgenuine)] at hentry
            cases hentry
            exact ⟨hawaited hgenuine, fun hstage => absurd rfl hstage⟩
          · unfold At at hat
            rw [setWorker_of_ne s _ hm] at hat
            exact h.carried m e' other hat hgenuine
        · rename_i hentry
          obtain rfl := Option.some.inj hstep
          refine ⟨fun m e' other hat hgenuine => ?_, fun e' he' hgenuine => ?_⟩
          · by_cases hm : m = n
            · subst hm
              have hnext := (settle_at hat).2
              contradiction
            · unfold At at hat
              rw [settle_of_ne _ _ _ _ hm] at hat
              exact h.carried m e' other hat hgenuine
          · rcases mem_acked_settle he' with hbefore | ⟨-, ho⟩
            · exact h.acked e' hbefore hgenuine
            · cases ho
              rw [entry_of_completion (halike.completes e hgenuine)] at hentry
              contradiction

/-- A worker that drops what it does leaves the others at their work. -/
theorem reported_idle {w : Worker} {t : System} (h : Reported genuine s) (hdb : t.db = s.db)
    (hworkers : t.workers = s.workers) (hacked : t.acked = s.acked)
    (hjob : ∀ e stage, w.job ≠ some (some e, stage)) : Reported genuine (t.setWorker n w) where
  carried m e stage hat hgenuine := by
    rw [show (t.setWorker n w).db = t.db from rfl, hdb]
    by_cases hm : m = n
    · subst hm
      exact absurd (job_of_setWorker hat) (hjob e stage)
    · unfold At at hat
      rw [setWorker_of_ne t w hm, hworkers] at hat
      exact h.carried m e stage hat hgenuine
  acked e he hgenuine := by
    rw [show (t.setWorker n w).db = t.db from rfl, hdb]
    exact h.acked e (hacked ▸ he) hgenuine

/-- Messages with equal ids have equal workflows. -/
theorem accounted_deliver_of_alike (halike : Alike known genuine) (h : Accounted known s)
    (he : known e) (hstep : deliver s n e = some s') : Accounted known s' := by
  unfold deliver at hstep
  cases hjob : (s.workers n).job with
  | some job => simp [hjob] at hstep
  | none =>
      simp only [hjob] at hstep
      split at hstep
      · rename_i hseen
        obtain rfl := Option.some.inj hstep
        obtain ⟨before, hbefore, hid⟩ := h.seen n e.id hseen
        obtain ⟨hknown, hstarted⟩ := h.acked before hbefore
        obtain ⟨htype, hpayload⟩ := halike.same before e hknown he hid
        refine ⟨fun a ha => ?_, h.jobs, fun m id hm => ?_⟩
        · rcases List.mem_cons.mp ha with rfl | ha
          · refine ⟨he, fun hrequest => ?_⟩
            obtain ⟨row, hrow, uuid, hrowid⟩ := hstarted (htype.trans hrequest)
            exact ⟨row, hrow, uuid, hpayload ▸ hrowid⟩
          · exact h.acked a ha
        · obtain ⟨a, ha, hsame⟩ := h.seen m id hm
          exact ⟨a, List.mem_cons_of_mem _ ha, hsame⟩
      · split at hstep
        · rename_i stage hentry
          obtain rfl := Option.some.inj hstep
          refine ⟨h.acked, fun m e' other hat => ?_, fun m id hm => ?_⟩
          · by_cases hm : m = n
            · subst hm
              cases job_of_setWorker hat
              refine ⟨he, fun htype => ?_⟩
              rw [htype] at hentry
              cases hentry
              trivial
            · unfold At at hat
              rw [setWorker_of_ne s _ hm] at hat
              exact h.jobs m e' other hat
          · refine h.seen m id ?_
            by_cases hmn : m = n
            · subst hmn
              rwa [setWorker_self] at hm
            · rwa [setWorker_of_ne s _ hmn] at hm
        · rename_i hentry
          obtain rfl := Option.some.inj hstep
          refine accounted_settle rfl rfl h.acked (fun m _ => h.jobs m) h.seen ?_
          rintro e' ⟨⟩
          refine ⟨he, fun htype => ?_⟩
          rw [htype] at hentry
          contradiction

/-- One step of the orchestrators keeps the account of the messages. -/
theorem handled_step (halike : Alike known genuine) (hsound : Sound .any s)
    (h : Accounted known s ∧ Reported genuine s)
    (hdeliver : ∀ n e, label = .deliver n e → known e ∧ (genuine e → Awaited s.db e))
    (hstep : step env s label = some s') : Accounted known s' ∧ Reported genuine s' := by
  have hchange := (sound_step hsound (allowed_any label) hstep).2
  obtain ⟨haccounted, hreported⟩ := h
  cases label with
  | deliver n e =>
      obtain ⟨hknown, hawaited⟩ := hdeliver n e rfl
      exact ⟨accounted_deliver_of_alike halike haccounted hknown hstep,
        reported_deliver halike haccounted hreported hknown hawaited hstep⟩
  | run n choice => exact ⟨accounted_run haccounted hstep, reported_run hreported hchange hstep⟩
  | tick =>
      obtain rfl := Option.some.inj hstep
      exact ⟨⟨haccounted.acked, haccounted.jobs, haccounted.seen⟩,
        ⟨hreported.carried, hreported.acked⟩⟩
  | crash n =>
      obtain rfl := Option.some.inj hstep
      unfold crash
      split <;> exact ⟨accounted_idle haccounted rfl rfl rfl (by simp) (by simp),
        reported_idle hreported rfl rfl rfl (by simp)⟩
  | submit n request =>
      change submit s n request = some s' at hstep
      unfold submit at hstep
      split at hstep
      · contradiction
      · obtain rfl := Option.some.inj hstep
        exact ⟨accounted_idle haccounted rfl rfl rfl (by simp) fun _ hid => hid,
          reported_idle hreported rfl rfl rfl (by simp)⟩

end SeoPlatform.Orchestrator.HandledCompletions
