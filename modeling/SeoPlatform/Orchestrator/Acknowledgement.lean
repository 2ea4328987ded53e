import SeoPlatform.Orchestrator.Resumption

namespace SeoPlatform.Orchestrator.Acknowledgement

open SeoPlatform.Foundation.JsonValue
open SeoPlatform.Foundation.TransitionSystem
open SeoPlatform.Orchestrator.Store
open SeoPlatform.Orchestrator.StoreSpecs
open SeoPlatform.Orchestrator.Engine
open SeoPlatform.Orchestrator.AdvanceOutcomes
open SeoPlatform.Orchestrator.Snapshots
open SeoPlatform.Orchestrator.Workers
open SeoPlatform.Orchestrator.Changes
open SeoPlatform.Orchestrator.HandlerOutcomes
open SeoPlatform.Orchestrator.Coherence
open SeoPlatform.Orchestrator.Soundness
open SeoPlatform.Orchestrator.Interleavings
open SeoPlatform.Orchestrator.Resumption
open SeoPlatform.Shared.Contracts
open SeoPlatform.Shared.Events

variable {env : Env} {db db' : Db} {s s' : System}

/-- A request for a workflow has got its workflow. -/
def Started (db : Db) (e : Envelope) : Prop :=
  ∃ row ∈ db.workflows.rows, ∃ uuid, row.id = requestedId e.payload uuid

/-- Where the handling of a request may stand. -/
def Underway (db : Db) (e : Envelope) : Stage → Prop
  | .starting => True
  | .creating request => ∃ uuid, request.workflowId = requestedId e.payload uuid
  | .rereading _ | .queued _ | .closing _ => Started db e
  | .advancing _ fresh | .locked _ fresh _ => fresh = true ∧ Started db e
  | .completing | .summarising | .writing _ _ => False

/-- The ids of the workflows outlive every outcome. -/
theorem ids_of_outcome {e : Option Envelope} {choice : Choice} {stage : Stage} {next : Next}
    (h : Outcome env db e choice stage next db') {row : WorkflowRow}
    (hrow : row ∈ db.workflows.rows) : ∃ row' ∈ db'.workflows.rows, row'.id = row.id := by
  have hwritten : ∀ (t : Db) (workflowId : String) (status : WorkflowStatus)
      (report : Option Dict) (error : Option String) (events : List PendingEvent),
      t.workflows = db.workflows →
        ∃ row' ∈ (statusWritten t workflowId status report error events).workflows.rows,
          row'.id = row.id := by
    intro t workflowId status report error events ht
    exact ⟨_, mem_workflows_statusWritten.mpr ⟨row, by rwa [ht], rfl⟩, withStatusWhere_id ..⟩
  have hfinished : ∀ {t t' : Db} {w : Workflow} {status : WorkflowStatus} {error : Option String},
      t.workflows = db.workflows → Finishes env choice.eventId w status error t t' →
        ∃ row' ∈ t'.workflows.rows, row'.id = row.id := by
    rintro t t' w status error ht ⟨previous, report, -, rfl⟩
    exact hwritten t _ _ _ _ _ ht
  cases h with
  | raised | known | requested | reread | claimed | waited | closed | unwritten | written =>
      exact ⟨row, hrow, rfl⟩
  | created _ hcreated => exact ⟨row, (mem_workflows_created hcreated).mpr (.inl hrow), rfl⟩
  | begun => exact hwritten db _ _ _ _ _ rfl
  | marked _ _ => exact ⟨row, hrow, rfl⟩
  | saved => exact ⟨_, List.mem_map.mpr ⟨row, hrow, rfl⟩, withSummary_id ..⟩
  | advanced _ hadvances =>
      cases hadvances with
      | fatal _ hfinish => exact hfinished rfl hfinish
      | done _ _ hfinish => exact hfinished rfl hfinish
      | refused _ _ _ _ hfinish => exact hfinished rfl hfinish
      | sent _ _ _ => exact hwritten db _ _ _ _ _ rfl
      | @skipped _ step reason _ _ _ _ _ hpast =>
          have hskip : (skipped db step reason).workflows = db.workflows := rfl
          cases hpast with
          | done _ hfinish => exact hfinished hskip hfinish
          | refused _ _ hfinish => exact hfinished hskip hfinish
          | sent _ _ => exact hwritten (skipped db step reason) _ _ _ _ _ hskip

theorem started_of_outcome {e : Option Envelope} {e' : Envelope} {choice : Choice} {stage : Stage}
    {next : Next} (h : Outcome env db e choice stage next db') (hstarted : Started db e') :
    Started db' e' := by
  obtain ⟨row, hrow, uuid, hid⟩ := hstarted
  obtain ⟨row', hrow', hid'⟩ := ids_of_outcome h hrow
  exact ⟨row', hrow', uuid, hid'.trans hid⟩

theorem underway_of_outcome {e : Option Envelope} {e' : Envelope} {choice : Choice}
    {stage other : Stage} {next : Next} (h : Outcome env db e choice stage next db')
    (hunderway : Underway db e' other) : Underway db' e' other := by
  cases other with
  | starting | creating | completing | summarising | writing => exact hunderway
  | rereading | queued | closing => exact started_of_outcome h hunderway
  | advancing | locked => exact ⟨hunderway.1, started_of_outcome h hunderway.2⟩

/-- A handler of a request goes on where such a handler may stand, and returns
only when the workflow is there. -/
theorem underway_of_next {e : Envelope} {choice : Choice} {stage : Stage} {next : Next}
    (h : Outcome env db (some e) choice stage next db') (hunderway : Underway db e stage) :
    (∀ stage', next = .goto stage' → Underway db' e stage') ∧
      (next = .returned → Started db' e) := by
  have hstays : Started db e → Started db' e := started_of_outcome h
  cases h with
  | raised => exact ⟨by simp, by simp⟩
  | known he hknown =>
      cases he
      refine ⟨by simp, fun _ => ?_⟩
      obtain ⟨w, hw⟩ := Option.isSome_iff_exists.mp hknown
      obtain ⟨row, hrow, hid, -⟩ := snapshot_eq_some.mp hw
      exact ⟨row, hrow, _, hid⟩
  | requested he _ =>
      cases he
      refine ⟨?_, by simp⟩
      rintro stage' ⟨⟩
      exact ⟨choice.uuid, rfl⟩
  | created _ hcreated =>
      refine ⟨?_, by simp⟩
      rintro stage' ⟨⟩
      obtain ⟨uuid, hid⟩ := hunderway
      exact ⟨_, (mem_workflows_created hcreated).mpr (.inr rfl), uuid, hid⟩
  | reread =>
      refine ⟨?_, by simp⟩
      rintro stage' ⟨⟩
      exact hunderway
  | begun =>
      refine ⟨?_, by simp⟩
      rintro stage' ⟨⟩
      exact ⟨rfl, hstays hunderway⟩
  | claimed =>
      refine ⟨?_, by simp⟩
      rintro stage' ⟨⟩
      exact hunderway
  | waited hidle =>
      obtain ⟨rfl, hstarted⟩ := hunderway
      refine ⟨?_, by simp⟩
      rintro stage' ⟨⟩
      exact hstarted
  | advanced hact hadvances =>
      obtain ⟨rfl, hstarted⟩ := hunderway
      refine ⟨?_, by simp⟩
      rintro stage' ⟨⟩
      exact hstays hstarted
  | closed => exact ⟨by simp, fun _ => hunderway⟩
  | marked | unwritten | written | saved => exact hunderway.elim

/-- What is known of the messages behind the handlers: `known` holds of them,
and a request that was handled has its workflow. -/
structure Accounted (known : Envelope → Prop) (s : System) : Prop where
  acked : ∀ e ∈ s.acked, known e ∧ (e.type = .workflowRequested → Started s.db e)
  jobs : ∀ n e stage, At s n (some e) stage →
    known e ∧ (e.type = .workflowRequested → Underway s.db e stage)
  seen : ∀ n, ∀ id ∈ (s.workers n).seen, ∃ e ∈ s.acked, e.id = id

theorem accounted_initial (known : Envelope → Prop) : Accounted known System.initial where
  acked e he := absurd he List.not_mem_nil
  jobs n e stage h := by simp [At, System.initial] at h
  seen n id hid := absurd hid List.not_mem_nil

theorem mem_rememberHandled {seen : List String} {e : Option Envelope} {id : String}
    (h : id ∈ rememberHandled seen e) : id ∈ seen ∨ ∃ e', e = some e' ∧ id = e'.id := by
  cases e with
  | none => exact .inl h
  | some e' =>
      simp only [rememberHandled, remember] at h
      split at h
      · exact .inr ⟨e', rfl, List.mem_singleton.mp h⟩
      · rcases List.mem_cons.mp h with rfl | hmem
        · exact .inr ⟨e', rfl, rfl⟩
        · exact .inl hmem

variable {known : Envelope → Prop} {n : Nat}

/-- The handler of a worker settles: the messages stay accounted for. -/
theorem accounted_settle {e : Option Envelope} {next : Next} {t : System}
    (hworkers : t.workers = s.workers) (hacked : t.acked = s.acked)
    (hstarted : ∀ e' ∈ s.acked, known e' ∧ (e'.type = .workflowRequested → Started t.db e'))
    (hothers : ∀ m ≠ n, ∀ e' stage, At s m (some e') stage →
      known e' ∧ (e'.type = .workflowRequested → Underway t.db e' stage))
    (hseen : ∀ m, ∀ id ∈ (s.workers m).seen, ∃ e' ∈ s.acked, e'.id = id)
    (hown : ∀ e', e = some e' → known e' ∧ (e'.type = .workflowRequested →
      (∀ stage, next = .goto stage → Underway t.db e' stage) ∧
        (next = .returned → Started t.db e'))) :
    Accounted known (settle t n (s.workers n) e next) := by
  have hmember : ∀ e' ∈ (settle t n (s.workers n) e next).acked,
      e' ∈ s.acked ∨ next = .returned ∧ e = some e' := by
    intro e' he'
    cases next with
    | goto | raised =>
        refine .inl ?_
        rw [← hacked]
        exact he'
    | returned =>
        rcases List.mem_append.mp he' with hmem | hmem
        · exact .inr ⟨rfl, Option.mem_toList.mp hmem⟩
        · refine .inl ?_
          rw [← hacked]
          exact hmem
  have hkeeps : ∀ e' ∈ s.acked, e' ∈ (settle t n (s.workers n) e next).acked := by
    intro e' he'
    rw [← hacked] at he'
    cases next with
    | goto | raised => exact he'
    | returned => exact List.mem_append_right _ he'
  refine ⟨fun e' he' => ?_, fun m e' stage hat => ?_, fun m id hid => ?_⟩
  · rw [settle_db]
    rcases hmember e' he' with hmem | ⟨hreturned, rfl⟩
    · exact hstarted e' hmem
    · obtain ⟨hknown, hnext⟩ := hown e' rfl
      exact ⟨hknown, fun htype => (hnext htype).2 hreturned⟩
  · rw [settle_db]
    by_cases hm : m = n
    · subst hm
      obtain ⟨he, hgoto⟩ := settle_at hat
      obtain ⟨hknown, hnext⟩ := hown e' he.symm
      exact ⟨hknown, fun htype => (hnext htype).1 stage hgoto⟩
    · refine hothers m hm e' stage ?_
      unfold At at hat ⊢
      rwa [settle_of_ne _ _ _ _ hm, hworkers] at hat
  · by_cases hm : m = n
    · subst hm
      cases next with
      | goto | raised =>
          have hid' : id ∈ (s.workers m).seen := by
            simpa [settle, System.acquire, setWorker_self] using hid
          obtain ⟨e', he', hsame⟩ := hseen m id hid'
          exact ⟨e', hkeeps e' he', hsame⟩
      | returned =>
          have hid' : id ∈ rememberHandled (s.workers m).seen e := by
            simpa [settle, System.ack, setWorker_self] using hid
          rcases mem_rememberHandled hid' with hmem | ⟨e', rfl, rfl⟩
          · obtain ⟨e', he', hsame⟩ := hseen m id hmem
            exact ⟨e', hkeeps e' he', hsame⟩
          · exact ⟨e', List.mem_append_left _ (List.mem_singleton_self _), rfl⟩
    · rw [settle_of_ne _ _ _ _ hm, hworkers] at hid
      obtain ⟨e', he', hsame⟩ := hseen m id hid
      exact ⟨e', hkeeps e' he', hsame⟩

theorem accounted_run {choice : Choice} (h : Accounted known s)
    (hstep : runStep env s n choice = some s') : Accounted known s' := by
  unfold runStep at hstep
  cases hjob : (s.workers n).job with
  | none => simp [hjob] at hstep
  | some job =>
      rcases job with ⟨e, stage⟩
      simp only [hjob] at hstep
      split at hstep
      · contradiction
      · split at hstep
        · contradiction
        · obtain rfl := Option.some.inj hstep
          have houtcome := outcome_of_handlerStep env s.db e choice stage
          refine accounted_settle rfl rfl ?_ ?_ h.seen ?_
          · intro e' he'
            obtain ⟨hknown, hstarted⟩ := h.acked e' he'
            exact ⟨hknown, fun htype => started_of_outcome houtcome (hstarted htype)⟩
          · intro m _ e' other hat
            obtain ⟨hknown, hunderway⟩ := h.jobs m e' other hat
            exact ⟨hknown, fun htype => underway_of_outcome houtcome (hunderway htype)⟩
          · rintro e' rfl
            obtain ⟨hknown, hunderway⟩ := h.jobs n e' stage hjob
            exact ⟨hknown, fun htype => underway_of_next houtcome (hunderway htype)⟩

theorem accounted_deliver {e : Envelope} (h : Accounted known s) (hknown : known e)
    (hids : ∀ a b, known a → known b → a.id = b.id → a = b)
    (hstep : deliver s n e = some s') : Accounted known s' := by
  unfold deliver at hstep
  cases hjob : (s.workers n).job with
  | some job => simp [hjob] at hstep
  | none =>
      simp only [hjob] at hstep
      split at hstep
      · rename_i hseen
        obtain rfl := Option.some.inj hstep
        obtain ⟨e', he', hid⟩ := h.seen n e.id hseen
        obtain ⟨hknown', hstarted⟩ := h.acked e' he'
        obtain rfl := hids e' e hknown' hknown hid
        refine ⟨?_, h.jobs, fun m id hm => ?_⟩
        · intro a ha
          rcases List.mem_cons.mp ha with rfl | ha
          · exact ⟨hknown, hstarted⟩
          · exact h.acked a ha
        · obtain ⟨a, ha, hsame⟩ := h.seen m id hm
          exact ⟨a, List.mem_cons_of_mem _ ha, hsame⟩
      · split at hstep
        · rename_i stage hentry
          obtain rfl := Option.some.inj hstep
          refine ⟨h.acked, fun m e' other hat => ?_, fun m id hm => ?_⟩
          · by_cases hm : m = n
            · subst hm
              cases job_of_setWorker hat
              refine ⟨hknown, fun htype => ?_⟩
              rw [htype] at hentry
              cases hentry
              trivial
            · unfold At at hat
              rw [setWorker_of_ne s _ hm] at hat
              exact h.jobs m e' other hat
          · refine h.seen m id ?_
            by_cases hmn : m = n
            · subst hmn
              rwa [setWorker_self] at hm
            · rwa [setWorker_of_ne s _ hmn] at hm
        · rename_i hentry
          obtain rfl := Option.some.inj hstep
          refine accounted_settle rfl rfl h.acked (fun m _ => h.jobs m) h.seen ?_
          rintro e' ⟨⟩
          refine ⟨hknown, fun htype => ?_⟩
          rw [htype] at hentry
          contradiction

theorem accounted_idle {w : Worker} {t : System} (h : Accounted known s)
    (hdb : t.db = s.db) (hworkers : t.workers = s.workers) (hacked : t.acked = s.acked)
    (hjob : ∀ e stage, w.job ≠ some (some e, stage))
    (hseen : ∀ id ∈ w.seen, id ∈ (s.workers n).seen) : Accounted known (t.setWorker n w) where
  acked e he := by
    rw [show (t.setWorker n w).acked = t.acked from rfl, hacked] at he
    rw [show (t.setWorker n w).db = t.db from rfl, hdb]
    exact h.acked e he
  jobs m e stage hat := by
    rw [show (t.setWorker n w).db = t.db from rfl, hdb]
    by_cases hm : m = n
    · subst hm
      exact absurd (job_of_setWorker hat) (hjob e stage)
    · refine h.jobs m e stage ?_
      unfold At at hat ⊢
      rwa [setWorker_of_ne t w hm, hworkers] at hat
  seen m id hid := by
    rw [show (t.setWorker n w).acked = t.acked from rfl, hacked]
    by_cases hm : m = n
    · subst hm
      rw [setWorker_self] at hid
      exact h.seen m id (hseen id hid)
    · rw [setWorker_of_ne t w hm, hworkers] at hid
      exact h.seen m id hid

theorem accounted_step {label : Label} (h : Accounted known s)
    (hknown : ∀ n e, label = .deliver n e → known e)
    (hids : ∀ a b, known a → known b → a.id = b.id → a = b)
    (hstep : step env s label = some s') : Accounted known s' := by
  cases label with
  | deliver n e => exact accounted_deliver h (hknown n e rfl) hids hstep
  | run n choice => exact accounted_run h hstep
  | tick =>
      obtain rfl := Option.some.inj hstep
      exact ⟨h.acked, h.jobs, h.seen⟩
  | crash n =>
      obtain rfl := Option.some.inj hstep
      unfold crash
      split <;> exact accounted_idle h rfl rfl rfl (by simp) (by simp)
  | submit n request =>
      change submit s n request = some s' at hstep
      unfold submit at hstep
      split at hstep
      · contradiction
      · obtain rfl := Option.some.inj hstep
        exact accounted_idle h rfl rfl rfl (by simp) fun _ hid => hid

/-- The messages that a run delivered. -/
def Delivered (past : List (System × Label)) (e : Envelope) : Prop :=
  ∃ moment ∈ past, ∃ n, moment.2 = .deliver n e

/-- The workflow a message is about: the one it asks for, or the one whose step
it names. -/
def Concerns (db : Db) (e : Envelope) (workflowId : String) : Prop :=
  (e.type = .workflowRequested ∧
    ∃ row ∈ db.workflows.rows, row.id = workflowId ∧ ∃ uuid, row.id = requestedId e.payload uuid) ∨
  ∃ kind idField r, completions e.type = some (kind, idField) ∧ r ∈ db.steps.rows ∧
    Dict.get e.payload idField = .str r.jobId ∧ r.workflowId = workflowId

/-- Every message that a handler returned from has got its workflow, and left it
finished, waiting for exactly one step, or in the hands of a handler that is
still at work on it. -/
def Served (s : System) : Prop :=
  ∀ e ∈ s.acked, (e.type = .workflowRequested → ∃ workflowId, Concerns s.db e workflowId) ∧
    ∀ workflowId, Concerns s.db e workflowId → Settled s.db workflowId ∨
      ∃ n e' stage, At s n e' stage ∧ Carries workflowId stage

/-- In a run that cuts no handler off between the commit that made a move of its
workflow due and the `advance` that makes it, no workflow is stranded. -/
theorem no_stranded_workflow {past : List (System × Label)} {s : System}
    (run : Run (step env) System.initial past s)
    (hids : ∀ a b, Delivered past a → Delivered past b → a.id = b.id → a = b)
    (hkept : ∀ moment ∈ past, ¬ CutsOff env moment.1 moment.2) : Served s := by
  have hsound := sound_of_run run (carries_any past)
  have hattended : Sound .any s ∧ Attended s := by
    refine run.invariant_of (fun t label => Label.Allowed .any label ∧ ¬ CutsOff env t label)
      (fun moment hmem => ⟨carries_any past moment hmem, hkept moment hmem⟩)
      (fun t => Sound .any t ∧ Attended t) ⟨sound_initial _, fun row hrow => ?_⟩ ?_
    · exact absurd hrow List.not_mem_nil
    · rintro t label t' ⟨hsoundt, hattendedt⟩ ⟨hallowed, hkeptt⟩ hstep
      exact ⟨(sound_step hsoundt hallowed hstep).1,
        attended_step hattendedt hsoundt hkeptt hstep⟩
  have haccounted : Accounted (Delivered past) s := by
    refine run.invariant_of (fun _ label => ∀ n e, label = .deliver n e → Delivered past e)
      (fun moment hmem n e hlabel => ⟨moment, hmem, n, hlabel⟩) (Accounted (Delivered past))
      (accounted_initial _) ?_
    exact fun t label t' haccounted hknown hstep => accounted_step haccounted hknown hids hstep
  intro e he
  refine ⟨fun htype => ?_, fun workflowId hconcerns => ?_⟩
  · obtain ⟨row, hrow, uuid, hid⟩ := (haccounted.acked e he).2 htype
    exact ⟨row.id, .inl ⟨htype, row, hrow, rfl, uuid, hid⟩⟩
  · have hexists : ∃ row ∈ s.db.workflows.rows, row.id = workflowId := by
      rcases hconcerns with ⟨-, row, hrow, hid, -⟩ | ⟨-, -, r, -, hr, -, rfl⟩
      · exact ⟨row, hrow, hid⟩
      · exact hsound.coherent.owned r hr
    obtain ⟨row, hrow, rfl⟩ := hexists
    exact (hattended.2 row hrow).imp_left (settled_of_held hsound.coherent)

/-- Whether a stage carries a workflow. -/
def carrying : Stage → Bool
  | .rereading _ | .queued _ | .advancing _ _ => true
  | .locked _ _ (some w) =>
      !decide w.status.Terminal &&
        (!(fatalSteps w).isEmpty || w.steps.all fun s => s.status ≠ .dispatched)
  | _ => false

theorem carrying_of_carries {workflowId : String} {stage : Stage}
    (h : Carries workflowId stage) : carrying stage = true := by
  cases stage with
  | rereading | queued | advancing => rfl
  | locked other fresh loaded =>
      obtain ⟨-, w, rfl, hact⟩ := h
      simp only [carrying, Bool.and_eq_true, Bool.or_eq_true, Bool.not_eq_true',
        decide_eq_false_iff_not, List.all_eq_true, decide_eq_true_eq, List.isEmpty_eq_false_iff]
      refine ⟨hact.live, ?_⟩
      by_cases hsound : fatalSteps w = []
      · exact .inr (hact.idle hsound)
      · exact .inl hsound
  | starting | creating | completing | closing | summarising | writing => exact h.elim

def raises : Next → Bool
  | .raised => true
  | .goto _ | .returned => false

/-- Whether a step leaves every handler that carries a workflow at its work. -/
def keeps (env : Env) (s : System) : Label → Bool
  | .crash n => (s.workers n).job.all fun job => !carrying job.2
  | .run n choice =>
      (s.workers n).job.all fun job =>
        !carrying job.2 || !raises (handlerStep env s.db job.1 choice job.2).1
  | _ => true

theorem not_cutsOff_of_keeps {label : Label} (h : keeps env s label = true) :
    ¬ CutsOff env s label := by
  intro hcut
  cases label with
  | crash n =>
      obtain ⟨e, stage, workflowId, hat, hcarries⟩ := hcut
      unfold At at hat
      simp [keeps, hat, carrying_of_carries hcarries] at h
  | run n choice =>
      obtain ⟨e, stage, workflowId, hat, hcarries, hraised⟩ := hcut
      unfold At at hat
      simp [keeps, hat, carrying_of_carries hcarries, hraised, raises] at h
  | deliver | submit | tick => exact hcut

/-- One audit from its request on, on a server without faults. -/
theorem no_stranded_workflow_started : ∃ (past : List (System × Label)) (s : System),
    past.map Prod.snd = started 0 (auditRequest "m" oneSite) "e" ∧
      s.acked.map Envelope.id = ["m"] ∧ Served s := by
  obtain ⟨past, s, hpast, run, hcheck⟩ :=
    Run.of_check (step asciiEnv) System.initial (started 0 (auditRequest "m" oneSite) "e")
      (fun past s => past.all (fun moment => keeps asciiEnv moment.1 moment.2) &&
        s.acked.map Envelope.id = ["m"]) (by decide +kernel)
  obtain ⟨hkeeps, hacked⟩ := Bool.and_eq_true_iff.mp hcheck
  have honly : ∀ e, Delivered past e → e = auditRequest "m" oneSite := by
    rintro e ⟨moment, hmem, n, hlabel⟩
    have hmember : Label.deliver n e ∈ started 0 (auditRequest "m" oneSite) "e" := by
      rw [← hpast, ← hlabel]
      exact List.mem_map.mpr ⟨moment, hmem, rfl⟩
    rcases List.mem_cons.mp hmember with heq | hruns
    · cases heq
      rfl
    · exact absurd (List.eq_of_mem_replicate hruns) (by simp)
  refine ⟨past, s, hpast, by simpa using hacked, no_stranded_workflow run ?_ ?_⟩
  · intro a b ha hb _
    rw [honly a ha, honly b hb]
  · exact fun moment hmem => not_cutsOff_of_keeps (List.all_eq_true.mp hkeeps moment hmem)

/-- The worker a step is about. -/
def actor : Label → Option Nat
  | .deliver n _ | .submit n _ | .run n _ | .crash n => some n
  | .tick => none

/-- A worker that no step of a run was about is idle. -/
theorem idle_of_untouched {past : List (System × Label)} {s : System}
    (run : Run (step env) System.initial past s) (m : Nat)
    (hpast : ∀ moment ∈ past, actor moment.2 ≠ some m) : (s.workers m).job = none := by
  refine run.invariant_of (fun _ label => actor label ≠ some m) hpast
    (fun t => (t.workers m).job = none) rfl ?_
  intro t label t' hidle hactor hstep
  cases label with
  | tick =>
      obtain rfl := Option.some.inj hstep
      exact hidle
  | crash n =>
      have hm : m ≠ n := fun heq => hactor (congrArg some heq.symm)
      obtain rfl := Option.some.inj hstep
      unfold crash
      split <;>
      · rw [setWorker_of_ne _ _ hm]
        exact hidle
  | submit n request =>
      have hm : m ≠ n := fun heq => hactor (congrArg some heq.symm)
      change submit t n request = some t' at hstep
      unfold submit at hstep
      split at hstep
      · contradiction
      · obtain rfl := Option.some.inj hstep
        rwa [setWorker_of_ne _ _ hm]
  | deliver n e =>
      have hm : m ≠ n := fun heq => hactor (congrArg some heq.symm)
      change deliver t n e = some t' at hstep
      unfold deliver at hstep
      split at hstep
      · contradiction
      · split at hstep
        · obtain rfl := Option.some.inj hstep
          exact hidle
        · split at hstep <;> obtain rfl := Option.some.inj hstep
          · rwa [setWorker_of_ne _ _ hm]
          · rwa [settle_of_ne _ _ _ _ hm]
  | run n choice =>
      have hm : m ≠ n := fun heq => hactor (congrArg some heq.symm)
      change runStep env t n choice = some t' at hstep
      unfold runStep at hstep
      split at hstep
      · contradiction
      · split at hstep
        · contradiction
        · split at hstep
          · contradiction
          · obtain rfl := Option.some.inj hstep
            rwa [settle_of_ne _ _ _ _ hm]

/-- The process dies once the workflow is created; the request comes again. -/
def cutAfterCreate : List Label :=
  [.deliver 0 (auditRequest "m" oneSite), .run 0 (drawn "e"), .run 0 (drawn "e"), .crash 0,
    .deliver 0 (auditRequest "m" oneSite), .run 0 (drawn "e")]

/-- The process dies once the crawl is marked; the completion comes again. -/
def cutAfterMark : List Label :=
  started 0 (auditRequest "m" oneSite) "e" ++
    [.deliver 0 (crawlCompleted "c" "job-1" [("status", .str "completed")]), .run 0 (drawn "f"),
      .crash 0, .deliver 0 (crawlCompleted "c" "job-1" [("status", .str "completed")]),
      .run 0 (drawn "f")]

/-- Whether the first worker is idle and the tables hold one workflow, still
open and with nothing in flight, whose request was acknowledged. -/
def abandoned (s : System) : Bool :=
  (s.workers 0).job.isNone &&
    s.db.workflows.rows.all (fun row => row.id = "w" ∧ ¬ row.status.Terminal) &&
    s.db.steps.rows.all (fun r => r.status ≠ .dispatched) &&
    s.db.workflows.rows.any (fun row => row.id = "w") &&
    s.acked.any fun e => e.type = .workflowRequested ∧ requestedId e.payload "w" = "w"

theorem not_served_of_abandoned {past : List (System × Label)} {s : System}
    (run : Run (step env) System.initial past s)
    (hactors : ∀ label ∈ past.map Prod.snd, actor label = some 0)
    (h : abandoned s = true) : ¬ Served s := by
  simp only [abandoned, Bool.and_eq_true, List.all_eq_true, List.any_eq_true,
    decide_eq_true_eq, Option.isNone_iff_eq_none] at h
  obtain ⟨⟨⟨⟨hidle, hopen⟩, hflight⟩, row, hrow, hid⟩, e, he, htype, hasked⟩ := h
  intro hserved
  have hconcerns : Concerns s.db e "w" :=
    .inl ⟨htype, row, hrow, hid, "w", hid.trans hasked.symm⟩
  rcases (hserved e he).2 "w" hconcerns with
    (⟨other, hother, -, hterminal⟩ | ⟨r, hr, -, hdispatched, -⟩) | ⟨n, e', stage, hat, -⟩
  · exact (hopen other hother).2 hterminal
  · exact hflight r hr hdispatched
  · by_cases hn : n = 0
    · subst hn
      exact absurd (hat.symm.trans hidle) (by simp)
    · refine absurd (hat.symm.trans (idle_of_untouched run n fun moment hmem hactor => hn ?_))
        (by simp)
      have hzero := hactors moment.2 (List.mem_map.mpr ⟨moment, hmem, rfl⟩)
      exact (Option.some.inj (hzero.symm.trans hactor)).symm

theorem abandoned_of_labels (labels : List Label)
    (h : (replay (step asciiEnv) System.initial labels).any (fun r => abandoned r.2) = true)
    (hactors : ∀ label ∈ labels, actor label = some 0) :
    ∃ (past : List (System × Label)) (s : System), past.map Prod.snd = labels ∧
      Run (step asciiEnv) System.initial past s ∧ ¬ Served s := by
  obtain ⟨past, s, hpast, run, habandoned⟩ :=
    Run.of_check (step asciiEnv) System.initial labels (fun _ => abandoned) h
  exact ⟨past, s, hpast, run, not_served_of_abandoned run (hpast ▸ hactors) habandoned⟩

/-- A redelivery does not resume a workflow that a crash left behind. -/
theorem stranded_workflow :
    (∃ (past : List (System × Label)) (s : System), past.map Prod.snd = cutAfterCreate ∧
      Run (step asciiEnv) System.initial past s ∧ ¬ Served s) ∧
    ∃ (past : List (System × Label)) (s : System), past.map Prod.snd = cutAfterMark ∧
      Run (step asciiEnv) System.initial past s ∧ ¬ Served s := by
  constructor
  · exact abandoned_of_labels _ (by decide +kernel) (by decide +kernel)
  · exact abandoned_of_labels _ (by decide +kernel) (by decide +kernel)

end SeoPlatform.Orchestrator.Acknowledgement
