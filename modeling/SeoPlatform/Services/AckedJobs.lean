import SeoPlatform.Services.Completions
import SeoPlatform.Services.Crawl
import SeoPlatform.Services.JobWorker
import SeoPlatform.Services.Serp

namespace SeoPlatform.Services.AckedJobs

open SeoPlatform.Foundation.JsonValue
open SeoPlatform.Foundation.SqlTransaction
open SeoPlatform.Foundation.TransitionSystem
open SeoPlatform.Foundation.UrlText
open SeoPlatform.Services.Completions
open SeoPlatform.Services.JobWorker
open SeoPlatform.Services.Runs
open SeoPlatform.Shared.Contracts
open SeoPlatform.Shared.Events
open SeoPlatform.Shared.Exceptions
open SeoPlatform.Shared.Jobs
open SeoPlatform.Shared.JobSpecs
open SeoPlatform.Shared.PostgresStore

/-- Worker `n` handles `e` and stands at `stage`. -/
def At {service : Service} (s : System service) (n : Nat) (e : Envelope)
    (stage : Stage service) : Prop :=
  (s.workers n).job = some (e, stage)

/-- Worker `n` is at work on the job `id`. -/
def Works (server : Server) {service : Service} (s : System service) (n : Nat) (id : String) :
    Prop :=
  ∃ e jobId request, At s n e (.working jobId request) ∧ server.uuid jobId = some id

/-- The job that a message names has ended and said so, or a live handler is at
work on it. -/
def Handled (server : Server) {service : Service} (s : System service) (e : Envelope) : Prop :=
  ∀ named, Dict.get? e.payload service.idField = some (.str named) → named ≠ "" →
    ∃ id record, server.uuid named = some id ∧ s.db.job? id = some record ∧
      ((record.status.Terminal ∧ Announced service server s.db record) ∨ ∃ n, Works server s n id)

/-- Worker `n` alone is at work on a job that its row calls running. -/
def Alone (server : Server) {service : Service} (s : System service) (n : Nat) : Prop :=
  ∃ id record, Works server s n id ∧ s.db.job? id = some record ∧ record.status = .running ∧
    ∀ m, Works server s m id → m = n

/-- The step leaves a running job without a handler: the process of the only one at
work on it dies, or the transaction that ends the job raises. -/
def Abandons (server : Server) (wording : Wording) {service : Service} (s : System service) :
    Label service → Prop
  | .crash n => Alone server s n
  | .run n choice => Alone server s n ∧ ∃ e stage, At s n e stage ∧
      (handlerStep server wording s.db e choice stage).1 = .raised
  | .deliver _ _ | .tick => False

variable {service : Service} {server : Server} {wording : Wording} {db db' : JobDb}
  {e : Envelope} {choice : Choice service} {s s' : System service} {label : Label service}

section Effects

/-- What one transaction of a handler can do. -/
inductive Effect (server : Server) (e : Envelope) (choice : Choice service) (db : JobDb) :
    Stage service → Next service → JobDb → Prop
  | raised (stage : Stage service) : Effect server e choice db stage .raised db
  | skipped {id : String} {record : JobRecord}
      (hid : server.uuid (requestedId service e.payload choice.uuid) = some id)
      (hrecord : db.job? id = some record) (hstatus : record.status ≠ .queued) :
      Effect server e choice db .starting .returned db
  | absent (request : service.Request) :
      Effect server e choice db .starting
        (.goto (.creating (requestedId service e.payload choice.uuid) request)) db
  | present (request : service.Request) :
      Effect server e choice db .starting
        (.goto (.marking (requestedId service e.payload choice.uuid) request)) db
  | created {jobId : String} {request : service.Request} {db' : JobDb}
      (h : Inserted server (newJob e jobId request) db db') :
      Effect server e choice db (.creating jobId request) (.goto (.marking jobId request)) db'
  | marked {jobId : String} {request : service.Request} {record : JobRecord} {db' : JobDb}
      (h : Ended server jobId .running [] db record db') :
      Effect server e choice db (.marking jobId request) (.goto (.working jobId request)) db'
  | finished {jobId : String} {request : service.Request} {record : JobRecord} {db' : JobDb}
      (h : Ended server jobId (statusOf (resultOf service.work request choice.given))
        (eventsOf e jobId request choice) db record db') :
      Effect server e choice db (.working jobId request) .returned db'

/-- A transaction of a handler raises and changes nothing, or commits. -/
theorem after_meets {α : Type} {p : JobTx α} {R : JobDb → α → JobDb → Prop} (hp : Meets p R)
    (hclean : Clean p) (faults : List (Option Exn)) (next : α → Next service)
    (P : Next service → JobDb → Prop) (hraised : P .raised db)
    (hreturned : ∀ a db', R db a db' → P (next a) db') :
    P (after (transaction p faults db) next).1 (after (transaction p faults db) next).2 := by
  rcases transaction_meets hp hclean faults db with ⟨error, hrun⟩ | ⟨a, db', hrun, h⟩
  · rw [hrun]
    exact hraised
  · rw [hrun]
    exact hreturned a db' h

theorem effect_start : Effect server e choice db .starting
    (start server wording db e choice).1 (start server wording db e choice).2 := by
  unfold start
  split
  · exact .raised _
  · split
    · exact .raised _
    · rename_i request _
      refine after_meets get_meets get_clean choice.faults _
        (Effect server e choice db .starting) (.raised _) ?_
      rintro found db' ⟨hsame, id, hid, rfl⟩
      subst db'
      cases hrecord : db.job? id with
      | none => exact .absent request
      | some record =>
          simp only [guarded]
          split
          · rename_i hstatus
            refine .skipped (uuid_of_readId hid) hrecord ?_
            rcases hstatus with hstatus | hstatus <;> simp [hstatus]
          · exact .present request

theorem effect_of_handlerStep (server : Server) (wording : Wording) (db : JobDb) (e : Envelope)
    (choice : Choice service) (stage : Stage service) : Effect server e choice db stage
    (handlerStep server wording db e choice stage).1
    (handlerStep server wording db e choice stage).2 := by
  cases stage with
  | starting => exact effect_start
  | creating jobId request =>
      exact after_meets (create_meets _ _) (create_clean _ _) choice.faults _
        (Effect server e choice db (.creating jobId request)) (.raised _)
        fun _ _ h => .created h
  | marking jobId request =>
      exact after_meets markRunning_meets (write_clean _ _) choice.faults _
        (Effect server e choice db (.marking jobId request)) (.raised _)
        fun _ _ h => .marked h
  | working jobId request =>
      exact after_meets (finish_meets _) (finish_clean _) choice.faults _
        (Effect server e choice db (.working jobId request)) (.raised _)
        fun _ _ h => .finished h

end Effects

section Steps

variable {m n : Nat} {id : String} {record : JobRecord} {stage : Stage service}
  {known : Envelope → Prop}

@[simp] theorem setWorker_same {w : Worker service} : (s.setWorker n w).workers n = w :=
  Function.update_self _ _ _

theorem setWorker_other {w : Worker service} (h : m ≠ n) :
    (s.setWorker n w).workers m = s.workers m :=
  Function.update_of_ne h _ _

@[simp] theorem db_settle (next : Next service) : (settle s n e next).db = s.db := by
  cases next <;> rfl

theorem settle_other (next : Next service) (h : m ≠ n) :
    (settle s n e next).workers m = s.workers m := by
  cases next <;> exact setWorker_other h

theorem runStep_cases (h : runStep server wording s n choice = some s') :
    ∃ e stage, At s n e stage ∧ drawsFresh s.db e choice stage = true ∧
      s' = settle { s with db := (handlerStep server wording s.db e choice stage).2 } n e
        (handlerStep server wording s.db e choice stage).1 := by
  unfold runStep at h
  split at h
  · contradiction
  · rename_i e stage hat
    split at h
    · rename_i hfresh
      exact ⟨e, stage, hat, hfresh, (Option.some.inj h).symm⟩
    · contradiction

theorem works_of_same (hsame : s'.workers m = s.workers m) (h : Works server s m id) :
    Works server s' m id := by
  obtain ⟨e, jobId, request, hat, hid⟩ := h
  exact ⟨e, jobId, request, by rw [At, hsame]; exact hat, hid⟩

/-- A worker at another stage is at work on no job. -/
theorem ne_of_works (hat : At s n e stage)
    (hstage : ∀ jobId request, stage ≠ .working jobId request) (h : Works server s m id) :
    m ≠ n := by
  rintro rfl
  obtain ⟨e', jobId, request, hat', -⟩ := h
  rw [At, hat, Option.some.injEq, Prod.mk.injEq] at hat'
  exact hstage jobId request hat'.2

/-- A worker at work on one job is at work on no other. -/
theorem works_unique {jobId : String} {request : service.Request}
    (hat : At s n e (.working jobId request)) (h : Works server s n id) :
    server.uuid jobId = some id := by
  obtain ⟨e', jobId', request', hat', hid⟩ := h
  rw [At, hat, Option.some.injEq, Prod.mk.injEq, Stage.working.injEq] at hat'
  rw [hat'.2.1]
  exact hid

/-- No running job is without a handler, and none has ended without its event. -/
structure Attended (server : Server) (s : System service) : Prop where
  running : ∀ id record, s.db.job? id = some record → record.status = .running →
    ∃ n, Works server s n id
  ended : ∀ id record, s.db.job? id = some record → record.status.Terminal →
    Announced service server s.db record

theorem attended_initial : Attended server (System.initial : System service) where
  running _ _ hrecord := nomatch hrecord
  ended _ _ hrecord := nomatch hrecord

/-- Where the rows stay as they are, and every running job has a handler other than
the one that moves, the others keep the jobs attended. -/
theorem attended_elsewhere (h : Attended server s) (hjobs : s'.db.jobs = s.db.jobs)
    (houtbox : s'.db.outbox = s.db.outbox) (hothers : ∀ m, m ≠ n → s'.workers m = s.workers m)
    (hrunning : ∀ id record, s.db.job? id = some record → record.status = .running →
      ∃ m, m ≠ n ∧ Works server s m id) : Attended server s' := by
  have hsame : ∀ id, s'.db.job? id = s.db.job? id := fun id => by rw [JobDb.job?, hjobs]; rfl
  constructor
  · intro id record hrecord hstatus
    rw [hsame] at hrecord
    obtain ⟨m, hne, hworks⟩ := hrunning id record hrecord hstatus
    exact ⟨m, works_of_same (hothers m hne) hworks⟩
  · intro id record hrecord hstatus
    rw [hsame] at hrecord
    exact (h.ended id record hrecord hstatus).mono fun row hrow => by rwa [houtbox]

/-- A worker that is at work on no job leaves the running ones to the others. -/
theorem running_elsewhere (h : Attended server s)
    (hidle : ∀ id, ¬ Works server s n id) (hrecord : s.db.job? id = some record)
    (hstatus : record.status = .running) : ∃ m, m ≠ n ∧ Works server s m id := by
  obtain ⟨m, hworks⟩ := h.running id record hrecord hstatus
  refine ⟨m, ?_, hworks⟩
  rintro rfl
  exact hidle id hworks

/-- Nor does one that is not alone take the last handler from a job. -/
theorem running_elsewhere_of_not_alone (h : Attended server s) (halone : ¬ Alone server s n)
    (hrecord : s.db.job? id = some record) (hstatus : record.status = .running) :
    ∃ m, m ≠ n ∧ Works server s m id := by
  obtain ⟨m, hworks⟩ := h.running id record hrecord hstatus
  by_contra hnone
  push Not at hnone
  have honly : ∀ m, Works server s m id → m = n := fun m hm => by
    by_contra hne
    exact hnone m hne hm
  obtain rfl := honly m hworks
  exact halone ⟨id, record, hworks, hrecord, hstatus, honly⟩

theorem attended_created {jobId : String} {request : service.Request} (h : Attended server s)
    (hat : At s n e stage) (hstage : ∀ jobId request, stage ≠ .working jobId request)
    (hinserted : Inserted server (newJob e jobId request) s.db s'.db)
    (hothers : ∀ m, m ≠ n → s'.workers m = s.workers m) : Attended server s' := by
  have hrow : ∀ id record, s'.db.job? id = some record → record.status ≠ .queued →
      s.db.job? id = some record := by
    intro id record hrecord hstatus
    rcases (job?_of_inserted hinserted id).2 with hsame | ⟨row, -, -, -, hnew⟩
    · rwa [← hsame]
    · obtain rfl := Option.some.inj (hnew.symm.trans hrecord)
      exact absurd rfl hstatus
  constructor
  · intro id record hrecord hstatus
    obtain ⟨m, hworks⟩ := h.running id record (hrow id record hrecord (by simp [hstatus])) hstatus
    exact ⟨m, works_of_same (hothers m (ne_of_works hat hstage hworks)) hworks⟩
  · intro id record hrecord hstatus
    have hbefore := hrow id record hrecord (by rintro heq; rw [heq] at hstatus; exact hstatus)
    refine (h.ended id record hbefore hstatus).mono fun row hmem => ?_
    rwa [outbox_of_inserted hinserted]

theorem attended_marked {jobId : String} {request : service.Request} (h : Attended server s)
    (hat : At s n e (.marking jobId request)) (hafter : At s' n e (.working jobId request))
    (hended : Ended server jobId .running [] s.db record s'.db)
    (hothers : ∀ m, m ≠ n → s'.workers m = s.workers m) : Attended server s' := by
  constructor
  · intro id found hfound hstatus
    rw [hended.rows] at hfound
    split at hfound
    · rename_i hid
      exact ⟨n, e, jobId, request, hafter, hid ▸ hended.named⟩
    · obtain ⟨m, hworks⟩ := h.running id found hfound hstatus
      exact ⟨m, works_of_same (hothers m (ne_of_works hat (by simp) hworks)) hworks⟩
  · intro id found hfound hstatus
    rw [hended.rows] at hfound
    split at hfound
    · obtain rfl := Option.some.inj hfound
      rw [hended.status] at hstatus
      contradiction
    · refine (h.ended id found hfound hstatus).mono fun row hmem => ?_
      rw [hended.outbox]
      exact hmem

theorem attended_finished {jobId : String} {request : service.Request} (h : Attended server s)
    (hat : At s n e (.working jobId request))
    (hfresh : freshIds s.db (eventsOf e jobId request choice) = true)
    (hended : Ended server jobId (statusOf (resultOf service.work request choice.given))
      (eventsOf e jobId request choice) s.db record s'.db)
    (hothers : ∀ m, m ≠ n → s'.workers m = s.workers m) : Attended server s' := by
  have hrows := rows_of_ended hended hfresh
  constructor
  · intro id found hfound hstatus
    rw [hended.rows] at hfound
    split at hfound
    · obtain rfl := Option.some.inj hfound
      have hterminal := terminal_statusOf (resultOf service.work request choice.given)
      rw [← hended.status, hstatus] at hterminal
      exact hterminal.elim
    · rename_i hother
      obtain ⟨m, hworks⟩ := h.running id found hfound hstatus
      refine ⟨m, works_of_same (hothers m ?_) hworks⟩
      rintro rfl
      have hid := works_unique hat hworks
      rw [hended.named] at hid
      exact hother (Option.some.inj hid).symm
  · intro id found hfound hstatus
    rw [hended.rows] at hfound
    split at hfound
    · obtain rfl := Option.some.inj hfound
      exact announced_of_ended hended hfresh
    · refine (h.ended id found hfound hstatus).mono fun row hmem => ?_
      rw [hrows]
      exact List.mem_append_left _ hmem

theorem attended_run {next : Next service} (h : Attended server s) (hat : At s n e stage)
    (hfresh : drawsFresh s.db e choice stage = true)
    (heffect : Effect server e choice s.db stage next db')
    (hkept : next = .raised → ¬ Alone server s n) :
    Attended server (settle { s with db := db' } n e next) := by
  have hothers : ∀ m, m ≠ n → (settle { s with db := db' } n e next).workers m = s.workers m :=
    fun m hne => settle_other next hne
  have hidle : (∀ jobId request, stage ≠ .working jobId request) → ∀ id, ¬ Works server s n id :=
    fun hstage id hworks => ne_of_works hat hstage hworks rfl
  cases heffect with
  | raised =>
      exact attended_elsewhere h (by simp) (by simp) hothers
        fun id record => running_elsewhere_of_not_alone h (hkept rfl)
  | skipped | absent | present =>
      exact attended_elsewhere h (by simp) (by simp) hothers
        fun id record => running_elsewhere h (hidle (by simp))
  | created hinserted => exact attended_created h hat (by simp) (by simpa using hinserted) hothers
  | marked hended =>
      exact attended_marked h hat (by simp [At, settle]) (by simpa using hended) hothers
  | finished hended => exact attended_finished h hat hfresh (by simpa using hended) hothers

theorem attended_step (h : Attended server s) (hkept : ¬ Abandons server wording s label)
    (hstep : step server wording s label = some s') : Attended server s' := by
  cases label with
  | deliver n e =>
      change deliver s n e = some s' at hstep
      unfold deliver at hstep
      split at hstep
      · contradiction
      · rename_i hfree
        have hidle : (s.workers n).job = none := by
          simpa using (not_or.mp hfree).1
        split at hstep
        · obtain rfl := Option.some.inj hstep
          exact ⟨h.running, h.ended⟩
        · obtain rfl := Option.some.inj hstep
          refine attended_elsewhere h rfl rfl (fun m hne => setWorker_other hne) ?_
          intro id record hrecord hstatus
          refine running_elsewhere h ?_ hrecord hstatus
          rintro id ⟨e', jobId, request, hat, -⟩
          rw [At, hidle] at hat
          contradiction
  | crash n =>
      obtain rfl := Option.some.inj hstep
      exact attended_elsewhere h rfl rfl (fun m hne => setWorker_other hne)
        fun id record => running_elsewhere_of_not_alone h hkept
  | tick =>
      obtain rfl := Option.some.inj hstep
      exact ⟨h.running, h.ended⟩
  | run n choice =>
      obtain ⟨e, stage, hat, hfresh, rfl⟩ := runStep_cases hstep
      apply attended_run h hat hfresh (effect_of_handlerStep server wording s.db e choice stage)
      intro hraised halone
      exact hkept ⟨halone, e, stage, hat, hraised⟩

/-- The job a handler has picked. -/
def picked : Stage service → Option String
  | .starting => none
  | .creating jobId _ | .marking jobId _ | .working jobId _ => some jobId

/-- The message asks for a job that is no longer queued. -/
def Begun (server : Server) (service : Service) (db : JobDb) (e : Envelope) : Prop :=
  ∃ uuid id record, server.uuid (requestedId service e.payload uuid) = some id ∧
    db.job? id = some record ∧ record.status ≠ .queued

/-- Handlers work on the jobs that their messages ask for, and the messages that
were acknowledged, or are remembered, have had their jobs begun. -/
structure Accounted (server : Server) (known : Envelope → Prop) (s : System service) : Prop where
  asked : ∀ n e stage jobId, At s n e stage → picked stage = some jobId →
    ∃ uuid, jobId = requestedId service e.payload uuid
  carried : ∀ n e stage, At s n e stage → known e
  acked : ∀ e ∈ s.acked, known e ∧ Begun server service s.db e
  seen : ∀ n, ∀ id ∈ (s.workers n).seen, ∃ e ∈ s.acked, e.id = id

theorem accounted_initial : Accounted server known (System.initial : System service) where
  asked _ _ _ _ hat := nomatch hat
  carried _ _ _ hat := nomatch hat
  acked _ he := absurd he List.not_mem_nil
  seen _ _ hid := absurd hid List.not_mem_nil

/-- No transaction of a handler makes a job queued again, or deletes it. -/
theorem begun_of_effect {next : Next service} (heffect : Effect server e choice db stage next db')
    {asking : Envelope} (h : Begun server service db asking) :
    Begun server service db' asking := by
  obtain ⟨uuid, id, record, hid, hrecord, hstatus⟩ := h
  have hended : ∀ {jobId : String} {status : JobStatus} {events : List PendingEvent}
      {written : JobRecord}, status ≠ .queued →
      Ended server jobId status events db written db' → Begun server service db' asking := by
    intro jobId status events written hne hended
    by_cases hsame : id = written.jobId
    · refine ⟨uuid, id, written, hid, by rw [hended.rows, if_pos hsame], ?_⟩
      rwa [hended.status]
    · exact ⟨uuid, id, record, hid, by rwa [hended.rows, if_neg hsame], hstatus⟩
  cases heffect with
  | raised | skipped | absent | present => exact ⟨uuid, id, record, hid, hrecord, hstatus⟩
  | created hinserted =>
      rcases (job?_of_inserted hinserted id).2 with hsame | ⟨row, -, -, hnone, -⟩
      · exact ⟨uuid, id, record, hid, hsame.trans hrecord, hstatus⟩
      · rw [hnone] at hrecord
        contradiction
  | marked h => exact hended (by simp) h
  | finished h => exact hended (statusOf_ne_queued _) h

section Settled

variable {next : Next service} {e' : Envelope} {stage' : Stage service}

theorem at_settle (h : At (settle s n e next) m e' stage') :
    (m ≠ n ∧ At s m e' stage') ∨ (m = n ∧ e' = e ∧ next = .goto stage') := by
  by_cases hne : m = n
  · subst hne
    refine Or.inr ⟨rfl, ?_⟩
    cases next with
    | goto stage =>
        simp only [At, settle, setWorker_same, Option.some.injEq, Prod.mk.injEq] at h
        exact ⟨h.1.symm, by rw [h.2]⟩
    | returned => simp [At, settle, System.setWorker] at h
    | raised => simp [At, settle] at h
  · rw [At, settle_other next hne] at h
    exact Or.inl ⟨hne, h⟩

theorem mem_acked_settle :
    e' ∈ (settle s n e next).acked ↔ e' ∈ s.acked ∨ (next = .returned ∧ e' = e) := by
  cases next with
  | goto stage => simp [settle, System.setWorker]
  | returned => simp [settle, or_comm]
  | raised => simp [settle, System.setWorker]

theorem mem_seen_settle (h : id ∈ ((settle s n e next).workers m).seen) :
    id ∈ (s.workers m).seen ∨ (next = .returned ∧ id = e.id) := by
  by_cases hne : m = n
  · subst hne
    cases next with
    | goto stage => exact Or.inl (by simpa [settle] using h)
    | raised => exact Or.inl (by simpa [settle] using h)
    | returned =>
        have hremembered : id ∈ remember (s.workers m).seen e.id := by
          simpa [settle, System.setWorker] using h
        unfold remember at hremembered
        split at hremembered
        · exact Or.inr ⟨rfl, List.mem_singleton.mp hremembered⟩
        · rcases List.mem_cons.mp hremembered with heq | hmem
          · exact Or.inr ⟨rfl, heq⟩
          · exact Or.inl hmem
  · rw [settle_other next hne] at h
    exact Or.inl h

end Settled

theorem picked_of_effect {stage' : Stage service} {jobId : String}
    (heffect : Effect server e choice db stage (.goto stage') db')
    (hpicked : picked stage' = some jobId) :
    picked stage = some jobId ∨ ∃ uuid, jobId = requestedId service e.payload uuid := by
  cases heffect with
  | absent request | present request =>
      obtain rfl := Option.some.inj hpicked
      exact Or.inr ⟨choice.uuid, rfl⟩
  | created | marked => exact Or.inl hpicked

/-- A handler that returns has had its job begun. -/
theorem begun_of_returned (heffect : Effect server e choice db stage .returned db')
    (hasked : ∀ jobId, picked stage = some jobId →
      ∃ uuid, jobId = requestedId service e.payload uuid) : Begun server service db' e := by
  cases heffect with
  | skipped hid hrecord hstatus => exact ⟨_, _, _, hid, hrecord, hstatus⟩
  | @finished jobId request record db' h =>
      obtain ⟨uuid, rfl⟩ := hasked jobId rfl
      refine ⟨uuid, record.jobId, record, h.named, by rw [h.rows, if_pos rfl], ?_⟩
      rw [h.status]
      exact statusOf_ne_queued _

theorem accounted_run {next : Next service} (h : Accounted server known s) (hat : At s n e stage)
    (heffect : Effect server e choice s.db stage next db') :
    Accounted server known (settle { s with db := db' } n e next) := by
  have hasked := h.asked n e stage
  constructor
  · intro m e' stage' jobId hat' hpicked
    rcases at_settle hat' with ⟨-, hbefore⟩ | ⟨-, rfl, rfl⟩
    · exact h.asked m e' stage' jobId hbefore hpicked
    · rcases picked_of_effect heffect hpicked with hbefore | hdone
      · exact hasked jobId hat hbefore
      · exact hdone
  · intro m e' stage' hat'
    rcases at_settle hat' with ⟨-, hbefore⟩ | ⟨-, rfl, -⟩
    · exact h.carried m e' stage' hbefore
    · exact h.carried n e' stage hat
  · intro e' he'
    rw [db_settle]
    rcases mem_acked_settle.mp he' with hbefore | ⟨rfl, rfl⟩
    · exact ⟨(h.acked e' hbefore).1, begun_of_effect heffect (h.acked e' hbefore).2⟩
    · exact ⟨h.carried n e' stage hat,
        begun_of_returned heffect fun jobId hpicked => hasked jobId hat hpicked⟩
  · intro m id hid
    rcases mem_seen_settle hid with hbefore | ⟨rfl, rfl⟩
    · obtain ⟨e', he', hsame⟩ := h.seen m id hbefore
      exact ⟨e', mem_acked_settle.mpr (Or.inl he'), hsame⟩
    · exact ⟨e, mem_acked_settle.mpr (Or.inr ⟨rfl, rfl⟩), rfl⟩

/-- A worker that drops what it does, and forgets what it has seen. -/
theorem accounted_idle (h : Accounted server known s) :
    Accounted server known (s.setWorker n { job := none, seen := [] }) := by
  have hat : ∀ m e stage, At (s.setWorker n { job := none, seen := [] }) m e stage →
      At s m e stage := by
    intro m e stage hat
    by_cases hne : m = n
    · subst hne
      simp [At] at hat
    · rwa [At, setWorker_other hne] at hat
  constructor
  · exact fun m e stage jobId hafter => h.asked m e stage jobId (hat m e stage hafter)
  · exact fun m e stage hafter => h.carried m e stage (hat m e stage hafter)
  · exact h.acked
  · intro m id hid
    by_cases hne : m = n
    · subst hne
      simp at hid
    · rw [setWorker_other hne] at hid
      exact h.seen m id hid

theorem accounted_deliver (h : Accounted server known s) (he : known e)
    (hids : ∀ a b, known a → known b → a.id = b.id → a = b)
    (hstep : deliver s n e = some s') : Accounted server known s' := by
  unfold deliver at hstep
  split at hstep
  · contradiction
  · split at hstep
    · rename_i hseen
      obtain rfl := Option.some.inj hstep
      obtain ⟨before, hbefore, hsame⟩ := h.seen n _ hseen
      obtain ⟨hknown, hbegun⟩ := h.acked before hbefore
      obtain rfl := hids before e hknown he hsame
      refine ⟨h.asked, h.carried, ?_, ?_⟩
      · intro e' he'
        rcases List.mem_cons.mp he' with rfl | he'
        · exact ⟨he, hbegun⟩
        · exact h.acked e' he'
      · intro m id hid
        obtain ⟨e', he', hsame⟩ := h.seen m id hid
        exact ⟨e', List.mem_cons_of_mem _ he', hsame⟩
    · obtain rfl := Option.some.inj hstep
      have hat : ∀ m e' stage, At (s.setWorker n { (s.workers n) with job := some (e, .starting) })
          m e' stage → At s m e' stage ∨ (e' = e ∧ picked stage = none) := by
        intro m e' stage hat
        by_cases hne : m = n
        · subst hne
          simp only [At, setWorker_same, Option.some.injEq, Prod.mk.injEq] at hat
          obtain ⟨rfl, rfl⟩ := hat
          exact Or.inr ⟨rfl, rfl⟩
        · rw [At, setWorker_other hne] at hat
          exact Or.inl hat
      constructor
      · intro m e' stage jobId hafter hpicked
        rcases hat m e' stage hafter with hbefore | ⟨-, hnone⟩
        · exact h.asked m e' stage jobId hbefore hpicked
        · rw [hnone] at hpicked
          contradiction
      · intro m e' stage hafter
        rcases hat m e' stage hafter with hbefore | ⟨rfl, -⟩
        · exact h.carried m e' stage hbefore
        · exact he
      · exact h.acked
      · intro m id hid
        by_cases hne : m = n
        · subst hne
          rw [setWorker_same] at hid
          exact h.seen m id hid
        · rw [setWorker_other hne] at hid
          exact h.seen m id hid

theorem accounted_step (h : Accounted server known s)
    (hknown : ∀ n e, label = .deliver n e → known e)
    (hids : ∀ a b, known a → known b → a.id = b.id → a = b)
    (hstep : step server wording s label = some s') : Accounted server known s' := by
  cases label with
  | deliver n e => exact accounted_deliver h (hknown n e rfl) hids hstep
  | crash n =>
      obtain rfl := Option.some.inj hstep
      exact accounted_idle h
  | tick =>
      obtain rfl := Option.some.inj hstep
      exact ⟨h.asked, h.carried, h.acked, h.seen⟩
  | run n choice =>
      obtain ⟨e, stage, hat, -, rfl⟩ := runStep_cases hstep
      exact accounted_run h hat (effect_of_handlerStep server wording s.db e choice stage)

theorem requestedId_of_named {payload : Dict} {named uuid : String}
    (h : Dict.get? payload service.idField = some (.str named)) (hne : named ≠ "") :
    requestedId service payload uuid = named := by
  simp [requestedId, Dict.get, h, Json.str?, textOr, hne]

theorem handled_of_begun (h : Attended server s) (hbegun : Begun server service s.db e) :
    Handled server s e := by
  obtain ⟨uuid, id, record, hid, hrecord, hstatus⟩ := hbegun
  intro named hnamed hne
  rw [requestedId_of_named hnamed hne] at hid
  refine ⟨id, record, hid, hrecord, ?_⟩
  cases hcase : record.status with
  | queued => exact absurd hcase hstatus
  | running => exact Or.inr (h.running id record hrecord hcase)
  | completed | failed =>
      exact Or.inl ⟨trivial, h.ended id record hrecord (by rw [hcase]; trivial)⟩

end Steps

/-- The messages that a run delivered. -/
def Delivered (past : List (System service × Label service)) (e : Envelope) : Prop :=
  ∃ moment ∈ past, ∃ n, moment.2 = .deliver n e

/-- In a run that leaves no running job without a handler, the job of every message
that was acknowledged has ended and said so, or is still at work. -/
theorem acked_handled {past : List (System service × Label service)} {s : System service}
    (run : Run (step server wording) System.initial past s)
    (hids : ∀ a b, Delivered past a → Delivered past b → a.id = b.id → a = b)
    (hkept : ∀ moment ∈ past, ¬ Abandons server wording moment.1 moment.2) :
    ∀ e ∈ s.acked, Handled server s e := by
  have hattended : Attended server s := by
    refine run.invariant_of (fun t label => ¬ Abandons server wording t label) hkept
      (Attended server) attended_initial ?_
    exact fun t label t' hattended hkept hstep => attended_step hattended hkept hstep
  have haccounted : Accounted server (Delivered past) s := by
    refine run.invariant_of (fun _ label => ∀ n e, label = .deliver n e → Delivered past e)
      (fun moment hmem n e hlabel => ⟨moment, hmem, n, hlabel⟩)
      (Accounted server (Delivered past)) accounted_initial ?_
    exact fun t label t' haccounted hknown hstep => accounted_step haccounted hknown hids hstep
  exact fun e he => handled_of_begun hattended (haccounted.acked e he).2

/-- Whether a step ends no work but by the transaction that ends the job. -/
def spares (server : Server) (wording : Wording) (s : System service) : Label service → Bool
  | .crash n =>
      match (s.workers n).job with
      | some (_, .working _ _) => false
      | _ => true
  | .run n choice =>
      match (s.workers n).job with
      | some (e, stage) =>
          match (handlerStep server wording s.db e choice stage).1 with
          | .raised => false
          | _ => true
      | none => true
  | _ => true

theorem not_abandons_of_spares (h : spares server wording s label = true) :
    ¬ Abandons server wording s label := by
  intro habandons
  cases label with
  | deliver | tick => exact habandons
  | crash n =>
      obtain ⟨id, record, ⟨e, jobId, request, hat, -⟩, -⟩ := habandons
      unfold At at hat
      simp [spares, hat] at h
  | run n choice =>
      obtain ⟨-, e, stage, hat, hraised⟩ := habandons
      unfold At at hat
      simp [spares, hat, hraised] at h

/-- The worker a step is about. -/
def actor : Label service → Option Nat
  | .deliver n _ | .run n _ | .crash n => some n
  | .tick => none

/-- A worker that no step of a run was about is idle. -/
theorem idle_of_untouched {past : List (System service × Label service)} {s : System service}
    (run : Run (step server wording) System.initial past s) (m : Nat)
    (hpast : ∀ moment ∈ past, actor moment.2 ≠ some m) : (s.workers m).job = none := by
  refine run.invariant_of (fun _ label => actor label ≠ some m) hpast
    (fun t => (t.workers m).job = none) rfl ?_
  intro t label t' hidle hactor hstep
  cases label with
  | tick =>
      obtain rfl := Option.some.inj hstep
      exact hidle
  | crash n =>
      have hm : m ≠ n := fun heq => hactor (congrArg some heq.symm)
      obtain rfl := Option.some.inj hstep
      rwa [setWorker_other hm]
  | deliver n e =>
      have hm : m ≠ n := fun heq => hactor (congrArg some heq.symm)
      change deliver t n e = some t' at hstep
      unfold deliver at hstep
      split at hstep
      · contradiction
      · split at hstep
        · obtain rfl := Option.some.inj hstep
          exact hidle
        · obtain rfl := Option.some.inj hstep
          rwa [setWorker_other hm]
  | run n choice =>
      have hm : m ≠ n := fun heq => hactor (congrArg some heq.symm)
      obtain ⟨e, stage, -, -, rfl⟩ := runStep_cases hstep
      rwa [settle_other _ hm]

section Crawls

/-- Tables that agree with the runtime's on plain addresses. -/
def plainRules : TextRules where
  lower := String.map Char.toLower
  casefold := String.map Char.toLower
  netlocFault _ := none

/-- The crawl service, with simple stand-ins for the machine's square root and for
the names of the pages. -/
def crawls : Service := Crawl.service id plainRules id

/-- A server that reads these texts as they are. -/
def openServer : Server where
  takesText _ := true
  takesDocument _ := true
  uuid text := some text
  isTenant _ := true
  isProject _ := true
  derive _ := .ok ()

def noWords : Wording := fun _ _ => ""

/-- A crawl that finds nothing. -/
def quietly : Choice crawls where
  faults := []
  uuid := "drawn"
  given := .ok { ctx := { startUrl := "https://shop.ir" }, issues := [], generatedAt := "" }
  ids _ := "event"

def requested : Envelope where
  id := "message"
  type := .crawlRequested
  payload := [("crawl_id", .str "c"), ("start_url", .str "https://shop.ir")]
  producer := "orchestrator"
  occurredAt := 0

/-- The request is delivered to two workers. The second one finds the crawl running,
and a third delivery is cut off before anything is written. -/
def deliveredTwice : List (Label crawls) :=
  [.deliver 0 requested, .run 0 quietly, .run 0 quietly, .run 0 quietly,
   .deliver 1 requested, .run 1 quietly, .deliver 2 requested, .crash 2,
   .run 0 quietly]

theorem acked_handled_deliveredTwice :
    ∃ (past : List (System crawls × Label crawls)) (s : System crawls),
      past.map Prod.snd = deliveredTwice ∧
      s.acked.map Envelope.id = ["message", "message"] ∧
      ∀ e ∈ s.acked, Handled openServer s e := by
  obtain ⟨past, s, hpast, run, hcheck⟩ :=
    Run.of_check (step openServer noWords) System.initial deliveredTwice
      (fun past s => past.all (fun moment => spares openServer noWords moment.1 moment.2) &&
        s.acked.map Envelope.id = ["message", "message"]) (by decide +kernel)
  obtain ⟨hspares, hacked⟩ := Bool.and_eq_true_iff.mp hcheck
  have honly : ∀ e, Delivered past e → e = requested := by
    rintro e ⟨moment, hmem, n, hlabel⟩
    have hmember : Label.deliver n e ∈ deliveredTwice := by
      rw [← hpast, ← hlabel]
      exact List.mem_map.mpr ⟨moment, hmem, rfl⟩
    simp only [deliveredTwice, List.mem_cons, Label.deliver.injEq, reduceCtorEq,
      List.not_mem_nil, or_false, false_or] at hmember
    rcases hmember with ⟨-, h⟩ | ⟨-, h⟩ | ⟨-, h⟩ <;> exact h
  refine ⟨past, s, hpast, by simpa using hacked, acked_handled run ?_ ?_⟩
  · intro a b ha hb _
    rw [honly a ha, honly b hb]
  · exact fun moment hmem => not_abandons_of_spares (List.all_eq_true.mp hspares moment hmem)

/-- The process dies in the crawl, and the request comes again. -/
def cutInCrawl : List (Label crawls) :=
  [.deliver 0 requested, .run 0 quietly, .run 0 quietly, .run 0 quietly, .crash 0,
   .deliver 0 requested, .run 0 quietly]

/-- Whether the first worker is idle and the crawl `c` is called running, though its
request was acknowledged. -/
def leftRunning (s : System crawls) : Bool :=
  (s.workers 0).job.isNone && (s.db.job? "c").any (fun record => record.status = .running) &&
    s.acked.any fun e => (Dict.get? e.payload "crawl_id").bind Json.str? = some "c"

theorem not_handled_of_leftRunning
    {past : List (System crawls × Label crawls)} {s : System crawls}
    (run : Run (step openServer noWords) System.initial past s)
    (hactors : ∀ label ∈ past.map Prod.snd, actor label = some 0) (h : leftRunning s = true) :
    ∃ e ∈ s.acked, ¬ Handled openServer s e := by
  simp only [leftRunning, Bool.and_eq_true, List.any_eq_true, decide_eq_true_eq,
    Option.isNone_iff_eq_none, Option.any_eq_true] at h
  obtain ⟨⟨hidle, record, hrecord, hstatus⟩, e, he, hnamed⟩ := h
  refine ⟨e, he, fun hhandled => ?_⟩
  obtain ⟨named, hget, htext⟩ := Option.bind_eq_some_iff.mp hnamed
  obtain rfl := str?_eq_some htext
  obtain ⟨id, found, hid, hfound, hrest⟩ := hhandled "c" hget (by decide)
  obtain rfl := Option.some.inj hid
  obtain rfl := Option.some.inj (hfound.symm.trans hrecord)
  rcases hrest with ⟨hterminal, -⟩ | ⟨n, e', jobId, request, hat, -⟩
  · rw [hstatus] at hterminal
    exact hterminal
  · by_cases hn : n = 0
    · subst hn
      exact absurd (hat.symm.trans hidle) (by simp)
    · refine absurd (hat.symm.trans (idle_of_untouched run n fun moment hmem hactor => hn ?_))
        (by simp)
      have hzero := hactors moment.2 (List.mem_map.mpr ⟨moment, hmem, rfl⟩)
      exact (Option.some.inj (hzero.symm.trans hactor)).symm

/-- The redelivery is acknowledged, and nobody runs the crawl. -/
theorem acked_abandoned :
    ∃ (past : List (System crawls × Label crawls)) (s : System crawls),
      past.map Prod.snd = cutInCrawl ∧ Run (step openServer noWords) System.initial past s ∧
      ∃ e ∈ s.acked, ¬ Handled openServer s e := by
  obtain ⟨past, s, hpast, run, hleft⟩ :=
    Run.of_check (step openServer noWords) System.initial cutInCrawl
      (fun _ s => leftRunning s) (by decide +kernel)
  refine ⟨past, s, hpast, run, not_handled_of_leftRunning run ?_ hleft⟩
  rw [hpast]
  simp [cutInCrawl, actor]

end Crawls

end SeoPlatform.Services.AckedJobs
