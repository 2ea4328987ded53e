import SeoPlatform.Foundation.ExceptFlow
import SeoPlatform.Services.AckedJobs

namespace SeoPlatform.Services.JobOwners

open SeoPlatform.Foundation.ExceptFlow
open SeoPlatform.Foundation.JsonValue
open SeoPlatform.Foundation.TransitionSystem
open SeoPlatform.Services.AckedJobs
open SeoPlatform.Services.Completions
open SeoPlatform.Services.JobWorker
open SeoPlatform.Services.Runs
open SeoPlatform.Shared.Contracts
open SeoPlatform.Shared.Events
open SeoPlatform.Shared.Jobs
open SeoPlatform.Shared.JobSpecs
open SeoPlatform.Shared.PostgresStore

/-- The workflow a job belongs to, and whom it is done for. -/
structure Owner where
  workflowId : String
  tenantId : Option String
  projectId : Option String

/-- A row of the outbox carries the owner. -/
structure RowFor (owner : Owner) (row : OutboxRow) : Prop where
  correlation : row.correlationId = some owner.workflowId
  tenant : row.tenantId = owner.tenantId
  project : row.projectId = owner.projectId

/-- A message carries the owner. -/
structure SentFor (owner : Owner) (e : Envelope) : Prop where
  correlation : e.correlationId = some owner.workflowId
  tenant : e.tenantId = owner.tenantId
  project : e.projectId = owner.projectId

/-- A job is recorded for the owner. -/
structure RecordFor (owner : Owner) (record : JobRecord) : Prop where
  tenant : record.tenantId = owner.tenantId
  project : record.projectId = owner.projectId

/-- The ids of the owner are spelled as the server spells them. -/
structure Spelled (server : Server) (owner : Owner) : Prop where
  workflow : owner.workflowId ≠ ""
  tenant : server.readIds owner.tenantId = .ok owner.tenantId
  project : server.readIds owner.projectId = .ok owner.projectId

/-- A payload names the job. -/
def Names (server : Server) (service : Service) (payload : Dict) (id : String) : Prop :=
  ∃ named, Dict.get? payload service.idField = some (.str named) ∧ server.uuid named = some id

/-- A handler at the stage is about the job. -/
def About (server : Server) {service : Service} (e : Envelope) (id : String) :
    Stage service → Prop
  | .starting => Names server service e.payload id
  | .creating jobId _ | .marking jobId _ | .working jobId _ => server.uuid jobId = some id

variable {service : Service} {server : Server} {wording : Wording} {owner : Owner}
  {s s' : System service} {id : String}

/-- All there is of a job is for its owner. -/
structure Owned (server : Server) (owner : Owner) (id : String) (s : System service) : Prop where
  record : ∀ record, s.db.job? id = some record → RecordFor owner record
  begun : ∀ n e stage, At s n e stage → About server e id stage → SentFor owner e
  rows : ∀ row ∈ s.db.outbox.rows, row.eventType = service.completed →
    Names server service row.payload id → RowFor owner row

theorem owned_initial : Owned server owner id (System.initial : System service) where
  record _ hrecord := nomatch hrecord
  begun _ _ _ hat := nomatch hat
  rows _ hrow := nomatch hrow

section Rows

/-- The events of a job are its completion and what follows it. -/
theorem mem_eventsOf {e : Envelope} {jobId : String} {request : service.Request}
    {choice : Choice service} {event : PendingEvent}
    (h : event ∈ eventsOf e jobId request choice) :
    (event.type = service.completed →
        Dict.get? event.payload service.idField = some (.str jobId)) ∧
      event.correlationId = some (textOr (some (textOr e.correlationId e.id)) jobId) ∧
      (event.type = service.completed ∨
        ∃ report after, after ∈ service.followUps jobId report ∧ event.type = after.1) := by
  obtain ⟨⟨outgoing, i⟩, hmem, rfl⟩ := List.mem_map.mp h
  have hout := (List.mem_filter.mp (List.fst_mem_of_mem_zipIdx hmem)).1
  rcases List.mem_cons.mp hout with rfl | hafter
  · exact ⟨fun _ => (service.payload_names jobId request _).1, rfl, .inl rfl⟩
  · cases hresult : resultOf service.work request choice.given with
    | error text =>
        rw [hresult] at hafter
        contradiction
    | ok report =>
        rw [hresult] at hafter
        exact ⟨fun htype => absurd htype (service.followUps_other jobId report outgoing hafter),
          rfl, .inr ⟨report, outgoing, hafter, rfl⟩⟩

theorem row_ok {job row : NewJob} (h : server.row job = .ok row) :
    server.uuid job.jobId = some row.jobId ∧ server.readIds job.tenantId = .ok row.tenantId ∧
      server.readIds job.projectId = .ok row.projectId := by
  unfold Server.row at h
  obtain ⟨-, -, h⟩ := ok_of_bind h
  obtain ⟨jobId, hjob, h⟩ := ok_of_bind h
  obtain ⟨tenantId, htenant, h⟩ := ok_of_bind h
  obtain ⟨projectId, hproject, h⟩ := ok_of_bind h
  obtain rfl := Except.ok.inj h
  exact ⟨uuid_of_readId hjob, htenant, hproject⟩

end Rows

section Steps

variable {n : Nat} {e : Envelope} {choice : Choice service} {stage : Stage service}
  {label : Label service}

/-- The id of a job is one that the message names, or one drawn for it. -/
theorem names_or_drawn {payload : Dict} {uuid : String}
    (h : server.uuid (requestedId service payload uuid) = some id) :
    Names server service payload id ∨ server.uuid uuid = some id := by
  cases hget : Dict.get? payload service.idField with
  | none => exact .inr (by simpa [requestedId, Dict.get, hget, Json.str?, textOr] using h)
  | some value =>
      cases value with
      | str named =>
          by_cases hempty : named = ""
          · exact .inr (by simpa [requestedId, Dict.get, hget, Json.str?, textOr, hempty] using h)
          · rw [requestedId_of_named hget hempty] at h
            exact .inl ⟨named, hget, h⟩
      | null | bool | int | float | arr | obj =>
          exact .inr (by simpa [requestedId, Dict.get, hget, Json.str?, textOr] using h)

/-- A record that a message creates is for whom the message was sent. -/
theorem recordFor_of_created (hspelled : Spelled server owner) (hsent : SentFor owner e)
    {jobId : String} {request : service.Request} {row : NewJob}
    (hrow : server.row (newJob e jobId request) = .ok row) (now : Nat) :
    RecordFor owner (row.record now) := by
  obtain ⟨-, htenant, hproject⟩ := row_ok hrow
  have htenant' : server.readIds e.tenantId = .ok row.tenantId := htenant
  have hproject' : server.readIds e.projectId = .ok row.projectId := hproject
  rw [hsent.tenant, hspelled.tenant] at htenant'
  rw [hsent.project, hspelled.project] at hproject'
  exact ⟨(Except.ok.inj htenant').symm, (Except.ok.inj hproject').symm⟩

/-- An update leaves a record with its owner. -/
theorem record_of_ended {jobId : String} {status : JobStatus} {events : List PendingEvent}
    {db db' : JobDb} {written : JobRecord}
    (h : ∀ record, db.job? id = some record → RecordFor owner record)
    (hended : Ended server jobId status events db written db') :
    ∀ record, db'.job? id = some record → RecordFor owner record := by
  intro record hrecord
  rw [hended.rows] at hrecord
  split at hrecord
  · rename_i hid
    obtain rfl := Option.some.inj hrecord
    obtain ⟨old, hold⟩ := Option.ne_none_iff_exists'.mp hended.existed
    obtain ⟨htenant, hproject⟩ := hended.owner old hold
    rw [← hid] at hold
    have hfor := h old hold
    exact ⟨htenant.trans hfor.tenant, hproject.trans hfor.project⟩
  · exact h record hrecord

/-- What a job stages at its end is for the owner of its record. -/
theorem rowFor_of_staged (hspelled : Spelled server owner) (hsent : SentFor owner e)
    {jobId : String} {request : service.Request} {written : JobRecord} {event : PendingEvent}
    (hfor : RecordFor owner written) (h : event ∈ eventsOf e jobId request choice) :
    RowFor owner (stagedRow event ⟨written.jobId, written.tenantId, written.projectId⟩) := by
  refine ⟨?_, hfor.tenant, hfor.project⟩
  obtain ⟨-, hcorrelation, -⟩ := mem_eventsOf h
  simp [stagedRow, hcorrelation, hsent.correlation, textOr, hspelled.workflow]

theorem owned_run (hspelled : Spelled server owner) (h : Owned server owner id s)
    (hat : At s n e stage) (hdrawn : server.uuid choice.uuid ≠ some id) {next : Next service}
    {db' : JobDb} (heffect : Effect server e choice s.db stage next db') :
    Owned server owner id (settle { s with db := db' } n e next) := by
  have hasked : stage = .starting →
      server.uuid (requestedId service e.payload choice.uuid) = some id → SentFor owner e := by
    rintro rfl hid
    exact h.begun n e .starting hat ((names_or_drawn hid).resolve_right hdrawn)
  suffices hall : (∀ record, db'.job? id = some record → RecordFor owner record) ∧
      (∀ stage', next = .goto stage' → About server e id stage' → SentFor owner e) ∧
      ∀ row ∈ db'.outbox.rows, row.eventType = service.completed →
        Names server service row.payload id → RowFor owner row by
    obtain ⟨hrecord, hbegun, hrows⟩ := hall
    refine ⟨by simpa using hrecord, fun m e' stage' hat' habout => ?_, by simpa using hrows⟩
    rcases at_settle hat' with ⟨-, hbefore⟩ | ⟨-, rfl, hnext⟩
    · exact h.begun m e' stage' hbefore habout
    · exact hbegun stage' hnext habout
  cases heffect with
  | raised | skipped => exact ⟨h.record, (fun _ hnext => nomatch hnext), h.rows⟩
  | absent request =>
      refine ⟨h.record, ?_, h.rows⟩
      rintro _ ⟨⟩ habout
      exact hasked rfl habout
  | present request =>
      refine ⟨h.record, ?_, h.rows⟩
      rintro _ ⟨⟩ habout
      exact hasked rfl habout
  | @created jobId request _ hinserted =>
      refine ⟨fun record hrecord => ?_, ?_, ?_⟩
      · rcases (job?_of_inserted hinserted id).2 with hsame | ⟨row, hrow, hid, -, hnew⟩
        · exact h.record record (hsame ▸ hrecord)
        · obtain rfl := Option.some.inj (hnew.symm.trans hrecord)
          have hsent : SentFor owner e :=
            h.begun n e _ hat ((row_ok hrow).1.trans (congrArg some hid.symm))
          exact recordFor_of_created hspelled hsent hrow _
      · rintro _ ⟨⟩ habout
        exact h.begun n e _ hat habout
      · rw [outbox_of_inserted hinserted]
        exact h.rows
  | @marked jobId request _ _ hended =>
      refine ⟨record_of_ended h.record hended, ?_, ?_⟩
      · rintro _ ⟨⟩ habout
        exact h.begun n e _ hat habout
      · rw [hended.outbox]
        exact h.rows
  | @finished jobId request written _ hended =>
      have hrecord := record_of_ended h.record hended
      refine ⟨hrecord, (fun _ hnext => nomatch hnext), fun row hrow htype hnames => ?_⟩
      rw [hended.outbox] at hrow
      rcases mem_stageAll hrow with hold | ⟨event, hevent, rfl⟩
      · exact h.rows row hold htype hnames
      · obtain ⟨named, hget, hid⟩ := hnames
        have hown := (mem_eventsOf hevent).1 htype
        obtain rfl := Json.str.inj (Option.some.inj (hget.symm.trans hown))
        have hsent := h.begun n e _ hat hid
        obtain rfl := Option.some.inj (hended.named.symm.trans hid)
        refine rowFor_of_staged hspelled hsent (hrecord written ?_) hevent
        rw [hended.rows, if_pos rfl]

/-- What is known of a step of the workers, when a job has an owner: the messages that
name the job are the owner's, and no id is drawn that is the job's. -/
def Faithful (server : Server) (owner : Owner) (id : String) : Label service → Prop
  | .deliver _ e => e.type = service.requested → Names server service e.payload id →
      SentFor owner e
  | .run _ choice => server.uuid choice.uuid ≠ some id
  | .crash _ | .tick => True

theorem owned_step (hspelled : Spelled server owner) (h : Owned server owner id s)
    (hfaithful : Faithful server owner id label)
    (hstep : step server wording s label = some s') : Owned server owner id s' := by
  cases label with
  | deliver n e =>
      change deliver s n e = some s' at hstep
      unfold deliver at hstep
      split at hstep
      · contradiction
      · rename_i hidle
        split at hstep
        · obtain rfl := Option.some.inj hstep
          exact ⟨h.record, h.begun, h.rows⟩
        · obtain rfl := Option.some.inj hstep
          refine ⟨h.record, fun m e' stage hat habout => ?_, h.rows⟩
          rcases eq_or_ne m n with rfl | hm
          · rw [At, setWorker_same, Option.some.injEq, Prod.mk.injEq] at hat
            obtain ⟨rfl, rfl⟩ := hat
            push Not at hidle
            exact hfaithful hidle.2 habout
          · rw [At, setWorker_other hm] at hat
            exact h.begun m e' stage hat habout
  | crash n =>
      obtain rfl := Option.some.inj hstep
      refine ⟨h.record, fun m e' stage hat habout => ?_, h.rows⟩
      rcases eq_or_ne m n with rfl | hm
      · rw [At, setWorker_same] at hat
        contradiction
      · rw [At, setWorker_other hm] at hat
        exact h.begun m e' stage hat habout
  | tick =>
      obtain rfl := Option.some.inj hstep
      exact ⟨h.record, h.begun, h.rows⟩
  | run n choice =>
      obtain ⟨e, stage, hat, -, rfl⟩ := runStep_cases hstep
      exact owned_run hspelled h hat hfaithful
        (effect_of_handlerStep server wording s.db e choice stage)

/-- In a run over faithful messages, all there is of a job is for its owner. -/
theorem owned_of_run (hspelled : Spelled server owner)
    {past : List (System service × Label service)}
    (run : Run (step server wording) System.initial past s)
    (hfaithful : ∀ moment ∈ past, Faithful server owner id moment.2) :
    Owned server owner id s :=
  run.invariant_of (fun _ label => Faithful server owner id label) hfaithful
    (Owned server owner id) owned_initial
    fun _ _ _ h hlabel hstep => owned_step hspelled h hlabel hstep

/-- The types of the events a service sends out. -/
def Sends (service : Service) (type : EventType) : Prop :=
  type = service.completed ∨ ∃ jobId report after,
    after ∈ service.followUps jobId report ∧ type = after.1

/-- The rows of the outbox stay, and those that are added are of the service's types. -/
theorem outbox_of_step (hstep : step server wording s label = some s') :
    (∀ row ∈ s.db.outbox.rows, row ∈ s'.db.outbox.rows) ∧
      ∀ row ∈ s'.db.outbox.rows, row ∈ s.db.outbox.rows ∨ Sends service row.eventType := by
  have hsame : s'.db.outbox = s.db.outbox →
      (∀ row ∈ s.db.outbox.rows, row ∈ s'.db.outbox.rows) ∧
        ∀ row ∈ s'.db.outbox.rows, row ∈ s.db.outbox.rows ∨ Sends service row.eventType := by
    intro houtbox
    rw [houtbox]
    exact ⟨fun _ hrow => hrow, fun _ hrow => .inl hrow⟩
  cases label with
  | deliver n e =>
      apply hsame
      change deliver s n e = some s' at hstep
      unfold deliver at hstep
      split at hstep
      · contradiction
      · split at hstep <;> obtain rfl := Option.some.inj hstep <;> rfl
  | crash n | tick =>
      obtain rfl := Option.some.inj hstep
      exact hsame rfl
  | run n choice =>
      obtain ⟨e, stage, hat, -, rfl⟩ := runStep_cases hstep
      rw [db_settle] at hsame ⊢
      have heffect := effect_of_handlerStep server wording s.db e choice stage
      generalize (handlerStep server wording s.db e choice stage).1 = next at heffect
      generalize (handlerStep server wording s.db e choice stage).2 = db' at heffect hsame ⊢
      cases heffect with
      | raised | skipped | absent | present => exact hsame rfl
      | created hinserted => exact hsame (outbox_of_inserted hinserted)
      | marked hended => exact hsame hended.outbox
      | finished hended =>
          rw [hended.outbox]
          refine ⟨fun row hrow => subset_stageAll _ hrow, fun row hrow => ?_⟩
          rcases mem_stageAll hrow with hold | ⟨event, hevent, rfl⟩
          · exact .inl hold
          · obtain ⟨-, -, htype⟩ := mem_eventsOf hevent
            rcases htype with htype | ⟨report, after, hafter, htype⟩
            · exact .inr (.inl htype)
            · exact .inr (.inr ⟨_, report, after, hafter, htype⟩)

end Steps

end SeoPlatform.Services.JobOwners
