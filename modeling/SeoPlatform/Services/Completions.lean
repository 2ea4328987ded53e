import SeoPlatform.Services.JobWorker
import SeoPlatform.Shared.JobSpecs

namespace SeoPlatform.Services.Completions

open SeoPlatform.Foundation.JsonValue
open SeoPlatform.Foundation.SqlTransaction
open SeoPlatform.Services.JobWorker
open SeoPlatform.Services.Runs
open SeoPlatform.Shared.Contracts
open SeoPlatform.Shared.Events
open SeoPlatform.Shared.Exceptions
open SeoPlatform.Shared.Jobs
open SeoPlatform.Shared.JobSpecs
open SeoPlatform.Shared.PostgresStore

/-- The status a job ends with. -/
def statusOf {δ : Type} : Except String δ → JobStatus
  | .ok _ => .completed
  | .error _ => .failed

theorem name_statusOf {δ : Type} (result : Except String δ) :
    (statusOf result).name = statusName result := by
  cases result <;> rfl

theorem terminal_statusOf {δ : Type} (result : Except String δ) : (statusOf result).Terminal := by
  cases result <;> trivial

theorem statusOf_ne_queued {δ : Type} (result : Except String δ) :
    statusOf result ≠ .queued := by
  cases result <;> simp [statusOf]

variable {service : Service} {server : Server} {jobId : String} {request : service.Request}
  {correlationId causationId : Option String} {ids : Nat → String}

/-- The event that says how a job ended. -/
def completion (service : Service) (jobId : String) (request : service.Request)
    (result : Except String service.Report) (correlationId causationId : Option String)
    (ids : Nat → String) : PendingEvent where
  type := service.completed
  payload := service.payload jobId request result
  producer := service.producer
  eventId := ids 0
  correlationId := some (textOr correlationId jobId)
  causationId := causationId

/-- The completion is never left out: it is the first of the events of a job, and
the only one of its type. -/
theorem staged_eq_cons (given : Except String service.Material) :
    ∃ rest, service.staged jobId request (resultOf service.work request given) correlationId
        causationId ids =
      completion service jobId request (resultOf service.work request given) correlationId
        causationId ids :: rest ∧ ∀ event ∈ rest, event.type ≠ service.completed := by
  generalize hresult : resultOf service.work request given = result
  have hvalid : Valid service.completed (service.payload jobId request result) := by
    rw [← hresult]
    exact service.payload_valid jobId request given
  obtain ⟨after, houtgoing, hother⟩ : ∃ after, service.outgoing jobId request result =
      (service.completed, service.payload jobId request result) :: after ∧
        ∀ event ∈ after, event.1 ≠ service.completed := by
    unfold Service.outgoing
    rw [List.filter_cons_of_pos (by simpa using hvalid)]
    refine ⟨_, rfl, ?_⟩
    intro event hevent
    have hmem := (List.mem_filter.mp hevent).1
    cases result with
    | error text => exact absurd hmem List.not_mem_nil
    | ok report => exact service.followUps_other jobId report event hmem
  have hstaged : service.staged jobId request result correlationId causationId ids =
      completion service jobId request result correlationId causationId ids ::
        (after.zipIdx 1).map fun outgoing =>
          { type := outgoing.1.1
            payload := outgoing.1.2
            producer := service.producer
            eventId := ids outgoing.2
            correlationId := some (textOr correlationId jobId)
            causationId := causationId } := by
    unfold Service.staged
    rw [houtgoing, List.zipIdx_cons, List.map_cons]
    rfl
  refine ⟨_, hstaged, ?_⟩
  · intro event hevent
    obtain ⟨⟨outgoing, i⟩, hmem, rfl⟩ := List.mem_map.mp hevent
    exact hother outgoing (List.fst_mem_of_mem_zipIdx hmem)

/-- What the last transaction of a job makes of its row and of the outbox. -/
structure Ended (server : Server) (jobId : String) (status : JobStatus)
    (events : List PendingEvent) (db : JobDb) (record : JobRecord) (db' : JobDb) : Prop where
  status : record.status = status
  named : server.uuid jobId = some record.jobId
  existed : db.job? record.jobId ≠ none
  owner : ∀ old, db.job? record.jobId = some old →
    record.tenantId = old.tenantId ∧ record.projectId = old.projectId
  rows : ∀ other, db'.job? other =
    if other = record.jobId then some record else db.job? other
  outbox : db'.outbox =
    stageAll db.outbox ⟨record.jobId, record.tenantId, record.projectId⟩ events

theorem uuid_of_readId {id : String} (h : server.readId jobId = .ok id) :
    server.uuid jobId = some id := by
  unfold Server.readId at h
  split at h
  · rename_i hid
    rw [hid, Except.ok.inj h]
  · contradiction

theorem ended_of_written {changes : Changes} {events : List PendingEvent} {status : JobStatus}
    {db db' : JobDb} {record : JobRecord} (hstatus : changes.status = some status)
    (htenant : changes.tenantId = none) (hproject : changes.projectId = none)
    (h : Written server jobId changes events db record db') :
    Ended server jobId status events db record db' := by
  obtain ⟨set, old, hid, hset, hold, hrecord, hrows⟩ := job?_of_written h
  obtain ⟨hsame, htenant', hproject'⟩ := setting_keeps hset
  refine ⟨?_, uuid_of_readId hid, by simp [hold], fun old' hold' => ?_, hrows,
    outbox_of_written h⟩
  · rw [hrecord, JobRecord.changed, hsame, hstatus]
    rfl
  · obtain rfl := Option.some.inj (hold.symm.trans hold')
    rw [hrecord, JobRecord.changed, htenant' htenant, hproject' hproject]
    exact ⟨rfl, rfl⟩

theorem markRunning_meets : Meets (markRunning server jobId) (Ended server jobId .running []) :=
  (write_meets .running []).mono fun _ _ _ h => ended_of_written rfl rfl rfl h

theorem finish_meets (result : Except String service.Report) :
    Meets (service.finish server jobId request result correlationId causationId ids)
      (Ended server jobId (statusOf result)
        (service.staged jobId request result correlationId causationId ids)) := by
  cases result with
  | ok report => exact (write_meets _ _).mono fun _ _ _ h => ended_of_written rfl rfl rfl h
  | error text => exact (write_meets _ _).mono fun _ _ _ h => ended_of_written rfl rfl rfl h

theorem finish_clean (result : Except String service.Report) :
    Clean (service.finish server jobId request result correlationId causationId ids) := by
  cases result with
  | ok report => exact write_clean _ _
  | error text => exact write_clean _ _

theorem rows_stageAll_of_freshIds {db : JobDb} {subject : Subject} {events : List PendingEvent}
    (h : freshIds db events = true) : (stageAll db.outbox subject events).rows =
      db.outbox.rows ++ events.map fun event => stagedRow event subject := by
  simp only [freshIds, Bool.and_eq_true, decide_eq_true_eq, List.all_eq_true] at h
  exact rows_stageAll_of_fresh h.1 h.2

/-- The row says how the job ended. -/
def Announces (service : Service) (server : Server) (record : JobRecord) (row : OutboxRow) :
    Prop :=
  row.eventType = service.completed ∧
    (∃ text, Dict.get? row.payload service.idField = some (.str text) ∧
      server.uuid text = some record.jobId) ∧
    Dict.get? row.payload "status" = some (.str record.status.name)

def Announced (service : Service) (server : Server) (db : JobDb) (record : JobRecord) : Prop :=
  ∃ row ∈ db.outbox.rows, Announces service server record row

theorem Announced.mono {db db' : JobDb} {record : JobRecord}
    (h : Announced service server db record)
    (hrows : ∀ row ∈ db.outbox.rows, row ∈ db'.outbox.rows) :
    Announced service server db' record := by
  obtain ⟨row, hrow, hannounces⟩ := h
  exact ⟨row, hrows row hrow, hannounces⟩

theorem announces_completion {given : Except String service.Material} {record : JobRecord}
    {subject : Subject}
    (hstatus : record.status = statusOf (resultOf service.work request given))
    (hnamed : server.uuid jobId = some record.jobId) :
    Announces service server record (stagedRow (completion service jobId request
      (resultOf service.work request given) correlationId causationId ids) subject) := by
  obtain ⟨hid, hname⟩ :=
    service.payload_names jobId request (resultOf service.work request given)
  refine ⟨rfl, ⟨jobId, hid, hnamed⟩, ?_⟩
  rw [hstatus, name_statusOf]
  exact hname

section Endings

variable {db db' : JobDb} {record : JobRecord} {given : Except String service.Material}

theorem rows_of_ended {status : JobStatus} {events : List PendingEvent}
    (h : Ended server jobId status events db record db') (hfresh : freshIds db events = true) :
    db'.outbox.rows = db.outbox.rows ++ events.map fun event =>
      stagedRow event ⟨record.jobId, record.tenantId, record.projectId⟩ := by
  rw [h.outbox, rows_stageAll_of_freshIds hfresh]

theorem announced_of_ended (h : Ended server jobId
      (statusOf (resultOf service.work request given))
      (service.staged jobId request (resultOf service.work request given) correlationId
        causationId ids) db record db')
    (hfresh : freshIds db (service.staged jobId request (resultOf service.work request given)
      correlationId causationId ids) = true) : Announced service server db' record := by
  obtain ⟨rest, hstaged, -⟩ := staged_eq_cons given
  refine ⟨stagedRow (completion service jobId request (resultOf service.work request given)
    correlationId causationId ids) ⟨record.jobId, record.tenantId, record.projectId⟩, ?_,
    announces_completion h.status h.named⟩
  rw [rows_of_ended h hfresh, hstaged]
  simp

end Endings

end SeoPlatform.Services.Completions
