import SeoPlatform.Foundation.SqlTransaction
import SeoPlatform.Shared.Events
import SeoPlatform.Shared.Jobs

namespace SeoPlatform.Shared.PostgresStore

open SeoPlatform.Foundation.JsonValue
open SeoPlatform.Foundation.ConstrainedTable
open SeoPlatform.Foundation.SqlTransaction
open SeoPlatform.Shared.Exceptions
open SeoPlatform.Shared.Events
open SeoPlatform.Shared.Jobs

def SameJob (a b : JobRecord) : Prop := a.jobId = b.jobId

instance : DecidableRel SameJob := fun a b => inferInstanceAs (Decidable (a.jobId = b.jobId))

/-- The table of one kind of job, the outbox, and the server's clock. -/
structure JobDb where
  jobs : Table JobRecord SameJob
  outbox : Outbox
  clock : Nat

def JobDb.empty : JobDb where
  jobs := .empty
  outbox := .empty
  clock := 0

/-- What the server takes: texts and documents (neither may hold a NUL), the
texts that name a uuid with the spelling they are given, the tenants and projects
there are, and what the derived columns of the table make of a result. -/
structure Server where
  takesText : String → Bool
  takesDocument : Dict → Bool
  uuid : String → Option String
  isTenant : String → Bool
  isProject : String → Bool
  derive : Dict → Except Exn Unit

abbrev JobTx := Tx JobDb Exn

def refusedText : Exn :=
  .database "DataError" "PostgreSQL text fields cannot contain NUL (0x00) bytes"

def refusedDocument : Exn :=
  .database "UntranslatableCharacter" "unsupported Unicode escape sequence"

def refusedUuid : Exn :=
  .database "InvalidTextRepresentation" "invalid input syntax for type uuid"

def refusedKey : Exn :=
  .database "ForeignKeyViolation" "violates foreign key constraint"

def Server.checkText (server : Server) (text : Option String) : Except Exn Unit :=
  if text.all server.takesText then .ok () else .error refusedText

def Server.checkDocument (server : Server) (document : Option Dict) : Except Exn Unit :=
  if document.all server.takesDocument then .ok () else .error refusedDocument

def Server.readId (server : Server) (text : String) : Except Exn String :=
  match server.uuid text with
  | some id => .ok id
  | none => .error refusedUuid

/-- A column that may be null. -/
def Server.readIds (server : Server) : Option String → Except Exn (Option String)
  | none => .ok none
  | some text => (server.readId text).map some

def Server.knows (server : Server) (tenantId projectId : Option String) : Bool :=
  tenantId.all server.isTenant && projectId.all server.isProject

/-- The row an INSERT writes. -/
def Server.row (server : Server) (job : NewJob) : Except Exn NewJob := do
  server.checkText (some job.subject)
  let jobId ← server.readId job.jobId
  let tenantId ← server.readIds job.tenantId
  let projectId ← server.readIds job.projectId
  .ok { jobId := jobId, subject := job.subject, tenantId := tenantId, projectId := projectId }

/-- The columns an UPDATE sets. -/
def Server.setting (server : Server) (changes : Changes) : Except Exn Changes := do
  server.checkText changes.subject
  server.checkText changes.error.join
  server.checkDocument changes.result.join
  match changes.result with
  | none => .ok ()
  | some result => server.derive (result.getD [])
  let tenantId ← server.readIds changes.tenantId.join
  let projectId ← server.readIds changes.projectId.join
  .ok { changes with
    tenantId := changes.tenantId.map fun _ => tenantId
    projectId := changes.projectId.map fun _ => projectId }

def JobDb.job? (db : JobDb) (jobId : String) : Option JobRecord :=
  db.jobs.rows.find? fun r => r.jobId = jobId

/-- `INSERT ... ON CONFLICT (id) DO NOTHING`. A conflict is found before the
tenant is looked up. -/
def insertJob (server : Server) (job : NewJob) : JobTx Unit :=
  statement fun db => do
    let row ← server.row job
    match db.jobs.insert (row.record db.clock) with
    | none => .ok ((), db)
    | some jobs =>
        if server.knows row.tenantId row.projectId then .ok ((), { db with jobs := jobs })
        else .error (.unknownTenant "unknown tenant_id or project_id")

/-- The record is made of the arguments, not read back. -/
def create (server : Server) (job : NewJob) (now : Nat) : JobTx JobRecord := do
  insertJob server job
  pure (job.record now)

def get (server : Server) (jobId : String) (tenantId : Option String) :
    JobTx (Option JobRecord) :=
  statement fun db => do
    let id ← server.readId jobId
    let tenant ← server.readIds tenantId
    .ok (owned (db.job? id) tenant, db)

def JobRecord.changedWhere (jobId : String) (changes : Changes) (now : Nat)
    (r : JobRecord) : JobRecord :=
  if r.jobId = jobId then r.changed changes now else r

@[simp] theorem jobId_changedWhere (jobId : String) (changes : Changes) (now : Nat)
    (r : JobRecord) : (JobRecord.changedWhere jobId changes now r).jobId = r.jobId := by
  unfold JobRecord.changedWhere
  split <;> rfl

theorem sameJob_of_changedWhere (jobId : String) (changes : Changes) (now : Nat)
    (a b : JobRecord) (h : SameJob (JobRecord.changedWhere jobId changes now a)
      (JobRecord.changedWhere jobId changes now b)) : SameJob a b := by
  simpa [SameJob] using h

def JobDb.changed (db : JobDb) (jobId : String) (changes : Changes) : JobDb :=
  { db with jobs := db.jobs.update _ (sameJob_of_changedWhere jobId changes db.clock) }

/-- `UPDATE ... WHERE id = ... RETURNING`. -/
def updateJob (server : Server) (jobId : String) (changes : Changes) :
    JobTx (Option JobRecord) :=
  statement fun db => do
    let id ← server.readId jobId
    let setting ← server.setting changes
    match (db.changed id setting).job? id with
    | none => .ok (none, db)
    | some record =>
        if server.knows setting.tenantId.join setting.projectId.join then
          .ok (some record, db.changed id setting)
        else .error refusedKey

def stageEvent (server : Server) (subject : Subject) (event : PendingEvent) : JobTx Unit :=
  statement fun db => do
    server.checkDocument (some event.payload)
    .ok ((), { db with outbox := stage db.outbox event subject })

def stageEvents (server : Server) (subject : Subject) : List PendingEvent → JobTx Unit
  | [] => pure ()
  | event :: rest => do
      stageEvent server subject event
      stageEvents server subject rest

/-- `_write`: the status and the events it stages, in one transaction. -/
def write (server : Server) (jobId : String) (changes : Changes) (events : List PendingEvent) :
    JobTx JobRecord := do
  match ← updateJob server jobId changes with
  | none => throw (.keyError jobId)
  | some record =>
      stageEvents server ⟨record.jobId, record.tenantId, record.projectId⟩ events
      pure record

def markRunning (server : Server) (jobId : String) : JobTx JobRecord :=
  write server jobId .running []

def complete (server : Server) (jobId : String) (result : Dict) (events : List PendingEvent) :
    JobTx JobRecord :=
  write server jobId (.complete result) events

def fail (server : Server) (jobId error : String) (events : List PendingEvent) :
    JobTx JobRecord :=
  write server jobId (.fail error) events

section Rows

variable {db : JobDb} {jobId : String} {record : JobRecord}

theorem jobId_of_job? (h : db.job? jobId = some record) : record.jobId = jobId := by
  simpa using List.find?_some h

theorem job?_changed (changes : Changes) (other : String) :
    (db.changed jobId changes).job? other =
      if other = jobId then (db.job? other).map fun r => r.changed changes db.clock
      else db.job? other := by
  have hrows : (db.changed jobId changes).job? other =
      (db.job? other).map (JobRecord.changedWhere jobId changes db.clock) := by
    unfold JobDb.job? JobDb.changed
    rw [Table.rows_update, List.find?_map]
    congr 2
    funext r
    simp
  rw [hrows]
  cases hjob : db.job? other with
  | none => simp
  | some r =>
      have hid := jobId_of_job? hjob
      simp only [Option.map_some, JobRecord.changedWhere, hid]
      split <;> rfl

theorem job?_insert {jobs : Table JobRecord SameJob} (h : db.jobs.insert record = some jobs)
    (other : String) :
    JobDb.job? { db with jobs := jobs } other =
      if other = record.jobId then some record else db.job? other := by
  obtain ⟨hapart, hrows⟩ := Table.insert_eq_some.mp h
  unfold JobDb.job?
  rw [hrows, List.find?_append]
  by_cases hid : other = record.jobId
  · have hnone : db.jobs.rows.find? (fun r => r.jobId = other) = none := by
      apply List.find?_eq_none.mpr
      intro r hr heq
      exact hapart r hr ((of_decide_eq_true heq).trans hid)
    rw [if_pos hid, hnone]
    simp [hid]
  · rw [if_neg hid]
    simp [Ne.symm hid]

theorem job?_of_conflict (h : db.jobs.insert record = none) :
    ∃ r, db.job? record.jobId = some r := by
  cases hjob : db.job? record.jobId with
  | some r => exact ⟨r, rfl⟩
  | none =>
      have hapart : ∀ old ∈ db.jobs.rows, ¬ SameJob old record := by
        intro old hold hsame
        exact List.find?_eq_none.mp hjob old hold (decide_eq_true hsame)
      rw [Table.insert, dif_pos hapart] at h
      contradiction

end Rows

end SeoPlatform.Shared.PostgresStore
