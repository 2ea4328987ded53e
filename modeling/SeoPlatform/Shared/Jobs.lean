import SeoPlatform.Foundation.JsonValue
import SeoPlatform.Shared.Exceptions

namespace SeoPlatform.Shared.Jobs

open SeoPlatform.Foundation.JsonValue
open SeoPlatform.Shared.Exceptions

inductive JobStatus where
  | queued
  | running
  | completed
  | failed
  deriving DecidableEq, Repr

def JobStatus.name : JobStatus → String
  | .queued => "queued"
  | .running => "running"
  | .completed => "completed"
  | .failed => "failed"

def JobStatus.Terminal : JobStatus → Prop
  | .completed | .failed => True
  | .queued | .running => False

instance : DecidablePred JobStatus.Terminal
  | .completed | .failed => .isTrue trivial
  | .queued | .running => .isFalse id

/-- One unit of work. Moments are microseconds of the UTC clock. -/
structure JobRecord where
  jobId : String
  subject : String
  status : JobStatus := .queued
  createdAt : Nat
  updatedAt : Nat
  error : Option String := none
  result : Option Dict := none
  tenantId : Option String := none
  projectId : Option String := none

/-- What `create` makes. -/
structure NewJob where
  jobId : String
  subject : String
  tenantId : Option String := none
  projectId : Option String := none

def NewJob.record (job : NewJob) (now : Nat) : JobRecord where
  jobId := job.jobId
  subject := job.subject
  createdAt := now
  updatedAt := now
  tenantId := job.tenantId
  projectId := job.projectId

/-- The fields an `update` sets. `none` leaves a field as it is. -/
structure Changes where
  subject : Option String := none
  status : Option JobStatus := none
  error : Option (Option String) := none
  result : Option (Option Dict) := none
  tenantId : Option (Option String) := none
  projectId : Option (Option String) := none

def Changes.running : Changes := { status := some .running }

def Changes.complete (result : Dict) : Changes :=
  { status := some .completed, result := some (some result), error := some none }

def Changes.fail (error : String) : Changes :=
  { status := some .failed, error := some (some error) }

def JobRecord.changed (record : JobRecord) (changes : Changes) (now : Nat) : JobRecord where
  jobId := record.jobId
  subject := changes.subject.getD record.subject
  status := changes.status.getD record.status
  createdAt := record.createdAt
  updatedAt := now
  error := changes.error.getD record.error
  result := changes.result.getD record.result
  tenantId := changes.tenantId.getD record.tenantId
  projectId := changes.projectId.getD record.projectId

/-- A record only exists for the tenant that owns it. -/
def owned (record : Option JobRecord) (tenantId : Option String) : Option JobRecord :=
  match tenantId with
  | none => record
  | some tenant => record.filter fun r => r.tenantId = some tenant

@[simp] theorem jobId_record (job : NewJob) (now : Nat) : (job.record now).jobId = job.jobId := rfl

@[simp] theorem jobId_changed (record : JobRecord) (changes : Changes) (now : Nat) :
    (record.changed changes now).jobId = record.jobId := rfl

end SeoPlatform.Shared.Jobs
