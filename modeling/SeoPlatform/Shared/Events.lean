import SeoPlatform.Foundation.ConstrainedTable
import SeoPlatform.Shared.Contracts

namespace SeoPlatform.Shared.Events

open SeoPlatform.Foundation.JsonValue
open SeoPlatform.Foundation.ConstrainedTable
open SeoPlatform.Shared.Contracts

/-- An event a transaction wants published when it commits. -/
structure PendingEvent where
  type : EventType
  payload : Dict
  producer : String
  eventId : String
  correlationId : Option String
  causationId : Option String

/-- A row of the outbox. The rows stand in the order of their serial ids. -/
structure OutboxRow where
  eventId : String
  eventType : EventType
  producer : String
  tenantId : Option String
  projectId : Option String
  correlationId : Option String
  causationId : Option String
  payload : Dict

def SameEvent (a b : OutboxRow) : Prop := a.eventId = b.eventId

instance : DecidableRel SameEvent := fun a b => inferInstanceAs (Decidable (a.eventId = b.eventId))

abbrev Outbox := Table OutboxRow SameEvent

/-- What an outbox row says about whom an event is for. -/
structure Subject where
  jobId : String
  tenantId : Option String
  projectId : Option String

/-- `value or fallback`, over a text that may be absent. -/
def textOr (value : Option String) (fallback : String) : String :=
  match value with
  | some s => if s = "" then fallback else s
  | none => fallback

def stagedRow (event : PendingEvent) (subject : Subject) : OutboxRow where
  eventId := event.eventId
  eventType := event.type
  producer := event.producer
  tenantId := subject.tenantId
  projectId := subject.projectId
  correlationId := some (textOr event.correlationId subject.jobId)
  causationId := event.causationId
  payload := event.payload

/-- `INSERT INTO outbox ... ON CONFLICT (event_id) DO NOTHING`. -/
def stage (outbox : Outbox) (event : PendingEvent) (subject : Subject) : Outbox :=
  (outbox.insert (stagedRow event subject)).getD outbox

def contractVersion : Nat := 1

/-- A message on the bus. Moments are microseconds of the UTC clock. -/
structure Envelope where
  id : String
  type : EventType
  payload : Dict
  producer : String
  version : Nat := contractVersion
  occurredAt : Nat
  correlationId : Option String := none
  causationId : Option String := none
  tenantId : Option String := none
  projectId : Option String := none

theorem rows_stage_of_fresh {outbox : Outbox} {event : PendingEvent} {subject : Subject}
    (hfresh : ∀ row ∈ outbox.rows, row.eventId ≠ event.eventId) :
    (stage outbox event subject).rows = outbox.rows ++ [stagedRow event subject] := by
  have hinsert : ∀ old ∈ outbox.rows, ¬ SameEvent old (stagedRow event subject) := hfresh
  unfold stage Table.insert
  rw [dif_pos hinsert]
  rfl

/-- What staging an event adds: its row, or nothing. -/
theorem rows_stage (outbox : Outbox) (event : PendingEvent) (subject : Subject) :
    (stage outbox event subject).rows = outbox.rows ∨
      (stage outbox event subject).rows = outbox.rows ++ [stagedRow event subject] := by
  unfold stage
  cases hinsert : outbox.insert (stagedRow event subject) with
  | none => exact .inl rfl
  | some after => exact .inr (Table.insert_eq_some.mp hinsert).2

end SeoPlatform.Shared.Events
