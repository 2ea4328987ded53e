import SeoPlatform.Foundation.RowLocks
import SeoPlatform.Foundation.TransitionSystem
import SeoPlatform.Shared.Events
import Mathlib.Data.List.Sort

namespace SeoPlatform.Shared.Relay

open SeoPlatform.Foundation.ConstrainedTable
open SeoPlatform.Foundation.RowLocks
open SeoPlatform.Foundation.TransitionSystem
open SeoPlatform.Shared.Events

/-- A row of the outbox with the columns its table fills in. -/
structure StoredRow extends OutboxRow where
  id : Nat
  occurredAt : Nat
  publishedAt : Option Nat

/-- A row, with the transaction that inserts it until that has committed. -/
structure Version where
  row : StoredRow
  writer : Option Nat

/-- The primary key and the unique event id. -/
def Clash (a b : Version) : Prop := a.row.id = b.row.id ∨ a.row.eventId = b.row.eventId

instance : DecidableRel Clash := fun a b =>
  inferInstanceAs (Decidable (a.row.id = b.row.id ∨ a.row.eventId = b.row.eventId))

abbrev Heap := Table Version Clash

/-- A row that a transaction which began then inserts. -/
def storedRow (id began : Nat) (event : PendingEvent) (subject : Subject) : StoredRow where
  toOutboxRow := stagedRow event subject
  id := id
  occurredAt := began
  publishedAt := none

/-- The envelope `drain` makes of a claimed row. `CLAIM` selects no moment, so
the field takes its default, the clock where the envelope is made. -/
def envelopeOf (row : StoredRow) (clock : Nat) : Envelope where
  id := row.eventId
  type := row.eventType
  payload := row.payload
  producer := row.producer
  occurredAt := clock
  correlationId := row.correlationId
  causationId := row.causationId
  tenantId := row.tenantId
  projectId := row.projectId

/-- How one attempt to hand a message to the broker ends: confirmed, or in an
exception, which may leave a copy with the broker all the same. -/
inductive Attempt where
  | confirmed
  | raised (accepted amqp : Bool)

/-- `Publisher.publish`: the copies the broker has then, and whether it
returned. An `AMQPError` is retried once. -/
def publish (first second : Attempt) : Nat × Bool :=
  match first, second with
  | .confirmed, _ => (1, true)
  | .raised accepted false, _ => (accepted.toNat, false)
  | .raised accepted true, .confirmed => (accepted.toNat + 1, true)
  | .raised accepted true, .raised again _ => (accepted.toNat + again.toNat, false)

/-- What went out, and the row it went out for. -/
structure Publication where
  row : StoredRow
  envelope : Envelope

/-- Where the transaction of a relay is. -/
inductive Phase where
  | idle
  | claiming (began room : Nat) (candidates : List Nat) (claimed : List StoredRow)
  | draining (began : Nat) (todo marked : List StoredRow)
  | marking (began : Nat) (row : StoredRow) (todo marked : List StoredRow)

/-- The server's clock, the next serial, the table with the rows of open
transactions, when each writer's transaction began, the relays with their row
locks, what the broker has, and the rows each committed relay transaction
marked. -/
structure System where
  now : Nat
  nextId : Nat
  heap : Heap
  writers : Nat → Option Nat
  relays : Nat → Phase
  locks : Locks Nat Nat
  bus : List Publication
  commits : List (List Nat)

def System.initial : System where
  now := 0
  nextId := 1
  heap := .empty
  writers _ := none
  relays _ := .idle
  locks := .free
  bus := []
  commits := []

inductive Label where
  | tick (elapsed : Nat)
  | begin (n : Nat)
  | stage (n : Nat) (event : PendingEvent) (subject : Subject)
  | commit (n : Nat)
  | rollback (n : Nat)
  | select (n batch : Nat)
  | lock (n : Nat)
  | publish (n clock : Nat) (first second : Attempt)
  | mark (n : Nat)
  | finish (n : Nat)
  | abort (n : Nat)
  | prune (keepHours : Nat)

def Version.waiting (v : Version) : Bool := v.writer.isNone && v.row.publishedAt.isNone

def System.setRelay (s : System) (n : Nat) (phase : Phase) : System :=
  { s with relays := Function.update s.relays n phase }

/-- `_stage` in an open transaction. A row that another open transaction
inserts is waited for. The serial is drawn in any case. -/
def stageRow (s : System) (n : Nat) (event : PendingEvent) (subject : Subject) : Option System :=
  (s.writers n).bind fun began =>
    match s.heap.rows.find? fun v => v.row.eventId = event.eventId with
    | some v =>
        if v.writer = none ∨ v.writer = some n then some { s with nextId := s.nextId + 1 }
        else none
    | none =>
        (s.heap.insert ⟨storedRow s.nextId began event subject, some n⟩).map fun heap =>
          { s with heap := heap, nextId := s.nextId + 1 }

def Version.committed (n : Nat) (v : Version) : Version :=
  if v.writer = some n then { v with writer := none } else v

theorem row_committed (n : Nat) (v : Version) : (v.committed n).row = v.row := by
  unfold Version.committed
  split <;> rfl

theorem clash_committed (n : Nat) (a b : Version)
    (h : Clash (a.committed n) (b.committed n)) : Clash a b := by
  simpa [Clash, row_committed] using h

def commitWriter (s : System) (n : Nat) : Option System :=
  (s.writers n).map fun _ =>
    { s with
      heap := s.heap.update (Version.committed n) (clash_committed n)
      writers := Function.update s.writers n none }

def rollbackWriter (s : System) (n : Nat) : Option System :=
  (s.writers n).map fun _ =>
    { s with
      heap := s.heap.delete fun v => v.writer = some n
      writers := Function.update s.writers n none }

/-- The rows `CLAIM` sees, in its order. -/
def candidates (s : System) : List Nat :=
  ((s.heap.rows.filter Version.waiting).map fun v => v.row.id).insertionSort (· ≤ ·)

/-- `FOR UPDATE SKIP LOCKED`: the row as it is now, unless it is locked or no
longer meets the condition. -/
def claimable (s : System) (id : Nat) : Option StoredRow :=
  if s.locks id = none then
    (s.heap.rows.find? fun v => v.row.id = id ∧ v.waiting).map Version.row
  else none

/-- The next candidate is locked or skipped, up to the limit. -/
def lockNext (s : System) (n : Nat) : Option System :=
  match s.relays n with
  | .claiming began 0 _ claimed => some (s.setRelay n (.draining began claimed []))
  | .claiming began _ [] claimed => some (s.setRelay n (.draining began claimed []))
  | .claiming began (room + 1) (id :: rest) claimed =>
      match claimable s id with
      | none => some (s.setRelay n (.claiming began (room + 1) rest claimed))
      | some row =>
          some { s.setRelay n (.claiming began room rest (claimed ++ [row])) with
            locks := s.locks.take id n }
  | _ => none

/-- The end of a relay's transaction: back to the loop, its locks given up. -/
def System.leave (s : System) (n : Nat) : System :=
  { s.setRelay n .idle with locks := s.locks.release n }

def publishNext (s : System) (n clock : Nat) (first second : Attempt) : Option System :=
  match s.relays n with
  | .draining began (row :: todo) marked =>
      let attempted := publish first second
      let published := { s with
        bus := s.bus ++ List.replicate attempted.1 (Publication.mk row (envelopeOf row clock)) }
      some (if attempted.2 then published.setRelay n (.marking began row todo marked)
        else published.leave n)
  | _ => none

/-- The `UPDATE` of a published row, in the relay's own transaction. -/
def markRow (s : System) (n : Nat) : Option System :=
  match s.relays n with
  | .marking began row todo marked =>
      some (s.setRelay n (.draining began todo (marked ++ [row])))
  | _ => none

def Version.marked (began : Nat) (ids : List Nat) (v : Version) : Version :=
  if v.row.id ∈ ids then { v with row := { v.row with publishedAt := some began } } else v

theorem toOutboxRow_marked (began : Nat) (ids : List Nat) (v : Version) :
    (v.marked began ids).row.toOutboxRow = v.row.toOutboxRow ∧
      (v.marked began ids).row.id = v.row.id ∧
      (v.marked began ids).row.occurredAt = v.row.occurredAt ∧
      (v.marked began ids).writer = v.writer := by
  unfold Version.marked
  split <;> exact ⟨rfl, rfl, rfl, rfl⟩

theorem clash_marked (began : Nat) (ids : List Nat) (a b : Version)
    (h : Clash (a.marked began ids) (b.marked began ids)) : Clash a b := by
  simpa [Clash, toOutboxRow_marked] using h

/-- The transaction of a relay commits. -/
def finishRelay (s : System) (n : Nat) : Option System :=
  match s.relays n with
  | .draining began [] marked =>
      let ids := marked.map StoredRow.id
      some { s.leave n with
        heap := s.heap.update (Version.marked began ids) (clash_marked began ids)
        commits := s.commits ++ [ids] }
  | _ => none

def microsPerHour : Nat := 3600000000

/-- `prune`: the rows published longer ago than it keeps. -/
def Version.expired (now keepHours : Nat) (v : Version) : Bool :=
  v.writer.isNone && v.row.publishedAt.any fun at' => at' + keepHours * microsPerHour < now

def step (s : System) : Label → Option System
  | .tick elapsed => some { s with now := s.now + elapsed }
  | .begin n =>
      if s.writers n = none then
        some { s with writers := Function.update s.writers n (some s.now) }
      else none
  | .stage n event subject => stageRow s n event subject
  | .commit n => commitWriter s n
  | .rollback n => rollbackWriter s n
  | .select n batch =>
      match s.relays n with
      | .idle => some (s.setRelay n (.claiming s.now batch (candidates s) []))
      | _ => none
  | .lock n => lockNext s n
  | .publish n clock first second => publishNext s n clock first second
  | .mark n => markRow s n
  | .finish n => finishRelay s n
  | .abort n =>
      match s.relays n with
      | .idle => none
      | _ => some (s.leave n)
  | .prune keepHours =>
      some { s with heap := s.heap.delete (Version.expired s.now keepHours) }

end SeoPlatform.Shared.Relay
