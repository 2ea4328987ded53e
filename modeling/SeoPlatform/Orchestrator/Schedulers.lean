import SeoPlatform.Foundation.RowLocks
import SeoPlatform.Foundation.TransitionSystem
import SeoPlatform.Orchestrator.Schedules

namespace SeoPlatform.Orchestrator.Schedulers

open SeoPlatform.Foundation.ConstrainedTable
open SeoPlatform.Foundation.RowLocks
open SeoPlatform.Orchestrator.Schedules
open SeoPlatform.Shared.Contracts
open SeoPlatform.Shared.Events

/-- Where the transaction of a scheduler is. Its own writes are seen by nobody
until it commits. -/
inductive Phase where
  | idle
  | ticking (now : Int) (limit : Nat)
  | claiming (now : Int) (room : Nat) (candidates : List String) (claimed : List Schedule)
  | firing (now : Int) (todo : List Schedule) (changes : List Change)

/-- The clock, the identifiers drawn so far, the two tables as they are committed,
the schedulers with their row locks, and the firings that were committed. -/
structure System where
  now : Int
  drawn : Nat
  schedules : ScheduleTable
  outbox : Outbox
  schedulers : Nat → Phase
  locks : Locks String Nat
  firings : List Firing

def System.initial : System where
  now := 0
  drawn := 0
  schedules := .empty
  outbox := .empty
  schedulers _ := .idle
  locks := .free
  firings := []

inductive Label where
  | tick (elapsed : Nat)
  | create (host : Host) (draft : Draft)
  | pause (id : String) (active : Bool)
  | delete (id : String)
  | begin (n limit : Nat)
  | select (n : Nat) (order : List String)
  | lock (n : Nat)
  | fire (n : Nat)
  | commit (n : Nat)
  | abort (n : Nat)

variable (host : Host) (wording : Wording) (uuid : Nat → String)

def System.setScheduler (s : System) (n : Nat) (phase : Phase) : System :=
  { s with schedulers := Function.update s.schedulers n phase }

/-- The end of a scheduler's transaction: its locks are given up. -/
def System.leave (s : System) (n : Nat) : System :=
  { s.setScheduler n .idle with locks := s.locks.release n }

def createSchedule (s : System) (creator : Host) (draft : Draft) : Option System :=
  match draft.row creator (uuid s.drawn) s.now with
  | .error _ => none
  | .ok row =>
      (s.schedules.insert row).map fun schedules =>
        { s with schedules := schedules, drawn := s.drawn + 1 }

/-- The rows the SELECT sees, in an order by `next_run_at`. -/
def Ordered (schedules : ScheduleTable) (now : Int) (order : List String) : Prop :=
  order.Perm ((schedules.rows.filter fun row => row.Due now).map Schedule.id) ∧
    order.Pairwise fun a b => ∀ x ∈ schedules.rows, ∀ y ∈ schedules.rows,
      x.id = a → y.id = b → x.nextRunAt ≤ y.nextRunAt

instance (schedules : ScheduleTable) (now : Int) (order : List String) :
    Decidable (Ordered schedules now order) :=
  inferInstanceAs (Decidable (_ ∧ _))

def selectDue (s : System) (n : Nat) (order : List String) : Option System :=
  match s.schedulers n with
  | .ticking now limit =>
      if Ordered s.schedules now order then
        some (s.setScheduler n (.claiming now limit order []))
      else none
  | _ => none

/-- `FOR UPDATE SKIP LOCKED`: the row as it is now, unless it is locked or no
longer meets the condition. -/
def claimable (s : System) (now : Int) (id : String) : Option Schedule :=
  if s.locks id = none then
    s.schedules.rows.find? fun row => row.id = id ∧ row.Due now
  else none

/-- The next candidate is locked or skipped, up to the limit. -/
def lockNext (s : System) (n : Nat) : Option System :=
  match s.schedulers n with
  | .claiming now 0 _ claimed => some (s.setScheduler n (.firing now claimed []))
  | .claiming now _ [] claimed => some (s.setScheduler n (.firing now claimed []))
  | .claiming now (room + 1) (id :: rest) claimed =>
      match claimable s now id with
      | none => some (s.setScheduler n (.claiming now (room + 1) rest claimed))
      | some row =>
          some { s.setScheduler n (.claiming now room rest (claimed ++ [row])) with
            locks := s.locks.take id n }
  | _ => none

/-- One turn of the loop over the batch. What it raises rolls the batch back. -/
def fireNext (s : System) (n : Nat) : Option System :=
  match s.schedulers n with
  | .firing now (row :: todo) changes =>
      let drew := { s with drawn := s.drawn + 2 }
      match fireRow host wording row (uuid s.drawn) (uuid (s.drawn + 1)) now with
      | .error _ => some (drew.leave n)
      | .ok change => some (drew.setScheduler n (.firing now todo (changes ++ [change])))
  | _ => none

def firingsOf (changes : List Change) : List Firing :=
  changes.filterMap fun
    | .fired firing => some firing
    | .deactivated _ => none

def commitBatch (s : System) (n : Nat) : Option System :=
  match s.schedulers n with
  | .firing _ [] changes =>
      some { s.leave n with
        schedules := changes.foldl updateSchedules s.schedules
        outbox := changes.foldl stageChange s.outbox
        firings := s.firings ++ firingsOf changes }
  | _ => none

/-- A row that a scheduler holds is waited for. -/
def step (s : System) : Label → Option System
  | .tick elapsed => some { s with now := s.now + elapsed }
  | .create creator draft => createSchedule uuid s creator draft
  | .pause id active =>
      if s.locks id = none then some { s with schedules := setActive s.schedules id active }
      else none
  | .delete id =>
      if s.locks id = none then
        some { s with schedules := s.schedules.delete fun row => row.id = id }
      else none
  | .begin n limit =>
      match s.schedulers n with
      | .idle => some (s.setScheduler n (.ticking s.now limit))
      | _ => none
  | .select n order => selectDue s n order
  | .lock n => lockNext s n
  | .fire n => fireNext host wording uuid s n
  | .commit n => commitBatch s n
  | .abort n =>
      match s.schedulers n with
      | .idle => none
      | _ => some (s.leave n)

end SeoPlatform.Orchestrator.Schedulers
