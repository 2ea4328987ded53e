import SeoPlatform.Foundation.CivilTime
import SeoPlatform.Shared.Events

namespace SeoPlatform.Orchestrator.Schedules

open SeoPlatform.Foundation.CivilTime
open SeoPlatform.Foundation.ConstrainedTable
open SeoPlatform.Foundation.JsonValue
open SeoPlatform.Shared.Contracts
open SeoPlatform.Shared.Events
open SeoPlatform.Shared.Exceptions

def cadences : List String := ["daily", "weekly", "monthly"]

/-- The shortest gap between two runs. -/
def minInterval : Int := 23 * microsPerHour

/-- `InvalidSchedule`, or what the library of dates raises. -/
inductive TimingError where
  | invalidSchedule (text : String)
  | other (e : Exn)
  deriving DecidableEq, Repr

/-- How `ZoneInfo` fails. -/
inductive ZoneFault where
  | notFound
  | valueError
  | other (e : Exn)

/-- The time zones a machine has installed, and how it quotes a text. -/
structure Host where
  zoneInfo : String → Except ZoneFault Zone
  repr : String → String

section Timing

def zone (host : Host) (name : String) : Except TimingError Zone :=
  match host.zoneInfo name with
  | .ok found => .ok found
  | .error (.other e) => .error (.other e)
  | .error _ => .error (.invalidSchedule ("unknown timezone " ++ host.repr name))

/-- The last day of the year 9999. -/
def maxOrdinal : Int := 3652059

/-- A date and time is one of the years 1 to 9999. -/
def inCalendar (stamp : Int) : Except TimingError Int :=
  if microsPerDay ≤ stamp ∧ stamp < (maxOrdinal + 1) * microsPerDay then .ok stamp
  else .error (.other (.library "OverflowError" "date value out of range"))

/-- Adding a `timedelta` forgets the fold. -/
def addDays (w : WallTime) (days : Int) : Except TimingError WallTime :=
  (inCalendar (w.stamp + days * microsPerDay)).map fun stamp => ⟨stamp, false⟩

/-- `moment.replace(hour=hour, minute=0, second=0, microsecond=0)`. -/
def atHour (moment : WallTime) (hour : Int) : WallTime :=
  WallTime.onDay moment.day hour moment.fold

def daily (moment : WallTime) (hour : Int) : Except TimingError WallTime :=
  let candidate := atHour moment hour
  if candidate.stamp ≤ moment.stamp then addDays candidate 1 else .ok candidate

def weekly (moment : WallTime) (hour weekday : Int) : Except TimingError WallTime :=
  if 0 ≤ weekday ∧ weekday ≤ 6 then
    match addDays (atHour moment hour) ((weekday - moment.weekday) % 7) with
    | .error e => .error e
    | .ok candidate =>
        if candidate.stamp ≤ moment.stamp then addDays candidate 7 else .ok candidate
  else .error (.invalidSchedule ("weekday must be 0-6, got " ++ toString weekday))

/-- The loop of `_monthly`. The 31st of a month with thirty days is the 30th. -/
def monthlyFrom (moment : WallTime) (hour dayOfMonth : Int) :
    Nat → Int → Nat → Except TimingError WallTime
  | 0, _, _ => .error (.invalidSchedule "could not find a next monthly occurrence")
  | rounds + 1, year, month =>
      if 1 ≤ year ∧ year ≤ 9999 then
        let day := min dayOfMonth (monthLength year month)
        let candidate := WallTime.onDay (ordinal year month day) hour moment.fold
        if moment.stamp < candidate.stamp then .ok candidate
        else if month = 12 then monthlyFrom moment hour dayOfMonth rounds (year + 1) 1
        else monthlyFrom moment hour dayOfMonth rounds year (month + 1)
      else .error (.other (.valueError ("year " ++ toString year ++ " is out of range")))

def monthly (moment : WallTime) (hour dayOfMonth : Int) : Except TimingError WallTime :=
  if 1 ≤ dayOfMonth ∧ dayOfMonth ≤ 31 then
    monthlyFrom moment hour dayOfMonth 2 moment.year moment.month
  else .error (.invalidSchedule ("day_of_month must be 1-31, got " ++ toString dayOfMonth))

/-- The occurrence after a moment, on the clock of the schedule. -/
def candidateAfter (cadence : String) (hour weekday dayOfMonth : Int) (moment : WallTime) :
    Except TimingError WallTime :=
  if cadence = "daily" then daily moment hour
  else if cadence = "weekly" then weekly moment hour weekday
  else monthly moment hour dayOfMonth

/-- A moment on the clock of a zone, and back. -/
def toLocal (localZone : Zone) (after : Int) : Except TimingError WallTime :=
  (inCalendar (localZone.reading after).stamp).map fun _ => localZone.reading after

def toUtc (localZone : Zone) (candidate : WallTime) : Except TimingError Int :=
  inCalendar (localZone.instant candidate)

def nextRun (host : Host) (cadence : String) (hour weekday dayOfMonth : Int) (tz : String)
    (after : Int) : Except TimingError Int :=
  if cadence ∉ cadences then
    .error (.invalidSchedule
      ("unknown cadence " ++ host.repr cadence ++ "; have ('daily', 'weekly', 'monthly')"))
  else if ¬ (0 ≤ hour ∧ hour ≤ 23) then
    .error (.invalidSchedule ("hour must be 0-23, got " ++ toString hour))
  else do
    let localZone ← zone host tz
    let moment ← toLocal localZone after
    let candidate ← candidateAfter cadence hour weekday dayOfMonth moment
    toUtc localZone candidate

end Timing

/-- The CHECKs of the table. -/
structure Checks (cadence : String) (hour weekday dayOfMonth : Int) : Prop where
  cadence : cadence ∈ cadences
  hour : 0 ≤ hour ∧ hour ≤ 23
  weekday : 0 ≤ weekday ∧ weekday ≤ 6
  dayOfMonth : 1 ≤ dayOfMonth ∧ dayOfMonth ≤ 31

instance (cadence : String) (hour weekday dayOfMonth : Int) :
    Decidable (Checks cadence hour weekday dayOfMonth) :=
  decidable_of_iff (cadence ∈ cadences ∧ (0 ≤ hour ∧ hour ≤ 23) ∧ (0 ≤ weekday ∧ weekday ≤ 6) ∧
    (1 ≤ dayOfMonth ∧ dayOfMonth ≤ 31))
    ⟨fun ⟨h₁, h₂, h₃, h₄⟩ => ⟨h₁, h₂, h₃, h₄⟩, fun ⟨h₁, h₂, h₃, h₄⟩ => ⟨h₁, h₂, h₃, h₄⟩⟩

/-- A row of the table. -/
structure Schedule where
  id : String
  tenantId : Option String
  projectId : Option String
  goal : String
  inputs : Dict
  cadence : String
  hour : Int := 9
  weekday : Int := 0
  dayOfMonth : Int := 1
  tz : String := "Asia/Tehran"
  active : Bool := true
  nextRunAt : Int
  lastRunAt : Option Int := none
  lastError : Option String := none
  runs : Nat := 0
  checked : Checks cadence hour weekday dayOfMonth

def SameSchedule (a b : Schedule) : Prop := a.id = b.id

instance : DecidableRel SameSchedule := fun a b => inferInstanceAs (Decidable (a.id = b.id))

abbrev ScheduleTable := Table Schedule SameSchedule

/-- What a schedule is created from. -/
structure Draft where
  goal : String
  inputs : Dict
  cadence : String
  hour : Int := 9
  weekday : Int := 0
  dayOfMonth : Int := 1
  tz : String := "Asia/Tehran"
  tenantId : Option String := none
  projectId : Option String := none

/-- The row `create` inserts. -/
def Draft.row (draft : Draft) (host : Host) (id : String) (now : Int) :
    Except TimingError Schedule :=
  match nextRun host draft.cadence draft.hour draft.weekday draft.dayOfMonth draft.tz now with
  | .error e => .error e
  | .ok first =>
      if checked : Checks draft.cadence draft.hour draft.weekday draft.dayOfMonth then
        .ok
          { id
            tenantId := draft.tenantId
            projectId := draft.projectId
            goal := draft.goal
            inputs := draft.inputs
            cadence := draft.cadence
            hour := draft.hour
            weekday := draft.weekday
            dayOfMonth := draft.dayOfMonth
            tz := draft.tz
            nextRunAt := first
            checked }
      else .error (.other (.database "CheckViolation" "new row for relation \"schedules\""))

def Schedule.pausedWhere (id : String) (active : Bool) (row : Schedule) : Schedule :=
  if row.id = id then { row with active := active } else row

@[simp] theorem pausedWhere_id (id : String) (active : Bool) (row : Schedule) :
    (row.pausedWhere id active).id = row.id := by
  unfold Schedule.pausedWhere
  split <;> rfl

theorem sameSchedule_of_pausedWhere (id : String) (active : Bool) (a b : Schedule)
    (h : SameSchedule (a.pausedWhere id active) (b.pausedWhere id active)) : SameSchedule a b := by
  simpa [SameSchedule] using h

/-- `set_active`. -/
def setActive (schedules : ScheduleTable) (id : String) (active : Bool) : ScheduleTable :=
  schedules.update _ (sameSchedule_of_pausedWhere id active)

/-- Where a schedule that fell behind should point next. -/
def catchUp (host : Host) (schedule : Schedule) (now : Int) : Except TimingError Int :=
  nextRun host schedule.cadence schedule.hour schedule.weekday schedule.dayOfMonth schedule.tz now

/-- The payload a due schedule turns into. -/
def workflowRequest (schedule : Schedule) (workflowId : String) : Dict :=
  [("workflow_id", .str workflowId), ("goal", .str schedule.goal),
   ("inputs", .obj schedule.inputs)]

def Schedule.Due (schedule : Schedule) (now : Int) : Prop :=
  schedule.active = true ∧ schedule.nextRunAt ≤ now

instance (schedule : Schedule) (now : Int) : Decidable (schedule.Due now) :=
  inferInstanceAs (Decidable (_ ∧ _))

/-- A schedule as it was found due, the identifiers drawn for its run, and where
it points then. -/
structure Firing where
  schedule : Schedule
  workflowId : String
  eventId : String
  now : Int
  next : Int

def Firing.request (firing : Firing) : PendingEvent where
  type := .workflowRequested
  payload := workflowRequest firing.schedule firing.workflowId
  producer := "scheduler"
  eventId := firing.eventId
  correlationId := some firing.workflowId
  causationId := none

def Firing.subject (firing : Firing) : Subject where
  jobId := firing.schedule.id
  tenantId := firing.schedule.tenantId
  projectId := firing.schedule.projectId

/-- What `fire_due` makes of one row of its batch. -/
inductive Change where
  | deactivated (schedule : Schedule)
  | fired (firing : Firing)

def Change.schedule : Change → Schedule
  | .deactivated schedule => schedule
  | .fired firing => firing.schedule

def fireRow (host : Host) (wording : Wording) (schedule : Schedule) (workflowId eventId : String)
    (now : Int) : Except TimingError Change :=
  match validateEvent wording .workflowRequested (workflowRequest schedule workflowId) with
  | .error _ => .ok (.deactivated schedule)
  | .ok () =>
      (catchUp host schedule now).map fun next =>
        .fired { schedule, workflowId, eventId, now, next }

/-- The UPDATE of a row of the batch. -/
def Change.applied (change : Change) (row : Schedule) : Schedule :=
  match change with
  | .deactivated _ =>
      { row with
        active := false
        lastError := some "inputs no longer valid for workflow.requested" }
  | .fired firing =>
      { row with
        nextRunAt := firing.next
        lastRunAt := some firing.now
        runs := row.runs + 1
        lastError := none }

@[simp] theorem applied_id (change : Change) (row : Schedule) :
    (change.applied row).id = row.id := by
  cases change <;> rfl

/-- `UPDATE ... WHERE id = ...`. -/
def Change.appliedWhere (change : Change) (row : Schedule) : Schedule :=
  if row.id = change.schedule.id then change.applied row else row

@[simp] theorem appliedWhere_id (change : Change) (row : Schedule) :
    (change.appliedWhere row).id = row.id := by
  unfold Change.appliedWhere
  split
  · exact applied_id change row
  · rfl

theorem sameSchedule_of_appliedWhere (change : Change) (a b : Schedule)
    (h : SameSchedule (change.appliedWhere a) (change.appliedWhere b)) : SameSchedule a b := by
  simpa [SameSchedule] using h

def updateSchedules (schedules : ScheduleTable) (change : Change) : ScheduleTable :=
  schedules.update _ (sameSchedule_of_appliedWhere change)

/-- The event of a fired row is staged. -/
def stageChange (outbox : Outbox) : Change → Outbox
  | .deactivated _ => outbox
  | .fired firing => stage outbox firing.request firing.subject

end SeoPlatform.Orchestrator.Schedules
