import SeoPlatform.Gateway.ServiceClient
import SeoPlatform.Orchestrator.Planner
import SeoPlatform.Orchestrator.Schedulers

namespace SeoPlatform.Orchestrator.ScheduleApi

open SeoPlatform.Foundation.ConstrainedTable
open SeoPlatform.Gateway.ServiceClient
open SeoPlatform.Orchestrator.Schedules
open SeoPlatform.Orchestrator.Schedulers

/-- `AND tenant_id = ...`, which a statement has where a tenant is given. -/
def Schedule.inScope (tenantId : Option String) (row : Schedule) : Bool :=
  tenantId.all fun tenant => row.tenantId = some tenant

def Schedule.reached (id : String) (tenantId : Option String) (row : Schedule) : Bool :=
  row.id = id && Schedule.inScope tenantId row

section Store

variable (schedules : ScheduleTable)

def get (id : String) (tenantId : Option String) : Option Schedule :=
  schedules.rows.find? (Schedule.reached id tenantId)

/-- `tenant_id IS NOT DISTINCT FROM`, in the order of creation. -/
def ownedBy (tenantId : Option String) : List Schedule :=
  schedules.rows.filter fun row => row.tenantId = tenantId

/-- `DELETE ... RETURNING id`: whether a row came back. -/
def delete (id : String) (tenantId : Option String) : Bool × ScheduleTable :=
  ((get schedules id tenantId).isSome, schedules.delete (Schedule.reached id tenantId))

def Schedule.switched (id : String) (active : Bool) (tenantId : Option String)
    (row : Schedule) : Schedule :=
  if Schedule.reached id tenantId row then { row with active := active } else row

theorem switched_id (id : String) (active : Bool) (tenantId : Option String) (row : Schedule) :
    (Schedule.switched id active tenantId row).id = row.id := by
  unfold Schedule.switched
  split <;> rfl

theorem sameSchedule_of_switched (id : String) (active : Bool) (tenantId : Option String)
    (a b : Schedule) (h : SameSchedule (Schedule.switched id active tenantId a)
      (Schedule.switched id active tenantId b)) : SameSchedule a b := by
  simpa [SameSchedule, switched_id] using h

/-- `set_active`, for one tenant where one is given. -/
def setActiveOf (id : String) (active : Bool) (tenantId : Option String) :
    Bool × ScheduleTable :=
  ((get schedules id tenantId).isSome,
    schedules.update _ (sameSchedule_of_switched id active tenantId))

end Store

/-- What the service is given: the time zones, the identifiers drawn, the foreign
keys, and whether a goal can be planned for some inputs. -/
structure Service where
  host : Host
  uuid : Nat → String
  knows : Option String → Option String → Bool
  plannable : Draft → Bool

variable (service : Service)

/-- `POST /v1/schedules`. -/
def createSchedule (s : System) (draft : Draft) : Option (Response Schedule × System) :=
  if service.plannable draft = false then some (⟨422, []⟩, s)
  else
    match draft.row service.host (service.uuid s.drawn) s.now with
    | .error (.invalidSchedule _) => some (⟨422, []⟩, s)
    | .error (.other _) => some (⟨500, []⟩, s)
    | .ok row =>
        if service.knows draft.tenantId draft.projectId = false then
          some (⟨400, []⟩, { s with drawn := s.drawn + 1 })
        else
          match s.schedules.insert row with
          | none => some (⟨500, []⟩, { s with drawn := s.drawn + 1 })
          | some schedules =>
              some (⟨201, [row]⟩, { s with schedules := schedules, drawn := s.drawn + 1 })

/-- A statement waits for a row that a scheduler holds. -/
def free (s : System) (id : String) (tenantId : Option String) : Bool :=
  (get s.schedules id tenantId).isNone || (s.locks id).isNone

/-- `POST /v1/schedules/{schedule_id}/pause`. -/
def pauseSchedule (s : System) (id : String) (active : Bool) (tenantId : Option String) :
    Option (Response Schedule × System) :=
  if free s id tenantId then
    let (found, schedules) := setActiveOf s.schedules id active tenantId
    let after := { s with schedules := schedules }
    some (if found then ⟨200, (get schedules id tenantId).toList⟩ else ⟨404, []⟩, after)
  else none

/-- `DELETE /v1/schedules/{schedule_id}`. -/
def deleteSchedule (s : System) (id : String) (tenantId : Option String) :
    Option (Response Schedule × System) :=
  if free s id tenantId then
    let (found, schedules) := delete s.schedules id tenantId
    some (if found then ⟨204, []⟩ else ⟨404, []⟩, { s with schedules := schedules })
  else none

/-- The query parameter `active`, and what it is without one. -/
def activeIn (query : List (String × String)) : Option Bool :=
  match query.lookup "active" with
  | none => some false
  | some "true" => some true
  | some "false" => some false
  | some _ => none

/-- The endpoints under `/v1/schedules`. The tenant is what the query says. -/
def serve (s : System) (request : Request Draft) : Option (Response Schedule × System) :=
  let tenantId := request.query.lookup "tenant_id"
  match request.method, request.path, request.body with
  | .post, ["v1", "schedules"], .json draft => createSchedule service s draft
  | .get, ["v1", "schedules"], _ => some (⟨200, ownedBy s.schedules tenantId⟩, s)
  | .get, ["v1", "schedules", id], _ =>
      some (match get s.schedules id tenantId with
        | some row => ⟨200, [row]⟩
        | none => ⟨404, []⟩, s)
  | .post, ["v1", "schedules", id, "pause"], _ =>
      match activeIn request.query with
      | some active => pauseSchedule s id active tenantId
      | none => some (⟨422, []⟩, s)
  | .delete, ["v1", "schedules", id], _ => deleteSchedule s id tenantId
  | _, _, _ => some (⟨404, []⟩, s)

end SeoPlatform.Orchestrator.ScheduleApi
