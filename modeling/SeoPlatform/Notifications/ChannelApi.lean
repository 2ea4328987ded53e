import SeoPlatform.Gateway.ServiceClient
import SeoPlatform.Notifications.Worker

namespace SeoPlatform.Notifications.ChannelApi

open SeoPlatform.Foundation.ConstrainedTable
open SeoPlatform.Gateway.ServiceClient
open SeoPlatform.Notifications.Channels
open SeoPlatform.Notifications.Deliver
open SeoPlatform.Notifications.Store
open SeoPlatform.Shared.Netguard

/-- A row of `notification_channels`, without its moment. -/
structure Row extends Channel where
  projectId : Option String
  secret : Option String

def SameChannel (a b : Row) : Prop := a.id = b.id

instance : DecidableRel SameChannel := fun a b => inferInstanceAs (Decidable (a.id = b.id))

abbrev ChannelTable := Table Row SameChannel

/-- The tables of the service, and how many identifiers were drawn. -/
structure Tables where
  channels : ChannelTable
  deliveries : Deliveries
  drawn : Nat

/-- What `to_dict` shows of a channel. -/
structure Shown where
  id : String
  kind : String
  target : String
  events : List String
  active : Bool
  secret : Option String
  hasSecret : Bool

def Row.toDict (revealSecret : Bool) (row : Row) : Shown where
  id := row.id
  kind := row.kind
  target := row.target
  events := row.events
  active := row.active
  secret := if revealSecret then row.secret else none
  hasSecret := row.secret.getD "" ≠ ""

/-- `_mask`: the start of an address, or a url without its query. -/
def mask (target : String) : String :=
  let chars := target.toList
  if '@' ∈ chars then
    String.ofList ((chars.takeWhile (· ≠ '@')).take 2 ++ ['…', '@'] ++
      (chars.dropWhile (· ≠ '@')).drop 1)
  else String.ofList (chars.takeWhile (· ≠ '?'))

/-- What `deliveries` shows of a delivery and its channel. -/
structure ShownDelivery where
  delivery : Delivery
  kind : String
  target : String

inductive Entry where
  | channel (shown : Shown)
  | delivery (shown : ShownDelivery)
  | outcome (result : Result)

/-- `AND tenant_id = ...`, which a statement has where a tenant is given. -/
def Row.reached (id : String) (tenantId : Option String) (row : Row) : Bool :=
  row.id = id && tenantId.all fun tenant => row.tenantId = some tenant

section Store

variable (tables : Tables)

def getChannel (id : String) (tenantId : Option String) : Option Row :=
  tables.channels.rows.find? (Row.reached id tenantId)

/-- `tenant_id IS NOT DISTINCT FROM`, in the order of creation. -/
def channelsOf (tenantId : Option String) : List Row :=
  tables.channels.rows.filter fun row => row.tenantId = tenantId

/-- Channels go, and their deliveries with them: `ON DELETE CASCADE`. -/
def Tables.drop (gone : Row → Bool) : Tables :=
  { tables with
    channels := tables.channels.delete gone
    deliveries := tables.deliveries.delete fun delivery =>
      tables.channels.rows.any fun row => row.id = delivery.channelId && gone row }

/-- A delivery with its channel, where that is the tenant's. -/
def joined (tenantId : Option String) (delivery : Delivery) : Option ShownDelivery :=
  (tables.channels.rows.find? fun row =>
    row.id = delivery.channelId && row.tenantId = tenantId).map fun row =>
      { delivery := delivery, kind := row.kind, target := mask row.target }

/-- The last deliveries of a tenant first. -/
def deliveriesOf (tenantId : Option String) (limit : Nat) : List ShownDelivery :=
  (tables.deliveries.rows.reverse.filterMap (joined tables tenantId)).take limit

end Store

/-- A request for a channel. -/
structure ChannelRequest where
  kind : String
  target : String
  events : List String := []
  tenantId : Option String
  projectId : Option String

/-- What the service is given: the identifiers and the secrets drawn, the foreign keys, the
texts that the server takes, and how a number is read. -/
structure Service where
  uuid : Nat → String
  token : Nat → String
  knows : Option String → Option String → Bool
  takes : ChannelRequest → Bool
  readInt : String → Option Int

/-- Where a request goes on that its first statement does not end: `add_channel` reads the row
it wrote, `test_channel` sends. -/
inductive Pending where
  | reading (id : String) (tenantId : Option String)
  | testing (row : Row)

inductive Served where
  | done (response : Response Entry)
  | goesOn (pending : Pending)

/-- What the model of a request and `create_channel` check of it. -/
def ChannelRequest.accepted (request : ChannelRequest) (env : Surroundings) (cache : Cache) :
    Bool :=
  (request.kind = "webhook" || request.kind = "email") &&
    3 ≤ request.target.length && request.target.length ≤ 2048 &&
    request.events.all (subscribable.contains ·) &&
    if request.kind = "webhook" then accepts env cache request.target
    else request.target.toList.contains '@'

/-- The row that `create_channel` and `add_channel` make of a request. -/
def ChannelRequest.row (request : ChannelRequest) (service : Service) (drawn : Nat) : Row where
  id := service.uuid drawn
  tenantId := request.tenantId
  kind := request.kind
  target := request.target
  events := request.events
  active := true
  projectId := request.projectId
  secret := if request.kind = "webhook" then some (service.token drawn) else none

section Endpoints

variable (service : Service) (tables : Tables)

/-- `POST /v1/channels`, up to the statement that writes the row. -/
def createChannel (env : Surroundings) (cache : Cache) (request : ChannelRequest) :
    Served × Tables :=
  if request.accepted env cache = false then (.done ⟨422, []⟩, tables)
  else
    let after := { tables with drawn := tables.drawn + 1 }
    if service.takes request = false then (.done ⟨500, []⟩, after)
    else if service.knows request.tenantId request.projectId = false then
      (.done ⟨400, []⟩, after)
    else
      let row := request.row service tables.drawn
      match tables.channels.insert row with
      | none => (.done ⟨500, []⟩, after)
      | some channels =>
          (.goesOn (.reading row.id row.tenantId), { after with channels := channels })

/-- `GET /v1/channels`. -/
def listChannels (tenantId : Option String) : Response Entry where
  status := 200
  shown := (channelsOf tables tenantId).map fun row => .channel (row.toDict false)

/-- `DELETE /v1/channels/{channel_id}`. -/
def deleteChannel (id : String) (tenantId : Option String) : Response Entry × Tables :=
  match getChannel tables id tenantId with
  | none => (⟨404, []⟩, tables)
  | some _ => (⟨204, []⟩, tables.drop (Row.reached id tenantId))

/-- `POST /v1/channels/{channel_id}/test`, up to the send. -/
def testChannel (id : String) (tenantId : Option String) : Served :=
  match getChannel tables id tenantId with
  | none => .done ⟨404, []⟩
  | some row => .goesOn (.testing row)

/-- `GET /v1/deliveries`. -/
def listDeliveries (tenantId : Option String) (limit : Option Int) : Response Entry :=
  match limit with
  | none => ⟨422, []⟩
  | some (.negSucc _) => ⟨500, []⟩
  | some (.ofNat n) => ⟨200, (deliveriesOf tables tenantId n).map .delivery⟩

/-- The query parameter `limit`, and what it is without one. -/
def limitIn (query : List (String × String)) : Option Int :=
  match query.lookup "limit" with
  | none => some 50
  | some text => service.readInt text

/-- The endpoints of the service. The tenant is what the query says. -/
def serve (env : Surroundings) (cache : Cache) (request : Request ChannelRequest) :
    Served × Tables :=
  let tenantId := request.query.lookup "tenant_id"
  match request.method, request.path, request.body with
  | .post, ["v1", "channels"], .json body => createChannel service tables env cache body
  | .get, ["v1", "channels"], _ => (.done (listChannels tables tenantId), tables)
  | .delete, ["v1", "channels", id], _ =>
      let (response, after) := deleteChannel tables id tenantId
      (.done response, after)
  | .post, ["v1", "channels", id, "test"], _ => (testChannel tables id tenantId, tables)
  | .get, ["v1", "deliveries"], _ =>
      (.done (listDeliveries tables tenantId (limitIn service request.query)), tables)
  | _, _, _ => (.done ⟨404, []⟩, tables)

/-- The rest of a request. A row that is gone by now cannot be shown. -/
def resume (outside : Circumstances) (cache : Cache) : Pending → Response Entry
  | .reading id tenantId =>
      match getChannel tables id tenantId with
      | none => ⟨500, []⟩
      | some row => ⟨201, [.channel (row.toDict true)]⟩
  | .testing row =>
      match (send outside { cache := cache, trace := [] } row.toChannel).1 with
      | .error _ => ⟨500, []⟩
      | .ok result => ⟨200, [.outcome result]⟩

variable {service tables}

/-- What becomes of the request for a channel. -/
theorem createChannel_cases {env : Surroundings} {cache : Cache} {request : ChannelRequest}
    {served : Served} {after : Tables}
    (h : createChannel service tables env cache request = (served, after)) :
    (∃ status drawn, served = .done ⟨status, []⟩ ∧ tables.drawn ≤ drawn ∧
      after = { tables with drawn := drawn }) ∨
    (request.accepted env cache = true ∧ ∃ channels,
      tables.channels.insert (request.row service tables.drawn) = some channels ∧
      served = .goesOn (.reading (service.uuid tables.drawn) request.tenantId) ∧
      after = { tables with channels := channels, drawn := tables.drawn + 1 }) := by
  simp only [createChannel] at h
  split at h
  · cases h
    exact .inl ⟨422, _, rfl, le_rfl, rfl⟩
  · rename_i haccepted
    split at h
    · cases h
      exact .inl ⟨500, _, rfl, Nat.le_succ _, rfl⟩
    · split at h
      · cases h
        exact .inl ⟨400, _, rfl, Nat.le_succ _, rfl⟩
      · split at h
        · cases h
          exact .inl ⟨500, _, rfl, Nat.le_succ _, rfl⟩
        · rename_i channels hinsert
          cases h
          exact .inr ⟨eq_true_of_ne_false haccepted, channels, hinsert, rfl, rfl⟩

end Endpoints

end SeoPlatform.Notifications.ChannelApi
