import SeoPlatform.Notifications.ChannelApi

namespace SeoPlatform.Gateway.ChannelCalls

open SeoPlatform.Foundation.ConstrainedTable
open SeoPlatform.Foundation.TransitionSystem
open SeoPlatform.Gateway.ServiceClient
open SeoPlatform.Notifications
open SeoPlatform.Notifications.ChannelApi
open SeoPlatform.Notifications.Channels
open SeoPlatform.Notifications.Store
open SeoPlatform.Notifications.Worker (Phase)
open SeoPlatform.Shared.Events
open SeoPlatform.Shared.Netguard

/-- What a caller of the public API asks about notifications. -/
inductive Call where
  | store (kind target : String) (events : List String) (projectId : Option String)
  | index
  | destroy (id : String)
  | test (id : String)
  | deliveries (limit : Int)

/-- The service, the projects of each tenant, and the HTTP client. -/
structure Deployment extends Service where
  ownsProject : Option String → String → Bool
  placement : Placement

variable (deployment : Deployment)

/-- The request that a call turns into, unless the gateway refuses it. -/
def requestOf (principal : Principal) : Call → Option (Request ChannelRequest)
  | .store kind target events projectId =>
      if events.length ≤ 10 && events.all (·.length ≤ 60) then
        (ownedProjectId deployment.ownsProject principal projectId).map fun projectId =>
          httpPost ["v1", "channels"] []
            (.json { kind := kind, target := target, events := events,
                     tenantId := principal.tenantId, projectId := projectId })
      else none
  | .index => some (httpGet ["v1", "channels"] (scopedTo principal.tenantId))
  | .destroy id =>
      some (httpDelete deployment.placement ["v1", "channels", id] (scopedTo principal.tenantId))
  | .test id => some (httpPost ["v1", "channels", id, "test"] (scopedTo principal.tenantId) .none)
  | .deliveries limit =>
      some (httpGet ["v1", "deliveries"]
        (("limit", toString limit) :: scopedTo principal.tenantId))

/-- What the caller is told of a service's response. -/
def relayed : Call → Response Entry → Response Entry
  | .store _ _ _ _, response => usableOr422 response
  | .index, response => usable response
  | .destroy _, response => usableOr404 response
  | .test _, response => usableOr404 response
  | .deliveries _, response => usable response

def Served.relayed (call : Call) : Served → Served
  | .done response => .done (ChannelCalls.relayed call response)
  | .goesOn pending => .goesOn pending

/-- The same, where the response comes with the last statement of the service. -/
def relayedLater : Pending → Response Entry → Response Entry
  | .reading _ _, response => usableOr422 response
  | .testing _, response => usableOr404 response

/-- The tables, the workers on them, and the calls that are not answered yet. -/
structure System where
  tables : Tables
  workers : Nat → Option Phase
  acked : List Envelope
  requests : Nat → Option (Principal × Pending)

def System.initial : System where
  tables := { channels := .empty, deliveries := .empty, drawn := 0 }
  workers _ := none
  acked := []
  requests _ := none

inductive Label where
  | ask (k : Nat) (principal : Principal) (call : Call) (env : Surroundings) (cache : Cache)
  | proceed (k : Nat) (outside : Circumstances) (cache : Cache)
  | abort (k : Nat)
  | work (label : Worker.Label)
  | endProject (id : String)
  | endTenant (id : String)

/-- A call, up to the first statement of the service. -/
def arrive (s : System) (principal : Principal) (call : Call) (env : Surroundings)
    (cache : Cache) : Served × Tables :=
  match requestOf deployment principal call with
  | none => (.done ⟨422, []⟩, s.tables)
  | some request =>
      let (served, tables) := serve deployment.toService s.tables env cache request
      (Served.relayed call served, tables)

/-- The tables as the workers of `Worker` see them. -/
def System.bell (s : System) : Worker.System where
  channels := s.tables.channels.rows.map Row.toChannel
  deliveries := s.tables.deliveries
  workers := s.workers
  acked := s.acked

def System.rung (s : System) (bell : Worker.System) : System :=
  { s with
    tables := { s.tables with deliveries := bell.deliveries }
    workers := bell.workers
    acked := bell.acked }

def System.hasChannel (s : System) (id : String) : Bool :=
  s.tables.channels.rows.any fun row => row.id = id

/-- A new delivery refers to a channel that is not there. -/
def violates (s : System) (n : Nat) : Bool :=
  match s.workers n with
  | some (.claiming loop) =>
      loop.rest.head?.any fun channel =>
        !s.hasChannel channel.id &&
          (delivery? s.tables.deliveries channel.id loop.envelope.id).isNone
  | _ => false

/-- What a step of a worker is on these tables: a claim that violates the foreign key is
not done, whatever else would come of it. -/
def effective (s : System) : Worker.Label → Worker.Label
  | .claim n answer => .claim n (if violates s n then .refused else answer)
  | label => label

def workStep (s : System) : Worker.Label → Option System
  | .subscribe _ => none
  | label => (Worker.step s.bell (effective s label)).map s.rung

def System.setRequest (s : System) (k : Nat) (request : Option (Principal × Pending)) : System :=
  { s with requests := Function.update s.requests k request }

def step (s : System) : Label → Option System
  | .ask k principal call env cache =>
      if (s.requests k).isSome then none
      else
        match arrive deployment s principal call env cache with
        | (.done _, tables) => some { s with tables := tables }
        | (.goesOn pending, tables) =>
            some ({ s with tables := tables }.setRequest k (some (principal, pending)))
  | .proceed k _ _ => (s.requests k).map fun _ => s.setRequest k none
  | .abort k => some (s.setRequest k none)
  | .work label => workStep s label
  | .endProject id =>
      some { s with tables := s.tables.drop fun row => row.projectId = some id }
  | .endTenant id => some { s with tables := s.tables.drop fun row => row.tenantId = some id }

/-- Who is answered by a step, and what. -/
def told (s : System) : Label → Option (Principal × Response Entry)
  | .ask _ principal call env cache =>
      match (arrive deployment s principal call env cache).1 with
      | .done response => some (principal, response)
      | .goesOn _ => none
  | .proceed k outside cache =>
      (s.requests k).map fun (principal, pending) =>
        (principal, relayedLater pending (resume s.tables outside cache pending))
  | _ => none

variable {deployment : Deployment} {s s' : System}

section Calls

/-- What a DELETE is scoped to. -/
def deleteScope (placement : Placement) (principal : Principal) : Option String :=
  match placement with
  | .query => some (principal.tenantId.getD nobody)
  | .body => none

/-- What the first statement of a call comes to. -/
inductive Arrived (deployment : Deployment) (s : System) (principal : Principal)
    (env : Surroundings) (cache : Cache) : Call → Served → Tables → Prop
  | refused {kind target : String} {events : List String} {projectId : Option String} :
      Arrived deployment s principal env cache (.store kind target events projectId)
        (.done ⟨422, []⟩) s.tables
  | stored {kind target : String} {events : List String} {projectId : Option String}
      (projectId' : Option String) {served : Served} {tables : Tables}
      (h : createChannel deployment.toService s.tables env cache
        { kind := kind, target := target, events := events, tenantId := principal.tenantId,
          projectId := projectId' } = (served, tables)) :
      Arrived deployment s principal env cache (.store kind target events projectId) served tables
  | listed :
      Arrived deployment s principal env cache .index
        (.done (listChannels s.tables (some (principal.tenantId.getD nobody)))) s.tables
  | destroyed {id : String} :
      Arrived deployment s principal env cache (.destroy id)
        (.done (deleteChannel s.tables id (deleteScope deployment.placement principal)).1)
        (deleteChannel s.tables id (deleteScope deployment.placement principal)).2
  | tested {id : String} :
      Arrived deployment s principal env cache (.test id)
        (testChannel s.tables id (some (principal.tenantId.getD nobody))) s.tables
  | delivered {limit : Int} {limit' : Option Int} :
      Arrived deployment s principal env cache (.deliveries limit)
        (.done (listDeliveries s.tables (some (principal.tenantId.getD nobody)) limit')) s.tables

theorem serve_delete (placement : Placement) (principal : Principal) (env : Surroundings)
    (cache : Cache) (id : String) :
    serve deployment.toService s.tables env cache
        (httpDelete placement ["v1", "channels", id] (scopedTo principal.tenantId)) =
      (.done (deleteChannel s.tables id (deleteScope placement principal)).1,
        (deleteChannel s.tables id (deleteScope placement principal)).2) := by
  cases placement <;> simp [serve, httpDelete, scopedTo, deleteScope]

theorem arrived_of_arrive {principal : Principal} {call : Call} {env : Surroundings}
    {cache : Cache} {served : Served} {tables : Tables}
    (h : arrive deployment s principal call env cache = (served, tables)) :
    ∃ first, Arrived deployment s principal env cache call first tables ∧
      served = Served.relayed call first := by
  unfold arrive at h
  cases call with
  | store kind target events projectId =>
      simp only [requestOf] at h
      split at h
      · rename_i hrequest
        cases h
        exact ⟨_, .refused, rfl⟩
      · rename_i request hrequest
        split at hrequest
        · obtain ⟨projectId', -, rfl⟩ := Option.map_eq_some_iff.mp hrequest
          cases h
          exact ⟨_, .stored projectId' rfl, rfl⟩
        · contradiction
  | index =>
      cases h
      exact ⟨_, .listed, rfl⟩
  | destroy id =>
      simp only [requestOf, serve_delete] at h
      cases h
      exact ⟨_, .destroyed, rfl⟩
  | test id =>
      cases h
      exact ⟨_, .tested, rfl⟩
  | deliveries limit =>
      cases h
      exact ⟨_, .delivered, rfl⟩

end Calls

section Steps

/-- What makes channels go. -/
inductive Drops (deployment : Deployment) : Label → (Row → Bool) → Prop
  | destroyed {k : Nat} {principal : Principal} {id : String} {env : Surroundings}
      {cache : Cache} :
      Drops deployment (.ask k principal (.destroy id) env cache)
        (Row.reached id (deleteScope deployment.placement principal))
  | project {id : String} : Drops deployment (.endProject id) fun row => row.projectId = some id
  | tenant {id : String} : Drops deployment (.endTenant id) fun row => row.tenantId = some id

/-- Everything a step can do. -/
inductive Changes (deployment : Deployment) (s : System) : Label → System → Prop
  | still {k : Nat} {principal : Principal} {call : Call} {env : Surroundings} {cache : Cache}
      {drawn : Nat} (h : s.tables.drawn ≤ drawn) :
      Changes deployment s (.ask k principal call env cache)
        { s with tables := { s.tables with drawn := drawn } }
  | stored {k : Nat} {principal : Principal} {env : Surroundings} {cache : Cache}
      {request : ChannelRequest} {projectId : Option String} {channels : ChannelTable}
      (hfree : s.requests k = none) (htenant : request.tenantId = principal.tenantId)
      (haccepted : request.accepted env cache = true)
      (hinsert : s.tables.channels.insert (request.row deployment.toService s.tables.drawn) =
        some channels) :
      Changes deployment s
        (.ask k principal (.store request.kind request.target request.events projectId) env cache)
        ({ s with tables :=
            { s.tables with channels := channels, drawn := s.tables.drawn + 1 } }.setRequest k
          (some (principal, .reading (deployment.uuid s.tables.drawn) principal.tenantId)))
  | tested {k : Nat} {principal : Principal} {env : Surroundings} {cache : Cache} {id : String}
      {row : Row} (hfree : s.requests k = none)
      (hrow : getChannel s.tables id (some (principal.tenantId.getD nobody)) = some row) :
      Changes deployment s (.ask k principal (.test id) env cache)
        (s.setRequest k (some (principal, .testing row)))
  | dropped {label : Label} {gone : Row → Bool} (hdrops : Drops deployment label gone) :
      Changes deployment s label { s with tables := s.tables.drop gone }
  | proceeded {k : Nat} {outside : Circumstances} {cache : Cache} :
      Changes deployment s (.proceed k outside cache) (s.setRequest k none)
  | aborted {k : Nat} : Changes deployment s (.abort k) (s.setRequest k none)
  | worked {label : Worker.Label} {bell : Worker.System}
      (hlabel : ∀ channel, label ≠ .subscribe channel)
      (h : Worker.step s.bell (effective s label) = some bell) :
      Changes deployment s (.work label) (s.rung bell)

theorem changes_of_step {label : Label} (h : step deployment s label = some s') :
    Changes deployment s label s' := by
  cases label with
  | ask k principal call env cache =>
      simp only [step] at h
      split at h
      · contradiction
      · rename_i hfree
        rw [Option.not_isSome_iff_eq_none] at hfree
        generalize harrive : arrive deployment s principal call env cache = answer at h
        obtain ⟨served, tables⟩ := answer
        obtain ⟨first, harrived, rfl⟩ := arrived_of_arrive harrive
        cases harrived with
        | refused | listed | delivered =>
            cases h
            exact .still le_rfl
        | stored projectId' hcreate =>
            rcases createChannel_cases hcreate with ⟨status, drawn, rfl, hdrawn, rfl⟩ |
              ⟨haccepted, channels, hinsert, rfl, rfl⟩
            · cases h
              exact .still hdrawn
            · cases h
              exact .stored hfree rfl haccepted hinsert
        | @destroyed id =>
            cases hrow : getChannel s.tables id (deleteScope deployment.placement principal) with
            | none =>
                simp only [deleteChannel, hrow] at h
                cases h
                exact .still le_rfl
            | some row =>
                simp only [deleteChannel, hrow] at h
                cases h
                exact .dropped .destroyed
        | @tested id =>
            cases hrow : getChannel s.tables id (some (principal.tenantId.getD nobody)) with
            | none =>
                simp only [testChannel, hrow] at h
                cases h
                exact .still le_rfl
            | some row =>
                simp only [testChannel, hrow] at h
                cases h
                exact .tested hfree hrow
  | proceed k outside cache =>
      obtain ⟨_, -, rfl⟩ := Option.map_eq_some_iff.mp h
      exact .proceeded
  | abort k =>
      cases h
      exact .aborted
  | work label =>
      cases label with
      | subscribe => contradiction
      | deliver | list | claim | send | finish | release | acknowledge =>
          obtain ⟨bell, hbell, rfl⟩ := Option.map_eq_some_iff.mp h
          exact .worked (by simp) hbell
      | crash n =>
          cases h
          exact .worked (by simp) (show _ = some _ from rfl)
  | endProject id =>
      cases h
      exact .dropped .project
  | endTenant id =>
      cases h
      exact .dropped .tenant

end Steps

end SeoPlatform.Gateway.ChannelCalls
