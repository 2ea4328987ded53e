import SeoPlatform.Orchestrator.Owners
import SeoPlatform.Shared.Relay

namespace SeoPlatform.Interplay.Bus

open SeoPlatform.Foundation.JsonValue
open SeoPlatform.Foundation.TransitionSystem
open SeoPlatform.Orchestrator
open SeoPlatform.Services
open SeoPlatform.Services.Runs
open SeoPlatform.Shared.Contracts
open SeoPlatform.Shared.Events
open SeoPlatform.Shared.PostgresStore
open SeoPlatform.Shared.Relay

/-- What the parts of the platform run on: the modules beside the engine, the clocks and
the uuids of the schedulers, the server, and what the crawl service takes from outside. -/
structure World where
  env : Engine.Env
  host : Schedules.Host
  uuid : Nat → String
  server : Server
  sqrt : Rat → Rat
  pageId : String → String

/-- The workers of the platform that do jobs. -/
inductive Role where
  | crawls
  | checks
  deriving DecidableEq

def Role.service (world : World) : Role → Service
  | .crawls => Crawl.service world.sqrt world.env.rules world.pageId
  | .checks => Serp.service world.env.rules

/-- A message on the bus, with the row it was relayed for. One without a row was published
by somebody else. -/
structure Message where
  envelope : Envelope
  origin : Option OutboxRow

/-- The orchestrators, the schedulers and the workers on one database, and the bus. -/
structure Platform (world : World) where
  audits : Workers.System
  schedules : Schedulers.System
  jobs : (role : Role) → JobWorker.System (role.service world)
  bus : List Message

/-- The part of the platform that stages an event. -/
inductive Outlet where
  | audits
  | schedules
  | jobs (role : Role)

inductive Label (world : World) where
  | audit (label : Workers.Label)
  | schedule (label : Schedulers.Label)
  | work (role : Role) (label : JobWorker.Label (role.service world))
  | handAudit (n i : Nat)
  | handJob (role : Role) (n i : Nat)
  | relay (outlet : Outlet) (i clock : Nat)
  | publish (e : Envelope)

variable {world : World}

def Platform.initial : Platform world where
  audits := .initial
  schedules := .initial
  jobs _ := .initial
  bus := []

def Platform.outbox (s : Platform world) : Outlet → List OutboxRow
  | .audits => s.audits.db.outbox.rows
  | .schedules => s.schedules.outbox.rows
  | .jobs role => (s.jobs role).db.outbox.rows

def Platform.setJobs (s : Platform world) (role : Role)
    (jobs : JobWorker.System (role.service world)) : Platform world :=
  { s with jobs := Function.update s.jobs role jobs }

/-- The envelope of a row, whichever serial and moments the table has for it. -/
def relayed (o : OutboxRow) (clock : Nat) : Envelope :=
  envelopeOf { toOutboxRow := o, id := 0, occurredAt := 0, publishedAt := none } clock

theorem envelopeOf_eq_relayed (row : StoredRow) (clock : Nat) :
    envelopeOf row clock = relayed row.toOutboxRow clock := rfl

def auditStep (world : World) (s : Platform world) (label : Workers.Label) :
    Option (Platform world) :=
  (Workers.step world.env s.audits label).map fun audits => { s with audits := audits }

def jobStep (world : World) (s : Platform world) (role : Role)
    (label : JobWorker.Label (role.service world)) : Option (Platform world) :=
  (JobWorker.step world.server world.env.wording (s.jobs role) label).map (s.setJobs role)

/-- A part of the platform takes a step, a message is handed to a worker, or one is put on
the bus. A relay may send out any row, at any time and any number of times. -/
def step (world : World) (s : Platform world) : Label world → Option (Platform world)
  | .audit (.deliver _ _) => none
  | .audit label => auditStep world s label
  | .schedule label =>
      (Schedulers.step world.host world.env.wording world.uuid s.schedules label).map
        fun schedules => { s with schedules := schedules }
  | .work _ (.deliver _ _) => none
  | .work role label => jobStep world s role label
  | .handAudit n i => s.bus[i]?.bind fun m => auditStep world s (.deliver n m.envelope)
  | .handJob role n i => s.bus[i]?.bind fun m => jobStep world s role (.deliver n m.envelope)
  | .relay outlet i clock =>
      (s.outbox outlet)[i]?.map fun o => { s with bus := s.bus ++ [⟨relayed o clock, some o⟩] }
  | .publish e => some { s with bus := s.bus ++ [⟨e, none⟩] }

section Parts

variable {s s' : Platform world} {label : Label world}

/-- What a step of the platform is for the orchestrators. -/
inductive ForAudits (s : Platform world) : Label world → Workers.Label → Prop
  | own {label : Workers.Label} (h : ∀ n e, label ≠ .deliver n e) :
      ForAudits s (.audit label) label
  | hand {n i : Nat} {m : Message} (h : s.bus[i]? = some m) :
      ForAudits s (.handAudit n i) (.deliver n m.envelope)

/-- What a step of the platform is for the workers of a role. -/
inductive ForJobs (s : Platform world) (role : Role) :
    Label world → JobWorker.Label (role.service world) → Prop
  | own {label : JobWorker.Label (role.service world)} (h : ∀ n e, label ≠ .deliver n e) :
      ForJobs s role (.work role label) label
  | hand {n i : Nat} {m : Message} (h : s.bus[i]? = some m) :
      ForJobs s role (.handJob role n i) (.deliver n m.envelope)

/-- Everything a step of the platform can be. -/
inductive Steps (s : Platform world) (label : Label world) : Platform world → Prop
  | audits {own : Workers.Label} {audits : Workers.System} (h : ForAudits s label own)
      (hstep : Workers.step world.env s.audits own = some audits) :
      Steps s label { s with audits := audits }
  | schedules {own : Schedulers.Label} {schedules : Schedulers.System}
      (h : label = .schedule own)
      (hstep : Schedulers.step world.host world.env.wording world.uuid s.schedules own =
        some schedules) : Steps s label { s with schedules := schedules }
  | jobs {role : Role} {own : JobWorker.Label (role.service world)}
      {jobs : JobWorker.System (role.service world)} (h : ForJobs s role label own)
      (hstep : JobWorker.step world.server world.env.wording (s.jobs role) own = some jobs) :
      Steps s label (s.setJobs role jobs)
  | relayed {outlet : Outlet} {o : OutboxRow} {clock : Nat} (h : o ∈ s.outbox outlet) :
      Steps s label { s with bus := s.bus ++ [⟨relayed o clock, some o⟩] }
  | published (e : Envelope) : Steps s label { s with bus := s.bus ++ [⟨e, none⟩] }

theorem steps_auditStep {own : Workers.Label} (h : ForAudits s label own)
    (hstep : auditStep world s own = some s') : Steps s label s' := by
  obtain ⟨audits, hown, rfl⟩ := Option.map_eq_some_iff.mp hstep
  exact .audits h hown

theorem steps_jobStep {role : Role} {own : JobWorker.Label (role.service world)}
    (h : ForJobs s role label own) (hstep : jobStep world s role own = some s') :
    Steps s label s' := by
  obtain ⟨jobs, hown, rfl⟩ := Option.map_eq_some_iff.mp hstep
  exact .jobs h hown

theorem steps_of_step (hstep : step world s label = some s') : Steps s label s' := by
  cases label with
  | audit own =>
      cases own with
      | deliver => contradiction
      | submit | run | crash | tick =>
          exact steps_auditStep (.own fun _ _ heq => nomatch heq) hstep
  | schedule own =>
      obtain ⟨schedules, hown, rfl⟩ := Option.map_eq_some_iff.mp hstep
      exact .schedules rfl hown
  | work role own =>
      cases own with
      | deliver => contradiction
      | run | crash | tick => exact steps_jobStep (.own fun _ _ heq => nomatch heq) hstep
  | handAudit n i =>
      obtain ⟨m, hm, hown⟩ := Option.bind_eq_some_iff.mp hstep
      exact steps_auditStep (.hand hm) hown
  | handJob role n i =>
      obtain ⟨m, hm, hown⟩ := Option.bind_eq_some_iff.mp hstep
      exact steps_jobStep (.hand hm) hown
  | relay outlet i clock =>
      obtain ⟨o, ho, rfl⟩ := Option.map_eq_some_iff.mp hstep
      exact .relayed (List.mem_of_getElem? ho)
  | publish e =>
      obtain rfl := Option.some.inj hstep
      exact .published e

variable {past : List (Platform world × Label world)}

/-- A run of the platform is a run of its orchestrators. -/
theorem audits_of_run (run : Run (step world) Platform.initial past s) :
    ∃ own, Run (Workers.step world.env) Workers.System.initial own s.audits ∧
      ∀ moment ∈ own, ∃ whole ∈ past, ForAudits whole.1 whole.2 moment.2 := by
  refine run.project Platform.audits (fun s label own => ForAudits s label own) ?_
  intro s label s' hstep
  cases steps_of_step hstep with
  | audits h hown => exact .inr ⟨_, h, hown⟩
  | schedules | jobs | relayed | published => exact .inl rfl

/-- And of its schedulers. -/
theorem schedules_of_run (run : Run (step world) Platform.initial past s) :
    ∃ own, Run (Schedulers.step world.host world.env.wording world.uuid)
      Schedulers.System.initial own s.schedules := by
  obtain ⟨own, run, -⟩ := run.project Platform.schedules (fun _ _ _ => True) (by
    intro s label s' hstep
    cases steps_of_step hstep with
    | schedules _ hown => exact .inr ⟨_, trivial, hown⟩
    | audits | jobs | relayed | published => exact .inl rfl)
  exact ⟨own, run⟩

/-- And of the workers of each role. -/
theorem jobs_of_run (run : Run (step world) Platform.initial past s) (role : Role) :
    ∃ own, Run (JobWorker.step world.server world.env.wording) JobWorker.System.initial own
        (s.jobs role) ∧
      ∀ moment ∈ own, ∃ whole ∈ past, ForJobs whole.1 role whole.2 moment.2 := by
  refine run.project (fun s => s.jobs role) (fun s label own => ForJobs s role label own) ?_
  intro s label s' hstep
  cases steps_of_step hstep with
  | @jobs other own jobs h hown =>
      by_cases hrole : other = role
      · subst hrole
        refine .inr ⟨own, h, ?_⟩
        simpa [Platform.setJobs] using hown
      · exact .inl (Function.update_of_ne (Ne.symm hrole) _ _)
  | audits | schedules | relayed | published => exact .inl rfl

end Parts

end SeoPlatform.Interplay.Bus
