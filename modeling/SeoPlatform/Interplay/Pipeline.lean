import SeoPlatform.Interplay.Bus
import SeoPlatform.Services.Competitor
import SeoPlatform.Services.Content
import SeoPlatform.Services.Keyword
import SeoPlatform.Services.Links
import SeoPlatform.Services.Optimizer

namespace SeoPlatform.Interplay.Pipeline

open SeoPlatform.Foundation.JsonValue
open SeoPlatform.Foundation.TransitionSystem
open SeoPlatform.InternalLinks.Building (Reader)
open SeoPlatform.Interplay.Bus (Message relayed)
open SeoPlatform.Orchestrator
open SeoPlatform.Orchestrator.Changes
open SeoPlatform.Orchestrator.Engine
open SeoPlatform.Orchestrator.FlowView
open SeoPlatform.Orchestrator.Interleavings
open SeoPlatform.Orchestrator.Owners
open SeoPlatform.Orchestrator.Planner
open SeoPlatform.Services
open SeoPlatform.Services.JobOwners
open SeoPlatform.Services.Runs
open SeoPlatform.Shared.Contracts
open SeoPlatform.Shared.Events
open SeoPlatform.Shared.PostgresStore
open SeoPlatform.Shared.Text (Unicode)

/-- What the orchestrators and the services run on: the modules beside the engine, the
server, and what the services take from outside. -/
structure World where
  env : Engine.Env
  server : Server
  sqrt : Rat → Rat
  pageId : String → String
  unicode : Unicode
  reader : Reader
  isDigit : Char → Bool
  setOrder : List String → List String
  repr : Rat → String

/-- The services whose workers do the steps of a workflow. -/
inductive Role where
  | crawls
  | studies
  | checks
  | linkAnalyses
  | contentAnalyses
  | plans
  | comparisons
  deriving DecidableEq

def Role.service (world : World) : Role → Service
  | .crawls => Crawl.service world.sqrt world.env.rules world.pageId
  | .studies => Keyword.service world.env.rules world.unicode
  | .checks => Serp.service world.env.rules
  | .linkAnalyses => Links.service world.setOrder world.repr world.reader
  | .contentAnalyses => Content.service world.reader world.unicode
  | .plans => Optimizer.service world.reader world.isDigit world.unicode
  | .comparisons => Competitor.service world.reader world.unicode

/-- The orchestrators and the workers of every service on one database, and the bus. -/
structure Platform (world : World) where
  audits : Workers.System
  jobs : (role : Role) → JobWorker.System (role.service world)
  bus : List Message

inductive Outlet where
  | audits
  | jobs (role : Role)

inductive Label (world : World) where
  | audit (label : Workers.Label)
  | work (role : Role) (label : JobWorker.Label (role.service world))
  | handAudit (n i : Nat)
  | handJob (role : Role) (n i : Nat)
  | relay (outlet : Outlet) (i clock : Nat)
  | publish (e : Envelope)

variable {world : World}

def Platform.initial : Platform world where
  audits := .initial
  jobs _ := .initial
  bus := []

def Platform.outbox (s : Platform world) : Outlet → List OutboxRow
  | .audits => s.audits.db.outbox.rows
  | .jobs role => (s.jobs role).db.outbox.rows

def Platform.setJobs (s : Platform world) (role : Role)
    (jobs : JobWorker.System (role.service world)) : Platform world :=
  { s with jobs := Function.update s.jobs role jobs }

def auditStep (world : World) (s : Platform world) (label : Workers.Label) :
    Option (Platform world) :=
  (Workers.step world.env s.audits label).map fun audits => { s with audits := audits }

def jobStep (world : World) (s : Platform world) (role : Role)
    (label : JobWorker.Label (role.service world)) : Option (Platform world) :=
  (JobWorker.step world.server world.env.wording (s.jobs role) label).map (s.setJobs role)

/-- The orchestrators or a service take a step, a message is handed to a worker, or one is
put on the bus: for a row of an outbox, or by the gateway, a scheduler or anybody else. -/
def step (world : World) (s : Platform world) : Label world → Option (Platform world)
  | .audit (.deliver _ _) => none
  | .audit label => auditStep world s label
  | .work _ (.deliver _ _) => none
  | .work role label => jobStep world s role label
  | .handAudit n i => s.bus[i]?.bind fun m => auditStep world s (.deliver n m.envelope)
  | .handJob role n i => s.bus[i]?.bind fun m => jobStep world s role (.deliver n m.envelope)
  | .relay outlet i clock =>
      (s.outbox outlet)[i]?.map fun o => { s with bus := s.bus ++ [⟨relayed o clock, some o⟩] }
  | .publish e => some { s with bus := s.bus ++ [⟨e, none⟩] }

section Parts

variable {s s' : Platform world} {label : Label world}

/-- What a step of the platform is for the orchestrators. -/
inductive ForAudits (s : Platform world) : Label world → Workers.Label → Prop
  | own {label : Workers.Label} (h : ∀ n e, label ≠ .deliver n e) :
      ForAudits s (.audit label) label
  | hand {n i : Nat} {m : Message} (h : m ∈ s.bus) :
      ForAudits s (.handAudit n i) (.deliver n m.envelope)

/-- What a step of the platform is for the workers of a service. -/
inductive ForJobs (s : Platform world) (role : Role) :
    Label world → JobWorker.Label (role.service world) → Prop
  | own {label : JobWorker.Label (role.service world)} (h : ∀ n e, label ≠ .deliver n e) :
      ForJobs s role (.work role label) label
  | hand {n i : Nat} {m : Message} (h : m ∈ s.bus) :
      ForJobs s role (.handJob role n i) (.deliver n m.envelope)

/-- Everything a step of the platform can be. -/
inductive Steps (s : Platform world) (label : Label world) : Platform world → Prop
  | audits {own : Workers.Label} {audits : Workers.System} (h : ForAudits s label own)
      (hstep : Workers.step world.env s.audits own = some audits) :
      Steps s label { s with audits := audits }
  | jobs {role : Role} {own : JobWorker.Label (role.service world)}
      {jobs : JobWorker.System (role.service world)} (h : ForJobs s role label own)
      (hstep : JobWorker.step world.server world.env.wording (s.jobs role) own = some jobs) :
      Steps s label (s.setJobs role jobs)
  | sent (m : Message) (h : ∀ o, m.origin = some o →
      (∃ outlet, o ∈ s.outbox outlet) ∧ ∃ clock, m.envelope = relayed o clock) :
      Steps s label { s with bus := s.bus ++ [m] }

theorem steps_auditStep {own : Workers.Label} (h : ForAudits s label own)
    (hstep : auditStep world s own = some s') : Steps s label s' := by
  obtain ⟨audits, hown, rfl⟩ := Option.map_eq_some_iff.mp hstep
  exact .audits h hown

theorem steps_jobStep {role : Role} {own : JobWorker.Label (role.service world)}
    (h : ForJobs s role label own) (hstep : jobStep world s role own = some s') :
    Steps s label s' := by
  obtain ⟨jobs, hown, rfl⟩ := Option.map_eq_some_iff.mp hstep
  exact .jobs h hown

theorem steps_of_step (hstep : step world s label = some s') : Steps s label s' := by
  cases label with
  | audit own =>
      cases own with
      | deliver => contradiction
      | submit | run | crash | tick =>
          exact steps_auditStep (.own fun _ _ heq => nomatch heq) hstep
  | work role own =>
      cases own with
      | deliver => contradiction
      | run | crash | tick => exact steps_jobStep (.own fun _ _ heq => nomatch heq) hstep
  | handAudit n i =>
      obtain ⟨m, hm, hown⟩ := Option.bind_eq_some_iff.mp hstep
      exact steps_auditStep (.hand (List.mem_of_getElem? hm)) hown
  | handJob role n i =>
      obtain ⟨m, hm, hown⟩ := Option.bind_eq_some_iff.mp hstep
      exact steps_jobStep (.hand (List.mem_of_getElem? hm)) hown
  | relay outlet i clock =>
      obtain ⟨o, ho, rfl⟩ := Option.map_eq_some_iff.mp hstep
      refine .sent _ fun o' ho' => ?_
      obtain rfl := Option.some.inj ho'
      exact ⟨⟨outlet, List.mem_of_getElem? ho⟩, clock, rfl⟩
  | publish e =>
      obtain rfl := Option.some.inj hstep
      exact .sent _ fun _ ho => nomatch ho

theorem jobs_setJobs_self {role : Role} {jobs : JobWorker.System (role.service world)} :
    (s.setJobs role jobs).jobs role = jobs := Function.update_self ..

theorem jobs_setJobs_of_ne {role other : Role} {jobs : JobWorker.System (role.service world)}
    (h : other ≠ role) : (s.setJobs role jobs).jobs other = s.jobs other :=
  Function.update_of_ne h _ _

variable {past : List (Platform world × Label world)}

/-- A run of the platform is a run of its orchestrators. -/
theorem audits_of_run (run : Run (step world) Platform.initial past s) :
    ∃ own, Run (Workers.step world.env) Workers.System.initial own s.audits ∧
      ∀ moment ∈ own, ∃ whole ∈ past, ForAudits whole.1 whole.2 moment.2 := by
  refine run.project Platform.audits (fun s label own => ForAudits s label own) ?_
  intro s label s' hstep
  cases steps_of_step hstep with
  | audits h hown => exact .inr ⟨_, h, hown⟩
  | jobs | sent => exact .inl rfl

/-- And of the workers of each service. -/
theorem jobs_of_run (run : Run (step world) Platform.initial past s) (role : Role) :
    ∃ own, Run (JobWorker.step world.server world.env.wording) JobWorker.System.initial own
        (s.jobs role) ∧
      ∀ moment ∈ own, ∃ whole ∈ past, ForJobs whole.1 role whole.2 moment.2 := by
  refine run.project (fun s => s.jobs role) (fun s label own => ForJobs s role label own) ?_
  intro s label s' hstep
  cases steps_of_step hstep with
  | @jobs other own jobs h hown =>
      by_cases hrole : other = role
      · subst hrole
        refine .inr ⟨own, h, ?_⟩
        rw [jobs_setJobs_self]
        exact hown
      · exact .inl (jobs_setJobs_of_ne (Ne.symm hrole))
  | audits | sent => exact .inl rfl

end Parts

section Roles

theorem requestField_requested (role : Role) :
    requestField (role.service world).requested = some (role.service world).idField := by
  cases role <;> rfl

variable (world) in
/-- A step of every kind is asked of a service. -/
theorem exists_role (kind : StepKind) : ∃ role : Role,
    (role.service world).requested = (requestOf kind).1 := by
  cases kind with
  | crawl | competitorCrawl => exact ⟨.crawls, rfl⟩
  | keywordResearch => exact ⟨.studies, rfl⟩
  | serpCheck => exact ⟨.checks, rfl⟩
  | linkAnalysis => exact ⟨.linkAnalyses, rfl⟩
  | contentAnalysis => exact ⟨.contentAnalyses, rfl⟩
  | optimizerPlan => exact ⟨.plans, rfl⟩
  | competitorCheck => exact ⟨.comparisons, rfl⟩

variable (world) in
theorem completions_completed (role : Role) :
    ∃ kind, completions (role.service world).completed =
      some (kind, (role.service world).idField) := by
  cases role <;> exact ⟨_, rfl⟩

/-- What follows the completion of a job asks for nothing and completes nothing. -/
theorem silent_of_followUp {role : Role} {jobId : String} {report : (role.service world).Report}
    {event : EventType × Dict} (h : event ∈ (role.service world).followUps jobId report) :
    requestField event.1 = none ∧ completions event.1 = none := by
  cases role with
  | crawls =>
      obtain ⟨page, -, rfl⟩ := List.mem_map.mp h
      exact ⟨rfl, rfl⟩
  | studies | checks | linkAnalyses | contentAnalyses | plans | comparisons => contradiction

theorem asks_nothing_of_sends {role : Role} {type : EventType}
    (h : Sends (role.service world) type) : requestField type = none := by
  rcases h with rfl | ⟨jobId, report, event, hevent, rfl⟩
  · cases role <;> rfl
  · exact (silent_of_followUp hevent).1

end Roles

end SeoPlatform.Interplay.Pipeline
