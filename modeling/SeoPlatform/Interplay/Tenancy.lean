import SeoPlatform.Interplay.Bus

namespace SeoPlatform.Interplay.Tenancy

open SeoPlatform.Foundation.JsonValue
open SeoPlatform.Foundation.TransitionSystem
open SeoPlatform.Orchestrator
open SeoPlatform.Orchestrator.Changes
open SeoPlatform.Orchestrator.Firings
open SeoPlatform.Orchestrator.FlowView
open SeoPlatform.Orchestrator.HeldSchedules
open SeoPlatform.Orchestrator.Interleavings
open SeoPlatform.Orchestrator.OneAudit
open SeoPlatform.Orchestrator.Owners
open SeoPlatform.Orchestrator.Plans
open SeoPlatform.Orchestrator.Refinement
open SeoPlatform.Orchestrator.Soundness
open SeoPlatform.Orchestrator.Store
open SeoPlatform.Orchestrator.StoreSpecs
open SeoPlatform.Interplay.Bus
open SeoPlatform.Services
open SeoPlatform.Services.JobOwners
open SeoPlatform.Services.Runs
open SeoPlatform.Shared.Contracts
open SeoPlatform.Shared.Events

variable {world : World} {past : List (Platform world × Label world)} {s s' : Platform world}
  {label : Label world}

section Sources

/-- What the outboxes and the bus of the platform hold. -/
structure Sourced (s : Platform world) : Prop where
  sound : Sound .any s.audits
  filed : Filed s.audits.db
  held : Held s.schedules
  identified : Identified world.uuid s.schedules
  counted : Counted world.host s.schedules
  sends : ∀ role, ∀ o ∈ (s.jobs role).db.outbox.rows, Sends (role.service world) o.eventType
  origins : ∀ m ∈ s.bus, ∀ o, m.origin = some o →
    (∃ outlet, o ∈ s.outbox outlet) ∧ ∃ clock, m.envelope = relayed o clock

theorem sourced_initial : Sourced (Platform.initial : Platform world) where
  sound := sound_initial _
  filed _ ho := absurd ho List.not_mem_nil
  held := held_initial
  identified := identified_initial
  counted := counted_initial
  sends _ _ ho := absurd ho List.not_mem_nil
  origins _ hm := absurd hm List.not_mem_nil

/-- The rows of the outboxes stay, and so does what is on the bus. -/
structure Grows (s s' : Platform world) : Prop where
  outbox : ∀ outlet, ∀ o ∈ s.outbox outlet, o ∈ s'.outbox outlet
  bus : ∀ m ∈ s.bus, m ∈ s'.bus

theorem Sourced.of_grows (h : Sourced s) (hgrows : Grows s s') (hbus : s'.bus = s.bus)
    (hsound : Sound .any s'.audits) (hfiled : Filed s'.audits.db)
    (hscheduled : Held s'.schedules ∧ Identified world.uuid s'.schedules ∧
      Counted world.host s'.schedules)
    (hsends : ∀ role, ∀ o ∈ (s'.jobs role).db.outbox.rows,
      Sends (role.service world) o.eventType) : Sourced s' where
  sound := hsound
  filed := hfiled
  held := hscheduled.1
  identified := hscheduled.2.1
  counted := hscheduled.2.2
  sends := hsends
  origins m hm o ho := by
    obtain ⟨⟨outlet, hmem⟩, hclock⟩ := h.origins m (hbus ▸ hm) o ho
    exact ⟨⟨outlet, hgrows.outbox outlet o hmem⟩, hclock⟩

theorem Sourced.of_sent (h : Sourced s) {m : Message} (hm : ∀ o, m.origin = some o →
    (∃ outlet, o ∈ s.outbox outlet) ∧ ∃ clock, m.envelope = relayed o clock) :
    Sourced { s with bus := s.bus ++ [m] } ∧ Grows s { s with bus := s.bus ++ [m] } := by
  refine ⟨⟨h.sound, h.filed, h.held, h.identified, h.counted, h.sends, ?_⟩,
    fun outlet o ho => ho, fun m hm => List.mem_append_left _ hm⟩
  intro m' hm' o ho
  rcases List.mem_append.mp hm' with hold | hnew
  · exact h.origins m' hold o ho
  · rw [List.mem_singleton.mp hnew] at ho ⊢
    exact hm o ho

theorem sourced_step (huuid : Function.Injective world.uuid) (h : Sourced s)
    (hstep : step world s label = some s') : Sourced s' ∧ Grows s s' := by
  cases steps_of_step hstep with
  | @audits own audits _ hown =>
      obtain ⟨hsound, hchange⟩ := sound_step h.sound (allowed_any own) hown
      have hgrows : Grows s { s with audits := audits } := by
        refine ⟨fun outlet o ho => ?_, fun _ hm => hm⟩
        cases outlet with
        | audits => exact outbox_of_change hchange ho
        | schedules | jobs => exact ho
      exact ⟨h.of_grows hgrows rfl hsound (filed_of_change h.filed hchange)
        ⟨h.held, h.identified, h.counted⟩ h.sends, hgrows⟩
  | @schedules own schedules _ hown =>
      have hcounted := counted_step huuid h.held h.identified h.counted hown
      have hgrows : Grows s { s with schedules := schedules } := by
        refine ⟨fun outlet o ho => ?_, fun _ hm => hm⟩
        cases outlet with
        | schedules =>
            change o ∈ s.schedules.outbox.rows at ho
            change o ∈ schedules.outbox.rows
            rw [h.counted.staged] at ho
            rw [hcounted.staged]
            obtain ⟨firing, hfiring, rfl⟩ := List.mem_map.mp ho
            exact List.mem_map_of_mem (firings_mono h.held hown firing hfiring)
        | audits | jobs => exact ho
      exact ⟨h.of_grows hgrows rfl h.sound h.filed
        ⟨held_step h.held hown, identified_step huuid h.held h.identified hown, hcounted⟩
        h.sends, hgrows⟩
  | @jobs role own jobs _ hown =>
      obtain ⟨hkept, hnew⟩ := outbox_of_step hown
      have hother : ∀ other, other ≠ role → (s.setJobs role jobs).jobs other = s.jobs other :=
        fun other hne => Function.update_of_ne hne _ _
      have hself : (s.setJobs role jobs).jobs role = jobs := Function.update_self ..
      have hgrows : Grows s (s.setJobs role jobs) := by
        refine ⟨fun outlet o ho => ?_, fun _ hm => hm⟩
        cases outlet with
        | audits | schedules => exact ho
        | jobs other =>
            change o ∈ ((s.setJobs role jobs).jobs other).db.outbox.rows
            by_cases hrole : other = role
            · subst hrole
              rw [hself]
              exact hkept o ho
            · rw [hother other hrole]
              exact ho
      refine ⟨h.of_grows hgrows rfl h.sound h.filed ⟨h.held, h.identified, h.counted⟩ ?_, hgrows⟩
      intro other o ho
      by_cases hrole : other = role
      · subst hrole
        rw [hself] at ho
        exact (hnew o ho).elim (h.sends other o) id
      · rw [hother other hrole] at ho
        exact h.sends other o ho
  | @relayed outlet o clock ho =>
      refine h.of_sent fun o' ho' => ?_
      obtain rfl := Option.some.inj ho'
      exact ⟨⟨outlet, ho⟩, clock, rfl⟩
  | published e => exact h.of_sent fun _ ho => nomatch ho

theorem sourced_of_run (huuid : Function.Injective world.uuid)
    (run : Run (step world) Platform.initial past s) : Sourced s :=
  run.invariant Sourced sourced_initial fun _ _ _ h hstep => (sourced_step huuid h hstep).1

theorem bus_of_step (hstep : step world s label = some s') : ∀ m ∈ s.bus, m ∈ s'.bus := by
  cases steps_of_step hstep with
  | audits | schedules | jobs => exact fun _ hm => hm
  | relayed | published => exact fun _ hm => List.mem_append_left _ hm

/-- What is handed to a worker in a run is on the bus to the end. -/
theorem heard {moment : Platform world × Label world}
    (run : Run (step world) Platform.initial past s) (hmem : moment ∈ past) {i : Nat}
    {m : Message} (hm : moment.1.bus[i]? = some m) : m ∈ s.bus :=
  run.stays (fun t => m ∈ t.bus) (fun _ _ _ hmem hstep => bus_of_step hstep m hmem) hmem
    (List.mem_of_getElem? hm)

end Sources

/-- The ids that the orchestrators draw for jobs are new ones, in the spelling of the
server: nobody else asks for a job by one of them, and no worker draws one of them. -/
structure FreshJobs (past : List (Platform world × Label world)) (s : Platform world) :
    Prop where
  spelled : ∀ c ∈ s.audits.db.steps.rows, world.server.uuid c.jobId = some c.jobId
  foreign : ∀ m ∈ s.bus, m.origin = none → ∀ role : Role,
    m.envelope.type = (role.service world).requested → ∀ c ∈ s.audits.db.steps.rows,
      ¬ Names world.server (role.service world) m.envelope.payload c.jobId
  drawn : ∀ moment ∈ past, ∀ role n choice, moment.2 = .work role (.run n choice) →
    ∀ c ∈ s.audits.db.steps.rows, world.server.uuid choice.uuid ≠ some c.jobId

/-- The ids that the schedulers draw for workflows are new ones: no workflow that somebody
else asks for goes by one of them. -/
structure FreshFirings (past : List (Platform world × Label world)) (s : Platform world) :
    Prop where
  named : ∀ f ∈ s.schedules.firings, f.workflowId ≠ ""
  foreign : ∀ m ∈ s.bus, m.origin = none → m.envelope.type = .workflowRequested →
    ∀ f ∈ s.schedules.firings, ∃ named,
      Dict.get? m.envelope.payload "workflow_id" = some (.str named) ∧ named ≠ "" ∧
        named ≠ f.workflowId
  submitted : ∀ moment ∈ past, ∀ n request, moment.2 = .audit (.submit n request) →
    ∀ f ∈ s.schedules.firings, request.workflowId ≠ f.workflowId

section Hops

theorem requestField_requested (role : Role) :
    requestField (role.service world).requested = some (role.service world).idField := by
  cases role <;> rfl

/-- The workers of the platform ask for nothing. -/
theorem asks_nothing_of_sends {role : Role} {type : EventType}
    (h : Sends (role.service world) type) :
    requestField type = none ∧ type ≠ .workflowRequested := by
  rcases h with rfl | ⟨jobId, report, after, hafter, rfl⟩
  · cases role <;> exact ⟨rfl, EventType.noConfusion⟩
  · cases role with
    | crawls =>
        obtain ⟨page, -, rfl⟩ := List.mem_map.mp hafter
        exact ⟨rfl, EventType.noConfusion⟩
    | checks => contradiction

theorem sentFor_relayed {owner : Owner} {o : OutboxRow} (h : RowFor owner o) (clock : Nat) :
    SentFor owner (relayed o clock) :=
  ⟨h.correlation, h.tenant, h.project⟩

/-- A request for the job of a step comes from the orchestrators, for its owner. -/
theorem sentFor_of_names (h : Sourced s) (hfresh : FreshJobs past s) {row : WorkflowRow}
    (hrow : row ∈ s.audits.db.workflows.rows) {c : StepRow} (hc : c ∈ s.audits.db.steps.rows)
    (hown : c.workflowId = row.id) {role : Role} {m : Message} (hm : m ∈ s.bus)
    (htype : m.envelope.type = (role.service world).requested)
    (hnames : Names world.server (role.service world) m.envelope.payload c.jobId) :
    SentFor (ownerOf row) m.envelope := by
  cases horigin : m.origin with
  | none => exact absurd hnames (hfresh.foreign m hm horigin role htype c hc)
  | some o =>
      obtain ⟨⟨outlet, ho⟩, clock, henvelope⟩ := h.origins m hm o horigin
      rw [henvelope] at htype hnames ⊢
      have hfield : requestField o.eventType = some (role.service world).idField :=
        (congrArg requestField htype).trans (requestField_requested role)
      cases outlet with
      | audits =>
          obtain ⟨named, hget, hid⟩ := hnames
          have hjob : requestJob o = some named := by
            have hget' : Dict.get? o.payload (role.service world).idField = some (.str named) :=
              hget
            simp [requestJob, hfield, Dict.get, hget', Json.str?]
          have hasked := h.sound.coherent.requested o ho (by rw [hfield]; rfl)
          obtain ⟨r, hr, hjob', -⟩ := hasked
          obtain rfl := Option.some.inj (hjob'.symm.trans hjob)
          rw [hfresh.spelled r hr] at hid
          obtain rfl := eq_of_jobId hr hc (Option.some.inj hid)
          exact sentFor_relayed (rowFor_of_concerns h.sound.coherent h.filed hrow ho
            (.request hr hown hjob)) clock
      | schedules =>
          change o ∈ s.schedules.outbox.rows at ho
          rw [h.counted.staged] at ho
          obtain ⟨firing, -, rfl⟩ := List.mem_map.mp ho
          contradiction
      | jobs other =>
          have hnone := (asks_nothing_of_sends (h.sends other o ho)).1
          rw [hfield] at hnone
          contradiction

/-- What the crawl and rank-check workers have of the job of a step is for its owner. -/
theorem owned_of_fresh (huuid : Function.Injective world.uuid)
    (run : Run (step world) Platform.initial past s) (hfresh : FreshJobs past s)
    {row : WorkflowRow} (hrow : row ∈ s.audits.db.workflows.rows)
    (hspelled : Spelled world.server (ownerOf row)) {c : StepRow}
    (hc : c ∈ s.audits.db.steps.rows) (hown : c.workflowId = row.id) (role : Role) :
    Owned world.server (ownerOf row) c.jobId (s.jobs role) := by
  obtain ⟨own, hjobs, hlabels⟩ := jobs_of_run run role
  refine owned_of_run hspelled hjobs fun moment hmoment => ?_
  obtain ⟨whole, hwhole, hfor⟩ := hlabels moment hmoment
  generalize moment.2 = ownLabel at hfor
  generalize hlabel : whole.2 = wholeLabel at hfor
  cases hfor with
  | own hnot =>
      cases ownLabel with
      | deliver n e => exact absurd rfl (hnot n e)
      | run n choice => exact hfresh.drawn whole hwhole role n choice hlabel c hc
      | crash | tick => trivial
  | hand hm =>
      exact sentFor_of_names (sourced_of_run huuid run) hfresh hrow hc hown (heard run hwhole hm)

/-- What asks for a workflow of a firing is the firing itself. -/
def firedRequests (s : Platform world) : Traffic where
  completion _ _ := True
  request r := ∀ f ∈ s.schedules.firings, r.workflowId = f.workflowId →
    r.tenantId = f.schedule.tenantId ∧ r.projectId = f.schedule.projectId

theorem requestedId_of_named {payload : Dict} {named uuid : String}
    (h : Dict.get? payload "workflow_id" = some (.str named)) (hne : named ≠ "") :
    Workers.requestedId payload uuid = named := by
  simp [Workers.requestedId, Dict.get, h, Json.str?, textOr, hne]

/-- A message that asks for the workflow of a firing is the firing's. -/
theorem firedRequests_of_heard (h : Sourced s) (hfresh : FreshFirings past s) {m : Message}
    (hm : m ∈ s.bus) (htype : m.envelope.type = .workflowRequested) (uuid : String) :
    (firedRequests s).request (Workers.startRequest m.envelope uuid) := by
  intro f hf hid
  change Workers.requestedId m.envelope.payload uuid = f.workflowId at hid
  cases horigin : m.origin with
  | none =>
      obtain ⟨named, hget, hne, hother⟩ := hfresh.foreign m hm horigin htype f hf
      rw [requestedId_of_named hget hne] at hid
      exact absurd hid hother
  | some o =>
      obtain ⟨⟨outlet, ho⟩, clock, henvelope⟩ := h.origins m hm o horigin
      rw [henvelope] at htype hid
      have htype' : o.eventType = .workflowRequested := htype
      cases outlet with
      | audits =>
          obtain ⟨row, -, -, hkind⟩ := h.filed o ho
          rw [htype'] at hkind
          rcases hkind with hkind | ⟨hkind, -⟩ <;> contradiction
      | jobs other => exact absurd htype' (asks_nothing_of_sends (h.sends other o ho)).2
      | schedules =>
          change o ∈ s.schedules.outbox.rows at ho
          rw [h.counted.staged] at ho
          obtain ⟨firing, hfiring, rfl⟩ := List.mem_map.mp ho
          have hget : Dict.get? (relayed (Firing.row firing) clock).payload "workflow_id" =
              some (.str firing.workflowId) := rfl
          rw [requestedId_of_named hget (hfresh.named firing hfiring)] at hid
          have honce := (nodup_workflowIds h.identified.once).1
          obtain rfl := List.inj_on_of_nodup_map honce hfiring hf hid
          rw [henvelope]
          exact ⟨rfl, rfl⟩

/-- The workflow of a firing is the schedule's. -/
theorem firedFor_of_run (huuid : Function.Injective world.uuid)
    (run : Run (step world) Platform.initial past s) (hfresh : FreshFirings past s)
    {f : Schedules.Firing} (hf : f ∈ s.schedules.firings) {row : WorkflowRow}
    (hrow : row ∈ s.audits.db.workflows.rows) (hid : row.id = f.workflowId) :
    ownerOf row = firedFor f := by
  have hsourced := sourced_of_run huuid run
  obtain ⟨own, haudits, hlabels⟩ := audits_of_run run
  have hcarries : Carries (firedRequests s) own := by
    intro moment hmoment
    obtain ⟨whole, hwhole, hfor⟩ := hlabels moment hmoment
    generalize moment.2 = ownLabel at hfor
    generalize hlabel : whole.2 = wholeLabel at hfor
    cases hfor with
    | own hnot =>
        cases ownLabel with
        | deliver n e => exact absurd rfl (hnot n e)
        | submit n request =>
            exact fun g hg heq => absurd heq (hfresh.submitted whole hwhole n request hlabel g hg)
        | run | crash | tick => trivial
    | hand hm =>
        exact ⟨fun _ => trivial, fun htype _ uuid =>
          firedRequests_of_heard hsourced hfresh (heard run hwhole hm) htype uuid⟩
  obtain ⟨request, jobIds, hrequest, -, hrowId, -, -, htenant, hproject⟩ :=
    allPlanned_of_run haudits hcarries row hrow
  obtain ⟨htenant', hproject'⟩ := hrequest f hf (hrowId.symm.trans hid)
  unfold ownerOf firedFor
  rw [hid, htenant, hproject, htenant', hproject']

end Hops

/-- Every event and every record of a workflow carries the workflow's owner, from the row of
the workflow to the row of a completion, and the workflow of a firing has the owner of the
schedule. -/
structure Labelled (s : Platform world) : Prop where
  filed : ∀ o ∈ s.audits.db.outbox.rows, ∃ row ∈ s.audits.db.workflows.rows,
    Concerns s.audits.db row.id o
  staged : ∀ row ∈ s.audits.db.workflows.rows, ∀ o ∈ s.audits.db.outbox.rows,
    Concerns s.audits.db row.id o → RowFor (ownerOf row) o
  recorded : ∀ row ∈ s.audits.db.workflows.rows, ∀ c ∈ s.audits.db.steps.rows,
    c.workflowId = row.id → ∀ role record, (s.jobs role).db.job? c.jobId = some record →
      RecordFor (ownerOf row) record
  completed : ∀ row ∈ s.audits.db.workflows.rows, ∀ c ∈ s.audits.db.steps.rows,
    c.workflowId = row.id → ∀ role, ∀ o ∈ (s.jobs role).db.outbox.rows,
      o.eventType = (role.service world).completed →
        Names world.server (role.service world) o.payload c.jobId → RowFor (ownerOf row) o
  fired : ∀ f ∈ s.schedules.firings, RowFor (firedFor f) (Firing.row f) ∧
    ∀ row ∈ s.audits.db.workflows.rows, row.id = f.workflowId → ownerOf row = firedFor f
  relayed : ∀ m ∈ s.bus, ∀ o, m.origin = some o →
    (∃ outlet, o ∈ s.outbox outlet) ∧ m.envelope.type = o.eventType ∧
      m.envelope.payload = o.payload ∧ ∀ owner, RowFor owner o → SentFor owner m.envelope

/-- Tenancy follows the work, through every hop and in every interleaving. -/
theorem tenancy_follows (huuid : Function.Injective world.uuid)
    (run : Run (step world) Platform.initial past s)
    (hspelled : ∀ row ∈ s.audits.db.workflows.rows, Spelled world.server (ownerOf row))
    (hjobs : FreshJobs past s) (hfirings : FreshFirings past s) : Labelled s := by
  have hsourced := sourced_of_run huuid run
  have hcoherent := hsourced.sound.coherent
  refine ⟨?_, ?_, ?_, ?_, ?_, ?_⟩
  · exact fun o ho => concerns_of_mem hcoherent hsourced.filed ho
  · exact fun row hrow o ho hconcerns =>
      rowFor_of_concerns hcoherent hsourced.filed hrow ho hconcerns
  · intro row hrow c hc hown role record hrecord
    exact (owned_of_fresh huuid run hjobs hrow (hspelled row hrow) hc hown role).record record
      hrecord
  · intro row hrow c hc hown role o ho htype hnames
    exact (owned_of_fresh huuid run hjobs hrow (hspelled row hrow) hc hown role).rows o ho htype
      hnames
  · exact fun f hf => ⟨rowFor_firing (hfirings.named f hf), fun row hrow hid =>
      firedFor_of_run huuid run hfirings hf hrow hid⟩
  · intro m hm o ho
    obtain ⟨houtlet, clock, henvelope⟩ := hsourced.origins m hm o ho
    rw [henvelope]
    exact ⟨houtlet, rfl, rfl, fun owner hfor => sentFor_relayed hfor clock⟩

section Checks

/-- A platform for texts in ASCII. -/
def plainWorld : World where
  env := Workers.asciiEnv
  host := utcHost
  uuid := plainUuid
  server := AckedJobs.openServer
  sqrt := id
  pageId := id

/-- A crawl that finds nothing. -/
def emptyCrawl : JobWorker.Choice (Role.crawls.service plainWorld) where
  faults := []
  uuid := "drawn"
  given := .ok { ctx := { startUrl := "https://shop.ir" }, issues := [], generatedAt := "" }
  ids _ := "event"

/-- An audit is asked for. Its crawl is asked for, relayed, done and relayed back, and its
completion is handled. -/
def oneCrawl : List (Label plainWorld) :=
  [.publish (Workers.auditRequest "m" Workers.oneSite), .handAudit 0 0] ++
    List.replicate 7 (.audit (.run 0 (Workers.drawn "e"))) ++
    [.relay .audits 0 5, .handJob .crawls 0 1] ++
    List.replicate 4 (.work .crawls (.run 0 emptyCrawl)) ++
    [.relay (.jobs .crawls) 0 6, .handAudit 1 2] ++
    List.replicate 3 (.audit (.run 1 (Workers.drawn "f")))

/-- Whether the workflows are named, only workflows were asked for from outside, no schedule
was fired, and the crawl was recorded for the tenant. -/
def crawledFor (tenant : String) (s : Platform plainWorld) : Bool :=
  s.audits.db.workflows.rows.all (fun row => row.id ≠ "") &&
    s.bus.all (fun m => m.origin.isSome || m.envelope.type = .workflowRequested) &&
    s.schedules.firings.isEmpty &&
    ((s.jobs .crawls).db.job? "job-1").any fun record => record.tenantId = some tenant

def drawsOnly (uuid : String) : Label plainWorld → Bool
  | .work _ (.run _ choice) => choice.uuid = uuid
  | _ => true

theorem tenancy_follows_oneCrawl :
    ∃ (past : List (Platform plainWorld × Label plainWorld)) (s : Platform plainWorld),
      past.map Prod.snd = oneCrawl ∧ crawledFor "t" s = true ∧ Labelled s := by
  obtain ⟨past, s, hpast, run, hcheck⟩ := Run.of_check (step plainWorld) Platform.initial oneCrawl
    (fun past s => crawledFor "t" s && past.all (fun moment => drawsOnly "drawn" moment.2) &&
      s.audits.db.steps.rows.all fun c => c.jobId ≠ "drawn") (by decide +kernel)
  simp only [Bool.and_eq_true, List.all_eq_true, decide_eq_true_eq] at hcheck
  obtain ⟨⟨hcrawled, hdraws⟩, hdrawn⟩ := hcheck
  have hparts := hcrawled
  simp only [crawledFor, Bool.and_eq_true, List.all_eq_true, decide_eq_true_eq, Bool.or_eq_true,
    List.isEmpty_iff] at hparts
  obtain ⟨⟨⟨hnamed, hforeign⟩, hfirings⟩, -⟩ := hparts
  have hnone : ∀ f, f ∉ s.schedules.firings := fun f => hfirings ▸ List.not_mem_nil
  refine ⟨past, s, hpast, hcrawled, tenancy_follows plainUuid_injective run ?_ ?_ ?_⟩
  · intro row hrow
    refine ⟨hnamed row hrow, ?_, ?_⟩
    · cases (ownerOf row).tenantId <;> rfl
    · cases (ownerOf row).projectId <;> rfl
  · refine ⟨fun _ _ => rfl, fun m hm horigin role htype => ?_, ?_⟩
    · rcases hforeign m hm with hsome | hrequest
      · rw [horigin] at hsome
        contradiction
      · rw [hrequest] at htype
        cases role <;> contradiction
    · intro moment hmem role n choice hlabel c hc hid
      have hdraw := hdraws moment hmem
      rw [hlabel] at hdraw
      have huuid : choice.uuid = "drawn" := of_decide_eq_true hdraw
      exact hdrawn c hc ((Option.some.inj hid).symm.trans huuid)
  · exact ⟨fun f hf => absurd hf (hnone f), fun _ _ _ _ f hf => absurd hf (hnone f),
      fun _ _ _ _ _ f hf => absurd hf (hnone f)⟩

end Checks

end SeoPlatform.Interplay.Tenancy
