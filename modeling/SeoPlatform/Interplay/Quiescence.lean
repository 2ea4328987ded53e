import SeoPlatform.InternalLinks.Reported
import SeoPlatform.Interplay.Pipeline
import SeoPlatform.Orchestrator.HandledCompletions
import SeoPlatform.Services.HandledRequests

namespace SeoPlatform.Interplay.Quiescence

open SeoPlatform.Foundation.JsonValue
open SeoPlatform.Foundation.TransitionSystem
open SeoPlatform.Interplay.Bus (Message relayed)
open SeoPlatform.Interplay.Pipeline
open SeoPlatform.Orchestrator
open SeoPlatform.Orchestrator.Acknowledgement (Started)
open SeoPlatform.Orchestrator.Changes
open SeoPlatform.Orchestrator.Engine
open SeoPlatform.Orchestrator.FlowView
open SeoPlatform.Orchestrator.HandledCompletions
open SeoPlatform.Orchestrator.Interleavings
open SeoPlatform.Orchestrator.Owners
open SeoPlatform.Orchestrator.Refinement
open SeoPlatform.Orchestrator.StepLives
open SeoPlatform.Orchestrator.Store
open SeoPlatform.Services
open SeoPlatform.Services.HandledRequests
open SeoPlatform.Services.JobOwners
open SeoPlatform.Services.Runs
open SeoPlatform.Shared.Contracts
open SeoPlatform.Shared.Events

variable {world : World} {past : List (Platform world × Label world)} {s s' : Platform world}
  {label : Label world}

section Sources

/-- What the outboxes and the bus of the platform hold. -/
structure Sourced (s : Platform world) : Prop where
  sound : Sound .any s.audits
  filed : Filed s.audits.db
  sends : ∀ role, ∀ o ∈ (s.jobs role).db.outbox.rows, Sends (role.service world) o.eventType
  origins : ∀ m ∈ s.bus, ∀ o, m.origin = some o →
    (∃ outlet, o ∈ s.outbox outlet) ∧ ∃ clock, m.envelope = relayed o clock

theorem sourced_initial : Sourced (Platform.initial : Platform world) where
  sound := sound_initial _
  filed _ ho := absurd ho List.not_mem_nil
  sends _ _ ho := absurd ho List.not_mem_nil
  origins _ hm := absurd hm List.not_mem_nil

/-- Nothing leaves the outboxes, the bus or the table of the steps. -/
structure Grows (s s' : Platform world) : Prop where
  outbox : ∀ outlet, ∀ o ∈ s.outbox outlet, o ∈ s'.outbox outlet
  bus : ∀ m ∈ s.bus, m ∈ s'.bus
  steps : ∀ c ∈ s.audits.db.steps.rows, ∃ c' ∈ s'.audits.db.steps.rows, c'.jobId = c.jobId

theorem Grows.refl (s : Platform world) : Grows s s :=
  ⟨fun _ _ ho => ho, fun _ hm => hm, fun c hc => ⟨c, hc, rfl⟩⟩

theorem Grows.trans {t : Platform world} (h : Grows s s') (h' : Grows s' t) : Grows s t where
  outbox outlet o ho := h'.outbox outlet o (h.outbox outlet o ho)
  bus m hm := h'.bus m (h.bus m hm)
  steps c hc := by
    obtain ⟨c', hc', hjob⟩ := h.steps c hc
    obtain ⟨c'', hc'', hjob'⟩ := h'.steps c' hc'
    exact ⟨c'', hc'', hjob'.trans hjob⟩

theorem Sourced.of_grows (h : Sourced s) (hgrows : Grows s s') (hbus : s'.bus = s.bus)
    (hsound : Sound .any s'.audits) (hfiled : Filed s'.audits.db)
    (hsends : ∀ role, ∀ o ∈ (s'.jobs role).db.outbox.rows,
      Sends (role.service world) o.eventType) : Sourced s' where
  sound := hsound
  filed := hfiled
  sends := hsends
  origins m hm o ho := by
    obtain ⟨⟨outlet, hmem⟩, hclock⟩ := h.origins m (hbus ▸ hm) o ho
    exact ⟨⟨outlet, hgrows.outbox outlet o hmem⟩, hclock⟩

theorem sourced_step (h : Sourced s) (hstep : step world s label = some s') :
    Sourced s' ∧ Grows s s' := by
  cases steps_of_step hstep with
  | @audits own audits _ hown =>
      obtain ⟨hsound, hchange⟩ := sound_step h.sound (allowed_any own) hown
      have hgrows : Grows s { s with audits := audits } := by
        refine ⟨fun outlet o ho => ?_, fun _ hm => hm, fun c hc => ?_⟩
        · cases outlet with
          | audits => exact outbox_of_change hchange ho
          | jobs => exact ho
        · obtain ⟨c', hc', hmoves⟩ := row_after hchange hc
          exact ⟨c', hc', jobId_of_moves hmoves⟩
      exact ⟨h.of_grows hgrows rfl hsound (filed_of_change h.filed hchange) h.sends, hgrows⟩
  | @jobs role own jobs _ hown =>
      obtain ⟨hkept, hnew⟩ := outbox_of_step hown
      have hgrows : Grows s (s.setJobs role jobs) := by
        refine ⟨fun outlet o ho => ?_, fun _ hm => hm, fun c hc => ⟨c, hc, rfl⟩⟩
        cases outlet with
        | audits => exact ho
        | jobs other =>
            change o ∈ ((s.setJobs role jobs).jobs other).db.outbox.rows
            rcases eq_or_ne other role with rfl | hrole
            · rw [jobs_setJobs_self]
              exact hkept o ho
            · rw [jobs_setJobs_of_ne hrole]
              exact ho
      refine ⟨h.of_grows hgrows rfl h.sound h.filed fun other o ho => ?_, hgrows⟩
      rcases eq_or_ne other role with rfl | hrole
      · rw [jobs_setJobs_self] at ho
        exact (hnew o ho).elim (h.sends other o) id
      · rw [jobs_setJobs_of_ne hrole] at ho
        exact h.sends other o ho
  | sent m hm =>
      refine ⟨⟨h.sound, h.filed, h.sends, fun m' hm' o ho => ?_⟩,
        fun _ _ ho => ho, fun _ hm => List.mem_append_left _ hm, fun c hc => ⟨c, hc, rfl⟩⟩
      rcases List.mem_append.mp hm' with hold | hnew
      · exact h.origins m' hold o ho
      · rw [List.mem_singleton.mp hnew] at ho ⊢
        exact hm o ho

theorem sourced_of_run (run : Run (step world) Platform.initial past s) : Sourced s :=
  run.invariant Sourced sourced_initial fun _ _ _ h hstep => (sourced_step h hstep).1

/-- Between two states of a run the platform grows. -/
theorem grows_of_run {start : Platform world} (hstart : Sourced start)
    (run : Run (step world) start past s) : Grows start s :=
  (run.invariant (fun t => Sourced t ∧ Grows start t) ⟨hstart, .refl start⟩
    fun _ _ _ h hstep =>
      have hnext := sourced_step h.1 hstep
      ⟨hnext.1, h.2.trans hnext.2⟩).2

end Sources

/-- An id is one message's, and a uuid that the orchestrators draw for a job is in the
spelling of the server, and nobody else's. -/
structure Fresh (past : List (Platform world × Label world)) (s : Platform world) : Prop where
  ids : ∀ m ∈ s.bus, ∀ m' ∈ s.bus, m.envelope.id = m'.envelope.id → m.origin = m'.origin ∧
    m.envelope.type = m'.envelope.type ∧ m.envelope.payload = m'.envelope.payload
  spelled : ∀ c ∈ s.audits.db.steps.rows, c.jobId ≠ "" ∧
    world.server.uuid c.jobId = some c.jobId
  foreign : ∀ m ∈ s.bus, m.origin = none → ∀ role : Role,
    m.envelope.type = (role.service world).requested → ∀ c ∈ s.audits.db.steps.rows,
      ¬ Names world.server (role.service world) m.envelope.payload c.jobId
  drawn : ∀ moment ∈ past, ∀ role n choice, moment.2 = .work role (.run n choice) →
    ∀ c ∈ s.audits.db.steps.rows, world.server.uuid choice.uuid ≠ some c.jobId

section Awaiting

variable {id : String}

/-- What is known of the id of one job. -/
structure FreshJob (past : List (Platform world × Label world)) (s : Platform world)
    (id : String) : Prop where
  named : id ≠ "" ∧ world.server.uuid id = some id
  spelled : ∀ c ∈ s.audits.db.steps.rows, world.server.uuid c.jobId = some c.jobId
  foreign : ∀ m ∈ s.bus, m.origin = none → ∀ role : Role,
    m.envelope.type = (role.service world).requested →
      ¬ Names world.server (role.service world) m.envelope.payload id
  drawn : ∀ moment ∈ past, ∀ role n choice, moment.2 = .work role (.run n choice) →
    world.server.uuid choice.uuid ≠ some id

theorem Fresh.job {earlier : List (Platform world × Label world)} {t : Platform world}
    (h : Fresh past s) (hpast : earlier ⊆ past) (hgrows : Grows t s) {c : StepRow}
    (hc : c ∈ s.audits.db.steps.rows) : FreshJob earlier t c.jobId where
  named := h.spelled c hc
  spelled c' hc' := by
    obtain ⟨r, hr, hjob⟩ := hgrows.steps c' hc'
    rw [← hjob]
    exact (h.spelled r hr).2
  foreign m hm horigin role htype := h.foreign m (hgrows.bus m hm) horigin role htype c hc
  drawn moment hmem role n choice hlabel := h.drawn moment (hpast hmem) role n choice hlabel c hc

/-- The orchestrators ask for the job. -/
def AskedFor (s : Platform world) (id : String) : Prop :=
  ∃ o ∈ s.audits.db.outbox.rows, requestJob o = some id

/-- Who asks for a job of the orchestrators asks in their name, and in their spelling. -/
theorem askedFor_of_names (h : Sourced s) (hfresh : FreshJob past s id) {role : Role}
    {m : Message} (hm : m ∈ s.bus) (htype : m.envelope.type = (role.service world).requested)
    (hnames : Names world.server (role.service world) m.envelope.payload id) :
    AskedFor s id ∧
      Dict.get? m.envelope.payload (role.service world).idField = some (.str id) := by
  cases horigin : m.origin with
  | none => exact absurd hnames (hfresh.foreign m hm horigin role htype)
  | some o =>
      obtain ⟨⟨outlet, ho⟩, clock, henvelope⟩ := h.origins m hm o horigin
      have hfield : requestField o.eventType = some (role.service world).idField := by
        rw [henvelope] at htype
        exact (congrArg requestField htype).trans (requestField_requested role)
      cases outlet with
      | audits =>
          obtain ⟨named, hget, hid⟩ := hnames
          have hjob : requestJob o = some named := by
            rw [henvelope] at hget
            have hget' : Dict.get? o.payload (role.service world).idField = some (.str named) :=
              hget
            simp [requestJob, hfield, Dict.get, hget', Json.str?]
          obtain ⟨r, hr, hjob', -⟩ := h.sound.coherent.requested o ho (by rw [hfield]; rfl)
          obtain rfl := Option.some.inj (hjob'.symm.trans hjob)
          rw [hfresh.spelled r hr] at hid
          obtain rfl := Option.some.inj hid
          exact ⟨⟨o, ho, hjob'⟩, hget⟩
      | jobs other =>
          rw [asks_nothing_of_sends (h.sends other o ho)] at hfield
          contradiction

theorem bus_of_step (hstep : step world s label = some s') : ∀ m ∈ s.bus, m ∈ s'.bus := by
  cases steps_of_step hstep with
  | audits | jobs => exact fun _ hm => hm
  | sent => exact fun _ hm => List.mem_append_left _ hm

/-- No completion names a job of the orchestrators before they have asked for it. -/
theorem answering_of_fresh (run : Run (step world) Platform.initial past s)
    (hfresh : FreshJob past s id) (role : Role) :
    Answering world.server id (AskedFor s id) (s.jobs role) := by
  obtain ⟨own, hjobs, hlabels⟩ := jobs_of_run run role
  refine answering_of_run hfresh.named.1 hjobs fun moment hmoment => ?_
  obtain ⟨whole, hwhole, hfor⟩ := hlabels moment hmoment
  generalize moment.2 = ownLabel at hfor
  generalize hlabel : whole.2 = wholeLabel at hfor
  cases hfor with
  | own hnot =>
      cases ownLabel with
      | deliver n e => exact absurd rfl (hnot n e)
      | run n choice => exact hfresh.drawn whole hwhole role n choice hlabel
      | crash | tick => trivial
  | @hand n i m hm =>
      have hheard : m ∈ s.bus := run.stays (fun t => m ∈ t.bus)
        (fun _ _ _ hmem hstep => bus_of_step hstep m hmem) hwhole hm
      exact askedFor_of_names (sourced_of_run run) hfresh hheard

/-- The row of a completion is in the outbox of a service, and of its type. -/
theorem exists_role_of_completion (h : Sourced s) {outlet : Outlet} {o : OutboxRow}
    (ho : o ∈ s.outbox outlet) (hcompletion : (completions o.eventType).isSome) :
    ∃ role, o ∈ (s.jobs role).db.outbox.rows ∧ o.eventType = (role.service world).completed := by
  cases outlet with
  | audits =>
      obtain ⟨row, -, -, hasks | ⟨htype, -⟩⟩ := h.filed o ho
      · cases htype : o.eventType <;> rw [htype] at hcompletion hasks <;> contradiction
      · rw [htype] at hcompletion
        contradiction
  | jobs role =>
      rcases h.sends role o ho with htype | ⟨jobId, report, event, hevent, htype⟩
      · exact ⟨role, ho, htype⟩
      · rw [htype, (silent_of_followUp hevent).2] at hcompletion
        contradiction

theorem get?_of_get {d : Dict} {key text : String} (h : Dict.get d key = .str text) :
    Dict.get? d key = some (.str text) := by
  unfold Dict.get at h
  cases hget : Dict.get? d key with
  | none => simp [hget] at h
  | some v => simpa [hget] using h

/-- When a completion of a step is on the bus, its step was sent out. -/
theorem awaited_of_relayed (run : Run (step world) Platform.initial past s)
    (hfresh : FreshJob past s id) {m : Message} (hm : m ∈ s.bus) {o : OutboxRow}
    (horigin : m.origin = some o) {c : StepRow} (hjob : c.jobId = id)
    (hreports : Reports m.envelope c) : Awaited s.audits.db m.envelope := by
  have hsourced := sourced_of_run run
  obtain ⟨⟨outlet, ho⟩, clock, henvelope⟩ := hsourced.origins m hm o horigin
  obtain ⟨kind, idField, hcompletion, hget⟩ := hreports
  have hcompletion' : completions o.eventType = some (kind, idField) := by
    rw [henvelope] at hcompletion
    exact hcompletion
  obtain ⟨role, hrow, htype⟩ := exists_role_of_completion hsourced ho (by rw [hcompletion']; rfl)
  have hfield : idField = (role.service world).idField := by
    obtain ⟨kind', hrole⟩ := completions_completed world role
    rw [htype, hrole] at hcompletion'
    exact (Prod.mk.inj (Option.some.inj hcompletion')).2.symm
  subst hfield
  have hget' : Dict.get? o.payload (role.service world).idField = some (.str id) := by
    rw [henvelope, hjob] at hget
    exact get?_of_get hget
  obtain ⟨⟨o', ho', hasks⟩, -⟩ := (answering_of_fresh run hfresh role).rows o hrow htype
    ⟨id, hget', hfresh.named.2⟩
  obtain ⟨r, hr, hjob', -⟩ :=
    hsourced.sound.coherent.requested o' ho' (requestField_of_requestJob hasks)
  have hsame : r.jobId = c.jobId := by
    rw [hjob]
    exact Option.some.inj (hjob'.symm.trans hasks)
  exact ⟨r, hr, ⟨kind, _, hcompletion, by rw [hget, hsame]⟩,
    launched_of_asksFor hsourced.sound.coherent ho' hr hjob'⟩

end Awaiting

/-- A step that takes the only handler from a workflow or a job: its process dies, or its
transaction raises. -/
def Loses (s : Platform world) : Label world → Prop
  | .audit label => Resumption.CutsOff world.env s.audits label
  | .work role label => AckedJobs.Abandons world.server world.env.wording (s.jobs role) label
  | .handAudit _ _ | .handJob _ _ _ | .relay _ _ _ | .publish _ => False

section Account

/-- The message is on the bus. -/
def Known (s : Platform world) (e : Envelope) : Prop := ∃ m ∈ s.bus, m.envelope = e

/-- The message is the completion of a step, and comes from an outbox. -/
def Genuine (s : Platform world) (e : Envelope) : Prop :=
  (∃ c ∈ s.audits.db.steps.rows, Reports e c) ∧
    ∃ m ∈ s.bus, m.envelope = e ∧ m.origin.isSome

theorem alike_of_fresh (hfresh : Fresh past s) : Alike (Known s) (Genuine s) where
  same := by
    rintro a b ⟨m, hm, rfl⟩ ⟨m', hm', rfl⟩ hid
    exact (hfresh.ids m hm m' hm' hid).2
  earlier := by
    rintro a b ⟨m, hm, rfl⟩ ⟨m', hm', rfl⟩ hid ⟨⟨c, hc, kind, idField, hcompletion, hget⟩,
      m'', hm'', hsame, horigin⟩
    obtain ⟨-, htype, hpayload⟩ := hfresh.ids m hm m' hm' hid
    refine ⟨⟨c, hc, kind, idField, htype ▸ hcompletion, hpayload ▸ hget⟩, m, hm, rfl, ?_⟩
    rw [(hfresh.ids m hm m'' hm'' (hid.trans (congrArg Envelope.id hsame.symm))).1]
    exact horigin
  completes := by
    rintro e ⟨⟨c, -, kind, idField, hcompletion, -⟩, -⟩
    rw [hcompletion]
    rfl

/-- What holds at every moment of a run that ends in `final` and loses no handler. -/
structure Kept (final s : Platform world) : Prop where
  sourced : Sourced s
  handled : Acknowledgement.Accounted (Known final) s.audits ∧ Reported (Genuine final) s.audits
  attended : Resumption.Attended s.audits
  jobs : ∀ role, AckedJobs.Attended world.server (s.jobs role) ∧
    AckedJobs.Accounted world.server (Known final) (s.jobs role)

theorem kept_initial (final : Platform world) : Kept final Platform.initial where
  sourced := sourced_initial
  handled := ⟨Acknowledgement.accounted_initial _, reported_initial⟩
  attended _ hrow := absurd hrow List.not_mem_nil
  jobs _ := ⟨AckedJobs.attended_initial, AckedJobs.accounted_initial⟩

/-- What is known of the moments of a run that ends in `final`. -/
structure Steady (final s : Platform world) (label : Label world) : Prop where
  kept : ¬ Loses s label
  known : ∀ m ∈ s.bus, Known final m.envelope
  awaited : ∀ m ∈ s.bus, Genuine final m.envelope → Awaited s.audits.db m.envelope

theorem kept_step {final : Platform world} (halike : Alike (Known final) (Genuine final))
    (h : Kept final s) (hsteady : Steady final s label) (hstep : step world s label = some s') :
    Kept final s' := by
  have hsourced := (sourced_step h.sourced hstep).1
  cases steps_of_step hstep with
  | @audits own audits hfor hown =>
      have hdeliver : ∀ n e, own = .deliver n e →
          Known final e ∧ (Genuine final e → Awaited s.audits.db e) := by
        rintro n e rfl
        cases hfor with
        | own hnot => exact absurd rfl (hnot n e)
        | hand hm => exact ⟨hsteady.known _ hm, hsteady.awaited _ hm⟩
      have hkept : ¬ Resumption.CutsOff world.env s.audits own := by
        cases hfor with
        | own => exact hsteady.kept
        | hand => exact id
      exact ⟨hsourced, handled_step halike h.sourced.sound h.handled hdeliver hown,
        Resumption.attended_step h.attended h.sourced.sound hkept hown, h.jobs⟩
  | @jobs role own jobs hfor hown =>
      have hknown : ∀ n e, own = .deliver n e → Known final e := by
        rintro n e rfl
        cases hfor with
        | own hnot => exact absurd rfl (hnot n e)
        | hand hm => exact hsteady.known _ hm
      have hkept : ¬ AckedJobs.Abandons world.server world.env.wording (s.jobs role) own := by
        cases hfor with
        | own => exact hsteady.kept
        | hand => exact id
      refine ⟨hsourced, h.handled, h.attended, fun other => ?_⟩
      rcases eq_or_ne other role with rfl | hrole
      · rw [jobs_setJobs_self]
        obtain ⟨hattended, haccounted⟩ := h.jobs other
        exact ⟨AckedJobs.attended_step hattended hkept hown,
          accounted_step_of_alike (fun a b ha hb hid => (halike.same a b ha hb hid).2) haccounted
            hknown hown⟩
      · rw [jobs_setJobs_of_ne hrole]
        exact h.jobs other
  | sent m hm => exact ⟨hsourced, h.handled, h.attended, h.jobs⟩

theorem kept_of_run (run : Run (step world) Platform.initial past s) (hfresh : Fresh past s)
    (hkept : ∀ moment ∈ past, ¬ Loses moment.1 moment.2) : Kept s s := by
  refine run.invariant_of (Steady s) (fun moment hmem => ?_) (Kept s) (kept_initial s)
    fun t label t' h hsteady hstep => kept_step (alike_of_fresh hfresh) h hsteady hstep
  obtain ⟨earlier, later, t', hpast, hearlier, hstep, hlater⟩ := run.moment hmem
  have hsourced := sourced_of_run hearlier
  have hgrows : Grows moment.1 s := by
    obtain ⟨hsourced', hnext⟩ := sourced_step hsourced hstep
    exact hnext.trans (grows_of_run hsourced' hlater)
  refine ⟨hkept moment hmem, fun m hm => ⟨m, hgrows.bus m hm, rfl⟩, ?_⟩
  rintro m hm ⟨⟨c, hc, hreports⟩, m', hm', hsame, horigin⟩
  obtain ⟨o, ho⟩ := Option.isSome_iff_exists.mp horigin
  have hids := hfresh.ids m (hgrows.bus m hm) m' hm' (congrArg Envelope.id hsame.symm)
  have hearly : earlier ⊆ past := by
    rw [hpast]
    exact List.subset_append_left _ _
  exact awaited_of_relayed hearlier (hfresh.job hearly hgrows hc) hm (hids.1.trans ho) rfl hreports

end Account

/-- Nothing is under way: every row of an outbox was relayed, every message was acknowledged
by those it is for, and nobody is at work. -/
structure Quiet (s : Platform world) : Prop where
  relayed : ∀ outlet, ∀ o ∈ s.outbox outlet, ∃ m ∈ s.bus, m.origin = some o
  noted : ∀ m ∈ s.bus, (Workers.entry m.envelope.type).isSome → m.envelope ∈ s.audits.acked
  done : ∀ m ∈ s.bus, ∀ role : Role, m.envelope.type = (role.service world).requested →
    m.envelope ∈ (s.jobs role).acked
  idle : ∀ n, (s.audits.workers n).job = none
  free : ∀ role n, ((s.jobs role).workers n).job = none

theorem get?_of_requestJob {o : OutboxRow} {job field : String} (h : requestJob o = some job)
    (hfield : requestField o.eventType = some field) :
    Dict.get? o.payload field = some (.str job) := by
  unfold requestJob at h
  rw [hfield, Option.bind_some] at h
  exact get?_of_get (str?_eq_some h)

/-- On a quiet platform the job of a step that was asked for has announced its end. -/
theorem announced_of_quiet (hkept : Kept s s) (hfresh : Fresh past s) (hquiet : Quiet s)
    {r : StepRow} (hr : r ∈ s.audits.db.steps.rows) {o : OutboxRow}
    (ho : o ∈ s.audits.db.outbox.rows) (hasks : AsksFor o r) :
    ∃ role, ∃ o' ∈ (s.jobs role).db.outbox.rows, o'.eventType = (role.service world).completed ∧
      Names world.server (role.service world) o'.payload r.jobId := by
  obtain ⟨hjob, htype, -⟩ := hasks
  obtain ⟨role, hrole⟩ := exists_role world r.kind
  obtain ⟨m, hm, horigin⟩ := hquiet.relayed .audits o ho
  obtain ⟨-, clock, henvelope⟩ := hkept.sourced.origins m hm o horigin
  have hacked := hquiet.done m hm role (by rw [henvelope]; exact htype.trans hrole.symm)
  obtain ⟨hattended, haccounted⟩ := hkept.jobs role
  obtain ⟨-, uuid, id, record, hid, hrecord, hstatus⟩ := haccounted.acked _ hacked
  have hget : Dict.get? m.envelope.payload (role.service world).idField =
      some (.str r.jobId) := by
    rw [henvelope]
    exact get?_of_requestJob hjob (by rw [htype, ← hrole]; exact requestField_requested role)
  obtain ⟨hnamed, hspelled⟩ := hfresh.spelled r hr
  rw [AckedJobs.requestedId_of_named hget hnamed, hspelled] at hid
  obtain rfl := Option.some.inj hid
  have hterminal : record.status.Terminal := by
    cases hcase : record.status with
    | queued => exact absurd hcase hstatus
    | running =>
        obtain ⟨n, e, jobId, request, hat, -⟩ := hattended.running _ record hrecord hcase
        exact absurd (hat.symm.trans (hquiet.free role n)) (by simp)
    | completed | failed => trivial
  obtain ⟨o', ho', htype', ⟨text, hget', huuid⟩, -⟩ := hattended.ended _ record hrecord hterminal
  rw [Shared.PostgresStore.jobId_of_job? hrecord] at huuid
  exact ⟨role, o', ho', htype', text, hget', huuid⟩

/-- And the step is over. -/
theorem over_of_quiet (run : Run (step world) Platform.initial past s) (hkept : Kept s s)
    (hfresh : Fresh past s) (hquiet : Quiet s) {r : StepRow} (hr : r ∈ s.audits.db.steps.rows)
    {o : OutboxRow} (ho : o ∈ s.audits.db.outbox.rows) (hasks : AsksFor o r) :
    StepStatus.Over r.status := by
  obtain ⟨role, o', ho', htype, hnames⟩ := announced_of_quiet hkept hfresh hquiet hr ho hasks
  have hjob := hfresh.job (List.Subset.refl past) (.refl s) hr
  obtain ⟨-, hget⟩ := (answering_of_fresh run hjob role).rows o' ho' htype hnames
  obtain ⟨m, hm, horigin⟩ := hquiet.relayed (.jobs role) o' ho'
  obtain ⟨-, clock, henvelope⟩ := hkept.sourced.origins m hm o' horigin
  obtain ⟨kind, hcompletion⟩ := completions_completed world role
  have hreports : Reports m.envelope r := by
    refine ⟨kind, (role.service world).idField, ?_, ?_⟩
    · rw [henvelope]
      exact (congrArg completions htype).trans hcompletion
    · rw [henvelope]
      exact Option.getD_eq_iff.mpr (.inl hget)
  have hgenuine : Genuine s m.envelope := ⟨⟨r, hr, hreports⟩, m, hm, rfl, by rw [horigin]; rfl⟩
  have hentry := entry_of_completion ((alike_of_fresh hfresh).completes _ hgenuine)
  have hacked := hquiet.noted m hm (by rw [hentry]; rfl)
  obtain ⟨r', hr', hreports', hover⟩ := hkept.handled.2.acked _ hacked hgenuine
  rwa [eq_of_jobId hr' hr (jobId_of_reports hreports' hreports)] at hover

/-- In every run that takes no handler from what it works on, whenever nothing is under way
every audit that somebody asked for is there, and every audit has ended: none waits for ever. -/
theorem quiet_has_ended (run : Run (step world) Platform.initial past s) (hfresh : Fresh past s)
    (hkept : ∀ moment ∈ past, ¬ Loses moment.1 moment.2) (hquiet : Quiet s) :
    (∀ m ∈ s.bus, m.envelope.type = .workflowRequested → Started s.audits.db m.envelope) ∧
      ∀ row ∈ s.audits.db.workflows.rows, row.status.Terminal := by
  have hall := kept_of_run run hfresh hkept
  refine ⟨fun m hm htype => ?_, fun row hrow => ?_⟩
  · have hacked := hquiet.noted m hm (by rw [htype]; rfl)
    exact (hall.handled.1.acked _ hacked).2 htype
  · rcases hall.attended row hrow with hheld | ⟨n, e, stage, hat, -⟩
    · rcases Resumption.settled_of_held hall.sourced.sound.coherent hheld with
        ⟨row', hrow', hid, hterminal⟩ | ⟨r, hr, -, hdispatched, -, o, ho, hasks⟩
      · rwa [Snapshots.eq_of_id hrow' hrow hid] at hterminal
      · have hover := over_of_quiet run hall hfresh hquiet hr ho hasks
        rw [hdispatched] at hover
        rcases hover with hover | hover <;> contradiction
    · exact absurd (hat.symm.trans (hquiet.idle n)) (by simp)

section Checks

def outlets : List Outlet :=
  [.audits, .jobs .crawls, .jobs .studies, .jobs .checks, .jobs .linkAnalyses,
    .jobs .contentAnalyses, .jobs .plans, .jobs .comparisons]

theorem mem_outlets (outlet : Outlet) : outlet ∈ outlets := by
  cases outlet with
  | audits => simp [outlets]
  | jobs role => cases role <;> simp [outlets]

/-- The rows of all outboxes. -/
def rows (s : Platform world) : List OutboxRow := outlets.flatMap s.outbox

/-- Whether everything was relayed and acknowledged, by the ids of the messages. -/
def settled (s : Platform world) : Bool :=
  decide (s.bus.map fun m => m.envelope.id).Nodup && decide ((rows s).map (·.eventId)).Nodup &&
    (rows s).all (fun o => s.bus.any fun m => m.origin.isSome && m.envelope.id = o.eventId) &&
    s.bus.all fun m =>
      ((Workers.entry m.envelope.type).isNone ||
        s.audits.acked.any fun e => e.id = m.envelope.id) &&
      outlets.all fun outlet =>
        match outlet with
        | .audits => true
        | .jobs role => m.envelope.type ≠ (role.service world).requested ||
            (s.jobs role).acked.any fun e => e.id = m.envelope.id

/-- The worker a step is about, where it is about one. -/
def actor : Label world → Option Nat
  | .audit label => Acknowledgement.actor label
  | .work _ label => AckedJobs.actor label
  | .handAudit n _ | .handJob _ n _ => some n
  | .relay _ _ _ | .publish _ => none

theorem idle_of_untouched (run : Run (step world) Platform.initial past s) (m : Nat)
    (hpast : ∀ moment ∈ past, actor moment.2 ≠ some m) :
    (s.audits.workers m).job = none ∧ ∀ role, ((s.jobs role).workers m).job = none := by
  constructor
  · obtain ⟨own, haudits, hlabels⟩ := audits_of_run run
    refine Acknowledgement.idle_of_untouched haudits m fun moment hmoment => ?_
    obtain ⟨whole, hwhole, hfor⟩ := hlabels moment hmoment
    have hactor := hpast whole hwhole
    generalize moment.2 = ownLabel at hfor
    generalize whole.2 = wholeLabel at hfor hactor
    cases hfor <;> exact hactor
  · intro role
    obtain ⟨own, hjobs, hlabels⟩ := jobs_of_run run role
    refine AckedJobs.idle_of_untouched hjobs m fun moment hmoment => ?_
    obtain ⟨whole, hwhole, hfor⟩ := hlabels moment hmoment
    have hactor := hpast whole hwhole
    generalize moment.2 = ownLabel at hfor
    generalize whole.2 = wholeLabel at hfor hactor
    cases hfor <;> exact hactor

theorem known_of_acked {known : Platform world} (hkept : Kept known s) {e : Envelope} :
    (e ∈ s.audits.acked → Known known e) ∧ ∀ role, e ∈ (s.jobs role).acked → Known known e :=
  ⟨fun he => (hkept.handled.1.acked e he).1, fun role he => ((hkept.jobs role).2.acked e he).1⟩

theorem quiet_of_settled (hkept : Kept s s) (hsettled : settled s = true)
    (hidle : ∀ n, (s.audits.workers n).job = none ∧ ∀ role, ((s.jobs role).workers n).job = none) :
    Quiet s := by
  simp only [settled, Bool.and_eq_true, decide_eq_true_eq, List.all_eq_true, List.any_eq_true,
    Bool.or_eq_true, Option.isNone_iff_eq_none] at hsettled
  obtain ⟨⟨⟨hmessages, hrows⟩, hrelayed⟩, hacked⟩ := hsettled
  have hrow : ∀ {outlet o}, o ∈ s.outbox outlet → o ∈ rows s := fun {outlet} o ho =>
    List.mem_flatMap.mpr ⟨outlet, mem_outlets outlet, ho⟩
  -- An acknowledged message with the id of one on the bus is that one.
  have hsame : ∀ m ∈ s.bus, ∀ e, Known s e → e.id = m.envelope.id → e = m.envelope := by
    rintro m hm _ ⟨m', hm', rfl⟩ hid
    rw [List.inj_on_of_nodup_map hmessages hm' hm hid]
  refine ⟨fun outlet o ho => ?_, fun m hm hentry => ?_, fun m hm role htype => ?_,
    fun n => (hidle n).1, fun role n => (hidle n).2 role⟩
  · obtain ⟨m, hm, horigin, hid⟩ := hrelayed o (hrow ho)
    obtain ⟨o', ho'⟩ := Option.isSome_iff_exists.mp horigin
    obtain ⟨⟨outlet', hmem⟩, clock, henvelope⟩ := hkept.sourced.origins m hm o' ho'
    rw [henvelope] at hid
    refine ⟨m, hm, ho'.trans (congrArg some ?_)⟩
    exact List.inj_on_of_nodup_map hrows (hrow hmem) (hrow ho) hid
  · obtain ⟨e, he, hid⟩ := (hacked m hm).1.resolve_left fun hnone => by
      rw [hnone] at hentry
      contradiction
    exact hsame m hm e ((known_of_acked hkept).1 he) hid ▸ he
  · have hasked := (hacked m hm).2 (.jobs role) (mem_outlets _)
    simp only [ne_eq, htype, not_true_eq_false, decide_false, Bool.false_or,
      List.any_eq_true, decide_eq_true_eq] at hasked
    obtain ⟨e, he, hid⟩ := hasked
    exact hsame m hm e ((known_of_acked hkept).2 role he) hid ▸ he

/-- A platform for texts in ASCII. -/
def plainWorld : World where
  env := Workers.asciiEnv
  server := AckedJobs.openServer
  sqrt := id
  pageId := id
  unicode := Shared.Text.plainUnicode
  reader := InternalLinks.Reported.plainReader
  isDigit := Char.isDigit
  setOrder := id
  repr _ := ""

/-- A crawl that does not reach its site. -/
def timedOut : JobWorker.Choice (Role.crawls.service plainWorld) where
  faults := []
  uuid := "drawn"
  given := .error "timeout"
  ids _ := "event"

/-- A server without a language model. -/
def rulesOnly (eventId : String) : Workers.Choice :=
  { Workers.drawn eventId with written := .ok [("source", .str "rules")] }

/-- An audit is asked for, and its crawl fails. The audit fails, says so, and keeps the summary
it has. -/
def failedAudit : List (Label plainWorld) :=
  [.publish (Workers.auditRequest "m" Workers.oneSite), .handAudit 0 0] ++
    List.replicate 7 (.audit (.run 0 (rulesOnly "e"))) ++
    [.relay .audits 0 5, .handJob .crawls 0 1] ++
    List.replicate 4 (.work .crawls (.run 0 timedOut)) ++
    [.relay (.jobs .crawls) 0 6, .handAudit 0 2] ++
    List.replicate 3 (.audit (.run 0 (rulesOnly "f"))) ++
    [.relay .audits 1 7, .handAudit 0 3, .audit (.run 0 (rulesOnly "g"))]

/-- Whether a step leaves every handler at its work. -/
def keeps (s : Platform world) : Label world → Bool
  | .audit label => Acknowledgement.keeps world.env s.audits label
  | .work role label => AckedJobs.spares world.server world.env.wording (s.jobs role) label
  | .handAudit _ _ | .handJob _ _ _ | .relay _ _ _ | .publish _ => true

theorem not_loses_of_keeps (h : keeps s label = true) : ¬ Loses s label := by
  cases label with
  | audit label => exact Acknowledgement.not_cutsOff_of_keeps h
  | work role label => exact AckedJobs.not_abandons_of_spares h
  | handAudit | handJob | relay | publish => exact id

/-- Whether the ids of a run on the plain platform are told apart. -/
def tellsApart (past : List (Platform plainWorld × Label plainWorld)) (s : Platform plainWorld) :
    Bool :=
  decide (s.bus.map fun m => m.envelope.id).Nodup &&
    s.audits.db.steps.rows.all (fun c => c.jobId ≠ "" && c.jobId ≠ "drawn") &&
    s.bus.all (fun m => m.origin.isSome || m.envelope.type = .workflowRequested) &&
    past.all fun moment =>
      match moment.2 with
      | .work _ (.run _ choice) => choice.uuid = "drawn"
      | _ => true

theorem fresh_of_tellsApart {past : List (Platform plainWorld × Label plainWorld)}
    {s : Platform plainWorld} (h : tellsApart past s = true) : Fresh past s := by
  simp only [tellsApart, Bool.and_eq_true, decide_eq_true_eq, List.all_eq_true,
    Bool.or_eq_true] at h
  obtain ⟨⟨⟨hids, hsteps⟩, horigins⟩, hdrawn⟩ := h
  refine ⟨fun m hm m' hm' hid => ?_, fun c hc => ⟨(hsteps c hc).1, rfl⟩,
    fun m hm horigin role htype => ?_, fun moment hmem role n choice hlabel c hc heq => ?_⟩
  · rw [List.inj_on_of_nodup_map hids hm hm' hid]
    exact ⟨rfl, rfl, rfl⟩
  · have hrequested := (horigins m hm).resolve_left (by simp [horigin])
    rw [hrequested] at htype
    cases role <;> contradiction
  · have huuid := hdrawn moment hmem
    rw [hlabel] at huuid
    have hname : choice.uuid = c.jobId := Option.some.inj heq
    exact (hsteps c hc).2 (hname.symm.trans (of_decide_eq_true huuid))

/-- Whether the first worker of everybody is idle. -/
def rests (s : Platform world) : Bool :=
  outlets.all fun outlet =>
    match outlet with
    | .audits => (s.audits.workers 0).job.isNone
    | .jobs role => ((s.jobs role).workers 0).job.isNone

theorem idle_of_rests (run : Run (step world) Platform.initial past s)
    (hactors : ∀ moment ∈ past, ∀ n, actor moment.2 = some n → n = 0) (hrests : rests s = true)
    (n : Nat) :
    (s.audits.workers n).job = none ∧ ∀ role, ((s.jobs role).workers n).job = none := by
  rcases eq_or_ne n 0 with rfl | hn
  · have hall := List.all_eq_true.mp hrests
    exact ⟨Option.isNone_iff_eq_none.mp (hall .audits (mem_outlets _)),
      fun role => Option.isNone_iff_eq_none.mp (hall (.jobs role) (mem_outlets _))⟩
  · exact idle_of_untouched run n fun moment hmem hactor => hn (hactors moment hmem n hactor)

theorem quiet_has_ended_failedAudit :
    ∃ (past : List (Platform plainWorld × Label plainWorld)) (s : Platform plainWorld),
      past.map Prod.snd = failedAudit ∧ Quiet s ∧
      s.audits.db.workflows.rows.map (·.status) = [.failed] ∧
      (∀ m ∈ s.bus, m.envelope.type = .workflowRequested → Started s.audits.db m.envelope) ∧
      ∀ row ∈ s.audits.db.workflows.rows, row.status.Terminal := by
  obtain ⟨past, s, hlabels, run, hcheck⟩ :=
    Run.of_check (step plainWorld) Platform.initial failedAudit
      (fun past s => tellsApart past s && past.all (fun moment => keeps moment.1 moment.2) &&
        settled s && rests s && s.audits.db.workflows.rows.map (·.status) = [.failed])
      (by decide +kernel)
  simp only [Bool.and_eq_true, decide_eq_true_eq] at hcheck
  obtain ⟨⟨⟨⟨htold, hkeeps⟩, hsettled⟩, hrests⟩, hstatus⟩ := hcheck
  have hactors : ∀ moment ∈ past, ∀ n, actor moment.2 = some n → n = 0 := by
    intro moment hmem n hactor
    have hlabel : moment.2 ∈ failedAudit := hlabels ▸ List.mem_map_of_mem hmem
    have hone := List.all_eq_true.mp
      (show failedAudit.all (fun label => (actor label).all (· = 0)) = true by decide +kernel)
      _ hlabel
    rw [hactor] at hone
    exact of_decide_eq_true hone
  have hfresh := fresh_of_tellsApart htold
  have hsteps : ∀ moment ∈ past, ¬ Loses moment.1 moment.2 := fun moment hmem =>
    not_loses_of_keeps (List.all_eq_true.mp hkeeps moment hmem)
  have hquiet := quiet_of_settled (kept_of_run run hfresh hsteps) hsettled
    (idle_of_rests run hactors hrests)
  exact ⟨past, s, hlabels, hquiet, hstatus, quiet_has_ended run hfresh hsteps hquiet⟩

end Checks

end SeoPlatform.Interplay.Quiescence
