import SeoPlatform.Services.JobOwners

namespace SeoPlatform.Services.HandledRequests

open SeoPlatform.Foundation.JsonValue
open SeoPlatform.Foundation.TransitionSystem
open SeoPlatform.Services.AckedJobs
open SeoPlatform.Services.JobOwners
open SeoPlatform.Services.JobWorker
open SeoPlatform.Services.Runs
open SeoPlatform.Shared.Contracts
open SeoPlatform.Shared.Events
open SeoPlatform.Shared.JobSpecs
open SeoPlatform.Shared.PostgresStore

variable {service : Service} {server : Server} {wording : Wording} {s s' : System service}
  {label : Label service} {n : Nat} {e : Envelope} {known : Envelope → Prop}

section Accounts

/-- Messages with equal ids ask for one job. -/
theorem accounted_deliver_of_alike
    (halike : ∀ a b, known a → known b → a.id = b.id → a.payload = b.payload)
    (h : Accounted server known s) (he : known e) (hstep : deliver s n e = some s') :
    Accounted server known s' := by
  unfold deliver at hstep
  split at hstep
  · contradiction
  · split at hstep
    · rename_i hseen
      obtain rfl := Option.some.inj hstep
      obtain ⟨before, hbefore, hid⟩ := h.seen n _ hseen
      obtain ⟨hknown, uuid, id, record, hasked, hrecord⟩ := h.acked before hbefore
      rw [halike before e hknown he hid] at hasked
      refine ⟨h.asked, h.carried, fun e' he' => ?_, fun m id hid => ?_⟩
      · rcases List.mem_cons.mp he' with rfl | he'
        · exact ⟨he, uuid, id, record, hasked, hrecord⟩
        · exact h.acked e' he'
      · obtain ⟨e', he', hsame⟩ := h.seen m id hid
        exact ⟨e', List.mem_cons_of_mem _ he', hsame⟩
    · obtain rfl := Option.some.inj hstep
      have hat : ∀ m e' stage, At (s.setWorker n { (s.workers n) with job := some (e, .starting) })
          m e' stage → At s m e' stage ∨ e' = e ∧ picked stage = none := by
        intro m e' stage hat
        by_cases hm : m = n
        · subst hm
          simp only [At, setWorker_same, Option.some.injEq, Prod.mk.injEq] at hat
          obtain ⟨rfl, rfl⟩ := hat
          exact .inr ⟨rfl, rfl⟩
        · rw [At, setWorker_other hm] at hat
          exact .inl hat
      refine ⟨fun m e' stage jobId hafter hpicked => ?_, fun m e' stage hafter => ?_, h.acked,
        fun m id hid => ?_⟩
      · rcases hat m e' stage hafter with hbefore | ⟨-, hnone⟩
        · exact h.asked m e' stage jobId hbefore hpicked
        · rw [hnone] at hpicked
          contradiction
      · rcases hat m e' stage hafter with hbefore | ⟨rfl, -⟩
        · exact h.carried m e' stage hbefore
        · exact he
      · by_cases hm : m = n
        · subst hm
          rw [setWorker_same] at hid
          exact h.seen m id hid
        · rw [setWorker_other hm] at hid
          exact h.seen m id hid

theorem accounted_step_of_alike
    (halike : ∀ a b, known a → known b → a.id = b.id → a.payload = b.payload)
    (h : Accounted server known s) (hknown : ∀ n e, label = .deliver n e → known e)
    (hstep : step server wording s label = some s') : Accounted server known s' := by
  cases label with
  | deliver n e => exact accounted_deliver_of_alike halike h (hknown n e rfl) hstep
  | crash n =>
      obtain rfl := Option.some.inj hstep
      exact accounted_idle h
  | tick =>
      obtain rfl := Option.some.inj hstep
      exact ⟨h.asked, h.carried, h.acked, h.seen⟩
  | run n choice =>
      obtain ⟨e, stage, hat, -, rfl⟩ := runStep_cases hstep
      exact accounted_run h hat (effect_of_handlerStep server wording s.db e choice stage)

end Accounts

section Answers

variable {id : String} {asked : Prop}

/-- A handler has the id of a job in its own spelling. -/
def Exact (id : String) (e : Envelope) : Stage service → Prop
  | .starting => Dict.get? e.payload service.idField = some (.str id)
  | .creating jobId _ | .marking jobId _ | .working jobId _ => jobId = id

/-- Nobody works on a job, and no completion names it, unless it was asked for. -/
structure Answering (server : Server) (id : String) (asked : Prop) (s : System service) :
    Prop where
  begun : ∀ n e stage, At s n e stage → About server e id stage → asked ∧ Exact id e stage
  rows : ∀ row ∈ s.db.outbox.rows, row.eventType = service.completed →
    Names server service row.payload id →
      asked ∧ Dict.get? row.payload service.idField = some (.str id)

theorem answering_initial : Answering server id asked (System.initial : System service) where
  begun _ _ _ hat := nomatch hat
  rows _ hrow := nomatch hrow

/-- What is known of a step of the workers, when nobody else draws the id of a job. -/
def Asks (server : Server) (id : String) (asked : Prop) : Label service → Prop
  | .deliver _ e => e.type = service.requested → Names server service e.payload id →
      asked ∧ Dict.get? e.payload service.idField = some (.str id)
  | .run _ choice => server.uuid choice.uuid ≠ some id
  | .crash _ | .tick => True

theorem answering_run {choice : Choice service} {stage : Stage service} {next : Next service}
    {db' : JobDb} (hnamed : id ≠ "") (h : Answering server id asked s) (hat : At s n e stage)
    (hdrawn : server.uuid choice.uuid ≠ some id)
    (heffect : Effect server e choice s.db stage next db') :
    Answering server id asked (settle { s with db := db' } n e next) := by
  have hpicked : stage = .starting →
      server.uuid (requestedId service e.payload choice.uuid) = some id →
        asked ∧ requestedId service e.payload choice.uuid = id := by
    rintro rfl hid
    obtain ⟨hasked, hexact⟩ := h.begun n e .starting hat ((names_or_drawn hid).resolve_right hdrawn)
    exact ⟨hasked, requestedId_of_named hexact hnamed⟩
  suffices hall : (∀ stage', next = .goto stage' → About server e id stage' →
      asked ∧ Exact id e stage') ∧ ∀ row ∈ db'.outbox.rows, row.eventType = service.completed →
        Names server service row.payload id →
          asked ∧ Dict.get? row.payload service.idField = some (.str id) by
    refine ⟨fun m e' stage' hat' habout => ?_, by simpa using hall.2⟩
    rcases at_settle hat' with ⟨-, hbefore⟩ | ⟨-, rfl, hnext⟩
    · exact h.begun m e' stage' hbefore habout
    · exact hall.1 stage' hnext habout
  cases heffect with
  | raised | skipped => exact ⟨(fun _ hnext => nomatch hnext), h.rows⟩
  | absent request | present request =>
      refine ⟨?_, h.rows⟩
      rintro _ ⟨⟩ habout
      exact hpicked rfl habout
  | created hinserted =>
      refine ⟨?_, by rw [outbox_of_inserted hinserted]; exact h.rows⟩
      rintro _ ⟨⟩ habout
      have hbefore := h.begun n e _ hat habout
      exact hbefore
  | marked hended =>
      refine ⟨?_, by rw [hended.outbox]; exact h.rows⟩
      rintro _ ⟨⟩ habout
      have hbefore := h.begun n e _ hat habout
      exact hbefore
  | @finished jobId request written _ hended =>
      refine ⟨(fun _ hnext => nomatch hnext), fun row hrow htype hnames => ?_⟩
      rw [hended.outbox] at hrow
      rcases mem_stageAll hrow with hold | ⟨event, hevent, rfl⟩
      · exact h.rows row hold htype hnames
      · obtain ⟨named, hget, hid⟩ := hnames
        have hown := (mem_eventsOf hevent).1 htype
        obtain rfl := Json.str.inj (Option.some.inj (hget.symm.trans hown))
        obtain ⟨hasked, rfl⟩ := h.begun n e _ hat hid
        exact ⟨hasked, hget⟩

theorem answering_step (hnamed : id ≠ "") (h : Answering server id asked s)
    (hasks : Asks server id asked label) (hstep : step server wording s label = some s') :
    Answering server id asked s' := by
  cases label with
  | deliver n e =>
      change deliver s n e = some s' at hstep
      unfold deliver at hstep
      split at hstep
      · contradiction
      · rename_i hidle
        split at hstep
        · obtain rfl := Option.some.inj hstep
          exact ⟨h.begun, h.rows⟩
        · obtain rfl := Option.some.inj hstep
          refine ⟨fun m e' stage hat habout => ?_, h.rows⟩
          rcases eq_or_ne m n with rfl | hm
          · rw [At, setWorker_same, Option.some.injEq, Prod.mk.injEq] at hat
            obtain ⟨rfl, rfl⟩ := hat
            push Not at hidle
            exact hasks hidle.2 habout
          · rw [At, setWorker_other hm] at hat
            exact h.begun m e' stage hat habout
  | crash n =>
      obtain rfl := Option.some.inj hstep
      refine ⟨fun m e' stage hat habout => ?_, h.rows⟩
      rcases eq_or_ne m n with rfl | hm
      · rw [At, setWorker_same] at hat
        contradiction
      · rw [At, setWorker_other hm] at hat
        exact h.begun m e' stage hat habout
  | tick =>
      obtain rfl := Option.some.inj hstep
      exact ⟨h.begun, h.rows⟩
  | run n choice =>
      obtain ⟨e, stage, hat, -, rfl⟩ := runStep_cases hstep
      exact answering_run hnamed h hat hasks
        (effect_of_handlerStep server wording s.db e choice stage)

theorem answering_of_run (hnamed : id ≠ "") {past : List (System service × Label service)}
    (run : Run (step server wording) System.initial past s)
    (hasks : ∀ moment ∈ past, Asks server id asked moment.2) : Answering server id asked s :=
  run.invariant_of (fun _ label => Asks server id asked label) hasks (Answering server id asked)
    answering_initial fun _ _ _ h hlabel hstep => answering_step hnamed h hlabel hstep

end Answers

end SeoPlatform.Services.HandledRequests
