import SeoPlatform.Orchestrator.Frames
import SeoPlatform.Orchestrator.HandlerOutcomes

namespace SeoPlatform.Orchestrator.Soundness

open SeoPlatform.Foundation.JsonValue
open SeoPlatform.Foundation.SqlTransaction
open SeoPlatform.Foundation.TransitionSystem
open SeoPlatform.Orchestrator.Planner
open SeoPlatform.Orchestrator.Store
open SeoPlatform.Orchestrator.StoreSpecs
open SeoPlatform.Orchestrator.Engine
open SeoPlatform.Orchestrator.AdvanceOutcomes
open SeoPlatform.Orchestrator.Snapshots
open SeoPlatform.Orchestrator.Workers
open SeoPlatform.Orchestrator.Changes
open SeoPlatform.Orchestrator.HandlerOutcomes
open SeoPlatform.Orchestrator.Refinement
open SeoPlatform.Orchestrator.Coherence
open SeoPlatform.Orchestrator.Frames
open SeoPlatform.Shared.Contracts
open SeoPlatform.Shared.Exceptions
open SeoPlatform.Shared.Events

/-- What is known about a message that reaches a handler. -/
def Envelope.Allowed (traffic : Traffic) (e : Envelope) : Prop :=
  ((completions e.type).isSome → traffic.completion e.type e.payload) ∧
    (e.type = .workflowRequested → Valid .workflowRequested e.payload →
      ∀ uuid, traffic.request (startRequest e uuid))

/-- What is known about a label of a run. -/
def Label.Allowed (traffic : Traffic) : Label → Prop
  | .deliver _ e => Envelope.Allowed traffic e
  | .submit _ request => traffic.request request
  | .run _ _ | .crash _ | .tick => True

/-- What a handler at a stage may rely on. A snapshot that `advance` will act
on is still what the tables hold. -/
def StageOk (traffic : Traffic) (db : Db) (e : Option Envelope) : Stage → Prop
  | .starting => ∀ e', e = some e' → Valid .workflowRequested e'.payload →
      ∀ uuid, traffic.request (startRequest e' uuid)
  | .creating request => traffic.request request
  | .rereading workflowId | .queued workflowId => Unstarted db workflowId
  | .completing => ∀ e', e = some e' → traffic.completion e'.type e'.payload
  | .advancing workflowId _ => Begun db workflowId
  | .locked workflowId _ loaded => Begun db workflowId ∧
      ∀ w, loaded = some w → Actionable w → snapshot db workflowId = some w
  | .closing _ | .summarising | .writing _ _ => True

/-- The workflow a stage's transaction may write. -/
def Stage.target : Stage → Option String
  | .queued workflowId | .locked workflowId _ (some _) | .writing workflowId _ => some workflowId
  | _ => none

/-- The workflow whose `start` is under way, before its `advance`. -/
def Stage.starts : Stage → Option String
  | .rereading workflowId | .queued workflowId => some workflowId
  | _ => none

/-- From which stage the stages that claim something for themselves are entered. -/
def Follows (db : Db) (stage : Stage) : Stage → Prop
  | .rereading workflowId => ∃ request, stage = .creating request ∧
      request.workflowId = workflowId ∧ ∀ row ∈ db.workflows.rows, row.id ≠ workflowId
  | .queued workflowId => stage = .rereading workflowId
  | .locked workflowId fresh _ => stage = .advancing workflowId fresh
  | _ => True

/-- What the next transaction of a handler does. -/
structure Effect (env : Env) (traffic : Traffic) (db : Db) (e : Option Envelope) (stage : Stage)
    (next : Next) (db' : Db) : Prop where
  change : Change env traffic db db'
  stageOk : ∀ stage', next = .goto stage' → StageOk traffic db' e stage'
  follows : ∀ stage', next = .goto stage' → Follows db stage stage'
  frame : ∀ workflowId, (∃ row ∈ db.workflows.rows, row.id = workflowId) →
    (∀ r ∈ db.steps.rows, r.workflowId = workflowId → r.status ≠ .dispatched) →
    Stage.target stage ≠ some workflowId → SameRows workflowId db db'

variable {env : Env} {traffic : Traffic} {db db' : Db} {e : Option Envelope} {stage : Stage}

/-- A step that leaves the tables. -/
theorem Effect.quiet {next : Next}
    (hok : ∀ stage', next = .goto stage' → StageOk traffic db e stage')
    (hfollows : ∀ stage', next = .goto stage' → Follows db stage stage') :
    Effect env traffic db e stage next db where
  change := .quiet rfl rfl rfl
  stageOk := hok
  follows := hfollows
  frame workflowId _ _ _ := .refl workflowId db

theorem closing_of_afterwards {workflowId : String} {fresh : Bool} {stage' : Stage}
    (h : (if fresh then Next.goto (.closing workflowId) else .returned) = .goto stage') :
    stage' = .closing workflowId := by
  split at h
  · cases h
    rfl
  · contradiction

theorem advancing_of_afterMark {hit : Option String} {stage' : Stage}
    (h : afterMark hit = .goto stage') :
    ∃ workflowId, hit = some workflowId ∧ stage' = .advancing workflowId false := by
  cases hit with
  | none => contradiction
  | some workflowId =>
      cases h
      exact ⟨workflowId, rfl, rfl⟩

theorem effect_of_create {request : StartRequest} {choice : Choice} {steps : List PlannedStep}
    (hok : StageOk traffic db e (.creating request))
    (hplan : plan env.rules request.goal request.inputs choice.jobIds = .ok steps)
    (hcreated : Created request.workflowId request.goal request.inputs steps request.tenantId
      request.projectId db db') :
    Effect env traffic db e (.creating request) (.goto (.rereading request.workflowId)) db' where
  change := .created hok hplan hcreated
  stageOk := by
    rintro stage' ⟨⟩
    exact ⟨_, (mem_workflows_created hcreated).mpr (.inr rfl), rfl, rfl⟩
  follows := by
    rintro stage' ⟨⟩
    exact ⟨request, rfl, rfl, id_fresh_of_created hcreated⟩
  frame _ hexists _ _ := sameRows_of_created hcreated hexists

theorem effect_of_begun {workflowId : String} (hok : StageOk traffic db e (.queued workflowId)) :
    Effect env traffic db e (.queued workflowId) (.goto (.advancing workflowId true))
      (statusWritten db workflowId .running none none []) where
  change := .started hok
  stageOk := by
    rintro stage' ⟨⟩
    obtain ⟨row, hrow, hid, -⟩ := hok
    refine ⟨_, mem_workflows_statusWritten.mpr ⟨row, hrow, rfl⟩, by simpa using hid, ?_⟩
    rw [withStatusWhere_of_eq hid]
    simp [WorkflowRow.withStatus]
  follows := by
    rintro stage' ⟨⟩
    trivial
  frame other _ _ htarget := by
    exact sameRows_statusWritten (fun heq => htarget (by rw [heq]; rfl)) _ _ _ _

theorem effect_of_marked {e' : Envelope} {c : Completion} (hcoherent : Coherent db)
    (hok : StageOk traffic db (some e') .completing)
    (hread : readCompletion env e'.type e'.payload = .ok c) :
    Effect env traffic db (some e') .completing
      (afterMark ((db.steps.rows.find? fun r => r.jobId = c.jobId ∧ r.status = .dispatched).map
        StepRow.workflowId))
      (db.updateStep c.jobId .dispatched ⟨c.status, some (some c.result), some c.error⟩) where
  change := .marked (hok e' rfl) hread
  stageOk stage' hstage := by
    obtain ⟨workflowId, hhit, rfl⟩ := advancing_of_afterMark hstage
    obtain ⟨r, hfind, rfl⟩ := Option.map_eq_some_iff.mp hhit
    have hr := List.mem_of_find?_eq_some hfind
    have hstatus : r.jobId = c.jobId ∧ r.status = .dispatched := by
      simpa using List.find?_some hfind
    obtain ⟨row, hrow, hid⟩ := hcoherent.owned r hr
    refine ⟨row, hrow, hid, fun hqueued => ?_⟩
    have hpending := hcoherent.queued row hrow hqueued r hr hid.symm
    rw [hstatus.2] at hpending
    contradiction
  follows stage' hstage := by
    obtain ⟨workflowId, -, rfl⟩ := advancing_of_afterMark hstage
    trivial
  frame workflowId _ hidle _ :=
    sameRows_updateStep _ fun r hr hworkflow hmatch => hidle r hr hworkflow hmatch.2

theorem effect_of_advanced {workflowId : String} {fresh : Bool} {w : Workflow} {choice : Choice}
    (hfresh : freshEventId db choice.eventId = true)
    (hok : StageOk traffic db e (.locked workflowId fresh (some w))) (hact : Actionable w)
    (hadvances : Advances env choice.eventId workflowId w db db') :
    Effect env traffic db e (.locked workflowId fresh (some w))
      (if fresh then .goto (.closing workflowId) else .returned) db' := by
  obtain ⟨⟨row, hrow, hid, hbegun⟩, hcurrent⟩ := hok
  have hsnapshot := hcurrent w rfl hact
  have hstatus : w.status ≠ .queued := by
    obtain ⟨own, hown, hid', rfl⟩ := snapshot_eq_some.mp hsnapshot
    rw [eq_of_id hrow hown (hid.trans hid'.symm)] at hbegun
    exact hbegun
  have hfresh' : ∀ row ∈ db.outbox.rows, row.eventId ≠ choice.eventId := by
    simpa [freshEventId] using hfresh
  refine ⟨.advanced hfresh' hsnapshot hstatus hact hadvances, ?_, ?_, ?_⟩
  · intro stage' hstage
    rw [closing_of_afterwards hstage]
    trivial
  · intro stage' hstage
    rw [closing_of_afterwards hstage]
    trivial
  · intro other _ _ htarget
    exact sameRows_of_advances hsnapshot (fun heq => htarget (by rw [heq]; rfl)) hadvances

/-- What an outcome means for the tables and for the handlers. -/
theorem effect_of_outcome {choice : Choice} {next : Next} (hcoherent : Coherent db)
    (hfresh : Stage.drawsEventId stage = true → freshEventId db choice.eventId = true)
    (hok : StageOk traffic db e stage) (h : Outcome env db e choice stage next db') :
    Effect env traffic db e stage next db' := by
  cases h with
  | raised | known | closed | unwritten => exact .quiet (by simp) (by simp)
  | requested he hvalid =>
      refine .quiet ?_ ?_
      · rintro stage' ⟨⟩
        exact hok _ he hvalid choice.uuid
      · rintro stage' ⟨⟩
        trivial
  | created hplan hcreated => exact effect_of_create hok hplan hcreated
  | reread =>
      refine .quiet ?_ ?_
      · rintro stage' ⟨⟩
        exact hok
      · rintro stage' ⟨⟩
        rfl
  | begun => exact effect_of_begun hok
  | marked he hread =>
      subst he
      exact effect_of_marked hcoherent hok hread
  | claimed =>
      refine .quiet ?_ ?_
      · rintro stage' ⟨⟩
        exact ⟨hok, fun w hw _ => hw⟩
      · rintro stage' ⟨⟩
        rfl
  | waited _ =>
      refine .quiet ?_ ?_ <;>
      · intro stage' hstage
        rw [closing_of_afterwards hstage]
        trivial
  | advanced hact hadvances => exact effect_of_advanced (hfresh rfl) hok hact hadvances
  | written =>
      refine .quiet ?_ ?_ <;>
      · rintro stage' ⟨⟩
        trivial
  | @saved workflowId summary =>
      refine ⟨.summarised workflowId summary, by simp, by simp, ?_⟩
      intro other _ _ htarget
      exact sameRows_updateSummary (fun heq => htarget (by rw [heq]; rfl)) summary

end SeoPlatform.Orchestrator.Soundness
