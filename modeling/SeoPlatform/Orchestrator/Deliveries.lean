import SeoPlatform.Orchestrator.Interleavings

namespace SeoPlatform.Orchestrator.Deliveries

open SeoPlatform.Foundation.JsonValue
open SeoPlatform.Foundation.TransitionSystem
open SeoPlatform.Orchestrator.Planner
open SeoPlatform.Orchestrator.Store
open SeoPlatform.Orchestrator.Engine
open SeoPlatform.Orchestrator.Workers
open SeoPlatform.Orchestrator.Changes
open SeoPlatform.Orchestrator.Soundness
open SeoPlatform.Orchestrator.Interleavings
open SeoPlatform.Shared.Contracts
open SeoPlatform.Shared.Events

/-- The messages a run delivers. -/
def delivered (past : List (System × Label)) : Traffic where
  completion type payload :=
    ∃ moment ∈ past, ∃ n e, moment.2 = .deliver n e ∧ e.type = type ∧ e.payload = payload
  request _ := True

theorem carries_delivered (past : List (System × Label)) : Carries (delivered past) past := by
  intro moment hmem
  cases hlabel : moment.2 with
  | deliver n e =>
      exact ⟨fun _ => ⟨moment, hmem, n, e, hlabel, rfl, rfl⟩, fun _ _ _ => trivial⟩
  | submit n request => trivial
  | run | crash | tick => trivial

/-- A completion delivered in a run: its type, its payload, and the kind of
step and the id field the engine reads it by. -/
def DeliveredCompletion (past : List (System × Label)) (type : EventType) (payload : Dict)
    (kind : StepKind) (idField : String) : Prop :=
  (delivered past).completion type payload ∧ completions type = some (kind, idField)

/-- Every completion delivered in the run keeps its contract. -/
def ContractValid (past : List (System × Label)) : Prop :=
  ∀ type payload kind idField, DeliveredCompletion past type payload kind idField →
    Valid type payload

theorem message_of_delivered {past : List (System × Label)} {labels : List Label}
    {type : EventType} {payload : Dict} {kind : StepKind} {idField : String}
    (hpast : past.map Prod.snd = labels) (h : DeliveredCompletion past type payload kind idField) :
    ∃ n e, Label.deliver n e ∈ labels ∧ e.type = type ∧ e.payload = payload ∧
      completions type = some (kind, idField) := by
  obtain ⟨⟨moment, hmem, n, e, hlabel, htype, hpayload⟩, hkind⟩ := h
  refine ⟨n, e, ?_, htype, hpayload, hkind⟩
  rw [← hpast, ← hlabel]
  exact List.mem_map_of_mem hmem

/-- Whether a message keeps its contract, where it is a completion. -/
def keepsContract : Label → Bool
  | .deliver _ e =>
      (completions e.type).isNone || (eventSchema e.type).schema (.obj e.payload)
  | _ => true

theorem contractValid_of_labels {past : List (System × Label)} {labels : List Label}
    (hpast : past.map Prod.snd = labels) (h : labels.all keepsContract = true) :
    ContractValid past := by
  intro type payload kind idField hdelivered
  obtain ⟨n, e, hmessage, rfl, rfl, hkind⟩ := message_of_delivered hpast hdelivered
  have hchecked := List.all_eq_true.mp h _ hmessage
  simp only [keepsContract, hkind, Option.isNone_some, Bool.false_or] at hchecked
  exact hchecked

end SeoPlatform.Orchestrator.Deliveries
