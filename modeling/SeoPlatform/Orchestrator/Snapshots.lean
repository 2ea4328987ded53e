import SeoPlatform.Orchestrator.AdvanceOutcomes

namespace SeoPlatform.Orchestrator.Snapshots

open SeoPlatform.Foundation.ConstrainedTable
open SeoPlatform.Orchestrator.Store
open SeoPlatform.Orchestrator.StoreSpecs
open SeoPlatform.Orchestrator.Engine
open SeoPlatform.Orchestrator.AdvanceOutcomes

theorem byPosition_perm (steps : List Step) : (byPosition steps).Perm steps :=
  List.perm_insertionSort _ steps

theorem mem_byPosition {steps : List Step} {s : Step} : s ∈ byPosition steps ↔ s ∈ steps :=
  (byPosition_perm steps).mem_iff

theorem byPosition_sorted (steps : List Step) :
    (byPosition steps).Pairwise fun a b => a.position ≤ b.position := by
  have htotal : Std.Total fun a b : Step => a.position ≤ b.position :=
    ⟨fun a b => Nat.le_total a.position b.position⟩
  have htrans : IsTrans Step fun a b => a.position ≤ b.position :=
    ⟨fun _ _ _ h h' => Nat.le_trans h h'⟩
  exact List.pairwise_insertionSort _ steps

/-- The first step of a kind in the order of the positions. -/
theorem find?_byPosition {steps : List Step} {p : Step → Bool} {s : Step}
    (h : (byPosition steps).find? p = some s) :
    s ∈ steps ∧ p s = true ∧ ∀ t ∈ steps, p t = true → s.position ≤ t.position := by
  obtain ⟨hp, before, rest, hlist, hbefore⟩ := List.find?_eq_some_iff_append.mp h
  refine ⟨mem_byPosition.mp (List.mem_of_find?_eq_some h), hp, fun t ht hpt => ?_⟩
  have hsorted := byPosition_sorted steps
  rw [hlist] at hsorted
  have ht' : t ∈ before ++ s :: rest := hlist ▸ mem_byPosition.mpr ht
  rcases List.mem_append.mp ht' with hmem | hmem
  · have hnot := hbefore t hmem
    simp [hpt] at hnot
  · rcases List.mem_cons.mp hmem with rfl | hmem
    · exact Nat.le_refl _
    · exact (List.pairwise_cons.mp (List.pairwise_append.mp hsorted).2.1).1 t hmem

theorem nextPending_eq_some {w : Workflow} {s : Step} (h : w.nextPending = some s) :
    s ∈ w.steps ∧ s.status = .pending ∧
      ∀ t ∈ w.steps, t.status = .pending → s.position ≤ t.position := by
  obtain ⟨hs, hp, hfirst⟩ := find?_byPosition h
  exact ⟨hs, by simpa using hp, fun t ht hpending => hfirst t ht (by simpa using hpending)⟩

theorem nextPending_eq_none {w : Workflow} (h : w.nextPending = none) :
    ∀ t ∈ w.steps, t.status ≠ .pending := by
  intro t ht hpending
  exact List.find?_eq_none.mp h t (mem_byPosition.mpr ht) (by simpa using hpending)

theorem sameWorkflow_symm (a b : WorkflowRow) (h : SameWorkflow a b) : SameWorkflow b a :=
  Eq.symm h

theorem workflow?_eq_some {db : Db} {workflowId : String} {row : WorkflowRow} :
    db.workflow? workflowId = some row ↔ row ∈ db.workflows.rows ∧ row.id = workflowId := by
  unfold Db.workflow?
  constructor
  · intro h
    exact ⟨List.mem_of_find?_eq_some h, by simpa using List.find?_some h⟩
  · rintro ⟨hrow, hid⟩
    refine db.workflows.find?_eq_some_of_unique hrow (by simp [hid]) fun other hother hp => ?_
    refine db.workflows.eq_of_clash sameWorkflow_symm hother hrow ?_
    have hother' : other.id = workflowId := by simpa using hp
    exact hother'.trans hid.symm

theorem eq_of_id {db : Db} {a b : WorkflowRow} (ha : a ∈ db.workflows.rows)
    (hb : b ∈ db.workflows.rows) (h : a.id = b.id) : a = b :=
  db.workflows.eq_of_clash sameWorkflow_symm ha hb h

theorem mem_stepsOf {db : Db} {workflowId : String} {s : Step} :
    s ∈ db.stepsOf workflowId ↔
      ∃ r ∈ db.steps.rows, r.workflowId = workflowId ∧ r.toStep = s := by
  unfold Db.stepsOf
  rw [mem_byPosition]
  simp [and_assoc]

theorem snapshot_eq_some {db : Db} {workflowId : String} {w : Workflow} :
    snapshot db workflowId = some w ↔
      ∃ row ∈ db.workflows.rows, row.id = workflowId ∧
        w = row.toWorkflow (db.stepsOf workflowId) := by
  unfold snapshot
  rw [Option.map_eq_some_iff]
  constructor
  · rintro ⟨row, hrow, rfl⟩
    obtain ⟨hmem, hid⟩ := workflow?_eq_some.mp hrow
    exact ⟨row, hmem, hid, rfl⟩
  · rintro ⟨row, hmem, hid, rfl⟩
    exact ⟨row, workflow?_eq_some.mpr ⟨hmem, hid⟩, rfl⟩

theorem workflowId_of_snapshot {db : Db} {workflowId : String} {w : Workflow}
    (h : snapshot db workflowId = some w) : w.workflowId = workflowId := by
  obtain ⟨row, -, hid, rfl⟩ := snapshot_eq_some.mp h
  exact hid

theorem steps_of_snapshot {db : Db} {workflowId : String} {w : Workflow}
    (h : snapshot db workflowId = some w) : w.steps = db.stepsOf workflowId := by
  obtain ⟨row, -, -, rfl⟩ := snapshot_eq_some.mp h
  rfl

theorem mem_steps_of_snapshot {db : Db} {workflowId : String} {w : Workflow}
    (h : snapshot db workflowId = some w) {s : Step} :
    s ∈ w.steps ↔ ∃ r ∈ db.steps.rows, r.workflowId = workflowId ∧ r.toStep = s := by
  rw [steps_of_snapshot h, mem_stepsOf]

/-- The rows of one workflow, all `snapshot` reads. -/
structure SameRows (workflowId : String) (db db' : Db) : Prop where
  workflow : db'.workflow? workflowId = db.workflow? workflowId
  steps : (db'.steps.rows.filter fun r => r.workflowId = workflowId) =
    db.steps.rows.filter fun r => r.workflowId = workflowId

theorem SameRows.refl (workflowId : String) (db : Db) : SameRows workflowId db db := ⟨rfl, rfl⟩

theorem SameRows.trans {workflowId : String} {db db' db'' : Db}
    (h : SameRows workflowId db db') (h' : SameRows workflowId db' db'') :
    SameRows workflowId db db'' :=
  ⟨h'.workflow.trans h.workflow, h'.steps.trans h.steps⟩

theorem SameRows.snapshot_eq {workflowId : String} {db db' : Db}
    (h : SameRows workflowId db db') : snapshot db' workflowId = snapshot db workflowId := by
  have hsteps : db'.stepsOf workflowId = db.stepsOf workflowId := by
    unfold Db.stepsOf
    rw [h.steps]
  unfold snapshot
  rw [h.workflow, hsteps]

end SeoPlatform.Orchestrator.Snapshots
