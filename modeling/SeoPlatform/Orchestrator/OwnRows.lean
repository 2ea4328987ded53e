import SeoPlatform.Orchestrator.Changes

namespace SeoPlatform.Orchestrator.OwnRows

open SeoPlatform.Foundation.JsonValue
open SeoPlatform.Foundation.ConstrainedTable
open SeoPlatform.Orchestrator.Planner
open SeoPlatform.Orchestrator.Store
open SeoPlatform.Orchestrator.Snapshots
open SeoPlatform.Orchestrator.Changes
open SeoPlatform.Shared.Events

/-- A tenant's rows, where the tenant's workflows go by the identifiers `mine`. -/
def ownRows (tenant : Option String) (mine : String → Bool) (db : Db) : Db where
  workflows := db.workflows.delete fun r => !mine r.id
  steps := db.steps.delete fun r => !mine r.workflowId
  outbox := db.outbox.delete fun o => !decide (o.tenantId = tenant)
  clock := db.clock

/-- The tenant's workflows go by the tenant's identifiers, and no others do. -/
def Sorted (tenant : Option String) (mine : String → Bool) (db : Db) : Prop :=
  ∀ r ∈ db.workflows.rows, r.tenantId = tenant ↔ mine r.id = true

/-- A workflow of the tenant is there, and an event identifier no other tenant's event has. -/
structure Claimed (tenant : Option String) (workflowId eventId : String) (db : Db) : Prop where
  there : ∃ r ∈ db.workflows.rows, r.id = workflowId ∧ r.tenantId = tenant
  events : ∀ o ∈ db.outbox.rows, o.eventId = eventId → o.tenantId = tenant

/-- The second tables are the tenant's part of the first. `claim` is the workflow and the
event identifier a transaction works under, if it does. -/
structure Mirrors (tenant : Option String) (mine : String → Bool)
    (claim : Option (String × String)) (s s' : Db) : Prop where
  own : s' = ownRows tenant mine s
  sorted : Sorted tenant mine s
  claimed : ∀ c ∈ claim, Claimed tenant c.1 c.2 s

section Restriction

variable {tenant : Option String} {mine : String → Bool}

theorem rows_delete_not {ρ : Type} {clash : ρ → ρ → Prop} (table : Table ρ clash)
    (keep : ρ → Bool) : (table.delete fun row => !keep row).rows = table.rows.filter keep := by
  unfold Table.delete
  simp

theorem find?_filter_of_imp {ρ : Type} (rows : List ρ) {keep p : ρ → Bool}
    (h : ∀ row, p row = true → keep row = true) : (rows.filter keep).find? p = rows.find? p := by
  rw [List.find?_filter]
  congr 1
  funext row
  by_cases hrow : p row = true
  · simp [hrow, h row hrow]
  · simp [hrow]

/-- Where one row at most meets a selection, it is found among the kept rows if it is kept. -/
theorem find?_filter_of_unique {ρ : Type} (rows : List ρ) (keep : ρ → Bool) {p : ρ → Bool}
    (hunique : ∀ a ∈ rows, ∀ b ∈ rows, p a = true → p b = true → a = b) :
    (rows.filter keep).find? p = (rows.find? p).filter keep := by
  induction rows with
  | nil => rfl
  | cons row rest ih =>
      have hrest := ih fun a ha b hb =>
        hunique a (List.mem_cons_of_mem _ ha) b (List.mem_cons_of_mem _ hb)
      by_cases hp : p row = true
      · by_cases hkeep : keep row = true
        · rw [List.filter_cons_of_pos hkeep, List.find?_cons_of_pos hp, List.find?_cons_of_pos hp,
            Option.filter_some_pos hkeep]
        · have hnone : ∀ other ∈ rest.filter keep, ¬ p other = true := by
            intro other hother hpother
            obtain ⟨hmem, hkept⟩ := List.mem_filter.mp hother
            rw [hunique other (List.mem_cons_of_mem _ hmem) row List.mem_cons_self hpother hp]
              at hkept
            exact hkeep hkept
          rw [List.filter_cons_of_neg hkeep, List.find?_eq_none.mpr hnone,
            List.find?_cons_of_pos hp, Option.filter_some_neg (Bool.eq_false_iff.mpr hkeep)]
      · rw [List.find?_cons_of_neg hp, ← hrest]
        by_cases hkeep : keep row = true
        · rw [List.filter_cons_of_pos hkeep, List.find?_cons_of_neg hp]
        · rw [List.filter_cons_of_neg hkeep]

theorem workflow?_ownRows {db : Db} {workflowId : String} (h : mine workflowId = true) :
    (ownRows tenant mine db).workflow? workflowId = db.workflow? workflowId := by
  unfold Db.workflow? ownRows
  rw [rows_delete_not]
  refine find?_filter_of_imp _ fun row hrow => ?_
  rw [of_decide_eq_true hrow]
  exact h

theorem stepsOf_ownRows {db : Db} {workflowId : String} (h : mine workflowId = true) :
    (ownRows tenant mine db).stepsOf workflowId = db.stepsOf workflowId := by
  unfold Db.stepsOf ownRows
  rw [rows_delete_not, List.filter_filter]
  congr 2
  refine List.filter_congr fun row _ => ?_
  by_cases hrow : row.workflowId = workflowId
  · simp [hrow, h]
  · simp [hrow]

theorem ext_db {a b : Db} (hworkflows : a.workflows.rows = b.workflows.rows)
    (hsteps : a.steps.rows = b.steps.rows) (houtbox : a.outbox.rows = b.outbox.rows)
    (hclock : a.clock = b.clock) : a = b := by
  cases a
  cases b
  simp only [Db.mk.injEq]
  exact ⟨Table.ext hworkflows, Table.ext hsteps, Table.ext houtbox, hclock⟩

/-- Rewriting rows under the names they have and choosing rows by their names commute. -/
theorem filter_map_of_name {ρ : Type} (rows : List ρ) {f : ρ → ρ} {keep : ρ → Bool}
    (h : ∀ row, keep (f row) = keep row) :
    (rows.map f).filter keep = (rows.filter keep).map f := by
  rw [List.filter_map]
  congr 1
  exact List.filter_congr fun row _ => h row

theorem ownRows_updateStep (db : Db) (jobId : String) (status : StepStatus) (u : StepUpdate) :
    ownRows tenant mine (db.updateStep jobId status u) =
      (ownRows tenant mine db).updateStep jobId status u := by
  refine ext_db rfl ?_ rfl rfl
  simp only [ownRows, Db.updateStep, Table.rows_update, rows_delete_not]
  exact filter_map_of_name _ fun row => by rw [updatedWhere_workflowId]

theorem ownRows_updateWorkflow (db : Db) (workflowId : String) (status : WorkflowStatus)
    (report : Option Dict) (error : Option String) :
    ownRows tenant mine (db.updateWorkflow workflowId status report error) =
      (ownRows tenant mine db).updateWorkflow workflowId status report error := by
  refine ext_db ?_ rfl rfl rfl
  simp only [ownRows, Db.updateWorkflow, Table.rows_update, rows_delete_not]
  exact filter_map_of_name _ fun row => by rw [withStatusWhere_id]

theorem ownRows_updateSummary (db : Db) (workflowId : String) (summary : Dict) :
    ownRows tenant mine (db.updateSummary workflowId summary) =
      (ownRows tenant mine db).updateSummary workflowId summary := by
  refine ext_db ?_ rfl rfl rfl
  simp only [ownRows, Db.updateSummary, Table.rows_update, rows_delete_not]
  exact filter_map_of_name _ fun row => by rw [withSummary_id]

/-- A row of one's own clashes with rows of one's own alone. -/
theorem insert_delete_not {ρ : Type} {clash : ρ → ρ → Prop} [DecidableRel clash]
    (table : Table ρ clash) {keep : ρ → Bool} {row : ρ} (hrow : keep row = true)
    (hclash : ∀ old ∈ table.rows, clash old row → keep old = true) :
    (table.delete fun row => !keep row).insert row =
      (table.insert row).map fun table => table.delete fun row => !keep row := by
  have hiff : (∀ old ∈ (table.delete fun row => !keep row).rows, ¬ clash old row) ↔
      ∀ old ∈ table.rows, ¬ clash old row := by
    rw [rows_delete_not]
    constructor
    · intro h old hold hclashes
      exact h old (List.mem_filter.mpr ⟨hold, hclash old hold hclashes⟩) hclashes
    · exact fun h old hold => h old (List.mem_filter.mp hold).1
  unfold Table.insert
  by_cases hfree : ∀ old ∈ table.rows, ¬ clash old row
  · rw [dif_pos hfree, dif_pos (hiff.mpr hfree)]
    refine congrArg some (Table.ext ?_)
    refine (congrArg (· ++ [row]) (rows_delete_not table keep)).trans ?_
    dsimp only
    rw [rows_delete_not, List.filter_append]
    simp [hrow]
  · rw [dif_neg hfree, dif_neg (fun h => hfree (hiff.mp h))]
    rfl

theorem ownRows_staged {db : Db} {subject : Subject} {event : PendingEvent}
    (hsubject : subject.tenantId = tenant)
    (hevents : ∀ o ∈ db.outbox.rows, o.eventId = event.eventId → o.tenantId = tenant) :
    ownRows tenant mine (db.staged subject event) =
      (ownRows tenant mine db).staged subject event := by
  have hown : decide ((stagedRow event subject).tenantId = tenant) = true :=
    decide_eq_true hsubject
  have hclash : ∀ old ∈ db.outbox.rows, SameEvent old (stagedRow event subject) →
      decide (old.tenantId = tenant) = true :=
    fun old hold hsame => decide_eq_true (hevents old hold hsame)
  have hinsert := insert_delete_not db.outbox hown hclash
  unfold Db.staged stage ownRows
  dsimp only
  rw [hinsert]
  cases db.outbox.insert (stagedRow event subject) <;> rfl

/-- An event for somebody else leaves the rows alone. -/
theorem ownRows_staged_of_other (db : Db) {subject : Subject} (event : PendingEvent)
    (h : subject.tenantId ≠ tenant) :
    ownRows tenant mine (db.staged subject event) = ownRows tenant mine db := by
  refine ext_db rfl rfl ?_ rfl
  simp only [ownRows, Db.staged, rows_delete_not]
  rcases rows_stage db.outbox event subject with hsame | hadded
  · rw [hsame]
  · rw [hadded, List.filter_append]
    simp [stagedRow, h]

/-- Nor does a change of a step of somebody else's. -/
theorem ownRows_updateStep_of_other {db : Db} {jobId : String} (status : StepStatus)
    (u : StepUpdate) (h : ∀ r ∈ db.steps.rows, r.jobId = jobId → mine r.workflowId = false) :
    ownRows tenant mine (db.updateStep jobId status u) = ownRows tenant mine db := by
  rw [ownRows_updateStep]
  refine ext_db rfl ?_ rfl rfl
  simp only [ownRows, Db.updateStep, Table.rows_update, rows_delete_not]
  refine (List.map_congr_left fun r hr => ?_).trans (List.map_id _)
  obtain ⟨hmem, hmine⟩ := List.mem_filter.mp hr
  refine if_neg fun hhit => ?_
  rw [h r hmem hhit.1] at hmine
  contradiction

theorem ownRows_updateWorkflow_of_other (db : Db) {workflowId : String} (status : WorkflowStatus)
    (report : Option Dict) (error : Option String) (h : mine workflowId = false) :
    ownRows tenant mine (db.updateWorkflow workflowId status report error) =
      ownRows tenant mine db := by
  rw [ownRows_updateWorkflow]
  refine ext_db ?_ rfl rfl rfl
  simp only [ownRows, Db.updateWorkflow, Table.rows_update, rows_delete_not]
  refine (List.map_congr_left fun r hr => ?_).trans (List.map_id _)
  refine if_neg fun hhit => ?_
  have hmine := (List.mem_filter.mp hr).2
  rw [hhit, h] at hmine
  contradiction

theorem ownRows_updateSummary_of_other (db : Db) {workflowId : String} (summary : Dict)
    (h : mine workflowId = false) :
    ownRows tenant mine (db.updateSummary workflowId summary) = ownRows tenant mine db := by
  rw [ownRows_updateSummary]
  refine ext_db ?_ rfl rfl rfl
  simp only [ownRows, Db.updateSummary, Table.rows_update, rows_delete_not]
  refine (List.map_congr_left fun r hr => ?_).trans (List.map_id _)
  refine if_neg fun hhit => ?_
  have hmine := (List.mem_filter.mp hr).2
  rw [hhit.1, h] at hmine
  contradiction

end Restriction

section Tables

variable {tenant : Option String} {mine : String → Bool} {claim : Option (String × String)}
variable {s s' : Db} {workflowId : String}

/-- Rows rewritten under the names and for the tenants they have are still mirrored. -/
theorem Mirrors.of_map {d d' : Db} {f : WorkflowRow → WorkflowRow}
    (h : Mirrors tenant mine claim s s') (hid : ∀ r, (f r).id = r.id)
    (htenant : ∀ r, (f r).tenantId = r.tenantId)
    (hrows : d.workflows.rows = s.workflows.rows.map f) (houtbox : d.outbox = s.outbox)
    (hown : d' = ownRows tenant mine d) : Mirrors tenant mine claim d d' where
  own := hown
  sorted r' hr' := by
    rw [hrows] at hr'
    obtain ⟨r, hr, rfl⟩ := List.mem_map.mp hr'
    rw [hid, htenant]
    exact h.sorted r hr
  claimed c hc := by
    obtain ⟨⟨r, hr, hrid, hrtenant⟩, hevents⟩ := h.claimed c hc
    refine ⟨⟨f r, ?_, (hid r).trans hrid, (htenant r).trans hrtenant⟩, ?_⟩
    · rw [hrows]
      exact List.mem_map_of_mem hr
    · rw [houtbox]
      exact hevents

theorem Mirrors.updateStep (h : Mirrors tenant mine claim s s') (jobId : String)
    (status : StepStatus) (u : StepUpdate) :
    Mirrors tenant mine claim (s.updateStep jobId status u) (s'.updateStep jobId status u) :=
  h.of_map (f := id) (fun _ => rfl) (fun _ => rfl) (List.map_id _).symm rfl
    (by rw [h.own, ownRows_updateStep])

theorem Mirrors.updateWorkflow (h : Mirrors tenant mine claim s s') (workflowId : String)
    (status : WorkflowStatus) (report : Option Dict) (error : Option String) :
    Mirrors tenant mine claim (s.updateWorkflow workflowId status report error)
      (s'.updateWorkflow workflowId status report error) := by
  refine h.of_map (withStatusWhere_id workflowId status report error s.clock)
    (withStatusWhere_tenantId workflowId status report error s.clock) rfl rfl ?_
  rw [h.own, ownRows_updateWorkflow]

theorem withSummary_tenantId (workflowId : String) (summary : Dict) (now : Nat)
    (r : WorkflowRow) : (r.withSummary workflowId summary now).tenantId = r.tenantId := by
  unfold WorkflowRow.withSummary
  split <;> rfl

theorem Mirrors.updateSummary (h : Mirrors tenant mine claim s s') (workflowId : String)
    (summary : Dict) :
    Mirrors tenant mine claim (s.updateSummary workflowId summary)
      (s'.updateSummary workflowId summary) := by
  refine h.of_map (fun r => withSummary_id r workflowId summary s.clock)
    (withSummary_tenantId workflowId summary s.clock) rfl rfl ?_
  rw [h.own, ownRows_updateSummary]

/-- An event staged for the tenant under an identifier no other tenant's event has. -/
theorem Mirrors.staged {eventId : String}
    (h : Mirrors tenant mine (some (workflowId, eventId)) s s') {subject : Subject}
    (hsubject : subject.tenantId = tenant) {event : PendingEvent}
    (hevent : event.eventId = eventId) :
    Mirrors tenant mine (some (workflowId, eventId)) (s.staged subject event)
      (s'.staged subject event) := by
  have hclaimed := h.claimed _ rfl
  refine ⟨?_, h.sorted, ?_⟩
  · rw [h.own]
    exact (ownRows_staged hsubject (hevent ▸ hclaimed.events)).symm
  · rintro c ⟨⟩
    refine ⟨hclaimed.there, fun o ho hid => ?_⟩
    rcases rows_stage s.outbox event subject with hsame | hadded
    · exact hclaimed.events o (hsame ▸ ho) hid
    · have hmem : o ∈ s.outbox.rows ++ [stagedRow event subject] := hadded ▸ ho
      rcases List.mem_append.mp hmem with hold | hnew
      · exact hclaimed.events o hold hid
      · rw [List.mem_singleton.mp hnew]
        exact hsubject

theorem Mirrors.workflow?_eq (h : Mirrors tenant mine claim s s') (hmine : mine workflowId = true) :
    s'.workflow? workflowId = s.workflow? workflowId := by
  rw [h.own, workflow?_ownRows hmine]

/-- A workflow found by an identifier of the tenant is the tenant's. -/
theorem Mirrors.tenant_of_workflow? (h : Mirrors tenant mine claim s s')
    (hmine : mine workflowId = true) {row : WorkflowRow}
    (hrow : s.workflow? workflowId = some row) : row.id = workflowId ∧ row.tenantId = tenant := by
  obtain ⟨hmem, rfl⟩ := workflow?_eq_some.mp hrow
  exact ⟨rfl, (h.sorted row hmem).mpr hmine⟩

end Tables

end SeoPlatform.Orchestrator.OwnRows
