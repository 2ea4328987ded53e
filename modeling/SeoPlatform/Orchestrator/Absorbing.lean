import SeoPlatform.Orchestrator.Staging

namespace SeoPlatform.Orchestrator.Absorbing

open SeoPlatform.Foundation.JsonValue
open SeoPlatform.Foundation.TransitionSystem
open SeoPlatform.Orchestrator.Store
open SeoPlatform.Orchestrator.StoreSpecs
open SeoPlatform.Orchestrator.Engine
open SeoPlatform.Orchestrator.Snapshots
open SeoPlatform.Orchestrator.Workers
open SeoPlatform.Orchestrator.Changes
open SeoPlatform.Orchestrator.FlowView
open SeoPlatform.Orchestrator.Refinement
open SeoPlatform.Orchestrator.Coherence
open SeoPlatform.Orchestrator.Frames
open SeoPlatform.Orchestrator.Soundness
open SeoPlatform.Orchestrator.Interleavings
open SeoPlatform.Orchestrator.Staging
open SeoPlatform.Shared.Contracts
open SeoPlatform.Shared.Events

/-- A row of a workflow with at most its summary rewritten. -/
structure SameButSummary (row row' : WorkflowRow) : Prop where
  id : row'.id = row.id
  status : row'.status = row.status
  error : row'.error = row.error
  report : ∀ key ≠ "summary",
    Dict.get? (row'.report.getD []) key = Dict.get? (row.report.getD []) key

/-- What stays of a workflow between two states of the tables. -/
structure Unchanged (row : WorkflowRow) (db db' : Db) : Prop where
  workflow : ∃ row' ∈ db'.workflows.rows, SameButSummary row row'
  steps : (db'.steps.rows.filter fun r => r.workflowId = row.id) =
    db.steps.rows.filter fun r => r.workflowId = row.id
  events : (db'.outbox.rows.filter fun o => o.correlationId = some row.id) =
    db.outbox.rows.filter fun o => o.correlationId = some row.id

theorem SameButSummary.refl (row : WorkflowRow) : SameButSummary row row :=
  ⟨rfl, rfl, rfl, fun _ _ => rfl⟩

theorem SameButSummary.trans {a b c : WorkflowRow} (h : SameButSummary a b)
    (h' : SameButSummary b c) : SameButSummary a c :=
  ⟨h'.id.trans h.id, h'.status.trans h.status, h'.error.trans h.error,
    fun key hkey => (h'.report key hkey).trans (h.report key hkey)⟩

theorem Unchanged.refl {row : WorkflowRow} {db : Db} (h : row ∈ db.workflows.rows) :
    Unchanged row db db :=
  ⟨⟨row, h, .refl row⟩, rfl, rfl⟩

theorem Unchanged.trans {row row' : WorkflowRow} {db db' db'' : Db}
    (h : Unchanged row db db') (hsame : SameButSummary row row')
    (h' : Unchanged row' db' db'') : Unchanged row db db'' := by
  obtain ⟨row'', hrow'', hsame'⟩ := h'.workflow
  have hsteps := h'.steps
  have hevents := h'.events
  rw [hsame.id] at hsteps hevents
  exact ⟨⟨row'', hrow'', hsame.trans hsame'⟩, hsteps.trans h.steps, hevents.trans h.events⟩

variable {env : Env} {traffic : Traffic} {db db' : Db} {row : WorkflowRow}

/-- The rows of a finished workflow keep everything but the summary. -/
theorem rows_of_change (hcoherent : Coherent db) (hrow : row ∈ db.workflows.rows)
    (hterminal : row.status.Terminal) (h : Change env traffic db db') :
    (∃ row' ∈ db'.workflows.rows, SameButSummary row row') ∧
      (db'.steps.rows.filter fun r => r.workflowId = row.id) =
        db.steps.rows.filter fun r => r.workflowId = row.id := by
  have hsame : SameRows row.id db db' →
      (∃ row' ∈ db'.workflows.rows, SameButSummary row row') ∧
        (db'.steps.rows.filter fun r => r.workflowId = row.id) =
          db.steps.rows.filter fun r => r.workflowId = row.id :=
    fun hrows => ⟨⟨row, mem_of_sameRows hrows hrow rfl, .refl row⟩, hrows.steps⟩
  cases h with
  | quiet hworkflows hsteps _ => exact hsame (sameRows_of_quiet hworkflows hsteps _)
  | created _ _ hcreated => exact hsame (sameRows_of_created hcreated ⟨row, hrow, rfl⟩)
  | @started workflowId hqueued =>
      refine hsame (sameRows_statusWritten (fun heq => ?_) _ _ _ _)
      obtain ⟨own, hown, hid, hstatus⟩ := hqueued
      rw [eq_of_id hrow hown (heq.trans hid.symm), hstatus] at hterminal
      exact hterminal
  | marked _ _ =>
      refine hsame (sameRows_updateStep _ fun r hr hworkflow hhit => ?_)
      exact hcoherent.closed row hrow hterminal r hr hworkflow hhit.2
  | advanced _ hw _ hact hadvances =>
      refine hsame (sameRows_of_advances hw (fun heq => ?_) hadvances)
      obtain ⟨own, hown, hid, rfl⟩ := snapshot_eq_some.mp hw
      have hlive := hact.live
      rw [← eq_of_id hrow hown (heq.trans hid.symm)] at hlive
      exact hlive hterminal
  | summarised workflowId summary =>
      refine ⟨⟨_, List.mem_map.mpr ⟨row, hrow, rfl⟩, ?_⟩, rfl⟩
      unfold WorkflowRow.withSummary
      split
      · refine ⟨rfl, rfl, rfl, fun key hkey => ?_⟩
        exact Dict.get?_set_of_ne _ _ (Ne.symm hkey)
      · exact .refl row

/-- No event is staged for a finished workflow. -/
theorem events_of_change (hrow : row ∈ db.workflows.rows) (hterminal : row.status.Terminal)
    (h : Change env traffic db db') :
    (db'.outbox.rows.filter fun o => o.correlationId = some row.id) =
      db.outbox.rows.filter fun o => o.correlationId = some row.id := by
  cases stages_of_change h with
  | nothing houtbox => rw [houtbox]
  | @one other o hother hlive houtbox hfor _ =>
      have hne : other.id ≠ row.id := by
        intro heq
        rw [eq_of_id hother hrow heq] at hlive
        exact hlive hterminal
      rw [houtbox, List.filter_append]
      simp [hfor.correlation, hne]

theorem unchanged_of_change (hcoherent : Coherent db) (hrow : row ∈ db.workflows.rows)
    (hterminal : row.status.Terminal) (h : Change env traffic db db') : Unchanged row db db' :=
  have hrows := rows_of_change hcoherent hrow hterminal h
  ⟨hrows.1, hrows.2, events_of_change hrow hterminal h⟩

/-- The announcements of a workflow's finish. -/
def announcements (db : Db) (workflowId : String) : Nat :=
  db.outbox.rows.countP fun o =>
    o.eventType = .workflowCompleted ∧ o.correlationId = some workflowId

/-- A workflow is announced once at most, and not before it has finished. -/
def AnnouncedOnce (db : Db) : Prop :=
  ∀ workflowId, announcements db workflowId = 0 ∨ announcements db workflowId = 1 ∧
    ∃ row ∈ db.workflows.rows, row.id = workflowId ∧ row.status.Terminal

theorem announcedOnce_of_change (hcoherent : Coherent db) (h : AnnouncedOnce db)
    (hchange : Change env traffic db db') : AnnouncedOnce db' := by
  intro workflowId
  -- A finish stays, whatever is staged.
  have hfinished : (∃ row ∈ db.workflows.rows, row.id = workflowId ∧ row.status.Terminal) →
      ∃ row ∈ db'.workflows.rows, row.id = workflowId ∧ row.status.Terminal := by
    rintro ⟨row, hrow, hid, hterminal⟩
    obtain ⟨row', hrow', hsame⟩ := (rows_of_change hcoherent hrow hterminal hchange).1
    exact ⟨row', hrow', hsame.id.trans hid, hsame.status ▸ hterminal⟩
  cases stages_of_change hchange with
  | nothing houtbox =>
      unfold announcements
      rw [houtbox]
      exact (h workflowId).imp_right fun hone => ⟨hone.1, hfinished hone.2⟩
  | @one row o hrow hlive houtbox hfor hkind =>
      have hcount : announcements db' workflowId = announcements db workflowId +
          if o.eventType = .workflowCompleted ∧ row.id = workflowId then 1 else 0 := by
        unfold announcements
        rw [houtbox, List.countP_append, List.countP_singleton]
        simp [hfor.correlation]
      rw [hcount]
      by_cases hown : o.eventType = .workflowCompleted ∧ row.id = workflowId
      · rw [if_pos hown]
        obtain ⟨htype, rfl⟩ := hown
        rcases h row.id with hzero | ⟨-, other, hother, hid, hterminal⟩
        · refine .inr ⟨by rw [hzero], ?_⟩
          rcases hkind with hrequest | ⟨-, row', hrow', hid, hterminal⟩
          · rw [htype] at hrequest
            contradiction
          · exact ⟨row', hrow', hid, hterminal⟩
        · rw [eq_of_id hother hrow hid] at hterminal
          exact absurd hterminal hlive
      · rw [if_neg hown, Nat.add_zero]
        exact (h workflowId).imp_right fun hone => ⟨hone.1, hfinished hone.2⟩

/-- Whatever the orchestrators are told afterwards, a finished workflow stays
as it is, up to the text of its summary; and its finish is announced at most
once. -/
theorem terminal_absorbing {past : List (System × Label)} {s : System}
    (run : Run (step env) System.initial past s) :
    (∀ row ∈ s.db.workflows.rows, row.status.Terminal → ∀ later s',
      Run (step env) s later s' → Unchanged row s.db s'.db) ∧
    ∀ workflowId, announcements s.db workflowId ≤ 1 := by
  have hsound := sound_of_run run (carries_any past)
  refine ⟨fun row hrow hterminal later s' rest => ?_, fun workflowId => ?_⟩
  · refine (rest.invariant_of (fun _ label => Label.Allowed .any label) (carries_any later)
      (fun t => Sound .any t ∧ Unchanged row s.db t.db) ⟨hsound, .refl hrow⟩ ?_).2
    rintro t label t' ⟨hsoundt, hunchanged⟩ hallowed hstep
    obtain ⟨hsound', hchange⟩ := sound_step hsoundt hallowed hstep
    obtain ⟨row', hrow', hsame⟩ := hunchanged.workflow
    refine ⟨hsound', hunchanged.trans hsame ?_⟩
    exact unchanged_of_change hsoundt.coherent hrow' (hsame.status ▸ hterminal) hchange
  · have honce := kept_of_run run (carries_any past) AnnouncedOnce
      (fun _ => .inl rfl) fun _ _ hcoherent h hchange =>
        announcedOnce_of_change hcoherent h hchange
    rcases honce workflowId with h | ⟨h, -⟩
    · rw [h]
      exact Nat.zero_le 1
    · rw [h]

/-- One audit, whose crawl failed. -/
theorem terminal_absorbing_failed : ∃ (past : List (System × Label)) (s : System),
    past.map Prod.snd = started 0 (auditRequest "m" oneSite) "e" ++
      handled 0 (crawlCompleted "c" "job-1" [("status", .str "failed")]) "f" ∧
    s.db.workflows.rows.map (fun row => (row.id, row.status)) = [("w", .failed)] ∧
    (∀ row ∈ s.db.workflows.rows, row.status.Terminal → ∀ later s',
      Run (step asciiEnv) s later s' → Unchanged row s.db s'.db) ∧
    ∀ workflowId, announcements s.db workflowId ≤ 1 := by
  obtain ⟨past, s, hpast, run, hstatuses⟩ :=
    Run.of_check (step asciiEnv) System.initial
      (started 0 (auditRequest "m" oneSite) "e" ++
        handled 0 (crawlCompleted "c" "job-1" [("status", .str "failed")]) "f")
      (fun _ s => s.db.workflows.rows.map (fun row => (row.id, row.status)) = [("w", .failed)])
      (by decide +kernel)
  exact ⟨past, s, hpast, by simpa using hstatuses, terminal_absorbing run⟩

end SeoPlatform.Orchestrator.Absorbing
