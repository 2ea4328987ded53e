import SeoPlatform.Shared.RelaySafety

namespace SeoPlatform.Shared.Lossless

open SeoPlatform.Foundation.ConstrainedTable
open SeoPlatform.Foundation.TransitionSystem
open SeoPlatform.Shared.Events
open SeoPlatform.Shared.Relay
open SeoPlatform.Shared.RelaySafety

/-- What a step does to the table. -/
structure Advances (s s' : System) : Prop where
  kept : ∀ v ∈ s.heap.rows, v.writer = none → v.row.publishedAt = none →
    ∃ v' ∈ s'.heap.rows, v'.writer = none ∧ SameRow v'.row v.row
  published : ∀ v' ∈ s'.heap.rows, v'.row.publishedAt ≠ none →
    (∃ v ∈ s.heap.rows, SameRow v'.row v.row ∧ v.row.publishedAt ≠ none) ∨
      ∃ n, ∃ row ∈ sent (s.relays n), v'.row.id = row.id
  bus : ∀ p ∈ s'.bus, p ∈ s.bus ∨ ∃ n, p.row ∈ held (s.relays n)

section Steps

variable {s s' : System} {n : Nat}

/-- A step that leaves the table alone. -/
theorem advances_of_bus (hheap : s'.heap = s.heap)
    (hbus : ∀ p ∈ s'.bus, p ∈ s.bus ∨ ∃ n, p.row ∈ held (s.relays n)) : Advances s s' where
  kept v hv hwriter _ := ⟨v, hheap ▸ hv, hwriter, .refl _⟩
  published v hv hpublished := .inl ⟨v, hheap ▸ hv, .refl _, hpublished⟩
  bus := hbus

theorem advances_of_same (hheap : s'.heap = s.heap) (hbus : s'.bus = s.bus) : Advances s s' :=
  advances_of_bus hheap fun _ hp => .inl (hbus ▸ hp)

/-- A step that adds rows, or takes rows away that are not committed or
published. -/
theorem advances_of_rows (hbus : s'.bus = s.bus)
    (hkept : ∀ v ∈ s.heap.rows, v.writer = none → v.row.publishedAt = none → v ∈ s'.heap.rows)
    (hrows : ∀ v' ∈ s'.heap.rows, v'.row.publishedAt ≠ none →
      ∃ v ∈ s.heap.rows, v'.row = v.row) : Advances s s' where
  kept v hv hwriter hnone := ⟨v, hkept v hv hwriter hnone, hwriter, .refl _⟩
  published v' hv' hpublished := by
    obtain ⟨v, hv, heq⟩ := hrows v' hv' hpublished
    rw [heq] at hpublished ⊢
    exact .inl ⟨v, hv, .refl _, hpublished⟩
  bus p hp := .inl (hbus ▸ hp)

theorem advances_stage {event : PendingEvent} {subject : Subject}
    (hstep : stageRow s n event subject = some s') : Advances s s' := by
  obtain ⟨began, -, hrest⟩ := Option.bind_eq_some_iff.mp hstep
  split at hrest
  · split at hrest
    · cases hrest
      exact advances_of_same rfl rfl
    · contradiction
  · obtain ⟨heap, hinsert, heq⟩ := Option.map_eq_some_iff.mp hrest
    cases heq
    obtain ⟨-, hrows⟩ := Table.insert_eq_some.mp hinsert
    refine advances_of_rows rfl ?_ ?_
    · intro v hv _ _
      show v ∈ heap.rows
      rw [hrows]
      exact List.mem_append_left _ hv
    · intro v hv hpublished
      have hv : v ∈ s.heap.rows ++ [⟨storedRow s.nextId began event subject, some n⟩] := hrows ▸ hv
      rcases List.mem_append.mp hv with hold | hnew
      · exact ⟨v, hold, rfl⟩
      · obtain rfl := List.mem_singleton.mp hnew
        exact absurd rfl hpublished

theorem advances_commit (hstep : commitWriter s n = some s') : Advances s s' := by
  obtain ⟨began, -, heq⟩ := Option.map_eq_some_iff.mp hstep
  cases heq
  refine advances_of_rows rfl ?_ ?_
  · exact fun v hv hwriter _ => List.mem_map.mpr ⟨v, hv, by simp [Version.committed, hwriter]⟩
  · intro v' hv' _
    obtain ⟨v, hv, rfl⟩ := List.mem_map.mp hv'
    exact ⟨v, hv, row_committed n v⟩

theorem advances_rollback (hstep : rollbackWriter s n = some s') : Advances s s' := by
  obtain ⟨began, -, heq⟩ := Option.map_eq_some_iff.mp hstep
  cases heq
  refine advances_of_rows rfl ?_ ?_
  · exact fun v hv hwriter _ => Table.mem_delete.mpr ⟨hv, by simp [hwriter]⟩
  · exact fun v hv _ => ⟨v, (Table.mem_delete.mp hv).1, rfl⟩

theorem advances_lock (hstep : lockNext s n = some s') : Advances s s' := by
  unfold lockNext at hstep
  split at hstep
  · cases hstep
    exact advances_of_same rfl rfl
  · cases hstep
    exact advances_of_same rfl rfl
  · split at hstep <;> cases hstep <;> exact advances_of_same rfl rfl
  · contradiction

theorem advances_publish {clock : Nat} {first second : Attempt}
    (hstep : publishNext s n clock first second = some s') : Advances s s' := by
  unfold publishNext at hstep
  split at hstep
  · rename_i began row todo marked hphase
    cases hstep
    have hbus : ∀ p ∈ s.bus ++ List.replicate (publish first second).1
        (Publication.mk row (envelopeOf row clock)),
        p ∈ s.bus ∨ ∃ m, p.row ∈ held (s.relays m) := by
      intro p hp
      rcases List.mem_append.mp hp with hold | hnew
      · exact .inl hold
      · rw [List.eq_of_mem_replicate hnew]
        exact .inr ⟨n, by simp [hphase, held]⟩
    split
    · exact advances_of_bus rfl hbus
    · exact advances_of_bus rfl hbus
  · contradiction

theorem advances_finish (hstep : finishRelay s n = some s') : Advances s s' := by
  unfold finishRelay at hstep
  split at hstep
  · rename_i began marked hphase
    cases hstep
    refine ⟨?_, ?_, fun p hp => .inl hp⟩
    · intro v hv hwriter _
      have hrow := toOutboxRow_marked began (marked.map StoredRow.id) v
      exact ⟨_, List.mem_map.mpr ⟨v, hv, rfl⟩, hrow.2.2.2.trans hwriter,
        hrow.1, hrow.2.1, hrow.2.2.1⟩
    · intro v' hv' hpublished
      obtain ⟨v, hv, rfl⟩ := List.mem_map.mp hv'
      by_cases hin : v.row.id ∈ marked.map StoredRow.id
      · obtain ⟨row, hrow, hid⟩ := List.mem_map.mp hin
        right
        refine ⟨n, row, by simpa [hphase, sent] using hrow, ?_⟩
        rw [(toOutboxRow_marked began _ v).2.1, hid]
      · rw [Version.marked, if_neg hin] at hpublished ⊢
        exact .inl ⟨v, hv, .refl _, hpublished⟩
  · contradiction

theorem advances_of_step {label : Label} (hstep : step s label = some s') : Advances s s' := by
  cases label with
  | tick elapsed =>
      cases hstep
      exact advances_of_same rfl rfl
  | begin m =>
      simp only [step] at hstep
      split at hstep
      · cases hstep
        exact advances_of_same rfl rfl
      · contradiction
  | stage m event subject => exact advances_stage hstep
  | commit m => exact advances_commit hstep
  | rollback m => exact advances_rollback hstep
  | select m batch =>
      simp only [step] at hstep
      split at hstep
      · cases hstep
        exact advances_of_same rfl rfl
      · contradiction
  | lock m => exact advances_lock hstep
  | publish m clock first second => exact advances_publish hstep
  | mark m =>
      simp only [step, markRow] at hstep
      split at hstep
      · cases hstep
        exact advances_of_same rfl rfl
      · contradiction
  | finish m => exact advances_finish hstep
  | abort m =>
      simp only [step] at hstep
      split at hstep
      · contradiction
      · cases hstep
        exact advances_of_same rfl rfl
  | prune keepHours =>
      cases hstep
      refine advances_of_rows rfl ?_ ?_
      · exact fun v hv _ hnone => Table.mem_delete.mpr ⟨hv, by simp [Version.expired, hnone]⟩
      · exact fun v hv _ => ⟨v, (Table.mem_delete.mp hv).1, rfl⟩

end Steps

/-- An envelope that carries what its row says. -/
structure Carries (e : Envelope) (row : StoredRow) : Prop where
  id : e.id = row.eventId
  type : e.type = row.eventType
  producer : e.producer = row.producer
  payload : e.payload = row.payload
  correlationId : e.correlationId = row.correlationId
  causationId : e.causationId = row.causationId
  tenantId : e.tenantId = row.tenantId
  projectId : e.projectId = row.projectId

theorem carries_envelopeOf (row : StoredRow) (clock : Nat) : Carries (envelopeOf row clock) row :=
  ⟨rfl, rfl, rfl, rfl, rfl, rfl, rfl, rfl⟩

/-- A step that loses nothing: a committed row that is not published stays, a
row that is published afterwards had gone out before, and what goes out is a
committed row of the table. -/
structure LosesNothing (s s' : System) : Prop where
  kept : ∀ v ∈ s.heap.rows, v.writer = none → v.row.publishedAt = none →
    ∃ v' ∈ s'.heap.rows, v'.writer = none ∧ SameRow v'.row v.row
  published : ∀ v' ∈ s'.heap.rows, v'.row.publishedAt ≠ none →
    ∃ p ∈ s.bus, p.row.id = v'.row.id
  own : ∀ p ∈ s'.bus, p ∈ s.bus ∨ ⟨p.row, none⟩ ∈ s.heap.rows

theorem losesNothing_of_step {s s' : System} {label : Label} (h : Sound s)
    (hstep : step s label = some s') : LosesNothing s s' := by
  have hadvances := advances_of_step hstep
  refine ⟨hadvances.kept, ?_, ?_⟩
  · intro v' hv' hpublished
    rcases hadvances.published v' hv' hpublished with ⟨v, hv, hsame, hbefore⟩ | ⟨n, row, hrow, hid⟩
    · obtain ⟨p, hp, heq⟩ := h.backed v hv hbefore
      exact ⟨p, hp, heq.trans hsame.id.symm⟩
    · obtain ⟨p, hp, rfl⟩ := h.gone n row hrow
      exact ⟨p, hp, hid.symm⟩
  · intro p hp
    rcases hadvances.bus p hp with hold | ⟨n, hrow⟩
    · exact .inl hold
    · exact .inr (h.kept n p.row hrow).1

/-- The outbox loses nothing, whatever the relays, writers and prunes do. -/
theorem outbox_loses_nothing {past : List (System × Label)} {s : System}
    (run : Run step System.initial past s) :
    (∀ moment ∈ past, ∀ s', step moment.1 moment.2 = some s' → LosesNothing moment.1 s') ∧
      s.commits.Pairwise List.Disjoint ∧ ∀ p ∈ s.bus, Carries p.envelope p.row := by
  have hsound := sound_of_run run
  refine ⟨?_, ?_, ?_⟩
  · intro moment hmem s' hstep
    obtain ⟨earlier, later, -, -, hearlier, -, -⟩ := run.moment hmem
    exact losesNothing_of_step (sound_of_run hearlier) hstep
  · exact (List.nodup_flatten.mp hsound.once).2
  · intro p hp
    obtain ⟨clock, hmade⟩ := hsound.made p hp
    rw [hmade]
    exact carries_envelopeOf p.row clock

/-- The completion of a crawl, as its service stages it. -/
def crawlDone : PendingEvent where
  type := .crawlCompleted
  payload := [("crawl_id", .str "c"), ("status", .str "completed")]
  producer := "crawl-service"
  eventId := "e"
  correlationId := some "w"
  causationId := none

/-- A relay claims the next row and publishes it. -/
def publishOne (n clock : Nat) : List Label :=
  [.select n 100, .lock n, .lock n, .publish n clock .confirmed .confirmed]

/-- A relay dies between the publication and the commit; five seconds later
another one publishes the row again, and marks it. -/
def publishedTwice : List Label :=
  [.begin 0, .stage 0 crawlDone ⟨"c", some "t", some "p"⟩, .commit 0] ++
  publishOne 1 0 ++ [.abort 1, .tick 5000000] ++
  publishOne 2 5000000 ++ [.mark 2, .finish 2, .tick 1, .prune 0]

theorem outbox_loses_nothing_publishedTwice :
    ∃ (past : List (System × Label)) (s : System), past.map Prod.snd = publishedTwice ∧
      s.bus.length = 2 ∧
      (∀ moment ∈ past, ∀ s', step moment.1 moment.2 = some s' → LosesNothing moment.1 s') ∧
      s.commits.Pairwise List.Disjoint ∧ ∀ p ∈ s.bus, Carries p.envelope p.row := by
  obtain ⟨past, s, hlabels, run, hcheck⟩ :=
    Run.of_check step System.initial publishedTwice (fun _ s => s.bus.length = 2)
      (by decide +kernel)
  exact ⟨past, s, hlabels, of_decide_eq_true hcheck, outbox_loses_nothing run⟩

end SeoPlatform.Shared.Lossless
