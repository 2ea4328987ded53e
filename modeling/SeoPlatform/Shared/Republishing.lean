import SeoPlatform.Shared.Lossless

namespace SeoPlatform.Shared.Republishing

open SeoPlatform.Foundation.TransitionSystem
open SeoPlatform.Shared.Events
open SeoPlatform.Shared.Relay
open SeoPlatform.Shared.RelaySafety
open SeoPlatform.Shared.Lossless

variable {past : List (System × Label)} {s s' : System} {label : Label}

/-- The step that sends copies of a row out, when the relay's clock reads `clock`. -/
structure SendsOut (s : System) (label : Label) (row : StoredRow) (clock copies : Nat) : Prop where
  published : ∃ n first second, label = .publish n clock first second ∧
    copies = (publish first second).1 ∧
    ∃ began todo marked, s.relays n = .draining began (row :: todo) marked
  copied : copies ≠ 0

theorem held_of_sendsOut {row : StoredRow} {clock copies : Nat}
    (h : SendsOut s label row clock copies) : ∃ n, row ∈ held (s.relays n) := by
  obtain ⟨n, first, second, -, -, began, todo, marked, hphase⟩ := h.published
  exact ⟨n, by simp [hphase, held]⟩

theorem bus_lock {n : Nat} (hstep : lockNext s n = some s') : s'.bus = s.bus := by
  unfold lockNext at hstep
  split at hstep
  · cases hstep
    rfl
  · cases hstep
    rfl
  · split at hstep <;> cases hstep <;> rfl
  · contradiction

/-- What the broker has changes by copies of one row. -/
theorem bus_of_step (hstep : step s label = some s') : s'.bus = s.bus ∨
    ∃ row clock copies, SendsOut s label row clock copies ∧
      s'.bus = s.bus ++ List.replicate copies ⟨row, envelopeOf row clock⟩ := by
  cases label with
  | publish n clock first second =>
      simp only [step, publishNext] at hstep
      split at hstep
      · rename_i began row todo marked hphase
        cases hstep
        by_cases hcopies : (publish first second).1 = 0
        · left
          split <;> simp [System.setRelay, System.leave, hcopies]
        · right
          refine ⟨row, clock, _, ⟨⟨n, first, second, rfl, rfl, began, todo, marked, hphase⟩,
            hcopies⟩, ?_⟩
          split <;> rfl
      · contradiction
  | tick elapsed =>
      cases hstep
      exact .inl rfl
  | prune keepHours =>
      cases hstep
      exact .inl rfl
  | begin n =>
      simp only [step] at hstep
      split at hstep
      · cases hstep
        exact .inl rfl
      · contradiction
  | stage n event subject =>
      obtain ⟨began, -, hrest⟩ := Option.bind_eq_some_iff.mp hstep
      split at hrest
      · split at hrest
        · cases hrest
          exact .inl rfl
        · contradiction
      · obtain ⟨heap, -, heq⟩ := Option.map_eq_some_iff.mp hrest
        cases heq
        exact .inl rfl
  | commit n =>
      obtain ⟨began, -, heq⟩ := Option.map_eq_some_iff.mp hstep
      cases heq
      exact .inl rfl
  | rollback n =>
      obtain ⟨began, -, heq⟩ := Option.map_eq_some_iff.mp hstep
      cases heq
      exact .inl rfl
  | select n batch =>
      simp only [step] at hstep
      split at hstep
      · cases hstep
        exact .inl rfl
      · contradiction
  | lock n => exact .inl (bus_lock hstep)
  | mark n =>
      simp only [step, markRow] at hstep
      split at hstep
      · cases hstep
        exact .inl rfl
      · contradiction
  | finish n =>
      simp only [step, finishRelay] at hstep
      split at hstep
      · cases hstep
        exact .inl rfl
      · contradiction
  | abort n =>
      simp only [step] at hstep
      split at hstep
      · contradiction
      · cases hstep
        exact .inl rfl

theorem mem_of_sendsOut {row : StoredRow} {clock copies : Nat}
    (h : SendsOut s label row clock copies) (hstep : step s label = some s') :
    ⟨row, envelopeOf row clock⟩ ∈ s'.bus := by
  obtain ⟨n, first, second, rfl, rfl, began, todo, marked, hphase⟩ := h.published
  have hmem : ⟨row, envelopeOf row clock⟩ ∈
      s.bus ++ List.replicate (publish first second).1 ⟨row, envelopeOf row clock⟩ :=
    List.mem_append_right _ (List.mem_replicate.mpr ⟨h.copied, rfl⟩)
  have hstep : publishNext s n clock first second = some s' := hstep
  unfold publishNext at hstep
  rw [hphase] at hstep
  cases hstep
  split <;> exact hmem

/-- A publication is of a row of its serial, the same one each time. -/
def OneRow (s : System) : Prop :=
  ∀ p ∈ s.bus, ∀ q ∈ s.bus, p.row.id = q.row.id → p.row = q.row

theorem oneRow_of_step (hsound : Sound s) (h : OneRow s) (hstep : step s label = some s') :
    OneRow s' := by
  rcases bus_of_step hstep with hbus | ⟨row, clock, copies, hsends, hbus⟩
  · unfold OneRow
    rw [hbus]
    exact h
  · obtain ⟨n, hrow⟩ := held_of_sendsOut hsends
    obtain ⟨hmem, hnone⟩ := hsound.kept n row hrow
    have hold : ∀ p ∈ s.bus, p.row.id = row.id → p.row = row := by
      intro p hp hid
      have hsame := hsound.same p hp _ hmem hid.symm
      exact (hsame.eq_of_unpublished hnone (hsound.fresh p hp).2).symm
    intro p hp q hq hid
    rw [hbus] at hp hq
    rcases List.mem_append.mp hp with hp | hp <;> rcases List.mem_append.mp hq with hq | hq
    · exact h p hp q hq hid
    · obtain rfl := List.eq_of_mem_replicate hq
      exact hold p hp hid
    · obtain rfl := List.eq_of_mem_replicate hp
      exact (hold q hq hid.symm).symm
    · rw [List.eq_of_mem_replicate hp, List.eq_of_mem_replicate hq]

theorem oneRow_of_run (run : Run step System.initial past s) : OneRow s := by
  have hboth : Sound s ∧ OneRow s := by
    refine run.invariant (fun s => Sound s ∧ OneRow s) ⟨sound_initial, ?_⟩ ?_
    · intro p hp
      contradiction
    · exact fun _ _ _ h hstep => ⟨sound_step h.1 hstep, oneRow_of_step h.1 h.2 hstep⟩
  exact hboth.2

/-- Publications of one row are one message, which says when the row was staged. -/
def SameMessage (s : System) : Prop :=
  ∀ p ∈ s.bus, ∀ q ∈ s.bus, p.row.id = q.row.id →
    p.envelope = q.envelope ∧ p.envelope.occurredAt = p.row.occurredAt

/-- Where a row goes out, the clock still reads the moment the row was staged. -/
def OnTime (s : System) (label : Label) : Prop :=
  ∀ row clock copies, SendsOut s label row clock copies → clock = row.occurredAt

theorem bus_grows (hstep : step s label = some s') : s.bus ⊆ s'.bus := by
  rcases bus_of_step hstep with hbus | ⟨row, clock, copies, -, hbus⟩
  · rw [hbus]
    exact List.Subset.refl _
  · rw [hbus]
    exact List.subset_append_left _ _

theorem onTime_of_sameMessage (run : Run step System.initial past s) (h : SameMessage s) :
    ∀ moment ∈ past, OnTime moment.1 moment.2 := by
  rintro ⟨u, label⟩ hmem row clock copies hsends
  obtain ⟨earlier, later, u', -, -, hstep, hlater⟩ := run.moment hmem
  let p : Publication := ⟨row, envelopeOf row clock⟩
  have hp : p ∈ u'.bus := mem_of_sendsOut hsends hstep
  have hlast : p ∈ s.bus := by
    apply hlater.invariant (fun s => p ∈ s.bus) hp
    exact fun _ _ _ hbefore hnext => bus_grows hnext hbefore
  exact (h p hlast p hlast rfl).2

theorem sameMessage_of_onTime (run : Run step System.initial past s)
    (h : ∀ moment ∈ past, OnTime moment.1 moment.2) : SameMessage s := by
  have hmade : ∀ p ∈ s.bus, p.envelope = envelopeOf p.row p.row.occurredAt := by
    refine run.invariant_of OnTime h
      (fun s => ∀ p ∈ s.bus, p.envelope = envelopeOf p.row p.row.occurredAt) ?_ ?_
    · intro p hp
      contradiction
    · intro u label u' hbefore honTime hstep p hp
      rcases bus_of_step hstep with hbus | ⟨row, clock, copies, hsends, hbus⟩
      · exact hbefore p (hbus ▸ hp)
      · rw [hbus] at hp
        rcases List.mem_append.mp hp with hold | hnew
        · exact hbefore p hold
        · rw [List.eq_of_mem_replicate hnew, honTime row clock copies hsends]
  intro p hp q hq hid
  have hrow := oneRow_of_run run p hp q hq hid
  constructor
  · rw [hmade p hp, hmade q hq, hrow]
  · rw [hmade p hp]
    rfl

/-- Republishing sends the same message exactly where every publication of a
row happens at the moment at which it was staged. -/
theorem republishing_same_iff (run : Run step System.initial past s) :
    SameMessage s ↔ ∀ moment ∈ past, OnTime moment.1 moment.2 :=
  ⟨onTime_of_sameMessage run, sameMessage_of_onTime run⟩

theorem republishing_same_iff_publishedTwice :
    ∃ (past : List (System × Label)) (s : System), past.map Prod.snd = publishedTwice ∧
      (SameMessage s ↔ ∀ moment ∈ past, OnTime moment.1 moment.2) := by
  obtain ⟨past, s, hlabels, run, -⟩ :=
    Run.of_check step System.initial publishedTwice (fun _ _ => true) (by decide +kernel)
  exact ⟨past, s, hlabels, republishing_same_iff run⟩

/-- The second publication of a row says another moment than the first one, and
than the row. -/
theorem republished_later :
    ∃ (past : List (System × Label)) (s : System), past.map Prod.snd = publishedTwice ∧
      Run step System.initial past s ∧ ¬ SameMessage s := by
  obtain ⟨past, s, hlabels, run, hcheck⟩ :=
    Run.of_check step System.initial publishedTwice
      (fun _ s => s.bus.map (fun p => (p.row.id, p.row.occurredAt, p.envelope.occurredAt)) =
        [(1, 0, 0), (1, 0, 5000000)]) (by decide +kernel)
  refine ⟨past, s, hlabels, run, ?_⟩
  intro hsame
  have hbus := of_decide_eq_true hcheck
  have hsecond : ((1, 0, 5000000) : Nat × Nat × Nat) ∈
      s.bus.map fun p => (p.row.id, p.row.occurredAt, p.envelope.occurredAt) := by
    rw [hbus]
    simp
  obtain ⟨p, hp, heq⟩ := List.mem_map.mp hsecond
  have hat := (hsame p hp p hp rfl).2
  simp only [Prod.mk.injEq] at heq
  omega

end SeoPlatform.Shared.Republishing
