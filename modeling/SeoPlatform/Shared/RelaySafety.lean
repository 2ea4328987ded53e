import SeoPlatform.Shared.Relay

namespace SeoPlatform.Shared.RelaySafety

open SeoPlatform.Foundation.ConstrainedTable
open SeoPlatform.Foundation.RowLocks
open SeoPlatform.Foundation.TransitionSystem
open SeoPlatform.Shared.Events
open SeoPlatform.Shared.Relay

/-- The rows a relay holds locks on. -/
def held : Phase → List StoredRow
  | .idle => []
  | .claiming _ _ _ claimed => claimed
  | .draining _ todo marked => todo ++ marked
  | .marking _ row todo marked => todo ++ (marked ++ [row])

/-- The rows among them that went out. -/
def sent : Phase → List StoredRow
  | .idle => []
  | .claiming _ _ _ _ => []
  | .draining _ _ marked => marked
  | .marking _ row _ marked => marked ++ [row]

/-- Two states of one row, which differ in whether it is published at most. -/
structure SameRow (a b : StoredRow) : Prop where
  columns : a.toOutboxRow = b.toOutboxRow
  id : a.id = b.id
  occurredAt : a.occurredAt = b.occurredAt

theorem SameRow.refl (a : StoredRow) : SameRow a a := ⟨rfl, rfl, rfl⟩

theorem SameRow.eq_of_unpublished {a b : StoredRow} (h : SameRow a b)
    (ha : a.publishedAt = none) (hb : b.publishedAt = none) : a = b := by
  rcases a with ⟨columns, id, occurredAt, publishedAt⟩
  rcases b with ⟨columns', id', occurredAt', publishedAt'⟩
  obtain ⟨hcolumns, hid, hat⟩ := h
  simp only at hcolumns hid hat ha hb
  rw [hcolumns, hid, hat, ha, hb]

/-- What holds of the relays, the table and the bus together. -/
structure Sound (s : System) : Prop where
  numbered : ∀ v ∈ s.heap.rows, v.row.id < s.nextId
  backed : ∀ v ∈ s.heap.rows, v.row.publishedAt ≠ none → ∃ p ∈ s.bus, p.row.id = v.row.id
  locked : ∀ n, ∀ row ∈ held (s.relays n), s.locks row.id = some n
  kept : ∀ n, ∀ row ∈ held (s.relays n), ⟨row, none⟩ ∈ s.heap.rows ∧ row.publishedAt = none
  distinct : ∀ n, ((held (s.relays n)).map StoredRow.id).Nodup
  gone : ∀ n, ∀ row ∈ sent (s.relays n), ∃ p ∈ s.bus, p.row = row
  fresh : ∀ p ∈ s.bus, p.row.id < s.nextId ∧ p.row.publishedAt = none
  made : ∀ p ∈ s.bus, ∃ clock, p.envelope = envelopeOf p.row clock
  same : ∀ p ∈ s.bus, ∀ v ∈ s.heap.rows, v.row.id = p.row.id → SameRow v.row p.row
  settled : ∀ id ∈ s.commits.flatten,
    id < s.nextId ∧ ∀ v ∈ s.heap.rows, v.row.id = id → v.row.publishedAt ≠ none
  once : s.commits.flatten.Nodup

theorem sound_initial : Sound System.initial where
  numbered v hv := by contradiction
  backed v hv := by contradiction
  locked n row hrow := by contradiction
  kept n row hrow := by contradiction
  distinct n := List.nodup_nil
  gone n row hrow := by contradiction
  fresh p hp := by contradiction
  made p hp := by contradiction
  same p hp := by contradiction
  settled id hid := by contradiction
  once := List.nodup_nil

theorem clash_symm (a b : Version) (h : Clash a b) : Clash b a := by
  rcases h with hid | hevent
  · exact .inl hid.symm
  · exact .inr hevent.symm

/-- A `publish` that returns has left a copy with the broker. -/
theorem copies_of_returned {first second : Attempt} (h : (publish first second).2 = true) :
    (publish first second).1 ≠ 0 := by
  rcases first with _ | ⟨accepted, _ | _⟩ <;> rcases second with _ | ⟨again, amqp⟩ <;>
    simp_all [publish]

section Steps

variable {s s' : System} {n : Nat}

/-- What a relay does to its own transaction alone. -/
theorem sound_of_relay (h : Sound s) (hheap : s'.heap = s.heap) (hnext : s'.nextId = s.nextId)
    (hbus : s'.bus = s.bus) (hcommits : s'.commits = s.commits)
    (hothers : ∀ m, m ≠ n → s'.relays m = s.relays m)
    (hlocks : ∀ m id, m ≠ n → s.locks id = some m → s'.locks id = some m)
    (hlocked : ∀ row ∈ held (s'.relays n), s'.locks row.id = some n)
    (hkept : ∀ row ∈ held (s'.relays n), ⟨row, none⟩ ∈ s.heap.rows ∧ row.publishedAt = none)
    (hdistinct : ((held (s'.relays n)).map StoredRow.id).Nodup)
    (hgone : ∀ row ∈ sent (s'.relays n), ∃ p ∈ s.bus, p.row = row) : Sound s' := by
  refine ⟨?_, ?_, ?_, ?_, ?_, ?_, ?_, ?_, ?_, ?_, ?_⟩
  · simpa only [hheap, hnext] using h.numbered
  · simpa only [hheap, hbus] using h.backed
  · intro m row hrow
    rcases eq_or_ne m n with rfl | hm
    · exact hlocked row hrow
    · rw [hothers m hm] at hrow
      exact hlocks m row.id hm (h.locked m row hrow)
  · intro m row hrow
    rw [hheap]
    rcases eq_or_ne m n with rfl | hm
    · exact hkept row hrow
    · rw [hothers m hm] at hrow
      exact h.kept m row hrow
  · intro m
    rcases eq_or_ne m n with rfl | hm
    · exact hdistinct
    · rw [hothers m hm]
      exact h.distinct m
  · intro m row hrow
    rw [hbus]
    rcases eq_or_ne m n with rfl | hm
    · exact hgone row hrow
    · rw [hothers m hm] at hrow
      exact h.gone m row hrow
  · simpa only [hbus, hnext] using h.fresh
  · simpa only [hbus] using h.made
  · simpa only [hbus, hheap] using h.same
  · simpa only [hcommits, hnext, hheap] using h.settled
  · simpa only [hcommits] using h.once

/-- What writers and prunes do: rows are added with new serials, and no
committed row that is not published goes. -/
theorem sound_of_heap (h : Sound s) (hrelays : s'.relays = s.relays) (hlocks : s'.locks = s.locks)
    (hbus : s'.bus = s.bus) (hcommits : s'.commits = s.commits) (hnext : s.nextId ≤ s'.nextId)
    (hrows : ∀ v' ∈ s'.heap.rows, (∃ v ∈ s.heap.rows, v'.row = v.row) ∨
      s.nextId ≤ v'.row.id ∧ v'.row.id < s'.nextId ∧ v'.row.publishedAt = none)
    (hkept : ∀ row : StoredRow, ⟨row, none⟩ ∈ s.heap.rows → row.publishedAt = none →
      ⟨row, none⟩ ∈ s'.heap.rows) : Sound s' := by
  refine ⟨?_, ?_, ?_, ?_, ?_, ?_, ?_, ?_, ?_, ?_, ?_⟩
  · intro v' hv'
    rcases hrows v' hv' with ⟨v, hv, heq⟩ | ⟨-, hlt, -⟩
    · rw [heq]
      exact (h.numbered v hv).trans_le hnext
    · exact hlt
  · intro v' hv' hpublished
    rw [hbus]
    rcases hrows v' hv' with ⟨v, hv, heq⟩ | ⟨-, -, hnone⟩
    · rw [heq] at hpublished ⊢
      exact h.backed v hv hpublished
    · exact absurd hnone hpublished
  · simpa only [hrelays, hlocks] using h.locked
  · intro m row hrow
    rw [hrelays] at hrow
    obtain ⟨hmem, hnone⟩ := h.kept m row hrow
    exact ⟨hkept row hmem hnone, hnone⟩
  · simpa only [hrelays] using h.distinct
  · simpa only [hrelays, hbus] using h.gone
  · intro p hp
    rw [hbus] at hp
    obtain ⟨hlt, hnone⟩ := h.fresh p hp
    exact ⟨hlt.trans_le hnext, hnone⟩
  · simpa only [hbus] using h.made
  · intro p hp v' hv' hid
    rw [hbus] at hp
    rcases hrows v' hv' with ⟨v, hv, heq⟩ | ⟨hle, -, -⟩
    · rw [heq] at hid ⊢
      exact h.same p hp v hv hid
    · have hlt := (h.fresh p hp).1
      omega
  · intro id hid
    rw [hcommits] at hid
    obtain ⟨hlt, hpublished⟩ := h.settled id hid
    refine ⟨hlt.trans_le hnext, ?_⟩
    intro v' hv' heqid
    rcases hrows v' hv' with ⟨v, hv, heq⟩ | ⟨hle, -, -⟩
    · rw [heq] at heqid ⊢
      exact hpublished v hv heqid
    · omega
  · simpa only [hcommits] using h.once

theorem sound_stage {event : PendingEvent} {subject : Subject} (h : Sound s)
    (hstep : stageRow s n event subject = some s') : Sound s' := by
  obtain ⟨began, -, hrest⟩ := Option.bind_eq_some_iff.mp hstep
  split at hrest
  · split at hrest
    · cases hrest
      refine sound_of_heap h rfl rfl rfl rfl (Nat.le_succ _) ?_ ?_
      · exact fun v hv => .inl ⟨v, hv, rfl⟩
      · exact fun row hrow _ => hrow
    · contradiction
  · obtain ⟨heap, hinsert, heq⟩ := Option.map_eq_some_iff.mp hrest
    cases heq
    obtain ⟨-, hrows⟩ := Table.insert_eq_some.mp hinsert
    refine sound_of_heap h rfl rfl rfl rfl (Nat.le_succ _) ?_ ?_
    · intro v hv
      have hv : v ∈ s.heap.rows ++ [⟨storedRow s.nextId began event subject, some n⟩] := hrows ▸ hv
      rcases List.mem_append.mp hv with hold | hnew
      · exact .inl ⟨v, hold, rfl⟩
      · obtain rfl := List.mem_singleton.mp hnew
        exact .inr ⟨le_refl _, Nat.lt_succ_self _, rfl⟩
    · intro row hrow _
      show _ ∈ heap.rows
      rw [hrows]
      exact List.mem_append_left _ hrow

theorem sound_commit (h : Sound s) (hstep : commitWriter s n = some s') : Sound s' := by
  obtain ⟨began, -, heq⟩ := Option.map_eq_some_iff.mp hstep
  cases heq
  refine sound_of_heap h rfl rfl rfl rfl (le_refl _) ?_ ?_
  · intro v' hv'
    obtain ⟨v, hv, rfl⟩ := List.mem_map.mp hv'
    exact .inl ⟨v, hv, row_committed n v⟩
  · exact fun row hrow _ => List.mem_map.mpr ⟨_, hrow, by simp [Version.committed]⟩

theorem sound_rollback (h : Sound s) (hstep : rollbackWriter s n = some s') : Sound s' := by
  obtain ⟨began, -, heq⟩ := Option.map_eq_some_iff.mp hstep
  cases heq
  refine sound_of_heap h rfl rfl rfl rfl (le_refl _) ?_ ?_
  · exact fun v hv => .inl ⟨v, (Table.mem_delete.mp hv).1, rfl⟩
  · exact fun row hrow _ => Table.mem_delete.mpr ⟨hrow, by simp⟩

theorem sound_prune (h : Sound s) (keepHours : Nat) :
    Sound { s with heap := s.heap.delete (Version.expired s.now keepHours) } := by
  refine sound_of_heap h rfl rfl rfl rfl (le_refl _) ?_ ?_
  · exact fun v hv => .inl ⟨v, (Table.mem_delete.mp hv).1, rfl⟩
  · exact fun row hrow hnone => Table.mem_delete.mpr ⟨hrow, by simp [Version.expired, hnone]⟩

theorem relays_setRelay_of_ne {phase : Phase} {m : Nat} (hm : m ≠ n) :
    (s.setRelay n phase).relays m = s.relays m :=
  Function.update_of_ne hm ..

@[simp] theorem relays_setRelay_self {phase : Phase} : (s.setRelay n phase).relays n = phase :=
  Function.update_self ..

/-- A relay that comes to hold no other rows than before. -/
theorem sound_of_fewer {phase : Phase} (h : Sound s)
    (hheld : (held phase).Perm (held (s.relays n)) ∨ held phase = [])
    (hgone : ∀ row ∈ sent phase, ∃ p ∈ s.bus, p.row = row) : Sound (s.setRelay n phase) := by
  have hsubset : held phase ⊆ held (s.relays n) := by
    rcases hheld with hperm | hnil
    · exact hperm.subset
    · rw [hnil]
      exact List.nil_subset _
  refine sound_of_relay (n := n) h rfl rfl rfl rfl ?_ ?_ ?_ ?_ ?_ ?_
  · exact fun m hm => relays_setRelay_of_ne hm
  · exact fun m id _ hid => hid
  · rw [relays_setRelay_self]
    exact fun row hrow => h.locked n row (hsubset hrow)
  · rw [relays_setRelay_self]
    exact fun row hrow => h.kept n row (hsubset hrow)
  · rw [relays_setRelay_self]
    rcases hheld with hperm | hnil
    · exact (hperm.map _).nodup_iff.mpr (h.distinct n)
    · rw [hnil]
      exact List.nodup_nil
  · rw [relays_setRelay_self]
    exact hgone

theorem sound_leave (h : Sound s) : Sound (s.leave n) := by
  refine sound_of_relay (n := n) h rfl rfl rfl rfl ?_ ?_ ?_ ?_ ?_ ?_
  · exact fun m hm => relays_setRelay_of_ne hm
  · exact fun m id hm hid => Locks.held_release hid hm
  · intro row hrow
    simp [System.leave, System.setRelay, held] at hrow
  · intro row hrow
    simp [System.leave, System.setRelay, held] at hrow
  · simp [System.leave, System.setRelay, held]
  · intro row hrow
    simp [System.leave, System.setRelay, sent] at hrow

theorem claimable_eq_some {id : Nat} {row : StoredRow} (h : claimable s id = some row) :
    s.locks id = none ∧ row.id = id ∧ ⟨row, none⟩ ∈ s.heap.rows ∧ row.publishedAt = none := by
  unfold claimable at h
  split at h
  · rename_i hfree
    obtain ⟨⟨row', writer⟩, hfind, rfl⟩ := Option.map_eq_some_iff.mp h
    have hcond := List.find?_some hfind
    have hmem := List.mem_of_find?_eq_some hfind
    simp only [Version.waiting, Option.isNone_iff_eq_none, Bool.and_eq_true, decide_eq_true_eq]
      at hcond
    obtain ⟨hid, hwriter, hnone⟩ := hcond
    rw [hwriter] at hmem
    exact ⟨hfree, hid, hmem, hnone⟩
  · contradiction

theorem sound_lock (h : Sound s) (hstep : lockNext s n = some s') : Sound s' := by
  unfold lockNext at hstep
  split at hstep
  · rename_i began candidates claimed hphase
    cases hstep
    apply sound_of_fewer h
    · rw [hphase]
      exact .inl (by simp [held])
    · exact fun row hrow => by contradiction
  · rename_i began room claimed _ hphase
    cases hstep
    apply sound_of_fewer h
    · rw [hphase]
      exact .inl (by simp [held])
    · exact fun row hrow => by contradiction
  · rename_i began room id rest claimed hphase
    split at hstep
    · cases hstep
      apply sound_of_fewer h
      · rw [hphase]
        exact .inl (by simp [held])
      · exact fun row hrow => by contradiction
    · rename_i row hclaim
      cases hstep
      obtain ⟨hfree, rfl, hmem, hnone⟩ := claimable_eq_some hclaim
      have hlocked := h.locked n
      have hkept := h.kept n
      have hdistinct := h.distinct n
      rw [hphase] at hlocked hkept hdistinct
      simp only [held] at hlocked hkept hdistinct
      refine sound_of_relay (n := n) h rfl rfl rfl rfl ?_ ?_ ?_ ?_ ?_ ?_
      · exact fun m hm => relays_setRelay_of_ne hm
      · exact fun m other _ hother => Locks.held_take hother hfree
      · intro other hother
        simp only [relays_setRelay_self, held, List.mem_append, List.mem_singleton] at hother
        rcases hother with hold | rfl
        · exact Locks.held_take (hlocked other hold) hfree
        · exact Locks.take_self
      · intro other hother
        simp only [relays_setRelay_self, held, List.mem_append, List.mem_singleton] at hother
        rcases hother with hold | rfl
        · exact hkept other hold
        · exact ⟨hmem, hnone⟩
      · simp only [relays_setRelay_self, held, List.map_append, List.map_cons, List.map_nil]
        refine List.nodup_append.mpr ⟨hdistinct, List.nodup_singleton _, ?_⟩
        rintro id hid _ hsingle rfl
        obtain ⟨other, hother, heq⟩ := List.mem_map.mp hid
        have hheld := hlocked other hother
        rw [heq, List.mem_singleton.mp hsingle, hfree] at hheld
        contradiction
      · intro other hother
        simp [sent] at hother
  · contradiction

/-- Copies of a row that is held go out. -/
theorem sound_published {row : StoredRow} (h : Sound s) (hrow : row ∈ held (s.relays n))
    (clock copies : Nat) :
    Sound { s with bus := s.bus ++ List.replicate copies ⟨row, envelopeOf row clock⟩ } := by
  obtain ⟨hmem, hnone⟩ := h.kept n row hrow
  have hcopy : ∀ p ∈ s.bus ++ List.replicate copies ⟨row, envelopeOf row clock⟩,
      p ∈ s.bus ∨ p = ⟨row, envelopeOf row clock⟩ := by
    intro p hp
    rcases List.mem_append.mp hp with hold | hnew
    · exact .inl hold
    · exact .inr (List.eq_of_mem_replicate hnew)
  have hmore : ∀ {Q : Publication → Prop}, (∃ p ∈ s.bus, Q p) →
      ∃ p ∈ s.bus ++ List.replicate copies ⟨row, envelopeOf row clock⟩, Q p := by
    rintro Q ⟨p, hp, hQ⟩
    exact ⟨p, List.mem_append_left _ hp, hQ⟩
  refine ⟨h.numbered, ?_, h.locked, h.kept, h.distinct, ?_, ?_, ?_, ?_, h.settled, h.once⟩
  · exact fun v hv hpublished => hmore (h.backed v hv hpublished)
  · exact fun m other hother => hmore (h.gone m other hother)
  · intro p hp
    rcases hcopy p hp with hold | rfl
    · exact h.fresh p hold
    · exact ⟨h.numbered _ hmem, hnone⟩
  · intro p hp
    rcases hcopy p hp with hold | rfl
    · exact h.made p hold
    · exact ⟨clock, rfl⟩
  · intro p hp v hv hid
    rcases hcopy p hp with hold | rfl
    · exact h.same p hold v hv hid
    · have hclash : Clash v ⟨row, none⟩ := .inl hid
      rw [s.heap.eq_of_clash clash_symm hv hmem hclash]
      exact SameRow.refl row

theorem sound_publish {clock : Nat} {first second : Attempt} (h : Sound s)
    (hstep : publishNext s n clock first second = some s') : Sound s' := by
  unfold publishNext at hstep
  split at hstep
  · rename_i began row todo marked hphase
    cases hstep
    have hrow : row ∈ held (s.relays n) := by
      rw [hphase]
      simp [held]
    have hsound := sound_published h hrow clock (publish first second).1
    split
    · rename_i hreturned
      apply sound_of_fewer hsound
      · left
        show (todo ++ (marked ++ [row])).Perm (held (s.relays n))
        rw [hphase, ← List.append_assoc]
        exact List.perm_append_singleton row (todo ++ marked)
      · intro other hother
        simp only [sent, List.mem_append, List.mem_singleton] at hother
        rcases hother with hold | rfl
        · exact hsound.gone n other (by simpa [hphase, sent] using hold)
        · have hcopies := copies_of_returned hreturned
          refine ⟨⟨other, envelopeOf other clock⟩, ?_, rfl⟩
          exact List.mem_append_right _ (List.mem_replicate.mpr ⟨hcopies, rfl⟩)
    · exact sound_leave hsound
  · contradiction

theorem sound_mark (h : Sound s) (hstep : markRow s n = some s') : Sound s' := by
  unfold markRow at hstep
  split at hstep
  · rename_i began row todo marked hphase
    cases hstep
    apply sound_of_fewer h
    · rw [hphase]
      exact .inl (List.Perm.refl _)
    · intro other hother
      exact h.gone n other (by simpa [hphase, sent] using hother)
  · contradiction

theorem sound_finish (h : Sound s) (hstep : finishRelay s n = some s') : Sound s' := by
  unfold finishRelay at hstep
  split at hstep
  · rename_i began marked hphase
    cases hstep
    have hleft := sound_leave (n := n) h
    have hlocked := h.locked n
    have hkept := h.kept n
    have hdistinct := h.distinct n
    have hgone := h.gone n
    rw [hphase] at hlocked hkept hdistinct hgone
    simp only [held, sent, List.nil_append] at hlocked hkept hdistinct hgone
    have hmem : ∀ {id : Nat}, id ∈ marked.map StoredRow.id → ∃ row ∈ marked, row.id = id :=
      fun hid => List.mem_map.mp hid
    refine ⟨?_, ?_, hleft.locked, ?_, hleft.distinct, hleft.gone, hleft.fresh, hleft.made, ?_, ?_,
      ?_⟩
    · intro v' hv'
      obtain ⟨v, hv, rfl⟩ := List.mem_map.mp hv'
      rw [(toOutboxRow_marked began _ v).2.1]
      exact h.numbered v hv
    · intro v' hv' hpublished
      obtain ⟨v, hv, rfl⟩ := List.mem_map.mp hv'
      rw [(toOutboxRow_marked began _ v).2.1]
      by_cases hin : v.row.id ∈ marked.map StoredRow.id
      · obtain ⟨row, hrow, hid⟩ := hmem hin
        obtain ⟨p, hp, rfl⟩ := hgone row hrow
        exact ⟨p, hp, hid⟩
      · rw [Version.marked, if_neg hin] at hpublished
        exact h.backed v hv hpublished
    · intro m row hrow
      obtain ⟨hin, hnone⟩ := hleft.kept m row hrow
      refine ⟨List.mem_map.mpr ⟨_, hin, ?_⟩, hnone⟩
      -- What another relay holds is not among the rows that are marked.
      have hnot : row.id ∉ marked.map StoredRow.id := by
        intro hid
        obtain ⟨other, hother, heq⟩ := hmem hid
        have hmine : s.locks row.id = some n := heq ▸ hlocked other hother
        have hfree := hleft.locked m row hrow
        simp [System.leave, Locks.release, hmine] at hfree
      rw [Version.marked, if_neg hnot]
    · intro p hp v' hv' hid
      obtain ⟨v, hv, rfl⟩ := List.mem_map.mp hv'
      have hrow := toOutboxRow_marked began (marked.map StoredRow.id) v
      rw [hrow.2.1] at hid
      obtain ⟨hcolumns, hsame, hat⟩ := h.same p hp v hv hid
      exact ⟨hrow.1.trans hcolumns, hrow.2.1.trans hsame, hrow.2.2.1.trans hat⟩
    · intro id hid
      rw [List.flatten_append, List.mem_append] at hid
      rcases hid with hold | hnew
      · obtain ⟨hlt, hpublished⟩ := h.settled id hold
        refine ⟨hlt, ?_⟩
        intro v' hv' heq
        obtain ⟨v, hv, rfl⟩ := List.mem_map.mp hv'
        rw [(toOutboxRow_marked began _ v).2.1] at heq
        unfold Version.marked
        split
        · exact Option.some_ne_none _
        · exact hpublished v hv heq
      · rw [List.flatten_singleton] at hnew
        obtain ⟨row, hrow, rfl⟩ := hmem hnew
        refine ⟨h.numbered _ (hkept row hrow).1, ?_⟩
        intro v' hv' heq
        obtain ⟨v, hv, rfl⟩ := List.mem_map.mp hv'
        rw [(toOutboxRow_marked began _ v).2.1] at heq
        have hin : v.row.id ∈ marked.map StoredRow.id := by
          rw [heq]
          exact hnew
        rw [Version.marked, if_pos hin]
        exact Option.some_ne_none _
    · rw [List.flatten_append, List.flatten_singleton]
      refine List.nodup_append.mpr ⟨h.once, hdistinct, ?_⟩
      rintro id hold _ hnew rfl
      obtain ⟨row, hrow, rfl⟩ := hmem hnew
      obtain ⟨hin, hnone⟩ := hkept row hrow
      exact (h.settled _ hold).2 _ hin rfl hnone
  · contradiction

theorem sound_step {label : Label} (h : Sound s) (hstep : step s label = some s') : Sound s' := by
  cases label with
  | tick elapsed =>
      cases hstep
      exact ⟨h.numbered, h.backed, h.locked, h.kept, h.distinct, h.gone, h.fresh, h.made, h.same,
        h.settled, h.once⟩
  | begin m =>
      simp only [step] at hstep
      split at hstep
      · cases hstep
        exact ⟨h.numbered, h.backed, h.locked, h.kept, h.distinct, h.gone, h.fresh, h.made,
          h.same, h.settled, h.once⟩
      · contradiction
  | stage m event subject => exact sound_stage h hstep
  | commit m => exact sound_commit h hstep
  | rollback m => exact sound_rollback h hstep
  | select m batch =>
      simp only [step] at hstep
      split at hstep
      · rename_i hphase
        cases hstep
        apply sound_of_fewer h
        · exact .inr rfl
        · exact fun row hrow => by contradiction
      · contradiction
  | lock m => exact sound_lock h hstep
  | publish m clock first second => exact sound_publish h hstep
  | mark m => exact sound_mark h hstep
  | finish m => exact sound_finish h hstep
  | abort m =>
      simp only [step] at hstep
      split at hstep
      · contradiction
      · cases hstep
        exact sound_leave h
  | prune keepHours =>
      cases hstep
      exact sound_prune h keepHours

end Steps

theorem sound_of_run {past : List (System × Label)} {s : System}
    (run : Run step System.initial past s) : Sound s :=
  run.invariant Sound sound_initial fun _ _ _ h hstep => sound_step h hstep

end SeoPlatform.Shared.RelaySafety
