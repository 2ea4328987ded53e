import SeoPlatform.Orchestrator.Schedulers

namespace SeoPlatform.Orchestrator.HeldSchedules

open SeoPlatform.Foundation.ConstrainedTable
open SeoPlatform.Foundation.RowLocks
open SeoPlatform.Foundation.TransitionSystem
open SeoPlatform.Orchestrator.Schedules
open SeoPlatform.Orchestrator.Schedulers
open SeoPlatform.Shared.Contracts
open SeoPlatform.Shared.Events

section Updates

variable {changes : List Change} {schedules : ScheduleTable} {row : Schedule}

/-- What the UPDATEs of a batch make of a row. -/
def updatedBy (changes : List Change) (row : Schedule) : Schedule :=
  changes.foldl (fun r change => change.appliedWhere r) row

theorem rows_updates :
    (changes.foldl updateSchedules schedules).rows = schedules.rows.map (updatedBy changes) := by
  induction changes generalizing schedules with
  | nil => exact (List.map_id _).symm
  | cons change rest ih =>
      rw [List.foldl_cons, ih]
      change (schedules.rows.map change.appliedWhere).map (updatedBy rest) = _
      rw [List.map_map]
      rfl

theorem id_updatedBy (changes : List Change) (row : Schedule) :
    (updatedBy changes row).id = row.id := by
  induction changes generalizing row with
  | nil => rfl
  | cons change rest ih => exact (ih _).trans (appliedWhere_id change row)

theorem appliedWhere_self (change : Change) (h : row.id = change.schedule.id) :
    change.appliedWhere row = change.applied row :=
  if_pos h

theorem appliedWhere_of_ne (change : Change) (h : row.id ≠ change.schedule.id) :
    change.appliedWhere row = row :=
  if_neg h

theorem updatedBy_of_untouched (h : ∀ change ∈ changes, change.schedule.id ≠ row.id) :
    updatedBy changes row = row := by
  induction changes with
  | nil => rfl
  | cons change rest ih =>
      change updatedBy rest (change.appliedWhere row) = row
      rw [appliedWhere_of_ne change (h change (List.mem_cons_self ..)).symm]
      exact ih fun other hother => h other (List.mem_cons_of_mem _ hother)

/-- A row is changed by the one change that names it. -/
theorem updatedBy_of_touched (hdistinct : (changes.map fun c => c.schedule.id).Nodup)
    {change : Change} (hmem : change ∈ changes) (hid : change.schedule.id = row.id) :
    updatedBy changes row = change.applied row := by
  induction changes with
  | nil => contradiction
  | cons first rest ih =>
      obtain ⟨hfirst, hrest⟩ := List.nodup_cons.mp hdistinct
      change updatedBy rest (first.appliedWhere row) = _
      rcases List.mem_cons.mp hmem with rfl | hmem
      · rw [appliedWhere_self change hid.symm]
        apply updatedBy_of_untouched
        intro other hother heq
        apply hfirst
        rw [applied_id] at heq
        exact List.mem_map.mpr ⟨other, hother, heq.trans hid.symm⟩
      · have hne : row.id ≠ first.schedule.id := fun heq =>
          hfirst (List.mem_map.mpr ⟨change, hmem, hid.trans heq⟩)
        rw [appliedWhere_of_ne first hne]
        exact ih hrest hmem

theorem eq_of_id {a b : Schedule} (ha : a ∈ schedules.rows) (hb : b ∈ schedules.rows)
    (hid : a.id = b.id) : a = b :=
  schedules.eq_of_clash (fun _ _ h => Eq.symm h) ha hb hid

end Updates

/-- The rows a scheduler holds locks on. -/
def held : Phase → List Schedule
  | .idle => []
  | .ticking _ _ => []
  | .claiming _ _ _ claimed => claimed
  | .firing _ todo changes => todo ++ changes.map Change.schedule

/-- What a scheduler read from its clock. -/
def clockOf : Phase → Option Int
  | .idle => none
  | .ticking now _ => some now
  | .claiming now _ _ _ => some now
  | .firing now _ _ => some now

/-- What a scheduler holds is locked, is as it was read, and is due. -/
structure Holds (s : System) (n : Nat) (phase : Phase) : Prop where
  locked : ∀ row ∈ held phase, s.locks row.id = some n
  kept : ∀ row ∈ held phase, row ∈ s.schedules.rows
  distinct : ((held phase).map Schedule.id).Nodup
  due : ∀ now ∈ clockOf phase, ∀ row ∈ held phase, row.Due now

def Held (s : System) : Prop := ∀ n, Holds s n (s.schedulers n)

theorem holds_of_none {s : System} {n : Nat} {phase : Phase} (h : held phase = []) :
    Holds s n phase := by
  refine ⟨?_, ?_, ?_, ?_⟩
  · simp [h]
  · simp [h]
  · simp [h]
  · simp [h]

theorem held_initial : Held System.initial := fun _ => holds_of_none rfl

section Steps

variable {s s' : System} {n : Nat}

@[simp] theorem schedulers_setScheduler_self {phase : Phase} :
    (s.setScheduler n phase).schedulers n = phase :=
  Function.update_self ..

theorem schedulers_setScheduler_of_ne {phase : Phase} {m : Nat} (hm : m ≠ n) :
    (s.setScheduler n phase).schedulers m = s.schedulers m :=
  Function.update_of_ne hm ..

/-- A scheduler that comes to hold no other rows than before. -/
theorem Holds.move {phase phase' : Phase} (h : Holds s n phase) (hlocks : s'.locks = s.locks)
    (hschedules : s'.schedules = s.schedules) (hheld : (held phase').Perm (held phase))
    (hclock : clockOf phase' = clockOf phase) : Holds s' n phase' := by
  refine ⟨?_, ?_, ?_, ?_⟩
  · rw [hlocks]
    exact fun row hrow => h.locked row (hheld.subset hrow)
  · rw [hschedules]
    exact fun row hrow => h.kept row (hheld.subset hrow)
  · exact (hheld.map _).nodup_iff.mpr h.distinct
  · rw [hclock]
    exact fun now hnow row hrow => h.due now hnow row (hheld.subset hrow)

/-- What happens to rows that a scheduler does not hold. -/
theorem Holds.frame {phase : Phase} (h : Holds s n phase)
    (hlocks : ∀ id, s.locks id = some n → s'.locks id = some n)
    (hrows : ∀ row ∈ s.schedules.rows, s.locks row.id = some n → row ∈ s'.schedules.rows) :
    Holds s' n phase where
  locked row hrow := hlocks row.id (h.locked row hrow)
  kept row hrow := hrows row (h.kept row hrow) (h.locked row hrow)
  distinct := h.distinct
  due := h.due

theorem held_setScheduler {phase : Phase} (h : Held s)
    (hphase : Holds (s.setScheduler n phase) n phase) : Held (s.setScheduler n phase) := by
  intro m
  rcases eq_or_ne m n with rfl | hm
  · rw [schedulers_setScheduler_self]
    exact hphase
  · rw [schedulers_setScheduler_of_ne hm]
    exact (h m).frame (fun _ hid => hid) fun _ hrow _ => hrow

theorem held_leave (h : Held s) : Held (s.leave n) := by
  intro m
  rcases eq_or_ne m n with rfl | hm
  · have hidle : (s.leave m).schedulers m = .idle := schedulers_setScheduler_self
    rw [hidle]
    exact holds_of_none rfl
  · have hsame : (s.leave n).schedulers m = s.schedulers m := schedulers_setScheduler_of_ne hm
    rw [hsame]
    exact (h m).frame (fun _ hid => Locks.held_release hid hm) fun _ hrow _ => hrow

/-- What others do to the tables where nobody holds a row. -/
theorem held_of_rows (h : Held s) (hschedulers : s'.schedulers = s.schedulers)
    (hlocks : s'.locks = s.locks)
    (hrows : ∀ row ∈ s.schedules.rows, s.locks row.id ≠ none → row ∈ s'.schedules.rows) :
    Held s' := by
  intro m
  rw [hschedulers]
  apply (h m).frame
  · rw [hlocks]
    exact fun _ hid => hid
  · intro row hrow hid
    apply hrows row hrow
    rw [hid]
    exact Option.some_ne_none m

theorem claimable_eq_some {now : Int} {id : String} {row : Schedule}
    (h : claimable s now id = some row) :
    s.locks id = none ∧ row.id = id ∧ row ∈ s.schedules.rows ∧ row.Due now := by
  unfold claimable at h
  split at h
  · rename_i hfree
    have hcond := List.find?_some h
    simp only [decide_eq_true_eq] at hcond
    exact ⟨hfree, hcond.1, List.mem_of_find?_eq_some h, hcond.2⟩
  · contradiction

theorem held_lock (h : Held s) (hstep : lockNext s n = some s') : Held s' := by
  unfold lockNext at hstep
  split at hstep
  · rename_i now candidates claimed hphase
    cases hstep
    apply held_setScheduler h
    have hn := h n
    rw [hphase] at hn
    exact hn.move rfl rfl (by simp [held]) rfl
  · rename_i now room claimed _ hphase
    cases hstep
    apply held_setScheduler h
    have hn := h n
    rw [hphase] at hn
    exact hn.move rfl rfl (by simp [held]) rfl
  · rename_i now room id rest claimed hphase
    have hn := h n
    rw [hphase] at hn
    split at hstep
    · cases hstep
      apply held_setScheduler h
      exact hn.move rfl rfl (List.Perm.refl _) rfl
    · rename_i row hclaim
      cases hstep
      obtain ⟨hfree, rfl, hrow, hdue⟩ := claimable_eq_some hclaim
      intro m
      rcases eq_or_ne m n with rfl | hm
      · show Holds _ m ((s.setScheduler m _).schedulers m)
        rw [schedulers_setScheduler_self]
        refine ⟨?_, ?_, ?_, ?_⟩
        · intro other hother
          rcases List.mem_append.mp hother with hold | hnew
          · exact Locks.held_take (hn.locked other hold) hfree
          · rw [List.mem_singleton.mp hnew]
            exact Locks.take_self
        · intro other hother
          rcases List.mem_append.mp hother with hold | hnew
          · exact hn.kept other hold
          · rw [List.mem_singleton.mp hnew]
            exact hrow
        · show ((claimed ++ [row]).map Schedule.id).Nodup
          rw [List.map_append]
          refine List.nodup_append.mpr ⟨hn.distinct, List.pairwise_singleton _ _, ?_⟩
          rintro id hid _ hsingle rfl
          obtain ⟨other, hother, heq⟩ := List.mem_map.mp hid
          have hheld := hn.locked other hother
          rw [heq, List.mem_singleton.mp hsingle, hfree] at hheld
          contradiction
        · intro now' hnow other hother
          rcases List.mem_append.mp hother with hold | hnew
          · exact hn.due now' hnow other hold
          · cases hnow
            rw [List.mem_singleton.mp hnew]
            exact hdue
      · show Holds _ m ((s.setScheduler n _).schedulers m)
        rw [schedulers_setScheduler_of_ne hm]
        exact (h m).frame (fun _ hid => Locks.held_take hid hfree) fun _ hother _ => hother
  · contradiction

theorem schedule_fireRow {host : Host} {wording : Wording} {row : Schedule}
    {workflowId eventId : String} {now : Int} {change : Change}
    (h : fireRow host wording row workflowId eventId now = .ok change) :
    change.schedule = row := by
  unfold fireRow at h
  split at h
  · obtain rfl := Except.ok.inj h
    rfl
  · cases hnext : catchUp host row now with
    | error e =>
        rw [hnext] at h
        contradiction
    | ok next =>
        rw [hnext] at h
        obtain rfl := Except.ok.inj h
        rfl

theorem held_fire {host : Host} {wording : Wording} {uuid : Nat → String} (h : Held s)
    (hstep : fireNext host wording uuid s n = some s') : Held s' := by
  unfold fireNext at hstep
  split at hstep
  · rename_i now row todo changes hphase
    have hdrew : Held { s with drawn := s.drawn + 2 } :=
      held_of_rows h rfl rfl fun _ hrow _ => hrow
    dsimp only at hstep
    split at hstep
    · cases hstep
      exact held_leave hdrew
    · rename_i change hchange
      cases hstep
      apply held_setScheduler hdrew
      have hn := hdrew n
      rw [show ({ s with drawn := s.drawn + 2 } : System).schedulers n = _ from hphase] at hn
      refine hn.move rfl rfl ?_ rfl
      simp only [held, List.map_append, List.map_cons, List.map_nil, schedule_fireRow hchange]
      rw [← List.append_assoc]
      exact List.perm_append_singleton row (todo ++ changes.map Change.schedule)
  · contradiction

theorem held_commit (h : Held s) (hstep : commitBatch s n = some s') : Held s' := by
  unfold commitBatch at hstep
  split at hstep
  · rename_i now changes hphase
    cases hstep
    have hn := h n
    rw [hphase] at hn
    intro m
    rcases eq_or_ne m n with rfl | hm
    · show Holds _ m ((s.setScheduler m .idle).schedulers m)
      rw [schedulers_setScheduler_self]
      exact holds_of_none rfl
    · show Holds _ m ((s.setScheduler n .idle).schedulers m)
      rw [schedulers_setScheduler_of_ne hm]
      apply (h m).frame
      · exact fun _ hid => Locks.held_release hid hm
      · -- The changes are of rows that the committing scheduler has locked.
        intro row hrow hid
        rw [rows_updates]
        refine List.mem_map.mpr ⟨row, hrow, updatedBy_of_untouched ?_⟩
        intro change hchange heq
        have hmine := hn.locked change.schedule (List.mem_map_of_mem hchange)
        rw [heq, hid] at hmine
        exact hm (Option.some.inj hmine)
  · contradiction

theorem held_step {host : Host} {wording : Wording} {uuid : Nat → String} {label : Label}
    (h : Held s) (hstep : step host wording uuid s label = some s') : Held s' := by
  cases label with
  | tick elapsed =>
      cases hstep
      exact held_of_rows h rfl rfl fun _ hrow _ => hrow
  | create creator draft =>
      simp only [step, createSchedule] at hstep
      split at hstep
      · contradiction
      · obtain ⟨schedules, hinsert, rfl⟩ := Option.map_eq_some_iff.mp hstep
        refine held_of_rows h rfl rfl fun row hrow _ => ?_
        show row ∈ schedules.rows
        rw [(Table.insert_eq_some.mp hinsert).2]
        exact List.mem_append_left _ hrow
  | pause id active =>
      simp only [step] at hstep
      split at hstep
      · rename_i hfree
        cases hstep
        refine held_of_rows h rfl rfl fun row hrow hlocked => ?_
        refine List.mem_map.mpr ⟨row, hrow, if_neg ?_⟩
        rintro rfl
        exact hlocked hfree
      · contradiction
  | delete id =>
      simp only [step] at hstep
      split at hstep
      · rename_i hfree
        cases hstep
        refine held_of_rows h rfl rfl fun row hrow hlocked => ?_
        refine Table.mem_delete.mpr ⟨hrow, decide_eq_false ?_⟩
        rintro rfl
        exact hlocked hfree
      · contradiction
  | begin n limit =>
      simp only [step] at hstep
      split at hstep
      · cases hstep
        exact held_setScheduler h (holds_of_none rfl)
      · contradiction
  | select n order =>
      simp only [step, selectDue] at hstep
      split at hstep
      · split at hstep
        · cases hstep
          exact held_setScheduler h (holds_of_none rfl)
        · contradiction
      · contradiction
  | lock n => exact held_lock h hstep
  | fire n => exact held_fire h hstep
  | commit n => exact held_commit h hstep
  | abort n =>
      simp only [step] at hstep
      split at hstep
      · contradiction
      · cases hstep
        exact held_leave h

end Steps

theorem held_of_run {host : Host} {wording : Wording} {uuid : Nat → String}
    {past : List (System × Label)} {s : System}
    (run : Run (step host wording uuid) System.initial past s) : Held s :=
  run.invariant Held held_initial fun _ _ _ h hstep => held_step h hstep

end SeoPlatform.Orchestrator.HeldSchedules
