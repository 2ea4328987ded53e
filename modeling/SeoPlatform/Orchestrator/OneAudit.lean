import SeoPlatform.Orchestrator.Firings
import SeoPlatform.Orchestrator.Occurrences

namespace SeoPlatform.Orchestrator.OneAudit

open SeoPlatform.Foundation.CivilTime
open SeoPlatform.Foundation.ConstrainedTable
open SeoPlatform.Foundation.TransitionSystem
open SeoPlatform.Orchestrator.Firings
open SeoPlatform.Orchestrator.HeldSchedules
open SeoPlatform.Orchestrator.Occurrences
open SeoPlatform.Orchestrator.Schedules
open SeoPlatform.Orchestrator.Schedulers
open SeoPlatform.Shared.Contracts
open SeoPlatform.Shared.Events

def firingsFor (firings : List Firing) (id : String) : List Firing :=
  firings.filter fun f => f.schedule.id = id

/-- The firings that were committed are those the tables tell of. -/
structure Counted (host : Host) (s : System) : Prop where
  turned : ∀ f ∈ s.firings, Turned host f
  pending : ∀ n, ∀ f ∈ pending (s.schedulers n), Turned host f
  staged : s.outbox.rows = s.firings.map Firing.row
  runs : ∀ row ∈ s.schedules.rows, row.runs = (firingsFor s.firings row.id).length

section Counting

variable {host : Host} {wording : Wording} {uuid : Nat → String} {s s' : System}

theorem counted_initial : Counted host System.initial where
  turned f hf := by contradiction
  pending n f hf := by contradiction
  staged := rfl
  runs row hrow := by contradiction

theorem firingsFor_append (a b : List Firing) (id : String) :
    firingsFor (a ++ b) id = firingsFor a id ++ firingsFor b id :=
  List.filter_append ..

theorem firingsFor_cons (f : Firing) (rest : List Firing) (id : String) :
    firingsFor (f :: rest) id =
      if f.schedule.id = id then f :: firingsFor rest id else firingsFor rest id := by
  unfold firingsFor
  rw [List.filter_cons]
  simp only [decide_eq_true_eq]

theorem firingsFor_eq_nil {firings : List Firing} {id : String}
    (h : ∀ f ∈ firings, f.schedule.id ≠ id) : firingsFor firings id = [] :=
  List.filter_eq_nil_iff.mpr fun f hf => by simpa using h f hf

theorem runs_updatedBy (changes : List Change) (row : Schedule) :
    (updatedBy changes row).runs = row.runs + (firingsFor (firingsOf changes) row.id).length := by
  induction changes generalizing row with
  | nil => rfl
  | cons change rest ih =>
      have hrest : (updatedBy (change :: rest) row).runs =
          (change.appliedWhere row).runs +
            (firingsFor (firingsOf rest) (change.appliedWhere row).id).length := ih _
      rw [hrest, appliedWhere_id]
      cases change with
      | deactivated schedule =>
          have hsame : ((Change.deactivated schedule).appliedWhere row).runs = row.runs := by
            unfold Change.appliedWhere
            split <;> rfl
          rw [hsame]
          rfl
      | fired f =>
          have hcons : firingsOf (.fired f :: rest) = f :: firingsOf rest := rfl
          rw [hcons, firingsFor_cons]
          by_cases hid : row.id = f.schedule.id
          · have hmore : ((Change.fired f).applied row).runs = row.runs + 1 := rfl
            rw [appliedWhere_self _ hid, hmore, if_pos hid.symm, List.length_cons]
            omega
          · rw [appliedWhere_of_ne _ hid, if_neg (Ne.symm hid)]

/-- Events with new ids are staged, each as a row of its own. -/
theorem rows_stageChanges {changes : List Change} {outbox : Outbox}
    (hnodup : ((firingsOf changes).map Firing.eventId).Nodup)
    (hfresh : ∀ f ∈ firingsOf changes, ∀ row ∈ outbox.rows, row.eventId ≠ f.eventId) :
    (changes.foldl stageChange outbox).rows =
      outbox.rows ++ (firingsOf changes).map Firing.row := by
  induction changes generalizing outbox with
  | nil => exact (List.append_nil _).symm
  | cons change rest ih =>
      cases change with
      | deactivated schedule => exact ih hnodup hfresh
      | fired f =>
          have hcons : firingsOf (.fired f :: rest) = f :: firingsOf rest := rfl
          rw [hcons] at hnodup hfresh ⊢
          obtain ⟨hf, hrest⟩ := List.nodup_cons.mp hnodup
          have hrows : (stageChange outbox (.fired f)).rows = outbox.rows ++ [Firing.row f] :=
            rows_stage_of_fresh (hfresh f (List.mem_cons_self ..))
          rw [List.foldl_cons, ih hrest, hrows, List.map_cons, List.append_assoc]
          · rfl
          · rw [hrows]
            intro g hg row hrow
            rcases List.mem_append.mp hrow with hold | hnew
            · exact hfresh g (List.mem_cons_of_mem _ hg) row hold
            · rw [List.mem_singleton.mp hnew]
              intro heq
              exact hf (List.mem_map.mpr ⟨g, hg, Eq.symm heq⟩)

theorem eventId_mem_idsOf {firings : List Firing} {f : Firing} (hf : f ∈ firings) :
    f.eventId ∈ idsOf firings :=
  List.mem_flatMap.mpr ⟨f, hf, by simp⟩

theorem nodup_workflowIds {firings : List Firing} (h : (idsOf firings).Nodup) :
    (firings.map Firing.workflowId).Nodup ∧ (firings.map Firing.eventId).Nodup := by
  induction firings with
  | nil => exact ⟨List.nodup_nil, List.nodup_nil⟩
  | cons f rest ih =>
      have hcons : idsOf (f :: rest) = f.workflowId :: f.eventId :: idsOf rest := rfl
      rw [hcons] at h
      obtain ⟨hworkflow, htail⟩ := List.nodup_cons.mp h
      obtain ⟨hevent, hrest⟩ := List.nodup_cons.mp htail
      obtain ⟨ih₁, ih₂⟩ := ih hrest
      constructor
      · refine List.nodup_cons.mpr ⟨?_, ih₁⟩
        intro hmem
        obtain ⟨g, hg, heq⟩ := List.mem_map.mp hmem
        apply hworkflow
        rw [← heq]
        exact List.mem_cons_of_mem _ (List.mem_flatMap.mpr ⟨g, hg, by simp⟩)
      · refine List.nodup_cons.mpr ⟨?_, ih₂⟩
        intro hmem
        obtain ⟨g, hg, heq⟩ := List.mem_map.mp hmem
        apply hevent
        rw [← heq]
        exact eventId_mem_idsOf hg

theorem counted_step (huuid : Function.Injective uuid) {label : Label} (hheld : Held s)
    (hids : Identified uuid s) (h : Counted host s)
    (hstep : step host wording uuid s label = some s') : Counted host s' := by
  cases step_effect hheld hstep with
  | quiet hdrawn houtbox hfirings hrows hschedulers =>
      refine ⟨?_, ?_, ?_, ?_⟩
      · rw [hfirings]
        exact h.turned
      · intro n f hf
        rcases hschedulers n with heq | hnil
        · exact h.pending n f (heq ▸ hf)
        · rw [hnil] at hf
          contradiction
      · rw [houtbox, hfirings]
        exact h.staged
      · intro row' hrow'
        obtain ⟨row, hrow, hsame⟩ := hrows row' hrow'
        rw [hfirings, hsame.runs, hsame.id]
        exact h.runs row hrow
  | created row hdrawn houtbox hfirings hschedulers hrows hid hruns =>
      refine ⟨?_, ?_, ?_, ?_⟩
      · rw [hfirings]
        exact h.turned
      · rw [hschedulers]
        exact h.pending
      · rw [houtbox, hfirings]
        exact h.staged
      · rw [hrows, hfirings]
        intro other hother
        rcases List.mem_append.mp hother with hold | hnew
        · exact h.runs other hold
        · -- The row has a new id, so nothing was ever fired for it.
          rw [List.mem_singleton.mp hnew, hruns, firingsFor_eq_nil]
          · rfl
          · intro f hf heq
            apply not_drawn huuid (le_refl s.drawn)
            rw [← hid, ← heq]
            exact hids.fired f hf
  | drew n f hdrawn houtbox hfirings hschedules hown hothers hworkflow hevent hturned =>
      refine ⟨?_, ?_, ?_, ?_⟩
      · rw [hfirings]
        exact h.turned
      · intro m g hg
        rcases eq_or_ne m n with rfl | hm
        · rw [hown] at hg
          rcases List.mem_append.mp hg with hold | hnew
          · exact h.pending m g hold
          · rw [List.mem_singleton.mp hnew]
            exact hturned
        · rw [hothers m hm] at hg
          exact h.pending m g hg
      · rw [houtbox, hfirings]
        exact h.staged
      · rw [hschedules, hfirings]
        exact h.runs
  | committed n now changes hphase hdrawn houtbox hfirings hrows hown hothers =>
      have hmine : Firings.pending (s.schedulers n) = firingsOf changes := by rw [hphase]; rfl
      refine ⟨?_, ?_, ?_, ?_⟩
      · rw [hfirings]
        intro f hf
        rcases List.mem_append.mp hf with hold | hnew
        · exact h.turned f hold
        · exact h.pending n f (hmine ▸ hnew)
      · intro m f hf
        rcases eq_or_ne m n with rfl | hm
        · rw [hown] at hf
          contradiction
        · rw [hothers m hm] at hf
          exact h.pending m f hf
      · have hnodup := (nodup_workflowIds (hids.own n)).2
        rw [hmine] at hnodup
        rw [houtbox, hfirings, rows_stageChanges hnodup, h.staged, List.map_append]
        intro f hf row hrow heq
        rw [h.staged] at hrow
        obtain ⟨g, hg, rfl⟩ := List.mem_map.mp hrow
        apply hids.apart n f.eventId
        · rw [hmine]
          exact eventId_mem_idsOf hf
        · rw [← heq]
          exact eventId_mem_idsOf hg
      · rw [hrows, hfirings]
        intro row' hrow'
        obtain ⟨row, hrow, rfl⟩ := List.mem_map.mp hrow'
        rw [runs_updatedBy, id_updatedBy, firingsFor_append, List.length_append, h.runs row hrow]

end Counting

/-- From a firing of a schedule to the next there are at least so many microseconds,
and as many from the last to where the schedule points. -/
structure Spaced (gap : Int) (s : System) : Prop where
  ahead : ∀ f ∈ s.firings, ∀ row ∈ s.schedules.rows, row.id = f.schedule.id →
    f.now + gap ≤ row.nextRunAt
  apart : s.firings.Pairwise fun f g =>
    f.schedule.id = g.schedule.id → f.now + gap ≤ g.schedule.nextRunAt

section Spacing

variable {host : Host} {wording : Wording} {uuid : Nat → String} {s s' : System} {gap : Int}

/-- A batch changes a row once at most. -/
theorem distinct_changes {n : Nat} {now : Int} {changes : List Change} (hheld : Held s)
    (hphase : s.schedulers n = .firing now [] changes) :
    (changes.map fun c => c.schedule.id).Nodup := by
  have hn := (hheld n).distinct
  rw [hphase] at hn
  simpa [held, Function.comp_def] using hn

theorem nextRunAt_of_fired {n : Nat} {now : Int} {changes : List Change} (hheld : Held s)
    (hphase : s.schedulers n = .firing now [] changes) {f : Firing}
    (hf : f ∈ firingsOf changes) {row : Schedule} (hrow : row.id = f.schedule.id) :
    (updatedBy changes row).nextRunAt = f.next := by
  have hmem := (schedule_mem_of_fired hheld hphase hf).1
  rw [updatedBy_of_touched (distinct_changes hheld hphase) hmem hrow.symm]
  rfl

theorem nextRunAt_of_unfired {changes : List Change} {row : Schedule}
    (h : ∀ g ∈ firingsOf changes, row.id ≠ g.schedule.id) :
    (updatedBy changes row).nextRunAt = row.nextRunAt := by
  induction changes generalizing row with
  | nil => rfl
  | cons change rest ih =>
      have hrest : (updatedBy rest (change.appliedWhere row)).nextRunAt =
          (change.appliedWhere row).nextRunAt := by
        apply ih
        intro g hg
        rw [appliedWhere_id]
        apply h
        unfold firingsOf at hg ⊢
        rw [List.filterMap_cons]
        split
        · exact hg
        · exact List.mem_cons_of_mem _ hg
      refine hrest.trans ?_
      unfold Change.appliedWhere
      split
      · rename_i hid
        cases change with
        | deactivated schedule => rfl
        | fired f => exact absurd hid (h f (List.mem_cons_self ..))
      · rfl

theorem apart_firingsOf {changes : List Change}
    (h : (changes.map fun c => c.schedule.id).Nodup) :
    (firingsOf changes).Pairwise fun f g => f.schedule.id ≠ g.schedule.id := by
  apply List.Pairwise.filterMap _ _ (List.pairwise_map.mp h)
  intro c c' hne f hf g hg
  cases c with
  | deactivated schedule => contradiction
  | fired f' =>
      cases c' with
      | deactivated schedule => contradiction
      | fired g' =>
          cases hf
          cases hg
          exact hne

theorem spaced_step (huuid : Function.Injective uuid) {label : Label} (hheld : Held s)
    (hids : Identified uuid s) (hcounted : Counted host s) (h : Spaced gap s) (hgap : 0 ≤ gap)
    (hstep : step host wording uuid s label = some s')
    (hwide : ∀ f ∈ s'.firings, f.now + gap ≤ f.next) : Spaced gap s' := by
  cases step_effect hheld hstep with
  | quiet hdrawn houtbox hfirings hrows hschedulers =>
      refine ⟨?_, hfirings ▸ h.apart⟩
      rw [hfirings]
      intro f hf row' hrow' hid
      obtain ⟨row, hrow, hsame⟩ := hrows row' hrow'
      rw [hsame.nextRunAt]
      exact h.ahead f hf row hrow (hsame.id ▸ hid)
  | created row hdrawn houtbox hfirings hschedulers hrows hid hruns =>
      refine ⟨?_, hfirings ▸ h.apart⟩
      rw [hfirings, hrows]
      intro f hf other hother heq
      rcases List.mem_append.mp hother with hold | hnew
      · exact h.ahead f hf other hold heq
      · rw [List.mem_singleton.mp hnew, hid] at heq
        exact absurd (heq ▸ hids.fired f hf) (not_drawn huuid (le_refl s.drawn))
  | drew n f hdrawn houtbox hfirings hschedules hown hothers hworkflow hevent hturned =>
      exact ⟨by rw [hfirings, hschedules]; exact h.ahead, hfirings ▸ h.apart⟩
  | committed n now changes hphase hdrawn houtbox hfirings hrows hown hothers =>
      have hturned : ∀ f ∈ firingsOf changes, Turned host f := by
        intro f hf
        apply hcounted.pending n
        rw [hphase]
        exact hf
      have hbefore : ∀ f ∈ s.firings, ∀ g ∈ firingsOf changes,
          f.schedule.id = g.schedule.id → f.now + gap ≤ g.schedule.nextRunAt := by
        intro f hf g hg hid
        exact h.ahead f hf _ (schedule_mem_of_fired hheld hphase hg).2 hid.symm
      have hwider : ∀ f ∈ firingsOf changes, f.now + gap ≤ f.next := by
        intro f hf
        apply hwide
        rw [hfirings]
        exact List.mem_append_right _ hf
      constructor
      · rw [hfirings, hrows]
        intro f hf row' hrow' hid
        obtain ⟨row, hrow, rfl⟩ := List.mem_map.mp hrow'
        rw [id_updatedBy] at hid
        by_cases hfired : ∃ g ∈ firingsOf changes, row.id = g.schedule.id
        · obtain ⟨g, hg, hgid⟩ := hfired
          rw [nextRunAt_of_fired hheld hphase hg hgid]
          rcases List.mem_append.mp hf with hold | hnew
          · have hstart := hbefore f hold g hg (hid.symm.trans hgid)
            have hdue := (hturned g hg).due.2
            have hnext := hwider g hg
            omega
          · have hsame : f.next = g.next := by
              rw [← nextRunAt_of_fired hheld hphase hnew hid,
                nextRunAt_of_fired hheld hphase hg hgid]
            rw [← hsame]
            exact hwider f hnew
        · have hold : f ∈ s.firings := by
            rcases List.mem_append.mp hf with hold | hnew
            · exact hold
            · exact absurd ⟨f, hnew, hid⟩ hfired
          rw [nextRunAt_of_unfired fun g hg heq => hfired ⟨g, hg, heq⟩]
          exact h.ahead f hold row hrow hid
      · rw [hfirings]
        refine List.pairwise_append.mpr ⟨h.apart, ?_, hbefore⟩
        exact (apart_firingsOf (distinct_changes hheld hphase)).imp fun hne heq => absurd heq hne

end Spacing

section Runs

variable {host : Host} {wording : Wording} {uuid : Nat → String} {past : List (System × Label)}
  {s : System}

theorem counted_of_run (huuid : Function.Injective uuid)
    (run : Run (step host wording uuid) System.initial past s) :
    Identified uuid s ∧ Counted host s := by
  have hall : Held s ∧ Identified uuid s ∧ Counted host s := by
    apply run.invariant fun s => Held s ∧ Identified uuid s ∧ Counted host s
    · exact ⟨held_initial, identified_initial, counted_initial⟩
    · rintro s label s' ⟨hheld, hids, hcounted⟩ hstep
      exact ⟨held_step hheld hstep, identified_step huuid hheld hids hstep,
        counted_step huuid hheld hids hcounted hstep⟩
  exact hall.2

theorem firings_mono {s' : System} {label : Label} (hheld : Held s)
    (hstep : step host wording uuid s label = some s') : ∀ f ∈ s.firings, f ∈ s'.firings := by
  intro f hf
  cases step_effect hheld hstep with
  | quiet _ _ hfirings _ _ => exact hfirings ▸ hf
  | created _ _ _ hfirings _ _ _ _ => exact hfirings ▸ hf
  | drew _ _ _ _ hfirings _ _ _ _ _ _ => exact hfirings ▸ hf
  | committed _ _ _ _ _ _ hfirings _ _ _ =>
      rw [hfirings]
      exact List.mem_append_left _ hf

/-- Where every firing points its schedule far enough ahead, the firings lie as far apart. -/
theorem spaced_of_run {gap : Int} (hgap : 0 ≤ gap) (huuid : Function.Injective uuid)
    (run : Run (step host wording uuid) System.initial past s)
    (hwide : ∀ f ∈ s.firings, f.now + gap ≤ f.next) : Spaced gap s := by
  induction run with
  | refl => exact ⟨fun f hf => by contradiction, .nil⟩
  | snoc run hstep ih =>
      have hheld := held_of_run run
      obtain ⟨hids, hcounted⟩ := counted_of_run huuid run
      have hbefore := ih fun f hf => hwide f (firings_mono hheld hstep f hf)
      exact spaced_step huuid hheld hids hcounted hbefore hgap hstep hwide

/-- Every run of a schedule has an event and a workflow of its own, and what was
missed while nobody looked is made up for by one run. -/
theorem one_audit (huuid : Function.Injective uuid)
    (hnext : ∀ schedule now next, catchUp host schedule now = .ok next → now < next)
    (run : Run (step host wording uuid) System.initial past s) :
    (∀ row ∈ s.schedules.rows, row.runs = (firingsFor s.firings row.id).length) ∧
    s.outbox.rows = s.firings.map Firing.row ∧
    (s.firings.map Firing.workflowId).Nodup ∧
    s.firings.Pairwise (fun f g => f.schedule.id = g.schedule.id →
      f.schedule.nextRunAt < g.schedule.nextRunAt ∧ f.now < g.schedule.nextRunAt) ∧
    ∀ f ∈ s.firings, f.schedule.nextRunAt ≤ f.now ∧
      ∀ row ∈ s.schedules.rows, row.id = f.schedule.id → f.now < row.nextRunAt := by
  obtain ⟨hids, hcounted⟩ := counted_of_run huuid run
  have hspaced : Spaced 1 s := by
    apply spaced_of_run (by decide) huuid run
    intro f hf
    exact hnext _ _ _ (hcounted.turned f hf).next
  have hdue : ∀ f ∈ s.firings, f.schedule.nextRunAt ≤ f.now := fun f hf =>
    (hcounted.turned f hf).due.2
  refine ⟨hcounted.runs, hcounted.staged, (nodup_workflowIds hids.once).1, ?_, ?_⟩
  · apply hspaced.apart.imp_of_mem
    intro f g hf hg hapart hid
    have hlater := hapart hid
    have hearlier := hdue f hf
    exact ⟨by omega, by omega⟩
  · intro f hf
    refine ⟨hdue f hf, ?_⟩
    intro row hrow hid
    have hahead := hspaced.ahead f hf row hrow hid
    omega

end Runs

/-- A machine that takes every zone for UTC. -/
def utcHost : Host where
  zoneInfo _ := .ok (.constant 0)
  repr := id

def plainUuid (k : Nat) : String := String.ofList (List.replicate k 'x')

theorem plainUuid_injective : Function.Injective plainUuid := by
  intro k j h
  have hlists := congrArg (fun text => text.toList.length) h
  simpa [plainUuid] using hlists

/-- An audit of one site, every day at nine. -/
def everyMorning : Draft where
  goal := "site_audit"
  inputs := [("start_url", .str "https://shop.ir")]
  cadence := "daily"
  tz := "UTC"

def hours (n : Nat) : Nat := n * 3600000000

/-- The second of June 2026, midnight. -/
def midnight : Nat := hours (739769 * 24)

/-- A pass of a scheduler over a table of one due schedule. -/
def pass (n : Nat) (id : String) : List Label :=
  [.begin n 20, .select n [id], .lock n, .lock n, .fire n, .commit n]

/-- A schedule that was due for three mornings runs once. -/
theorem one_audit_after_three_days :
    ∃ past s, past.map Prod.snd =
        [.tick midnight, .create utcHost everyMorning, .tick (hours 58)] ++ pass 0 "" ∧
      Run (step utcHost (fun _ _ => "") plainUuid) System.initial past s ∧
      s.firings.length = 1 ∧
      ∀ row ∈ s.schedules.rows, row.runs = (firingsFor s.firings row.id).length := by
  obtain ⟨past, s, hlabels, run, hfired⟩ := Run.of_check
    (step utcHost (fun _ _ => "") plainUuid) System.initial
    ([.tick midnight, .create utcHost everyMorning, .tick (hours 58)] ++ pass 0 "")
    (fun _ s => s.firings.length == 1) (by decide +kernel)
  have haudit := one_audit plainUuid_injective
    (fun schedule now next h => lt_nextRun_of_constant rfl h) run
  exact ⟨past, s, hlabels, run, eq_of_beq hfired, haudit.1⟩

end SeoPlatform.Orchestrator.OneAudit
