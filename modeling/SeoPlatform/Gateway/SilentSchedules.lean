import SeoPlatform.Gateway.ScheduleCalls

namespace SeoPlatform.Gateway.SilentSchedules

open SeoPlatform.Foundation.ConstrainedTable
open SeoPlatform.Foundation.RowLocks
open SeoPlatform.Foundation.TransitionSystem
open SeoPlatform.Gateway.ScheduleCalls
open SeoPlatform.Gateway.ServiceClient
open SeoPlatform.Orchestrator
open SeoPlatform.Orchestrator.HeldSchedules
open SeoPlatform.Orchestrator.OneAudit
open SeoPlatform.Orchestrator.ScheduleApi
open SeoPlatform.Orchestrator.Schedules
open SeoPlatform.Orchestrator.Schedulers (System)

variable {deployment : Deployment} {s s' : System} {id tenant : String}
  {past : List (System × Label)}

section Locks

/-- A statement that goes ahead reaches only rows that nobody holds. -/
theorem unlocked_of_reached {tenantId : Option String} (hfree : free s id tenantId = true)
    {row : Schedule} (hrow : row ∈ s.schedules.rows)
    (hreached : Schedule.reached id tenantId row = true) : s.locks row.id = none := by
  have hid : row.id = id := by
    unfold Schedule.reached at hreached
    exact of_decide_eq_true (Bool.and_eq_true_iff.mp hreached).1
  rcases (Bool.or_eq_true _ _).mp hfree with hnone | hlock
  · have hmissing := List.find?_eq_none.mp (Option.isNone_iff_eq_none.mp hnone) row hrow
    exact absurd hreached hmissing
  · rw [hid]
    exact Option.isNone_iff_eq_none.mp hlock

theorem held_of_came {principal : Principal} {call : Call} {told : Response Schedule}
    (hheld : Held s) (h : Came deployment s principal call told s') : Held s' := by
  cases h with
  | refused => exact hheld
  | listed => exact hheld
  | stored h =>
      obtain ⟨hschedulers, hlocks, -, -, hrows⟩ := createSchedule_cases h
      refine held_of_rows hheld hschedulers hlocks fun row hrow _ => ?_
      rcases hrows with ⟨-, hsame⟩ | ⟨new, -, hrows, -⟩
      · rw [hsame]
        exact hrow
      · rw [hrows]
        exact List.mem_append_left _ hrow
  | paused h =>
      unfold pauseSchedule at h
      split at h
      · rename_i hfree
        cases h
        refine held_of_rows hheld rfl rfl fun row hrow hlocked => ?_
        exact List.mem_map.mpr ⟨row, hrow, if_neg fun hreached =>
          hlocked (unlocked_of_reached hfree hrow hreached)⟩
      · contradiction
  | destroyed h =>
      unfold deleteSchedule at h
      split at h
      · rename_i hfree
        cases h
        refine held_of_rows hheld rfl rfl fun row hrow hlocked => ?_
        exact Table.mem_delete.mpr ⟨hrow, Bool.eq_false_iff.mpr fun hreached =>
          hlocked (unlocked_of_reached hfree hrow hreached)⟩
      · contradiction

theorem held_of_step {label : Label} (hheld : Held s)
    (hstep : step deployment s label = some s') : Held s' := by
  cases label with
  | ask principal call =>
      obtain ⟨⟨response, after⟩, hanswer, heq⟩ := Option.map_eq_some_iff.mp hstep
      cases heq
      obtain ⟨told, hcame, -⟩ := came_of_answer hanswer
      exact held_of_came hheld hcame
  | work label =>
      simp only [step] at hstep
      split at hstep
      · exact held_step hheld hstep
      · contradiction

theorem held_of_calls (run : Run (step deployment) System.initial past s) : Held s :=
  run.invariant Held held_initial fun _ _ _ h hstep => held_of_step h hstep

end Locks

section Work

/-- What a step of a scheduler does to the schedules it holds, to the table and to
the firings. -/
inductive Worked (s s' : System) : Prop
  | quiet (hrows : s'.schedules = s.schedules) (hfirings : s'.firings = s.firings)
      (hheld : ∀ n, ∀ row ∈ held (s'.schedulers n), row ∈ held (s.schedulers n) ∨
        row ∈ s.schedules.rows ∧ row.active = true)
  | committed (n : Nat) (changes : List Change)
      (hown : ∀ change ∈ changes, change.schedule ∈ held (s.schedulers n))
      (hrows : s'.schedules.rows = s.schedules.rows.map (updatedBy changes))
      (hfirings : s'.firings = s.firings ++ Schedulers.firingsOf changes)
      (hheld : ∀ m, ∀ row ∈ held (s'.schedulers m), row ∈ held (s.schedulers m))

theorem held_set_of_subset {phase : Schedulers.Phase} {n : Nat}
    (h : ∀ row ∈ held phase, row ∈ held (s.schedulers n) ∨
      row ∈ s.schedules.rows ∧ row.active = true) :
    ∀ m, ∀ row ∈ held ((s.setScheduler n phase).schedulers m), row ∈ held (s.schedulers m) ∨
      row ∈ s.schedules.rows ∧ row.active = true := by
  intro m row hrow
  rcases eq_or_ne m n with rfl | hm
  · rw [schedulers_setScheduler_self] at hrow
    exact h row hrow
  · rw [schedulers_setScheduler_of_ne hm] at hrow
    exact .inl hrow

theorem worked_of_step {label : Schedulers.Label} (hwork : isWork label = true)
    (hstep : Schedulers.step deployment.host deployment.wording deployment.uuid s label = some s') :
    s.drawn ≤ s'.drawn ∧ Worked s s' := by
  cases label with
  | create creator draft => contradiction
  | pause id active => contradiction
  | delete id => contradiction
  | tick elapsed =>
      cases hstep
      exact ⟨le_rfl, .quiet rfl rfl fun _ _ hrow => .inl hrow⟩
  | begin n limit =>
      simp only [Schedulers.step] at hstep
      split at hstep
      · cases hstep
        exact ⟨le_rfl,
          .quiet rfl rfl (held_set_of_subset fun _ hrow => absurd hrow List.not_mem_nil)⟩
      · contradiction
  | select n order =>
      simp only [Schedulers.step, Schedulers.selectDue] at hstep
      split at hstep
      · split at hstep
        · cases hstep
          exact ⟨le_rfl,
          .quiet rfl rfl (held_set_of_subset fun _ hrow => absurd hrow List.not_mem_nil)⟩
        · contradiction
      · contradiction
  | lock n =>
      simp only [Schedulers.step, Schedulers.lockNext] at hstep
      split at hstep
      · rename_i now candidates claimed hphase
        cases hstep
        refine ⟨le_rfl, .quiet rfl rfl (held_set_of_subset fun row hrow => .inl ?_)⟩
        rw [hphase]
        simpa [held] using hrow
      · rename_i now room claimed _ hphase
        cases hstep
        refine ⟨le_rfl, .quiet rfl rfl (held_set_of_subset fun row hrow => .inl ?_)⟩
        rw [hphase]
        simpa [held] using hrow
      · rename_i now room id rest claimed hphase
        split at hstep
        · cases hstep
          refine ⟨le_rfl, .quiet rfl rfl (held_set_of_subset fun row hrow => .inl ?_)⟩
          rw [hphase]
          exact hrow
        · rename_i row hclaim
          cases hstep
          obtain ⟨-, -, hmem, hdue⟩ := claimable_eq_some hclaim
          refine ⟨le_rfl, .quiet rfl rfl (held_set_of_subset fun other hother => ?_)⟩
          rcases List.mem_append.mp hother with hold | hnew
          · left
            rw [hphase]
            exact hold
          · rw [List.mem_singleton.mp hnew]
            exact .inr ⟨hmem, hdue.1⟩
      · contradiction
  | fire n =>
      simp only [Schedulers.step, Schedulers.fireNext] at hstep
      split at hstep
      · rename_i now row todo changes hphase
        split at hstep
        · cases hstep
          exact ⟨Nat.le_add_right _ _,
            .quiet rfl rfl (held_set_of_subset fun _ hrow => absurd hrow List.not_mem_nil)⟩
        · rename_i change hchange
          cases hstep
          refine ⟨Nat.le_add_right _ _,
            .quiet rfl rfl (held_set_of_subset fun other hother => .inl ?_)⟩
          rw [hphase]
          have hschedule := schedule_fireRow hchange
          simp only [held, List.map_append, List.map_cons, List.map_nil, hschedule,
            List.mem_append, List.mem_cons, List.not_mem_nil, or_false] at hother ⊢
          tauto
      · contradiction
  | commit n =>
      simp only [Schedulers.step, Schedulers.commitBatch] at hstep
      split at hstep
      · rename_i now changes hphase
        cases hstep
        refine ⟨le_rfl, .committed n changes ?_ rows_updates rfl ?_⟩
        · intro change hchange
          rw [hphase]
          exact List.mem_map_of_mem hchange
        · intro m row hrow
          rcases eq_or_ne m n with rfl | hm
          · have hidle : (s.leave m).schedulers m = .idle := schedulers_setScheduler_self
            simp only [hidle] at hrow
            exact absurd hrow List.not_mem_nil
          · have hsame : (s.leave n).schedulers m = s.schedulers m :=
              schedulers_setScheduler_of_ne hm
            simp only [hsame] at hrow
            exact hrow
      · contradiction
  | abort n =>
      simp only [Schedulers.step] at hstep
      split at hstep
      · contradiction
      · cases hstep
        exact ⟨le_rfl,
          .quiet rfl rfl (held_set_of_subset fun _ hrow => absurd hrow List.not_mem_nil)⟩

end Work

section Silence

/-- A tenant's schedule is paused or gone, no scheduler holds it, and its id was
drawn before. -/
structure Silent (deployment : Deployment) (id tenant : String) (s : System) : Prop where
  inactive : ∀ row ∈ s.schedules.rows, row.id = id → row.active = false
  owned : ∀ row ∈ s.schedules.rows, row.id = id → row.tenantId = some tenant
  unheld : ∀ n, ∀ row ∈ held (s.schedulers n), row.id ≠ id
  drawn : ∃ k < s.drawn, id = deployment.uuid k

/-- The audits a schedule was fired for. -/
def firesOf (id : String) (s : System) : List Firing :=
  s.firings.filter fun firing => firing.schedule.id = id

/-- The tenant that a call is made for. -/
def tenantOf (principal : Principal) : String := principal.tenantId.getD nobody

/-- A tenant asks for a schedule to go on. -/
def Resumes (id tenant : String) (label : Label) : Prop :=
  ∃ principal, tenantOf principal = tenant ∧ label = .ask principal (.pause id true)

theorem firings_of_unheld {changes : List Change}
    (h : ∀ change ∈ changes, change.schedule.id ≠ id) :
    (Schedulers.firingsOf changes).filter (fun firing => firing.schedule.id = id) = [] := by
  rw [List.filter_eq_nil_iff]
  intro firing hfiring hid
  obtain ⟨change, hchange, hfired⟩ := List.mem_filterMap.mp hfiring
  cases change with
  | deactivated schedule => cases hfired
  | fired other =>
      cases hfired
      exact h _ hchange (of_decide_eq_true hid)

theorem silent_of_came (huuid : Function.Injective deployment.uuid) {principal : Principal}
    {call : Call} {told : Response Schedule} (h : Silent deployment id tenant s)
    (hresume : tenantOf principal = tenant → call ≠ .pause id true)
    (hcame : Came deployment s principal call told s') :
    Silent deployment id tenant s' ∧ s'.firings = s.firings := by
  cases hcame with
  | refused => exact ⟨h, rfl⟩
  | listed => exact ⟨h, rfl⟩
  | stored hcreate =>
      obtain ⟨hschedulers, -, hfirings, hgrown, hrows⟩ := createSchedule_cases hcreate
      obtain ⟨k, hk, hid⟩ := h.drawn
      have hold : ∀ row ∈ s'.schedules.rows, row.id = id → row ∈ s.schedules.rows := by
        intro row hrow hrowid
        rcases hrows with ⟨-, hsame⟩ | ⟨new, -, hrows, -, hnew, -⟩
        · exact hsame ▸ hrow
        · rw [hrows] at hrow
          rcases List.mem_append.mp hrow with hold | hnewrow
          · exact hold
          · rw [List.mem_singleton.mp hnewrow, hnew, hid] at hrowid
            have heq : s.drawn = k := huuid hrowid
            omega
      exact ⟨⟨fun row hrow hrowid => h.inactive row (hold row hrow hrowid) hrowid,
        fun row hrow hrowid => h.owned row (hold row hrow hrowid) hrowid,
        hschedulers ▸ h.unheld, k, by omega, hid⟩, hfirings⟩
  | @paused other active told s' hpause =>
      unfold pauseSchedule at hpause
      split at hpause
      · cases hpause
        refine ⟨⟨?_, ?_, h.unheld, h.drawn⟩, rfl⟩
        · intro row' hrow' hid
          obtain ⟨row, hrow, rfl⟩ := List.mem_map.mp hrow'
          rw [switched_id] at hid
          unfold Schedule.switched
          split
          · rename_i hreached
            have hother : row.id = other :=
              of_decide_eq_true (Bool.and_eq_true_iff.mp hreached).1
            have hasker := (tenantId_of_reached hreached).symm.trans (h.owned row hrow hid)
            cases active with
            | false => rfl
            | true =>
                rw [← hother, hid] at hresume
                exact absurd rfl (hresume (Option.some.inj hasker))
          · exact h.inactive row hrow hid
        · intro row' hrow' hid
          obtain ⟨row, hrow, rfl⟩ := List.mem_map.mp hrow'
          rw [switched_id] at hid
          rw [tenantId_switched]
          exact h.owned row hrow hid
      · contradiction
  | destroyed hdelete =>
      unfold deleteSchedule at hdelete
      split at hdelete
      · cases hdelete
        exact ⟨⟨fun row hrow => h.inactive row (Table.mem_delete.mp hrow).1,
          fun row hrow => h.owned row (Table.mem_delete.mp hrow).1, h.unheld, h.drawn⟩, rfl⟩
      · contradiction

theorem silent_of_worked (h : Silent deployment id tenant s) (hdrawn : s.drawn ≤ s'.drawn)
    (hworked : Worked s s') : Silent deployment id tenant s' ∧ firesOf id s' = firesOf id s := by
  obtain ⟨k, hk, hid⟩ := h.drawn
  cases hworked with
  | quiet hrows hfirings hheld =>
      refine ⟨⟨hrows ▸ h.inactive, hrows ▸ h.owned, ?_, k, by omega, hid⟩,
        by rw [firesOf, hfirings, firesOf]⟩
      intro n row hrow hrowid
      rcases hheld n row hrow with hbefore | ⟨hmem, hactive⟩
      · exact h.unheld n row hbefore hrowid
      · rw [h.inactive row hmem hrowid] at hactive
        contradiction
  | committed n changes hown hrows hfirings hheld =>
      have hothers : ∀ change ∈ changes, change.schedule.id ≠ id := fun change hchange =>
        h.unheld n change.schedule (hown change hchange)
      have hold : ∀ row ∈ s'.schedules.rows, row.id = id → row ∈ s.schedules.rows := by
        intro row' hrow' hrowid
        rw [hrows] at hrow'
        obtain ⟨row, hrow, rfl⟩ := List.mem_map.mp hrow'
        rw [id_updatedBy] at hrowid
        rw [updatedBy_of_untouched fun change hchange heq =>
          hothers change hchange (heq.trans hrowid)]
        exact hrow
      refine ⟨⟨fun row hrow hrowid => h.inactive row (hold row hrow hrowid) hrowid,
        fun row hrow hrowid => h.owned row (hold row hrow hrowid) hrowid,
        fun m row hrow => h.unheld m row (hheld m row hrow), k, by omega, hid⟩, ?_⟩
      · unfold firesOf
        rw [hfirings, List.filter_append, firings_of_unheld hothers, List.append_nil]

theorem silent_of_step (huuid : Function.Injective deployment.uuid) {label : Label}
    (h : Silent deployment id tenant s) (hresume : ¬ Resumes id tenant label)
    (hstep : step deployment s label = some s') :
    Silent deployment id tenant s' ∧ firesOf id s' = firesOf id s := by
  cases label with
  | ask principal call =>
      obtain ⟨⟨response, after⟩, hanswer, heq⟩ := Option.map_eq_some_iff.mp hstep
      cases heq
      obtain ⟨told, hcame, -⟩ := came_of_answer hanswer
      obtain ⟨hsilent, hfirings⟩ := silent_of_came huuid h
        (fun htenant heq => hresume ⟨principal, htenant, heq ▸ rfl⟩) hcame
      exact ⟨hsilent, by rw [firesOf, hfirings, firesOf]⟩
  | work label =>
      simp only [step] at hstep
      split at hstep
      · rename_i hwork
        obtain ⟨hdrawn, hworked⟩ := worked_of_step hwork hstep
        exact silent_of_worked h hdrawn hworked
      · contradiction

/-- Every schedule has an id that was drawn. -/
def Drawn (deployment : Deployment) (s : System) : Prop :=
  ∀ row ∈ s.schedules.rows, ∃ k < s.drawn, row.id = deployment.uuid k

theorem drawn_of_step {label : Label} (h : Drawn deployment s)
    (hstep : step deployment s label = some s') : Drawn deployment s' := by
  intro row' hrow'
  cases label with
  | ask principal call =>
      obtain ⟨⟨response, after⟩, hanswer, heq⟩ := Option.map_eq_some_iff.mp hstep
      cases heq
      obtain ⟨told, hcame, -⟩ := came_of_answer hanswer
      cases hcame with
      | refused => exact h row' hrow'
      | listed => exact h row' hrow'
      | stored hcreate =>
          obtain ⟨-, -, -, hgrown, ⟨-, hsame⟩ | ⟨new, -, hrows, -, hid, hdrawn⟩⟩ :=
            createSchedule_cases hcreate
          · obtain ⟨k, hk, hid⟩ := h row' (hsame ▸ hrow')
            exact ⟨k, hk.trans_le hgrown, hid⟩
          · rw [hrows] at hrow'
            rcases List.mem_append.mp hrow' with hold | hnew
            · obtain ⟨k, hk, hid⟩ := h row' hold
              exact ⟨k, hk.trans_le hgrown, hid⟩
            · rw [List.mem_singleton.mp hnew]
              exact ⟨s.drawn, hdrawn ▸ Nat.lt_succ_self _, hid⟩
      | paused hpause =>
          unfold pauseSchedule at hpause
          split at hpause
          · cases hpause
            obtain ⟨row, hrow, rfl⟩ := List.mem_map.mp hrow'
            rw [switched_id]
            exact h row hrow
          · contradiction
      | destroyed hdelete =>
          unfold deleteSchedule at hdelete
          split at hdelete
          · cases hdelete
            exact h row' (Table.mem_delete.mp hrow').1
          · contradiction
  | work label =>
      simp only [step] at hstep
      split at hstep
      · rename_i hwork
        obtain ⟨hdrawn, -⟩ := worked_of_step hwork hstep
        rcases rows_of_work hwork hstep with hsame | ⟨changes, hrows⟩
        · obtain ⟨k, hk, hid⟩ := h row' (hsame ▸ hrow')
          exact ⟨k, by omega, hid⟩
        · rw [hrows] at hrow'
          obtain ⟨row, hrow, rfl⟩ := List.mem_map.mp hrow'
          obtain ⟨k, hk, hid⟩ := h row hrow
          exact ⟨k, by omega, by rw [id_updatedBy, hid]⟩
      · contradiction

/-- A call whose caller is told that a schedule is paused or deleted. -/
inductive Silences (deployment : Deployment) (id : String) (principal : Principal) (s : System) :
    Label → Prop
  | paused {response : Response Schedule} {s' : System}
      (h : answer deployment s principal (.pause id false) = some (response, s'))
      (hstatus : response.status = 200) :
      Silences deployment id principal s (.ask principal (.pause id false))
  | deleted {response : Response Schedule} {s' : System}
      (h : answer deployment s principal (.destroy id) = some (response, s'))
      (hstatus : response.status = 204) :
      Silences deployment id principal s (.ask principal (.destroy id))

/-- The one row of an id, where it was reached. -/
theorem reached_of_found {tenantId : Option String} {row found : Schedule}
    (hfound : get s.schedules id tenantId = some found) (hrow : row ∈ s.schedules.rows)
    (hid : row.id = id) : Schedule.reached id tenantId row = true := by
  have hreached : Schedule.reached id tenantId found = true := List.find?_some hfound
  have hfoundid : found.id = id :=
    of_decide_eq_true (Bool.and_eq_true_iff.mp hreached).1
  rw [eq_of_id hrow (List.mem_of_find?_eq_some hfound) (hid.trans hfoundid.symm)]
  exact hreached

theorem unheld_of_free {tenantId : Option String} (hheld : Held s)
    (hfree : free s id tenantId = true) {found : Schedule}
    (hfound : get s.schedules id tenantId = some found) :
    ∀ n, ∀ row ∈ held (s.schedulers n), row.id ≠ id := by
  intro n row hrow hid
  have hlocked := (hheld n).locked row hrow
  have hmem := (hheld n).kept row hrow
  rw [unlocked_of_reached hfree hmem (reached_of_found hfound hmem hid)] at hlocked
  contradiction

/-- A schedule that a statement found is silent where it is paused or gone after it. -/
theorem silent_of_found (hheld : Held s) (hdrawn : Drawn deployment s)
    {tenantId : Option String} (hfree : free s id tenantId = true) {found : Schedule}
    (hfound : get s.schedules id tenantId = some found) {schedules : ScheduleTable}
    (hafter : ∀ row ∈ schedules.rows, row.id = id →
      row.active = false ∧ row.tenantId = some tenant) :
    Silent deployment id tenant { s with schedules := schedules } where
  inactive := fun row hrow hid => (hafter row hrow hid).1
  owned := fun row hrow hid => (hafter row hrow hid).2
  unheld := unheld_of_free (s := s) hheld hfree hfound
  drawn := by
    obtain ⟨k, hk, hid⟩ := hdrawn found (List.mem_of_find?_eq_some hfound)
    have hreached : Schedule.reached id tenantId found = true := List.find?_some hfound
    have hfoundid : found.id = id := of_decide_eq_true (Bool.and_eq_true_iff.mp hreached).1
    exact ⟨k, hk, hfoundid ▸ hid⟩

theorem silent_of_silences (hheld : Held s) (hdrawn : Drawn deployment s)
    {principal : Principal} {label : Label} (h : Silences deployment id principal s label)
    (hstep : step deployment s label = some s') :
    Silent deployment id (tenantOf principal) s' ∧ s'.firings = s.firings := by
  cases h with
  | @paused response after hanswer hstatus =>
      rw [step, hanswer] at hstep
      cases hstep
      obtain ⟨told, hcame, rfl⟩ := came_of_answer hanswer
      cases hcame with
      | paused hpause =>
          unfold pauseSchedule at hpause
          split at hpause
          · rename_i hfree
            cases hpause
            refine ⟨?_, rfl⟩
            cases hfound : get s.schedules id (some (principal.tenantId.getD nobody)) with
            | none => simp [relayed, hfound, usableOr404] at hstatus
            | some found =>
                refine silent_of_found hheld hdrawn hfree hfound fun row' hrow' hid => ?_
                obtain ⟨row, hrow, rfl⟩ := List.mem_map.mp hrow'
                rw [switched_id] at hid
                have hreached := reached_of_found hfound hrow hid
                rw [Schedule.switched, if_pos hreached]
                exact ⟨rfl, tenantId_of_reached hreached⟩
          · contradiction
  | @deleted response after hanswer hstatus =>
      rw [step, hanswer] at hstep
      cases hstep
      obtain ⟨told, hcame, rfl⟩ := came_of_answer hanswer
      cases hcame with
      | destroyed hdelete =>
          unfold deleteSchedule at hdelete
          split at hdelete
          · rename_i hfree
            cases hdelete
            refine ⟨?_, rfl⟩
            cases hfound : get s.schedules id (deleteScope deployment.placement principal) with
            | none => simp [relayed, hfound, usableOr404] at hstatus
            | some found =>
                refine silent_of_found hheld hdrawn hfree hfound fun row hrow hid => ?_
                obtain ⟨hrow, hkept⟩ := Table.mem_delete.mp hrow
                rw [reached_of_found hfound hrow hid] at hkept
                contradiction
          · contradiction

/-- In every run, once a caller was told that a schedule is paused or deleted, it
fires no audit until the caller's tenant asks for it to go on, also where a
scheduler was in the middle of a batch. -/
theorem silent_until_resumed (huuid : Function.Injective deployment.uuid)
    (run : Run (step deployment) System.initial past s) :
    ∀ earlier moment later, past = earlier ++ moment :: later →
      ∀ id principal, Silences deployment id principal moment.1 moment.2 →
        (∀ other ∈ later, ¬ Resumes id (tenantOf principal) other.2) →
          firesOf id s = firesOf id moment.1 := by
  rintro earlier moment later rfl id principal hsilences hresumed
  obtain ⟨s', hearlier, hstep, hlater⟩ := run.split
  have hheld := held_of_calls hearlier
  have hdrawn : Drawn deployment moment.1 :=
    hearlier.invariant (Drawn deployment) (fun _ hrow => absurd hrow List.not_mem_nil)
      fun _ _ _ h hstep => drawn_of_step h hstep
  obtain ⟨hsilent, hfirings⟩ := silent_of_silences hheld hdrawn hsilences hstep
  have hend := hlater.invariant_of (fun _ label => ¬ Resumes id (tenantOf principal) label)
    hresumed (fun t => Silent deployment id (tenantOf principal) t ∧ firesOf id t = firesOf id s')
    ⟨hsilent, rfl⟩ fun t label t' ⟨h, hfires⟩ hlabel hstep => by
      obtain ⟨h', hsame⟩ := silent_of_step huuid h hlabel hstep
      exact ⟨h', hsame.trans hfires⟩
  rw [hend.2, firesOf, hfirings, firesOf]

/-- A schedule is created, and runs after three mornings. -/
def ranOnce : List Label :=
  [.work (.tick midnight), .ask ⟨some "a"⟩ (.store everyMorning none), .work (.tick (hours 58))] ++
    (pass 0 "").map .work

/-- A day later a scheduler finds nothing that is due. -/
def nothingDue : List Label :=
  [.work (.tick (hours 24)), .work (.begin 0 20), .work (.select 0 []), .work (.lock 0)]

theorem silent_until_resumed_pausedAfterOnce :
    ∃ earlier moment later s, (earlier ++ moment :: later).map Prod.snd =
        ranOnce ++ .ask ⟨some "a"⟩ (.pause "" false) :: nothingDue ∧
      Run (step installed) System.initial (earlier ++ moment :: later) s ∧
      Silences installed "" ⟨some "a"⟩ moment.1 moment.2 ∧
      firesOf "" s = firesOf "" moment.1 ∧ (firesOf "" s).length = 1 := by
  obtain ⟨past, s, hlabels, run, hcheck⟩ := Run.of_check (step installed) System.initial
    (ranOnce ++ .ask ⟨some "a"⟩ (.pause "" false) :: nothingDue)
    (fun past s => ((past.drop ranOnce.length).head?.any fun moment =>
      (answer installed moment.1 ⟨some "a"⟩ (.pause "" false)).any fun told =>
        told.1.status = 200) && (firesOf "" s).length == 1) (by decide +kernel)
  obtain ⟨earlier, rest, rfl, hearlier, hrest⟩ := List.map_eq_append_iff.mp hlabels
  obtain ⟨moment, later, rfl, hmoment, hlater⟩ := List.map_eq_cons_iff.mp hrest
  have hlength : ranOnce.length = earlier.length := by rw [← hearlier, List.length_map]
  simp only [hlength, List.drop_left, List.head?_cons, Option.any_some, Bool.and_eq_true,
    beq_iff_eq] at hcheck
  obtain ⟨⟨response, after⟩, hanswer, hstatus⟩ := (Option.any_eq_true _ _).mp hcheck.1
  have hsilences : Silences installed "" ⟨some "a"⟩ moment.1 moment.2 :=
    hmoment ▸ .paused hanswer (of_decide_eq_true hstatus)
  refine ⟨earlier, moment, later, s, hlabels, run, hsilences, ?_, hcheck.2⟩
  refine silent_until_resumed plainUuid_injective run earlier moment later rfl "" ⟨some "a"⟩
    hsilences ?_
  rintro other hother ⟨principal, -, hlabel⟩
  have hmem : other.2 ∈ nothingDue := hlater ▸ List.mem_map_of_mem hother
  rw [hlabel] at hmem
  simp [nothingDue] at hmem

end Silence

end SeoPlatform.Gateway.SilentSchedules
