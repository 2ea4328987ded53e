import SeoPlatform.Orchestrator.HeldSchedules

namespace SeoPlatform.Orchestrator.Firings

open SeoPlatform.Foundation.ConstrainedTable
open SeoPlatform.Foundation.TransitionSystem
open SeoPlatform.Orchestrator.HeldSchedules
open SeoPlatform.Orchestrator.Schedules
open SeoPlatform.Orchestrator.Schedulers
open SeoPlatform.Shared.Contracts
open SeoPlatform.Shared.Events

def Firing.row (firing : Firing) : OutboxRow := stagedRow firing.request firing.subject

/-- The firings a scheduler has not committed yet. -/
def pending : Phase → List Firing
  | .firing _ _ changes => firingsOf changes
  | _ => []

/-- A firing came of a due schedule that turned into a valid request and a next time. -/
structure Turned (host : Host) (f : Firing) : Prop where
  due : f.schedule.Due f.now
  valid : Valid .workflowRequested (workflowRequest f.schedule f.workflowId)
  next : catchUp host f.schedule f.now = .ok f.next

/-- What others than the schedulers leave alone in a row. -/
structure SameCounters (a b : Schedule) : Prop where
  id : a.id = b.id
  runs : a.runs = b.runs
  nextRunAt : a.nextRunAt = b.nextRunAt

/-- Everything a step can do to the tables, the identifiers and the firings. -/
inductive Effect (host : Host) (uuid : Nat → String) (s s' : System) : Prop
  | quiet (drawn : s.drawn ≤ s'.drawn) (outbox : s'.outbox = s.outbox)
      (firings : s'.firings = s.firings)
      (rows : ∀ row' ∈ s'.schedules.rows, ∃ row ∈ s.schedules.rows, SameCounters row' row)
      (schedulers : ∀ n, pending (s'.schedulers n) = pending (s.schedulers n) ∨
        pending (s'.schedulers n) = [])
  | created (row : Schedule) (drawn : s'.drawn = s.drawn + 1) (outbox : s'.outbox = s.outbox)
      (firings : s'.firings = s.firings) (schedulers : s'.schedulers = s.schedulers)
      (rows : s'.schedules.rows = s.schedules.rows ++ [row]) (id : row.id = uuid s.drawn)
      (runs : row.runs = 0)
  | drew (n : Nat) (f : Firing) (drawn : s'.drawn = s.drawn + 2) (outbox : s'.outbox = s.outbox)
      (firings : s'.firings = s.firings) (schedules : s'.schedules = s.schedules)
      (own : pending (s'.schedulers n) = pending (s.schedulers n) ++ [f])
      (others : ∀ m, m ≠ n → s'.schedulers m = s.schedulers m)
      (workflowId : f.workflowId = uuid s.drawn) (eventId : f.eventId = uuid (s.drawn + 1))
      (turned : Turned host f)
  | committed (n : Nat) (now : Int) (changes : List Change)
      (phase : s.schedulers n = .firing now [] changes) (drawn : s'.drawn = s.drawn)
      (outbox : s'.outbox = changes.foldl stageChange s.outbox)
      (firings : s'.firings = s.firings ++ firingsOf changes)
      (rows : s'.schedules.rows = s.schedules.rows.map (updatedBy changes))
      (own : pending (s'.schedulers n) = [])
      (others : ∀ m, m ≠ n → s'.schedulers m = s.schedulers m)

theorem SameCounters.refl (row : Schedule) : SameCounters row row := ⟨rfl, rfl, rfl⟩

section Inversion

variable {host : Host} {wording : Wording} {uuid : Nat → String} {s s' : System} {n : Nat}

/-- A scheduler moves on and changes no table. -/
theorem effect_of_scheduler (hdrawn : s.drawn ≤ s'.drawn) (houtbox : s'.outbox = s.outbox)
    (hfirings : s'.firings = s.firings) (hschedules : s'.schedules = s.schedules)
    (hothers : ∀ m, m ≠ n → s'.schedulers m = s.schedulers m)
    (hown : pending (s'.schedulers n) = pending (s.schedulers n) ∨
      pending (s'.schedulers n) = []) : Effect host uuid s s' := by
  refine .quiet hdrawn houtbox hfirings ?_ ?_
  · rw [hschedules]
    exact fun row hrow => ⟨row, hrow, .refl row⟩
  · intro m
    rcases eq_or_ne m n with rfl | hm
    · exact hown
    · rw [hothers m hm]
      exact .inl rfl

theorem effect_setScheduler {phase : Phase}
    (hphase : pending phase = pending (s.schedulers n) ∨ pending phase = []) :
    Effect host uuid s (s.setScheduler n phase) := by
  refine effect_of_scheduler (n := n) (le_refl _) rfl rfl rfl ?_ ?_
  · exact fun m hm => schedulers_setScheduler_of_ne hm
  · rwa [schedulers_setScheduler_self]

theorem fireRow_fired {row : Schedule} {workflowId eventId : String} {now : Int} {f : Firing}
    (h : fireRow host wording row workflowId eventId now = .ok (.fired f)) :
    f.schedule = row ∧ f.workflowId = workflowId ∧ f.eventId = eventId ∧ f.now = now ∧
      Valid .workflowRequested (workflowRequest row workflowId) ∧
      catchUp host row now = .ok f.next := by
  unfold fireRow at h
  split at h
  · cases h
  · rename_i hvalid
    cases hnext : catchUp host row now with
    | error e =>
        rw [hnext] at h
        contradiction
    | ok next =>
        rw [hnext] at h
        cases h
        exact ⟨rfl, rfl, rfl, rfl, validateEvent_ok.mp hvalid, rfl⟩

theorem effect_fire (hheld : Held s) (hstep : fireNext host wording uuid s n = some s') :
    Effect host uuid s s' := by
  unfold fireNext at hstep
  split at hstep
  · rename_i now row todo changes hphase
    dsimp only at hstep
    split at hstep
    · cases hstep
      refine effect_of_scheduler (n := n) (Nat.le_add_right _ 2) rfl rfl rfl ?_ ?_
      · exact fun m hm => Function.update_of_ne hm ..
      · right
        show pending (Function.update s.schedulers n .idle n) = []
        rw [Function.update_self]
        rfl
    · rename_i change hchange
      cases hstep
      cases change with
      | deactivated schedule =>
          refine effect_of_scheduler (n := n) (Nat.le_add_right _ 2) rfl rfl rfl ?_ ?_
          · exact fun m hm => Function.update_of_ne hm ..
          · left
            show pending (Function.update s.schedulers n _ n) = _
            rw [Function.update_self, hphase]
            simp [pending, firingsOf]
      | fired f =>
          obtain ⟨hschedule, hworkflow, hevent, hnow, hvalid, hnext⟩ := fireRow_fired hchange
          have hn := hheld n
          rw [hphase] at hn
          have hdue := hn.due now rfl row (List.mem_cons_self ..)
          refine .drew n f rfl rfl rfl rfl ?_ ?_ hworkflow hevent ⟨?_, ?_, ?_⟩
          · show pending (Function.update s.schedulers n _ n) = _
            rw [Function.update_self, hphase]
            simp [pending, firingsOf]
          · exact fun m hm => Function.update_of_ne hm ..
          · rw [hschedule, hnow]
            exact hdue
          · rw [hschedule, hworkflow]
            exact hvalid
          · rw [hschedule, hnow]
            exact hnext
  · contradiction

theorem effect_lock (hstep : lockNext s n = some s') : Effect host uuid s s' := by
  unfold lockNext at hstep
  split at hstep
  · cases hstep
    exact effect_setScheduler (.inr rfl)
  · cases hstep
    exact effect_setScheduler (.inr rfl)
  · split at hstep
    · cases hstep
      exact effect_setScheduler (.inr rfl)
    · cases hstep
      refine effect_of_scheduler (n := n) (le_refl _) rfl rfl rfl ?_ ?_
      · exact fun m hm => Function.update_of_ne hm ..
      · right
        show pending (Function.update s.schedulers n _ n) = []
        rw [Function.update_self]
        rfl
  · contradiction

theorem step_effect {label : Label} (hheld : Held s)
    (hstep : step host wording uuid s label = some s') : Effect host uuid s s' := by
  cases label with
  | tick elapsed =>
      cases hstep
      exact .quiet (le_refl _) rfl rfl (fun row hrow => ⟨row, hrow, .refl row⟩) fun _ => .inl rfl
  | create creator draft =>
      simp only [step, createSchedule] at hstep
      split at hstep
      · contradiction
      · rename_i row hrow
        obtain ⟨schedules, hinsert, rfl⟩ := Option.map_eq_some_iff.mp hstep
        have hnew : row.id = uuid s.drawn ∧ row.runs = 0 := by
          unfold Draft.row at hrow
          split at hrow
          · contradiction
          · split at hrow
            · cases hrow
              exact ⟨rfl, rfl⟩
            · contradiction
        exact .created row rfl rfl rfl rfl (Table.insert_eq_some.mp hinsert).2 hnew.1 hnew.2
  | pause id active =>
      simp only [step] at hstep
      split at hstep
      · cases hstep
        refine .quiet (le_refl _) rfl rfl ?_ fun _ => .inl rfl
        intro row' hrow'
        obtain ⟨row, hrow, rfl⟩ := List.mem_map.mp hrow'
        refine ⟨row, hrow, ?_⟩
        unfold Schedule.pausedWhere
        split <;> exact ⟨rfl, rfl, rfl⟩
      · contradiction
  | delete id =>
      simp only [step] at hstep
      split at hstep
      · cases hstep
        refine .quiet (le_refl _) rfl rfl ?_ fun _ => .inl rfl
        exact fun row hrow => ⟨row, (Table.mem_delete.mp hrow).1, .refl row⟩
      · contradiction
  | begin m limit =>
      simp only [step] at hstep
      split at hstep
      · cases hstep
        exact effect_setScheduler (.inr rfl)
      · contradiction
  | select m order =>
      simp only [step, selectDue] at hstep
      split at hstep
      · split at hstep
        · cases hstep
          exact effect_setScheduler (.inr rfl)
        · contradiction
      · contradiction
  | lock m => exact effect_lock hstep
  | fire m => exact effect_fire hheld hstep
  | commit m =>
      simp only [step, commitBatch] at hstep
      split at hstep
      · rename_i now changes hphase
        cases hstep
        refine .committed m now changes hphase rfl rfl rfl rows_updates ?_ ?_
        · show pending (Function.update s.schedulers m .idle m) = []
          rw [Function.update_self]
          rfl
        · exact fun k hk => Function.update_of_ne hk ..
      · contradiction
  | abort m =>
      simp only [step] at hstep
      split at hstep
      · contradiction
      · cases hstep
        refine effect_of_scheduler (n := m) (le_refl _) rfl rfl rfl ?_ ?_
        · exact fun k hk => Function.update_of_ne hk ..
        · right
          show pending (Function.update s.schedulers m .idle m) = []
          rw [Function.update_self]
          rfl

end Inversion

/-- An identifier that was drawn already. -/
def Drawn (uuid : Nat → String) (s : System) (id : String) : Prop := ∃ k < s.drawn, id = uuid k

def idsOf (firings : List Firing) : List String :=
  firings.flatMap fun f => [f.workflowId, f.eventId]

/-- No identifier is used twice. -/
structure Identified (uuid : Nat → String) (s : System) : Prop where
  rows : ∀ row ∈ s.schedules.rows, Drawn uuid s row.id
  fired : ∀ f ∈ s.firings, Drawn uuid s f.schedule.id
  spent : ∀ id ∈ idsOf s.firings, Drawn uuid s id
  held : ∀ n, ∀ id ∈ idsOf (pending (s.schedulers n)), Drawn uuid s id
  once : (idsOf s.firings).Nodup
  own : ∀ n, (idsOf (pending (s.schedulers n))).Nodup
  apart : ∀ n, ∀ id ∈ idsOf (pending (s.schedulers n)), id ∉ idsOf s.firings
  others : ∀ n m, n ≠ m → ∀ id ∈ idsOf (pending (s.schedulers n)),
    id ∉ idsOf (pending (s.schedulers m))

section Identifiers

variable {host : Host} {wording : Wording} {uuid : Nat → String} {s s' : System}

theorem idsOf_append (a b : List Firing) : idsOf (a ++ b) = idsOf a ++ idsOf b :=
  List.flatMap_append

theorem Drawn.mono {id : String} (h : Drawn uuid s id) (hle : s.drawn ≤ s'.drawn) :
    Drawn uuid s' id := by
  obtain ⟨k, hk, rfl⟩ := h
  exact ⟨k, hk.trans_le hle, rfl⟩

theorem not_drawn (huuid : Function.Injective uuid) {k : Nat} (hk : s.drawn ≤ k) :
    ¬ Drawn uuid s (uuid k) := by
  rintro ⟨j, hj, heq⟩
  have hsame := huuid heq
  omega

theorem identified_initial : Identified uuid System.initial where
  rows row hrow := by contradiction
  fired f hf := by contradiction
  spent id hid := by contradiction
  held n id hid := by contradiction
  once := List.nodup_nil
  own n := List.nodup_nil
  apart n id hid := by contradiction
  others n m hne id hid := by contradiction

/-- The rows a batch fires are rows of the table. -/
theorem schedule_mem_of_fired {n : Nat} {now : Int} {changes : List Change} (hheld : Held s)
    (hphase : s.schedulers n = .firing now [] changes) {f : Firing}
    (hf : f ∈ firingsOf changes) : .fired f ∈ changes ∧ f.schedule ∈ s.schedules.rows := by
  obtain ⟨change, hchange, heq⟩ := List.mem_filterMap.mp hf
  cases change with
  | deactivated schedule => contradiction
  | fired g =>
      obtain rfl := Option.some.inj heq
      have hn := hheld n
      rw [hphase] at hn
      exact ⟨hchange, hn.kept g.schedule (List.mem_map.mpr ⟨_, hchange, rfl⟩)⟩

/-- A step that fires nothing keeps the identifiers when its rows have drawn ones. -/
theorem identified_quiet (h : Identified uuid s) (hdrawn : s.drawn ≤ s'.drawn)
    (hfirings : s'.firings = s.firings)
    (hrows : ∀ row ∈ s'.schedules.rows, Drawn uuid s' row.id)
    (hschedulers : ∀ n, pending (s'.schedulers n) = pending (s.schedulers n) ∨
      pending (s'.schedulers n) = []) : Identified uuid s' := by
  have hfewer : ∀ n, ∀ id ∈ idsOf (pending (s'.schedulers n)),
      id ∈ idsOf (pending (s.schedulers n)) := by
    intro n id hid
    rcases hschedulers n with heq | hnil
    · rwa [← heq]
    · rw [hnil] at hid
      contradiction
  refine ⟨hrows, ?_, ?_, ?_, ?_, ?_, ?_, ?_⟩
  · rw [hfirings]
    exact fun f hf => (h.fired f hf).mono hdrawn
  · rw [hfirings]
    exact fun id hid => (h.spent id hid).mono hdrawn
  · exact fun n id hid => (h.held n id (hfewer n id hid)).mono hdrawn
  · rw [hfirings]
    exact h.once
  · intro n
    rcases hschedulers n with heq | hnil
    · rw [heq]
      exact h.own n
    · rw [hnil]
      exact List.nodup_nil
  · rw [hfirings]
    exact fun n id hid => h.apart n id (hfewer n id hid)
  · exact fun n m hne id hid hother =>
      h.others n m hne id (hfewer n id hid) (hfewer m id hother)

/-- A firing under the next two identifiers shares none with those before it. -/
theorem identified_drew (huuid : Function.Injective uuid) (h : Identified uuid s) {n : Nat}
    {f : Firing} (hdrawn : s'.drawn = s.drawn + 2) (hfirings : s'.firings = s.firings)
    (hschedules : s'.schedules = s.schedules)
    (hown : pending (s'.schedulers n) = pending (s.schedulers n) ++ [f])
    (hothers : ∀ m, m ≠ n → s'.schedulers m = s.schedulers m)
    (hworkflow : f.workflowId = uuid s.drawn) (hevent : f.eventId = uuid (s.drawn + 1)) :
    Identified uuid s' := by
  have hle : s.drawn ≤ s'.drawn := by omega
  have hnew : ∀ id ∈ idsOf [f], id = uuid s.drawn ∨ id = uuid (s.drawn + 1) := by
    intro id hid
    simpa [idsOf, hworkflow, hevent] using hid
  have hfresh : ∀ id ∈ idsOf [f], ¬ Drawn uuid s id := by
    intro id hid
    rcases hnew id hid with rfl | rfl
    · exact not_drawn huuid (le_refl _)
    · exact not_drawn huuid (Nat.le_succ _)
  have hids : ∀ m, ∀ id ∈ idsOf (pending (s'.schedulers m)),
      id ∈ idsOf (pending (s.schedulers m)) ∨ m = n ∧ id ∈ idsOf [f] := by
    intro m id hid
    rcases eq_or_ne m n with rfl | hm
    · rw [hown, idsOf_append] at hid
      rcases List.mem_append.mp hid with hold | hnew
      · exact .inl hold
      · exact .inr ⟨rfl, hnew⟩
    · rw [hothers m hm] at hid
      exact .inl hid
  refine ⟨?_, ?_, ?_, ?_, ?_, ?_, ?_, ?_⟩
  · rw [hschedules]
    exact fun row hrow => (h.rows row hrow).mono hle
  · rw [hfirings]
    exact fun f hf => (h.fired f hf).mono hle
  · rw [hfirings]
    exact fun id hid => (h.spent id hid).mono hle
  · intro m id hid
    rcases hids m id hid with hold | ⟨-, hmine⟩
    · exact (h.held m id hold).mono hle
    · rcases hnew id hmine with rfl | rfl
      · exact ⟨s.drawn, by omega, rfl⟩
      · exact ⟨s.drawn + 1, by omega, rfl⟩
  · rw [hfirings]
    exact h.once
  · intro m
    rcases eq_or_ne m n with rfl | hm
    · rw [hown, idsOf_append]
      refine List.nodup_append.mpr ⟨h.own m, ?_, ?_⟩
      · have hne : uuid s.drawn ≠ uuid (s.drawn + 1) := fun heq => by
          have hsame := huuid heq
          omega
        simp [idsOf, hworkflow, hevent, hne]
      · rintro id hold _ hmine rfl
        exact hfresh id hmine (h.held m id hold)
    · rw [hothers m hm]
      exact h.own m
  · rw [hfirings]
    intro m id hid hspent
    rcases hids m id hid with hold | ⟨-, hmine⟩
    · exact h.apart m id hold hspent
    · exact hfresh id hmine (h.spent id hspent)
  · intro m k hne id hid hother
    rcases hids m id hid with hold | ⟨rfl, hmine⟩
    · rcases hids k id hother with hold' | ⟨rfl, hmine⟩
      · exact h.others m k hne id hold hold'
      · exact hfresh id hmine (h.held m id hold)
    · rcases hids k id hother with hold' | ⟨rfl, -⟩
      · exact hfresh id hmine (h.held k id hold')
      · exact hne rfl

/-- A commit moves the firings of one batch to the committed ones. -/
theorem identified_committed (h : Identified uuid s) {n : Nat} {batch : List Firing}
    (hbatch : pending (s.schedulers n) = batch)
    (hkept : ∀ f ∈ batch, f.schedule ∈ s.schedules.rows) (hdrawn : s.drawn ≤ s'.drawn)
    (hfirings : s'.firings = s.firings ++ batch)
    (hrows : ∀ row ∈ s'.schedules.rows, Drawn uuid s' row.id)
    (hown : pending (s'.schedulers n) = [])
    (hothers : ∀ m, m ≠ n → s'.schedulers m = s.schedulers m) : Identified uuid s' := by
  have hids : ∀ m, ∀ id ∈ idsOf (pending (s'.schedulers m)),
      m ≠ n ∧ id ∈ idsOf (pending (s.schedulers m)) := by
    intro m id hid
    rcases eq_or_ne m n with rfl | hm
    · rw [hown] at hid
      contradiction
    · rw [hothers m hm] at hid
      exact ⟨hm, hid⟩
  refine ⟨hrows, ?_, ?_, ?_, ?_, ?_, ?_, ?_⟩
  · rw [hfirings]
    intro f hf
    rcases List.mem_append.mp hf with hold | hnew
    · exact (h.fired f hold).mono hdrawn
    · exact (h.rows _ (hkept f hnew)).mono hdrawn
  · rw [hfirings, idsOf_append]
    intro id hid
    rcases List.mem_append.mp hid with hold | hnew
    · exact (h.spent id hold).mono hdrawn
    · rw [← hbatch] at hnew
      exact (h.held n id hnew).mono hdrawn
  · exact fun m id hid => (h.held m id (hids m id hid).2).mono hdrawn
  · rw [hfirings, idsOf_append, ← hbatch]
    refine List.nodup_append.mpr ⟨h.once, h.own n, ?_⟩
    rintro id hold _ hnew rfl
    exact h.apart n id hnew hold
  · intro m
    rcases eq_or_ne m n with rfl | hm
    · rw [hown]
      exact List.nodup_nil
    · rw [hothers m hm]
      exact h.own m
  · rw [hfirings, idsOf_append, ← hbatch]
    intro m id hid hspent
    obtain ⟨hm, hheld'⟩ := hids m id hid
    rcases List.mem_append.mp hspent with hold | hnew
    · exact h.apart m id hheld' hold
    · exact h.others m n hm id hheld' hnew
  · exact fun m k hne id hid hother =>
      h.others m k hne id (hids m id hid).2 (hids k id hother).2

theorem identified_step (huuid : Function.Injective uuid) {label : Label} (hheld : Held s)
    (h : Identified uuid s) (hstep : step host wording uuid s label = some s') :
    Identified uuid s' := by
  cases step_effect hheld hstep with
  | quiet hdrawn houtbox hfirings hrows hschedulers =>
      refine identified_quiet h hdrawn hfirings (fun row' hrow' => ?_) hschedulers
      obtain ⟨row, hrow, hsame⟩ := hrows row' hrow'
      rw [hsame.id]
      exact (h.rows row hrow).mono hdrawn
  | created row hdrawn houtbox hfirings hschedulers hrows hid hruns =>
      have hle : s.drawn ≤ s'.drawn := by omega
      refine identified_quiet h hle hfirings (fun other hother => ?_)
        (fun n => .inl (by rw [hschedulers]))
      rw [hrows] at hother
      rcases List.mem_append.mp hother with hold | hnew
      · exact (h.rows other hold).mono hle
      · rw [List.mem_singleton.mp hnew, hid]
        exact ⟨s.drawn, by omega, rfl⟩
  | drew n f hdrawn houtbox hfirings hschedules hown hothers hworkflow hevent hturned =>
      exact identified_drew huuid h hdrawn hfirings hschedules hown hothers hworkflow hevent
  | committed n now changes hphase hdrawn houtbox hfirings hrows hown hothers =>
      have hmine : pending (s.schedulers n) = firingsOf changes := by rw [hphase]; rfl
      refine identified_committed h hmine
        (fun f hf => (schedule_mem_of_fired hheld hphase hf).2) hdrawn.ge hfirings
        (fun row' hrow' => ?_) hown hothers
      rw [hrows] at hrow'
      obtain ⟨row, hrow, rfl⟩ := List.mem_map.mp hrow'
      rw [id_updatedBy]
      exact (h.rows row hrow).mono hdrawn.ge

end Identifiers

end SeoPlatform.Orchestrator.Firings
