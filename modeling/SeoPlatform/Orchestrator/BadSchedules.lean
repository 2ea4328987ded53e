import Mathlib.Data.List.Nodup
import Mathlib.Data.List.Perm.Subperm
import SeoPlatform.Orchestrator.Passes

namespace SeoPlatform.Orchestrator.BadSchedules

open SeoPlatform.Foundation.CivilTime
open SeoPlatform.Foundation.ConstrainedTable
open SeoPlatform.Foundation.JsonSchema
open SeoPlatform.Foundation.JsonValue
open SeoPlatform.Foundation.TransitionSystem
open SeoPlatform.Orchestrator.Firings
open SeoPlatform.Orchestrator.HeldSchedules
open SeoPlatform.Orchestrator.OneAudit
open SeoPlatform.Orchestrator.Passes
open SeoPlatform.Orchestrator.Schedules
open SeoPlatform.Orchestrator.Schedulers
open SeoPlatform.Shared.Contracts
open SeoPlatform.Shared.Events
open SeoPlatform.Shared.Exceptions

/-- The stored inputs keep the contract. -/
def Fits (row : Schedule) : Prop := Valid .workflowRequested (workflowRequest row "")

instance : DecidablePred Fits := fun row =>
  inferInstanceAs (Decidable (Valid .workflowRequested (workflowRequest row "")))

/-- A schedule that turns into a valid request and a next time. -/
structure Good (host : Host) (now : Int) (row : Schedule) : Prop where
  fits : Fits row
  next : ∃ next, catchUp host row now = .ok next

/-- A schedule that turns into a valid request and no next time. -/
structure Stuck (host : Host) (now : Int) (row : Schedule) : Prop where
  fits : Fits row
  next : ∃ e, catchUp host row now = .error e

variable (host : Host) (wording : Wording) (uuid : Nat → String)

/-- The event of a row is staged and the row is moved. -/
def FiredIn (s s' : System) (row : Schedule) : Prop :=
  ∃ f, f.schedule = row ∧ f.now = s.now ∧ catchUp host row s.now = .ok f.next ∧
    Firing.row f ∈ s'.outbox.rows ∧ (Change.fired f).applied row ∈ s'.schedules.rows

def EveryGoodFires (s : System) (limit : Nat) (order : List String) : Prop :=
  ∀ row ∈ batch s limit order, Good host s.now row →
    FiredIn host s (fireDue host wording uuid s limit order) row

section Rows

variable {host : Host} {wording : Wording} {uuid : Nat → String} {row : Schedule} {now : Int}

/-- Any workflow id will do. -/
theorem fits_iff (workflowId : String) :
    Valid .workflowRequested (workflowRequest row workflowId) ↔ Fits row := by
  simp [Fits, valid_iff, eventSchema, workflowRequested, workflowRequest, properties, Dict.keys]

theorem fireRow_of_unfit (h : ¬ Fits row) (workflowId eventId : String) :
    fireRow host wording row workflowId eventId now = .ok (.deactivated row) := by
  have hinvalid : ¬ Valid .workflowRequested (workflowRequest row workflowId) := fun hvalid =>
    h ((fits_iff workflowId).mp hvalid)
  unfold fireRow validateEvent
  rw [if_neg hinvalid]

theorem fireRow_of_fits (h : Fits row) (workflowId eventId : String) :
    fireRow host wording row workflowId eventId now =
      (catchUp host row now).map fun next =>
        .fired { schedule := row, workflowId, eventId, now, next } := by
  unfold fireRow validateEvent
  rw [if_pos ((fits_iff workflowId).mpr h)]

theorem stuck_of_fireRow {workflowId eventId : String} {e : TimingError}
    (h : fireRow host wording row workflowId eventId now = .error e) : Stuck host now row := by
  by_cases hfits : Fits row
  · refine ⟨hfits, ?_⟩
    rw [fireRow_of_fits hfits] at h
    cases hnext : catchUp host row now with
    | error e' => exact ⟨e', rfl⟩
    | ok next =>
        rw [hnext] at h
        contradiction
  · rw [fireRow_of_unfit hfits] at h
    contradiction

variable (wording) in
theorem fireRow_of_stuck (h : Stuck host now row) (workflowId eventId : String) :
    ∃ e, fireRow host wording row workflowId eventId now = .error e := by
  obtain ⟨e, he⟩ := h.next
  refine ⟨e, ?_⟩
  rw [fireRow_of_fits h.fits, he]
  rfl

/-- What a row of a batch that is committed became. -/
structure Became (host : Host) (now : Int) (row : Schedule) (change : Change) : Prop where
  schedule : change.schedule = row
  fired : Fits row → ∃ f, change = .fired f ∧ f.now = now ∧ catchUp host row now = .ok f.next
  deactivated : ¬ Fits row → change = .deactivated row

theorem became_of_fireRow {workflowId eventId : String} {change : Change}
    (h : fireRow host wording row workflowId eventId now = .ok change) :
    Became host now row change := by
  refine ⟨schedule_fireRow h, ?_, ?_⟩
  · intro hfits
    rw [fireRow_of_fits hfits] at h
    cases hnext : catchUp host row now with
    | error e =>
        rw [hnext] at h
        contradiction
    | ok next =>
        rw [hnext] at h
        cases h
        exact ⟨_, rfl, rfl, rfl⟩
  · intro hunfit
    rw [fireRow_of_unfit hunfit] at h
    exact (Except.ok.inj h).symm

variable (wording uuid) in
/-- The loop ends where no row of the batch is stuck, and each row became something. -/
theorem fireRows_ok {rows : List Schedule} (h : ∀ row ∈ rows, ¬ Stuck host now row)
    (drawn : Nat) :
    ∃ changes later, fireRows host wording uuid now rows drawn = (.ok changes, later) ∧
      List.Forall₂ (Became host now) rows changes := by
  induction rows generalizing drawn with
  | nil => exact ⟨[], drawn, rfl, .nil⟩
  | cons row rest ih =>
      obtain ⟨changes, later, hrest, hbecame⟩ :=
        ih (fun other hother => h other (List.mem_cons_of_mem _ hother)) (drawn + 2)
      cases hrow : fireRow host wording row (uuid drawn) (uuid (drawn + 1)) now with
      | error e => exact absurd (stuck_of_fireRow hrow) (h row (List.mem_cons_self ..))
      | ok change =>
          refine ⟨change :: changes, later, ?_, .cons (became_of_fireRow hrow) hbecame⟩
          simp only [fireRows, hrow, hrest]
          rfl

variable (wording uuid) in
/-- One stuck row raises, wherever it stands. -/
theorem fireRows_error {rows : List Schedule} (h : ∃ row ∈ rows, Stuck host now row)
    (drawn : Nat) :
    ∃ e later, fireRows host wording uuid now rows drawn = (.error e, later) := by
  induction rows generalizing drawn with
  | nil =>
      obtain ⟨row, hrow, -⟩ := h
      contradiction
  | cons row rest ih =>
      cases hrow : fireRow host wording row (uuid drawn) (uuid (drawn + 1)) now with
      | error e => exact ⟨e, drawn + 2, by simp only [fireRows, hrow]⟩
      | ok change =>
          have hrest : ∃ other ∈ rest, Stuck host now other := by
            obtain ⟨other, hother, hstuck⟩ := h
            rcases List.mem_cons.mp hother with rfl | hmem
            · obtain ⟨e, he⟩ := fireRow_of_stuck wording hstuck (uuid drawn)
                (uuid (drawn + 1))
              rw [hrow] at he
              contradiction
            · exact ⟨other, hmem, hstuck⟩
          obtain ⟨e, later, he⟩ := ih hrest (drawn + 2)
          refine ⟨e, later, ?_⟩
          simp only [fireRows, hrow, he]
          rfl

end Rows

section Batches

variable {host : Host} {wording : Wording} {uuid : Nat → String} {s : System} {limit : Nat}
  {order : List String}

theorem mem_batch {row : Schedule} (h : row ∈ batch s limit order) :
    row ∈ s.schedules.rows ∧ row.Due s.now := by
  obtain ⟨id, -, hrow⟩ := List.mem_filterMap.mp (List.mem_of_mem_take h)
  exact (dueRow_eq_some hrow).2

/-- A row is in a batch once. -/
theorem distinct_batch (limit : Nat) (hordered : Ordered s.schedules s.now order) :
    ((batch s limit order).map Schedule.id).Nodup := by
  have hrows : (s.schedules.rows.map Schedule.id).Nodup :=
    List.pairwise_map.mpr s.schedules.apart
  have horder : order.Nodup :=
    hordered.1.nodup_iff.mpr (hrows.sublist (List.filter_sublist.map _))
  have hfound : (order.filterMap (dueRow s.schedules s.now)).Pairwise
      fun a b => a.id ≠ b.id := by
    apply List.Pairwise.filterMap _ _ horder
    intro id id' hne a ha b hb
    rw [(dueRow_eq_some ha).1, (dueRow_eq_some hb).1]
    exact hne
  exact List.pairwise_map.mpr (hfound.sublist (List.take_sublist _ _))

variable (wording uuid) in
/-- What a pass comes to where no row of its batch is stuck. -/
theorem fireDue_ok (h : ∀ row ∈ batch s limit order, ¬ Stuck host s.now row) :
    ∃ changes drawn, List.Forall₂ (Became host s.now) (batch s limit order) changes ∧
      fireDue host wording uuid s limit order =
        { s with
          drawn := drawn
          schedules := changes.foldl updateSchedules s.schedules
          outbox := changes.foldl stageChange s.outbox
          firings := s.firings ++ firingsOf changes } := by
  obtain ⟨changes, drawn, hrows, hbecame⟩ :=
    fireRows_ok wording uuid h s.drawn
  refine ⟨changes, drawn, hbecame, ?_⟩
  unfold fireDue
  rw [hrows]

variable (wording uuid) in
theorem fireDue_stuck (h : ∃ row ∈ batch s limit order, Stuck host s.now row) :
    ∃ drawn, fireDue host wording uuid s limit order = { s with drawn := drawn } := by
  obtain ⟨e, drawn, hrows⟩ := fireRows_error wording uuid h s.drawn
  refine ⟨drawn, ?_⟩
  unfold fireDue
  rw [hrows]

theorem schedules_of_became {rows : List Schedule} {changes : List Change} {now : Int}
    (h : List.Forall₂ (Became host now) rows changes) : changes.map Change.schedule = rows := by
  induction h with
  | nil => rfl
  | cons hhead _ ih => rw [List.map_cons, hhead.schedule, ih]

theorem exists_change {rows : List Schedule} {changes : List Change} {now : Int}
    (h : List.Forall₂ (Became host now) rows changes) {row : Schedule} (hrow : row ∈ rows) :
    ∃ change ∈ changes, Became host now row change := by
  induction h with
  | nil => contradiction
  | cons hhead _ ih =>
      rcases List.mem_cons.mp hrow with rfl | hmem
      · exact ⟨_, List.mem_cons_self .., hhead⟩
      · obtain ⟨change, hchange, hbecame⟩ := ih hmem
        exact ⟨change, List.mem_cons_of_mem _ hchange, hbecame⟩

/-- In a pass that nothing stops every good row fires. -/
theorem everyGoodFires_of_none_stuck (huuid : Function.Injective uuid)
    {before : List (System × Label)}
    (start : Run (step host wording uuid) System.initial before s) (hquiet : Quiet s)
    (hordered : Ordered s.schedules s.now order)
    (h : ∀ row ∈ batch s limit order, ¬ Stuck host s.now row) :
    EveryGoodFires host wording uuid s limit order := by
  intro row hrow hgood
  obtain ⟨changes, drawn, hbecame, hfired⟩ := fireDue_ok wording uuid h
  obtain ⟨change, hchange, hrowbecame⟩ := exists_change hbecame hrow
  obtain ⟨f, rfl, hnow, hnext⟩ := hrowbecame.fired hgood.fits
  have hschedule : f.schedule = row := hrowbecame.schedule
  obtain ⟨pass, run⟩ : ∃ pass, Run (step host wording uuid) s pass
      (fireDue host wording uuid s limit order) := run_fireDue hquiet hordered 0
  have hstaged := (counted_of_run huuid (start.trans run)).2.staged
  refine ⟨f, hschedule, hnow, hnext, ?_, ?_⟩
  · rw [hstaged, hfired]
    apply List.mem_map_of_mem
    exact List.mem_append_right _ (List.mem_filterMap.mpr ⟨_, hchange, rfl⟩)
  · have hdistinct : (changes.map fun c => c.schedule.id).Nodup := by
      have hbatch := distinct_batch limit hordered
      rw [← schedules_of_became hbecame, List.map_map] at hbatch
      exact hbatch
    have hid : (Change.fired f).schedule.id = row.id := congrArg Schedule.id hschedule
    rw [hfired]
    show _ ∈ (changes.foldl updateSchedules s.schedules).rows
    rw [rows_updates, ← updatedBy_of_touched hdistinct hchange hid]
    exact List.mem_map_of_mem (mem_batch hrow).1

/-- One stuck row keeps every good row of the batch from firing. -/
theorem none_fires_of_stuck (h : ∃ row ∈ batch s limit order, Stuck host s.now row)
    {row : Schedule} (hrow : row ∈ batch s limit order) :
    ¬ FiredIn host s (fireDue host wording uuid s limit order) row := by
  rintro ⟨f, -, -, -, -, hmoved⟩
  obtain ⟨drawn, hsame⟩ := fireDue_stuck wording uuid h
  rw [hsame] at hmoved
  have heq := eq_of_id hmoved (mem_batch hrow).1 (applied_id _ row)
  have hruns : row.runs + 1 = row.runs := congrArg Schedule.runs heq
  omega

end Batches

/-- What a scheduler does that nobody disturbs. -/
inductive Turn where
  | wait (elapsed : Nat)
  | pass (limit : Nat) (order : List String)

def turnStep (s : System) : Turn → Option System
  | .wait elapsed => some { s with now := s.now + elapsed }
  | .pass limit order =>
      if Ordered s.schedules s.now order then some (fireDue host wording uuid s limit order)
      else none

def Turn.NoneStuck (s : System) : Turn → Prop
  | .wait _ => True
  | .pass limit order => ∀ row ∈ batch s limit order, ¬ Stuck host s.now row

def Turn.EveryGoodFires (s : System) : Turn → Prop
  | .wait _ => True
  | .pass limit order => BadSchedules.EveryGoodFires host wording uuid s limit order

/-- A schedule is due and not in the batch. -/
def Turn.PassesOver (id : String) (s : System) : Turn → Prop
  | .wait _ => True
  | .pass limit order =>
      ∃ row ∈ s.schedules.rows, row.id = id ∧ row.Due s.now ∧ row ∉ batch s limit order

/-- The room the passes of a run had. -/
def roomOf (past : List (System × Turn)) : Nat :=
  (past.map fun moment => match moment.2 with
    | .wait _ => 0
    | .pass limit _ => limit).sum

/-- A schedule that is still to be deactivated. -/
def Bad (row : Schedule) : Prop := row.active = true ∧ ¬ Fits row

instance : DecidablePred Bad := fun _ => inferInstanceAs (Decidable (_ ∧ _))

def badCount (s : System) : Nat := s.schedules.rows.countP fun row => Bad row

section Turns

variable {host : Host} {wording : Wording} {uuid : Nat → String} {s s' s₀ : System} {limit : Nat}
  {order : List String}

theorem quiet_turn {turn : Turn} (hquiet : Quiet s)
    (hstep : turnStep host wording uuid s turn = some s') : Quiet s' := by
  cases turn with
  | wait elapsed =>
      cases hstep
      exact ⟨hquiet.idle, hquiet.free⟩
  | pass limit order =>
      simp only [turnStep] at hstep
      split at hstep
      · cases hstep
        unfold fireDue
        split <;> exact ⟨hquiet.idle, hquiet.free⟩
      · contradiction

/-- What the scheduler does alone it does among others too. -/
theorem run_of_turns {past : List (System × Turn)} (hquiet : Quiet s₀)
    (run : Run (turnStep host wording uuid) s₀ past s) :
    Quiet s ∧ ∃ steps, Run (step host wording uuid) s₀ steps s := by
  induction run with
  | refl => exact ⟨hquiet, [], .refl⟩
  | @snoc past s s' turn run hstep ih =>
      obtain ⟨hbefore, steps, hsteps⟩ := ih
      refine ⟨quiet_turn hbefore hstep, ?_⟩
      cases turn with
      | wait elapsed =>
          have htick : step host wording uuid s (.tick elapsed) = some s' := hstep
          exact ⟨_, hsteps.snoc htick⟩
      | pass limit order =>
          simp only [turnStep] at hstep
          split at hstep
          · rename_i hordered
            cases hstep
            obtain ⟨more, hmore⟩ : ∃ more, Run (step host wording uuid) s more
                (fireDue host wording uuid s limit order) := run_fireDue hbefore hordered 0
            exact ⟨_, hsteps.trans hmore⟩
          · contradiction

/-- A due row that a pass leaves out means that its batch is full. -/
theorem length_batch_of_passed_over (hordered : Ordered s.schedules s.now order)
    {row : Schedule} (hrow : row ∈ s.schedules.rows) (hdue : row.Due s.now)
    (hout : row ∉ batch s limit order) : (batch s limit order).length = limit := by
  unfold batch at hout ⊢
  rw [List.length_take]
  apply min_eq_left
  by_contra hshort
  rw [List.take_of_length_le (Nat.le_of_not_le hshort)] at hout
  apply hout
  have hid : row.id ∈ order := by
    apply hordered.1.symm.subset
    exact List.mem_map_of_mem (List.mem_filter.mpr ⟨hrow, by simpa using hdue⟩)
  refine List.mem_filterMap.mpr ⟨row.id, hid, ?_⟩
  apply s.schedules.find?_eq_some_of_unique hrow
  · simpa using hdue
  · intro other hother hcond
    simp only [decide_eq_true_eq] at hcond
    exact eq_of_id hother hrow hcond.1

theorem became_of_mem {rows : List Schedule} {changes : List Change} {now : Int}
    (h : List.Forall₂ (Became host now) rows changes) {change : Change}
    (hchange : change ∈ changes) : ∃ row ∈ rows, Became host now row change := by
  induction h with
  | nil => contradiction
  | cons hhead _ ih =>
      rcases List.mem_cons.mp hchange with rfl | hmem
      · exact ⟨_, List.mem_cons_self .., hhead⟩
      · obtain ⟨row, hrow, hbecame⟩ := ih hmem
        exact ⟨row, List.mem_cons_of_mem _ hrow, hbecame⟩

/-- The rows of a batch fired or were deactivated. -/
theorem length_of_became {rows : List Schedule} {changes : List Change} {now : Int}
    (h : List.Forall₂ (Became host now) rows changes) :
    rows.length = (firingsOf changes).length + rows.countP fun row => ¬ Fits row := by
  induction h with
  | nil => rfl
  | @cons row change rest changes hhead _ ih =>
      by_cases hfits : Fits row
      · obtain ⟨f, rfl, -, -⟩ := hhead.fired hfits
        rw [List.countP_cons_of_neg (by simpa using hfits), List.length_cons, ih]
        have hcons : firingsOf (.fired f :: changes) = f :: firingsOf changes := rfl
        rw [hcons, List.length_cons]
        omega
      · rw [hhead.deactivated hfits, List.countP_cons_of_pos (by simpa using hfits),
          List.length_cons, ih]
        rfl

theorem countP_add_le {α : Type} {p q r : α → Bool} {xs : List α}
    (hp : ∀ x ∈ xs, p x = true → r x = true ∧ q x = false)
    (hq : ∀ x ∈ xs, q x = true → r x = true) : xs.countP p + xs.countP q ≤ xs.countP r := by
  induction xs with
  | nil => exact le_refl 0
  | cons x rest ih =>
      have hrest := ih (fun y hy => hp y (List.mem_cons_of_mem _ hy))
        fun y hy => hq y (List.mem_cons_of_mem _ hy)
      have hphead := hp x (List.mem_cons_self ..)
      have hqhead := hq x (List.mem_cons_self ..)
      simp only [List.countP_cons]
      cases hpx : p x <;> cases hqx : q x <;> simp_all <;> omega

/-- What a pass deactivates is never to be deactivated again. -/
theorem badCount_pass {changes : List Change} (hordered : Ordered s.schedules s.now order)
    (hbecame : List.Forall₂ (Became host s.now) (batch s limit order) changes) :
    (s.schedules.rows.map (updatedBy changes)).countP (fun row => Bad row) +
      (batch s limit order).countP (fun row => ¬ Fits row) ≤ badCount s := by
  have hdistinct : (changes.map fun c => c.schedule.id).Nodup := by
    have hbatch := distinct_batch limit hordered
    rw [← schedules_of_became hbecame, List.map_map] at hbatch
    exact hbatch
  have hsettled : ∀ row ∈ s.schedules.rows, row ∈ batch s limit order →
      ¬ Bad (updatedBy changes row) := by
    rintro row - hbatch ⟨hactive, hunfit⟩
    obtain ⟨change, hchange, hrow⟩ := exists_change hbecame hbatch
    have hid : change.schedule.id = row.id := congrArg Schedule.id hrow.schedule
    rw [updatedBy_of_touched hdistinct hchange hid] at hactive hunfit
    by_cases hfits : Fits row
    · obtain ⟨f, rfl, -, -⟩ := hrow.fired hfits
      exact hunfit hfits
    · rw [hrow.deactivated hfits] at hactive
      exact Bool.noConfusion hactive
  have hunchanged : ∀ row ∈ s.schedules.rows, row ∉ batch s limit order →
      updatedBy changes row = row := by
    intro row hrow hout
    apply updatedBy_of_untouched
    intro change hchange hid
    obtain ⟨other, hother, hotherbecame⟩ := became_of_mem hbecame hchange
    rw [hotherbecame.schedule] at hid
    exact hout (eq_of_id (mem_batch hother).1 hrow hid ▸ hother)
  have hnodup : (batch s limit order).Nodup := List.Nodup.of_map _ (distinct_batch limit hordered)
  have hdeactivated : (batch s limit order).countP (fun row => ¬ Fits row) ≤
      s.schedules.rows.countP fun row =>
        row.id ∈ (batch s limit order).map Schedule.id ∧ ¬ Fits row := by
    rw [List.countP_eq_length_filter, List.countP_eq_length_filter]
    apply List.Subperm.length_le
    apply List.Nodup.subperm (hnodup.filter _)
    intro row hrow
    obtain ⟨hmem, hunfit⟩ := List.mem_filter.mp hrow
    refine List.mem_filter.mpr ⟨(mem_batch hmem).1, ?_⟩
    rw [decide_eq_true_eq] at hunfit ⊢
    exact ⟨List.mem_map_of_mem hmem, hunfit⟩
  have hin : ∀ row ∈ s.schedules.rows, row.id ∈ (batch s limit order).map Schedule.id →
      row ∈ batch s limit order := by
    intro row hrow hid
    obtain ⟨other, hother, heq⟩ := List.mem_map.mp hid
    exact eq_of_id (mem_batch hother).1 hrow heq ▸ hother
  rw [List.countP_map]
  refine (Nat.add_le_add_left hdeactivated _).trans (countP_add_le ?_ ?_)
  · intro row hrow hbad
    have hbad : Bad (updatedBy changes row) := of_decide_eq_true hbad
    have hout : row ∉ batch s limit order := fun hbatch => hsettled row hrow hbatch hbad
    rw [hunchanged row hrow hout] at hbad
    refine ⟨decide_eq_true hbad, decide_eq_false ?_⟩
    exact fun hmem => hout (hin row hrow hmem.1)
  · intro row hrow hmem
    obtain ⟨hid, hunfit⟩ := of_decide_eq_true hmem
    exact decide_eq_true ⟨(mem_batch (hin row hrow hid)).2.1, hunfit⟩

theorem roomOf_snoc (past : List (System × Turn)) (s : System) (turn : Turn) :
    roomOf (past ++ [(s, turn)]) = roomOf past + roomOf [(s, turn)] := by
  simp [roomOf]

/-- While a good schedule waits, every place in a pass goes to one that fires, or to
one that is deactivated, and each of those takes a place once. -/
theorem room_of_turns {past : List (System × Turn)} {id : String}
    (run : Run (turnStep host wording uuid) s₀ past s)
    (hnone : ∀ moment ∈ past, moment.2.NoneStuck host moment.1)
    (hover : ∀ moment ∈ past, moment.2.PassesOver id moment.1) :
    roomOf past + s₀.firings.length + badCount s ≤ s.firings.length + badCount s₀ := by
  induction run with
  | refl =>
      show 0 + _ + _ ≤ _
      omega
  | @snoc past s s' turn run hstep ih =>
      have hbefore := ih (fun moment hmem => hnone moment (List.mem_append_left _ hmem))
        fun moment hmem => hover moment (List.mem_append_left _ hmem)
      have hlast : (s, turn) ∈ past ++ [(s, turn)] := by simp
      have hstuck : turn.NoneStuck host s := hnone _ hlast
      have hpassed : turn.PassesOver id s := hover _ hlast
      rw [roomOf_snoc]
      cases turn with
      | wait elapsed =>
          cases hstep
          exact hbefore
      | pass limit order =>
          simp only [turnStep] at hstep
          split at hstep
          · rename_i hordered
            obtain ⟨row, hrow, -, hdue, hout⟩ := hpassed
            obtain ⟨changes, drawn, hbecame, hfired⟩ := fireDue_ok wording uuid hstuck
            have hfull := length_batch_of_passed_over hordered hrow hdue hout
            have hlength := length_of_became hbecame
            have hbad := badCount_pass hordered hbecame
            have hroom : roomOf [(s, Turn.pass limit order)] = limit := Nat.add_zero limit
            have hfirings : s'.firings.length = s.firings.length + (firingsOf changes).length := by
              rw [← Option.some.inj hstep, hfired]
              exact List.length_append
            have hcount : badCount s' =
                (s.schedules.rows.map (updatedBy changes)).countP fun row => Bad row := by
              rw [← Option.some.inj hstep, hfired]
              unfold badCount
              rw [rows_updates]
            omega
          · contradiction

/-- A pass fires every good schedule of its batch exactly where none of the batch has
valid inputs and no next time, or none is good; and while that goes on, bad schedules
keep no good one waiting but for the one place each that they take. -/
theorem good_fire_iff {before : List (System × Label)} (huuid : Function.Injective uuid)
    (start : Run (step host wording uuid) System.initial before s₀) (hquiet : Quiet s₀) :
    (∀ limit order, Ordered s₀.schedules s₀.now order →
      (EveryGoodFires host wording uuid s₀ limit order ↔
        (∀ row ∈ batch s₀ limit order, ¬ Stuck host s₀.now row) ∨
          ∀ row ∈ batch s₀ limit order, ¬ Good host s₀.now row)) ∧
    ∀ past s, Run (turnStep host wording uuid) s₀ past s →
      (∀ moment ∈ past, moment.2.NoneStuck host moment.1) →
      (∀ moment ∈ past, moment.2.EveryGoodFires host wording uuid moment.1) ∧
        ∀ id, (∀ moment ∈ past, moment.2.PassesOver id moment.1) →
          roomOf past + s₀.firings.length + badCount s ≤ s.firings.length + badCount s₀ := by
  constructor
  · intro limit order hordered
    constructor
    · intro hfires
      by_contra hneither
      push Not at hneither
      obtain ⟨hstuck, row, hrow, hgood⟩ := hneither
      exact none_fires_of_stuck hstuck hrow (hfires row hrow hgood)
    · rintro (hnone | hnobody)
      · exact everyGoodFires_of_none_stuck huuid start hquiet hordered hnone
      · exact fun row hrow hgood => absurd hgood (hnobody row hrow)
  · intro past s run hnone
    refine ⟨?_, fun id hover => room_of_turns run hnone hover⟩
    rintro ⟨t, turn⟩ hmem
    obtain ⟨earlier, later, t', -, hearlier, hstep, -⟩ := run.moment hmem
    cases turn with
    | wait elapsed => trivial
    | pass limit order =>
        obtain ⟨hquiet', steps, hsteps⟩ := run_of_turns hquiet hearlier
        simp only [turnStep] at hstep
        split at hstep
        · rename_i hordered
          exact everyGoodFires_of_none_stuck huuid (start.trans hsteps) hquiet' hordered
            (hnone _ hmem)
        · contradiction

end Turns

/-- A machine whose zones have lost one that other machines know. -/
def updatedHost : Host where
  zoneInfo name := if name = "US/Pacific-New" then .error .notFound else .ok (.constant 0)
  repr := id

/-- A schedule of a zone that is gone. -/
def goneZone : Draft := { everyMorning with hour := 8, tz := "US/Pacific-New" }

/-- Two schedules are due and two passes are made. -/
def stuckLabels : List Label :=
  let stuckPass : List Label :=
    [.begin 0 20, .select 0 ["", "x"], .lock 0, .lock 0, .lock 0, .fire 0]
  [.tick midnight, .create utcHost goneZone, .create utcHost everyMorning, .tick (hours 10)] ++
    stuckPass ++ [.tick 60000000] ++ stuckPass

/-- The good schedule is due, stands in both batches, and does not fire. -/
theorem good_kept_by_stuck :
    ∃ past s, past.map Prod.snd = stuckLabels ∧
      Run (step updatedHost (fun _ _ => "") plainUuid) System.initial past s ∧
      s.firings.length = 0 ∧ s.outbox.rows.length = 0 ∧
      ∃ row ∈ s.schedules.rows, row.Due s.now ∧ Good updatedHost s.now row := by
  obtain ⟨past, s, hlabels, run, hcheck⟩ := Run.of_check
    (step updatedHost (fun _ _ => "") plainUuid) System.initial stuckLabels
    (fun _ s => s.firings.length == 0 && s.outbox.rows.length == 0 &&
      s.schedules.rows.any fun row => row.Due s.now ∧ Fits row ∧
        (catchUp updatedHost row s.now).isOk = true) (by decide +kernel)
  obtain ⟨hnothing, hgood⟩ := Bool.and_eq_true_iff.mp hcheck
  obtain ⟨hfirings, hstaged⟩ := Bool.and_eq_true_iff.mp hnothing
  obtain ⟨row, hrow, hcond⟩ := List.any_eq_true.mp hgood
  obtain ⟨hdue, hfits, hnext⟩ := of_decide_eq_true hcond
  refine ⟨past, s, hlabels, run, eq_of_beq hfirings, eq_of_beq hstaged, row, hrow, hdue, hfits, ?_⟩
  cases hcatch : catchUp updatedHost row s.now with
  | error e =>
      rw [hcatch] at hnext
      contradiction
  | ok next => exact ⟨next, rfl⟩

def Label.Setup : Label → Prop
  | .tick _ => True
  | .create _ _ => True
  | _ => False

theorem quiet_of_setup {past : List (System × Label)} {s : System}
    (run : Run (step utcHost (fun _ _ => "") plainUuid) System.initial past s)
    (hsetup : ∀ label ∈ past.map Prod.snd, Label.Setup label) : Quiet s := by
  apply run.invariant_of (fun _ label => Label.Setup label)
    (fun moment hmem => hsetup _ (List.mem_map_of_mem hmem)) Quiet ⟨fun _ => rfl, fun _ => rfl⟩
  intro s label s' hquiet hlabel hstep
  cases label with
  | tick elapsed =>
      cases hstep
      exact ⟨hquiet.idle, hquiet.free⟩
  | create creator draft =>
      simp only [step, createSchedule] at hstep
      split at hstep
      · contradiction
      · obtain ⟨schedules, -, rfl⟩ := Option.map_eq_some_iff.mp hstep
        exact ⟨hquiet.idle, hquiet.free⟩
  | pause | delete | begin | select | lock | fire | commit | abort => contradiction

theorem good_fire_every_morning :
    ∃ past s, Run (step utcHost (fun _ _ => "") plainUuid) System.initial past s ∧
      (batch s 20 [""]).length = 1 ∧
      EveryGoodFires utcHost (fun _ _ => "") plainUuid s 20 [""] := by
  obtain ⟨past, s, hlabels, run, hcheck⟩ := Run.of_check
    (step utcHost (fun _ _ => "") plainUuid) System.initial
    [.tick midnight, .create utcHost everyMorning, .tick (hours 10)]
    (fun _ s => decide (Ordered s.schedules s.now [""]) && (batch s 20 [""]).length == 1 &&
      (batch s 20 [""]).all fun row => (catchUp utcHost row s.now).isOk) (by decide +kernel)
  obtain ⟨hfirst, hturns⟩ := Bool.and_eq_true_iff.mp hcheck
  obtain ⟨hordered, hlength⟩ := Bool.and_eq_true_iff.mp hfirst
  have hquiet : Quiet s := by
    apply quiet_of_setup run
    rw [hlabels]
    simp [Label.Setup]
  refine ⟨past, s, run, eq_of_beq hlength, ?_⟩
  apply ((good_fire_iff plainUuid_injective run hquiet).1 20 [""] (of_decide_eq_true hordered)).mpr
  left
  intro row hrow hstuck
  obtain ⟨e, he⟩ := hstuck.next
  have hok := List.all_eq_true.mp hturns row hrow
  rw [he] at hok
  contradiction

end SeoPlatform.Orchestrator.BadSchedules
