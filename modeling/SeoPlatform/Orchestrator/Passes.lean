import SeoPlatform.Orchestrator.OneAudit

namespace SeoPlatform.Orchestrator.Passes

open SeoPlatform.Foundation.ConstrainedTable
open SeoPlatform.Foundation.RowLocks
open SeoPlatform.Foundation.TransitionSystem
open SeoPlatform.Orchestrator.HeldSchedules
open SeoPlatform.Orchestrator.Schedules
open SeoPlatform.Orchestrator.Schedulers
open SeoPlatform.Shared.Contracts

variable (host : Host) (wording : Wording) (uuid : Nat → String)

/-- A row as the SELECT finds it. -/
def dueRow (schedules : ScheduleTable) (now : Int) (id : String) : Option Schedule :=
  schedules.rows.find? fun row => row.id = id ∧ row.Due now

/-- The batch of a pass that nobody disturbs. -/
def batch (s : System) (limit : Nat) (order : List String) : List Schedule :=
  (order.filterMap (dueRow s.schedules s.now)).take limit

/-- The loop of `fire_due` over its batch, with the identifiers it draws. -/
def fireRows (now : Int) : List Schedule → Nat → Except TimingError (List Change) × Nat
  | [], drawn => (.ok [], drawn)
  | row :: rest, drawn =>
      match fireRow host wording row (uuid drawn) (uuid (drawn + 1)) now with
      | .error e => (.error e, drawn + 2)
      | .ok change =>
          let fired := fireRows now rest (drawn + 2)
          (fired.1.map (change :: ·), fired.2)

/-- `fire_due`, where nobody disturbs it. A batch that raises is rolled back. -/
def fireDue (s : System) (limit : Nat) (order : List String) : System :=
  match fireRows host wording uuid s.now (batch s limit order) s.drawn with
  | (.error _, drawn) => { s with drawn := drawn }
  | (.ok changes, drawn) =>
      { s with
        drawn := drawn
        schedules := changes.foldl updateSchedules s.schedules
        outbox := changes.foldl stageChange s.outbox
        firings := s.firings ++ firingsOf changes }

/-- Nobody is in a transaction. -/
structure Quiet (s : System) : Prop where
  idle : ∀ n, s.schedulers n = .idle
  free : ∀ id, s.locks id = none

section Steps

variable {host : Host} {wording : Wording} {uuid : Nat → String} {s : System} {n : Nat}

def lockAll (locks : Locks String Nat) (rows : List Schedule) (n : Nat) : Locks String Nat :=
  rows.foldl (fun taken row => taken.take row.id n) locks

/-- What a transaction locked is free again when it is over. -/
theorem release_lockAll {locks : Locks String Nat} {rows : List Schedule}
    (h : ∀ id, locks id = none) : (lockAll locks rows n).release n = locks := by
  have hmine : ∀ id, lockAll locks rows n id = none ∨ lockAll locks rows n id = some n := by
    suffices hany : ∀ taken : Locks String Nat, (∀ id, taken id = none ∨ taken id = some n) →
        ∀ id, lockAll taken rows n id = none ∨ lockAll taken rows n id = some n from
      hany locks fun id => .inl (h id)
    induction rows with
    | nil => exact fun taken htaken => htaken
    | cons row rest ih =>
        intro taken htaken
        apply ih
        intro id
        rcases eq_or_ne id row.id with rfl | hne
        · exact .inr Locks.take_self
        · have hother : taken.take row.id n id = taken id := Function.update_of_ne hne ..
          show taken.take row.id n id = none ∨ taken.take row.id n id = some n
          rw [hother]
          exact htaken id
  funext id
  rw [h id, Locks.release]
  rcases hmine id with hnone | hsome
  · rw [hnone]
    rfl
  · rw [hsome, if_pos rfl]

theorem dueRow_eq_some {schedules : ScheduleTable} {now : Int} {id : String} {row : Schedule}
    (h : dueRow schedules now id = some row) :
    row.id = id ∧ row ∈ schedules.rows ∧ row.Due now := by
  have hcond := List.find?_some h
  simp only [decide_eq_true_eq] at hcond
  exact ⟨hcond.1, List.mem_of_find?_eq_some h, hcond.2⟩

/-- The scheduler locks its candidates one by one. By induction on those left. -/
theorem run_locks {now : Int} {candidates : List String} {claimed : List Schedule} {room : Nat}
    (hphase : s.schedulers n = .claiming now room candidates claimed)
    (hfree : ∀ id ∈ candidates, s.locks id = none) (hdistinct : candidates.Nodup) :
    ∃ past, Run (step host wording uuid) s past
      { s with
        schedulers := Function.update s.schedulers n (.firing now
          (claimed ++ (candidates.filterMap (dueRow s.schedules now)).take room) [])
        locks :=
          lockAll s.locks ((candidates.filterMap (dueRow s.schedules now)).take room) n } := by
  induction candidates generalizing s claimed room with
  | nil =>
      have hstep : step host wording uuid s (.lock n) =
          some (s.setScheduler n (.firing now claimed [])) := by
        cases room <;> simp only [step, lockNext, hphase]
      refine ⟨[(s, .lock n)], ?_⟩
      simpa [System.setScheduler, lockAll] using Run.single hstep
  | cons id rest ih =>
      obtain ⟨hid, hrest⟩ := List.nodup_cons.mp hdistinct
      have hlater : ∀ other ∈ rest, s.locks other = none := fun other hother =>
        hfree other (List.mem_cons_of_mem _ hother)
      have hclaimable : claimable s now id = dueRow s.schedules now id := by
        unfold claimable dueRow
        rw [if_pos (hfree id (List.mem_cons_self ..))]
      cases room with
      | zero =>
          have hstep : step host wording uuid s (.lock n) =
              some (s.setScheduler n (.firing now claimed [])) := by
            simp only [step, lockNext, hphase]
          refine ⟨[(s, .lock n)], ?_⟩
          simpa [System.setScheduler, lockAll] using Run.single hstep
      | succ room =>
          cases hrow : dueRow s.schedules now id with
          | none =>
              have hstep : step host wording uuid s (.lock n) =
                  some (s.setScheduler n (.claiming now (room + 1) rest claimed)) := by
                simp only [step, lockNext, hphase, hclaimable, hrow]
              obtain ⟨past, run⟩ := ih (schedulers_setScheduler_self ..) hlater hrest
              refine ⟨[(s, .lock n)] ++ past, (Run.single hstep).trans ?_⟩
              simpa [System.setScheduler, hrow] using run
          | some row =>
              obtain ⟨rfl, -, -⟩ := dueRow_eq_some hrow
              have hstep : step host wording uuid s (.lock n) =
                  some { s.setScheduler n (.claiming now room rest (claimed ++ [row])) with
                    locks := s.locks.take row.id n } := by
                simp only [step, lockNext, hphase, hclaimable, hrow]
              have hfree' : ∀ other ∈ rest, s.locks.take row.id n other = none := by
                intro other hother
                have hne : other ≠ row.id := fun heq => hid (heq ▸ hother)
                rw [show s.locks.take row.id n other = s.locks other from
                  Function.update_of_ne hne ..]
                exact hlater other hother
              obtain ⟨past, run⟩ := ih (s := { s.setScheduler n
                  (.claiming now room rest (claimed ++ [row])) with
                    locks := s.locks.take row.id n }) (Function.update_self ..) hfree' hrest
              refine ⟨[(s, .lock n)] ++ past, (Run.single hstep).trans ?_⟩
              simpa [System.setScheduler, hrow, lockAll] using run

/-- Where the loop leaves its transaction. -/
def looped (s : System) (n : Nat) (now : Int) (changes : List Change) :
    Except TimingError (List Change) × Nat → System
  | (.error _, drawn) => ({ s with drawn := drawn } : System).leave n
  | (.ok more, drawn) =>
      ({ s with drawn := drawn } : System).setScheduler n (.firing now [] (changes ++ more))

/-- The loop, turn by turn. By induction on the rows left. -/
theorem run_fires {now : Int} {todo : List Schedule} {changes : List Change}
    (hphase : s.schedulers n = .firing now todo changes) :
    ∃ past, Run (step host wording uuid) s past
      (looped s n now changes (fireRows host wording uuid now todo s.drawn)) := by
  induction todo generalizing s changes with
  | nil =>
      refine ⟨[], ?_⟩
      have hsame : s.setScheduler n (.firing now [] (changes ++ [])) = s := by
        rw [List.append_nil, ← hphase]
        unfold System.setScheduler
        rw [Function.update_eq_self]
      simp only [fireRows, looped, hsame]
      exact .refl
  | cons row rest ih =>
      cases hrow : fireRow host wording row (uuid s.drawn) (uuid (s.drawn + 1)) now with
      | error e =>
          have hstep : step host wording uuid s (.fire n) =
              some (({ s with drawn := s.drawn + 2 } : System).leave n) := by
            simp only [step, fireNext, hphase, hrow]
          refine ⟨[(s, .fire n)], ?_⟩
          simpa only [fireRows, hrow, looped] using Run.single hstep
      | ok change =>
          have hstep : step host wording uuid s (.fire n) =
              some (({ s with drawn := s.drawn + 2 } : System).setScheduler n
                (.firing now rest (changes ++ [change]))) := by
            simp only [step, fireNext, hphase, hrow]
          obtain ⟨past, run⟩ := ih (s := ({ s with drawn := s.drawn + 2 } : System).setScheduler n
            (.firing now rest (changes ++ [change]))) schedulers_setScheduler_self
          refine ⟨[(s, .fire n)] ++ past, (Run.single hstep).trans ?_⟩
          simp only [fireRows, hrow]
          rcases hrest : fireRows host wording uuid now rest (s.drawn + 2) with ⟨e | more, drawn⟩
          · simpa [hrest, looped, System.setScheduler, System.leave, Except.map] using run
          · simpa [hrest, looped, System.setScheduler, Except.map] using run

/-- A scheduler that has locked its batch. -/
def claimedBy (s : System) (n limit : Nat) (order : List String) : System :=
  { s.setScheduler n (.firing s.now (batch s limit order) []) with
    locks := lockAll s.locks (batch s limit order) n }

theorem run_claims (hquiet : Quiet s) {limit : Nat} {order : List String}
    (hordered : Ordered s.schedules s.now order) (n : Nat) :
    ∃ past, Run (step host wording uuid) s past (claimedBy s n limit order) := by
  have hbegin : step host wording uuid s (.begin n limit) =
      some (s.setScheduler n (.ticking s.now limit)) := by
    simp only [step, hquiet.idle n]
  have hselect : step host wording uuid (s.setScheduler n (.ticking s.now limit))
      (.select n order) = some (s.setScheduler n (.claiming s.now limit order [])) := by
    have hsame : Ordered (s.setScheduler n (.ticking s.now limit)).schedules s.now order := hordered
    simp only [step, selectDue, schedulers_setScheduler_self, if_pos hsame]
    simp [System.setScheduler]
  have hdistinct : order.Nodup := by
    have hrows : (s.schedules.rows.map Schedule.id).Nodup :=
      List.pairwise_map.mpr s.schedules.apart
    exact hordered.1.nodup_iff.mpr (hrows.sublist (List.filter_sublist.map _))
  obtain ⟨locking, hlocking⟩ : ∃ past, Run (step host wording uuid)
      (s.setScheduler n (.claiming s.now limit order [])) past (claimedBy s n limit order) := by
    obtain ⟨past, run⟩ := run_locks (s := s.setScheduler n (.claiming s.now limit order []))
      schedulers_setScheduler_self (fun id _ => hquiet.free id) hdistinct
    refine ⟨past, ?_⟩
    simpa [System.setScheduler, claimedBy, batch] using run
  exact ⟨_, ((Run.single hbegin).trans (Run.single hselect)).trans hlocking⟩

/-- A pass that nobody disturbs is steps of the scheduler alone. -/
theorem run_fireDue (hquiet : Quiet s) {limit : Nat} {order : List String}
    (hordered : Ordered s.schedules s.now order) (n : Nat) :
    ∃ past, Run (step host wording uuid) s past (fireDue host wording uuid s limit order) := by
  obtain ⟨claims, hclaims⟩ : ∃ past, Run (step host wording uuid) s past
      (claimedBy s n limit order) := run_claims hquiet hordered n
  obtain ⟨fires, hfires⟩ : ∃ past, Run (step host wording uuid) (claimedBy s n limit order) past
      (looped (claimedBy s n limit order) n s.now []
        (fireRows host wording uuid s.now (batch s limit order) s.drawn)) :=
    run_fires schedulers_setScheduler_self
  have hrun := hclaims.trans hfires
  have hidle : Function.update s.schedulers n .idle = s.schedulers :=
    Function.update_eq_self_iff.mpr (hquiet.idle n).symm
  have hreleased : (lockAll s.locks (batch s limit order) n).release n = s.locks :=
    release_lockAll hquiet.free
  unfold fireDue
  rcases hrows : fireRows host wording uuid s.now (batch s limit order) s.drawn
    with ⟨e | changes, drawn⟩
  · refine ⟨claims ++ fires, ?_⟩
    simpa [hrows, looped, claimedBy, System.leave, System.setScheduler, hidle, hreleased] using hrun
  · rw [hrows] at hrun
    refine ⟨_, hrun.snoc (?_ : step host wording uuid _ (.commit n) = some _)⟩
    simp [step, commitBatch, looped, claimedBy, System.leave, System.setScheduler, hidle, hreleased]

end Steps

end SeoPlatform.Orchestrator.Passes
