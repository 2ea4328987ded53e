import SeoPlatform.Orchestrator.OneAudit

namespace SeoPlatform.Orchestrator.ScheduleGaps

open SeoPlatform.Foundation.CivilTime
open SeoPlatform.Foundation.TransitionSystem
open SeoPlatform.Orchestrator.Firings
open SeoPlatform.Orchestrator.Occurrences
open SeoPlatform.Orchestrator.OneAudit
open SeoPlatform.Orchestrator.Schedules
open SeoPlatform.Orchestrator.Schedulers
open SeoPlatform.Shared.Contracts

/-- From a moment on, whatever occurrence the clock of the schedule shows next is
the shortest gap away. -/
def OnTime (host : Host) (schedule : Schedule) (now : Int) : Prop :=
  ∀ localZone w, zone host schedule.tz = .ok localZone →
    Occurs schedule.cadence schedule.hour schedule.weekday schedule.dayOfMonth w →
    Later (localZone.reading now) w → now + minInterval ≤ localZone.instant w

section Gaps

variable {host : Host} {wording : Wording} {uuid : Nat → String} {past : List (System × Label)}
  {s : System} {schedule : Schedule} {now : Int}

/-- On clocks that never change a daily schedule is on time for an hour. -/
theorem onTime_daily {offset : Int} (hzone : zone host schedule.tz = .ok (.constant offset))
    (hdaily : schedule.cadence = "daily") :
    OnTime host schedule now ↔
      (now + offset - schedule.hour * microsPerHour) % microsPerDay ≤ microsPerHour := by
  constructor
  · intro h
    have hnext := h _ (WallTime.onDay
      ((now + offset - schedule.hour * microsPerHour) / microsPerDay + 1) schedule.hour false)
      hzone ⟨_, rfl, by simp [OnDay, hdaily]⟩ ⟨?_, Bool.noConfusion⟩
    · simp only [Zone.instant_constant, WallTime.onDay, minInterval, microsPerDay,
        microsPerHour] at hnext ⊢
      omega
    · simp only [Zone.reading_constant, WallTime.onDay, microsPerDay, microsPerHour]
      omega
  · rintro hlate localZone w hfound ⟨day, hw, -⟩ hlater
    obtain rfl := Except.ok.inj (hzone.symm.trans hfound)
    have hstamp := hlater.stamp
    rw [hw] at hstamp ⊢
    simp only [Zone.reading_constant, Zone.instant_constant, WallTime.onDay, minInterval,
      microsPerDay, microsPerHour] at hstamp hlate ⊢
    omega

/-- Where every firing is on time, the shortest gap between two runs is kept. -/
theorem gap_of_onTime (huuid : Function.Injective uuid)
    (run : Run (step host wording uuid) System.initial past s)
    (honTime : ∀ f ∈ s.firings, OnTime host f.schedule f.now) :
    s.firings.Pairwise fun f g => f.schedule.id = g.schedule.id → f.now + minInterval ≤ g.now := by
  have hturned := (counted_of_run huuid run).2.turned
  have hspaced : Spaced minInterval s := by
    apply spaced_of_run (by decide) huuid run
    intro f hf
    obtain ⟨localZone, w, hzone, hlater, hoccurs, hnext⟩ := nextRun_ok (hturned f hf).next
    rw [hnext]
    exact honTime f hf localZone w hzone hoccurs hlater
  apply hspaced.apart.imp_of_mem
  intro f g hf hg hapart hid
  exact (hapart hid).trans (hturned g hg).due.2

end Gaps

/-- Two mornings in a row. -/
def punctualLabels : List Label :=
  [.tick midnight, .create utcHost everyMorning, .tick (hours 9)] ++ pass 0 "" ++
    [.tick (hours 24)] ++ pass 0 ""

/-- The scheduler was down until eight the next morning. -/
def lateLabels : List Label :=
  [.tick midnight, .create utcHost everyMorning, .tick (hours 32)] ++ pass 0 "" ++
    [.tick (hours 1)] ++ pass 0 ""

/-- Two runs of one schedule, an hour apart. -/
def hourApart : List Firing → Bool
  | [f, g] => decide (f.schedule.id = g.schedule.id ∧ g.now = f.now + microsPerHour)
  | _ => false

theorem firings_of_hourApart {firings : List Firing} (h : hourApart firings = true) :
    ∃ f g, firings = [f, g] ∧ f.schedule.id = g.schedule.id ∧
      g.now = f.now + microsPerHour := by
  unfold hourApart at h
  split at h
  · rename_i f g
    obtain ⟨hid, hnow⟩ := of_decide_eq_true h
    exact ⟨f, g, rfl, hid, hnow⟩
  · contradiction

/-- A run at eight, for the day before, and the run of the day an hour later. -/
theorem gap_of_late :
    ∃ past s, past.map Prod.snd = lateLabels ∧
      Run (step utcHost (fun _ _ => "") plainUuid) System.initial past s ∧
      ∃ f g, s.firings = [f, g] ∧ f.schedule.id = g.schedule.id ∧
        g.now = f.now + microsPerHour ∧ g.now < f.now + minInterval := by
  obtain ⟨past, s, hlabels, run, hcheck⟩ := Run.of_check
    (step utcHost (fun _ _ => "") plainUuid) System.initial lateLabels
    (fun _ s => hourApart s.firings) (by decide +kernel)
  obtain ⟨f, g, hfirings, hid, hnow⟩ := firings_of_hourApart hcheck
  refine ⟨past, s, hlabels, run, f, g, hfirings, hid, hnow, ?_⟩
  rw [hnow]
  unfold minInterval microsPerHour
  omega

theorem gap_of_onTime_twice :
    ∃ past s, past.map Prod.snd = punctualLabels ∧
      Run (step utcHost (fun _ _ => "") plainUuid) System.initial past s ∧
      s.firings.length = 2 ∧
      s.firings.Pairwise fun f g =>
        f.schedule.id = g.schedule.id → f.now + minInterval ≤ g.now := by
  obtain ⟨past, s, hlabels, run, hcheck⟩ := Run.of_check
    (step utcHost (fun _ _ => "") plainUuid) System.initial punctualLabels
    (fun _ s => s.firings.length == 2 && s.firings.all fun f =>
      f.schedule.cadence = "daily" ∧
        (f.now + 0 - f.schedule.hour * microsPerHour) % microsPerDay ≤ microsPerHour)
    (by decide +kernel)
  obtain ⟨hlength, hall⟩ := Bool.and_eq_true_iff.mp hcheck
  refine ⟨past, s, hlabels, run, eq_of_beq hlength, ?_⟩
  apply gap_of_onTime plainUuid_injective run
  intro f hf
  obtain ⟨hdaily, hlate⟩ := of_decide_eq_true (List.all_eq_true.mp hall f hf)
  exact (onTime_daily rfl hdaily).mpr hlate

end SeoPlatform.Orchestrator.ScheduleGaps
