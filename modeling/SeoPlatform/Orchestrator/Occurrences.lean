import Mathlib.Tactic.Ring
import SeoPlatform.Orchestrator.Schedules

namespace SeoPlatform.Orchestrator.Occurrences

open SeoPlatform.Foundation.CivilTime
open SeoPlatform.Orchestrator.Schedules

/-- The days the cadence of a schedule names. -/
def OnDay (cadence : String) (weekday dayOfMonth day : Int) : Prop :=
  if cadence = "daily" then True
  else if cadence = "weekly" then (day + 6) % 7 = weekday
  else ∃ year month, day = ordinal year month (min dayOfMonth (monthLength year month))

/-- The clock shows an occurrence: the full hour of such a day. -/
def Occurs (cadence : String) (hour weekday dayOfMonth : Int) (w : WallTime) : Prop :=
  ∃ day, w = WallTime.onDay day hour w.fold ∧ OnDay cadence weekday dayOfMonth day

/-- A later reading of the clock. It is of the second showing only where the moment
is. -/
structure Later (moment w : WallTime) : Prop where
  stamp : moment.stamp < w.stamp
  fold : w.fold = true → moment.fold = true

theorem addDays_ok {w w' : WallTime} {days : Int} (h : addDays w days = .ok w') :
    w' = ⟨w.stamp + days * microsPerDay, false⟩ := by
  unfold addDays inCalendar at h
  split at h
  · exact (Except.ok.inj h).symm
  · contradiction

theorem addDays_onDay {day hour days : Int} {fold : Bool} {w' : WallTime}
    (h : addDays (WallTime.onDay day hour fold) days = .ok w') :
    w' = WallTime.onDay (day + days) hour false := by
  rw [addDays_ok h]
  simp only [WallTime.onDay, WallTime.mk.injEq, and_true]
  ring

/-- The hour lies within its day. -/
theorem stamp_atHour {moment : WallTime} {hour : Int} (hhour : 0 ≤ hour ∧ hour ≤ 23) :
    moment.stamp < (atHour moment hour).stamp + microsPerDay ∧
      (atHour moment hour).day = moment.day := by
  simp only [atHour, WallTime.onDay, WallTime.day, microsPerDay, microsPerHour]
  omega

theorem daily_ok {moment w : WallTime} {hour : Int} (hhour : 0 ≤ hour ∧ hour ≤ 23)
    (h : daily moment hour = .ok w) :
    Later moment w ∧ ∃ day, w = WallTime.onDay day hour w.fold := by
  have hwithin := (stamp_atHour hhour : moment.stamp < _ ∧ _).1
  unfold daily at h
  dsimp only at h
  split at h
  · have hw := addDays_onDay h
    have hstamp := addDays_ok h
    rw [hstamp]
    refine ⟨⟨?_, Bool.noConfusion⟩, moment.day + 1, ?_⟩
    · change moment.stamp < (atHour moment hour).stamp + 1 * microsPerDay
      omega
    · rw [← hstamp, hw]
      rfl
  · rename_i hlater
    obtain rfl := Except.ok.inj h
    exact ⟨⟨by omega, id⟩, moment.day, rfl⟩

theorem weekly_ok {moment w : WallTime} {hour weekday : Int} (hhour : 0 ≤ hour ∧ hour ≤ 23)
    (h : weekly moment hour weekday = .ok w) :
    Later moment w ∧ ∃ day, w = WallTime.onDay day hour w.fold ∧ (day + 6) % 7 = weekday := by
  have hwithin := (stamp_atHour hhour : moment.stamp < _ ∧ _).1
  unfold weekly at h
  split at h
  · rename_i hrange
    split at h
    · contradiction
    · rename_i candidate hcandidate
      have hfirst := addDays_onDay hcandidate
      have hstamp := addDays_ok hcandidate
      have hahead : 0 ≤ (weekday - moment.weekday) % 7 := Int.emod_nonneg _ (by decide)
      have hday : (moment.day + (weekday - moment.weekday) % 7 + 6) % 7 = weekday := by
        unfold WallTime.weekday
        omega
      split at h
      · rw [hfirst] at h
        have hsecond := addDays_onDay h
        refine ⟨⟨?_, ?_⟩, moment.day + (weekday - moment.weekday) % 7 + 7, ?_, ?_⟩
        · rw [hsecond]
          simp only [WallTime.onDay, atHour, microsPerDay, microsPerHour] at hwithin ⊢
          omega
        · rw [hsecond]
          exact Bool.noConfusion
        · rw [hsecond]
          rfl
        · omega
      · rename_i hlater
        obtain rfl := Except.ok.inj h
        refine ⟨⟨by omega, ?_⟩, moment.day + (weekday - moment.weekday) % 7, ?_, hday⟩
        · rw [hfirst]
          exact Bool.noConfusion
        · rw [hfirst]
          rfl
  · contradiction

/-- By induction on the rounds of the loop. -/
theorem monthlyFrom_ok {moment w : WallTime} {hour dayOfMonth : Int} {rounds : Nat}
    {year : Int} {month : Nat} (h : monthlyFrom moment hour dayOfMonth rounds year month = .ok w) :
    Later moment w ∧ ∃ day, w = WallTime.onDay day hour w.fold ∧
      ∃ year month, day = ordinal year month (min dayOfMonth (monthLength year month)) := by
  induction rounds generalizing year month with
  | zero => contradiction
  | succ rounds ih =>
      unfold monthlyFrom at h
      dsimp only at h
      split at h
      · split at h
        · rename_i hlater
          obtain rfl := Except.ok.inj h
          exact ⟨⟨hlater, id⟩, _, rfl, year, month, rfl⟩
        · split at h
          · exact ih h
          · exact ih h
      · contradiction

/-- What is found is an occurrence, and later than the moment on the same clock. -/
theorem candidateAfter_ok {cadence : String} {hour weekday dayOfMonth : Int} {moment w : WallTime}
    (hhour : 0 ≤ hour ∧ hour ≤ 23)
    (h : candidateAfter cadence hour weekday dayOfMonth moment = .ok w) :
    Later moment w ∧ Occurs cadence hour weekday dayOfMonth w := by
  unfold candidateAfter at h
  unfold Occurs OnDay
  split at h
  · rename_i hdaily
    obtain ⟨hlater, day, hw⟩ := daily_ok hhour h
    exact ⟨hlater, day, hw, by rw [if_pos hdaily]; trivial⟩
  · rename_i hdaily
    split at h
    · rename_i hweekly
      obtain ⟨hlater, day, hw, hday⟩ := weekly_ok hhour h
      exact ⟨hlater, day, hw, by rw [if_neg hdaily, if_pos hweekly]; exact hday⟩
    · rename_i hweekly
      unfold monthly at h
      split at h
      · obtain ⟨hlater, day, hw, hday⟩ := monthlyFrom_ok h
        exact ⟨hlater, day, hw, by rw [if_neg hdaily, if_neg hweekly]; exact hday⟩
      · contradiction

theorem inCalendar_ok {stamp t : Int} (h : inCalendar stamp = .ok t) : t = stamp := by
  unfold inCalendar at h
  split at h
  · exact (Except.ok.inj h).symm
  · contradiction

/-- Where a schedule is pointed is the next occurrence its own clock will show. -/
theorem nextRun_ok {host : Host} {cadence : String} {hour weekday dayOfMonth after t : Int}
    {tz : String} (h : nextRun host cadence hour weekday dayOfMonth tz after = .ok t) :
    ∃ localZone w, zone host tz = .ok localZone ∧ Later (localZone.reading after) w ∧
      Occurs cadence hour weekday dayOfMonth w ∧ t = localZone.instant w := by
  unfold nextRun at h
  split at h
  · contradiction
  · split at h
    · contradiction
    · rename_i hhour
      simp only [bind, Except.bind] at h
      split at h
      · contradiction
      · rename_i localZone hzone
        split at h
        · contradiction
        · rename_i moment hmoment
          split at h
          · contradiction
          · rename_i w hw
            have hmoment : moment = localZone.reading after := by
              unfold toLocal inCalendar at hmoment
              split at hmoment
              · exact (Except.ok.inj hmoment).symm
              · contradiction
            obtain ⟨hlater, hoccurs⟩ := candidateAfter_ok (not_not.mp hhour) hw
            exact ⟨localZone, w, hzone, hmoment ▸ hlater, hoccurs, inCalendar_ok h⟩

/-- In a zone whose clocks never change the next run is later than the moment. -/
theorem lt_nextRun_of_constant {host : Host} {cadence : String}
    {hour weekday dayOfMonth after t offset : Int} {tz : String}
    (hzone : zone host tz = .ok (Zone.constant offset))
    (h : nextRun host cadence hour weekday dayOfMonth tz after = .ok t) : after < t := by
  obtain ⟨localZone, w, hfound, hlater, -, rfl⟩ := nextRun_ok h
  obtain rfl := Except.ok.inj (hzone.symm.trans hfound)
  have hstamp := hlater.stamp
  rw [Zone.reading_constant] at hstamp
  rw [Zone.instant_constant]
  dsimp only at hstamp
  omega

end SeoPlatform.Orchestrator.Occurrences
