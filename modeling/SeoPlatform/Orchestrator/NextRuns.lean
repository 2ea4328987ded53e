import Mathlib.Order.Bounds.Basic
import SeoPlatform.Foundation.Calendar
import SeoPlatform.Foundation.ClockChanges
import SeoPlatform.Orchestrator.Occurrences

namespace SeoPlatform.Orchestrator.NextRuns

open SeoPlatform.Foundation.Calendar
open SeoPlatform.Foundation.CivilTime
open SeoPlatform.Foundation.ClockChanges
open SeoPlatform.Orchestrator.Occurrences
open SeoPlatform.Orchestrator.Schedules

/-- The cadence names the day. A month that is too short for the day of the month
has its last day named. -/
def Named (cadence : String) (weekday dayOfMonth day : Int) : Prop :=
  if cadence = "daily" then True
  else if cadence = "weekly" then (day + 6) % 7 = weekday
  else
    (ofOrdinal day).2.2 =
      min dayOfMonth (monthLength (ofOrdinal day).1 (ofOrdinal day).2.1)

/-- What the clock shows is the full hour of a day the cadence names. -/
def Matches (cadence : String) (hour weekday dayOfMonth stamp : Int) : Prop :=
  stamp % microsPerDay = hour * microsPerHour ∧
    Named cadence weekday dayOfMonth (stamp / microsPerDay)

/-- What the clock has still to show after it has shown something else. -/
def upcoming (cadence : String) (hour weekday dayOfMonth shown : Int) : Set Int :=
  {stamp | shown < stamp ∧ Matches cadence hour weekday dayOfMonth stamp}

/-- A stamp that a date and time can have. -/
def InCalendar (stamp : Int) : Prop :=
  microsPerDay ≤ stamp ∧ stamp < (maxOrdinal + 1) * microsPerDay

instance (stamp : Int) : Decidable (InCalendar stamp) :=
  inferInstanceAs (Decidable (_ ∧ _))

theorem inCalendar_eq (stamp : Int) :
    inCalendar stamp = if InCalendar stamp then .ok stamp
      else .error (.other (.library "OverflowError" "date value out of range")) := rfl

/-- What is found where the occurrence to be found is known: it, or the error of a
calendar that ends before it. -/
def Finds (stamp : Int) (fold : Bool) (found : Except TimingError WallTime) : Prop :=
  ∃ e, found = if InCalendar stamp then .ok ⟨stamp, fold⟩ else .error (.other e)

theorem finds_of_inCalendar {stamp : Int} {fold : Bool} {found : Except TimingError WallTime}
    (h : InCalendar stamp) (hfound : found = .ok ⟨stamp, fold⟩) : Finds stamp fold found :=
  ⟨.valueError "", by rw [if_pos h]; exact hfound⟩

theorem addDays_finds (w : WallTime) (days : Int) :
    Finds (w.stamp + days * microsPerDay) false (addDays w days) := by
  refine ⟨.library "OverflowError" "date value out of range", ?_⟩
  unfold addDays inCalendar
  rw [apply_ite (Except.map _)]
  rfl

/-- The stamp of a full hour. -/
def stampOf (day hour : Int) : Int := day * microsPerDay + hour * microsPerHour

theorem stamp_onDay (day hour : Int) (fold : Bool) :
    (WallTime.onDay day hour fold).stamp = stampOf day hour := rfl

theorem addDays_onDay_finds (day hour days : Int) (fold : Bool) :
    Finds (stampOf (day + days) hour) false (addDays (WallTime.onDay day hour fold) days) := by
  have hstamp : (WallTime.onDay day hour fold).stamp + days * microsPerDay =
      stampOf (day + days) hour := by
    rw [stamp_onDay]
    unfold stampOf
    ring
  exact hstamp ▸ addDays_finds _ days

/-- The days of the calendar. -/
theorem day_of_inCalendar {w : WallTime} (h : InCalendar w.stamp) :
    1 ≤ w.day ∧ w.day ≤ maxOrdinal := by
  unfold InCalendar microsPerDay at h
  unfold WallTime.day microsPerDay
  omega

section Days

variable {hour : Int} (hhour : 0 ≤ hour ∧ hour ≤ 23)
include hhour

theorem stampOf_day (day : Int) : stampOf day hour / microsPerDay = day := by
  unfold stampOf microsPerDay microsPerHour
  omega

theorem stampOf_hour (day : Int) : stampOf day hour % microsPerDay = hour * microsPerHour := by
  unfold stampOf microsPerDay microsPerHour
  omega

theorem inCalendar_stampOf {day : Int} :
    InCalendar (stampOf day hour) ↔ 1 ≤ day ∧ day ≤ maxOrdinal := by
  unfold InCalendar stampOf microsPerDay microsPerHour maxOrdinal
  omega

/-- The hour of a later day has still to be shown, that of an earlier one has been. -/
theorem lt_stampOf_of_day_lt {day shown : Int} (h : shown / microsPerDay < day) :
    shown < stampOf day hour := by
  unfold stampOf microsPerDay microsPerHour at *
  omega

theorem day_le_of_lt_stampOf {day shown : Int} (h : shown < stampOf day hour) :
    shown / microsPerDay ≤ day := by
  unfold stampOf microsPerDay microsPerHour at *
  omega

/-- The least reading to come, by the first day on which there is one. -/
theorem isLeast_upcoming {cadence : String} {weekday dayOfMonth shown day : Int}
    (hlater : shown < stampOf day hour) (hnamed : Named cadence weekday dayOfMonth day)
    (hfirst : ∀ day', Named cadence weekday dayOfMonth day' → shown < stampOf day' hour →
      day ≤ day') :
    IsLeast (upcoming cadence hour weekday dayOfMonth shown) (stampOf day hour) := by
  refine ⟨⟨hlater, stampOf_hour hhour day, ?_⟩, ?_⟩
  · rw [stampOf_day hhour]
    exact hnamed
  · rintro stamp ⟨hafter, hhourOf, hnamed'⟩
    have hstamp : stamp = stampOf (stamp / microsPerDay) hour := by
      unfold stampOf
      rw [← hhourOf, Int.mul_comm]
      exact (Int.mul_ediv_add_emod stamp microsPerDay).symm
    have hday := hfirst _ hnamed' (hstamp ▸ hafter)
    rw [hstamp]
    unfold stampOf microsPerDay
    unfold microsPerDay at hday
    omega

end Days

section Daily

variable {moment : WallTime} {hour : Int}

theorem named_daily (weekday dayOfMonth day : Int) : Named "daily" weekday dayOfMonth day := by
  unfold Named
  rw [if_pos rfl]
  trivial

/-- On the moment's own day the showing of the hour that is found is that of the
moment. -/
theorem daily_spec (hhour : 0 ≤ hour ∧ hour ≤ 23) (hmoment : InCalendar moment.stamp)
    (weekday dayOfMonth : Int) :
    ∃ stamp, IsLeast (upcoming "daily" hour weekday dayOfMonth moment.stamp) stamp ∧
      Finds stamp (moment.fold && decide (stamp / microsPerDay = moment.day))
        (daily moment hour) := by
  unfold daily atHour
  dsimp only
  rw [stamp_onDay]
  split
  · rename_i hearlier
    refine ⟨stampOf (moment.day + 1) hour,
      isLeast_upcoming hhour (lt_stampOf_of_day_lt hhour ?_) (named_daily _ _ _) ?_, ?_⟩
    · exact Int.lt_succ _
    · intro day _ hlater
      have hday := day_le_of_lt_stampOf hhour hlater
      have hne : day ≠ moment.day := fun h => absurd (h ▸ hlater) (not_lt.mpr hearlier)
      unfold WallTime.day at hne ⊢
      omega
    · rw [stampOf_day hhour, decide_eq_false (by omega), Bool.and_false]
      exact addDays_onDay_finds _ _ 1 _
  · rename_i hlater
    refine ⟨stampOf moment.day hour,
      isLeast_upcoming hhour (not_le.mp hlater) (named_daily _ _ _) ?_, ?_⟩
    · intro day _ hafter
      exact day_le_of_lt_stampOf hhour hafter
    · rw [stampOf_day hhour, decide_eq_true rfl, Bool.and_true]
      exact finds_of_inCalendar ((inCalendar_stampOf hhour).mpr (day_of_inCalendar hmoment)) rfl

end Daily

section Weekly

variable {moment : WallTime} {hour weekday : Int}

theorem named_weekly (weekday dayOfMonth day : Int) :
    Named "weekly" weekday dayOfMonth day ↔ (day + 6) % 7 = weekday := by
  unfold Named
  rw [if_neg (by decide), if_pos rfl]

theorem weekly_spec (hhour : 0 ≤ hour ∧ hour ≤ 23) (hmoment : InCalendar moment.stamp)
    (hweekday : 0 ≤ weekday ∧ weekday ≤ 6) (dayOfMonth : Int) :
    ∃ stamp, IsLeast (upcoming "weekly" hour weekday dayOfMonth moment.stamp) stamp ∧
      Finds stamp false (weekly moment hour weekday) := by
  have htodayIn := day_of_inCalendar hmoment
  obtain ⟨ahead, hahead⟩ : ∃ ahead, ahead = (weekday - moment.weekday) % 7 := ⟨_, rfl⟩
  have hnamed : (moment.day + ahead + 6) % 7 = weekday := by
    unfold WallTime.weekday at hahead
    omega
  obtain ⟨e, hfirst⟩ := addDays_onDay_finds moment.day hour ahead moment.fold
  unfold weekly atHour
  rw [if_pos hweekday, ← hahead, hfirst]
  by_cases hearlier : stampOf (moment.day + ahead) hour ≤ moment.stamp
  · -- only on the moment's own day can the hour have gone by
    have htoday : ahead = 0 := by
      have hnot := mt (lt_stampOf_of_day_lt hhour) (not_lt.mpr hearlier)
      unfold WallTime.day at hnot
      omega
    subst htoday
    rw [Int.add_zero] at hearlier hnamed ⊢
    refine ⟨stampOf (moment.day + 7) hour,
      isLeast_upcoming hhour (lt_stampOf_of_day_lt hhour ?_) ((named_weekly _ _ _).mpr ?_) ?_, ?_⟩
    · unfold WallTime.day
      omega
    · omega
    · intro day hday hlater
      rw [named_weekly] at hday
      have hle := day_le_of_lt_stampOf hhour hlater
      have hne : day ≠ moment.day := fun h => absurd (h ▸ hlater) (not_lt.mpr hearlier)
      unfold WallTime.day at *
      omega
    · rw [if_pos ((inCalendar_stampOf hhour).mpr htodayIn)]
      dsimp only
      rw [if_pos hearlier]
      exact addDays_onDay_finds moment.day hour 7 false
  · refine ⟨stampOf (moment.day + ahead) hour,
      isLeast_upcoming hhour (not_le.mp hearlier) ((named_weekly _ _ _).mpr hnamed) ?_, e, ?_⟩
    · intro day hday hlater
      rw [named_weekly] at hday
      have hle := day_le_of_lt_stampOf hhour hlater
      unfold WallTime.weekday WallTime.day at *
      omega
    · rcases em (InCalendar (stampOf (moment.day + ahead) hour)) with hin | hin
      · rw [if_pos hin]
        exact if_neg hearlier
      · rw [if_neg hin]

end Weekly

section Monthly

/-- The day of a month that a schedule is for. -/
def dayIn (dayOfMonth year : Int) (month : Nat) : Int :=
  ordinal year month (min dayOfMonth (monthLength year month))

theorem isDate_dayIn {dayOfMonth year : Int} {month : Nat} (hday : 1 ≤ dayOfMonth)
    (hmonth : 1 ≤ month ∧ month ≤ 12) :
    IsDate year month (min dayOfMonth (monthLength year month)) := by
  have hlength := monthLength_bounds year hmonth
  exact ⟨hmonth, by omega, by omega⟩

theorem named_dayIn {dayOfMonth year : Int} {month : Nat} (hday : 1 ≤ dayOfMonth)
    (hmonth : 1 ≤ month ∧ month ≤ 12) (weekday : Int) :
    Named "monthly" weekday dayOfMonth (dayIn dayOfMonth year month) := by
  unfold Named dayIn
  rw [if_neg (by decide), if_neg (by decide), ofOrdinal_ordinal (isDate_dayIn hday hmonth)]

/-- The days a monthly cadence names, each by its month. -/
theorem eq_dayIn_of_named {weekday dayOfMonth day : Int}
    (h : Named "monthly" weekday dayOfMonth day) :
    ∃ year month, (1 ≤ month ∧ month ≤ 12) ∧ day = dayIn dayOfMonth year month ∧
      IsDate year month (min dayOfMonth (monthLength year month)) := by
  obtain ⟨year, month, dayOf, hof, hdate, hordinal⟩ := ofOrdinal_spec day
  unfold Named at h
  rw [if_neg (by decide), if_neg (by decide), hof] at h
  dsimp only at h
  subst h
  exact ⟨year, month, hdate.ofYear, hordinal.symm, hdate⟩

/-- The month after a month. -/
def nextMonth (year : Int) (month : Nat) : Int × Nat :=
  if month = 12 then (year + 1, 1) else (year, month + 1)

/-- Months in their order. -/
def Earlier (year : Int) (month : Nat) (year' : Int) (month' : Nat) : Prop :=
  year < year' ∨ year = year' ∧ month < month'

theorem nextMonth_spec {year : Int} {month : Nat} (hmonth : 1 ≤ month ∧ month ≤ 12) :
    (1 ≤ (nextMonth year month).2 ∧ (nextMonth year month).2 ≤ 12) ∧
      Earlier year month (nextMonth year month).1 (nextMonth year month).2 ∧
      ∀ year' month', 1 ≤ month' ∧ month' ≤ 12 → Earlier year month year' month' →
        (nextMonth year month).1 = year' ∧ (nextMonth year month).2 = month' ∨
          Earlier (nextMonth year month).1 (nextMonth year month).2 year' month' := by
  unfold nextMonth Earlier
  split
  · refine ⟨by omega, by omega, fun year' month' _ _ => by dsimp only; omega⟩
  · refine ⟨by omega, by omega, fun year' month' _ _ => by dsimp only; omega⟩

/-- Months are ordered. -/
theorem earlier_trichotomy (year : Int) (month : Nat) (year' : Int) (month' : Nat) :
    Earlier year month year' month' ∨ (year = year' ∧ month = month') ∨
      Earlier year' month' year month := by
  unfold Earlier
  omega

section Rounds

variable {moment : WallTime} {hour dayOfMonth year : Int} {month : Nat}

/-- A round of the loop that finds the month's day still to come. -/
theorem monthlyFrom_later (hhour : 0 ≤ hour ∧ hour ≤ 23) (hday : 1 ≤ dayOfMonth)
    (hmonth : 1 ≤ month ∧ month ≤ 12) (rounds : Nat)
    (hlater : moment.stamp < stampOf (dayIn dayOfMonth year month) hour) :
    Finds (stampOf (dayIn dayOfMonth year month) hour) moment.fold
      (monthlyFrom moment hour dayOfMonth (rounds + 1) year month) := by
  have hin : InCalendar (stampOf (dayIn dayOfMonth year month) hour) ↔ 1 ≤ year ∧ year ≤ 9999 :=
    (inCalendar_stampOf hhour).trans (ordinal_within (isDate_dayIn hday hmonth))
  refine ⟨.valueError ("year " ++ toString year ++ " is out of range"), ?_⟩
  unfold monthlyFrom
  rw [if_congr hin rfl rfl]
  split
  · exact if_pos hlater
  · rfl

/-- A round that finds it gone by. -/
theorem monthlyFrom_gone (hyear : 1 ≤ year ∧ year ≤ 9999) (rounds : Nat)
    (hgone : ¬ moment.stamp < stampOf (dayIn dayOfMonth year month) hour) :
    monthlyFrom moment hour dayOfMonth (rounds + 1) year month =
      monthlyFrom moment hour dayOfMonth rounds (nextMonth year month).1
        (nextMonth year month).2 := by
  conv_lhs => unfold monthlyFrom
  rw [if_pos hyear]
  refine (if_neg hgone).trans ?_
  unfold nextMonth
  split <;> rfl

/-- The day of the first month that has it still to come is the least. -/
theorem isLeast_of_month (hhour : 0 ≤ hour ∧ hour ≤ 23) (hday : 1 ≤ dayOfMonth)
    (hmonth : 1 ≤ month ∧ month ≤ 12) (weekday : Int)
    (hearlier : ∀ year' month', 1 ≤ month' ∧ month' ≤ 12 → Earlier year' month' year month →
      ¬ moment.stamp < stampOf (dayIn dayOfMonth year' month') hour)
    (hlater : moment.stamp < stampOf (dayIn dayOfMonth year month) hour) :
    IsLeast (upcoming "monthly" hour weekday dayOfMonth moment.stamp)
      (stampOf (dayIn dayOfMonth year month) hour) := by
  refine isLeast_upcoming hhour hlater (named_dayIn hday hmonth weekday) ?_
  intro day hnamed hafter
  obtain ⟨year', month', hmonth', rfl, hdate'⟩ := eq_dayIn_of_named hnamed
  rcases earlier_trichotomy year' month' year month with h | ⟨rfl, rfl⟩ | h
  · exact absurd hafter (hearlier year' month' hmonth' h)
  · exact le_rfl
  · exact le_of_lt (ordinal_lt (isDate_dayIn hday hmonth) hdate' h)

/-- The loop needs no third round: a month after the moment's own has its day still
to come. -/
theorem monthly_spec (hhour : 0 ≤ hour ∧ hour ≤ 23) (hmoment : InCalendar moment.stamp)
    (hday : 1 ≤ dayOfMonth ∧ dayOfMonth ≤ 31) (weekday : Int) :
    ∃ stamp, IsLeast (upcoming "monthly" hour weekday dayOfMonth moment.stamp) stamp ∧
      Finds stamp moment.fold (monthly moment hour dayOfMonth) := by
  obtain ⟨year, month, dayOf, hof, hdate, hordinal⟩ := ofOrdinal_spec moment.day
  have hyearOf : moment.year = year := congrArg Prod.fst hof
  have hmonthOf : moment.month = month := congrArg (fun date => date.2.1) hof
  have hyear : 1 ≤ year ∧ year ≤ 9999 := by
    rw [← ordinal_within hdate, hordinal]
    exact day_of_inCalendar hmoment
  have hbefore : ∀ year' month', 1 ≤ month' ∧ month' ≤ 12 → Earlier year' month' year month →
      ¬ moment.stamp < stampOf (dayIn dayOfMonth year' month') hour := by
    intro year' month' hmonth' hearlier hafter
    have hlt := ordinal_lt (isDate_dayIn hday.1 hmonth') hdate hearlier
    have hle := day_le_of_lt_stampOf hhour hafter
    rw [hordinal] at hlt
    exact absurd hlt (not_lt.mpr hle)
  unfold monthly
  rw [if_pos hday, hyearOf, hmonthOf]
  by_cases hlater : moment.stamp < stampOf (dayIn dayOfMonth year month) hour
  · exact ⟨_, isLeast_of_month hhour hday.1 hdate.ofYear weekday hbefore hlater,
      monthlyFrom_later hhour hday.1 hdate.ofYear 1 hlater⟩
  · obtain ⟨hmonth', hnext, hfollows⟩ := @nextMonth_spec year month hdate.ofYear
    have hlater' : moment.stamp <
        stampOf (dayIn dayOfMonth (nextMonth year month).1 (nextMonth year month).2) hour := by
      apply lt_stampOf_of_day_lt hhour
      have hlt := ordinal_lt hdate (isDate_dayIn hday.1 hmonth') hnext
      rw [hordinal] at hlt
      exact hlt
    rw [monthlyFrom_gone hyear 1 hlater]
    refine ⟨_, isLeast_of_month hhour hday.1 hmonth' weekday ?_ hlater',
      monthlyFrom_later hhour hday.1 hmonth' 0 hlater'⟩
    intro year' month' hmonthIn hearlier
    rcases earlier_trichotomy year' month' year month with h | ⟨rfl, rfl⟩ | h
    · exact hbefore year' month' hmonthIn h
    · exact hlater
    · have hfollow := hfollows year' month' hmonthIn h
      unfold Earlier at hfollow hearlier
      omega

end Rounds

end Monthly

section Occurrence

/-- Whether what is found is taken for the second showing of its hour. -/
def foldFound (cadence : String) (moment : WallTime) (stamp : Int) : Bool :=
  moment.fold &&
    (if cadence = "daily" then decide (stamp / microsPerDay = moment.day)
    else decide (cadence ≠ "weekly"))

/-- What is checked of a timing. A weekday is for weekly runs and a day of the month
for monthly ones. -/
structure Usable (cadence : String) (hour weekday dayOfMonth : Int) : Prop where
  known : cadence ∈ cadences
  inDay : 0 ≤ hour ∧ hour ≤ 23
  inWeek : cadence = "weekly" → 0 ≤ weekday ∧ weekday ≤ 6
  inMonth : cadence = "monthly" → 1 ≤ dayOfMonth ∧ dayOfMonth ≤ 31

/-- The occurrence that is looked for is the least one to come, whatever its day. -/
theorem candidateAfter_spec {cadence : String} {hour weekday dayOfMonth : Int}
    (hvalid : Usable cadence hour weekday dayOfMonth) {moment : WallTime}
    (hmoment : InCalendar moment.stamp) :
    ∃ stamp, IsLeast (upcoming cadence hour weekday dayOfMonth moment.stamp) stamp ∧
      Finds stamp (foldFound cadence moment stamp)
        (candidateAfter cadence hour weekday dayOfMonth moment) := by
  have hcadence := hvalid.known
  simp only [cadences, List.mem_cons, List.not_mem_nil, or_false] at hcadence
  unfold candidateAfter foldFound
  rcases hcadence with rfl | rfl | rfl
  · obtain ⟨stamp, hleast, hfinds⟩ := daily_spec hvalid.inDay hmoment weekday dayOfMonth
    exact ⟨stamp, hleast, by simpa using hfinds⟩
  · obtain ⟨stamp, hleast, hfinds⟩ :=
      weekly_spec hvalid.inDay hmoment (hvalid.inWeek rfl) dayOfMonth
    exact ⟨stamp, hleast, by simpa using hfinds⟩
  · obtain ⟨stamp, hleast, hfinds⟩ :=
      monthly_spec hvalid.inDay hmoment (hvalid.inMonth rfl) weekday
    exact ⟨stamp, hleast, by simpa using hfinds⟩

/-- A timing that has a next run is one that was checked, at a moment of the calendar. -/
theorem usable_of_nextRun {host : Host} {cadence : String} {hour weekday dayOfMonth : Int}
    {tz : String} {localZone : Zone} {after t : Int} (hzone : zone host tz = .ok localZone)
    (h : nextRun host cadence hour weekday dayOfMonth tz after = .ok t) :
    Usable cadence hour weekday dayOfMonth ∧ InCalendar (localZone.reading after).stamp := by
  unfold nextRun at h
  split at h
  · cases h
  · rename_i hcadence
    split at h
    · cases h
    · rename_i hhour
      rw [hzone] at h
      simp only [bind, Except.bind] at h
      split at h
      · cases h
      · rename_i moment hmoment
        split at h
        · cases h
        · rename_i candidate hcandidate
          refine ⟨⟨not_not.mp hcadence, not_not.mp hhour, ?_, ?_⟩, ?_⟩
          · rintro rfl
            by_contra hweekday
            unfold candidateAfter weekly at hcandidate
            rw [if_neg (by decide), if_pos rfl, if_neg hweekday] at hcandidate
            cases hcandidate
          · rintro rfl
            by_contra hday
            unfold candidateAfter monthly at hcandidate
            rw [if_neg (by decide), if_neg (by decide), if_neg hday] at hcandidate
            cases hcandidate
          · by_contra hout
            unfold toLocal at hmoment
            rw [inCalendar_eq, if_neg hout] at hmoment
            cases hmoment

/-- The next run, where the zone and the moment are ones of the calendar. -/
theorem nextRun_spec {host : Host} {cadence : String} {hour weekday dayOfMonth : Int}
    {tz : String} {localZone : Zone} {after : Int} (hzone : zone host tz = .ok localZone)
    (hvalid : Usable cadence hour weekday dayOfMonth)
    (hmoment : InCalendar (localZone.reading after).stamp) :
    ∃ stamp,
      IsLeast (upcoming cadence hour weekday dayOfMonth (localZone.reading after).stamp) stamp ∧
      ∃ e, nextRun host cadence hour weekday dayOfMonth tz after =
        if InCalendar stamp ∧
            InCalendar (localZone.instant
              ⟨stamp, foldFound cadence (localZone.reading after) stamp⟩) then
          .ok (localZone.instant ⟨stamp, foldFound cadence (localZone.reading after) stamp⟩)
        else .error (.other e) := by
  obtain ⟨stamp, hleast, e, hfound⟩ := candidateAfter_spec hvalid hmoment
  refine ⟨stamp, hleast, ?_⟩
  have hlocal : toLocal localZone after = .ok (localZone.reading after) := by
    unfold toLocal
    rw [inCalendar_eq, if_pos hmoment]
    rfl
  unfold nextRun
  rw [if_neg (not_not.mpr hvalid.known), if_neg (not_not.mpr hvalid.inDay), hzone]
  simp only [bind, Except.bind, hlocal, hfound]
  by_cases hin : InCalendar stamp
  · simp only [hin, true_and]
    exact ⟨_, inCalendar_eq _⟩
  · simp only [hin, false_and, if_false]
    exact ⟨e, rfl⟩

/-- In a zone whose clocks never change the next run is the next occurrence, unless
the calendar ends before it. -/
theorem nextRun_eq_least {host : Host} {cadence : String} {hour weekday dayOfMonth : Int}
    {tz : String} {offset after : Int} (hzone : zone host tz = .ok (Zone.constant offset))
    (hvalid : Usable cadence hour weekday dayOfMonth) (hafter : InCalendar (after + offset)) :
    (∀ t, nextRun host cadence hour weekday dayOfMonth tz after = .ok t ↔
      IsLeast (upcoming cadence hour weekday dayOfMonth (after + offset)) (t + offset) ∧
        InCalendar (t + offset) ∧ InCalendar t) ∧
    nextRun host cadence hour weekday dayOfMonth tz after ≠
      .error (.invalidSchedule "could not find a next monthly occurrence") := by
  obtain ⟨stamp, hleast, e, hrun⟩ := nextRun_spec hzone hvalid hafter
  rw [Zone.instant_constant] at hrun
  dsimp only at hrun
  rw [hrun]
  refine ⟨fun t => ⟨?_, ?_⟩, ?_⟩
  · intro h
    split at h
    · rename_i hin
      obtain rfl := Except.ok.inj h
      rw [Int.sub_add_cancel]
      exact ⟨hleast, hin⟩
    · cases h
  · rintro ⟨hleast', hin⟩
    obtain rfl : stamp = t + offset := hleast.unique hleast'
    rw [Int.add_sub_cancel, if_pos hin]
  · split
    · intro h
      cases h
    · intro h
      cases h

/-- The occurrence that is to come on the clock is one it has shown already, or, where
the moment is of a second showing, one it jumps over too soon. -/
def Overtaken (localZone : Zone) (cadence : String) (hour weekday dayOfMonth after : Int) : Prop :=
  ∃ stamp,
    IsLeast (upcoming cadence hour weekday dayOfMonth (localZone.reading after).stamp) stamp ∧
    (Repeated after ⟨stamp, foldFound cadence (localZone.reading after) stamp⟩ (shifts localZone) ∨
      Skipped after ⟨stamp, foldFound cadence (localZone.reading after) stamp⟩ (shifts localZone))

/-- Exactly then the next run is not later than the moment. -/
theorem lt_nextRun_iff {host : Host} {cadence : String} {hour weekday dayOfMonth : Int}
    {tz : String} {localZone : Zone} {after t : Int} (hzone : zone host tz = .ok localZone)
    (hrun : nextRun host cadence hour weekday dayOfMonth tz after = .ok t) :
    after < t ↔ ¬ Overtaken localZone cadence hour weekday dayOfMonth after := by
  obtain ⟨hvalid, hmoment⟩ := usable_of_nextRun hzone hrun
  obtain ⟨stamp, hleast, e, hrun'⟩ := nextRun_spec hzone hvalid hmoment
  obtain rfl : localZone.instant
      ⟨stamp, foldFound cadence (localZone.reading after) stamp⟩ = t := by
    rw [hrun] at hrun'
    split at hrun'
    · exact (Except.ok.inj hrun').symm
    · cases hrun'
  have hovertaken : Overtaken localZone cadence hour weekday dayOfMonth after ↔
      localZone.instant ⟨stamp, foldFound cadence (localZone.reading after) stamp⟩ ≤ after := by
    rw [instant_le_iff localZone hleast.1.1]
    constructor
    · rintro ⟨stamp', hleast', hchanges⟩
      obtain rfl := hleast.unique hleast'
      exact hchanges
    · exact fun hchanges => ⟨stamp, hleast, hchanges⟩
  rw [hovertaken, not_le]

/-- A machine that knows one zone. -/
def hostOf (known : String) (localZone : Zone) : Host where
  zoneInfo name := if name = known then .ok localZone else .error .notFound
  repr text := "'" ++ text ++ "'"

/-- From noon of 10 February 2024, the 31st of the month is its 29th. -/
theorem nextRun_eq_least_february :
    IsLeast (upcoming "monthly" 9 0 31 (stampOf 738926 12 + 0)) (stampOf 738945 9 + 0) :=
  (((@nextRun_eq_least (hostOf "UTC" (Zone.constant 0)) _ _ _ _ "UTC" _ _ rfl
    ⟨by decide, by decide, by decide, by decide⟩ (by decide)).1 _).mp (by decide +kernel)).1

/-- Newfoundland in the autumn of 2010, when its clocks went back from one minute past
midnight to one minute past eleven. -/
def newfoundland : Zone where
  first := -9000000000
  changes := [(stampOf 734083 2 + 1860000000, -12600000000)]
  increasing := List.pairwise_singleton _ _

/-- A quarter of an hour after midnight was shown there for the first time, the next
run at midnight is that midnight. -/
theorem nextRun_newfoundland :
    nextRun (hostOf "America/St_Johns" newfoundland) "daily" 0 0 1 "America/St_Johns"
        (stampOf 734083 2 + 2700000000) = .ok (stampOf 734083 2 + 1800000000) ∧
      ¬ stampOf 734083 2 + 2700000000 < stampOf 734083 2 + 1800000000 := by
  decide +kernel

/-- An hour and a quarter before it was shown. -/
theorem lt_nextRun_newfoundland :
    stampOf 734083 1 < stampOf 734083 2 + 1800000000 ↔
      ¬ Overtaken newfoundland "daily" 0 0 1 (stampOf 734083 1) :=
  @lt_nextRun_iff (hostOf "America/St_Johns" newfoundland) "daily" 0 0 1 "America/St_Johns"
    newfoundland (stampOf 734083 1) (stampOf 734083 2 + 1800000000) rfl (by decide +kernel)

end Occurrence

end SeoPlatform.Orchestrator.NextRuns
