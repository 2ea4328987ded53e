import SeoPlatform.Foundation.CivilTime

namespace SeoPlatform.Foundation.Calendar

open SeoPlatform.Foundation.CivilTime

/-- A date of the calendar. -/
structure IsDate (year : Int) (month : Nat) (day : Int) : Prop where
  ofYear : 1 ≤ month ∧ month ≤ 12
  ofMonth : 1 ≤ day ∧ day ≤ monthLength year month

theorem length_monthLengths (year : Int) : (monthLengths year).length = 12 := rfl

theorem sum_monthLengths (year : Int) :
    (monthLengths year).sum = if IsLeap year then 366 else 365 := by
  unfold monthLengths
  split <;> rfl

theorem daysBeforeYear_succ (year : Int) :
    daysBeforeYear (year + 1) = daysBeforeYear year + (monthLengths year).sum := by
  rw [sum_monthLengths]
  by_cases hleap : IsLeap year
  · rw [if_pos hleap]
    unfold IsLeap at hleap
    unfold daysBeforeYear
    omega
  · rw [if_neg hleap]
    unfold IsLeap at hleap
    unfold daysBeforeYear
    omega

theorem daysBeforeYear_mono {year year' : Int} (h : year ≤ year') :
    daysBeforeYear year ≤ daysBeforeYear year' := by
  unfold daysBeforeYear
  omega

section Months

/-- Where a day of a year falls, by recursion over the months. -/
theorem monthOf_spec (lengths : List Int) (month : Nat) {before : Int} (hbefore : 0 ≤ before)
    (h : before < lengths.sum) :
    ∃ k day, k < lengths.length ∧ monthOf lengths month before = (month + k, day) ∧
      1 ≤ day ∧ day ≤ (lengths[k]?).getD 0 ∧ before + 1 = (lengths.take k).sum + day := by
  induction lengths generalizing month before with
  | nil =>
      rw [List.sum_nil] at h
      omega
  | cons length rest ih =>
      unfold monthOf
      split
      · refine ⟨0, before + 1, ?_, rfl, by omega, ?_, ?_⟩
        · exact Nat.succ_pos _
        · rw [List.getElem?_cons_zero, Option.getD_some]
          omega
        · rw [List.take_zero, List.sum_nil]
          omega
      · rw [List.sum_cons] at h
        have hbelow : 0 ≤ before - length := by omega
        obtain ⟨k, day, hk, hmonth, hone, hday, hsum⟩ := ih (month + 1) hbelow (by omega)
        refine ⟨k + 1, day, Nat.succ_lt_succ hk, ?_, hone, ?_, ?_⟩
        · rw [hmonth, Nat.add_right_comm, Nat.add_assoc]
        · rw [List.getElem?_cons_succ]
          exact hday
        · rw [List.take_succ_cons, List.sum_cons]
          omega

theorem isDate_of_monthOf {year before : Int} (hbefore : 0 ≤ before)
    (h : before < (monthLengths year).sum) :
    ∃ month day, monthOf (monthLengths year) 1 before = (month, day) ∧ IsDate year month day ∧
      ordinal year month day = daysBeforeYear year + before + 1 := by
  obtain ⟨k, day, hk, hmonth, hone, hday, hsum⟩ := monthOf_spec (monthLengths year) 1 hbefore h
  rw [length_monthLengths] at hk
  refine ⟨1 + k, day, hmonth, ⟨by omega, hone, ?_⟩, ?_⟩
  · unfold monthLength
    rw [Nat.add_sub_cancel_left]
    exact hday
  · unfold ordinal
    rw [Nat.add_sub_cancel_left]
    omega

end Months

/-- The days before a year, by the cycles of leap years that have gone before it. -/
theorem daysBeforeYear_parts {of400 of100 of4 of1 : Int} (h100 : 0 ≤ of100 ∧ of100 ≤ 3)
    (h4 : 0 ≤ of4 ∧ of4 ≤ 24) (h1 : 0 ≤ of1 ∧ of1 ≤ 3) :
    daysBeforeYear (of400 * 400 + of100 * 100 + of4 * 4 + of1 + 1) =
      of400 * 146097 + of100 * 36524 + of4 * 1461 + of1 * 365 := by
  have hby4 : (of400 * 400 + of100 * 100 + of4 * 4 + of1 + 1 - 1) / 4 =
      of400 * 100 + of100 * 25 + of4 := by omega
  have hby100 : (of400 * 400 + of100 * 100 + of4 * 4 + of1 + 1 - 1) / 100 =
      of400 * 4 + of100 := by omega
  have hby400 : (of400 * 400 + of100 * 100 + of4 * 4 + of1 + 1 - 1) / 400 = of400 := by omega
  unfold daysBeforeYear
  rw [hby4, hby100, hby400]
  omega

/-- The date of a day is a date, and the day is that of the date. -/
theorem ofOrdinal_spec (n : Int) :
    ∃ year month day, ofOrdinal n = (year, month, day) ∧ IsDate year month day ∧
      ordinal year month day = n := by
  unfold ofOrdinal
  dsimp only
  generalize hof400 : (n - 1) / 146097 = of400
  generalize hin400 : (n - 1) % 146097 = in400
  generalize hof100 : in400 / 36524 = of100
  generalize hin100 : in400 % 36524 = in100
  generalize hof4 : in100 / 1461 = of4
  generalize hin4 : in100 % 1461 = in4
  generalize hof1 : in4 / 365 = of1
  have hdays : n - 1 = of400 * 146097 + of100 * 36524 + of4 * 1461 + in4 := by omega
  split
  · rename_i hlast
    -- the last day of a leap year falls out of the division
    obtain ⟨of100', of4', hyear, h100, h4⟩ : ∃ of100' of4' : Int,
        of400 * 400 + of100 * 100 + of4 * 4 + of1 + 1 - 1 =
          of400 * 400 + of100' * 100 + of4' * 4 + 3 + 1 ∧
        (0 ≤ of100' ∧ of100' ≤ 3) ∧ 0 ≤ of4' ∧ of4' ≤ 24 ∧ (of4' = 24 → of100' = 3) ∧
        n = of400 * 146097 + of100' * 36524 + of4' * 1461 + 3 * 365 + 366 := by
      rcases hlast with hlast | hlast
      · exact ⟨of100, of4, by omega, by omega, by omega⟩
      · exact ⟨3, 24, by omega, by omega, by omega⟩
    have hleap : IsLeap (of400 * 400 + of100' * 100 + of4' * 4 + 3 + 1) := by
      unfold IsLeap
      omega
    have hmonths : ((monthLengths (of400 * 400 + of100' * 100 + of4' * 4 + 3 + 1)).take
        (12 - 1)).sum = 335 := by
      unfold monthLengths
      rw [if_pos hleap]
      rfl
    rw [hyear]
    refine ⟨_, 12, 31, rfl, ⟨by omega, by decide, le_refl _⟩, ?_⟩
    unfold ordinal
    rw [hmonths, daysBeforeYear_parts h100 ⟨h4.1, h4.2.1⟩ (by decide)]
    omega
  · rename_i hlast
    have hbefore : 0 ≤ in4 % 365 := by omega
    have hwithin : in4 % 365 <
        (monthLengths (of400 * 400 + of100 * 100 + of4 * 4 + of1 + 1)).sum := by
      rw [sum_monthLengths]
      split <;> omega
    obtain ⟨month, day, hmonth, hdate, hordinal⟩ := isDate_of_monthOf hbefore hwithin
    refine ⟨_, month, day, by rw [hmonth], hdate, ?_⟩
    rw [hordinal, daysBeforeYear_parts (by omega) (by omega) (by omega)]
    omega

section Order

theorem take_monthLengths_succ (year : Int) {month : Nat} (h : 1 ≤ month ∧ month ≤ 12) :
    ((monthLengths year).take month).sum =
      ((monthLengths year).take (month - 1)).sum + monthLength year month := by
  obtain ⟨before, rfl⟩ := Nat.exists_eq_add_of_le' h.1
  rw [Nat.add_sub_cancel]
  have hlt : before < (monthLengths year).length := by
    rw [length_monthLengths]
    omega
  rw [List.take_add_one, List.sum_append]
  unfold monthLength
  rw [Nat.add_sub_cancel, List.getElem?_eq_getElem hlt]
  simp

/-- The months of a year lie one after the other. -/
theorem ordinal_nextMonth (year : Int) {month : Nat} (h : 1 ≤ month ∧ month ≤ 12) (day : Int) :
    ordinal year (month + 1) day = ordinal year month (monthLength year month + day) := by
  unfold ordinal
  rw [Nat.add_sub_cancel, take_monthLengths_succ year h]
  omega

/-- The years lie one after the other, which makes the first month of one the
thirteenth of the year before. -/
theorem ordinal_nextYear (year day : Int) : ordinal (year + 1) 1 day = ordinal year 13 day := by
  have htake : (monthLengths year).take 12 = monthLengths year :=
    List.take_of_length_le (le_of_eq (length_monthLengths year))
  unfold ordinal
  rw [daysBeforeYear_succ, Nat.sub_self, List.take_zero, List.sum_nil, htake]
  omega

theorem monthLength_mem (year : Int) {month : Nat} (h : 1 ≤ month ∧ month ≤ 12) :
    monthLength year month ∈ monthLengths year := by
  have hlt : month - 1 < (monthLengths year).length := by
    rw [length_monthLengths]
    omega
  unfold monthLength
  rw [List.getElem?_eq_getElem hlt, Option.getD_some]
  exact List.getElem_mem hlt

theorem monthLength_bounds (year : Int) {month : Nat} (h : 1 ≤ month ∧ month ≤ 12) :
    28 ≤ monthLength year month ∧ monthLength year month ≤ 31 := by
  have hmem := monthLength_mem year h
  unfold monthLengths at hmem
  simp only [List.mem_cons, List.not_mem_nil, or_false] at hmem
  split at hmem <;> omega

/-- A month begins after the earlier ones of its year have ended. -/
theorem monthStart_le (year : Int) {month month' : Nat} (hone : 1 ≤ month)
    (h : month < month') (htwelve : month' ≤ 13) :
    ordinal year month (monthLength year month) ≤ ordinal year month' 0 := by
  induction month', h using Nat.le_induction with
  | base =>
      have hnext := ordinal_nextMonth year ⟨hone, by omega⟩ 0
      rw [Int.add_zero] at hnext
      exact le_of_eq hnext.symm
  | succ month' hle ih =>
      have hbefore := ih (by omega)
      have hnext := @ordinal_nextMonth year month' ⟨by omega, by omega⟩ 0
      have hlength := @monthLength_bounds year month' ⟨by omega, by omega⟩
      unfold ordinal at hbefore hnext ⊢
      omega

/-- A year begins after the earlier ones have ended. -/
theorem yearStart_le {year year' : Int} (h : year < year') :
    ordinal year 13 0 ≤ ordinal year' 1 0 := by
  rw [← ordinal_nextYear]
  have hmono := daysBeforeYear_mono (Int.add_one_le_of_lt h)
  unfold ordinal
  rw [Nat.sub_self, List.take_zero, List.take_zero]
  omega

theorem ordinal_le_month {year : Int} {month : Nat} {day day' : Int} (h : day ≤ day') :
    ordinal year month day ≤ ordinal year month day' := by
  unfold ordinal
  omega

/-- A month ends before a later one begins. -/
theorem ordinal_lt {year year' : Int} {month month' : Nat} {day day' : Int}
    (hdate : IsDate year month day) (hdate' : IsDate year' month' day')
    (h : year < year' ∨ year = year' ∧ month < month') :
    ordinal year month day < ordinal year' month' day' := by
  have hend : ordinal year month day ≤ ordinal year month (monthLength year month) :=
    ordinal_le_month hdate.ofMonth.2
  have hbegin : ordinal year' month' 0 < ordinal year' month' day' := by
    have hone := hdate'.ofMonth.1
    unfold ordinal
    omega
  rcases h with hyear | ⟨rfl, hmonth⟩
  · have hyearEnd : ordinal year month (monthLength year month) ≤ ordinal year 13 0 :=
      monthStart_le year hdate.ofYear.1 (by have := hdate.ofYear.2; omega) le_rfl
    have hyearBegin : ordinal year' 1 0 ≤ ordinal year' month' 0 := by
      rcases Nat.eq_or_lt_of_le hdate'.ofYear.1 with hfirst | hlater
      · rw [hfirst]
      · have hfirstMonth := monthStart_le year' le_rfl hlater
          (by have := hdate'.ofYear.2; omega)
        have hlength := @monthLength_bounds year' 1 ⟨le_rfl, by decide⟩
        have hzero : ordinal year' 1 0 ≤ ordinal year' 1 (monthLength year' 1) :=
          ordinal_le_month (by omega)
        omega
    have hyears := yearStart_le hyear
    omega
  · have hmonths := monthStart_le year hdate.ofYear.1 hmonth
      (by have := hdate'.ofYear.2; omega)
    omega

/-- The days of the years 1 to 9999. -/
theorem ordinal_within {year : Int} {month : Nat} {day : Int} (hdate : IsDate year month day) :
    1 ≤ ordinal year month day ∧ ordinal year month day ≤ 3652059 ↔ 1 ≤ year ∧ year ≤ 9999 := by
  have hfirst : IsDate 1 1 1 := ⟨by decide, by decide⟩
  have hbeforeFirst : IsDate 0 12 31 := ⟨by decide, by decide⟩
  have hlast : IsDate 9999 12 31 := ⟨by decide, by decide⟩
  have hafterLast : IsDate 10000 1 1 := ⟨by decide, by decide⟩
  have hfirstOrdinal : ordinal 1 1 1 = 1 := by decide
  have hbeforeOrdinal : ordinal 0 12 31 = 0 := by decide
  have hlastOrdinal : ordinal 9999 12 31 = 3652059 := by decide
  have hafterOrdinal : ordinal 10000 1 1 = 3652060 := by decide
  constructor
  · rintro ⟨hone, hmax⟩
    refine ⟨?_, ?_⟩
    · by_contra hyear
      have hlt := ordinal_lt hdate hfirst (.inl (not_le.mp hyear))
      omega
    · by_contra hyear
      have hlt := ordinal_lt hlast hdate (.inl (not_le.mp hyear))
      omega
  · rintro ⟨hone, hmax⟩
    have hafter := ordinal_lt hbeforeFirst hdate (.inl (by omega))
    have hbefore := ordinal_lt hdate hafterLast (.inl (by omega))
    omega

/-- A day has one date. -/
theorem date_unique {year year' : Int} {month month' : Nat} {day day' : Int}
    (hdate : IsDate year month day) (hdate' : IsDate year' month' day')
    (h : ordinal year month day = ordinal year' month' day') :
    year = year' ∧ month = month' ∧ day = day' := by
  rcases lt_trichotomy year year' with hyear | rfl | hyear
  · exact absurd h (ne_of_lt (ordinal_lt hdate hdate' (.inl hyear)))
  · rcases lt_trichotomy month month' with hmonth | rfl | hmonth
    · exact absurd h (ne_of_lt (ordinal_lt hdate hdate' (.inr ⟨rfl, hmonth⟩)))
    · refine ⟨rfl, rfl, ?_⟩
      unfold ordinal at h
      omega
    · exact absurd h.symm (ne_of_lt (ordinal_lt hdate' hdate (.inr ⟨rfl, hmonth⟩)))
  · exact absurd h.symm (ne_of_lt (ordinal_lt hdate' hdate (.inl hyear)))

theorem ofOrdinal_ordinal {year : Int} {month : Nat} {day : Int} (hdate : IsDate year month day) :
    ofOrdinal (ordinal year month day) = (year, month, day) := by
  obtain ⟨year', month', day', hof, hdate', hordinal⟩ := ofOrdinal_spec (ordinal year month day)
  obtain ⟨rfl, rfl, rfl⟩ := date_unique hdate' hdate hordinal
  exact hof

end Order

end SeoPlatform.Foundation.Calendar
