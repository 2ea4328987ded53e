import Mathlib.Algebra.Order.Ring.Int
import Mathlib.Data.List.Pairwise

namespace SeoPlatform.Foundation.CivilTime

/-- Moments and readings of a clock are microseconds. Day `n` of the proleptic
Gregorian calendar, in which day 1 is the first of January of year 1, starts at
`n` days. -/
def microsPerHour : Int := 3600000000

def microsPerDay : Int := 86400000000

def IsLeap (year : Int) : Prop := year % 4 = 0 ∧ (year % 100 ≠ 0 ∨ year % 400 = 0)

instance : DecidablePred IsLeap := fun year =>
  inferInstanceAs (Decidable (year % 4 = 0 ∧ (year % 100 ≠ 0 ∨ year % 400 = 0)))

def monthLengths (year : Int) : List Int :=
  [31, if IsLeap year then 29 else 28, 31, 30, 31, 30, 31, 31, 30, 31, 30, 31]

/-- Months count from one. -/
def monthLength (year : Int) (month : Nat) : Int := ((monthLengths year)[month - 1]?).getD 0

def daysBeforeYear (year : Int) : Int :=
  (year - 1) * 365 + (year - 1) / 4 - (year - 1) / 100 + (year - 1) / 400

def ordinal (year : Int) (month : Nat) (day : Int) : Int :=
  daysBeforeYear year + ((monthLengths year).take (month - 1)).sum + day

/-- The month and the day in it, by the days that have gone before in the year. -/
def monthOf : List Int → Nat → Int → Nat × Int
  | [], month, before => (month, before + 1)
  | length :: rest, month, before =>
      if before < length then (month, before + 1) else monthOf rest (month + 1) (before - length)

/-- The year, the month and the day of an ordinal. -/
def ofOrdinal (n : Int) : Int × Nat × Int :=
  let of400 := (n - 1) / 146097
  let in400 := (n - 1) % 146097
  let of100 := in400 / 36524
  let in100 := in400 % 36524
  let of4 := in100 / 1461
  let in4 := in100 % 1461
  let of1 := in4 / 365
  let year := of400 * 400 + of100 * 100 + of4 * 4 + of1 + 1
  if of1 = 4 ∨ of100 = 4 then (year - 1, 12, 31)
  else (year, monthOf (monthLengths year) 1 (in4 % 365))

example : [ofOrdinal 738945, ofOrdinal 738885, ofOrdinal 3652059] =
    [(2024, 2, 29), (2023, 12, 31), (9999, 12, 31)] ∧ ordinal 2024 2 29 = 738945 := by
  decide +kernel

/-- What a clock on the wall shows. `fold` tells the second of two moments at
which it shows the same. -/
structure WallTime where
  stamp : Int
  fold : Bool
  deriving DecidableEq, Repr

namespace WallTime

def day (w : WallTime) : Int := w.stamp / microsPerDay

def year (w : WallTime) : Int := (ofOrdinal w.day).1

def month (w : WallTime) : Nat := (ofOrdinal w.day).2.1

/-- Monday is 0. -/
def weekday (w : WallTime) : Int := (w.day + 6) % 7

/-- The full hour of a day. -/
def onDay (day hour : Int) (fold : Bool) : WallTime :=
  ⟨day * microsPerDay + hour * microsPerHour, fold⟩

end WallTime

/-- The hours a zone is ahead of UTC: an offset until its first change, and after
each change another. -/
structure Zone where
  first : Int
  changes : List (Int × Int)
  increasing : (changes.map Prod.fst).Pairwise (· < ·)

namespace Zone

def constant (offset : Int) : Zone := ⟨offset, [], .nil⟩

/-- What the clock shows at a moment. After a change that sets it back it shows
everything a second time, until the moment `repeated`. -/
def shown (offset : Int) (repeated : Option Int) : List (Int × Int) → Int → WallTime
  | [], t => ⟨t + offset, repeated.any fun until' => t < until'⟩
  | (at', after) :: rest, t =>
      if t < at' then ⟨t + offset, repeated.any fun until' => t < until'⟩
      else shown after (some (at' + (offset - after))) rest t

/-- The offset behind what the clock shows: a change has happened where the clock
shows more than it ever did before it, or, the second time, as much as it did
right after it. -/
def offsetOf (offset : Int) (w : WallTime) : List (Int × Int) → Int
  | [] => offset
  | (at', after) :: rest =>
      if w.stamp < at' + (if w.fold then min offset after else max offset after) then offset
      else offsetOf after w rest

def reading (zone : Zone) (t : Int) : WallTime := shown zone.first none zone.changes t

def instant (zone : Zone) (w : WallTime) : Int := w.stamp - offsetOf zone.first w zone.changes

@[simp] theorem reading_constant (offset t : Int) :
    (constant offset).reading t = ⟨t + offset, false⟩ := rfl

@[simp] theorem instant_constant (offset : Int) (w : WallTime) :
    (constant offset).instant w = w.stamp - offset := rfl

/-- Where the clocks go back an hour, an hour is shown twice. -/
example :
    let zone : Zone := ⟨2 * microsPerHour, [(100 * microsPerHour, microsPerHour)], by decide⟩
    [99, 100, 101].map (fun h => zone.reading (h * microsPerHour)) =
      [⟨101 * microsPerHour, false⟩, ⟨101 * microsPerHour, true⟩,
        ⟨102 * microsPerHour, false⟩] ∧
    [⟨101 * microsPerHour, false⟩, ⟨101 * microsPerHour, true⟩].map zone.instant =
      [99 * microsPerHour, 100 * microsPerHour] := by
  decide +kernel

end Zone

end SeoPlatform.Foundation.CivilTime
