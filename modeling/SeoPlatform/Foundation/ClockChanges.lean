import Mathlib.Data.List.TakeWhile
import SeoPlatform.Foundation.CivilTime

namespace SeoPlatform.Foundation.ClockChanges

open SeoPlatform.Foundation.CivilTime

/-- A change of the clocks. -/
structure Shift where
  old : Int
  moment : Int
  new : Int
  deriving DecidableEq, Repr

namespace Shift

/-- What the clock shows when the change comes. -/
def reached (shift : Shift) : Int := shift.moment + shift.old

/-- What it shows from then on. -/
def resumed (shift : Shift) : Int := shift.moment + shift.new

/-- The change is taken to lie behind what the clock shows. Between what it shows
when the change comes and what it shows from then on, the fold decides. -/
def Passed (w : WallTime) (shift : Shift) : Prop :=
  if w.fold then shift.reached ≤ w.stamp ∨ shift.resumed ≤ w.stamp
  else shift.reached ≤ w.stamp ∧ shift.resumed ≤ w.stamp

instance (w : WallTime) (shift : Shift) : Decidable (shift.Passed w) := by
  unfold Passed
  exact inferInstance

end Shift

def shiftsFrom : Int → List (Int × Int) → List Shift
  | _, [] => []
  | old, (moment, new) :: rest => ⟨old, moment, new⟩ :: shiftsFrom new rest

def shifts (zone : Zone) : List Shift := shiftsFrom zone.first zone.changes

/-- The last change that lies behind what the clock shows, and the first that does not. -/
def behind (w : WallTime) (changes : List Shift) : Option Shift :=
  (changes.takeWhile fun shift => shift.Passed w).getLast?

def ahead (w : WallTime) (changes : List Shift) : Option Shift :=
  changes.find? fun shift => ¬ shift.Passed w

/-- The clock had shown it before it was set back, or had jumped over it and gone on
for as long as it jumped. -/
def Repeated (after : Int) (w : WallTime) (changes : List Shift) : Prop :=
  ∃ shift ∈ ahead w changes, shift.moment ≤ after ∧
    (w.stamp < shift.reached ∨ w.stamp - shift.reached ≤ after - shift.moment)

/-- Taken for a second showing, it is one that the clock will jump over, and the jump
is longer than the time until then. -/
def Skipped (after : Int) (w : WallTime) (changes : List Shift) : Prop :=
  w.fold = true ∧ ∃ shift ∈ behind w changes, after < shift.moment ∧
    w.stamp < shift.resumed ∧ shift.moment - after ≤ shift.resumed - w.stamp

section Changes

variable {w : WallTime} {old : Int}

theorem offsetOf_cons (moment new : Int) (rest : List (Int × Int)) :
    Zone.offsetOf old w ((moment, new) :: rest) =
      if (⟨old, moment, new⟩ : Shift).Passed w then Zone.offsetOf new w rest else old := by
  have hpassed : (⟨old, moment, new⟩ : Shift).Passed w ↔
      ¬ w.stamp < moment + (if w.fold then min old new else max old new) := by
    unfold Shift.Passed Shift.reached Shift.resumed
    cases w.fold <;> simp <;> omega
  rw [if_congr hpassed rfl rfl, ite_not]
  rfl

theorem shown_cons (moment new t : Int) (shownTwice : Option Int) (rest : List (Int × Int)) :
    (Zone.shown old shownTwice ((moment, new) :: rest) t).stamp =
      if t < moment then t + old
      else (Zone.shown new (some (moment + (old - new))) rest t).stamp := by
  conv_lhs => unfold Zone.shown
  split <;> rfl

theorem ahead_cons (shift : Shift) (rest : List Shift) :
    ahead w (shift :: rest) = if shift.Passed w then ahead w rest else some shift := by
  unfold ahead
  rw [List.find?_cons]
  split <;> simp_all

theorem behind_cons (shift : Shift) (rest : List Shift) :
    behind w (shift :: rest) =
      if shift.Passed w then (behind w rest).or (some shift) else none := by
  unfold behind
  rw [List.takeWhile_cons]
  split
  · rename_i hpassed
    rw [if_pos (of_decide_eq_true hpassed), List.getLast?_cons]
    cases (List.takeWhile (fun shift => decide (shift.Passed w)) rest).getLast? <;> rfl
  · rename_i hpassed
    rw [if_neg (by simpa using hpassed)]
    rfl

/-- The offset is that of the last change behind what the clock shows. -/
theorem offsetOf_eq_behind (changes : List (Int × Int)) :
    Zone.offsetOf old w changes = ((behind w (shiftsFrom old changes)).map Shift.new).getD old := by
  induction changes generalizing old with
  | nil => rfl
  | cons change rest ih =>
      obtain ⟨moment, new⟩ := change
      unfold shiftsFrom
      rw [offsetOf_cons, behind_cons]
      split
      · rw [ih]
        cases behind w (shiftsFrom new rest) <;> rfl
      · rfl

theorem moment_of_mem_shiftsFrom {changes : List (Int × Int)} {shift : Shift}
    (h : shift ∈ shiftsFrom old changes) : shift.moment ∈ changes.map Prod.fst := by
  induction changes generalizing old with
  | nil => cases h
  | cons change rest ih =>
      obtain ⟨moment, new⟩ := change
      unfold shiftsFrom at h
      rcases List.mem_cons.mp h with rfl | hrest
      · exact List.mem_cons_self
      · exact List.mem_cons_of_mem _ (ih hrest)

theorem mem_of_behind {changes : List Shift} {shift : Shift} (h : shift ∈ behind w changes) :
    shift ∈ changes ∧ shift.Passed w := by
  have hmem := List.mem_of_getLast? h
  exact ⟨(List.takeWhile_sublist _).subset hmem, by simpa using List.mem_takeWhile_imp hmem⟩

theorem mem_of_ahead {changes : List Shift} {shift : Shift} (h : shift ∈ ahead w changes) :
    shift ∈ changes :=
  List.mem_of_find?_eq_some h

end Changes

/-- Before the first change, what is to come lies ahead unless a jump swallows it. -/
theorem offsetOf_le_iff_of_before {after old : Int} {w : WallTime} {changes : List (Int × Int)}
    (hbefore : ∀ shift ∈ shiftsFrom old changes, after < shift.moment)
    (hw : after + old < w.stamp) :
    w.stamp - Zone.offsetOf old w changes ≤ after ↔ Skipped after w (shiftsFrom old changes) := by
  rw [offsetOf_eq_behind]
  unfold Skipped
  cases hlast : behind w (shiftsFrom old changes) with
  | none =>
      simp only [Option.map_none, Option.getD_none, Option.mem_def, reduceCtorEq, false_and,
        exists_false, and_false, iff_false]
      omega
  | some shift =>
      obtain ⟨hmem, hpassed⟩ := mem_of_behind hlast
      have hlater := hbefore shift hmem
      simp only [Option.map_some, Option.getD_some, Option.mem_def, Option.some.injEq,
        exists_eq_left']
      unfold Shift.Passed Shift.reached at hpassed
      unfold Shift.resumed at hpassed ⊢
      cases hfold : w.fold <;> simp [hfold] at hpassed ⊢ <;> omega

/-- The moment of a reading that is to come is not later than the moment of the clock
just where the clock has shown it already, or jumps over it. -/
theorem offsetOf_le_iff {after old : Int} {w : WallTime} {shownTwice : Option Int}
    {changes : List (Int × Int)} (hincreasing : (changes.map Prod.fst).Pairwise (· < ·))
    (hw : (Zone.shown old shownTwice changes after).stamp < w.stamp) :
    w.stamp - Zone.offsetOf old w changes ≤ after ↔
      Repeated after w (shiftsFrom old changes) ∨ Skipped after w (shiftsFrom old changes) := by
  induction changes generalizing old shownTwice with
  | nil =>
      have hnone : ¬ ∃ shift ∈ ahead w [], shift.moment ≤ after ∧
          (w.stamp < shift.reached ∨ w.stamp - shift.reached ≤ after - shift.moment) := by
        rintro ⟨shift, hshift, -⟩
        cases hshift
      rw [offsetOf_le_iff_of_before (by intro shift hshift; cases hshift) hw]
      exact (or_iff_right hnone).symm
  | cons change rest ih =>
      obtain ⟨moment, new⟩ := change
      rw [shown_cons] at hw
      obtain ⟨hfirst, hrest⟩ := List.pairwise_cons.mp hincreasing
      by_cases hafter : after < moment
      · rw [if_pos hafter] at hw
        have hbefore : ∀ shift ∈ shiftsFrom old ((moment, new) :: rest), after < shift.moment := by
          intro shift hshift
          rcases List.mem_cons.mp (moment_of_mem_shiftsFrom hshift) with hmoment | hmoment
          · rw [hmoment]
            exact hafter
          · exact hafter.trans (hfirst _ hmoment)
        rw [offsetOf_le_iff_of_before hbefore hw]
        refine (or_iff_right ?_).symm
        rintro ⟨shift, hshift, hmoment, -⟩
        exact absurd hmoment (not_le.mpr (hbefore shift (mem_of_ahead hshift)))
      · rw [if_neg hafter] at hw
        rw [offsetOf_cons]
        unfold shiftsFrom Repeated Skipped
        rw [ahead_cons, behind_cons]
        split
        · -- the change lies behind both, and what is left is said of the others
          rw [ih hrest hw]
          unfold Repeated Skipped
          refine or_congr_right (and_congr_right fun _ => ?_)
          cases behind w (shiftsFrom new rest) with
          | none => simpa using fun h => absurd h hafter
          | some last => exact Iff.rfl
        · -- the clock had got as far before the change, which the moment is after
          rename_i hpassed
          simp only [Option.mem_def, Option.some.injEq, exists_eq_left', reduceCtorEq, false_and,
            exists_false, and_false, or_false]
          unfold Shift.reached
          dsimp only
          omega

theorem instant_le_iff (zone : Zone) {after : Int} {w : WallTime}
    (hw : (zone.reading after).stamp < w.stamp) :
    zone.instant w ≤ after ↔ Repeated after w (shifts zone) ∨ Skipped after w (shifts zone) :=
  offsetOf_le_iff zone.increasing hw

end SeoPlatform.Foundation.ClockChanges
