import Mathlib.Logic.Function.Basic

namespace SeoPlatform.Foundation.RowLocks

/-- Which transaction holds each row for update. -/
abbrev Locks (κ τ : Type) := κ → Option τ

namespace Locks

variable {κ τ : Type} {locks : Locks κ τ} {row other : κ} {holder keeper : τ}

def free : Locks κ τ := fun _ => none

def take [DecidableEq κ] (locks : Locks κ τ) (row : κ) (holder : τ) : Locks κ τ :=
  Function.update locks row (some holder)

/-- What is left when a transaction ends. -/
def release [DecidableEq τ] (locks : Locks κ τ) (holder : τ) : Locks κ τ :=
  fun row => if locks row = some holder then none else locks row

@[simp] theorem take_self [DecidableEq κ] : take locks row holder row = some holder := by
  simp [take]

/-- Taking a free row takes no row from anyone. -/
theorem held_take [DecidableEq κ] (hheld : locks other = some keeper) (hfree : locks row = none) :
    take locks row holder other = some keeper := by
  have hne : other ≠ row := by
    rintro rfl
    rw [hfree] at hheld
    contradiction
  rw [take, Function.update_of_ne hne]
  exact hheld

theorem held_release [DecidableEq τ] (hheld : locks row = some keeper) (hne : keeper ≠ holder) :
    release locks holder row = some keeper := by
  rw [release, hheld, if_neg fun h => hne (Option.some.inj h)]

end Locks

end SeoPlatform.Foundation.RowLocks
