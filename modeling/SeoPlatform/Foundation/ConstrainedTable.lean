import Mathlib.Data.List.Pairwise

namespace SeoPlatform.Foundation.ConstrainedTable

variable {ρ : Type} {clash : ρ → ρ → Prop}

/-- A table under uniqueness constraints: no two of its rows clash. -/
structure Table (ρ : Type) (clash : ρ → ρ → Prop) where
  rows : List ρ
  apart : rows.Pairwise fun a b => ¬ clash a b

namespace Table

def empty : Table ρ clash := ⟨[], .nil⟩

/-- Add a row at the end, unless it clashes with one already there. -/
def insert [DecidableRel clash] (table : Table ρ clash) (row : ρ) : Option (Table ρ clash) :=
  if h : ∀ old ∈ table.rows, ¬ clash old row then
    some ⟨table.rows ++ [row],
      List.pairwise_append.mpr ⟨table.apart, List.pairwise_singleton _ _, by simpa using h⟩⟩
  else
    none

/-- Rewrite every row in a way that introduces no clash. -/
def update (table : Table ρ clash) (f : ρ → ρ)
    (hf : ∀ a b, clash (f a) (f b) → clash a b) : Table ρ clash :=
  ⟨table.rows.map f,
    List.pairwise_map.mpr (table.apart.imp fun hapart hclash => hapart (hf _ _ hclash))⟩

/-- Drop the rows of a kind. -/
def delete (table : Table ρ clash) (drop : ρ → Bool) : Table ρ clash :=
  ⟨table.rows.filter fun row => !drop row, table.apart.filter _⟩

@[simp] theorem rows_empty : (empty : Table ρ clash).rows = [] := rfl

@[simp] theorem rows_update (table : Table ρ clash) (f : ρ → ρ)
    (hf : ∀ a b, clash (f a) (f b) → clash a b) :
    (table.update f hf).rows = table.rows.map f := rfl

theorem mem_delete {table : Table ρ clash} {drop : ρ → Bool} {row : ρ} :
    row ∈ (table.delete drop).rows ↔ row ∈ table.rows ∧ drop row = false := by
  simp [delete]

theorem insert_eq_some [DecidableRel clash] {table table' : Table ρ clash} {row : ρ} :
    table.insert row = some table' ↔
      (∀ old ∈ table.rows, ¬ clash old row) ∧ table'.rows = table.rows ++ [row] := by
  unfold insert
  split
  · rename_i h
    rcases table' with ⟨rows', apart'⟩
    simp only [Option.some.injEq, Table.mk.injEq]
    exact ⟨fun heq => ⟨h, heq.symm⟩, fun heq => heq.2.symm⟩
  · rename_i h
    simp [h]

@[ext] theorem ext {table table' : Table ρ clash} (h : table.rows = table'.rows) :
    table = table' := by
  cases table
  cases table'
  simpa using h

/-- Two rows that clash are the same row. -/
theorem eq_of_clash (table : Table ρ clash) (hsymm : ∀ a b, clash a b → clash b a)
    {a b : ρ} (ha : a ∈ table.rows) (hb : b ∈ table.rows) (hclash : clash a b) : a = b := by
  have hapart := table.apart
  generalize table.rows = rows at ha hb hapart
  induction rows with
  | nil => simp at ha
  | cons row rest ih =>
      obtain ⟨hrow, hrest⟩ := List.pairwise_cons.mp hapart
      rcases List.mem_cons.mp ha with rfl | ha' <;> rcases List.mem_cons.mp hb with rfl | hb'
      · rfl
      · exact absurd hclash (hrow b hb')
      · exact absurd (hsymm _ _ hclash) (hrow a ha')
      · exact ih ha' hb' hrest

/-- A selection that only one row meets finds that row. -/
theorem find?_eq_some_of_unique (table : Table ρ clash) {p : ρ → Bool} {row : ρ}
    (hrow : row ∈ table.rows) (hp : p row = true)
    (hunique : ∀ other ∈ table.rows, p other = true → other = row) :
    table.rows.find? p = some row := by
  cases hfind : table.rows.find? p with
  | none => exact absurd hp (List.find?_eq_none.mp hfind row hrow)
  | some other =>
      rw [hunique other (List.mem_of_find?_eq_some hfind) (List.find?_some hfind)]

end Table

end SeoPlatform.Foundation.ConstrainedTable
