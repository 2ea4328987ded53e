import Mathlib.Data.List.Perm.Basic
import Mathlib.Logic.Function.Basic

namespace SeoPlatform.Foundation.ThreadPool

variable {α ε ρ : Type}

/-- The orders in which a pool completes the tasks of its batches, by the number
of the batch and its size. -/
structure Completion where
  order : Nat → Nat → List Nat
  perm : ∀ batch size, (order batch size).Perm (List.range size)

/-- The results of the tasks, in the places of the tasks. -/
abbrev Slots (ε ρ : Type) := Nat → Option (Except ε ρ)

/-- One more task is completed. -/
def complete (f : α → Except ε ρ) (tasks : List α) (slots : Slots ε ρ) (i : Nat) : Slots ε ρ :=
  Function.update slots i (tasks[i]?.map f)

/-- `list(pool.map(f, tasks))`: the results in the order of the tasks, or the
first exception in that order. -/
def poolMap (f : α → Except ε ρ) (tasks : List α) (order : List Nat) : Except ε (List ρ) :=
  ((List.range tasks.length).filterMap
    (order.foldl (complete f tasks) fun _ => none)).mapM id

section Places

variable (f : α → Except ε ρ) (tasks : List α)

theorem foldl_complete_of_notMem {i : Nat} :
    ∀ (order : List Nat) (slots : Slots ε ρ), i ∉ order →
      order.foldl (complete f tasks) slots i = slots i := by
  intro order
  induction order with
  | nil => exact fun _ _ => rfl
  | cons j rest ih =>
      intro slots hnot
      obtain ⟨hj, hrest⟩ := not_or.mp (fun h => hnot (List.mem_cons.mpr h))
      rw [List.foldl_cons, ih _ hrest]
      exact Function.update_of_ne hj _ _

theorem foldl_complete_of_mem {i : Nat} :
    ∀ (order : List Nat) (slots : Slots ε ρ), i ∈ order →
      order.foldl (complete f tasks) slots i = tasks[i]?.map f := by
  intro order
  induction order with
  | nil =>
      intro _ h
      contradiction
  | cons j rest ih =>
      intro slots h
      rw [List.foldl_cons]
      by_cases hrest : i ∈ rest
      · exact ih _ hrest
      · have hij : i = j := (List.mem_cons.mp h).resolve_right hrest
        rw [foldl_complete_of_notMem f tasks rest _ hrest, hij]
        exact Function.update_self ..

end Places

theorem filterMap_getElem (f : α → Except ε ρ) (tasks : List α) :
    (List.range tasks.length).filterMap (fun i => tasks[i]?.map f) = tasks.map f := by
  induction tasks with
  | nil => rfl
  | cons task rest ih =>
      rw [List.length_cons, List.range_succ_eq_map, List.filterMap_cons]
      simp only [List.getElem?_cons_zero, Option.map_some, List.map_cons, List.filterMap_map]
      rw [← ih]
      rfl

/-- The order of completion does not show in the results. -/
theorem poolMap_eq_mapM (f : α → Except ε ρ) (tasks : List α) {order : List Nat}
    (h : order.Perm (List.range tasks.length)) : poolMap f tasks order = tasks.mapM f := by
  have hslots : (List.range tasks.length).filterMap
      (order.foldl (complete f tasks) fun _ => none) = tasks.map f := by
    rw [← filterMap_getElem]
    apply List.filterMap_congr
    intro i hi
    exact foldl_complete_of_mem f tasks order _ (h.mem_iff.mpr hi)
  unfold poolMap
  rw [hslots, List.mapM_map]
  rfl

end SeoPlatform.Foundation.ThreadPool
