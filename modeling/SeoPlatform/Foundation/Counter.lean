import Mathlib.Data.List.Nodup
import Mathlib.Data.List.Sort
import Mathlib.Data.Set.Card

namespace SeoPlatform.Foundation.Counter

variable {α : Type} [DecidableEq α]

/-- How often each value occurs, in the order of the first occurrences. -/
def tally (items : List α) : List (α × Nat) :=
  items.eraseDups.map fun a => (a, items.count a)

/-- The values that occur most often, the earlier ones first among equals. -/
def mostCommon (n : Nat) (counts : List (α × Nat)) : List (α × Nat) :=
  (counts.insertionSort fun a b => b.2 ≤ a.2).take n

/-- `counts[a]`, which is zero for what was not counted. -/
def countOf (counts : List (α × Nat)) (a : α) : Nat := (counts.lookup a).getD 0

theorem lookup_map_pair {items : List α} (f : α → Nat) (a : α) :
    (items.map fun b => (b, f b)).lookup a = if a ∈ items then some (f a) else none := by
  induction items with
  | nil => rfl
  | cons b rest ih =>
      rw [List.map_cons, List.lookup_cons, ih]
      by_cases h : a = b
      · subst h
        simp
      · simp [h, beq_false_of_ne h]

theorem countOf_tally (items : List α) (a : α) : countOf (tally items) a = items.count a := by
  unfold countOf tally
  rw [lookup_map_pair]
  by_cases h : a ∈ items
  · rw [if_pos (List.mem_eraseDups.mpr h)]
    rfl
  · rw [if_neg (mt List.mem_eraseDups.mp h), List.count_eq_zero_of_not_mem h]
    rfl

theorem nodup_eraseDups (items : List α) : items.eraseDups.Nodup := by
  induction hsize : items.length using Nat.strong_induction_on generalizing items with
  | _ size ih =>
      cases items with
      | nil => exact List.nodup_nil
      | cons a rest =>
          rw [List.eraseDups_cons, List.nodup_cons]
          constructor
          · simp
          · refine ih _ ?_ _ rfl
            have hless := List.length_filter_le (fun b => !b == a) rest
            rw [List.length_cons] at hsize
            omega

@[simp] theorem map_fst_tally (items : List α) : (tally items).map Prod.fst = items.eraseDups := by
  unfold tally
  rw [List.map_map]
  exact List.map_id _

theorem mem_tally_iff {items : List α} {a : α} {n : Nat} :
    (a, n) ∈ tally items ↔ a ∈ items ∧ n = items.count a := by
  unfold tally
  simp only [List.mem_map, List.mem_eraseDups, Prod.mk.injEq]
  constructor
  · rintro ⟨b, hb, rfl, rfl⟩
    exact ⟨hb, rfl⟩
  · rintro ⟨ha, rfl⟩
    exact ⟨a, ha, rfl, rfl⟩

/-- Of lists without repetitions a value is counted in as many as it is in. -/
theorem count_flatMap_of_nodup {β : Type} {f : β → List α} {items : List β}
    (h : ∀ b ∈ items, (f b).Nodup) (a : α) :
    (items.flatMap f).count a = items.countP fun b => a ∈ f b := by
  induction items with
  | nil => rfl
  | cons b rest ih =>
      obtain ⟨hfirst, hrest⟩ := List.forall_mem_cons.mp h
      rw [List.flatMap_cons, List.count_append, ih hrest, hfirst.count, List.countP_cons, add_comm]
      simp

/-- The counts of the values of a kind add up to how many values are of the kind. -/
theorem sum_tally_filter (p : α → Bool) (items : List α) :
    (((tally items).filter fun entry => p entry.1).map Prod.snd).sum = items.countP p := by
  have hperm : items.eraseDups.Perm items.dedup :=
    (List.perm_ext_iff_of_nodup (nodup_eraseDups items) items.nodup_dedup).mpr fun a => by
      rw [List.mem_eraseDups, List.mem_dedup]
  rw [← List.sum_map_count_dedup_filter_eq_countP p items]
  unfold tally
  rw [List.filter_map, List.map_map]
  exact ((hperm.filter _).map _).sum_eq

omit [DecidableEq α] in
theorem mem_of_mem_mostCommon {n : Nat} {counts : List (α × Nat)} {entry : α × Nat}
    (h : entry ∈ mostCommon n counts) : entry ∈ counts :=
  (List.mem_insertionSort _).mp (List.mem_of_mem_take h)

omit [DecidableEq α] in
theorem length_mostCommon (n : Nat) (counts : List (α × Nat)) :
    (mostCommon n counts).length = min n counts.length := by
  unfold mostCommon
  rw [List.length_take, List.length_insertionSort]

omit [DecidableEq α] in
/-- What a list lists once each is as many as the list is long. -/
theorem ncard_eq_length {items : List α} {p : α → Prop} (h : items.Nodup)
    (hmem : ∀ a, a ∈ items ↔ p a) : {a | p a}.ncard = items.length := by
  classical
  have hset : {a | p a} = (items.toFinset : Set α) := by
    ext a
    simp [hmem]
  rw [hset, Set.ncard_coe_finset, List.toFinset_card_of_nodup h]

example : mostCommon 2 (tally ["b", "a", "c", "a", "c"]) = [("a", 2), ("c", 2)] := by
  decide +kernel

end SeoPlatform.Foundation.Counter
