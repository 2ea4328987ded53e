import Mathlib.Data.List.Induction
import Mathlib.Data.List.Perm.Basic
import SeoPlatform.Foundation.Mapping

namespace SeoPlatform.Foundation.Grouping

open SeoPlatform.Foundation.Mapping

variable {κ α : Type} [DecidableEq κ]

/-- `buckets[key].append(item)`. -/
def push (buckets : Dictionary κ (List α)) (key : κ) (item : α) : Dictionary κ (List α) :=
  buckets.set key ((buckets.get? key).getD [] ++ [item])

/-- The items by their labels. -/
def grouped (label : α → κ) (items : List α) : Dictionary κ (List α) :=
  items.foldl (fun buckets item => push buckets (label item) item) .empty

variable {label : α → κ}

/-- A bucket has the items of its label, in their order. -/
theorem get?_grouped (items : List α) (key : κ) :
    (grouped label items).get? key =
      if key ∈ items.map label then some (items.filter fun item => label item = key) else none := by
  unfold grouped
  induction items using List.reverseRecOn with
  | nil => rfl
  | append_singleton items item ih =>
      rw [List.foldl_concat, push, Dictionary.get?_set]
      by_cases hkey : key = label item
      · subst hkey
        have hthere : label item ∈ (items ++ [item]).map label := by simp
        rw [if_pos rfl, if_pos hthere, ih, List.filter_append]
        by_cases hmem : label item ∈ items.map label
        · rw [if_pos hmem]
          simp
        · have hnone : items.filter (fun other => label other = label item) = [] := by
            rw [List.filter_eq_nil_iff]
            intro other hother hsame
            exact hmem (of_decide_eq_true hsame ▸ List.mem_map_of_mem hother)
          rw [if_neg hmem, hnone]
          simp
      · rw [if_neg hkey, ih, List.filter_append]
        simp [hkey, Ne.symm hkey]

theorem mem_grouped_iff {items members : List α} {key : κ} :
    (key, members) ∈ (grouped label items).entries ↔
      key ∈ items.map label ∧ members = items.filter fun item => label item = key := by
  rw [← Dictionary.get?_eq_some_iff, get?_grouped, Option.ite_none_right_eq_some,
    Option.some.injEq]
  exact and_congr_right fun _ => eq_comm

/-- Labels without repetition that are all there are divide the items among them. -/
theorem flatMap_filter_perm {keys : List κ} (hnodup : keys.Nodup) (items : List α)
    (hcover : ∀ item ∈ items, label item ∈ keys) :
    (keys.flatMap fun key => items.filter fun item => label item = key).Perm items := by
  induction keys generalizing items with
  | nil =>
      cases items with
      | nil => exact List.Perm.refl _
      | cons item rest => exact absurd (hcover item List.mem_cons_self) List.not_mem_nil
  | cons key rest ih =>
      obtain ⟨hnew, hrest⟩ := List.nodup_cons.mp hnodup
      have hothers : ∀ item ∈ items.filter (fun item => !decide (label item = key)),
          label item ∈ rest := by
        intro item hitem
        obtain ⟨hmem, hother⟩ := List.mem_filter.mp hitem
        rcases List.mem_cons.mp (hcover item hmem) with hsame | hlater
        · simp [hsame] at hother
        · exact hlater
      have hsame : (rest.flatMap fun other => items.filter fun item => label item = other) =
          rest.flatMap fun other =>
            (items.filter fun item => !decide (label item = key)).filter
              fun item => label item = other := by
        apply List.flatMap_congr
        intro other hother
        rw [List.filter_filter]
        apply List.filter_congr
        intro item _
        by_cases hlabel : label item = other
        · have hne : other ≠ key := ne_of_mem_of_not_mem hother hnew
          simp [hlabel, hne]
        · simp [hlabel]
      rw [List.flatMap_cons, hsame]
      exact ((ih hrest _ hothers).append_left _).trans (List.filter_append_perm _ items)

theorem grouped_perm (items : List α) :
    ((grouped label items).entries.flatMap Prod.snd).Perm items := by
  have hkeys : ∀ entry ∈ (grouped label items).entries,
      entry.2 = items.filter fun item => label item = entry.1 :=
    fun entry hentry => (mem_grouped_iff.mp hentry).2
  have hcover : ∀ item ∈ items, label item ∈ (grouped label items).keys := by
    intro item hitem
    apply List.mem_map.mpr
    exact ⟨_, mem_grouped_iff.mpr ⟨List.mem_map_of_mem hitem, rfl⟩, rfl⟩
  rw [List.flatMap_congr hkeys]
  have hperm := flatMap_filter_perm (grouped label items).nodup_keys items hcover
  unfold Dictionary.keys at hperm
  rwa [List.flatMap_map] at hperm

theorem length_grouped_le (items : List α) :
    (grouped label items).entries.length ≤ items.length := by
  have hsubset : (grouped label items).keys ⊆ items.map label := by
    intro key hkey
    obtain ⟨entry, hentry, rfl⟩ := List.mem_map.mp hkey
    exact (mem_grouped_iff.mp hentry).1
  have hlength := (List.subperm_of_subset (grouped label items).nodup_keys hsubset).length_le
  unfold Dictionary.keys at hlength
  rwa [List.length_map, List.length_map] at hlength

end SeoPlatform.Foundation.Grouping
