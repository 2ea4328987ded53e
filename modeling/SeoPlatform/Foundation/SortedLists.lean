import Mathlib.Data.List.Sort
import SeoPlatform.Foundation.Counter

namespace SeoPlatform.Foundation.SortedLists

section Orders

variable {α : Type} {r : α → α → Prop} [DecidableRel r]

/-- An order that tells the items apart sorts them the same from every order. -/
theorem insertionSort_eq_of_perm [Std.Total r] [IsTrans α r] [Std.Antisymm r]
    {items others : List α} (h : items.Perm others) : items.insertionSort r = others.insertionSort r := by
  refine List.Perm.eq_of_pairwise ?_ (List.pairwise_insertionSort r items)
    (List.pairwise_insertionSort r others) ?_
  · exact fun a b _ _ hab hba => antisymm hab hba
  · exact ((List.perm_insertionSort r items).trans h).trans (List.perm_insertionSort r others).symm

end Orders

section First

variable {α κ : Type} [LinearOrder κ] {key : α → κ}

variable (key) in
theorem pairwise_insertionSort_key (items : List α) :
    (items.insertionSort fun a b => key a ≤ key b).Pairwise fun a b => key a ≤ key b :=
  List.pairwise_insertionSort _ items

/-- The first item of a kind, in a list in order, has the least key of its kind. -/
theorem isLeast_of_find? {items : List α} {p : α → Bool} {first : α}
    (hsorted : items.Pairwise fun a b => key a ≤ key b) (h : items.find? p = some first) :
    IsLeast {k | ∃ item ∈ items, p item ∧ key item = k} (key first) := by
  obtain ⟨hp, before, after, rfl, hbefore⟩ := List.find?_eq_some_iff_append.mp h
  refine ⟨⟨first, by simp, hp, rfl⟩, ?_⟩
  rintro _ ⟨item, hitem, hkind, rfl⟩
  rcases List.mem_append.mp hitem with hearly | hlate
  · have hnot := hbefore item hearly
    rw [hkind] at hnot
    cases hnot
  · rcases List.mem_cons.mp hlate with rfl | hafter
    · exact le_refl _
    · exact (List.pairwise_cons.mp (List.pairwise_append.mp hsorted).2.1).1 item hafter

variable {β : Type} [DecidableEq β]

/-- Without the repetitions the values of a list in order are in the order of their first
keys. -/
theorem pairwise_eraseDups_map (value : α → β) {items : List α}
    (hsorted : items.Pairwise fun a b => key a ≤ key b) :
    (items.map value).eraseDups.Pairwise fun a b =>
      ∀ later ∈ items, value later = b → ∃ item ∈ items, value item = a ∧ key item ≤ key later := by
  induction hsize : items.length using Nat.strong_induction_on generalizing items with
  | _ size ih =>
      cases items with
      | nil => exact List.Pairwise.nil
      | cons first rest =>
          obtain ⟨hfirst, hrest⟩ := List.pairwise_cons.mp hsorted
          have hfilter : (rest.map value).filter (fun b => !b == value first) =
              (rest.filter fun item => !value item == value first).map value :=
            List.filter_map
          rw [List.map_cons, List.eraseDups_cons, hfilter, List.pairwise_cons]
          constructor
          · intro b _ later hlater _
            refine ⟨first, List.mem_cons_self, rfl, ?_⟩
            rcases List.mem_cons.mp hlater with rfl | hmem
            · exact le_refl _
            · exact hfirst later hmem
          · have hless := List.length_filter_le (fun item => !value item == value first) rest
            rw [List.length_cons] at hsize
            refine (ih _ (by omega) (hrest.filter _) rfl).imp_of_mem ?_
            intro a b _ hb hab later hlater hvalue
            have hne : value later ≠ value first := by
              obtain ⟨item, hitem, rfl⟩ := List.mem_map.mp (List.mem_eraseDups.mp hb)
              rw [hvalue]
              simpa using (List.mem_filter.mp hitem).2
            have hkept : later ∈ rest.filter fun item => !value item == value first := by
              refine List.mem_filter.mpr ⟨List.mem_of_ne_of_mem ?_ hlater, by simpa using hne⟩
              rintro rfl
              exact hne rfl
            obtain ⟨item, hitem, ha, hle⟩ := hab later hkept hvalue
            exact ⟨item, List.mem_cons_of_mem _ (List.mem_filter.mp hitem).1, ha, hle⟩

end First

section Cut

variable {α κ : Type} [LinearOrder κ] {key : α → κ}

/-- Items that are tied stand behind so many others. -/
def TiesBehind (key : α → κ) (n : Nat) (items : List α) : Prop :=
  ∀ a ∈ items, ∀ b ∈ items, a ≠ b → key a = key b →
    n ≤ items.countP fun other => key a < key other

theorem TiesBehind.perm {n : Nat} {items others : List α} (h : TiesBehind key n items)
    (hperm : items.Perm others) : TiesBehind key n others := by
  intro a ha b hb hne htied
  rw [← hperm.countP_eq]
  exact h a (hperm.mem_iff.mpr ha) b (hperm.mem_iff.mpr hb) hne htied

/-- Those that have more than an item of a list in order, the most first, stand before it. -/
theorem countP_of_pairwise {before after : List α} {item : α}
    (hsorted : (before ++ item :: after).Pairwise fun a b => key b ≤ key a) :
    (before ++ item :: after).countP (fun other => key item < key other) =
      before.countP fun other => key item < key other := by
  have hafter : (item :: after).countP (fun other => key item < key other) = 0 := by
    rw [List.countP_eq_zero]
    intro other hother
    rcases List.mem_cons.mp hother with rfl | hmem
    · simp
    · simpa using (List.pairwise_cons.mp (List.pairwise_append.mp hsorted).2.1).1 other hmem
  rw [List.countP_append, hafter, Nat.add_zero]

/-- Where no other item is tied with it, all that stand before it have more. -/
theorem countP_of_untied {before after : List α} {item : α}
    (hsorted : (before ++ item :: after).Pairwise fun a b => key b ≤ key a)
    (huntied : ∀ other ∈ before, key other ≠ key item) :
    (before ++ item :: after).countP (fun other => key item < key other) = before.length := by
  rw [countP_of_pairwise hsorted, List.countP_eq_length]
  intro other hother
  have hle := (List.pairwise_append.mp hsorted).2.2 other hother item List.mem_cons_self
  simpa using lt_of_le_of_ne hle (Ne.symm (huntied other hother))

/-- The item that comes first of those it is tied with stands right behind those with more. -/
theorem getElem?_insertionSort_cons (item : α) (rest : List α) :
    ((item :: rest).insertionSort fun a b => key b ≤ key a)[
      (item :: rest).countP fun other => key item < key other]? = some item := by
  have hsorted := List.pairwise_insertionSort (fun a b => key b ≤ key a) (item :: rest)
  rw [← (List.perm_insertionSort (fun a b => key b ≤ key a) (item :: rest)).countP_eq]
  rw [List.insertionSort_cons_eq_take_drop] at hsorted ⊢
  rw [countP_of_untied hsorted, List.getElem?_append_right (le_refl _), Nat.sub_self]
  · rfl
  · intro other hother htied
    have hmore := List.all_eq_true.mp List.all_takeWhile other hother
    simp [htied] at hmore

/-- What stands before the cut of a list in order stands there in every order of the items,
where those that are tied are behind the cut. -/
theorem getElem?_of_perm {sorted others : List α} {item : α} {n i : Nat}
    (hsorted : sorted.Pairwise fun a b => key b ≤ key a)
    (hothers : others.Pairwise fun a b => key b ≤ key a) (hperm : sorted.Perm others)
    (hnodup : sorted.Nodup) (hties : TiesBehind key n sorted) (hi : i < n)
    (h : sorted[i]? = some item) : others[i]? = some item := by
  obtain ⟨before, after, rfl, rfl⟩ : ∃ before after, sorted = before ++ item :: after ∧
      before.length = i := by
    obtain ⟨hlt, hitem⟩ := List.getElem?_eq_some_iff.mp h
    refine ⟨sorted.take i, sorted.drop (i + 1), ?_, List.length_take_of_le hlt.le⟩
    rw [← hitem, ← List.drop_eq_getElem_cons hlt, List.take_append_drop]
  have hmem : item ∈ before ++ item :: after := by simp
  have huntied : ∀ other ∈ before ++ item :: after, other ≠ item → key other ≠ key item := by
    intro other hother hne htied
    have hmany := hties item hmem other hother hne.symm htied.symm
    rw [countP_of_pairwise hsorted] at hmany
    exact absurd (hmany.trans List.countP_le_length) (by omega)
  have hnot : ∀ {front back : List α}, (front ++ item :: back).Nodup → ∀ other ∈ front,
      other ≠ item := by
    rintro front back hdistinct other hother rfl
    exact (List.nodup_append.mp hdistinct).2.2 _ hother _ List.mem_cons_self rfl
  have hcount := countP_of_untied hsorted fun other hother =>
    huntied other (List.mem_append_left _ hother) (hnot hnodup other hother)
  obtain ⟨front, back, rfl⟩ := List.append_of_mem (hperm.mem_iff.mp hmem)
  have hfront := countP_of_untied hothers fun other hother =>
    huntied other (hperm.mem_iff.mpr (List.mem_append_left _ hother))
      (hnot (hperm.nodup_iff.mp hnodup) other hother)
  rw [← hperm.countP_eq, hcount] at hfront
  rw [hfront, List.getElem?_append_right (le_refl _), Nat.sub_self]
  rfl

/-- A list that is sorted and cut is the same from every order of its items, where those that
are tied are behind the cut. -/
theorem take_insertionSort_of_perm {items others : List α} {n : Nat} (hperm : items.Perm others)
    (hnodup : items.Nodup) (hties : TiesBehind key n items) :
    (items.insertionSort fun a b => key b ≤ key a).take n =
      (others.insertionSort fun a b => key b ≤ key a).take n := by
  have hitems := List.perm_insertionSort (fun a b => key b ≤ key a) items
  have hothers := List.perm_insertionSort (fun a b => key b ≤ key a) others
  have hsorted := List.pairwise_insertionSort (fun a b => key b ≤ key a) items
  have hsorted' := List.pairwise_insertionSort (fun a b => key b ≤ key a) others
  have hboth := (hitems.trans hperm).trans hothers.symm
  refine List.ext_getElem? fun i => ?_
  rw [List.getElem?_take, List.getElem?_take]
  split
  · rename_i hi
    refine Option.ext fun item => ⟨?_, ?_⟩
    · exact getElem?_of_perm hsorted hsorted' hboth (hitems.nodup_iff.mpr hnodup)
        (hties.perm hitems.symm) hi
    · exact getElem?_of_perm hsorted' hsorted hboth.symm
        ((hothers.trans hperm.symm).nodup_iff.mpr hnodup)
        (hties.perm (hperm.trans hothers.symm)) hi
  · rfl

variable (key) in
/-- What comes first of the items it is tied with is shown, where fewer than the cut have
more. -/
theorem take_insertionSort_cons (item : α) (rest : List α) {n : Nat}
    (h : (item :: rest).countP (fun other => key item < key other) < n) :
    ((((item :: rest).insertionSort fun a b => key b ≤ key a).take n)[
      (item :: rest).countP fun other => key item < key other]?) = some item := by
  rw [List.getElem?_take_of_lt h]
  exact getElem?_insertionSort_cons item rest

/-- A list that is sorted and cut is the same from every order of its items exactly when
those that are tied are behind the cut. -/
theorem take_insertionSort_constant_iff [DecidableEq α] {items : List α} {n : Nat}
    (hnodup : items.Nodup) :
    (∀ others others' : List α, others.Perm items → others'.Perm items →
        (others.insertionSort fun a b => key b ≤ key a).take n =
          (others'.insertionSort fun a b => key b ≤ key a).take n) ↔
      TiesBehind key n items := by
  constructor
  · intro h a ha b hb hne htied
    by_contra hfew
    have hfirst := (List.perm_cons_erase ha).symm
    have hsecond := (List.perm_cons_erase hb).symm
    have hcount := hfirst.countP_eq fun other => decide (key a < key other)
    have hcount' := hsecond.countP_eq fun other => decide (key b < key other)
    have hshown := take_insertionSort_cons key a (items.erase a) (n := n)
    have hshown' := take_insertionSort_cons key b (items.erase b) (n := n)
    rw [hcount] at hshown
    rw [hcount', ← htied, h _ _ hsecond hfirst] at hshown'
    exact hne (Option.some.inj ((hshown (by omega)).symm.trans (hshown' (by omega))))
  · intro hties others others' hperm hperm'
    exact take_insertionSort_of_perm (hperm.trans hperm'.symm) (hperm.nodup_iff.mpr hnodup)
      (hties.perm hperm.symm)

end Cut

end SeoPlatform.Foundation.SortedLists
