import Mathlib.Data.Finset.Card
import Mathlib.Data.List.Induction
import Mathlib.Data.List.Pairwise

namespace SeoPlatform.Foundation.FirstOfEach

variable {α κ σ : Type} [DecidableEq κ]

section Firsts

/-- The items that no item of their key stands before. -/
def firsts (key : α → κ) (items : List α) : List α :=
  items.foldl (fun kept item => if key item ∈ kept.map key then kept else kept ++ [item]) []

/-- The loop that keeps the first item of each key, until it has so many. -/
def keepFirsts (key : α → κ) (limit : Nat) : List α → List α → List α
  | kept, [] => kept
  | kept, item :: rest =>
      if key item ∈ kept.map key then keepFirsts key limit kept rest
      else if limit ≤ (kept ++ [item]).length then kept ++ [item]
      else keepFirsts key limit (kept ++ [item]) rest

/-- An item is picked that no item of its key stands before, where the keys before it do
not fill the limit. -/
def Picked (key : α → κ) (limit : Nat) (items : List α) (item : α) : Prop :=
  ∃ before after, items = before ++ item :: after ∧ key item ∉ before.map key ∧
    (before.map key).toFinset.card < limit

variable {key : α → κ}

variable (key) in
theorem firsts_append_singleton (items : List α) (item : α) :
    firsts key (items ++ [item]) =
      if key item ∈ (firsts key items).map key then firsts key items
      else firsts key items ++ [item] :=
  List.foldl_concat ..

theorem mem_map_firsts {items : List α} {k : κ} :
    k ∈ (firsts key items).map key ↔ k ∈ items.map key := by
  induction items using List.reverseRecOn with
  | nil => exact Iff.rfl
  | append_singleton items item ih =>
      rw [firsts_append_singleton, List.map_append, List.map_singleton, List.mem_append,
        List.mem_singleton]
      split
      · rename_i hold
        rw [ih]
        refine (or_iff_left_of_imp ?_).symm
        rintro rfl
        exact ih.mp hold
      · rw [List.map_append, List.mem_append, ih, List.map_singleton, List.mem_singleton]

theorem nodup_map_firsts (items : List α) : ((firsts key items).map key).Nodup := by
  induction items using List.reverseRecOn with
  | nil => exact List.nodup_nil
  | append_singleton items item ih =>
      rw [firsts_append_singleton]
      split
      · exact ih
      · rename_i hnew
        rw [List.map_append, List.map_singleton, ← List.concat_eq_append]
        exact ih.concat hnew

theorem length_firsts (items : List α) :
    (firsts key items).length = (items.map key).toFinset.card := by
  have hset : ((firsts key items).map key).toFinset = (items.map key).toFinset := by
    ext k
    rw [List.mem_toFinset, List.mem_toFinset, mem_map_firsts]
  rw [← hset, List.toFinset_card_of_nodup (nodup_map_firsts items), List.length_map]

theorem firsts_sublist (items : List α) : (firsts key items).Sublist items := by
  induction items using List.reverseRecOn with
  | nil => exact List.Sublist.refl _
  | append_singleton items item ih =>
      rw [firsts_append_singleton]
      split
      · exact ih.trans (List.sublist_append_left items [item])
      · exact ih.append (List.Sublist.refl [item])

theorem firsts_prefix (items later : List α) :
    firsts key items <+: firsts key (items ++ later) := by
  induction later using List.reverseRecOn with
  | nil => rw [List.append_nil]
  | append_singleton later item ih =>
      rw [← List.append_assoc, firsts_append_singleton]
      split
      · exact ih
      · exact ih.trans (List.prefix_append _ _)

/-- What is kept of a beginning that fills the limit is all that is kept. -/
theorem take_firsts_append {limit : Nat} {items : List α}
    (hfull : limit ≤ (firsts key items).length) (later : List α) :
    (firsts key (items ++ later)).take limit = (firsts key items).take limit := by
  obtain ⟨others, hothers⟩ : firsts key items <+: firsts key (items ++ later) :=
    firsts_prefix items later
  rw [← hothers, List.take_append_of_le_length hfull]

/-- The loop has read `past`. -/
theorem keepFirsts_eq {limit : Nat} (items past : List α)
    (hroom : (firsts key past).length < limit) :
    keepFirsts key limit (firsts key past) items = (firsts key (past ++ items)).take limit := by
  induction items generalizing past with
  | nil => rw [List.append_nil, keepFirsts, List.take_of_length_le hroom.le]
  | cons item rest ih =>
      have hstep := firsts_append_singleton key past item
      rw [List.append_cons, keepFirsts]
      split
      · rename_i hold
        rw [if_pos hold] at hstep
        rw [← hstep] at hroom ⊢
        exact ih (past ++ [item]) hroom
      · rename_i hnew
        rw [if_neg hnew] at hstep
        rw [← hstep]
        split
        · rename_i hfull
          rw [take_firsts_append hfull, List.take_of_length_le]
          rw [hstep, List.length_append, List.length_singleton]
          exact hroom
        · rename_i hmore
          exact ih (past ++ [item]) (Nat.lt_of_not_le hmore)

theorem split_concat_iff {items : List α} {last item : α} {P : List α → Prop} :
    (∃ before after, items ++ [last] = before ++ item :: after ∧ P before) ↔
      (∃ before after, items = before ++ item :: after ∧ P before) ∨ item = last ∧ P items := by
  constructor
  · rintro ⟨before, after, hsplit, hP⟩
    rcases List.eq_nil_or_concat' after with rfl | ⟨after, other, rfl⟩
    · obtain ⟨rfl, hlast⟩ := List.append_inj' hsplit rfl
      exact Or.inr ⟨(List.singleton_inj.mp hlast).symm, hP⟩
    · rw [← List.cons_append, ← List.append_assoc] at hsplit
      exact Or.inl ⟨before, after, (List.append_inj' hsplit rfl).1, hP⟩
  · rintro (⟨before, after, rfl, hP⟩ | ⟨rfl, hP⟩)
    · exact ⟨before, after ++ [last], by simp, hP⟩
    · exact ⟨items, [], rfl, hP⟩

theorem mem_take_firsts_iff {limit : Nat} {items : List α} {item : α} :
    item ∈ (firsts key items).take limit ↔ Picked key limit items item := by
  unfold Picked
  induction items using List.reverseRecOn with
  | nil => simp [firsts]
  | append_singleton items last ih =>
      rw [split_concat_iff, ← ih, ← length_firsts, ← mem_map_firsts, firsts_append_singleton]
      split
      · rename_i hold
        refine (or_iff_left ?_).symm
        rintro ⟨rfl, hnew, -⟩
        exact hnew hold
      · rename_i hnew
        rw [List.take_append, List.mem_append]
        apply or_congr_right
        rcases Nat.lt_or_ge (firsts key items).length limit with hroom | hfull
        · rw [List.take_of_length_le (by simp; omega), List.mem_singleton]
          constructor
          · rintro rfl
            exact ⟨rfl, hnew, hroom⟩
          · exact fun h => h.1
        · rw [Nat.sub_eq_zero_of_le hfull, List.take_zero]
          simp [Nat.not_lt_of_le hfull]

theorem keepFirsts_nil {limit : Nat} (hlimit : 0 < limit) (items : List α) :
    keepFirsts key limit [] items = (firsts key items).take limit :=
  keepFirsts_eq items [] hlimit

/-- An item that stands before one that is picked is picked, or one of its key is. -/
theorem exists_picked {limit : Nat} {before : List α} (after : List α) {other : α}
    (hfew : (before.map key).toFinset.card < limit) (hother : other ∈ before) :
    ∃ item ∈ before, Picked key limit (before ++ after) item ∧ key item = key other := by
  have hfirst : key other ∈ (firsts key before).map key :=
    mem_map_firsts.mpr (List.mem_map_of_mem hother)
  obtain ⟨item, hitem, hsame⟩ := List.mem_map.mp hfirst
  rw [← length_firsts] at hfew
  have hkept : item ∈ (firsts key before).take limit := by
    rwa [List.take_of_length_le hfew.le]
  obtain ⟨earlier, later, hsplit, hnew, hroom⟩ := mem_take_firsts_iff.mp hkept
  exact ⟨item, (firsts_sublist before).subset hitem,
    ⟨earlier, later ++ after, by rw [hsplit]; simp, hnew, hroom⟩, hsame⟩

theorem nodup_map_take_firsts (limit : Nat) (items : List α) :
    (((firsts key items).take limit).map key).Nodup :=
  (nodup_map_firsts items).sublist ((List.take_sublist _ _).map key)

/-- Behind so many keys nothing is picked any more. -/
theorem full_iff {limit : Nat} {before rest : List α} :
    limit ≤ (before.map key).toFinset.card ↔
      ((firsts key (before ++ rest)).take limit).length = limit ∧
        ∀ other ∈ (firsts key (before ++ rest)).take limit, other ∈ before := by
  rw [← length_firsts]
  constructor
  · intro hfull
    rw [take_firsts_append hfull]
    refine ⟨List.length_take_of_le hfull, ?_⟩
    intro other hother
    exact (firsts_sublist before).subset (List.mem_of_mem_take hother)
  · rintro ⟨hlength, hbefore⟩
    have hsubset : (((firsts key (before ++ rest)).take limit).map key).toFinset ⊆
        (before.map key).toFinset := by
      intro k hk
      obtain ⟨other, hother, rfl⟩ := List.mem_map.mp (List.mem_toFinset.mp hk)
      exact List.mem_toFinset.mpr (List.mem_map_of_mem (hbefore other hother))
    have hcard := Finset.card_le_card hsubset
    rwa [List.toFinset_card_of_nodup (nodup_map_take_firsts limit _), List.length_map, hlength,
      ← length_firsts] at hcard

end Firsts

section Agreement

/-- The items that were kept are of different sites, and each item is kept, or is of the
site of one that was kept before it, or stands behind a full number of those. -/
structure OncePer (site : α → σ) (limit : Nat) (items kept : List α) : Prop where
  once : kept.Pairwise fun a b => site a ≠ site b
  covered : ∀ before item after, items = before ++ item :: after →
    item ∈ kept ∨ (∃ other ∈ kept, other ∈ before ∧ site other = site item) ∨
      kept.length = limit ∧ ∀ other ∈ kept, other ∈ before

/-- Within the limit, a key repeats where a site does. -/
def Agree (key : α → κ) (site : α → σ) (limit : Nat) (items : List α) : Prop :=
  ∀ before item after, items = before ++ item :: after →
    (before.map key).toFinset.card < limit →
      (key item ∈ before.map key ↔ site item ∈ before.map site)

variable {key : α → κ} {site : α → σ} {limit : Nat}

theorem compare_splits {before after before' after' : List α} {a b : α}
    (h : before ++ a :: after = before' ++ b :: after') :
    a ∈ before' ∨ b ∈ before ∨ before = before' ∧ a = b := by
  rcases List.append_eq_append_iff.mp h with ⟨between, hlonger, hrest⟩ | ⟨between, hlonger, hrest⟩
  · cases between with
    | nil => exact Or.inr (Or.inr ⟨by simpa using hlonger.symm, (List.cons.inj hrest).1⟩)
    | cons first rest =>
        obtain ⟨rfl, -⟩ := List.cons.inj hrest
        exact Or.inl (by simp [hlonger])
  · cases between with
    | nil => exact Or.inr (Or.inr ⟨by simpa using hlonger, (List.cons.inj hrest).1.symm⟩)
    | cons first rest =>
        obtain ⟨rfl, -⟩ := List.cons.inj hrest
        exact Or.inr (Or.inl (by simp [hlonger]))

/-- The first of a site among the items. -/
theorem exists_first [DecidableEq σ] {before : List α} {s : σ} (h : s ∈ before.map site) :
    ∃ earlier item later, before = earlier ++ item :: later ∧ site item = s ∧
      s ∉ earlier.map site := by
  obtain ⟨names, others, hsplit, hfirst⟩ := List.eq_append_cons_of_mem h
  obtain ⟨earlier, rest, rfl, rfl, hrest⟩ := List.map_eq_append_iff.mp hsplit
  obtain ⟨item, later, rfl, hitem, -⟩ := List.map_eq_cons_iff.mp hrest
  exact ⟨earlier, item, later, rfl, hitem, hfirst⟩

theorem card_le_of_append (earlier later : List α) :
    (earlier.map key).toFinset.card ≤ ((earlier ++ later).map key).toFinset.card := by
  apply Finset.card_le_card
  rw [List.map_append, List.toFinset_append]
  exact Finset.subset_union_left

theorem agree_of_oncePer {items : List α}
    (h : OncePer site limit items ((firsts key items).take limit)) :
    Agree key site limit items := by
  intro before item after hsplit hfew
  have hnotfull : ¬ (((firsts key items).take limit).length = limit ∧
      ∀ other ∈ (firsts key items).take limit, other ∈ before) := by
    rw [hsplit, ← full_iff]
    omega
  constructor
  · intro hold
    rcases h.covered before item after hsplit with hkept | ⟨other, -, hother, hsame⟩ | hfull
    · obtain ⟨earlier, later, hsplit', hnew, -⟩ := mem_take_firsts_iff.mp hkept
      rcases compare_splits (hsplit.symm.trans hsplit') with hmem | hmem | ⟨rfl, -⟩
      · exact absurd (List.mem_map_of_mem hmem) hnew
      · exact List.mem_map_of_mem hmem
      · exact absurd hold hnew
    · exact List.mem_map.mpr ⟨other, hother, hsame⟩
    · exact absurd hfull hnotfull
  · intro hsite
    by_contra hnew
    have hkept : item ∈ (firsts key items).take limit :=
      mem_take_firsts_iff.mpr ⟨before, after, hsplit, hnew, hfew⟩
    obtain ⟨first, hfirst, hsame⟩ := List.mem_map.mp hsite
    obtain ⟨earlier, later, hbefore⟩ := List.append_of_mem hfirst
    -- one of the same site was kept before
    have hother : ∃ other ∈ (firsts key items).take limit, other ∈ before ∧
        site other = site first := by
      rcases h.covered earlier first (later ++ item :: after)
          (by rw [hsplit, hbefore]; simp) with hfirst' | ⟨other, hother, hmem, hsite⟩ | hfull
      · exact ⟨first, hfirst', hfirst, rfl⟩
      · exact ⟨other, hother, by simp [hbefore, hmem], hsite⟩
      · refine absurd ⟨hfull.1, fun other hother => ?_⟩ hnotfull
        simp [hbefore, hfull.2 other hother]
    obtain ⟨other, hother, hmem, hsite⟩ := hother
    have hne : other ≠ item := by
      rintro rfl
      exact hnew (List.mem_map_of_mem hmem)
    have hsymm : Std.Symm fun a b => site a ≠ site b := ⟨fun _ _ hab => hab.symm⟩
    exact h.once.forall hother hkept hne (hsite.trans hsame)

theorem oncePer_of_agree [DecidableEq σ] {items : List α} (h : Agree key site limit items) :
    OncePer site limit items ((firsts key items).take limit) := by
  constructor
  · have hnodup : ((firsts key items).take limit).Nodup := (nodup_map_take_firsts limit _).of_map
    refine hnodup.pairwise_of_forall_ne ?_
    intro a ha b hb hne hsame
    obtain ⟨before, after, hsplit, hnew, hfew⟩ := mem_take_firsts_iff.mp ha
    obtain ⟨before', after', hsplit', hnew', hfew'⟩ := mem_take_firsts_iff.mp hb
    rcases compare_splits (hsplit.symm.trans hsplit') with hmem | hmem | ⟨-, heq⟩
    · exact hnew' ((h before' b after' hsplit' hfew').mpr (List.mem_map.mpr ⟨a, hmem, hsame⟩))
    · exact hnew ((h before a after hsplit hfew).mpr (List.mem_map.mpr ⟨b, hmem, hsame.symm⟩))
    · exact hne heq
  · intro before item after hsplit
    rcases Nat.lt_or_ge (before.map key).toFinset.card limit with hfew | hfull
    · by_cases hold : key item ∈ before.map key
      · obtain ⟨earlier, first, later, hbefore, hsame, hfirst⟩ :=
          exists_first ((h before item after hsplit hfew).mp hold)
        have hsplit' : items = earlier ++ first :: (later ++ item :: after) := by
          rw [hsplit, hbefore]
          simp
        have hfew' : (earlier.map key).toFinset.card < limit := by
          apply lt_of_le_of_lt _ hfew
          rw [hbefore]
          exact card_le_of_append earlier _
        have hnew : key first ∉ earlier.map key := by
          rw [h earlier first _ hsplit' hfew', hsame]
          exact hfirst
        exact Or.inr (Or.inl ⟨first, mem_take_firsts_iff.mpr ⟨_, _, hsplit', hnew, hfew'⟩,
          by simp [hbefore], hsame⟩)
      · exact Or.inl (mem_take_firsts_iff.mpr ⟨before, after, hsplit, hold, hfew⟩)
    · rw [hsplit]
      exact Or.inr (Or.inr (full_iff.mp hfull))

/-- The first of each key is the first of each site exactly when the two repeat together. -/
theorem oncePer_iff [DecidableEq σ] {items : List α} :
    OncePer site limit items ((firsts key items).take limit) ↔ Agree key site limit items :=
  ⟨agree_of_oncePer, oncePer_of_agree⟩

end Agreement

end SeoPlatform.Foundation.FirstOfEach
