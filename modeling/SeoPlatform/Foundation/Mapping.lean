import Mathlib.Data.List.Induction
import Mathlib.Data.List.Lookmap
import Mathlib.Data.List.Nodup

namespace SeoPlatform.Foundation.Mapping

/-- What is kept by key, in the order in which the keys first came. -/
structure Dictionary (κ ν : Type) where
  entries : List (κ × ν)
  distinct : (entries.map Prod.fst).Nodup

variable {κ ν μ : Type}

namespace Dictionary

def empty : Dictionary κ ν := ⟨[], .nil⟩

def keys (d : Dictionary κ ν) : List κ := d.entries.map Prod.fst

def values (d : Dictionary κ ν) : List ν := d.entries.map Prod.snd

theorem eq_of_entries {d e : Dictionary κ ν} (h : d.entries = e.entries) : d = e := by
  cases d
  cases e
  cases h
  rfl

theorem nodup_keys (d : Dictionary κ ν) : d.keys.Nodup := d.distinct

/-- One value for every key. -/
def fromKeys (keys : List κ) (h : keys.Nodup) (value : ν) : Dictionary κ ν where
  entries := keys.map fun key => (key, value)
  distinct := by
    rw [List.map_map]
    simpa [Function.comp_def] using h

@[simp] theorem keys_fromKeys (keys : List κ) (h : keys.Nodup) (value : ν) :
    (fromKeys keys h value).keys = keys := by
  simp [fromKeys, Dictionary.keys, Function.comp_def]

/-- The keys keep, and the values change by their keys. -/
def mapValues (d : Dictionary κ ν) (f : κ → ν → μ) : Dictionary κ μ where
  entries := d.entries.map fun entry => (entry.1, f entry.1 entry.2)
  distinct := by
    rw [List.map_map]
    exact d.distinct

@[simp] theorem keys_mapValues (d : Dictionary κ ν) (f : κ → ν → μ) :
    (d.mapValues f).keys = d.keys := by
  simp [mapValues, keys, Function.comp_def]

theorem values_mapValues (d : Dictionary κ ν) (f : ν → μ) :
    (d.mapValues fun _ value => f value).values = d.values.map f := by
  simp [mapValues, values, Function.comp_def]

variable [DecidableEq κ]

def get? (d : Dictionary κ ν) (key : κ) : Option ν := d.entries.lookup key

/-- Write over what is kept under a key, or put it behind the others. -/
def setIn : List (κ × ν) → κ → ν → List (κ × ν)
  | [], key, value => [(key, value)]
  | (name, other) :: rest, key, value =>
      if name = key then (name, value) :: rest else (name, other) :: setIn rest key value

theorem map_fst_setIn (entries : List (κ × ν)) (key : κ) (value : ν) :
    (setIn entries key value).map Prod.fst =
      if key ∈ entries.map Prod.fst then entries.map Prod.fst
      else entries.map Prod.fst ++ [key] := by
  induction entries with
  | nil => rfl
  | cons entry rest ih =>
      obtain ⟨name, other⟩ := entry
      unfold setIn
      by_cases hname : name = key
      · subst hname
        rw [if_pos rfl, if_pos (by simp)]
        rfl
      · rw [if_neg hname, List.map_cons, ih]
        by_cases hmem : key ∈ rest.map Prod.fst
        · rw [if_pos hmem, if_pos (by simp [hmem])]
          rfl
        · have hnot : key ∉ ((name, other) :: rest).map Prod.fst := by
            rw [List.map_cons, List.mem_cons, not_or]
            exact ⟨Ne.symm hname, hmem⟩
          rw [if_neg hmem, if_neg hnot]
          rfl

def set (d : Dictionary κ ν) (key : κ) (value : ν) : Dictionary κ ν where
  entries := setIn d.entries key value
  distinct := by
    rw [map_fst_setIn]
    split
    · exact d.distinct
    · rename_i hnew
      exact List.nodup_append.mpr ⟨d.distinct, List.nodup_singleton _, by
        rintro a ha b hb rfl
        rw [List.mem_singleton] at hb
        exact hnew (hb ▸ ha)⟩

theorem keys_set (d : Dictionary κ ν) (key : κ) (value : ν) :
    (d.set key value).keys = if key ∈ d.keys then d.keys else d.keys ++ [key] :=
  map_fst_setIn d.entries key value

theorem mem_keys_set {d : Dictionary κ ν} {key other : κ} {value : ν} :
    other ∈ (d.set key value).keys ↔ other ∈ d.keys ∨ other = key := by
  rw [keys_set]
  split
  · rename_i hmem
    refine (or_iff_left_of_imp ?_).symm
    rintro rfl
    exact hmem
  · rw [List.mem_append, List.mem_singleton]

theorem lookup_setIn (entries : List (κ × ν)) (key : κ) (value : ν) (other : κ) :
    (setIn entries key value).lookup other =
      if other = key then some value else entries.lookup other := by
  induction entries with
  | nil =>
      unfold setIn
      rw [List.lookup_cons]
      by_cases h : other = key
      · simp [h]
      · simp [h, beq_false_of_ne h]
  | cons entry rest ih =>
      obtain ⟨name, held⟩ := entry
      unfold setIn
      by_cases hname : name = key
      · subst hname
        rw [if_pos rfl, List.lookup_cons, List.lookup_cons]
        by_cases h : other = name
        · simp [h]
        · simp [h, beq_false_of_ne h]
      · rw [if_neg hname, List.lookup_cons, List.lookup_cons, ih]
        by_cases h : other = name
        · subst h
          simp [hname]
        · simp [beq_false_of_ne h]

theorem get?_set (d : Dictionary κ ν) (key : κ) (value : ν) (other : κ) :
    (d.set key value).get? other = if other = key then some value else d.get? other :=
  lookup_setIn d.entries key value other

theorem lookup_eq_some_iff {entries : List (κ × ν)} (h : (entries.map Prod.fst).Nodup) (key : κ)
    (value : ν) : entries.lookup key = some value ↔ (key, value) ∈ entries := by
  induction entries with
  | nil => simp
  | cons entry rest ih =>
      obtain ⟨name, held⟩ := entry
      obtain ⟨hnew, hrest⟩ := List.nodup_cons.mp h
      rw [List.lookup_cons, List.mem_cons, Prod.mk.injEq]
      by_cases hkey : key = name
      · subst hkey
        simp only [beq_self_eq_true, Option.some.injEq, true_and]
        refine ⟨fun heq => .inl heq.symm, ?_⟩
        rintro (rfl | hmem)
        · rfl
        · exact absurd (List.mem_map_of_mem hmem) hnew
      · simp only [beq_false_of_ne hkey, hkey, false_and, false_or]
        exact ih hrest

/-- A key has the one value that is kept with it. -/
theorem get?_eq_some_iff {d : Dictionary κ ν} {key : κ} {value : ν} :
    d.get? key = some value ↔ (key, value) ∈ d.entries :=
  lookup_eq_some_iff d.distinct key value

theorem mem_keys_iff {d : Dictionary κ ν} {key : κ} :
    key ∈ d.keys ↔ ∃ value, d.get? key = some value := by
  unfold keys
  rw [List.mem_map]
  constructor
  · rintro ⟨⟨key, value⟩, hmem, rfl⟩
    exact ⟨value, get?_eq_some_iff.mpr hmem⟩
  · rintro ⟨value, h⟩
    exact ⟨(key, value), get?_eq_some_iff.mp h, rfl⟩

/-- After a write there is what was written, and else only what was there. -/
theorem mem_entries_set {d : Dictionary κ ν} {key : κ} {value : ν} {entry : κ × ν}
    (h : entry ∈ (d.set key value).entries) : entry = (key, value) ∨ entry ∈ d.entries := by
  have hget := get?_eq_some_iff.mpr (show (entry.1, entry.2) ∈ _ from h)
  rw [get?_set] at hget
  split at hget
  · rename_i hkey
    exact .inl (Prod.ext hkey (Option.some.inj hget).symm)
  · exact .inr (get?_eq_some_iff.mp hget)

/-- Drop what is kept under a key. -/
def erase (d : Dictionary κ ν) (key : κ) : Dictionary κ ν where
  entries := d.entries.filter fun entry => entry.1 ≠ key
  distinct := d.distinct.sublist (List.filter_sublist.map Prod.fst)

theorem mem_entries_erase {d : Dictionary κ ν} {key : κ} {entry : κ × ν} :
    entry ∈ (d.erase key).entries ↔ entry ∈ d.entries ∧ entry.1 ≠ key := by
  unfold erase
  rw [List.mem_filter, decide_eq_true_eq]

theorem get?_fromKeys {keys : List κ} (h : keys.Nodup) {value : ν} {key : κ} (hkey : key ∈ keys) :
    (fromKeys keys h value).get? key = some value :=
  get?_eq_some_iff.mpr (List.mem_map.mpr ⟨key, hkey, rfl⟩)

/-- Pairs one after the other, the later ones over the earlier ones. -/
def ofPairs (pairs : List (κ × ν)) : Dictionary κ ν :=
  pairs.foldl (fun d pair => d.set pair.1 pair.2) empty

theorem setIn_of_notMem {entries : List (κ × ν)} {key : κ} (h : key ∉ entries.map Prod.fst)
    (value : ν) : setIn entries key value = entries ++ [(key, value)] := by
  induction entries with
  | nil => rfl
  | cons entry rest ih =>
      obtain ⟨name, other⟩ := entry
      rw [List.map_cons, List.mem_cons, not_or] at h
      unfold setIn
      rw [if_neg (Ne.symm h.1), ih h.2]
      rfl

theorem entries_foldl_set (pairs : List (κ × ν)) (d : Dictionary κ ν)
    (h : (d.keys ++ pairs.map Prod.fst).Nodup) :
    (pairs.foldl (fun d pair => d.set pair.1 pair.2) d).entries = d.entries ++ pairs := by
  induction pairs generalizing d with
  | nil => exact (List.append_nil _).symm
  | cons pair rest ih =>
      have hnew : pair.1 ∉ d.keys := by
        intro hmem
        exact (List.nodup_append.mp h).2.2 _ hmem _ List.mem_cons_self rfl
      have hset : (d.set pair.1 pair.2).entries = d.entries ++ [pair] :=
        setIn_of_notMem hnew pair.2
      rw [List.foldl_cons, ih, hset, List.append_assoc]
      · rfl
      · rw [keys_set, if_neg hnew, List.append_assoc]
        exact h

/-- Nothing is written over where the keys differ. -/
theorem entries_ofPairs {pairs : List (κ × ν)} (h : (pairs.map Prod.fst).Nodup) :
    (ofPairs pairs).entries = pairs :=
  entries_foldl_set pairs empty h

@[simp] theorem ofPairs_entries (d : Dictionary κ ν) : ofPairs d.entries = d :=
  eq_of_entries (entries_ofPairs d.distinct)

/-- The last pair of a key is what it leads to. -/
theorem get?_ofPairs (pairs : List (κ × ν)) (key : κ) :
    (ofPairs pairs).get? key = pairs.reverse.lookup key := by
  unfold ofPairs
  induction pairs using List.reverseRecOn with
  | nil => rfl
  | append_singleton pairs pair ih =>
      rw [List.foldl_concat, get?_set, ih, List.reverse_concat, List.lookup_cons]
      by_cases hkey : key = pair.1
      · rw [if_pos hkey, beq_iff_eq.mpr hkey]
      · rw [if_neg hkey, beq_eq_false_iff_ne.mpr hkey]

/-- Where each item stands under its own key, the first of the key is found. -/
theorem lookup_map_keyed {f : ν → κ} (items : List ν) (key : κ) :
    (items.map fun item => (f item, item)).lookup key =
      items.find? fun item => decide (f item = key) := by
  induction items with
  | nil => rfl
  | cons item rest ih =>
      rw [List.map_cons, List.lookup_cons, List.find?_cons, ih]
      by_cases hkey : key = f item
      · rw [beq_iff_eq.mpr hkey, decide_eq_true hkey.symm]
      · rw [beq_eq_false_iff_ne.mpr hkey, decide_eq_false (Ne.symm hkey)]

theorem mem_keys_ofPairs {pairs : List (κ × ν)} {key : κ} :
    key ∈ (ofPairs pairs).keys ↔ key ∈ pairs.map Prod.fst := by
  have hfold : ∀ d : Dictionary κ ν,
      key ∈ (pairs.foldl (fun d pair => d.set pair.1 pair.2) d).keys ↔
        key ∈ d.keys ∨ key ∈ pairs.map Prod.fst := by
    induction pairs with
    | nil => simp
    | cons pair rest ih =>
        intro d
        rw [List.foldl_cons, ih, mem_keys_set, List.map_cons, List.mem_cons, or_assoc]
  have hempty : key ∉ (empty : Dictionary κ ν).keys := List.not_mem_nil
  unfold ofPairs
  rw [hfold, or_iff_right hempty]

theorem mem_entries_ofPairs {pairs : List (κ × ν)} {entry : κ × ν}
    (h : entry ∈ (ofPairs pairs).entries) : entry ∈ pairs := by
  have hfold : ∀ d : Dictionary κ ν,
      entry ∈ (pairs.foldl (fun d pair => d.set pair.1 pair.2) d).entries →
        entry ∈ d.entries ∨ entry ∈ pairs := by
    clear h
    induction pairs with
    | nil => exact fun d h => .inl h
    | cons pair rest ih =>
        intro d h
        rw [List.foldl_cons] at h
        rcases ih _ h with hset | hrest
        · rcases mem_entries_set hset with rfl | hold
          · exact .inr List.mem_cons_self
          · exact .inl hold
        · exact .inr (List.mem_cons_of_mem _ hrest)
  exact (hfold empty h).resolve_left List.not_mem_nil

end Dictionary

end SeoPlatform.Foundation.Mapping
