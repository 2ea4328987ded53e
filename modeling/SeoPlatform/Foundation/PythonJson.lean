import SeoPlatform.Foundation.JsonValue
import SeoPlatform.Foundation.Mapping

namespace SeoPlatform.Foundation.PythonJson

open SeoPlatform.Foundation.JsonValue
open SeoPlatform.Foundation.Mapping

/-- A key that `json.dumps` takes. -/
inductive Key where
  | str (s : String)
  | int (n : Int)
  | float (q : Rat)
  | bool (b : Bool)
  | none
  deriving DecidableEq

/-- A value that `json.dumps` takes. -/
inductive Value where
  | none
  | bool (b : Bool)
  | int (n : Int)
  | float (q : Rat)
  | str (s : String)
  | list (items : List Value)
  | tuple (items : List Value)
  | dict (entries : List (Key × Value))

instance : Inhabited Value := ⟨.none⟩

section Coding

/-- The name that a key becomes. `repr` is that of a float. -/
def Key.text (repr : Rat → String) : Key → String
  | .str s => s
  | .int n => toString n
  | .float q => repr q
  | .bool b => if b then "true" else "false"
  | .none => "null"

variable (repr : Rat → String)

mutual

/-- The document that `json.dumps` writes. -/
def dumps : Value → Json
  | .none => .null
  | .bool b => .bool b
  | .int n => .int n
  | .float q => .float q
  | .str s => .str s
  | .list items => .arr (dumpsAll items)
  | .tuple items => .arr (dumpsAll items)
  | .dict entries => .obj (dumpsEntries entries)

def dumpsAll : List Value → List Json
  | [] => []
  | v :: rest => dumps v :: dumpsAll rest

def dumpsEntries : List (Key × Value) → List (String × Json)
  | [] => []
  | (key, v) :: rest => (key.text repr, dumps v) :: dumpsEntries rest

end

mutual

/-- The value that `json.loads` reads. Of the fields of one name it keeps the last. -/
def loads : Json → Value
  | .null => .none
  | .bool b => .bool b
  | .int n => .int n
  | .float q => .float q
  | .str s => .str s
  | .arr items => .list (loadsAll items)
  | .obj fields => .dict (Dictionary.ofPairs (loadsFields fields)).entries

def loadsAll : List Json → List Value
  | [] => []
  | v :: rest => loads v :: loadsAll rest

def loadsFields : List (String × Json) → List (Key × Value)
  | [] => []
  | (name, v) :: rest => (.str name, loads v) :: loadsFields rest

end

end Coding

section Predicates

/-- Nothing but texts as keys, and no tuples. -/
inductive Plain : Value → Prop
  | none : Plain .none
  | bool (b : Bool) : Plain (.bool b)
  | int (n : Int) : Plain (.int n)
  | float (q : Rat) : Plain (.float q)
  | str (s : String) : Plain (.str s)
  | list {items : List Value} (h : ∀ v ∈ items, Plain v) : Plain (.list items)
  | dict {entries : List (Key × Value)} (hkeys : ∀ entry ∈ entries, ∃ s, entry.1 = .str s)
      (h : ∀ entry ∈ entries, Plain entry.2) : Plain (.dict entries)

/-- Each dictionary has a key once. -/
inductive Distinct : Value → Prop
  | none : Distinct .none
  | bool (b : Bool) : Distinct (.bool b)
  | int (n : Int) : Distinct (.int n)
  | float (q : Rat) : Distinct (.float q)
  | str (s : String) : Distinct (.str s)
  | list {items : List Value} (h : ∀ v ∈ items, Distinct v) : Distinct (.list items)
  | tuple {items : List Value} (h : ∀ v ∈ items, Distinct v) : Distinct (.tuple items)
  | dict {entries : List (Key × Value)} (hkeys : (entries.map Prod.fst).Nodup)
      (h : ∀ entry ∈ entries, Distinct entry.2) : Distinct (.dict entries)

theorem plain_list_iff {items : List Value} : Plain (.list items) ↔ ∀ v ∈ items, Plain v := by
  constructor
  · intro h
    cases h with
    | list h => exact h
  · exact Plain.list

theorem plain_dict_iff {entries : List (Key × Value)} :
    Plain (.dict entries) ↔ ∀ entry ∈ entries, (∃ s, entry.1 = .str s) ∧ Plain entry.2 := by
  constructor
  · intro h entry hentry
    cases h with
    | dict hkeys h => exact ⟨hkeys entry hentry, h entry hentry⟩
  · exact fun h => .dict (fun entry hentry => (h entry hentry).1) fun entry hentry =>
      (h entry hentry).2

end Predicates

section RoundTrip

variable {repr : Rat → String}

theorem text_eq_iff {key : Key} : Key.str (key.text repr) = key ↔ ∃ s, key = .str s := by
  constructor
  · exact fun h => ⟨_, h.symm⟩
  · rintro ⟨s, rfl⟩
    rfl

/-- Keys that are texts become themselves. -/
theorem keys_loadsFields {entries : List (Key × Value)}
    (h : ∀ entry ∈ entries, ∃ s, entry.1 = .str s) :
    (loadsFields (dumpsEntries repr entries)).map Prod.fst = entries.map Prod.fst := by
  induction entries with
  | nil => rfl
  | cons entry rest ih =>
      obtain ⟨key, v⟩ := entry
      rw [List.forall_mem_cons] at h
      obtain ⟨⟨s, rfl⟩, hrest⟩ := h
      rw [dumpsEntries, loadsFields, List.map_cons, List.map_cons, ih hrest]
      rfl

theorem exists_str_of_mem_loadsFields {fields : List (String × Json)} {entry : Key × Value}
    (h : entry ∈ loadsFields fields) : ∃ s, entry.1 = .str s := by
  induction fields with
  | nil => cases h
  | cons field rest ih =>
      obtain ⟨name, v⟩ := field
      rw [loadsFields, List.mem_cons] at h
      rcases h with rfl | hrest
      · exact ⟨name, rfl⟩
      · exact ih hrest

mutual

/-- A value is read back as it was written exactly when it is plain. -/
theorem loads_dumps_iff (v : Value) (h : Distinct v) : loads (dumps repr v) = v ↔ Plain v := by
  cases v with
  | none => exact iff_of_true rfl .none
  | bool b => exact iff_of_true rfl (.bool b)
  | int n => exact iff_of_true rfl (.int n)
  | float q => exact iff_of_true rfl (.float q)
  | str s => exact iff_of_true rfl (.str s)
  | list items =>
      cases h with
      | list h =>
          rw [dumps, loads, Value.list.injEq, plain_list_iff]
          exact loadsAll_dumpsAll_iff items h
  | tuple items =>
      refine iff_of_false ?_ ?_
      · rw [dumps, loads]
        exact Value.noConfusion
      · rintro ⟨⟩
  | dict entries =>
      cases h with
      | dict hkeys h =>
          have hentries := loadsFields_dumpsEntries_iff entries h
          rw [dumps, loads, Value.dict.injEq, plain_dict_iff, ← hentries]
          constructor
          · intro hread
            have htexts : ∀ entry ∈ entries, ∃ s, entry.1 = .str s := by
              intro entry hentry
              rw [← hread] at hentry
              exact exists_str_of_mem_loadsFields (Dictionary.mem_entries_ofPairs hentry)
            rwa [Dictionary.entries_ofPairs] at hread
            rwa [keys_loadsFields htexts]
          · intro hread
            rw [hread]
            exact Dictionary.entries_ofPairs hkeys

theorem loadsAll_dumpsAll_iff (items : List Value) (h : ∀ v ∈ items, Distinct v) :
    loadsAll (dumpsAll repr items) = items ↔ ∀ v ∈ items, Plain v := by
  cases items with
  | nil => exact iff_of_true rfl (List.forall_mem_nil _)
  | cons v rest =>
      rw [List.forall_mem_cons] at h
      rw [dumpsAll, loadsAll, List.cons.injEq, List.forall_mem_cons, loads_dumps_iff v h.1,
        loadsAll_dumpsAll_iff rest h.2]

theorem loadsFields_dumpsEntries_iff (entries : List (Key × Value))
    (h : ∀ entry ∈ entries, Distinct entry.2) :
    loadsFields (dumpsEntries repr entries) = entries ↔
      ∀ entry ∈ entries, (∃ s, entry.1 = .str s) ∧ Plain entry.2 := by
  cases entries with
  | nil => exact iff_of_true rfl (List.forall_mem_nil _)
  | cons entry rest =>
      obtain ⟨key, v⟩ := entry
      rw [List.forall_mem_cons] at h
      rw [dumpsEntries, loadsFields, List.cons.injEq, Prod.mk.injEq, List.forall_mem_cons,
        loads_dumps_iff v h.1, loadsFields_dumpsEntries_iff rest h.2, text_eq_iff]

end

mutual

/-- What is read is plain. -/
theorem plain_loads (doc : Json) : Plain (loads doc) := by
  cases doc with
  | null => exact .none
  | bool b => exact .bool b
  | int n => exact .int n
  | float q => exact .float q
  | str s => exact .str s
  | arr items => exact .list (plain_loadsAll items)
  | obj fields =>
      refine .dict ?_ ?_
      · intro entry hentry
        exact exists_str_of_mem_loadsFields (Dictionary.mem_entries_ofPairs hentry)
      · intro entry hentry
        exact plain_loadsFields fields entry (Dictionary.mem_entries_ofPairs hentry)

theorem plain_loadsAll (items : List Json) : ∀ v ∈ loadsAll items, Plain v := by
  cases items with
  | nil => exact List.forall_mem_nil _
  | cons v rest => exact List.forall_mem_cons.mpr ⟨plain_loads v, plain_loadsAll rest⟩

theorem plain_loadsFields (fields : List (String × Json)) :
    ∀ entry ∈ loadsFields fields, Plain entry.2 := by
  cases fields with
  | nil => exact List.forall_mem_nil _
  | cons field rest =>
      obtain ⟨name, v⟩ := field
      exact List.forall_mem_cons.mpr ⟨plain_loads v, plain_loadsFields rest⟩

end

mutual

theorem distinct_loads (doc : Json) : Distinct (loads doc) := by
  cases doc with
  | null => exact .none
  | bool b => exact .bool b
  | int n => exact .int n
  | float q => exact .float q
  | str s => exact .str s
  | arr items => exact .list (distinct_loadsAll items)
  | obj fields =>
      refine .dict (Dictionary.ofPairs (loadsFields fields)).distinct ?_
      intro entry hentry
      exact distinct_loadsFields fields entry (Dictionary.mem_entries_ofPairs hentry)

theorem distinct_loadsAll (items : List Json) : ∀ v ∈ loadsAll items, Distinct v := by
  cases items with
  | nil => exact List.forall_mem_nil _
  | cons v rest => exact List.forall_mem_cons.mpr ⟨distinct_loads v, distinct_loadsAll rest⟩

theorem distinct_loadsFields (fields : List (String × Json)) :
    ∀ entry ∈ loadsFields fields, Distinct entry.2 := by
  cases fields with
  | nil => exact List.forall_mem_nil _
  | cons field rest =>
      obtain ⟨name, v⟩ := field
      exact List.forall_mem_cons.mpr ⟨distinct_loads v, distinct_loadsFields rest⟩

end

end RoundTrip

section Building

/-- The entries of a dictionary whose keys are texts. -/
def named (fields : List (String × Value)) : List (Key × Value) :=
  fields.map fun field => (.str field.1, field.2)

/-- What is read back as it is written. -/
structure Kept (v : Value) : Prop where
  plain : Plain v
  distinct : Distinct v

theorem plain_named_iff {fields : List (String × Value)} :
    Plain (.dict (named fields)) ↔ ∀ field ∈ fields, Plain field.2 := by
  rw [plain_dict_iff]
  unfold named
  rw [List.forall_mem_map]
  exact forall₂_congr fun field _ => and_iff_right ⟨field.1, rfl⟩

theorem distinct_named {fields : List (String × Value)} (hnames : (fields.map Prod.fst).Nodup)
    (h : ∀ field ∈ fields, Distinct field.2) : Distinct (.dict (named fields)) := by
  refine .dict ?_ (List.forall_mem_map.mpr h)
  unfold named
  rw [List.map_map]
  have hkeys : (fields.map Prod.fst).map Key.str =
      fields.map (Prod.fst ∘ fun field : String × Value => (Key.str field.1, field.2)) := by
    rw [List.map_map]
    rfl
  rw [← hkeys]
  exact hnames.map fun _ _ => Key.str.inj

theorem kept_named {fields : List (String × Value)} (hnames : (fields.map Prod.fst).Nodup)
    (h : ∀ field ∈ fields, Kept field.2) : Kept (.dict (named fields)) where
  plain := plain_named_iff.mpr fun field hfield => (h field hfield).plain
  distinct := distinct_named hnames fun field hfield => (h field hfield).distinct

theorem kept_map {α : Type} {make : α → Value} {items : List α}
    (h : ∀ item ∈ items, Kept (make item)) : Kept (.list (items.map make)) where
  plain := .list (List.forall_mem_map.mpr fun item hitem => (h item hitem).plain)
  distinct := .list (List.forall_mem_map.mpr fun item hitem => (h item hitem).distinct)

theorem kept_bool (b : Bool) : Kept (.bool b) := ⟨.bool b, .bool b⟩

theorem kept_int (n : Int) : Kept (.int n) := ⟨.int n, .int n⟩

theorem kept_float (q : Rat) : Kept (.float q) := ⟨.float q, .float q⟩

theorem kept_str (s : String) : Kept (.str s) := ⟨.str s, .str s⟩

theorem kept_loads (doc : Json) : Kept (loads doc) := ⟨plain_loads doc, distinct_loads doc⟩

end Building

end SeoPlatform.Foundation.PythonJson
