import SeoPlatform.Foundation.JsonValue

namespace SeoPlatform.Foundation.JsonSchema

open SeoPlatform.Foundation.JsonValue

/-- A schema, as the check its keywords make. -/
abbrev Schema := Json → Bool

def within (lower upper : Option Rat) (q : Rat) : Bool :=
  lower.all (· ≤ q) && upper.all (q ≤ ·)

def anything : Schema := fun _ => true

def boolean : Schema
  | .bool _ => true
  | _ => false

def string : Schema
  | .str _ => true
  | _ => false

/-- `type: string` with `minLength` and `maxLength`, counted in code points. -/
def stringLength (minLength : Nat) (maxLength : Option Nat) : Schema
  | .str s => minLength ≤ s.length && maxLength.all (s.length ≤ ·)
  | _ => false

/-- `type: integer`. A fractional number without a fraction counts. -/
def integerIn (minimum maximum : Option Rat) : Schema
  | .int n => within minimum maximum n
  | .float q => q.den = 1 && within minimum maximum q
  | _ => false

def numberIn (minimum maximum : Option Rat) : Schema
  | .int n => within minimum maximum n
  | .float q => within minimum maximum q
  | _ => false

def integer : Schema := integerIn none none

def number : Schema := numberIn none none

def oneOf (names : List String) : Schema
  | .str s => s ∈ names
  | _ => false

/-- `type: [t, null]`. The other keywords say nothing about `null`. -/
def nullable (schema : Schema) : Schema
  | .null => true
  | v => schema v

def arrayOf (minItems : Nat) (maxItems : Option Nat) (item : Schema) : Schema
  | .arr items => minItems ≤ items.length && maxItems.all (items.length ≤ ·) && items.all item
  | _ => false

/-- `properties`: each listed field is checked where the object has it. -/
def properties (fields : List (String × Schema)) (d : Dict) : Bool :=
  fields.all fun field => (Dict.get? d field.1).all field.2

/-- `type: object` with `required` and `properties`. -/
def openObject (required : List String) (fields : List (String × Schema)) : Schema
  | .obj d => required.all (fun name => (Dict.get? d name).isSome) && properties fields d
  | _ => false

/-- `type: object` with `additionalProperties: false`. -/
def closedObject (required : List String) (fields : List (String × Schema)) : Schema
  | .obj d =>
      openObject required fields (.obj d) &&
        (Dict.keys d).all fun name => name ∈ fields.map Prod.fst
  | _ => false

@[simp] theorem within_none (q : Rat) : within none none q = true := rfl

@[simp] theorem string_str (s : String) : string (.str s) = true := rfl
@[simp] theorem string_null : string .null = false := rfl
@[simp] theorem integer_int (n : Int) : integer (.int n) = true := rfl
@[simp] theorem number_int (n : Int) : number (.int n) = true := rfl
@[simp] theorem number_float (q : Rat) : number (.float q) = true := rfl
@[simp] theorem nullable_null (schema : Schema) : nullable schema .null = true := rfl

@[simp] theorem oneOf_str (names : List String) (s : String) :
    oneOf names (.str s) = decide (s ∈ names) := rfl

@[simp] theorem nullable_str (schema : Schema) (s : String) :
    nullable schema (.str s) = schema (.str s) := rfl
@[simp] theorem nullable_int (schema : Schema) (n : Int) :
    nullable schema (.int n) = schema (.int n) := rfl
@[simp] theorem nullable_float (schema : Schema) (q : Rat) :
    nullable schema (.float q) = schema (.float q) := rfl

@[simp] theorem nullable_string_ofOption (o : Option String) :
    nullable string (.ofOption .str o) = true := by
  cases o <;> rfl

@[simp] theorem nullable_integer_ofOption (o : Option Int) :
    nullable integer (.ofOption .int o) = true := by
  cases o <;> rfl

@[simp] theorem nullable_number_ofOption (o : Option Rat) :
    nullable number (.ofOption .float o) = true := by
  cases o <;> rfl

@[simp] theorem boolean_bool (b : Bool) : boolean (.bool b) = true := rfl

@[simp] theorem stringLength_str (lower : Nat) (upper : Option Nat) (s : String) :
    stringLength lower upper (.str s) =
      (decide (lower ≤ s.length) && upper.all (s.length ≤ ·)) := rfl

/-- Whole bounds bound a whole number as they stand. -/
theorem integerIn_int (lower upper n : Int) :
    integerIn (some lower) (some upper) (.int n) = (decide (lower ≤ n) && decide (n ≤ upper)) := by
  simp [integerIn, within, Rat.intCast_le_intCast]

theorem string_iff {v : Json} : string v = true ↔ ∃ s, v = .str s := by
  cases v <;> simp [string]

theorem nullable_iff {schema : Schema} {v : Json} :
    nullable schema v = true ↔ v = .null ∨ schema v = true := by
  cases v <;> simp [nullable]

theorem nullable_of {schema : Schema} {v : Json} (h : schema v = true) :
    nullable schema v = true := nullable_iff.mpr (.inr h)

/-- A bounded schema is stronger than the unbounded one of its type. -/
theorem integer_of_integerIn {lower upper : Option Rat} {v : Json}
    (h : integerIn lower upper v = true) : integer v = true := by
  cases v with
  | int n => rfl
  | float q =>
      have hq : (q.den = 1 && within lower upper q) = true := h
      simp only [Bool.and_eq_true, decide_eq_true_eq] at hq
      simp [integer, integerIn, hq.1]
  | null | bool | str | arr | obj => simp [integerIn] at h

theorem number_of_numberIn {lower upper : Option Rat} {v : Json}
    (h : numberIn lower upper v = true) : number v = true := by
  cases v with
  | int n => rfl
  | float q => rfl
  | null | bool | str | arr | obj => simp [numberIn] at h

theorem arrayOf_iff {lower : Nat} {upper : Option Nat} {item : Schema} {v : Json} :
    arrayOf lower upper item v = true ↔
      ∃ items, v = .arr items ∧ lower ≤ items.length ∧
        upper.all (items.length ≤ ·) = true ∧ ∀ i ∈ items, item i = true := by
  cases v <;> simp [arrayOf, and_assoc]

/-- A list written out item by item. -/
theorem arrayOf_map {α : Type} {upper : Option Nat} {item : Schema} {f : α → Json} {xs : List α}
    (hlength : upper.all (xs.length ≤ ·) = true) (hitems : ∀ x ∈ xs, item (f x) = true) :
    arrayOf 0 upper item (.arr (xs.map f)) = true := by
  refine arrayOf_iff.mpr ⟨_, rfl, Nat.zero_le _, by simpa using hlength, ?_⟩
  intro i hi
  obtain ⟨x, hx, rfl⟩ := List.mem_map.mp hi
  exact hitems x hx

theorem properties_iff {fields : List (String × Schema)} {d : Dict} :
    properties fields d = true ↔
      ∀ field ∈ fields, ∀ v, Dict.get? d field.1 = some v → field.2 v = true := by
  simp only [properties, List.all_eq_true]
  refine forall₂_congr fun field _ => ?_
  cases Dict.get? d field.1 <;> simp

theorem openObject_iff {required : List String} {fields : List (String × Schema)} {v : Json} :
    openObject required fields v = true ↔
      ∃ d, v = .obj d ∧ (∀ name ∈ required, (Dict.get? d name).isSome) ∧
        properties fields d = true := by
  cases v <;> simp [openObject]

theorem closedObject_iff {required : List String} {fields : List (String × Schema)} {v : Json} :
    closedObject required fields v = true ↔
      ∃ d, v = .obj d ∧ (∀ name ∈ required, (Dict.get? d name).isSome) ∧
        properties fields d = true ∧ ∀ name ∈ Dict.keys d, name ∈ fields.map Prod.fst := by
  cases v <;> simp [closedObject, openObject, and_assoc]

/-- What a valid object says about a field it has. -/
theorem field_of_openObject {required : List String} {fields : List (String × Schema)}
    {d : Dict} {name : String} {schema : Schema} {v : Json}
    (h : openObject required fields (.obj d) = true) (hfield : (name, schema) ∈ fields)
    (hv : Dict.get? d name = some v) : schema v = true := by
  obtain ⟨d', hd, -, hproperties⟩ := openObject_iff.mp h
  cases hd
  exact properties_iff.mp hproperties (name, schema) hfield v hv

theorem required_of_openObject {required : List String} {fields : List (String × Schema)}
    {d : Dict} {name : String}
    (h : openObject required fields (.obj d) = true) (hname : name ∈ required) :
    ∃ v, Dict.get? d name = some v := by
  obtain ⟨d', hd, hrequired, -⟩ := openObject_iff.mp h
  cases hd
  exact Option.isSome_iff_exists.mp (hrequired name hname)

theorem openObject_of_closedObject {required : List String} {fields : List (String × Schema)}
    {v : Json} (h : closedObject required fields v = true) :
    openObject required fields v = true := by
  obtain ⟨d, rfl, hrequired, hproperties, -⟩ := closedObject_iff.mp h
  exact openObject_iff.mpr ⟨d, rfl, hrequired, hproperties⟩

/-- A field of a valid object read with `null` for an absent one. -/
theorem nullable_get_of_openObject {required : List String} {fields : List (String × Schema)}
    {d : Dict} {name : String} {schema : Schema}
    (h : openObject required fields (.obj d) = true) (hfield : (name, schema) ∈ fields) :
    nullable schema (Dict.get d name) = true := by
  cases hd : Dict.get? d name with
  | none => simp [Dict.get, hd]
  | some v =>
      rw [Dict.get_of_get? hd]
      exact nullable_of (field_of_openObject h hfield hd)

theorem mem_of_lookup {fields : List (String × Schema)} {name : String} {schema : Schema}
    (h : fields.lookup name = some schema) : (name, schema) ∈ fields := by
  induction fields with
  | nil => contradiction
  | cons field rest ih =>
      rw [List.lookup_cons] at h
      split at h
      · rename_i hname
        obtain rfl := Option.some.inj h
        rw [eq_of_beq hname]
        exact List.mem_cons_self
      · exact List.mem_cons_of_mem _ (ih h)

theorem lookup_of_mem {fields : List (String × Schema)} {name : String} {schema : Schema}
    (hdistinct : (fields.map Prod.fst).Nodup) (h : (name, schema) ∈ fields) :
    fields.lookup name = some schema := by
  induction fields with
  | nil => simp at h
  | cons field rest ih =>
      rcases field with ⟨other, first⟩
      simp only [List.map_cons, List.nodup_cons] at hdistinct
      rcases List.mem_cons.mp h with heq | hrest
      · cases heq
        simp
      · have hne : name ≠ other := by
          rintro rfl
          exact hdistinct.1 (List.mem_map.mpr ⟨_, hrest, rfl⟩)
        rw [List.lookup_cons, beq_false_of_ne hne]
        exact ih hdistinct.2 hrest

/-- An object written out entry by entry, each under the schema of its name. -/
theorem closedObject_of_entries {required : List String} {fields : List (String × Schema)}
    {d : Dict} (hdistinct : (fields.map Prod.fst).Nodup)
    (hrequired : ∀ name ∈ required, (Dict.get? d name).isSome)
    (hentries : ∀ entry ∈ d, ∃ schema, fields.lookup entry.1 = some schema ∧
      schema entry.2 = true) : closedObject required fields (.obj d) = true := by
  refine closedObject_iff.mpr ⟨d, rfl, hrequired, properties_iff.mpr ?_, fun name hname => ?_⟩
  · rintro ⟨name, schema⟩ hfield v hv
    obtain ⟨own, hown, hchecked⟩ := hentries (name, v) (Dict.mem_of_get? hv)
    rw [lookup_of_mem hdistinct hfield] at hown
    rwa [Option.some.inj hown]
  · obtain ⟨entry, hentry, rfl⟩ := List.mem_map.mp hname
    obtain ⟨schema, hschema, -⟩ := hentries entry hentry
    exact List.mem_map.mpr ⟨_, mem_of_lookup hschema, rfl⟩

/-- The entries of an object are the fields of a schema, in their order. -/
def Rows (fields : List (String × Schema)) (d : Dict) : Prop :=
  List.Forall₂ (fun field entry => entry.1 = field.1 ∧ field.2 entry.2 = true) fields d

@[simp] theorem rows_nil : Rows [] [] := .nil

@[simp] theorem rows_cons {name key : String} {schema : Schema} {v : Json}
    {fields : List (String × Schema)} {d : Dict} :
    Rows ((name, schema) :: fields) ((key, v) :: d) ↔
      (key = name ∧ schema v = true) ∧ Rows fields d :=
  List.forall₂_cons

theorem keys_of_rows {fields : List (String × Schema)} {d : Dict} (h : Rows fields d) :
    Dict.keys d = fields.map Prod.fst := by
  induction h with
  | nil => rfl
  | cons hrow _ ih =>
      unfold Dict.keys at ih ⊢
      rw [List.map_cons, List.map_cons, ih, hrow.1]

theorem lookup_of_rows {fields : List (String × Schema)} {d : Dict} (h : Rows fields d)
    {entry : String × Json} (hentry : entry ∈ d) :
    ∃ schema, (entry.1, schema) ∈ fields ∧ schema entry.2 = true := by
  induction h with
  | nil => contradiction
  | @cons field first _ _ hrow _ ih =>
      rcases List.mem_cons.mp hentry with rfl | hrest
      · refine ⟨field.2, ?_, hrow.2⟩
        rw [hrow.1]
        exact List.mem_cons_self
      · obtain ⟨schema, hmem, hschema⟩ := ih hrest
        exact ⟨schema, List.mem_cons_of_mem _ hmem, hschema⟩

/-- An object that lists the fields of a closed schema one by one. -/
theorem closedObject_of_rows {required : List String} {fields : List (String × Schema)}
    {d : Dict} (hdistinct : (fields.map Prod.fst).Nodup)
    (hrequired : ∀ name ∈ required, name ∈ fields.map Prod.fst) (h : Rows fields d) :
    closedObject required fields (.obj d) = true := by
  refine closedObject_of_entries hdistinct ?_ ?_
  · intro name hname
    have hkey : name ∈ Dict.keys d := by
      rw [keys_of_rows h]
      exact hrequired name hname
    obtain ⟨v, hv⟩ := Dict.get?_of_mem_keys hkey
    rw [hv]
    rfl
  · intro entry hentry
    obtain ⟨schema, hmem, hschema⟩ := lookup_of_rows h hentry
    exact ⟨schema, lookup_of_mem hdistinct hmem, hschema⟩

theorem openObject_of_rows {required : List String} {fields : List (String × Schema)}
    {d : Dict} (hdistinct : (fields.map Prod.fst).Nodup)
    (hrequired : ∀ name ∈ required, name ∈ fields.map Prod.fst) (h : Rows fields d) :
    openObject required fields (.obj d) = true :=
  openObject_of_closedObject (closedObject_of_rows hdistinct hrequired h)

end SeoPlatform.Foundation.JsonSchema
