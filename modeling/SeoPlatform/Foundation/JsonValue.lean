import Mathlib.Data.Rat.Defs
import Mathlib.Algebra.Order.Ring.Unbundled.Rat

namespace SeoPlatform.Foundation.JsonValue

/-- A JSON document. Whole numbers and fractional numbers are told apart, as
the decoders of dynamic languages do. -/
inductive Json where
  | null
  | bool (b : Bool)
  | int (n : Int)
  | float (q : Rat)
  | str (s : String)
  | arr (items : List Json)
  | obj (fields : List (String × Json))

instance : Inhabited Json := ⟨.null⟩

/-- An object by its fields in order. A lookup reads the first field of a name. -/
abbrev Dict := List (String × Json)

/-- The emptiness test a bare value undergoes in a condition. -/
def Json.truthy : Json → Bool
  | .null => false
  | .bool b => b
  | .int n => n != 0
  | .float q => q != 0
  | .str s => s != ""
  | .arr items => !items.isEmpty
  | .obj fields => !fields.isEmpty

/-- The left value unless it is empty, else the right one. -/
def Json.orElse (v w : Json) : Json := if v.truthy then v else w

def Json.str? : Json → Option String
  | .str s => some s
  | _ => none

def Json.ofOption {α : Type} (f : α → Json) : Option α → Json
  | none => .null
  | some a => f a

@[simp] theorem truthy_null : Json.null.truthy = false := rfl
@[simp] theorem truthy_str (s : String) : (Json.str s).truthy = (s != "") := rfl
@[simp] theorem truthy_int (n : Int) : (Json.int n).truthy = (n != 0) := rfl
@[simp] theorem truthy_arr (items : List Json) : (Json.arr items).truthy = !items.isEmpty := rfl
@[simp] theorem truthy_obj (fields : Dict) : (Json.obj fields).truthy = !fields.isEmpty := rfl
@[simp] theorem str?_str (s : String) : (Json.str s).str? = some s := rfl

@[simp] theorem ofOption_none {α : Type} (f : α → Json) : Json.ofOption f none = .null := rfl
@[simp] theorem ofOption_some {α : Type} (f : α → Json) (a : α) :
    Json.ofOption f (some a) = f a := rfl

theorem str?_eq_some {v : Json} {s : String} (h : v.str? = some s) : v = .str s := by
  cases v with
  | str t => simpa using h
  | null | bool | int | float | arr | obj => simp [Json.str?] at h

namespace Dict

def get? : Dict → String → Option Json
  | [], _ => none
  | (name, v) :: rest, key => if name = key then some v else get? rest key

/-- Lookup with `null` for an absent field. -/
def get (d : Dict) (key : String) : Json := (d.get? key).getD .null

def getD (d : Dict) (key : String) (fallback : Json) : Json := (d.get? key).getD fallback

/-- Overwrite a field in place, or add it at the end. -/
def set : Dict → String → Json → Dict
  | [], key, v => [(key, v)]
  | (name, w) :: rest, key, v =>
      if name = key then (name, v) :: rest else (name, w) :: set rest key v

def keys (d : Dict) : List String := d.map Prod.fst

@[simp] theorem get?_nil (key : String) : get? [] key = none := rfl

@[simp] theorem get?_cons (name : String) (v : Json) (rest : Dict) (key : String) :
    get? ((name, v) :: rest) key = if name = key then some v else get? rest key := rfl

@[simp] theorem get_nil (key : String) : get [] key = .null := rfl

theorem get_cons (name : String) (v : Json) (rest : Dict) (key : String) :
    get ((name, v) :: rest) key = if name = key then v else get rest key := by
  unfold get
  rw [get?_cons]
  split <;> rfl

theorem get?_append (d e : Dict) (key : String) :
    get? (d ++ e) key = (get? d key).or (get? e key) := by
  induction d with
  | nil => simp
  | cons field rest ih =>
      rcases field with ⟨name, v⟩
      by_cases h : name = key <;> simp [h, ih]

theorem get?_set (d : Dict) (key : String) (v : Json) (other : String) :
    get? (d.set key v) other = if key = other then some v else get? d other := by
  induction d with
  | nil => simp [set]
  | cons field rest ih =>
      rcases field with ⟨name, w⟩
      by_cases h : name = key
      · subst h
        by_cases ho : name = other <;> simp [set, ho]
      · by_cases ho : name = other
        · subst ho
          simp [set, h, Ne.symm h]
        · simp [set, h, ho, ih]

theorem get?_set_of_ne (d : Dict) {key other : String} (v : Json) (h : key ≠ other) :
    get? (d.set key v) other = get? d other := by
  simp [get?_set, h]

theorem get_of_get? {d : Dict} {key : String} {v : Json} (h : d.get? key = some v) :
    d.get key = v := by
  simp [get, h]

theorem mem_of_get? {d : Dict} {key : String} {v : Json} (h : d.get? key = some v) :
    (key, v) ∈ d := by
  induction d with
  | nil => simp at h
  | cons field rest ih =>
      rcases field with ⟨name, w⟩
      by_cases hn : name = key
      · subst hn
        simp only [get?_cons, if_true, Option.some.injEq] at h
        simp [h]
      · have hrest : get? rest key = some v := by simpa [hn] using h
        exact List.mem_cons_of_mem _ (ih hrest)

theorem mem_keys_of_get? {d : Dict} {key : String} {v : Json} (h : d.get? key = some v) :
    key ∈ d.keys :=
  List.mem_map.mpr ⟨_, mem_of_get? h, rfl⟩

theorem get?_of_mem_keys {d : Dict} {key : String} (h : key ∈ d.keys) :
    ∃ v, d.get? key = some v := by
  induction d with
  | nil => contradiction
  | cons field rest ih =>
      rcases field with ⟨name, w⟩
      by_cases hn : name = key
      · exact ⟨w, by simp [hn]⟩
      · have hrest : key ∈ keys rest := (List.mem_cons.mp h).resolve_left (Ne.symm hn)
        obtain ⟨v, hv⟩ := ih hrest
        exact ⟨v, by simpa [hn] using hv⟩

end Dict

end SeoPlatform.Foundation.JsonValue
