import SeoPlatform.Foundation.JsonValue
import Mathlib.Data.List.Forall2

namespace SeoPlatform.Foundation.JsonShape

open SeoPlatform.Foundation.JsonValue

/-- Documents that differ in the contents of their texts alone: the same fields are
present, texts are empty together, and lists are of one length. -/
inductive Alike : Json → Json → Prop
  | null : Alike .null .null
  | bool (b : Bool) : Alike (.bool b) (.bool b)
  | int (n : Int) : Alike (.int n) (.int n)
  | float (q : Rat) : Alike (.float q) (.float q)
  | str {s t : String} (h : s = "" ↔ t = "") : Alike (.str s) (.str t)
  | arr {items items' : List Json} (length : items.length = items'.length)
      (values : ∀ (n : Nat) v v', items[n]? = some v → items'[n]? = some v' → Alike v v') :
      Alike (.arr items) (.arr items')
  | obj {fields fields' : Dict}
      (present : ∀ key, (Dict.get? fields key).isSome = (Dict.get? fields' key).isSome)
      (values : ∀ key v v', Dict.get? fields key = some v → Dict.get? fields' key = some v' →
        Alike v v') :
      Alike (.obj fields) (.obj fields')

theorem alike_refl : ∀ v : Json, Alike v v
  | .null => .null
  | .bool b => .bool b
  | .int n => .int n
  | .float q => .float q
  | .str s => .str Iff.rfl
  | .arr items => .arr rfl (by
      intro n v v' hv hv'
      have hmem : v ∈ items := List.mem_of_getElem? hv
      cases hv.symm.trans hv'
      exact alike_refl v)
  | .obj fields => .obj (fun _ => rfl) (by
      intro key v v' hv hv'
      have hmem : (key, v) ∈ fields := Dict.mem_of_get? hv
      cases hv.symm.trans hv'
      exact alike_refl v)
termination_by v => sizeOf v
decreasing_by
  · have hlt := List.sizeOf_lt_of_mem hmem
    simp only [Json.arr.sizeOf_spec]
    omega
  · have hlt := List.sizeOf_lt_of_mem hmem
    simp only [Prod.mk.sizeOf_spec] at hlt
    simp only [Json.obj.sizeOf_spec]
    omega

variable {v v' : Json} {d d' : Dict} {items items' : List Json}

theorem forall₂_of_alike (h : Alike (.arr items) (.arr items')) :
    List.Forall₂ Alike items items' := by
  cases h with
  | arr length values =>
      rw [List.forall₂_iff_get]
      refine ⟨length, ?_⟩
      intro n hn hn'
      refine values n _ _ ?_ ?_
      · exact List.getElem?_eq_getElem hn
      · exact List.getElem?_eq_getElem hn'

theorem alike_get? (h : Alike (.obj d) (.obj d')) (key : String) :
    (Dict.get? d key = none ∧ Dict.get? d' key = none) ∨
      ∃ v v', Dict.get? d key = some v ∧ Dict.get? d' key = some v' ∧ Alike v v' := by
  cases h with
  | obj present values =>
      have hpresent := present key
      cases hv : Dict.get? d key with
      | none =>
          rw [hv] at hpresent
          cases hv' : Dict.get? d' key with
          | none => exact .inl ⟨rfl, rfl⟩
          | some v' =>
              rw [hv'] at hpresent
              contradiction
      | some v =>
          rw [hv] at hpresent
          cases hv' : Dict.get? d' key with
          | none =>
              rw [hv'] at hpresent
              contradiction
          | some v' => exact .inr ⟨v, v', rfl, rfl, values key v v' hv hv'⟩

theorem alike_getD (h : Alike (.obj d) (.obj d')) (key : String) {fallback : Json}
    (hfallback : Alike fallback fallback) :
    Alike (Dict.getD d key fallback) (Dict.getD d' key fallback) := by
  unfold Dict.getD
  rcases alike_get? h key with ⟨hv, hv'⟩ | ⟨v, v', hv, hv', halike⟩
  · rw [hv, hv']
    exact hfallback
  · rw [hv, hv']
    exact halike

theorem alike_get (h : Alike (.obj d) (.obj d')) (key : String) :
    Alike (Dict.get d key) (Dict.get d' key) :=
  alike_getD h key .null

theorem isEmpty_of_alike (h : Alike (.obj d) (.obj d')) : d.isEmpty = d'.isEmpty := by
  cases h with
  | obj present values =>
      cases d with
      | nil =>
          cases d' with
          | nil => rfl
          | cons field rest =>
              have hpresent := present field.1
              rw [Dict.get?_cons, if_pos rfl] at hpresent
              contradiction
      | cons field rest =>
          cases d' with
          | nil =>
              have hpresent := present field.1
              rw [Dict.get?_cons, if_pos rfl] at hpresent
              contradiction
          | cons => rfl

theorem truthy_of_alike (h : Alike v v') : v.truthy = v'.truthy := by
  cases h with
  | null | bool | int | float => rfl
  | @str s t h =>
      rw [truthy_str, truthy_str, Bool.eq_iff_iff, bne_iff_ne, bne_iff_ne]
      exact not_congr h
  | @arr items items' length =>
      rw [truthy_arr, truthy_arr]
      cases items with
      | nil => rw [List.eq_nil_of_length_eq_zero length.symm]
      | cons item rest =>
          cases items' with
          | nil => contradiction
          | cons => rfl
  | obj present values =>
      rw [truthy_obj, truthy_obj, isEmpty_of_alike (.obj present values)]

theorem alike_orElse (h : Alike v v') {fallback : Json} (hfallback : Alike fallback fallback) :
    Alike (v.orElse fallback) (v'.orElse fallback) := by
  unfold Json.orElse
  rw [truthy_of_alike h]
  split
  · exact h
  · exact hfallback

theorem alike_emptyObj : Alike (.obj []) (.obj []) := alike_refl _

theorem alike_field (key : String) (h : Alike v v') (hrest : Alike (.obj d) (.obj d')) :
    Alike (.obj ((key, v) :: d)) (.obj ((key, v') :: d')) := by
  cases hrest with
  | obj present values =>
      refine .obj ?_ ?_
      · intro other
        rw [Dict.get?_cons, Dict.get?_cons]
        split
        · rfl
        · exact present other
      · intro other w w' hw hw'
        rw [Dict.get?_cons] at hw hw'
        split at hw
        · rename_i hkey
          rw [if_pos hkey] at hw'
          cases hw
          cases hw'
          exact h
        · rename_i hkey
          rw [if_neg hkey] at hw'
          exact values other w w' hw hw'

theorem alike_arr (h : List.Forall₂ Alike items items') : Alike (.arr items) (.arr items') := by
  obtain ⟨hlength, hget⟩ := List.forall₂_iff_get.mp h
  refine .arr hlength ?_
  intro n v v' hv hv'
  obtain ⟨hn, rfl⟩ := List.getElem?_eq_some_iff.mp hv
  obtain ⟨hn', rfl⟩ := List.getElem?_eq_some_iff.mp hv'
  exact hget n hn hn'

theorem alike_emptyText : Alike (.str "") (.str "") := alike_refl _

end SeoPlatform.Foundation.JsonShape
