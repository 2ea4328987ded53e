import Mathlib.Algebra.BigOperators.Group.List.Basic
import Mathlib.Data.List.Perm.Basic
import SeoPlatform.Foundation.Counter
import SeoPlatform.Foundation.ExceptFlow

namespace SeoPlatform.Foundation.Unordered

open SeoPlatform.Foundation.Counter
open SeoPlatform.Foundation.ExceptFlow

variable {α β γ δ ε : Type}

/-- Two lists match item by item in some order. -/
def Matched (R : α → β → Prop) : List α → List β → Prop := Relation.Comp List.Perm (List.Forall₂ R)

variable {R : α → β → Prop} {S : γ → δ → Prop} {xs : List α} {ys : List β}

theorem Matched.isEmpty_eq (h : Matched R xs ys) : xs.isEmpty = ys.isEmpty := by
  obtain ⟨between, hperm, hrel⟩ := h
  rw [hperm.isEmpty_eq]
  cases hrel <;> rfl

theorem Matched.filter {p : α → Bool} {q : β → Bool} (hkind : ∀ a b, R a b → p a = q b)
    (h : Matched R xs ys) : Matched R (xs.filter p) (ys.filter q) := by
  obtain ⟨between, hperm, hrel⟩ := h
  refine ⟨between.filter p, hperm.filter p, ?_⟩
  exact List.rel_filter (fun a b hab => iff_of_eq (congrArg (· = true) (hkind a b hab))) hrel

/-- What is made of items that match, in some order, is the same up to the order. -/
theorem Matched.map_perm {f : α → γ} {g : β → γ} (hsame : ∀ a b, R a b → f a = g b)
    (h : Matched R xs ys) : (xs.map f).Perm (ys.map g) := by
  obtain ⟨between, hperm, hrel⟩ := h
  have hmap : between.map f = ys.map g := by
    clear hperm
    induction hrel with
    | nil => rfl
    | cons hab _ ih => rw [List.map_cons, List.map_cons, hsame _ _ hab, ih]
  exact hmap ▸ hperm.map f

theorem Matched.flatMap_perm {f : α → List γ} {g : β → List γ}
    (hsame : ∀ a b, R a b → (f a).Perm (g b)) (h : Matched R xs ys) :
    (xs.flatMap f).Perm (ys.flatMap g) := by
  obtain ⟨between, hperm, hrel⟩ := h
  refine (hperm.flatMap_right f).trans ?_
  clear hperm
  induction hrel with
  | nil => exact List.Perm.refl _
  | cons hab _ ih =>
      rw [List.flatMap_cons, List.flatMap_cons]
      exact (hsame _ _ hab).append ih

/-- Loops over items that match make what matches. -/
theorem Matched.mapM {f : α → Except ε γ} {g : β → Except ε δ}
    (hstep : ∀ a b c, R a b → f a = .ok c → ∃ d, g b = .ok d ∧ S c d) (h : Matched R xs ys)
    {made : List γ} (hmade : xs.mapM f = .ok made) :
    ∃ made', ys.mapM g = .ok made' ∧ Matched S made made' := by
  obtain ⟨between, hperm, hrel⟩ := h
  obtain ⟨middle, hmiddle, hsame⟩ := mapM_perm hperm hmade
  suffices hsteps : ∃ made', ys.mapM g = .ok made' ∧ List.Forall₂ S middle made' by
    obtain ⟨made', hmade', hstepped⟩ := hsteps
    exact ⟨made', hmade', middle, hsame, hstepped⟩
  clear hperm hmade hsame
  induction hrel generalizing middle with
  | nil =>
      cases hmiddle
      exact ⟨[], rfl, .nil⟩
  | cons hab _ ih =>
      rw [List.mapM_cons] at hmiddle
      obtain ⟨c, hfirst, hmiddle⟩ := ok_of_bind hmiddle
      obtain ⟨later, hrest, hmiddle⟩ := ok_of_bind hmiddle
      cases hmiddle
      obtain ⟨d, hfirst', hcd⟩ := hstep _ _ c hab hfirst
      obtain ⟨later', hrest', hlater⟩ := ih later hrest
      refine ⟨d :: later', ?_, .cons hcd hlater⟩
      rw [List.mapM_cons, hfirst', hrest']
      rfl

variable [DecidableEq α]

/-- What is counted in another order is counted the same. -/
theorem tally_perm {items others : List α} (h : items.Perm others) :
    (tally items).Perm (tally others) := by
  have hkeys : items.eraseDups.Perm others.eraseDups :=
    (List.perm_ext_iff_of_nodup (nodup_eraseDups items) (nodup_eraseDups others)).mpr fun a => by
      rw [List.mem_eraseDups, List.mem_eraseDups, h.mem_iff]
  have hcounts : (tally others) = others.eraseDups.map fun a => (a, items.count a) :=
    List.map_congr_left fun a _ => by rw [h.count_eq]
  rw [hcounts]
  exact hkeys.map _

end SeoPlatform.Foundation.Unordered
