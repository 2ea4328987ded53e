import Mathlib.Data.List.Chain
import Mathlib.Data.List.DropRight
import SeoPlatform.Foundation.Tokens

namespace SeoPlatform.Foundation.TidyText

open SeoPlatform.Foundation.Tokens

variable {α : Type} {sep : α → Bool} {space : α} {xs ys : List α}

/-- Nothing separates at the ends, and between two runs there is one space. -/
structure Tidy (sep : α → Bool) (space : α) (xs : List α) : Prop where
  chain : xs.IsChain fun x y => sep x = false ∨ sep y = false
  spaced : ∀ x ∈ xs, sep x = true → x = space
  head : ∀ x ∈ xs.head?, sep x = false
  last : ∀ x ∈ xs.getLast?, sep x = false

theorem tidy_nil : Tidy sep space [] where
  chain := .nil
  spaced := by simp
  head := by simp
  last := by simp

theorem tidy_of_forall (h : ∀ x ∈ xs, sep x = false) : Tidy sep space xs where
  chain := by
    apply List.Pairwise.isChain
    apply List.pairwise_of_forall_mem_list
    intro x hx y _
    exact Or.inl (h x hx)
  spaced := by
    intro x hx hsep
    rw [h x hx] at hsep
    cases hsep
  head := fun x hx => h x (List.mem_of_mem_head? hx)
  last := fun x hx => h x (List.mem_of_mem_getLast? hx)

/-- What stands before a point that nothing separates is tidy. -/
theorem Tidy.initial (h : Tidy sep space xs) (hinitial : ys <+: xs)
    (hlast : ∀ y ∈ ys.getLast?, sep y = false) : Tidy sep space ys where
  chain := h.chain.prefix hinitial
  spaced := fun y hy => h.spaced y (hinitial.subset hy)
  head := by
    obtain ⟨rest, rfl⟩ := hinitial
    intro y hy
    apply h.head
    rw [List.head?_append, Option.mem_def.mp hy]
    rfl
  last := hlast

/-- Before a space nothing separates. -/
theorem Tidy.last_of_append (h : Tidy sep space (xs ++ space :: ys)) (hspace : sep space = true) :
    ∀ x ∈ xs.getLast?, sep x = false := by
  intro x hx
  have hnext := (List.isChain_append.mp h.chain).2.2 x hx space rfl
  rw [hspace] at hnext
  exact hnext.resolve_right Bool.noConfusion

theorem Tidy.first_run (h : Tidy sep space (xs ++ space :: ys)) (hspace : sep space = true) :
    xs ≠ [] ∧ ys ≠ [] ∧ Tidy sep space ys := by
  refine ⟨?_, ?_, ?_⟩
  · rintro rfl
    have hhead := h.head space rfl
    rw [hspace] at hhead
    cases hhead
  · rintro rfl
    have hlast := h.last space (by simp)
    rw [hspace] at hlast
    cases hlast
  · have hchain := List.isChain_cons.mp (List.isChain_append.mp h.chain).2.1
    constructor
    · exact hchain.2
    · intro y hy
      exact h.spaced y (List.mem_append_right _ (List.mem_cons_of_mem _ hy))
    · intro y hy
      have hnext := hchain.1 y hy
      rw [hspace] at hnext
      exact hnext.resolve_left Bool.noConfusion
    · intro y hy
      apply h.last
      rw [List.getLast?_append, List.getLast?_cons, Option.mem_def.mp hy]
      rfl

/-- A tidy text is what its runs are joined to. -/
theorem Tidy.intercalate_tokens (h : Tidy sep space xs) :
    [space].intercalate (tokens sep xs) = xs := by
  induction xs using run_induction sep with
  | run xs hxs =>
      rw [tokens_of_forall hxs]
      split
      · rename_i hnil
        rw [hnil]
        rfl
      · exact List.intercalate_singleton
  | step xs x ys hxs hx ih =>
      obtain rfl := h.spaced x (by simp) hx
      obtain ⟨hfirst, hlater, htidy⟩ := h.first_run hx
      have hjoined := ih htidy
      have hsome : tokens sep ys ≠ [] := by
        intro hnone
        rw [hnone] at hjoined
        exact hlater hjoined.symm
      rw [tokens_append_cons hx, tokens_of_forall hxs, if_neg hfirst, List.singleton_append,
        List.intercalate_cons_of_ne_nil hsome, hjoined]
      simp

theorem tidy_append {run : List α} (hsome : run ≠ []) (hrun : ∀ x ∈ run, sep x = false)
    (h : Tidy sep space ys) (hys : ys ≠ []) :
    Tidy sep space (run ++ space :: ys) where
  chain := by
    rw [List.isChain_append, List.isChain_cons]
    have htidy : Tidy sep space run := tidy_of_forall hrun
    refine ⟨htidy.chain, ⟨?_, h.chain⟩, ?_⟩
    · intro y hy
      exact Or.inr (h.head y hy)
    · intro x hx y _
      exact Or.inl (hrun x (List.mem_of_mem_getLast? hx))
  spaced := by
    intro x hx hsep
    rcases List.mem_append.mp hx with hfirst | hlater
    · rw [hrun x hfirst] at hsep
      cases hsep
    · rcases List.mem_cons.mp hlater with hsame | hlater
      · exact hsame
      · exact h.spaced x hlater hsep
  head := by
    intro x hx
    obtain ⟨y, rest, rfl⟩ := List.exists_cons_of_ne_nil hsome
    obtain rfl := Option.some.inj hx
    exact hrun y List.mem_cons_self
  last := by
    intro x hx
    obtain ⟨y, rest, rfl⟩ := List.exists_cons_of_ne_nil hys
    apply h.last
    rwa [List.getLast?_append, List.getLast?_cons_cons, List.getLast?_cons, Option.some_or,
      ← List.getLast?_cons] at hx

/-- Runs are joined to a tidy text. -/
theorem tidy_intercalate {runs : List (List α)}
    (h : ∀ run ∈ runs, run ≠ [] ∧ ∀ x ∈ run, sep x = false) :
    Tidy sep space ([space].intercalate runs) ∧
      (runs ≠ [] → [space].intercalate runs ≠ []) := by
  induction runs with
  | nil => exact ⟨tidy_nil, fun hne => absurd rfl hne⟩
  | cons run rest ih =>
      rw [List.forall_mem_cons] at h
      obtain ⟨⟨hsome, hrun⟩, hrest⟩ := h
      cases rest with
      | nil =>
          rw [List.intercalate_singleton]
          exact ⟨tidy_of_forall hrun, fun _ => hsome⟩
      | cons next later =>
          obtain ⟨htidy, hjoined⟩ := ih hrest
          rw [List.intercalate_cons_cons, List.append_assoc, List.singleton_append]
          constructor
          · exact tidy_append hsome hrun htidy (hjoined (List.cons_ne_nil _ _))
          · intro _
            exact List.append_ne_nil_of_left_ne_nil hsome _

theorem tidy_tokens (xs : List α) : Tidy sep space ([space].intercalate (tokens sep xs)) :=
  (tidy_intercalate fun _ hrun => of_mem_tokens hrun).1

section Cutting

variable [BEq α]

/-- What stands before the last occurrence of a pattern. -/
def beforeLast (pattern : List α) : List α → Option (List α)
  | [] => if pattern.isEmpty then some [] else none
  | x :: xs =>
      match beforeLast pattern xs with
      | some head => some (x :: head)
      | none => if pattern.isPrefixOf (x :: xs) then some [] else none

/-- The first part of a text that is split at the last occurrence of a pattern. -/
def splitLast (pattern xs : List α) : List α := (beforeLast pattern xs).getD xs

variable [LawfulBEq α] {pattern : List α}

theorem beforeLast_spec {head : List α} (h : beforeLast pattern xs = some head) :
    ∃ tail, xs = head ++ pattern ++ tail := by
  induction xs generalizing head with
  | nil =>
      unfold beforeLast at h
      split at h
      · rename_i hempty
        obtain rfl := Option.some.inj h
        rw [List.isEmpty_iff] at hempty
        exact ⟨[], by rw [hempty]; rfl⟩
      · cases h
  | cons x rest ih =>
      unfold beforeLast at h
      split at h
      · rename_i head' hhead
        obtain rfl := Option.some.inj h
        obtain ⟨tail, htail⟩ := ih hhead
        exact ⟨tail, by rw [List.cons_append, List.cons_append, ← htail]⟩
      · split at h
        · rename_i hinitial
          obtain rfl := Option.some.inj h
          obtain ⟨tail, htail⟩ := List.isPrefixOf_iff_prefix.mp hinitial
          exact ⟨tail, htail.symm⟩
        · cases h

theorem splitLast_prefix (pattern xs : List α) : splitLast pattern xs <+: xs := by
  unfold splitLast
  cases h : beforeLast pattern xs with
  | none => exact List.prefix_rfl
  | some head =>
      obtain ⟨tail, htail⟩ := beforeLast_spec h
      exact ⟨pattern ++ tail, by rw [htail, List.append_assoc]; rfl⟩

theorem beforeLast_ne_none {x : α} (h : x ∈ xs) : beforeLast [x] xs ≠ none := by
  induction xs with
  | nil => cases h
  | cons y rest ih =>
      unfold beforeLast
      split
      · simp
      · rename_i hnone
        rcases List.mem_cons.mp h with rfl | hmem
        · simp
        · exact absurd hnone (ih hmem)

end Cutting

example : beforeLast " - ".toList "a - b - c".toList = some "a - b".toList := by decide

end SeoPlatform.Foundation.TidyText
