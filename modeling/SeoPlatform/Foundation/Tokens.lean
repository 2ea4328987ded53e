import Mathlib.Data.List.TakeWhile

namespace SeoPlatform.Foundation.Tokens

variable {α : Type} {sep : α → Bool}

/-- The runs of what does not separate. -/
def tokens (sep : α → Bool) (xs : List α) : List (List α) :=
  (xs.splitOnP sep).filter fun run => !run.isEmpty

@[simp] theorem tokens_nil : tokens sep [] = [] := by simp [tokens]

theorem tokens_append_cons {x : α} (hsep : sep x = true) (xs ys : List α) :
    tokens sep (xs ++ x :: ys) = tokens sep xs ++ tokens sep ys := by
  unfold tokens
  rw [List.splitOnP_append_cons xs ys hsep, List.filter_append]

theorem tokens_cons_sep {x : α} (hsep : sep x = true) (xs : List α) :
    tokens sep (x :: xs) = tokens sep xs := by
  have h := tokens_append_cons hsep [] xs
  rwa [tokens_nil, List.nil_append] at h

/-- Where nothing separates, all is one run. -/
theorem tokens_of_forall {xs : List α} (h : ∀ x ∈ xs, sep x = false) :
    tokens sep xs = if xs = [] then [] else [xs] := by
  unfold tokens
  rw [List.splitOnP_eq_singleton h]
  cases xs <;> rfl

theorem tokens_dropWhile (xs : List α) : tokens sep (xs.dropWhile sep) = tokens sep xs := by
  induction xs with
  | nil => rfl
  | cons x rest ih =>
      cases hsep : sep x with
      | true => rw [List.dropWhile_cons_of_pos hsep, ih, tokens_cons_sep hsep]
      | false => rw [List.dropWhile_cons_of_neg (by simp [hsep])]

theorem tokens_eq_nil {xs : List α} (h : ∀ x ∈ xs, sep x = true) : tokens sep xs = [] := by
  induction xs with
  | nil => exact tokens_nil
  | cons x rest ih =>
      rw [List.forall_mem_cons] at h
      rw [tokens_cons_sep h.1, ih h.2]

theorem tokens_append_of_forall (xs : List α) {ys : List α} (h : ∀ y ∈ ys, sep y = true) :
    tokens sep (xs ++ ys) = tokens sep xs := by
  cases ys with
  | nil => rw [List.append_nil]
  | cons y rest =>
      rw [List.forall_mem_cons] at h
      rw [tokens_append_cons h.1, tokens_eq_nil h.2, List.append_nil]

/-- What separates at either end does not matter. -/
theorem tokens_trim (xs : List α) :
    tokens sep ((xs.dropWhile sep).reverse.dropWhile sep).reverse = tokens sep xs := by
  have hends : (xs.dropWhile sep).reverse =
      (xs.dropWhile sep).reverse.takeWhile sep ++ (xs.dropWhile sep).reverse.dropWhile sep :=
    List.takeWhile_append_dropWhile.symm
  have hparts := congrArg List.reverse hends
  rw [List.reverse_reverse, List.reverse_append] at hparts
  have hend : ∀ x ∈ ((xs.dropWhile sep).reverse.takeWhile sep).reverse, sep x = true :=
    fun x hx => List.mem_takeWhile_imp (List.mem_reverse.mp hx)
  rw [← tokens_append_of_forall _ hend, ← hparts, tokens_dropWhile]

variable (sep) in
/-- By the runs of a list, the first one first. -/
theorem run_induction {motive : List α → Prop}
    (run : ∀ xs, (∀ x ∈ xs, sep x = false) → motive xs)
    (step : ∀ xs x ys, (∀ x ∈ xs, sep x = false) → sep x = true → motive ys →
      motive (xs ++ x :: ys)) (xs : List α) : motive xs := by
  -- The run that was begun before `xs` is carried along.
  have hbegun : ∀ begun, (∀ x ∈ begun, sep x = false) → motive (begun ++ xs) := by
    induction xs with
    | nil =>
        intro begun hbegun
        rw [List.append_nil]
        exact run begun hbegun
    | cons x rest ih =>
        intro begun hbegun
        cases hx : sep x with
        | true =>
            apply step begun x rest hbegun hx
            exact ih [] (List.forall_mem_nil _)
        | false =>
            rw [List.append_cons]
            apply ih
            rw [List.forall_mem_append]
            exact ⟨hbegun, List.forall_mem_singleton.mpr hx⟩
  exact hbegun [] (List.forall_mem_nil _)

theorem of_mem_tokens {xs run : List α} (h : run ∈ tokens sep xs) :
    run ≠ [] ∧ ∀ x ∈ run, sep x = false := by
  induction xs using run_induction sep with
  | run xs hxs =>
      rw [tokens_of_forall hxs] at h
      split at h
      · cases h
      · obtain rfl := List.mem_singleton.mp h
        constructor
        · assumption
        · exact hxs
  | step xs x ys hxs hx ih =>
      rw [tokens_append_cons hx, tokens_of_forall hxs, List.mem_append] at h
      rcases h with hfirst | hlater
      · split at hfirst
        · cases hfirst
        · obtain rfl := List.mem_singleton.mp hfirst
          constructor
          · assumption
          · exact hxs
      · exact ih hlater

/-- What does not separate is in one of the runs. -/
theorem exists_mem_tokens {x : α} {xs : List α} (hx : x ∈ xs) (hsep : sep x = false) :
    ∃ run ∈ tokens sep xs, x ∈ run := by
  induction xs using run_induction sep with
  | run xs hxs =>
      rw [tokens_of_forall hxs, if_neg (List.ne_nil_of_mem hx)]
      exact ⟨xs, List.mem_singleton_self xs, hx⟩
  | step xs y ys hxs hy ih =>
      rw [tokens_append_cons hy, tokens_of_forall hxs]
      rcases List.mem_append.mp hx with hfirst | hlater
      · rw [if_neg (List.ne_nil_of_mem hfirst)]
        exact ⟨xs, List.mem_append_left _ (List.mem_singleton_self xs), hfirst⟩
      · rcases List.mem_cons.mp hlater with rfl | hlater
        · rw [hsep] at hy
          cases hy
        · obtain ⟨run, hrun, hmem⟩ := ih hlater
          exact ⟨run, List.mem_append_right _ hrun, hmem⟩

section Spelling

variable {f : α → List α}

theorem tokens_flatMap_run
    (hrun : ∀ x, sep x = false → f x ≠ [] ∧ ∀ y ∈ f x, sep y = false) {run : List α}
    (h : ∀ x ∈ run, sep x = false) :
    tokens sep (run.flatMap f) = (tokens sep run).map fun run => run.flatMap f := by
  have hinside : ∀ y ∈ run.flatMap f, sep y = false := by
    intro y hy
    obtain ⟨x, hx, hy⟩ := List.mem_flatMap.mp hy
    exact (hrun x (h x hx)).2 y hy
  rw [tokens_of_forall h, tokens_of_forall hinside]
  cases run with
  | nil => rfl
  | cons x rest =>
      have hsome : (x :: rest).flatMap f ≠ [] := by
        rw [List.flatMap_cons]
        exact List.append_ne_nil_of_left_ne_nil (hrun x (h x List.mem_cons_self)).1 _
      rw [if_neg hsome, if_neg (List.cons_ne_nil x rest)]
      rfl

/-- Runs are spelled anew one by one where what separates stays, nothing else comes to
separate, and no run is lost. -/
theorem tokens_flatMap (hsep : ∀ x, sep x = true → f x = [x])
    (hrun : ∀ x, sep x = false → f x ≠ [] ∧ ∀ y ∈ f x, sep y = false) (xs : List α) :
    tokens sep (xs.flatMap f) = (tokens sep xs).map fun run => run.flatMap f := by
  -- The run that was begun before `xs` is carried along.
  have hbegun : ∀ begun, (∀ x ∈ begun, sep x = false) →
      tokens sep ((begun ++ xs).flatMap f) =
        (tokens sep (begun ++ xs)).map fun run => run.flatMap f := by
    induction xs with
    | nil =>
        intro begun hbegun
        rw [List.append_nil]
        exact tokens_flatMap_run hrun hbegun
    | cons x rest ih =>
        intro begun hbegun
        cases hx : sep x with
        | true =>
            rw [List.flatMap_append, List.flatMap_cons, hsep x hx, List.singleton_append,
              tokens_append_cons hx, tokens_append_cons hx, List.map_append,
              tokens_flatMap_run hrun hbegun]
            congr 1
            exact ih [] (List.forall_mem_nil _)
        | false =>
            rw [List.append_cons]
            apply ih
            rw [List.forall_mem_append]
            exact ⟨hbegun, List.forall_mem_singleton.mpr hx⟩
  exact hbegun [] (List.forall_mem_nil _)

end Spelling

example : tokens (· == ' ') "a  bc ".toList = [['a'], ['b', 'c']] := by decide

end SeoPlatform.Foundation.Tokens
