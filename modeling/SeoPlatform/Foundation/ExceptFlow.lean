import Mathlib.Data.List.Forall2

namespace SeoPlatform.Foundation.ExceptFlow

variable {α β γ ε : Type}

/-- What goes well goes well step by step. -/
theorem ok_of_bind {x : Except ε α} {f : α → Except ε β} {b : β} (h : x >>= f = .ok b) :
    ∃ a, x = .ok a ∧ f a = .ok b := by
  cases x with
  | error e => contradiction
  | ok a => exact ⟨a, rfl, h⟩

theorem ok_of_isOk {x : Except ε α} (h : x.isOk = true) : ∃ a, x = .ok a := by
  cases x with
  | error e => cases h
  | ok a => exact ⟨a, rfl⟩

theorem ok_of_toOption {x : Except ε α} {a : α} (h : x.toOption = some a) : x = .ok a := by
  cases x with
  | error e => contradiction
  | ok b => exact congrArg Except.ok (Option.some.inj h)

/-- What changes the result of what follows changes the result of the whole. -/
theorem map_of_bind {x : Except ε α} {f : α → Except ε β} {f' : α → Except ε γ} {g : β → γ}
    (h : ∀ a, f' a = (f a).map g) : x.bind f' = (x.bind f).map g := by
  cases x with
  | error e => rfl
  | ok a => exact h a

/-- A fold of steps that commute with a change commutes with it. -/
theorem foldlM_map {f : β → α → Except ε β} {g : β → β}
    (h : ∀ b a, f (g b) a = (f b a).map g) (items : List α) (b : β) :
    items.foldlM f (g b) = (items.foldlM f b).map g := by
  induction items generalizing b with
  | nil => rfl
  | cons a rest ih =>
      rw [List.foldlM_cons, List.foldlM_cons, h]
      cases f b a with
      | error e => rfl
      | ok after => exact ih after

/-- What each step keeps of its item, all of them keep. -/
theorem map_of_mapM {f : α → Except ε β} {g : α → γ} {g' : β → γ}
    (hkeep : ∀ a b, f a = .ok b → g' b = g a) {items : List α} {made : List β}
    (h : items.mapM f = .ok made) : made.map g' = items.map g := by
  induction items generalizing made with
  | nil =>
      cases h
      rfl
  | cons a rest ih =>
      rw [List.mapM_cons] at h
      obtain ⟨b, hfirst, h⟩ := ok_of_bind h
      obtain ⟨later, hrest, h⟩ := ok_of_bind h
      cases h
      rw [List.map_cons, List.map_cons, hkeep a b hfirst, ih hrest]

/-- What a loop makes, it makes item by item. -/
theorem forall₂_of_mapM {f : α → Except ε β} {items : List α} {made : List β}
    (h : items.mapM f = .ok made) : List.Forall₂ (fun a b => f a = .ok b) items made := by
  induction items generalizing made with
  | nil =>
      cases h
      exact .nil
  | cons a rest ih =>
      rw [List.mapM_cons] at h
      obtain ⟨b, hfirst, h⟩ := ok_of_bind h
      obtain ⟨later, hrest, h⟩ := ok_of_bind h
      cases h
      exact .cons hfirst (ih hrest)

theorem single_of_mapM {f : α → Except ε β} {a : α} {made : List β}
    (h : [a].mapM f = .ok made) : ∃ b, f a = .ok b ∧ made = [b] := by
  rw [List.mapM_cons] at h
  obtain ⟨b, hfirst, h⟩ := ok_of_bind h
  cases h
  exact ⟨b, hfirst, rfl⟩

theorem mapM_ok {f : α → Except ε β} {g : α → β} {items : List α}
    (h : ∀ a ∈ items, f a = .ok (g a)) : items.mapM f = .ok (items.map g) := by
  induction items with
  | nil => rfl
  | cons a rest ih =>
      rw [List.forall_mem_cons] at h
      rw [List.mapM_cons, h.1, ih h.2]
      rfl

/-- What a loop has made, one of its steps has. -/
theorem exists_of_mem_mapM {f : α → Except ε β} {items : List α} {made : List β}
    (h : items.mapM f = .ok made) {b : β} (hb : b ∈ made) : ∃ a ∈ items, f a = .ok b := by
  induction items generalizing made with
  | nil =>
      cases h
      cases hb
  | cons a rest ih =>
      rw [List.mapM_cons] at h
      obtain ⟨first, hfirst, h⟩ := ok_of_bind h
      obtain ⟨later, hrest, h⟩ := ok_of_bind h
      cases h
      rcases List.mem_cons.mp hb with rfl | hlater
      · exact ⟨a, List.mem_cons_self, hfirst⟩
      · obtain ⟨a', ha', hmade⟩ := ih hrest hlater
        exact ⟨a', List.mem_cons_of_mem _ ha', hmade⟩

theorem exists_mem_of_mapM {f : α → Except ε β} {items : List α} {made : List β}
    (h : items.mapM f = .ok made) {a : α} (ha : a ∈ items) : ∃ b ∈ made, f a = .ok b := by
  induction items generalizing made with
  | nil => cases ha
  | cons first rest ih =>
      rw [List.mapM_cons] at h
      obtain ⟨b, hfirst, h⟩ := ok_of_bind h
      obtain ⟨later, hrest, h⟩ := ok_of_bind h
      cases h
      rcases List.mem_cons.mp ha with rfl | hlater
      · exact ⟨b, List.mem_cons_self, hfirst⟩
      · obtain ⟨b', hb', hmade⟩ := ih hrest hlater
        exact ⟨b', List.mem_cons_of_mem _ hb', hmade⟩

/-- A loop whose steps follow those of another follows it. -/
theorem mapM_of_mapM {f : α → Except ε β} {f' : α → Except ε γ} {g : β → γ} {items : List α}
    (hstep : ∀ a ∈ items, ∀ b, f a = .ok b → f' a = .ok (g b)) {made : List β}
    (h : items.mapM f = .ok made) : items.mapM f' = .ok (made.map g) := by
  induction items generalizing made with
  | nil =>
      cases h
      rfl
  | cons a rest ih =>
      rw [List.mapM_cons] at h
      obtain ⟨b, hfirst, h⟩ := ok_of_bind h
      obtain ⟨later, hrest, h⟩ := ok_of_bind h
      cases h
      rw [List.forall_mem_cons] at hstep
      rw [List.mapM_cons, hstep.1 b hfirst, ih hstep.2 hrest]
      rfl

/-- A loop ends well where each of its steps does. -/
theorem exists_mapM_iff {f : α → Except ε β} {items : List α} :
    (∃ made, items.mapM f = .ok made) ↔ ∀ a ∈ items, ∃ b, f a = .ok b := by
  induction items with
  | nil =>
      refine ⟨fun _ a ha => absurd ha List.not_mem_nil, fun _ => ⟨[], rfl⟩⟩
  | cons a rest ih =>
      rw [List.forall_mem_cons, ← ih]
      constructor
      · rintro ⟨made, h⟩
        rw [List.mapM_cons] at h
        obtain ⟨b, hfirst, h⟩ := ok_of_bind h
        obtain ⟨later, hrest, -⟩ := ok_of_bind h
        exact ⟨⟨b, hfirst⟩, later, hrest⟩
      · rintro ⟨⟨b, hfirst⟩, later, hrest⟩
        refine ⟨b :: later, ?_⟩
        rw [List.mapM_cons, hfirst, hrest]
        rfl

/-- The computation ends well. -/
def Returns (x : Except ε α) : Prop := ∃ a, x = .ok a

theorem returns_ok (a : α) : Returns (.ok a : Except ε α) := ⟨a, rfl⟩

theorem returns_bind {x : Except ε α} {f : α → Except ε β} (hx : Returns x)
    (hf : ∀ a, x = .ok a → Returns (f a)) : Returns (x >>= f) := by
  obtain ⟨a, rfl⟩ := hx
  exact hf a rfl

/-- Where a beginning ends well, the rest says whether the whole does. -/
theorem returns_bind_iff {x : Except ε α} {f : α → Except ε β} {P : Prop} (hx : Returns x)
    (hf : ∀ a, x = .ok a → (Returns (f a) ↔ P)) : Returns (x >>= f) ↔ P := by
  obtain ⟨a, rfl⟩ := hx
  exact hf a rfl

theorem returns_mapM {f : α → Except ε β} {items : List α} (h : ∀ a ∈ items, Returns (f a)) :
    Returns (items.mapM f) := exists_mapM_iff.mpr h

/-- What a loop makes of the items of a kind is what it makes, of the kind. -/
theorem mapM_filter {f : α → Except ε β} {p : α → Bool} {q : β → Bool}
    (hkind : ∀ a b, f a = .ok b → q b = p a) {items : List α} {made : List β}
    (h : items.mapM f = .ok made) : (items.filter p).mapM f = .ok (made.filter q) := by
  induction items generalizing made with
  | nil =>
      cases h
      rfl
  | cons a rest ih =>
      rw [List.mapM_cons] at h
      obtain ⟨b, hfirst, h⟩ := ok_of_bind h
      obtain ⟨later, hrest, h⟩ := ok_of_bind h
      cases h
      rw [List.filter_cons, List.filter_cons, hkind a b hfirst]
      split
      · rw [List.mapM_cons, hfirst, ih hrest]
        rfl
      · exact ih hrest

/-- A loop over the items in another order makes the same in another order. -/
theorem mapM_perm {f : α → Except ε β} {items others : List α} (hperm : items.Perm others)
    {made : List β} (h : items.mapM f = .ok made) :
    ∃ made', others.mapM f = .ok made' ∧ made.Perm made' := by
  induction hperm generalizing made with
  | nil => exact ⟨made, h, List.Perm.refl _⟩
  | cons a _ ih =>
      rw [List.mapM_cons] at h
      obtain ⟨b, hfirst, h⟩ := ok_of_bind h
      obtain ⟨later, hrest, h⟩ := ok_of_bind h
      cases h
      obtain ⟨later', hrest', hlater⟩ := ih hrest
      refine ⟨b :: later', ?_, hlater.cons b⟩
      rw [List.mapM_cons, hfirst, hrest']
      rfl
  | swap a a' rest =>
      rw [List.mapM_cons, List.mapM_cons] at h
      obtain ⟨b', hsecond, h⟩ := ok_of_bind h
      obtain ⟨_, htail, h⟩ := ok_of_bind h
      obtain ⟨b, hfirst, htail⟩ := ok_of_bind htail
      obtain ⟨later, hrest, htail⟩ := ok_of_bind htail
      cases htail
      cases h
      refine ⟨b :: b' :: later, ?_, List.Perm.swap b b' later⟩
      rw [List.mapM_cons, List.mapM_cons, hfirst, hsecond, hrest]
      rfl
  | trans _ _ ih ih' =>
      obtain ⟨between, hbetween, hfirst⟩ := ih h
      obtain ⟨made', hmade', hsecond⟩ := ih' hbetween
      exact ⟨made', hmade', hfirst.trans hsecond⟩

/-- What a loop marks is what its test holds of. -/
theorem filter_of_mapM [DecidableEq (Except ε Bool)] {f : α → Except ε Bool} {items : List α}
    {marked : List (α × Bool)} (h : (items.mapM fun a => do .ok (a, ← f a)) = .ok marked) :
    (marked.filter Prod.snd).map Prod.fst = items.filter fun a => decide (f a = .ok true) := by
  induction items generalizing marked with
  | nil =>
      cases h
      rfl
  | cons a rest ih =>
      rw [List.mapM_cons] at h
      obtain ⟨first, hfirst, h⟩ := ok_of_bind h
      obtain ⟨later, hrest, h⟩ := ok_of_bind h
      obtain ⟨mark, hmark, hfirst⟩ := ok_of_bind hfirst
      cases h
      cases hfirst
      rw [List.filter_cons, List.filter_cons, hmark]
      cases mark with
      | true => rw [if_pos rfl, if_pos (by simp), List.map_cons, ih hrest]
      | false => rw [if_neg (by simp), if_neg (by simp), ih hrest]

section Pairs

variable {δ ε' : Type} {R : α → β → Prop} {S : γ → δ → Prop}

/-- Two computations that both go well, with related results, or both raise. -/
inductive Together (R : α → β → Prop) : Except ε α → Except ε' β → Prop
  | ok {a : α} {b : β} (h : R a b) : Together R (.ok a) (.ok b)
  | raise (e : ε) (e' : ε') : Together R (.error e) (.error e')

/-- What follows may rely on where its inputs come from. -/
theorem Together.bind_of {x : Except ε α} {y : Except ε' β} {f : α → Except ε γ}
    {g : β → Except ε' δ} (h : Together R x y)
    (hnext : ∀ a b, x = .ok a → y = .ok b → R a b → Together S (f a) (g b)) :
    Together S (x >>= f) (y >>= g) := by
  cases h with
  | ok hrel => exact hnext _ _ rfl rfl hrel
  | raise e e' => exact .raise e e'

theorem Together.bind {x : Except ε α} {y : Except ε' β} {f : α → Except ε γ}
    {g : β → Except ε' δ} (h : Together R x y) (hnext : ∀ a b, R a b → Together S (f a) (g b)) :
    Together S (x >>= f) (y >>= g) :=
  h.bind_of fun a b _ _ => hnext a b

theorem Together.mono {R' : α → β → Prop} {x : Except ε α} {y : Except ε' β}
    (h : Together R x y) (himp : ∀ a b, R a b → R' a b) : Together R' x y := by
  cases h with
  | ok hrel => exact .ok (himp _ _ hrel)
  | raise e e' => exact .raise e e'

theorem Together.mapM {f : α → Except ε γ} {g : β → Except ε' δ}
    (hstep : ∀ a b, R a b → Together S (f a) (g b)) {xs : List α} {ys : List β}
    (h : List.Forall₂ R xs ys) : Together (List.Forall₂ S) (xs.mapM f) (ys.mapM g) := by
  induction h with
  | nil => exact .ok .nil
  | cons hfirst _ ih =>
      rw [List.mapM_cons, List.mapM_cons]
      apply Together.bind (hstep _ _ hfirst)
      intro c d hcd
      apply Together.bind ih
      intro cs ds hrest
      exact .ok (.cons hcd hrest)

end Pairs

end SeoPlatform.Foundation.ExceptFlow
