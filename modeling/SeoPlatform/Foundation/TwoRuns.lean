import SeoPlatform.Foundation.SqlTransaction

namespace SeoPlatform.Foundation.TwoRuns

open SeoPlatform.Foundation.SqlTransaction

variable {σ τ ε α β γ δ : Type}

/-- Two connections the server treats alike, on tables that stand in a relation. -/
structure Alike (R : σ → τ → Prop) (x : Session σ ε) (y : Session τ ε) : Prop where
  state : R x.state y.state
  aborted : x.aborted = y.aborted
  faults : x.faults = y.faults

/-- The same error, or values that belong together. -/
inductive Agrees (V : α → β → Prop) : Except ε α → Except ε β → Prop
  | ok {a : α} {b : β} (h : V a b) : Agrees V (.ok a) (.ok b)
  | error (e : ε) : Agrees V (.error e) (.error e)

/-- The same value, of a kind. -/
def Same (P : α → Prop) (a b : α) : Prop := b = a ∧ P a

/-- On tables that stand in the relation the two programs end alike, and leave tables that
stand in it. -/
def Follows (R : σ → τ → Prop) (p : Tx σ ε α) (q : Tx τ ε β) (V : α → β → Prop) : Prop :=
  ∀ x y, Alike R x y → Agrees V (p.run x).1 (q.run y).1 ∧ Alike R (p.run x).2 (q.run y).2

variable {R : σ → τ → Prop} {V W : α → β → Prop}

theorem Agrees.mono {r : Except ε α} {r' : Except ε β} (h : Agrees V r r')
    (hVW : ∀ a b, V a b → W a b) : Agrees W r r' := by
  cases h with
  | ok h => exact .ok (hVW _ _ h)
  | error e => exact .error e

theorem Follows.mono {p : Tx σ ε α} {q : Tx τ ε β} (h : Follows R p q V)
    (hVW : ∀ a b, V a b → W a b) : Follows R p q W := by
  intro x y hxy
  obtain ⟨hvalues, hafter⟩ := h x y hxy
  exact ⟨hvalues.mono hVW, hafter⟩

theorem pure_follows {a : α} {b : β} (h : V a b) :
    Follows R (pure a : Tx σ ε α) (pure b : Tx τ ε β) V :=
  fun _ _ hxy => ⟨.ok h, hxy⟩

theorem throw_follows (e : ε) : Follows R (throw e : Tx σ ε α) (throw e : Tx τ ε β) V :=
  fun _ _ hxy => ⟨.error e, hxy⟩

theorem fromExcept_follows {r : Except ε α} {r' : Except ε β} (h : Agrees V r r') :
    Follows R (fromExcept r : Tx σ ε α) (fromExcept r' : Tx τ ε β) V := by
  cases h with
  | ok h => exact pure_follows h
  | error e => exact throw_follows e

/-- The rule of sequence, for two programs. -/
theorem bind_follows {p : Tx σ ε α} {q : Tx τ ε β} {k : α → Tx σ ε γ} {l : β → Tx τ ε δ}
    {U : γ → δ → Prop} (hp : Follows R p q V) (hk : ∀ a b, V a b → Follows R (k a) (l b) U) :
    Follows R (p >>= k) (q >>= l) U := by
  intro x y hxy
  obtain ⟨hvalues, hafter⟩ := hp x y hxy
  simp only [bind]
  rcases hrun : p.run x with ⟨r, x'⟩
  rcases hrun' : q.run y with ⟨r', y'⟩
  rw [hrun, hrun'] at hvalues hafter
  cases hvalues with
  | ok h => exact hk _ _ h x' y' hafter
  | error e => exact ⟨.error e, hafter⟩

theorem tryCatch_follows {p : Tx σ ε α} {q : Tx τ ε β} {handler : ε → Tx σ ε α}
    {handler' : ε → Tx τ ε β} (hp : Follows R p q V)
    (hhandler : ∀ e, Follows R (handler e) (handler' e) V) :
    Follows R (tryCatch p handler) (tryCatch q handler') V := by
  intro x y hxy
  obtain ⟨hvalues, hafter⟩ := hp x y hxy
  simp only [tryCatch, tryCatchThe, MonadExceptOf.tryCatch]
  rcases hrun : p.run x with ⟨r, x'⟩
  rcases hrun' : q.run y with ⟨r', y'⟩
  rw [hrun, hrun'] at hvalues hafter
  cases hvalues with
  | ok h => exact ⟨.ok h, hafter⟩
  | error e => exact hhandler e x' y' hafter

/-- The rule of one statement, for two. -/
theorem statement_follows [SqlError ε] {f : σ → Except ε (α × σ)} {g : τ → Except ε (β × τ)}
    (h : ∀ s t, R s t → Agrees (fun a b => V a.1 b.1 ∧ R a.2 b.2) (f s) (g t)) :
    Follows R (statement f) (statement g) V := by
  rintro ⟨s, aborted, faults⟩ ⟨t, _, _⟩ ⟨hst, rfl, rfl⟩
  dsimp only [statement, answer, Session.fault]
  cases aborted with
  | true => exact ⟨.error _, hst, rfl, rfl⟩
  | false =>
      cases faults.head?.join with
      | some e => exact ⟨.error e, hst, rfl, rfl⟩
      | none =>
          rw [if_neg Bool.false_ne_true, if_neg Bool.false_ne_true]
          dsimp only
          have hends := h s t hst
          generalize f s = r, g t = r' at hends ⊢
          cases hends with
          | ok hends => exact ⟨.ok hends.1, hends.2, rfl, rfl⟩
          | error e => exact ⟨.error e, hst, rfl, rfl⟩

theorem query_follows [SqlError ε] {f : σ → α} {g : τ → β}
    (h : ∀ s t, R s t → V (f s) (g t)) :
    Follows R (query f : Tx σ ε α) (query g : Tx τ ε β) V :=
  statement_follows fun s t hst => .ok ⟨h s t hst, hst⟩

theorem modify_follows [SqlError ε] {f : σ → σ} {g : τ → τ} {V : Unit → Unit → Prop}
    (hV : V () ()) (h : ∀ s t, R s t → R (f s) (g t)) :
    Follows R (modify f : Tx σ ε Unit) (modify g : Tx τ ε Unit) V :=
  statement_follows fun s t hst => .ok ⟨hV, h s t hst⟩

/-- Two transactions end alike, committed or rolled back. -/
theorem transaction_follows {p : Tx σ ε α} {q : Tx τ ε β} (h : Follows R p q V)
    (faults : List (Option ε)) {s : σ} {t : τ} (hst : R s t) :
    Agrees V (transaction p faults s).1 (transaction q faults t).1 ∧
      R (transaction p faults s).2 (transaction q faults t).2 := by
  obtain ⟨hvalues, hafter⟩ := h (.opened s faults) (.opened t faults) ⟨hst, rfl, rfl⟩
  unfold transaction
  rcases hrun : p.run (.opened s faults) with ⟨r, x⟩
  rcases hrun' : q.run (.opened t faults) with ⟨r', y⟩
  rw [hrun, hrun'] at hvalues hafter
  cases hvalues with
  | error e => exact ⟨.error e, hst⟩
  | ok hvalue =>
      have hfault : y.fault = x.fault := by
        unfold Session.fault
        rw [hafter.faults]
      dsimp only
      rw [hfault]
      cases x.fault with
      | some e => exact ⟨.error e, hst⟩
      | none =>
          refine ⟨.ok hvalue, ?_⟩
          dsimp only
          rw [← hafter.aborted]
          split
          · exact hst
          · exact hafter.state

end SeoPlatform.Foundation.TwoRuns
