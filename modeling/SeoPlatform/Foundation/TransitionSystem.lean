import Mathlib.Data.List.Induction
import Mathlib.Logic.Relation

namespace SeoPlatform.Foundation.TransitionSystem

universe u v

variable {σ : Type u} {ι : Type v} {step : σ → ι → Option σ}

/-- A run of a partial step function, with every state it left and the label
it left it by. -/
inductive Run (step : σ → ι → Option σ) (start : σ) : List (σ × ι) → σ → Prop
  | refl : Run step start [] start
  | snoc {past : List (σ × ι)} {s s' : σ} {label : ι} (run : Run step start past s)
      (hstep : step s label = some s') : Run step start (past ++ [(s, label)]) s'

/-- What a list of labels does: the moments it goes through, and where it ends. -/
def replay (step : σ → ι → Option σ) : σ → List ι → Option (List (σ × ι) × σ)
  | s, [] => some ([], s)
  | s, label :: labels =>
      (step s label).bind fun s' =>
        (replay step s' labels).map fun rest => ((s, label) :: rest.1, rest.2)

theorem Run.single {s s' : σ} {label : ι} (h : step s label = some s') :
    Run step s [(s, label)] s' :=
  Run.snoc Run.refl h

theorem Run.trans {start s s' : σ} {past later : List (σ × ι)}
    (run : Run step start past s) (rest : Run step s later s') :
    Run step start (past ++ later) s' := by
  induction rest with
  | refl => simpa using run
  | snoc _ hstep ih =>
      rw [← List.append_assoc]
      exact ih.snoc hstep

theorem Run.of_replay {s : σ} {labels : List ι} {past : List (σ × ι)} {s' : σ}
    (h : replay step s labels = some (past, s')) :
    past.map Prod.snd = labels ∧ Run step s past s' := by
  induction labels generalizing s past with
  | nil =>
      cases h
      exact ⟨rfl, .refl⟩
  | cons label labels ih =>
      obtain ⟨s₁, hstep, hrest⟩ := Option.bind_eq_some_iff.mp h
      obtain ⟨rest, hreplay, heq⟩ := Option.map_eq_some_iff.mp hrest
      cases heq
      obtain ⟨hlabels, run⟩ := ih hreplay
      exact ⟨by simp [hlabels], (Run.single hstep).trans run⟩

/-- A check of what a list of labels does is a check of a run. -/
theorem Run.of_check (step : σ → ι → Option σ) (s : σ) (labels : List ι)
    (check : List (σ × ι) → σ → Bool)
    (h : (replay step s labels).any (fun r => check r.1 r.2) = true) :
    ∃ past s', past.map Prod.snd = labels ∧ Run step s past s' ∧ check past s' = true := by
  obtain ⟨⟨past, s'⟩, hreplay, hcheck⟩ := (Option.any_eq_true _ _).mp h
  obtain ⟨hlabels, run⟩ := Run.of_replay hreplay
  exact ⟨past, s', hlabels, run, hcheck⟩

/-- What holds at the start and survives every step holds after every run. -/
theorem Run.invariant {start s : σ} {past : List (σ × ι)} (run : Run step start past s)
    (I : σ → Prop) (hstart : I start)
    (hstep : ∀ s label s', I s → step s label = some s' → I s') : I s := by
  induction run with
  | refl => exact hstart
  | snoc _ h ih => exact hstep _ _ _ ih h

/-- The invariant rule for runs whose steps all meet a condition. -/
theorem Run.invariant_of {start s : σ} {past : List (σ × ι)} (run : Run step start past s)
    (allowed : σ → ι → Prop) (hpast : ∀ moment ∈ past, allowed moment.1 moment.2)
    (I : σ → Prop) (hstart : I start)
    (hstep : ∀ s label s', I s → allowed s label → step s label = some s' → I s') : I s := by
  induction run with
  | refl => exact hstart
  | snoc _ h ih =>
      have hbefore := ih fun moment hmem => hpast moment (List.mem_append_left _ hmem)
      exact hstep _ _ _ hbefore (hpast _ (List.mem_append_right _ (List.mem_singleton_self _))) h

/-- What went before a moment of a run is a run to its state. -/
theorem Run.before {start s : σ} {before after : List (σ × ι)} {moment : σ × ι}
    (run : Run step start (before ++ moment :: after) s) : Run step start before moment.1 := by
  induction after using List.reverseRecOn generalizing s with
  | nil =>
      generalize hpast : before ++ [moment] = past at run
      cases run with
      | refl => simp at hpast
      | snoc run _ =>
          obtain ⟨rfl, rfl⟩ := List.append_singleton_inj.mp hpast
          exact run
  | append_singleton after last ih =>
      generalize hpast : before ++ moment :: (after ++ [last]) = past at run
      cases run with
      | refl => simp at hpast
      | snoc run _ =>
          rw [← List.cons_append, ← List.append_assoc] at hpast
          obtain ⟨rfl, rfl⟩ := List.append_singleton_inj.mp hpast
          exact ih run

/-- Every moment of a run was reached by the part of the run before it, and
left by a step. -/
theorem Run.moment {start s : σ} {past : List (σ × ι)} (run : Run step start past s)
    {moment : σ × ι} (hmem : moment ∈ past) :
    ∃ earlier later s', past = earlier ++ moment :: later ∧
      Run step start earlier moment.1 ∧ step moment.1 moment.2 = some s' ∧
      Run step s' later s := by
  induction run with
  | refl => simp at hmem
  | @snoc past s₁ s₂ label run hstep ih =>
      rcases List.mem_append.mp hmem with hmem | hmem
      · obtain ⟨earlier, later, s', rfl, hearlier, hnext, hlater⟩ := ih hmem
        exact ⟨earlier, later ++ [(s₁, label)], s', by simp, hearlier, hnext,
          hlater.snoc hstep⟩
      · obtain rfl := List.mem_singleton.mp hmem
        exact ⟨past, [], s₂, rfl, run, hstep, .refl⟩

/-- A run taken apart at one of its moments. -/
theorem Run.split {start s : σ} {before after : List (σ × ι)} {moment : σ × ι}
    (run : Run step start (before ++ moment :: after) s) :
    ∃ s', Run step start before moment.1 ∧ step moment.1 moment.2 = some s' ∧
      Run step s' after s := by
  induction after using List.reverseRecOn generalizing s with
  | nil =>
      generalize hpast : before ++ [moment] = past at run
      cases run with
      | refl => simp at hpast
      | snoc run hstep =>
          obtain ⟨rfl, rfl⟩ := List.append_singleton_inj.mp hpast
          exact ⟨s, run, hstep, .refl⟩
  | append_singleton after last ih =>
      generalize hpast : before ++ moment :: (after ++ [last]) = past at run
      cases run with
      | refl => simp at hpast
      | snoc run hstep =>
          rw [← List.cons_append, ← List.append_assoc] at hpast
          obtain ⟨rfl, rfl⟩ := List.append_singleton_inj.mp hpast
          obtain ⟨s', hbefore, hmoment, hafter⟩ := ih run
          exact ⟨s', hbefore, hmoment, hafter.snoc hstep⟩

/-- What survives every step holds to the end of a run. -/
theorem Run.stays {start s : σ} {past : List (σ × ι)} (run : Run step start past s)
    (I : σ → Prop) (hstep : ∀ s label s', I s → step s label = some s' → I s')
    {moment : σ × ι} (hmem : moment ∈ past) (h : I moment.1) : I s := by
  obtain ⟨earlier, later, s', -, -, hnext, hlater⟩ := run.moment hmem
  exact hlater.invariant I (hstep _ _ _ h hnext) hstep

/-- The run of a part of a system, where each step of the whole is one of the part or
leaves it alone. -/
theorem Run.project {τ : Type u} {κ : Type v} {step' : τ → κ → Option τ} {start s : σ}
    {past : List (σ × ι)} (run : Run step start past s) (part : σ → τ) (is : σ → ι → κ → Prop)
    (hstep : ∀ s label s', step s label = some s' → part s' = part s ∨
      ∃ own, is s label own ∧ step' (part s) own = some (part s')) :
    ∃ own, Run step' (part start) own (part s) ∧
      ∀ moment ∈ own, ∃ whole ∈ past, is whole.1 whole.2 moment.2 := by
  induction run with
  | refl => exact ⟨[], .refl, fun _ hmem => absurd hmem List.not_mem_nil⟩
  | @snoc past s s' label _ hnext ih =>
      obtain ⟨own, hrun, hlabels⟩ := ih
      have hearlier : ∀ moment ∈ own, ∃ whole ∈ past ++ [(s, label)],
          is whole.1 whole.2 moment.2 := by
        intro moment hmem
        obtain ⟨whole, hwhole, his⟩ := hlabels moment hmem
        exact ⟨whole, List.mem_append_left _ hwhole, his⟩
      rcases hstep s label s' hnext with hsame | ⟨next, his, hpart⟩
      · exact ⟨own, hsame ▸ hrun, hearlier⟩
      · refine ⟨own ++ [(part s, next)], hrun.snoc hpart, fun moment hmem => ?_⟩
        rcases List.mem_append.mp hmem with hold | hnew
        · exact hearlier moment hold
        · rw [List.mem_singleton.mp hnew]
          exact ⟨(s, label), List.mem_append_right _ (List.mem_singleton_self _), his⟩

/-- The states a run went through, its last one included. -/
def visited (past : List (σ × ι)) (s : σ) : List σ := past.map Prod.fst ++ [s]

theorem mem_visited_snoc {past : List (σ × ι)} {s s' t : σ} {label : ι} :
    t ∈ visited (past ++ [(s, label)]) s' ↔ t ∈ visited past s ∨ t = s' := by
  simp [visited, or_assoc]

theorem last_mem_visited (past : List (σ × ι)) (s : σ) : s ∈ visited past s := by
  simp [visited]

end SeoPlatform.Foundation.TransitionSystem
