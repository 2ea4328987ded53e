import Mathlib.Data.List.Pairwise
import Mathlib.Logic.Function.Basic
import Mathlib.Logic.Relation
import Mathlib.Order.Lattice

namespace SeoPlatform.Foundation.SequentialFlow

variable {ι : Type} [LinearOrder ι]

/-- How far one stage of a flow is. A failure that does not stop the flow is
`forgiven`. -/
inductive Progress where
  | absent
  | waiting
  | inFlight
  | done
  | failed
  | forgiven
  | skipped
  deriving DecidableEq

/-- The stage was sent out at some time. -/
def Progress.Launched (p : Progress) : Prop :=
  p = .inFlight ∨ p = .done ∨ p = .failed ∨ p = .forgiven

/-- The stage stands in no later stage's way. -/
def Progress.Passed (p : Progress) : Prop :=
  p = .absent ∨ p = .done ∨ p = .forgiven ∨ p = .skipped

/-- A flow of stages in the order of `ι`, with the log of launches. -/
structure Flow (ι : Type) where
  progress : ι → Progress
  log : List ι

def Flow.set (f : Flow ι) (i : ι) (p : Progress) : Flow ι :=
  { f with progress := Function.update f.progress i p }

/-- A stage may move when every stage before it has been passed. -/
def Flow.Due (f : Flow ι) (i : ι) : Prop :=
  f.progress i = .waiting ∧ ∀ j < i, (f.progress j).Passed

inductive Flow.Step : Flow ι → Flow ι → Prop
  | enroll {f g : Flow ι} (habsent : ∀ i, f.progress i = .absent)
      (hwaiting : ∀ i, g.progress i = .absent ∨ g.progress i = .waiting)
      (hlog : g.log = f.log) : Step f g
  | launch {f : Flow ι} {i : ι} (hdue : f.Due i) :
      Step f { f.set i .inFlight with log := f.log ++ [i] }
  | skip {f : Flow ι} {i : ι} (hdue : f.Due i) : Step f (f.set i .skipped)
  | settle {f : Flow ι} {i : ι} {p : Progress} (hflight : f.progress i = .inFlight)
      (hp : p = .done ∨ p = .failed ∨ p = .forgiven) : Step f (f.set i p)

/-- Stages move one after the other: what stands before a stage that has moved
has been passed, and the log lists the launches in the order of the stages. -/
structure Flow.Orderly (f : Flow ι) : Prop where
  before : ∀ i j, i < j → f.progress j ≠ .absent → f.progress j ≠ .waiting →
    (f.progress i).Passed
  sorted : f.log.Pairwise (· < ·)
  logged : ∀ i, i ∈ f.log ↔ (f.progress i).Launched

@[simp] theorem log_set (f : Flow ι) (i : ι) (p : Progress) : (f.set i p).log = f.log := rfl

@[simp] theorem progress_set_self (f : Flow ι) (i : ι) (p : Progress) :
    (f.set i p).progress i = p := by
  simp [Flow.set]

theorem progress_set_of_ne (f : Flow ι) {i j : ι} (p : Progress) (h : j ≠ i) :
    (f.set i p).progress j = f.progress j := by
  simp [Flow.set, h]

theorem not_passed_waiting : ¬ Progress.Passed .waiting := by
  simp [Progress.Passed]

theorem not_passed_inFlight : ¬ Progress.Passed .inFlight := by
  simp [Progress.Passed]

theorem not_launched_waiting : ¬ Progress.Launched .waiting := by
  simp [Progress.Launched]

theorem not_launched_absent : ¬ Progress.Launched .absent := by
  simp [Progress.Launched]

theorem Flow.orderly_idle {f : Flow ι}
    (hidle : ∀ i, f.progress i = .absent ∨ f.progress i = .waiting) (hlog : f.log = []) :
    f.Orderly where
  before i j _ habsent hwaiting := by
    rcases hidle j with h | h
    · exact absurd h habsent
    · exact absurd h hwaiting
  sorted := by
    rw [hlog]
    exact List.Pairwise.nil
  logged i := by
    rcases hidle i with h | h
    · simp [hlog, h, not_launched_absent]
    · simp [hlog, h, not_launched_waiting]

namespace Flow.Orderly

variable {f : Flow ι}

/-- At most one stage is in flight. -/
theorem single (h : f.Orderly) {i j : ι} (hi : f.progress i = .inFlight)
    (hj : f.progress j = .inFlight) : i = j := by
  rcases lt_trichotomy i j with hlt | heq | hlt
  · have hpassed := h.before i j hlt (by simp [hj]) (by simp [hj])
    rw [hi] at hpassed
    exact absurd hpassed not_passed_inFlight
  · exact heq
  · have hpassed := h.before j i hlt (by simp [hi]) (by simp [hi])
    rw [hj] at hpassed
    exact absurd hpassed not_passed_inFlight

/-- Behind a stage that has not been passed, every stage still waits. -/
theorem untouched_after (h : f.Orderly) {i j : ι} (hij : i < j)
    (hi : ¬ (f.progress i).Passed) : f.progress j = .absent ∨ f.progress j = .waiting := by
  by_contra hmoved
  rw [not_or] at hmoved
  exact hi (h.before i j hij hmoved.1 hmoved.2)

/-- Moving one stage that is due, or in flight, keeps the order of the rest. -/
theorem before_set (h : f.Orderly) {i : ι} {p : Progress}
    (hafter : ¬ (f.progress i).Passed) (hbefore : ∀ j < i, (f.progress j).Passed) :
    ∀ a b, a < b → (f.set i p).progress b ≠ .absent → (f.set i p).progress b ≠ .waiting →
      ((f.set i p).progress a).Passed := by
  intro a b hab habsent hwaiting
  by_cases hb : b = i
  · subst hb
    rw [progress_set_of_ne f p (ne_of_lt hab)]
    exact hbefore a hab
  · rw [progress_set_of_ne f p hb] at habsent hwaiting
    by_cases ha : a = i
    · subst ha
      rcases h.untouched_after hab hafter with h' | h'
      · exact absurd h' habsent
      · exact absurd h' hwaiting
    · rw [progress_set_of_ne f p ha]
      exact h.before a b hab habsent hwaiting

theorem launch (h : f.Orderly) {i : ι} (hdue : f.Due i) :
    Flow.Orderly { f.set i .inFlight with log := f.log ++ [i] } where
  before := h.before_set (by rw [hdue.1]; exact not_passed_waiting) hdue.2
  sorted := by
    refine List.pairwise_append.mpr ⟨h.sorted, List.pairwise_singleton _ _, ?_⟩
    intro j hj k hk
    obtain rfl := List.mem_singleton.mp hk
    by_contra hle
    have hlaunched := (h.logged j).mp hj
    rcases lt_or_eq_of_le (not_lt.mp hle) with hlt | heq
    · rcases h.untouched_after hlt (by rw [hdue.1]; exact not_passed_waiting) with h' | h'
      · exact not_launched_absent (h' ▸ hlaunched)
      · exact not_launched_waiting (h' ▸ hlaunched)
    · rw [← heq, hdue.1] at hlaunched
      exact not_launched_waiting hlaunched
  logged j := by
    by_cases hj : j = i
    · subst hj
      simp [Progress.Launched]
    · rw [progress_set_of_ne f _ hj, ← h.logged j]
      simp [hj]

theorem skip (h : f.Orderly) {i : ι} (hdue : f.Due i) : (f.set i .skipped).Orderly where
  before := h.before_set (by rw [hdue.1]; exact not_passed_waiting) hdue.2
  sorted := h.sorted
  logged j := by
    rw [log_set, h.logged j]
    by_cases hj : j = i
    · subst hj
      simp [hdue.1, Progress.Launched]
    · rw [progress_set_of_ne f _ hj]

theorem settle (h : f.Orderly) {i : ι} {p : Progress} (hflight : f.progress i = .inFlight)
    (hp : p = .done ∨ p = .failed ∨ p = .forgiven) : (f.set i p).Orderly where
  before := by
    refine h.before_set (by rw [hflight]; exact not_passed_inFlight) fun j hj => ?_
    exact h.before j i hj (by simp [hflight]) (by simp [hflight])
  sorted := h.sorted
  logged j := by
    rw [log_set, h.logged j]
    by_cases hj : j = i
    · subst hj
      rw [progress_set_self, hflight]
      rcases hp with rfl | rfl | rfl <;> simp [Progress.Launched]
    · rw [progress_set_of_ne f _ hj]

theorem step (h : f.Orderly) {g : Flow ι} (hstep : f.Step g) : g.Orderly := by
  cases hstep with
  | enroll habsent hwaiting hlog =>
      refine Flow.orderly_idle hwaiting ?_
      rw [hlog, List.eq_nil_iff_forall_not_mem]
      intro i hi
      have hlaunched := (h.logged i).mp hi
      rw [habsent i] at hlaunched
      exact not_launched_absent hlaunched
  | launch hdue => exact h.launch hdue
  | skip hdue => exact h.skip hdue
  | settle hflight hp => exact h.settle hflight hp

/-- Order survives every sequence of moves. -/
theorem steps (h : f.Orderly) {g : Flow ι} (hsteps : Relation.ReflTransGen Flow.Step f g) :
    g.Orderly := by
  induction hsteps with
  | refl => exact h
  | tail _ hstep ih => exact ih.step hstep

end Flow.Orderly

end SeoPlatform.Foundation.SequentialFlow
