import SeoPlatform.Orchestrator.Changes

namespace SeoPlatform.Orchestrator.NoWork

open SeoPlatform.Foundation.JsonValue
open SeoPlatform.Foundation.UrlText
open SeoPlatform.Orchestrator.Planner
open SeoPlatform.Orchestrator.Store
open SeoPlatform.Orchestrator.Engine
open SeoPlatform.Orchestrator.Changes
open SeoPlatform.Shared.Contracts
open SeoPlatform.Shared.Exceptions
open SeoPlatform.Shared.Events

variable {α β : Type}

/-- The computation raises ordinary exceptions only. -/
def Ordinary (r : Except Exn α) : Prop := ∀ e, r = .error e → e.Ordinary

theorem ordinary_ok (a : α) : Ordinary (.ok a : Except Exn α) := fun _ h => by cases h

theorem ordinary_error {e : Exn} (h : e.Ordinary) : Ordinary (.error e : Except Exn α) := by
  rintro _ ⟨⟩
  exact h

theorem ordinary_bind {r : Except Exn α} {k : α → Except Exn β} (hr : Ordinary r)
    (hk : ∀ a, Ordinary (k a)) : Ordinary (r >>= k) := by
  intro e h
  cases r with
  | error e' =>
      cases h
      exact hr e rfl
  | ok a => exact hk a e h

theorem ordinary_mapError (r : Except String α) : Ordinary (r.mapError .valueError) := by
  intro e h
  cases r <;> cases h
  trivial

theorem ordinary_domainOf (rules : TextRules) (url : String) : Ordinary (domainOf rules url) :=
  ordinary_bind (ordinary_mapError _) fun _ => ordinary_ok _

theorem ordinary_seedFromDomain (rules : TextRules) (url : String) :
    Ordinary (seedFromDomain rules url) :=
  ordinary_bind (ordinary_domainOf rules url) fun _ => ordinary_ok _

theorem ordinary_resolveSeed (env : Env) (seed startUrl : Option String) (result : Option Dict) :
    Ordinary (resolveSeed env.rules env.otherSeed seed startUrl result) := by
  unfold resolveSeed
  dsimp only
  split
  · exact ordinary_ok _
  · split
    · exact ordinary_seedFromDomain _ _
    · exact env.otherSeed_raises _

theorem ordinary_crawlRequestParams (w : Workflow) (step : Step) :
    Ordinary (crawlRequestParams w step) := by
  unfold crawlRequestParams
  split
  · exact ordinary_ok _
  · split
    · exact ordinary_error trivial
    · exact ordinary_ok _

theorem ordinary_researchRequestParams (env : Env) (w : Workflow) :
    Ordinary (researchRequestParams env w) := by
  refine ordinary_bind (ordinary_resolveSeed env _ _ _) fun seed => ?_
  split
  · exact ordinary_error trivial
  · exact ordinary_ok _

/-- The kinds of step that may have nothing to do. -/
def MaySkip : StepKind → Prop
  | .serpCheck | .linkAnalysis | .contentAnalysis | .optimizerPlan | .competitorCheck => True
  | .crawl | .keywordResearch | .competitorCrawl => False

/-- Where a request found nothing to do, it was its parameters that did. -/
theorem noWork_of_dispatchEvent {env : Env} {eventId reason : String} {w : Workflow} {step : Step}
    (h : dispatchEvent env eventId w step = .error (.noWorkToDo reason)) :
    requestParams env w step = .error (.noWorkToDo reason) := by
  unfold dispatchEvent at h
  cases hparams : requestParams env w step with
  | error e =>
      simp only [hparams, bind, Except.bind, Except.error.injEq] at h
      rw [h]
  | ok params =>
      simp only [hparams, bind, Except.bind, validateEvent] at h
      split at h
      · rename_i err hvalid
        split at hvalid <;> cases hvalid
        cases h
      · cases h

theorem maySkip_of_noWork {env : Env} {reason : String} {w : Workflow} {step : Step}
    (h : requestParams env w step = .error (.noWorkToDo reason)) : MaySkip step.kind := by
  unfold requestParams at h
  cases hkind : step.kind with
  | crawl | competitorCrawl =>
      simp only [hkind] at h
      exact ordinary_crawlRequestParams w step _ h
  | keywordResearch =>
      simp only [hkind] at h
      exact ordinary_researchRequestParams env w _ h
  | serpCheck | linkAnalysis | contentAnalysis | optimizerPlan | competitorCheck => trivial

/-- The computation does not end in `NoWorkToDo`. -/
def Busy (r : Except Exn α) : Prop := ∀ reason, r ≠ .error (.noWorkToDo reason)

/-- A step behind your own crawl has something to do once that crawl has an id. -/
theorem busy_behind_crawl {env : Env} {w : Workflow} {step : Step}
    (hkind : step.kind = .linkAnalysis ∨ step.kind = .optimizerPlan)
    (hcrawl : (ownCrawlId w).truthy = true) : Busy (requestParams env w step) := by
  intro reason h
  unfold requestParams at h
  rcases hkind with hkind | hkind
  · simp [hkind, linksParams, hcrawl] at h
  · simp [hkind, optimizerParams, hcrawl] at h

end SeoPlatform.Orchestrator.NoWork
