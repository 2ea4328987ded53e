import SeoPlatform.Engine.MoreIssues

namespace SeoPlatform.Engine.ScoreRanges

open SeoPlatform.Crawler.Models
open SeoPlatform.Engine.AuditReport
open SeoPlatform.Engine.MoreIssues
open SeoPlatform.Foundation.UrlText

/-- The scores that the overall score is the mean of. -/
noncomputable def activeScores (rules : TextRules) (ctx : SiteContext) (issues : List Issue) :
    List CategoryScore :=
  (categories.filter (isActive rules ctx issues)).map
    (scoreOf Real.sqrt issues (max 1 (ctx.htmlPages rules).length))

section Ranges

variable {rules : TextRules} {ctx : SiteContext} {issues : List Issue} {generatedAt : String}

theorem perm_activeScores :
    (buildReport Real.sqrt rules ctx issues generatedAt).categoryScores.Perm
      (activeScores rules ctx issues) :=
  List.perm_insertionSort _ _

theorem activeScores_ne_nil : activeScores rules ctx issues ≠ [] := by
  have hcore : Category.indexing ∈ categories.filter (isActive rules ctx issues) :=
    List.mem_filter.mpr ⟨List.mem_cons_self, rfl⟩
  intro hnil
  rw [activeScores, List.map_eq_nil_iff] at hnil
  rw [hnil] at hcore
  exact List.not_mem_nil hcore

/-- Among the scores there are a lowest and a highest one. -/
theorem exists_extremes {scores : List CategoryScore} (h : scores ≠ []) :
    ∃ low ∈ scores, ∃ high ∈ scores, ∀ c ∈ scores, low.score ≤ c.score ∧ c.score ≤ high.score := by
  have hsome : scores.toFinset.Nonempty := List.toFinset_nonempty_iff scores |>.mpr h
  obtain ⟨low, hlow, hlowest⟩ := scores.toFinset.exists_min_image CategoryScore.score hsome
  obtain ⟨high, hhigh, hhighest⟩ := scores.toFinset.exists_max_image CategoryScore.score hsome
  simp only [List.mem_toFinset] at hlow hlowest hhigh hhighest
  exact ⟨low, hlow, high, hhigh, fun c hc => ⟨hlowest c hc, hhighest c hc⟩⟩

theorem capped_of_critical {score : Int} (h : ∃ issue ∈ issues, issue.severity = .critical) :
    capped issues score ≤ 45 := by
  have hany : issues.any (·.severity = .critical) = true := by simpa using h
  unfold capped
  rw [if_pos hany]
  exact min_le_right _ _

end Ranges

section Breadth

theorem penalty_widen {issue : Issue} {urls : List String} {pageCount : Nat}
    (h : issue.affectedCount ≤ urls.length) :
    penalty Real.sqrt issue pageCount ≤
      penalty Real.sqrt { issue with urls := urls } pageCount := by
  unfold penalty
  dsimp only
  split
  · exact le_refl 0
  · have hcount : (0 : ℝ) < (max 1 pageCount : Nat) := by
      exact_mod_cast Nat.lt_of_lt_of_le Nat.one_pos (le_max_left 1 pageCount)
    have haffected : ((max 1 issue.affectedCount : Nat) : ℝ) ≤
        (max 1 ({ issue with urls := urls } : Issue).affectedCount : Nat) := by
      exact_mod_cast max_le_max (le_refl 1) h
    have hbreadth := div_le_div_of_nonneg_right haffected hcount.le
    have hroot := Real.sqrt_le_sqrt (min_le_min (le_refl 1) hbreadth)
    apply mul_le_mul_of_nonneg_left _ (Nat.cast_nonneg _)
    linarith

variable {issue : Issue} {urls : List String} (before after : List Issue)

theorem score_widen_le (h : issue.affectedCount ≤ urls.length) (pageCount : Nat)
    (category : Category) :
    (scoreOf Real.sqrt (before ++ { issue with urls := urls } :: after) pageCount category).score ≤
      (scoreOf Real.sqrt (before ++ issue :: after) pageCount category).score := by
  apply scoreOf_antitone
  have hpenalty : penalty Real.sqrt issue pageCount ≤
      penalty Real.sqrt { issue with urls := urls } pageCount := penalty_widen h
  simp only [List.filter_append, List.map_append, List.sum_append, List.filter_cons]
  split
  · rw [List.map_cons, List.map_cons, List.sum_cons, List.sum_cons]
    linarith
  · exact le_refl _

theorem critical_widen :
    (before ++ { issue with urls := urls } :: after).any (·.severity = .critical) =
      (before ++ issue :: after).any (·.severity = .critical) := by
  rw [List.any_append, List.any_append, List.any_cons, List.any_cons]

theorem isActive_widen (rules : TextRules) (ctx : SiteContext) :
    isActive rules ctx (before ++ { issue with urls := urls } :: after) =
      isActive rules ctx (before ++ issue :: after) := by
  funext category
  cases category with
  | international =>
      unfold isActive
      rw [List.any_append, List.any_append, List.any_cons, List.any_cons]
  | indexing | content | technical | performance | structuredData | links | images | eeat
  | aiSearch => rfl

theorem activeScores_widen (rules : TextRules) (ctx : SiteContext)
    (h : issue.affectedCount ≤ urls.length) :
    List.Forall₂ (fun c c' => c.category = c'.category ∧ c.score ≤ c'.score)
      (activeScores rules ctx (before ++ { issue with urls := urls } :: after))
      (activeScores rules ctx (before ++ issue :: after)) := by
  unfold activeScores
  rw [isActive_widen]
  apply List.forall₂_map_left_iff.mpr
  apply List.forall₂_map_right_iff.mpr
  apply List.forall₂_same.mpr
  intro category _
  exact ⟨rfl, score_widen_le before after h _ category⟩

theorem overallScore_widen_le (rules : TextRules) (ctx : SiteContext) (generatedAt : String)
    (h : issue.affectedCount ≤ urls.length) :
    (buildReport Real.sqrt rules ctx (before ++ { issue with urls := urls } :: after)
        generatedAt).overallScore ≤
      (buildReport Real.sqrt rules ctx (before ++ issue :: after) generatedAt).overallScore := by
  have hmean := overall_mono (activeScores_widen before after rules ctx h)
  change capped _ (overall (activeScores _ _ _)) ≤ capped _ (overall (activeScores _ _ _))
  unfold capped
  rw [critical_widen]
  split
  · exact min_le_min_right 45 hmean
  · exact hmean

theorem category_widen_le (rules : TextRules) (ctx : SiteContext) (generatedAt : String)
    (h : issue.affectedCount ≤ urls.length) :
    ∀ c ∈ (buildReport Real.sqrt rules ctx (before ++ issue :: after) generatedAt).categoryScores,
      ∀ c' ∈ (buildReport Real.sqrt rules ctx (before ++ { issue with urls := urls } :: after)
        generatedAt).categoryScores, c'.category = c.category → c'.score ≤ c.score := by
  intro c hc c' hc' hsame
  obtain ⟨category, -, rfl⟩ := List.mem_map.mp (perm_activeScores.mem_iff.mp hc)
  obtain ⟨category', -, rfl⟩ := List.mem_map.mp (perm_activeScores.mem_iff.mp hc')
  obtain rfl : category' = category := hsame
  exact score_widen_le before after h _ category'

theorem categories_widen (rules : TextRules) (ctx : SiteContext) (generatedAt : String) :
    ((buildReport Real.sqrt rules ctx (before ++ { issue with urls := urls } :: after)
        generatedAt).categoryScores.map CategoryScore.category).Perm
      ((buildReport Real.sqrt rules ctx (before ++ issue :: after)
        generatedAt).categoryScores.map CategoryScore.category) := by
  have hcategories : ∀ issues, (activeScores rules ctx issues).map CategoryScore.category =
      categories.filter (isActive rules ctx issues) := by
    intro issues
    unfold activeScores
    rw [List.map_map]
    exact List.map_id _
  have hwide := (@perm_activeScores rules ctx (before ++ { issue with urls := urls } :: after)
    generatedAt).map CategoryScore.category
  have hnarrow := (@perm_activeScores rules ctx (before ++ issue :: after)
    generatedAt).map CategoryScore.category
  rw [hcategories, isActive_widen] at hwide
  rw [hcategories] at hnarrow
  exact hwide.trans hnarrow.symm

end Breadth

/-- Scores are whole numbers from 0 to 100, the overall score lies among those of the
categories until a critical issue caps it, and an issue that affects more pages scores
no better. -/
theorem scores_follow_breadth (rules : TextRules) (ctx : SiteContext) (generatedAt : String) :
    (∀ issues : List Issue,
      let report := buildReport Real.sqrt rules ctx issues generatedAt
      (∀ c ∈ report.categoryScores, 0 ≤ c.score ∧ c.score ≤ 100) ∧
      (∃ low ∈ report.categoryScores, ∃ high ∈ report.categoryScores,
        (∀ c ∈ report.categoryScores, low.score ≤ c.score ∧ c.score ≤ high.score) ∧
        low.score ≤ overall (activeScores rules ctx issues) ∧
        overall (activeScores rules ctx issues) ≤ high.score) ∧
      report.categoryScores.Perm (activeScores rules ctx issues) ∧
      report.overallScore = capped issues (overall (activeScores rules ctx issues)) ∧
      (0 ≤ report.overallScore ∧ report.overallScore ≤ 100) ∧
      ((∃ issue ∈ issues, issue.severity = .critical) → report.overallScore ≤ 45)) ∧
    ∀ (before after : List Issue) (issue : Issue) (urls : List String),
      issue.affectedCount ≤ urls.length →
      let report := buildReport Real.sqrt rules ctx (before ++ issue :: after) generatedAt
      let wider := buildReport Real.sqrt rules ctx
        (before ++ { issue with urls := urls } :: after) generatedAt
      (wider.categoryScores.map CategoryScore.category).Perm
        (report.categoryScores.map CategoryScore.category) ∧
      (∀ c ∈ report.categoryScores, ∀ c' ∈ wider.categoryScores,
        c'.category = c.category → c'.score ≤ c.score) ∧
      wider.overallScore ≤ report.overallScore := by
  constructor
  · intro issues report
    have hperm : report.categoryScores.Perm (activeScores rules ctx issues) := perm_activeScores
    obtain ⟨low, hlow, high, hhigh, hall⟩ :=
      exists_extremes (@activeScores_ne_nil rules ctx issues)
    obtain ⟨hover, hunder⟩ := overall_between activeScores_ne_nil hall
    refine ⟨fun c hc => score_mem_of_buildReport hc, ?_, hperm, rfl,
      overallScore_mem_of_buildReport, capped_of_critical⟩
    refine ⟨low, hperm.mem_iff.mpr hlow, high, hperm.mem_iff.mpr hhigh, ?_, hover, hunder⟩
    intro c hc
    exact hall c (hperm.mem_iff.mp hc)
  · intro before after issue urls h
    exact ⟨categories_widen before after rules ctx generatedAt,
      category_widen_le before after rules ctx generatedAt h,
      overallScore_widen_le before after rules ctx generatedAt h⟩

/-- A site of one page, with a critical issue that comes to affect two. -/
theorem scores_follow_breadth_twoPages :
    (buildReport Real.sqrt plainRules bareSite
        ([] ++ { finding .critical .links with urls := ["/a", "/b"] } :: []) "").overallScore ≤
      (buildReport Real.sqrt plainRules bareSite
        ([] ++ finding .critical .links :: []) "").overallScore ∧
    (buildReport Real.sqrt plainRules bareSite [finding .critical .links] "").overallScore ≤
      45 := by
  obtain ⟨hall, hwider⟩ := scores_follow_breadth plainRules bareSite ""
  refine ⟨(hwider [] [] (finding .critical .links) ["/a", "/b"] (by decide)).2.2, ?_⟩
  exact (hall [finding .critical .links]).2.2.2.2.2 ⟨_, List.mem_cons_self, rfl⟩

end SeoPlatform.Engine.ScoreRanges
