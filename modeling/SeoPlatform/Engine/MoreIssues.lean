import Mathlib.Analysis.Real.Sqrt
import SeoPlatform.Engine.AuditReport

namespace SeoPlatform.Engine.MoreIssues

open SeoPlatform.Crawler.Models
open SeoPlatform.Engine.AuditReport
open SeoPlatform.Foundation.Rounding
open SeoPlatform.Foundation.UrlText

section Scores

variable {K : Type} [Field K] [LinearOrder K] [FloorRing K] [IsStrictOrderedRing K]
  {sqrt : K → K}

theorem penalty_nonneg (hsqrt : ∀ x, 0 ≤ sqrt x) (issue : Issue) (pageCount : Nat) :
    0 ≤ penalty sqrt issue pageCount := by
  unfold penalty
  split
  · exact le_refl 0
  · apply mul_nonneg (Nat.cast_nonneg _)
    have hroot := hsqrt (min 1 ((max 1 issue.affectedCount : Nat) / (max 1 pageCount : Nat)))
    apply add_nonneg (by norm_num)
    exact mul_nonneg (by norm_num) hroot

/-- What costs more scores less. -/
theorem scoreOf_antitone {issues issues' : List Issue} {pageCount : Nat} {category : Category}
    (h : ((issues.filter (·.category = category)).map (penalty sqrt · pageCount)).sum ≤
      ((issues'.filter (·.category = category)).map (penalty sqrt · pageCount)).sum) :
    (scoreOf sqrt issues' pageCount category).score ≤
      (scoreOf sqrt issues pageCount category).score := by
  have hround : roundEven (100 - ((issues'.filter (·.category = category)).map
      (penalty sqrt · pageCount)).sum) ≤
      roundEven (100 - ((issues.filter (·.category = category)).map
        (penalty sqrt · pageCount)).sum) := by
    apply roundEven_mono
    linarith
  unfold scoreOf
  dsimp only
  omega

/-- One issue more takes from the score of its category, and from no other. -/
theorem score_insert_le (hsqrt : ∀ x, 0 ≤ sqrt x) (before after : List Issue) (issue : Issue)
    (pageCount : Nat) (category : Category) :
    (scoreOf sqrt (before ++ issue :: after) pageCount category).score ≤
      (scoreOf sqrt (before ++ after) pageCount category).score := by
  apply scoreOf_antitone
  have hnonneg := penalty_nonneg hsqrt issue pageCount
  simp only [List.filter_append, List.map_append, List.sum_append, List.filter_cons]
  split
  · rw [List.map_cons, List.sum_cons]
    linarith
  · exact le_refl _

/-- The weighted mean grows with its values. -/
theorem overall_mono {scores scores' : List CategoryScore}
    (h : List.Forall₂ (fun c c' => c.category = c'.category ∧ c.score ≤ c'.score) scores scores') :
    overall scores ≤ overall scores' := by
  have hweights : (scores.map fun c => categoryWeight c.category) =
      scores'.map fun c => categoryWeight c.category := by
    induction h with
    | nil => rfl
    | cons hhead _ ih => rw [List.map_cons, List.map_cons, hhead.1, ih]
  have hsums : (scores.map fun c => (c.score : Rat) * categoryWeight c.category).sum ≤
      (scores'.map fun c => (c.score : Rat) * categoryWeight c.category).sum := by
    clear hweights
    induction h with
    | nil => exact le_refl _
    | @cons c c' _ _ hhead _ ih =>
        have hscore : (c.score : Rat) ≤ c'.score := by exact_mod_cast hhead.2
        have hstep := mul_le_mul_of_nonneg_right hscore (categoryWeight_pos c'.category).le
        rw [List.map_cons, List.map_cons, List.sum_cons, List.sum_cons, hhead.1]
        linarith
  have hempty : scores.isEmpty = scores'.isEmpty := by
    cases h <;> rfl
  unfold overall
  rw [hempty, hweights]
  split
  · exact le_refl _
  · apply roundEven_mono
    apply div_le_div_of_nonneg_right hsums
    apply List.sum_nonneg
    intro w hw
    obtain ⟨c, -, rfl⟩ := List.mem_map.mp hw
    exact (categoryWeight_pos c.category).le

theorem overall_congr {scores scores' : List CategoryScore}
    (h : List.Forall₂ (fun c c' => c.category = c'.category ∧ c.score = c'.score) scores scores') :
    overall scores = overall scores' := by
  apply le_antisymm
  · exact overall_mono (h.imp fun _ _ hsame => ⟨hsame.1, hsame.2.le⟩)
  · exact overall_mono (h.flip.imp fun _ _ hsame => ⟨hsame.1.symm, hsame.2.ge⟩)

theorem capped_insert_le {before after : List Issue} {issue : Issue} {score score' : Int}
    (h : score ≤ score') :
    capped (before ++ issue :: after) score ≤ capped (before ++ after) score' := by
  have hkept : (before ++ after).any (·.severity = .critical) = true →
      (before ++ issue :: after).any (·.severity = .critical) = true := by
    rw [List.any_append, List.any_append, List.any_cons]
    intro hcritical
    rcases Bool.or_eq_true_iff.mp hcritical with hbefore | hafter
    · rw [hbefore, Bool.true_or]
    · rw [hafter, Bool.or_true, Bool.or_true]
  unfold capped
  by_cases hcritical : (before ++ after).any (·.severity = .critical) = true
  · rw [if_pos hcritical, if_pos (hkept hcritical)]
    omega
  · rw [if_neg hcritical]
    split <;> omega

end Scores

/-- An issue only brings the international category into play. -/
theorem isActive_insert {rules : TextRules} {ctx : SiteContext} {before after : List Issue}
    {issue : Issue} (h : issue.category = .international →
      isActive rules ctx (before ++ after) .international = true) (category : Category) :
    isActive rules ctx (before ++ issue :: after) category =
      isActive rules ctx (before ++ after) category := by
  cases category with
  | international =>
      by_cases hissue : issue.category = .international
      · rw [h hissue]
        simp [isActive, hissue]
      · simp [isActive, hissue]
  | indexing | content | technical | performance | structuredData | links | images | eeat
  | aiSearch => rfl

/-- An issue more never scores better, unless it is the first sign that the site
speaks several languages. -/
theorem more_never_better (rules : TextRules) (ctx : SiteContext) (before after : List Issue)
    (issue : Issue) (generatedAt : String)
    (h : issue.category = .international →
      isActive rules ctx (before ++ after) .international = true) :
    (buildReport Real.sqrt rules ctx (before ++ issue :: after) generatedAt).overallScore ≤
      (buildReport Real.sqrt rules ctx (before ++ after) generatedAt).overallScore := by
  have hactive : isActive rules ctx (before ++ issue :: after) =
      isActive rules ctx (before ++ after) := funext (isActive_insert h)
  simp only [buildReport, hactive]
  apply capped_insert_le
  apply overall_mono
  apply List.forall₂_map_left_iff.mpr
  apply List.forall₂_map_right_iff.mpr
  apply List.forall₂_same.mpr
  intro category _
  exact ⟨rfl, score_insert_le Real.sqrt_nonneg before after issue _ category⟩

/-- A site with nothing to parse. -/
def bareSite : SiteContext where
  startUrl := "https://shop.ir"

def plainRules : TextRules where
  lower := id
  casefold := id
  netlocFault _ := none

def finding (severity : Severity) (category : Category) : Issue where
  id := "finding"
  titleEn := ""
  titleFa := ""
  detailFa := ""
  fixFa := ""
  severity := severity
  category := category

/-- What each issue costs on a site of one page. -/
theorem penalty_alone {issue : Issue} (h : issue.affectedCount = 0) :
    penalty Real.sqrt issue 1 = issue.severity.weight := by
  unfold penalty
  split
  · rename_i hzero
    rw [hzero]
    simp
  · rw [h]
    norm_num

/-- The score of a category on such a site, in whole numbers. -/
def scoreAlone (issues : List Issue) (category : Category) : Int :=
  max 0 (100 - (((issues.filter (·.category = category)).map (·.severity.weight)).sum : Nat))

theorem scoreOf_alone {issues : List Issue} (h : ∀ issue ∈ issues, issue.affectedCount = 0)
    (category : Category) :
    (scoreOf Real.sqrt issues 1 category).score = scoreAlone issues category := by
  have hsum : ((issues.filter (·.category = category)).map (penalty Real.sqrt · 1)).sum =
      ((((issues.filter (·.category = category)).map (·.severity.weight)).sum : Nat) : ℝ) := by
    rw [Nat.cast_list_sum, List.map_map]
    congr 1
    apply List.map_congr_left
    intro issue hmem
    exact penalty_alone (h issue (List.mem_of_mem_filter hmem))
  have hround : roundEven (100 - ((issues.filter (·.category = category)).map
      (penalty Real.sqrt · 1)).sum) =
      100 - ((((issues.filter (·.category = category)).map (·.severity.weight)).sum : Nat) : Int)
      := by
    rw [hsum, ← roundEven_intCast (K := ℝ) (100 - _)]
    simp only [Int.cast_sub, Int.cast_ofNat, Int.cast_natCast]
  unfold scoreOf scoreAlone
  dsimp only
  omega

theorem overallScore_bareSite {issues : List Issue} (h : ∀ issue ∈ issues, issue.affectedCount = 0)
    (generatedAt : String) :
    (buildReport Real.sqrt plainRules bareSite issues generatedAt).overallScore =
      capped issues (overall ((categories.filter (isActive plainRules bareSite issues)).map
        fun category => ⟨category, scoreAlone issues category, 0⟩)) := by
  have hpages : max 1 (bareSite.htmlPages plainRules).length = 1 := rfl
  simp only [buildReport, hpages]
  congr 1
  apply overall_congr
  apply List.forall₂_map_left_iff.mpr
  apply List.forall₂_map_right_iff.mpr
  apply List.forall₂_same.mpr
  intro category _
  exact ⟨rfl, scoreOf_alone h category⟩

/-- Seven grave problems with the content. -/
def poorContent : List Issue := List.replicate 7 (finding .high .content)

/-- A remark on the languages brings in a category with nothing against it. -/
theorem more_scored_better :
    (buildReport Real.sqrt plainRules bareSite poorContent "").overallScore = 84 ∧
    (buildReport Real.sqrt plainRules bareSite
      (poorContent ++ [finding .info .international]) "").overallScore = 85 := by
  rw [overallScore_bareSite (by decide), overallScore_bareSite (by decide)]
  decide +kernel

theorem more_never_better_links :
    (buildReport Real.sqrt plainRules bareSite
      (poorContent ++ finding .low .links :: []) "").overallScore ≤
      (buildReport Real.sqrt plainRules bareSite (poorContent ++ []) "").overallScore := by
  apply more_never_better
  decide

end SeoPlatform.Engine.MoreIssues
