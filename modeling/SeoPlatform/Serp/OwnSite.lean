import Mathlib.Data.List.Count
import SeoPlatform.Foundation.SortedLists
import SeoPlatform.Serp.Analyze

namespace SeoPlatform.Serp.OwnSite

open SeoPlatform.Foundation.Counter
open SeoPlatform.Foundation.SortedLists
open SeoPlatform.Foundation.UrlText
open SeoPlatform.Serp.Analyze

/-- A domain is the target, given with or without `www.`, or one of its subdomains. An empty
target has none. -/
def OnTarget (rules : TextRules) (targetDomain domain : String) : Prop :=
  withoutWww (rules.lower targetDomain) ≠ "" ∧
    sameSite domain (withoutWww (rules.lower targetDomain)) = true

/-- A result on the target has this position. -/
def HasPosition (rules : TextRules) (targetDomain : String) (results : List Result)
    (position : Int) : Prop :=
  ∃ result ∈ results, OnTarget rules targetDomain result.domain ∧ result.position = position

variable {rules : TextRules} {keyword targetDomain : String} {results : List Result}

section Ranking

theorem position_eq_none_iff :
    (rank rules keyword results targetDomain).position = none ↔
      ∀ result ∈ results, ¬ OnTarget rules targetDomain result.domain := by
  unfold rank OnTarget
  simp [List.find?_eq_none, List.mem_insertionSort]

theorem isLeast_of_position {position : Int}
    (h : (rank rules keyword results targetDomain).position = some position) :
    IsLeast {p | HasPosition rules targetDomain results p} position := by
  obtain ⟨mine, hmine, rfl⟩ := Option.map_eq_some_iff.mp h
  have hleast := isLeast_of_find? (pairwise_insertionSort_key Result.position results) hmine
  have hset : {p | HasPosition rules targetDomain results p} = {p | ∃ r ∈
      results.insertionSort fun a b => a.position ≤ b.position,
        (decide (withoutWww (rules.lower targetDomain) ≠ "") &&
          sameSite r.domain (withoutWww (rules.lower targetDomain))) = true ∧
        r.position = p} := by
    ext p
    simp [HasPosition, OnTarget]
  rw [hset]
  exact hleast

theorem position_eq_some_iff {position : Int} :
    (rank rules keyword results targetDomain).position = some position ↔
      IsLeast {p | HasPosition rules targetDomain results p} position := by
  constructor
  · exact isLeast_of_position
  · intro hleast
    cases hfound : (rank rules keyword results targetDomain).position with
    | none =>
        obtain ⟨result, hresult, hon, -⟩ := hleast.1
        exact absurd hon (position_eq_none_iff.mp hfound result hresult)
    | some found => rw [(isLeast_of_position hfound).unique hleast]

theorem mem_competitorsAbove_iff {domain : String} :
    domain ∈ (rank rules keyword results targetDomain).competitorsAbove ↔
      ∃ position, (rank rules keyword results targetDomain).position = some position ∧
        ∃ result ∈ results, result.domain = domain ∧ result.position < position := by
  unfold rank
  simp only [List.mem_eraseDups, List.mem_map, List.mem_filter, List.mem_insertionSort,
    Option.map_eq_some_iff, Option.any_eq_true, decide_eq_true_eq]
  constructor
  · rintro ⟨result, ⟨hresult, mine, hmine, hless⟩, rfl⟩
    exact ⟨mine.position, ⟨mine, hmine, rfl⟩, result, hresult, rfl, hless⟩
  · rintro ⟨_, ⟨mine, hmine, rfl⟩, result, hresult, rfl, hless⟩
    exact ⟨result, ⟨hresult, mine, hmine, hless⟩, rfl⟩

/-- The competitors are in the order of their first positions. -/
theorem pairwise_competitorsAbove :
    (rank rules keyword results targetDomain).competitorsAbove.Pairwise fun a b =>
      ∀ later ∈ results, later.domain = b →
        ∃ result ∈ results, result.domain = a ∧ result.position ≤ later.position := by
  unfold rank
  set mine := (results.insertionSort fun a b => a.position ≤ b.position).find? fun r =>
    decide (withoutWww (rules.lower targetDomain) ≠ "") &&
      sameSite r.domain (withoutWww (rules.lower targetDomain)) with hmine
  have hsorted := (pairwise_insertionSort_key Result.position results).filter fun r =>
    mine.any fun m => r.position < m.position
  refine (pairwise_eraseDups_map Result.domain hsorted).imp_of_mem ?_
  intro a b ha hb hab later hlater hdomain
  simp only [List.mem_filter, List.mem_insertionSort] at hab
  by_cases hover : mine.any (fun m => later.position < m.position) = true
  · obtain ⟨result, ⟨hresult, -⟩, hfirst⟩ := hab later ⟨hlater, hover⟩ hdomain
    exact ⟨result, hresult, hfirst⟩
  · -- what is not above the target is behind all that is
    simp only [List.mem_eraseDups, List.mem_map, List.mem_filter, List.mem_insertionSort] at ha
    obtain ⟨result, ⟨hresult, habove⟩, rfl⟩ := ha
    refine ⟨result, hresult, rfl, ?_⟩
    cases hfound : mine with
    | none => simp [hfound] at habove
    | some m =>
        simp only [hfound, Option.any_some, decide_eq_true_eq] at habove hover
        omega

/-- No competitor is the target. -/
theorem not_onTarget_of_mem {domain : String}
    (h : domain ∈ (rank rules keyword results targetDomain).competitorsAbove) :
    ¬ OnTarget rules targetDomain domain := by
  obtain ⟨position, hposition, result, hresult, rfl, hless⟩ := mem_competitorsAbove_iff.mp h
  intro hon
  have hle := (isLeast_of_position hposition).2 ⟨result, hresult, hon, rfl⟩
  omega

end Ranking

section Summary

/-- What a ranking says of the results of a keyword. -/
structure Ranks (rules : TextRules) (targetDomain : String) (results : List Result)
    (ranking : Ranking) : Prop where
  missing : ranking.position = none ↔
    ∀ result ∈ results, ¬ OnTarget rules targetDomain result.domain
  least : ∀ position, ranking.position = some position ↔
    IsLeast {p | HasPosition rules targetDomain results p} position
  once : ranking.competitorsAbove.Nodup
  above : ∀ domain, domain ∈ ranking.competitorsAbove ↔
    ∃ position, ranking.position = some position ∧
      ∃ result ∈ results, result.domain = domain ∧ result.position < position
  ordered : ranking.competitorsAbove.Pairwise fun a b =>
    ∀ later ∈ results, later.domain = b →
      ∃ result ∈ results, result.domain = a ∧ result.position ≤ later.position

theorem ranks_rank (rules : TextRules) (keyword : String) (results : List Result)
    (targetDomain : String) :
    Ranks rules targetDomain results (rank rules keyword results targetDomain) where
  missing := position_eq_none_iff
  least _ := position_eq_some_iff
  once := nodup_eraseDups _
  above _ := mem_competitorsAbove_iff
  ordered := pairwise_competitorsAbove

/-- A competitor is counted once for each keyword it stands above the target on. -/
theorem topCompetitors_spec {rankings : List Ranking} {entry : String × Nat}
    (honce : ∀ ranking ∈ rankings, ranking.competitorsAbove.Nodup)
    (h : entry ∈ (summarise rules rankings targetDomain).topCompetitors) :
    (∃ ranking ∈ rankings, entry.1 ∈ ranking.competitorsAbove) ∧
      entry.2 = rankings.countP fun ranking => entry.1 ∈ ranking.competitorsAbove := by
  obtain ⟨hlisted, hcount⟩ := mem_tally_iff.mp (mem_of_mem_mostCommon h)
  obtain ⟨ranking, hranking, habove⟩ := List.mem_flatMap.mp hlisted
  obtain ⟨hdomain, hother⟩ := List.mem_filter.mp habove
  refine ⟨⟨ranking, hranking, hdomain⟩, ?_⟩
  rw [hcount, count_flatMap_of_nodup fun ranking hranking => (honce ranking hranking).filter _]
  refine List.countP_congr fun ranking _ => ?_
  rw [decide_eq_true_iff, decide_eq_true_iff, List.mem_filter]
  exact and_iff_left hother

/-- Each keyword is ranked right, and no site is its own competitor: what outranks the target
is neither the target nor one of its subdomains. -/
theorem own_site_outranks_nothing (rules : TextRules) (targetDomain : String)
    (pages : List (String × List Result)) :
    (∀ page ∈ pages, Ranks rules targetDomain page.2 (rank rules page.1 page.2 targetDomain)) ∧
    ∀ entry ∈ (summarise rules (pages.map fun page => rank rules page.1 page.2 targetDomain)
        targetDomain).topCompetitors,
      ¬ OnTarget rules targetDomain entry.1 ∧
        entry.2 = pages.countP fun page =>
          entry.1 ∈ (rank rules page.1 page.2 targetDomain).competitorsAbove := by
  refine ⟨fun page _ => ranks_rank rules page.1 page.2 targetDomain, fun entry hentry => ?_⟩
  have honce : ∀ ranking ∈ pages.map fun page => rank rules page.1 page.2 targetDomain,
      ranking.competitorsAbove.Nodup := by
    rw [List.forall_mem_map]
    exact fun page _ => nodup_eraseDups _
  obtain ⟨⟨ranking, hranking, habove⟩, hcount⟩ := topCompetitors_spec honce hentry
  obtain ⟨page, -, rfl⟩ := List.mem_map.mp hranking
  exact ⟨not_onTarget_of_mem habove, by rw [hcount, List.countP_map]; rfl⟩

end Summary

end SeoPlatform.Serp.OwnSite
