import Mathlib.Algebra.BigOperators.Group.List.Basic
import SeoPlatform.Engine.Keywords

namespace SeoPlatform.Engine.Clusters

open SeoPlatform.Engine.Keywords
open SeoPlatform.Foundation.Grouping
open SeoPlatform.Foundation.Mapping
open SeoPlatform.Foundation.UrlText
open SeoPlatform.Shared.Text (Unicode plainUnicode)

variable {rules : TextRules} {unicode : Unicode} {keywords : List Keyword} {seed : String}

section Labels

/-- A keyword is grouped by the seed, or by a token of its own that the seed has not. -/
theorem labelOf_spec (h : labelOf rules unicode keywords seed keyword ≠ seed) :
    labelOf rules unicode keywords seed keyword ∈ tokensOf rules unicode keyword.keyword ∧
      labelOf rules unicode keywords seed keyword ∉ tokensOf rules unicode seed := by
  have hcandidate : ∀ label ∈ (tokensOf rules unicode keyword.keyword).filter
      (fun t => !(tokensOf rules unicode seed).contains t),
      label ∈ tokensOf rules unicode keyword.keyword ∧ label ∉ tokensOf rules unicode seed := by
    intro label hlabel
    obtain ⟨hmem, hnew⟩ := List.mem_filter.mp hlabel
    exact ⟨hmem, by simpa using hnew⟩
  revert h
  unfold labelOf
  dsimp only
  split
  · exact fun h => absurd rfl h
  · rename_i first rest hsorted
    intro _
    have hmem : ∀ label ∈ first :: rest, label ∈ tokensOf rules unicode keyword.keyword ∧
        label ∉ tokensOf rules unicode seed := by
      intro label hlabel
      rw [← hsorted] at hlabel
      exact hcandidate label ((List.mem_insertionSort _).mp hlabel)
    cases hfind : (first :: rest).find? _ with
    | none => exact hmem first List.mem_cons_self
    | some label => exact hmem label (List.mem_of_find?_eq_some hfind)

end Labels

section Orders

instance : Std.Total Cluster.before where
  total a b := by
    unfold Cluster.before
    omega

instance : IsTrans Cluster Cluster.before where
  trans a b c := by
    unfold Cluster.before
    omega

instance : Std.Total fun a b : Keyword => b.demandScore ≤ a.demandScore where
  total a b := le_total b.demandScore a.demandScore

instance : IsTrans Keyword fun a b : Keyword => b.demandScore ≤ a.demandScore where
  trans _ _ _ hab hbc := hbc.trans hab

/-- The first of the members has the greatest demand. -/
theorem primary_spec {members : List Keyword} (h : members ≠ []) (label : String) :
    ∃ first ∈ members, (clusterOf unicode (label, members)).primary = first.keyword ∧
      ∀ keyword ∈ members, keyword.demandScore ≤ first.demandScore := by
  have hperm : (byDemand members).Perm members := List.perm_insertionSort _ members
  have hsorted : (byDemand members).Pairwise fun a b => b.demandScore ≤ a.demandScore :=
    List.pairwise_insertionSort _ members
  cases hlist : byDemand members with
  | nil =>
      rw [hlist] at hperm
      exact absurd hperm.nil_eq.symm h
  | cons first rest =>
      rw [hlist] at hperm hsorted
      refine ⟨first, hperm.subset List.mem_cons_self, ?_, ?_⟩
      · unfold clusterOf
        dsimp only
        rw [hlist]
        rfl
      · intro keyword hkeyword
        rcases List.mem_cons.mp (hperm.symm.subset hkeyword) with rfl | hrest
        · exact le_refl _
        · exact (List.pairwise_cons.mp hsorted).1 keyword hrest

end Orders

section Partition

/-- Groups divide the keywords, and the clusters made of them say so. -/
structure Divides (rules : TextRules) (unicode : Unicode) (keywords : List Keyword)
    (seed : String) (groups : List (String × List Keyword)) : Prop where
  /-- Each keyword is in one group, once. -/
  members : (groups.flatMap Prod.snd).Perm keywords
  sizes : ((groups.map (clusterOf unicode)).map Cluster.size).sum = keywords.length
  labels : ((groups.map (clusterOf unicode)).map Cluster.label).Nodup
  shared : ∀ group ∈ groups, group.1 ≠ seed →
    (∀ keyword ∈ group.2, group.1 ∈ tokensOf rules unicode keyword.keyword) ∧
      group.1 ∉ tokensOf rules unicode seed
  primary : ∀ group ∈ groups, ∃ first ∈ group.2,
    (clusterOf unicode group).primary = first.keyword ∧
      ∀ keyword ∈ group.2, keyword.demandScore ≤ first.demandScore
  sorted : (groups.map (clusterOf unicode)).Pairwise fun a b =>
    b.size < a.size ∨ a.size = b.size ∧ b.avgDemand ≤ a.avgDemand

@[simp] theorem size_clusterOf (group : String × List Keyword) :
    (clusterOf unicode group).size = group.2.length := List.length_insertionSort _ _

@[simp] theorem label_clusterOf (group : String × List Keyword) :
    (clusterOf unicode group).label = group.1 := rfl

theorem sum_sizes (groups : List (String × List Keyword)) :
    ((groups.map (clusterOf unicode)).map Cluster.size).sum =
      (groups.flatMap Prod.snd).length := by
  rw [List.length_flatMap, List.map_map]
  congr 1
  apply List.map_congr_left
  intro group _
  exact size_clusterOf group

def plainRules : TextRules where
  lower := String.map Char.toLower
  casefold := String.map Char.toLower
  netlocFault _ := none

/-- Three keywords on shoes, two of which are on running. -/
def shoeKeywords : List Keyword :=
  [{ keyword := "running shoes", hits := 3 },
   { keyword := "shoes", hits := 9 },
   { keyword := "running shoes sale", hits := 5 }]

end Partition

end SeoPlatform.Engine.Clusters
