import SeoPlatform.Engine.Clusters
import SeoPlatform.Engine.Research
import SeoPlatform.Foundation.FirstOfEach
import SeoPlatform.Orchestrator.Engine

namespace SeoPlatform.Orchestrator.TrackedKeywords

open SeoPlatform.Engine.Clusters (plainRules)
open SeoPlatform.Engine.Keywords
open SeoPlatform.Engine.Research
open SeoPlatform.Foundation.FirstOfEach
open SeoPlatform.Foundation.JsonValue
open SeoPlatform.Foundation.UrlText
open SeoPlatform.Orchestrator.Engine
open SeoPlatform.Orchestrator.Planner
open SeoPlatform.Shared.Exceptions
open SeoPlatform.Shared.Text (Unicode plainUnicode)

section Picking

variable {rules : TextRules} {shown : Json → String}

/-- The loop of `keywords_to_track` keeps one term of each spelling. -/
theorem keywordsFrom_eq {limit : Nat} (items : List Json) (terms : List String)
    (hread : items.map (termOf shown) = terms.map .ok) (hsome : "" ∉ terms)
    (kept seen : List String)
    (hseen : ∀ spelling, spelling ∈ seen ↔ spelling ∈ kept.map rules.casefold) :
    keywordsFrom rules shown limit items kept seen =
      .ok (keepFirsts rules.casefold limit kept terms) := by
  induction terms generalizing items kept seen with
  | nil =>
      obtain rfl : items = [] := List.map_eq_nil_iff.mp hread
      rfl
  | cons first rest ih =>
      obtain ⟨item, items, rfl, hfirst, hrest⟩ := List.map_eq_cons_iff.mp hread
      rw [List.mem_cons, not_or] at hsome
      rw [keywordsFrom, keepFirsts, hfirst]
      simp only [bind, Except.bind]
      by_cases hold : rules.casefold first ∈ kept.map rules.casefold
      · rw [if_pos (by simp [(hseen _).mpr hold]), if_pos hold]
        exact ih items hrest hsome.2 kept seen hseen
      · have hnew : rules.casefold first ∉ seen := mt (hseen _).mp hold
        rw [if_neg (by simp [Ne.symm hsome.1, hnew]), if_neg hold]
        split
        · rfl
        · apply ih items hrest hsome.2
          intro spelling
          simp [hseen, or_comm]

end Picking

section Study

variable (rules : TextRules) (unicode : Unicode)

def room (limit : Int) : Nat := (max 1 (min limit maxTracked)).toNat

/-- A keyword of the study that stands in front: among the twenty-five with the most
demand, with none of its spelling and too few others before it. -/
def InFront (limit : Int) (study : List Keyword) (keyword : Keyword) : Prop :=
  keyword ∈ study ∧
    Picked rules.casefold (room limit) ((study.take 25).map Keyword.keyword) keyword.keyword

/-- A keyword of the study that no keyword in front has the spelling of. -/
def Behind (limit : Int) (study : List Keyword) (keyword : Keyword) : Prop :=
  keyword ∈ study ∧ ∀ front, InFront rules limit study front →
    rules.casefold front.keyword ≠ rules.casefold keyword.keyword

/-- No keyword that was left out, in any spelling, has more opportunity than one that was
picked. -/
def BestPicked (study : List Keyword) (picks : List String) : Prop :=
  ∀ picked ∈ study, picked.keyword ∈ picks → ∀ left ∈ study,
    rules.casefold left.keyword ∉ picks.map rules.casefold →
      left.opportunityScore unicode ≤ picked.opportunityScore unicode

variable {rules unicode}

theorem room_pos (limit : Int) : 0 < room limit := by
  unfold room
  omega

theorem mem_study_of_picked {limit : Int} {study : List Keyword} {term : String}
    (h : Picked rules.casefold (room limit) ((study.take 25).map Keyword.keyword) term) :
    ∃ keyword ∈ study, keyword.keyword = term := by
  obtain ⟨before, after, hsplit, -, -⟩ := h
  have hterm : term ∈ (study.take 25).map Keyword.keyword := by
    rw [hsplit]
    simp
  obtain ⟨keyword, hkeyword, rfl⟩ := List.mem_map.mp hterm
  exact ⟨keyword, List.mem_of_mem_take hkeyword, rfl⟩

/-- A study lists what it left behind after what stands in front. -/
theorem demandScore_le_of_behind {limit : Int} {study : List Keyword} {front behind : Keyword}
    (hdistinct : Distinct study) (horder : study.Pairwise Before)
    (hfront : InFront rules limit study front) (hbehind : Behind rules limit study behind) :
    behind.demandScore ≤ front.demandScore := by
  obtain ⟨hstudy, terms, others, hsplit, hnew, hfew⟩ := id hfront
  obtain ⟨earlier, rest, htake, rfl, hrest⟩ := List.map_eq_append_iff.mp hsplit
  obtain ⟨entry, later, rfl, hentry, -⟩ := List.map_eq_cons_iff.mp hrest
  have hwhole : study = earlier ++ entry :: (later ++ study.drop 25) := by
    rw [← List.cons_append, ← List.append_assoc, ← htake, List.take_append_drop]
  have hsame : entry = front := by
    have hinj := List.inj_on_of_nodup_map hdistinct.texts
    exact hinj (by rw [hwhole]; simp) hstudy hentry
  obtain ⟨hmem, hother⟩ := hbehind
  rw [hwhole, List.mem_append, List.mem_cons] at hmem
  rcases hmem with hbefore | rfl | hafter
  · -- the first of its spelling would stand in front
    obtain ⟨term, hterm, hpicked, hspelling⟩ := exists_picked
      (front.keyword :: others) hfew (List.mem_map_of_mem hbefore)
    obtain ⟨first, hfirst, rfl⟩ := List.mem_map.mp hterm
    refine absurd hspelling (hother first ⟨?_, ?_⟩)
    · rw [hwhole]
      exact List.mem_append_left _ hfirst
    · rw [hsplit]
      exact hpicked
  · exact absurd rfl (hother _ (hsame ▸ hfront))
  · rw [hwhole, List.pairwise_append, List.pairwise_cons] at horder
    exact (hsame ▸ horder.2.1.1 behind hafter).demandScore_le

theorem termOf_topKeyword {shown : Json → String} {study : List Keyword}
    (hdistinct : Distinct study) {keyword : Keyword} (h : keyword ∈ study) :
    termOf shown (topKeyword unicode keyword) = .ok keyword.keyword := by
  have hsome : keyword.keyword ≠ "" := hdistinct.some keyword h
  have hread : (Dict.get [("keyword", Json.str keyword.keyword),
      ("demand", .int keyword.demandScore),
      ("opportunity", .int (keyword.opportunityScore unicode)),
      ("intent", .str keyword.intent)] "keyword").orElse (.str "") = .str keyword.keyword := by
    simp [Dict.get, Json.orElse, Json.truthy, hsome]
  unfold topKeyword termOf
  dsimp only
  rw [hread]
  dsimp only
  rw [hdistinct.stripped keyword h]

variable (unicode) in
theorem stepResult_researched (researchId seed : String) (report : KeywordReport)
    (status : String) (error : Option String) :
    ∃ result, stepResult .keywordResearch
        (researchedPayload unicode researchId seed (some report) status error) = .ok result ∧
      Dict.getD result "top_keywords" (.arr []) =
        .arr ((report.keywords.take 25).map (topKeyword unicode)) := by
  refine ⟨_, rfl, ?_⟩
  change Json.arr (((report.keywords.take 25).map (topKeyword unicode)).take 25) = _
  rw [← List.map_take, List.take_take, Nat.min_self]

variable (rules) in
theorem keywordsToTrack_spec (shown : Json → String) (limit : Int) {result : Dict}
    {study : List Keyword} (hdistinct : Distinct study)
    (hresult : Dict.getD result "top_keywords" (.arr []) =
      .arr ((study.take 25).map (topKeyword unicode))) :
    ∃ picks, keywordsToTrack rules shown (some result) limit = .ok picks ∧
      ∀ term, term ∈ picks ↔
        Picked rules.casefold (room limit) ((study.take 25).map Keyword.keyword) term := by
  have hread : ((study.take 25).map (topKeyword unicode)).map (termOf shown) =
      ((study.take 25).map Keyword.keyword).map .ok := by
    rw [List.map_map, List.map_map]
    apply List.map_congr_left
    intro keyword hkeyword
    exact termOf_topKeyword hdistinct (List.mem_of_mem_take hkeyword)
  have hsome : "" ∉ (study.take 25).map Keyword.keyword := by
    intro hempty
    obtain ⟨keyword, hkeyword, htext⟩ := List.mem_map.mp hempty
    exact hdistinct.some keyword (List.mem_of_mem_take hkeyword) htext
  refine ⟨(firsts rules.casefold ((study.take 25).map Keyword.keyword)).take (room limit), ?_,
    fun term => mem_take_firsts_iff⟩
  unfold keywordsToTrack
  rw [Option.getD_some, hresult]
  dsimp only [iterate, bind, Except.bind]
  rw [keywordsFrom_eq _ _ hread hsome [] [] (fun _ => Iff.rfl)]
  exact congrArg Except.ok (keepFirsts_nil (room_pos limit) _)

/-- One engine more suggests the short phrase than the long one. -/
def shoeAnswers : List (Except Exn (List Suggestion)) :=
  [.ok [⟨"shoes", "google", 0⟩], .ok [⟨"shoes", "bing", 0⟩],
   .ok [⟨"running shoes for men", "google", 0⟩]]

end Study

end SeoPlatform.Orchestrator.TrackedKeywords
