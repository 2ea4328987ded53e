import Mathlib.Data.List.Sort
import Mathlib.Tactic.NormNum
import SeoPlatform.Foundation.JsonValue
import SeoPlatform.Foundation.Mapping
import SeoPlatform.Foundation.Rounding

namespace SeoPlatform.Orchestrator.Trends

open SeoPlatform.Foundation.JsonValue
open SeoPlatform.Foundation.Mapping
open SeoPlatform.Foundation.Rounding

/-- Which way is better. -/
inductive Way where
  | higher
  | lower
  deriving DecidableEq, Repr

structure Metric where
  key : String
  way : Way
  threshold : Rat
  labelFa : String

/-- The headline numbers that are worth tracking. -/
def metrics : List Metric :=
  [⟨"overall_score", .higher, 2, "امتیاز کلی"⟩,
   ⟨"total_issues", .lower, 2, "تعداد ایرادها"⟩,
   ⟨"keywords_found", .higher, 5, "کلمات کلیدی"⟩,
   ⟨"keywords_ranked", .higher, 1, "کلمه‌ی رتبه‌گرفته"⟩,
   ⟨"average_position", .lower, 1 / 2, "میانگین جایگاه"⟩,
   ⟨"orphan_pages", .lower, 1, "صفحه‌ی یتیم"⟩,
   ⟨"keyword_coverage", .higher, 5, "پوشش کلمات کلیدی"⟩,
   ⟨"behind_on", .lower, 1, "سنجه‌ای که از رقبا عقب‌اید"⟩]

def sampleTolerance : Rat := 1 / 5

def categoryThreshold : Rat := 3

def categoryFa : List (String × String) :=
  [("indexing", "ایندکس‌شدن و خزش"),
   ("content", "محتوا و کلمات کلیدی"),
   ("technical", "فنی"),
   ("performance", "سرعت و Core Web Vitals"),
   ("structured_data", "داده ساختاریافته"),
   ("links", "لینک‌سازی"),
   ("images", "تصاویر"),
   ("eeat", "اعتبار و E-E-A-T"),
   ("international", "چندزبانه"),
   ("ai_search", "جستجوی هوش مصنوعی")]

/-- The metrics that scale with how many pages were crawled. -/
def counting : List String := ["total_issues", "orphan_pages"]

/-- An entry of the scores by category, as the crawl announced it. -/
structure CategoryScore where
  category : String
  labelFa : Option String := none
  score : Json

/-- What is read of the report of a workflow. -/
structure WorkflowReport where
  workflowId : Json
  finishedAt : Json
  headline : Dict
  pagesCrawled : Int
  categoryScores : List CategoryScore

inductive Direction where
  | better
  | worse
  | level
  deriving DecidableEq, Repr

structure Change where
  metric : String
  labelFa : String
  before : Json
  after : Json
  change : Rat
  direction : Direction

structure Trend where
  comparedWith : Json
  comparedAt : Json
  changes : List Change
  better : List String
  worse : List String
  pagesBefore : Int
  pagesAfter : Int
  comparableSample : Bool
  note : Option String

section Numbers

variable (parseFloat : String → Option Rat)

/-- What is not a number, and not a text that is read as one, counts for nothing. -/
def number : Json → Rat
  | .int n => n
  | .float q => q
  | .bool b => if b then 1 else 0
  | .str s => (parseFloat s).getD 0
  | .null | .arr _ | .obj _ => 0

def delta (old new : Json) : Rat := roundHundredth (number parseFloat new - number parseFloat old)

end Numbers

def directionOf (way : Way) (threshold delta : Rat) : Direction :=
  if threshold ≤ |delta| then
    if (match way with | .higher => decide (0 < delta) | .lower => decide (delta < 0)) then .better
    else .worse
  else .level

/-- Two crawls fetched close enough to the same amount. -/
def similar (before after : Int) : Bool :=
  if before = 0 ∨ after = 0 then false
  else decide ((|after - before| : Int) ≤ sampleTolerance * (max before after : Int))

/-- `None` is what was not measured. -/
def measured : Json → Option Json
  | .null => none
  | v => some v

section Compare

variable (parseFloat : String → Option Rat)

/-- A headline number in two reports. -/
def metricChange (comparableSample : Bool) (before after : Dict) (m : Metric) : Option Change := do
  let old ← measured (before.get m.key)
  let new ← measured (after.get m.key)
  if m.key ∈ counting ∧ comparableSample = false then none
  else
    some
      { metric := m.key
        labelFa := m.labelFa
        before := old
        after := new
        change := delta parseFloat old new
        direction := directionOf m.way m.threshold (delta parseFloat old new) }

/-- The entry of a score among those by category. -/
def CategoryScore.entry (score : CategoryScore) : String × CategoryScore := (score.category, score)

def byCategory (scores : List CategoryScore) : Dictionary String CategoryScore :=
  .ofPairs (scores.map CategoryScore.entry)

def labelOf (key : String) (now : CategoryScore) : String :=
  match now.labelFa with
  | some label => if label ≠ "" then label else (categoryFa.lookup key).getD key
  | none => (categoryFa.lookup key).getD key

/-- The row of a category that two reports scored. -/
def categoryRow (key : String) (now : CategoryScore) (old new : Json) : Change where
  metric := "category:" ++ key
  labelFa := labelOf key now
  before := old
  after := new
  change := delta parseFloat old new
  direction := directionOf .higher categoryThreshold (delta parseFloat old new)

def categoryChange (before : Dictionary String CategoryScore) (entry : String × CategoryScore) :
    Option Change := do
  let was ← before.get? entry.1
  let new ← measured entry.2.score
  let old ← measured was.score
  some (categoryRow parseFloat entry.1 entry.2 old new)

/-- The biggest moves come first. -/
def Precedes (a b : Change) : Prop :=
  |b.change| < |a.change| ∨ |a.change| = |b.change| ∧ a.labelFa ≤ b.labelFa

instance : DecidableRel Precedes := fun _ _ => inferInstanceAs (Decidable (_ ∨ _))

def categories (previous current : WorkflowReport) : List Change :=
  let before := byCategory previous.categoryScores
  ((byCategory current.categoryScores).entries.filterMap
    (categoryChange parseFloat before)).insertionSort Precedes

def changesOf (previous current : WorkflowReport) (comparableSample : Bool) : List Change :=
  metrics.filterMap
      (metricChange parseFloat comparableSample previous.headline current.headline) ++
    categories parseFloat previous current

def moving (direction : Direction) (changes : List Change) : List String :=
  (changes.filter fun change => change.direction = direction).map Change.metric

/-- The change between two reports. Before the first run there is nothing to compare
with. -/
def compare (previous : Option WorkflowReport) (current : WorkflowReport) : Option Trend := do
  let previous ← previous
  let comparableSample := similar previous.pagesCrawled current.pagesCrawled
  let changes := changesOf parseFloat previous current comparableSample
  some
    { comparedWith := previous.workflowId
      comparedAt := previous.finishedAt
      changes
      better := moving .better changes
      worse := moving .worse changes
      pagesBefore := previous.pagesCrawled
      pagesAfter := current.pagesCrawled
      comparableSample
      note :=
        if comparableSample then none
        else
          some ("این بار " ++ toString current.pagesCrawled ++ " صفحه خزیده شد و دفعه‌ی قبل " ++
            toString previous.pagesCrawled ++ " — " ++
            "سنجه‌هایی که چیزی را می‌شمارند مقایسه نشدند، چون با اندازه‌ی خزش " ++
            "بالا و پایین می‌روند نه با وضعیت سایت.") }

end Compare

section Directions

/-- The other way around. -/
def Direction.opposite : Direction → Direction
  | .better => .worse
  | .worse => .better
  | .level => .level

/-- A move back is as far, and the other way. -/
theorem directionOf_neg (way : Way) {threshold : Rat} (h : 0 < threshold) (d : Rat) :
    directionOf way threshold (-d) = (directionOf way threshold d).opposite := by
  unfold directionOf
  rw [abs_neg]
  by_cases hmoved : threshold ≤ |d|
  · have hne : d ≠ 0 := by
      rintro rfl
      rw [abs_zero] at hmoved
      exact absurd h (not_lt.mpr hmoved)
    rw [if_pos hmoved, if_pos hmoved]
    rcases lt_or_gt_of_ne hne with hlt | hlt
    · cases way <;> simp [hlt, hlt.not_gt, Direction.opposite]
    · cases way <;> simp [hlt, hlt.not_gt, Direction.opposite]
  · rw [if_neg hmoved, if_neg hmoved]
    rfl

theorem delta_swap (parseFloat : String → Option Rat) (old new : Json) :
    delta parseFloat new old = -delta parseFloat old new := by
  unfold delta
  rw [← roundHundredth_neg, neg_sub]

theorem similar_swap (before after : Int) : similar before after = similar after before := by
  unfold similar
  refine if_congr or_comm rfl ?_
  rw [abs_sub_comm, max_comm]

end Directions

section Mirror

/-- What a change says of the direction things went. -/
def Change.view (change : Change) : String × Rat × Direction :=
  (change.metric, change.change, change.direction)

def mirror (said : String × Rat × Direction) : String × Rat × Direction :=
  (said.1, -said.2.1, said.2.2.opposite)

variable (parseFloat : String → Option Rat)

theorem threshold_pos {m : Metric} (h : m ∈ metrics) : 0 < m.threshold := by
  simp only [metrics, List.mem_cons, List.not_mem_nil, or_false] at h
  rcases h with rfl | rfl | rfl | rfl | rfl | rfl | rfl | rfl <;> norm_num

theorem metricChange_swap (comparableSample : Bool) (before after : Dict) {m : Metric}
    (h : m ∈ metrics) :
    (metricChange parseFloat comparableSample after before m).map Change.view =
      (metricChange parseFloat comparableSample before after m).map (mirror ∘ Change.view) := by
  unfold metricChange
  cases measured (after.get m.key) with
  | none =>
      cases measured (before.get m.key) <;> rfl
  | some new =>
      cases measured (before.get m.key) with
      | none => rfl
      | some old =>
          dsimp only [bind, Option.bind]
          split
          · rfl
          · simp only [Option.map_some, Change.view, mirror, Function.comp_apply]
            rw [delta_swap, directionOf_neg m.way (threshold_pos h)]

theorem map_fst_entry (scores : List CategoryScore) :
    (scores.map CategoryScore.entry).map Prod.fst = scores.map CategoryScore.category := by
  rw [List.map_map]
  rfl

/-- With one entry for each category nothing is written over. -/
theorem entries_byCategory {scores : List CategoryScore}
    (h : (scores.map CategoryScore.category).Nodup) :
    (byCategory scores).entries = scores.map CategoryScore.entry :=
  Dictionary.entries_ofPairs (by rwa [map_fst_entry])

theorem get?_byCategory {scores : List CategoryScore}
    (h : (scores.map CategoryScore.category).Nodup) {key : String} {was : CategoryScore} :
    (byCategory scores).get? key = some was ↔ was ∈ scores ∧ was.category = key := by
  rw [Dictionary.get?_eq_some_iff, entries_byCategory h, List.mem_map]
  constructor
  · rintro ⟨score, hmem, hentry⟩
    obtain ⟨hcategory, rfl⟩ := Prod.mk.inj hentry
    exact ⟨hmem, hcategory⟩
  · rintro ⟨hmem, rfl⟩
    exact ⟨was, hmem, rfl⟩

/-- What is said of the categories that both reports scored. -/
theorem mem_categories_view {previous current : WorkflowReport}
    (hprevious : (previous.categoryScores.map CategoryScore.category).Nodup)
    (hcurrent : (current.categoryScores.map CategoryScore.category).Nodup)
    (said : String × Rat × Direction) :
    said ∈ (categories parseFloat previous current).map Change.view ↔
      ∃ was ∈ previous.categoryScores, ∃ now ∈ current.categoryScores,
        was.category = now.category ∧ ∃ old ∈ measured was.score, ∃ new ∈ measured now.score,
          said = ("category:" ++ now.category, delta parseFloat old new,
            directionOf .higher categoryThreshold (delta parseFloat old new)) := by
  unfold categories
  dsimp only
  rw [((List.perm_insertionSort _ _).map _).mem_iff, entries_byCategory hcurrent, List.mem_map]
  constructor
  · rintro ⟨change, hchange, rfl⟩
    obtain ⟨entry, hentry, hchange⟩ := List.mem_filterMap.mp hchange
    obtain ⟨now, hnow, rfl⟩ := List.mem_map.mp hentry
    obtain ⟨was, hwas, hchange⟩ := Option.bind_eq_some_iff.mp hchange
    obtain ⟨new, hnew, hchange⟩ := Option.bind_eq_some_iff.mp hchange
    obtain ⟨old, hold, hchange⟩ := Option.bind_eq_some_iff.mp hchange
    obtain ⟨hmem, hcategory⟩ := (get?_byCategory hprevious).mp hwas
    obtain rfl := Option.some.inj hchange
    exact ⟨was, hmem, now, hnow, hcategory, old, hold, new, hnew, rfl⟩
  · rintro ⟨was, hwas, now, hnow, hcategory, old, hold, new, hnew, rfl⟩
    have hlookup := (get?_byCategory hprevious).mpr ⟨hwas, hcategory⟩
    refine ⟨categoryRow parseFloat now.category now old new,
      List.mem_filterMap.mpr ⟨now.entry, List.mem_map_of_mem hnow, ?_⟩, rfl⟩
    exact Option.bind_eq_some_iff.mpr ⟨was, hlookup, Option.bind_eq_some_iff.mpr
      ⟨new, hnew, Option.bind_eq_some_iff.mpr ⟨old, hold, rfl⟩⟩⟩

theorem metric_of_categoryChange {before : Dictionary String CategoryScore}
    {entry : String × CategoryScore} {change : Change}
    (h : categoryChange parseFloat before entry = some change) :
    change.metric = "category:" ++ entry.1 := by
  obtain ⟨was, -, h⟩ := Option.bind_eq_some_iff.mp h
  obtain ⟨new, -, h⟩ := Option.bind_eq_some_iff.mp h
  obtain ⟨old, -, h⟩ := Option.bind_eq_some_iff.mp h
  obtain rfl := Option.some.inj h
  rfl

/-- One row for each category. -/
theorem nodup_categories {previous current : WorkflowReport}
    (hcurrent : (current.categoryScores.map CategoryScore.category).Nodup) :
    ((categories parseFloat previous current).map Change.view).Nodup := by
  unfold categories
  dsimp only
  rw [((List.perm_insertionSort _ _).map _).nodup_iff, entries_byCategory hcurrent]
  refine List.Pairwise.map (R := fun a b => a.metric ≠ b.metric) Change.view ?_ ?_
  · intro a b hne heq
    exact hne (congrArg Prod.fst heq)
  · rw [List.pairwise_filterMap, List.pairwise_map]
    rw [List.Nodup, List.pairwise_map] at hcurrent
    refine hcurrent.imp ?_
    intro a b hne change hchange change' hchange' heq
    rw [metric_of_categoryChange parseFloat hchange,
      metric_of_categoryChange parseFloat hchange'] at heq
    exact hne (String.append_right_inj _ |>.mp heq)

theorem mirror_mirror (said : String × Rat × Direction) : mirror (mirror said) = said := by
  obtain ⟨metric, d, direction⟩ := said
  unfold mirror
  rw [neg_neg]
  cases direction <;> rfl

theorem mirror_injective : Function.Injective mirror :=
  Function.LeftInverse.injective mirror_mirror

theorem categories_swap {a b : WorkflowReport}
    (ha : (a.categoryScores.map CategoryScore.category).Nodup)
    (hb : (b.categoryScores.map CategoryScore.category).Nodup) :
    ((categories parseFloat b a).map Change.view).Perm
      (((categories parseFloat a b).map Change.view).map mirror) := by
  apply (List.perm_ext_iff_of_nodup (nodup_categories parseFloat ha)
    ((nodup_categories parseFloat hb).map mirror_injective)).mpr
  have hthreshold : 0 < categoryThreshold := by
    unfold categoryThreshold
    norm_num
  intro said
  rw [mem_categories_view parseFloat hb ha, List.mem_map]
  constructor
  · rintro ⟨was, hwas, now, hnow, hcategory, old, hold, new, hnew, rfl⟩
    refine ⟨_, (mem_categories_view parseFloat ha hb _).mpr
      ⟨now, hnow, was, hwas, hcategory.symm, new, hnew, old, hold, rfl⟩, ?_⟩
    unfold mirror
    rw [← directionOf_neg _ hthreshold, ← delta_swap, hcategory]
  · rintro ⟨said, hsaid, rfl⟩
    obtain ⟨was, hwas, now, hnow, hcategory, old, hold, new, hnew, rfl⟩ :=
      (mem_categories_view parseFloat ha hb _).mp hsaid
    refine ⟨now, hnow, was, hwas, hcategory.symm, new, hnew, old, hold, ?_⟩
    unfold mirror
    rw [← directionOf_neg _ hthreshold, ← delta_swap, hcategory]

theorem metrics_swap (comparableSample : Bool) (before after : Dict) :
    (metrics.filterMap (metricChange parseFloat comparableSample after before)).map Change.view =
      ((metrics.filterMap (metricChange parseFloat comparableSample before after)).map
        Change.view).map mirror := by
  rw [List.map_map, List.map_filterMap, List.map_filterMap]
  exact List.filterMap_congr fun m hm =>
    metricChange_swap parseFloat comparableSample before after hm

/-- Read the other way around, the changes are the same and go the other way. -/
theorem changes_swap {a b : WorkflowReport}
    (ha : (a.categoryScores.map CategoryScore.category).Nodup)
    (hb : (b.categoryScores.map CategoryScore.category).Nodup) (comparableSample : Bool) :
    ((changesOf parseFloat b a comparableSample).map Change.view).Perm
      (((changesOf parseFloat a b comparableSample).map Change.view).map mirror) := by
  unfold changesOf
  rw [List.map_append, List.map_append, List.map_append, metrics_swap]
  exact (categories_swap parseFloat ha hb).append_left _

end Mirror

section Symmetry

/-- The metrics that moved one way, by what is said of them. -/
theorem moving_eq (direction : Direction) (changes : List Change) :
    moving direction changes =
      ((changes.map Change.view).filter fun said => said.2.2 = direction).map Prod.fst := by
  unfold moving
  rw [List.filter_map, List.map_map]
  rfl

theorem moving_swap {changes changes' : List Change}
    (h : (changes'.map Change.view).Perm ((changes.map Change.view).map mirror))
    (direction : Direction) :
    (moving direction.opposite changes').Perm (moving direction changes) := by
  have hmirror : ∀ said : String × Rat × Direction,
      decide ((mirror said).2.2 = direction.opposite) = decide (said.2.2 = direction) := by
    intro said
    obtain ⟨metric, d, way⟩ := said
    cases way <;> cases direction <;> rfl
  rw [moving_eq, moving_eq]
  refine ((h.filter _).map _).trans (.of_eq ?_)
  rw [List.filter_map, List.map_map]
  simp only [Function.comp_def, hmirror]
  rfl

/-- Two comparisons that say the same of opposite directions. -/
structure Mirrored (there back : Trend) : Prop where
  changes : ((back.changes.map fun change => (change.metric, change.change))).Perm
    (there.changes.map fun change => (change.metric, -change.change))
  better : back.better.Perm there.worse
  worse : back.worse.Perm there.better
  level : (moving .level back.changes).Perm (moving .level there.changes)
  comparableSample : back.comparableSample = there.comparableSample

/-- Compared in either order, two reports show the same changes, better one way and
worse the other. -/
theorem compare_mirrored (parseFloat : String → Option Rat) {a b : WorkflowReport}
    (ha : (a.categoryScores.map CategoryScore.category).Nodup)
    (hb : (b.categoryScores.map CategoryScore.category).Nodup) :
    ∃ there back, compare parseFloat (some a) b = some there ∧
      compare parseFloat (some b) a = some back ∧ Mirrored there back := by
  refine ⟨_, _, rfl, rfl, ?_⟩
  have hsample := similar_swap a.pagesCrawled b.pagesCrawled
  have hswap := changes_swap parseFloat ha hb (similar a.pagesCrawled b.pagesCrawled)
  refine ⟨?_, ?_, ?_, ?_, ?_⟩
  · dsimp only
    rw [← hsample]
    have hpairs := hswap.map fun said => (said.1, said.2.1)
    rwa [List.map_map, List.map_map, List.map_map] at hpairs
  · dsimp only
    rw [← hsample]
    exact moving_swap hswap .worse
  · dsimp only
    rw [← hsample]
    exact moving_swap hswap .better
  · dsimp only
    rw [← hsample]
    exact moving_swap hswap .level
  · exact hsample.symm

def lastWeek : WorkflowReport where
  workflowId := .str "w1"
  finishedAt := .null
  headline := [("overall_score", .int 45), ("orphan_pages", .int 3), ("keywords_ranked", .null)]
  pagesCrawled := 10
  categoryScores := [{ category := "content", score := .int 68 },
    { category := "links", score := .int 90 }]

def thisWeek : WorkflowReport where
  workflowId := .str "w2"
  finishedAt := .null
  headline := [("overall_score", .int 58), ("orphan_pages", .int 9), ("keywords_ranked", .int 5)]
  pagesCrawled := 40
  categoryScores := [{ category := "links", score := .int 89 },
    { category := "content", score := .int 76 }]

theorem compare_mirrored_weeks :
    ∃ there back, compare (fun _ => none) (some lastWeek) thisWeek = some there ∧
      compare (fun _ => none) (some thisWeek) lastWeek = some back ∧ Mirrored there back :=
  compare_mirrored _ (by decide) (by decide)

/-- Four times as many pages are no sample to count orphans by. -/
example : (compare (fun _ => none) (some lastWeek) thisWeek).map (fun trend =>
    (trend.changes.map Change.view, trend.better, trend.worse, trend.comparableSample)) =
    some ([("overall_score", 13, .better), ("category:content", 8, .better),
      ("category:links", -1, .level)], ["overall_score", "category:content"], [], false) := by
  decide +kernel

end Symmetry

end SeoPlatform.Orchestrator.Trends
