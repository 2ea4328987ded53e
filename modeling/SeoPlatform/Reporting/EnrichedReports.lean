import SeoPlatform.Orchestrator.Announcement
import SeoPlatform.Orchestrator.Enriching
import SeoPlatform.Reporting.Rendering

namespace SeoPlatform.Reporting.EnrichedReports

open SeoPlatform.Foundation.ExceptFlow
open SeoPlatform.Foundation.JsonValue
open SeoPlatform.Foundation.JsonSchema
open SeoPlatform.Foundation.TextTable
open SeoPlatform.Foundation.TransitionSystem
open SeoPlatform.Orchestrator.Engine (Env asDict sliced)
open SeoPlatform.Orchestrator.Planner (iterate letters)
open SeoPlatform.Orchestrator.Announcement (crawlFails)
open SeoPlatform.Orchestrator.Deliveries
open SeoPlatform.Orchestrator.Enriching
open SeoPlatform.Orchestrator.LegibleReports
open SeoPlatform.Orchestrator.ReportTrends
open SeoPlatform.Orchestrator.Store
open SeoPlatform.Orchestrator.Summaries (answered enrich written)
open SeoPlatform.Orchestrator.Trends (Change Trend)
open SeoPlatform.Orchestrator.Workers
open SeoPlatform.Reporting.Rendering
open SeoPlatform.Shared.Contracts
open SeoPlatform.Shared.Exceptions

/-- Nothing, or a list of what satisfies a condition. -/
def ListOf (P : Json → Prop) (v : Json) : Prop :=
  v.truthy = false ∨ ∃ items, v = .arr items ∧ ∀ item ∈ items, P item

def IsObject (v : Json) : Prop := ∃ d, v = .obj d

/-- Nothing, or something that can be gone through. -/
def Iterable (v : Json) : Prop := v.truthy = false ∨ Returns (iterate v)

/-- The pages of the plan in a report. -/
def planPages (report : Dict) : Json :=
  match part report "optimizer" with
  | .ok plan => Dict.get plan "pages"
  | .error _ => .null

/-- The answer says nothing, or its actions are objects in a list and its watch-outs can be
gone through. -/
def Harmless (shown : Json → String) (answer : Dict) : Prop :=
  written shown answer = "" ∨
    ListOf IsObject (Dict.get answer "next_actions") ∧ Iterable (Dict.get answer "watch_outs")

/-- The workflow as it is served when its report has got another summary. -/
def enriched (w : Served) (report summary : Dict) : Served :=
  { w with report := some (Dict.set report "summary" (.obj summary)) }

/-- The summary is enriched, and both documents of the report with it are rendered. -/
def Unbroken (shown dumped : Json → String) (report answer : Dict) (w : Served) : Prop :=
  ∃ summary, enrich shown dumped (some (.ok answer)) report = .ok summary ∧
    Returns (markdown shown (enriched w report summary)) ∧
    Returns (document shown (enriched w report summary))

theorem ListOf.mono {P Q : Json → Prop} {v : Json} (h : ListOf P v)
    (hPQ : ∀ item, P item → Q item) : ListOf Q v :=
  h.imp_right fun ⟨items, hv, hitems⟩ => ⟨items, hv, fun item hitem => hPQ item (hitems item hitem)⟩

theorem listOf_of_nullable {item : Schema} {v : Json}
    (h : nullable (arrayOf 0 none item) v = true) : ListOf (fun i => item i = true) v := by
  rcases nullable_iff.mp h with rfl | harray
  · exact .inl rfl
  · obtain ⟨items, rfl, -, -, hitems⟩ := arrayOf_iff.mp harray
    exact .inr ⟨items, rfl, hitems⟩

theorem listOf_closed {required : List String} {fields : List (String × Schema)} {v : Json}
    (h : nullable (arrayOf 0 none (closedObject required fields)) v = true) :
    ListOf IsObject v :=
  (listOf_of_nullable h).mono fun _ hclosed => (closedObject_iff.mp hclosed).imp fun _ h => h.1

section Sections

variable {shown : Json → String} {report : Dict} {rows row : Json} {P : Json → Prop}
  {heading : String} {columns : List String}

theorem returns_asDict (h : IsObject row) : Returns (asDict row) := by
  obtain ⟨d, rfl⟩ := h
  exact returns_ok d

theorem firstRows_listOf (h : ListOf P rows) (n : Nat) :
    ∃ v, firstRows n rows = .ok v ∧ ListOf P v := by
  rcases h with hfalsy | ⟨items, rfl, hitems⟩
  · refine ⟨rows, ?_, .inl hfalsy⟩
    unfold firstRows
    rw [hfalsy]
    rfl
  · unfold firstRows
    split
    · exact ⟨_, rfl, .inr ⟨_, rfl, fun i hi => hitems i (List.mem_of_mem_take hi)⟩⟩
    · exact ⟨_, rfl, .inr ⟨items, rfl, hitems⟩⟩

theorem returns_sectionMd {cells : Json → Except Exn (List String)} (h : ListOf P rows)
    (hcells : ∀ row, P row → Returns (cells row)) :
    Returns (sectionMd heading columns rows cells) := by
  unfold sectionMd
  split
  · rename_i htruthy
    rcases h with hfalsy | ⟨items, rfl, hitems⟩
    · rw [hfalsy] at htruthy
      cases htruthy
    · refine returns_bind ?_ fun _ _ => returns_ok _
      refine returns_bind ⟨items, rfl⟩ fun found hfound => ?_
      cases hfound
      exact returns_mapM fun row hrow => hcells row (hitems row hrow)
  · exact returns_ok _

theorem returns_sectionHtml {note : Json} {cells : Json → Except Exn (List Json)}
    (h : ListOf P rows) (hcells : ∀ row, P row → Returns (cells row)) :
    Returns (sectionHtml shown heading columns rows note cells) := by
  unfold sectionHtml
  split
  · rename_i htruthy
    rcases h with hfalsy | ⟨items, rfl, hitems⟩
    · rw [hfalsy] at htruthy
      cases htruthy
    · refine returns_bind ⟨items, rfl⟩ fun found hfound => ?_
      cases hfound
      exact returns_bind (returns_mapM fun row hrow => hcells row (hitems row hrow))
        fun _ _ => returns_ok _
  · exact returns_ok _

/-- A section shows a list or nothing. -/
theorem iterable_of_sectionMd {cells : Json → Except Exn (List String)}
    (h : Returns (sectionMd heading columns rows cells)) : Iterable rows := by
  unfold sectionMd at h
  split at h
  · obtain ⟨_, h⟩ := h
    obtain ⟨body, hbody, -⟩ := ok_of_bind h
    obtain ⟨items, hitems, -⟩ := ok_of_bind hbody
    exact .inr ⟨items, hitems⟩
  · rename_i hfalsy
    exact .inl (Bool.not_eq_true _ ▸ hfalsy)

theorem iterable_of_sectionHtml {note : Json} {cells : Json → Except Exn (List Json)}
    (h : Returns (sectionHtml shown heading columns rows note cells)) : Iterable rows := by
  unfold sectionHtml at h
  split at h
  · obtain ⟨_, h⟩ := h
    obtain ⟨items, hitems, -⟩ := ok_of_bind h
    exact .inr ⟨items, hitems⟩
  · rename_i hfalsy
    exact .inl (Bool.not_eq_true _ ▸ hfalsy)

/-- What can be gone through of the pages of a plan is a list of objects. -/
theorem listOf_of_iterable (hpages : nullable pagesField rows = true) (h : Iterable rows) :
    ListOf IsObject rows := by
  rcases nullable_iff.mp hpages with rfl | hpages
  · exact .inl rfl
  · rcases Bool.or_eq_true_iff.mp hpages with hinteger | hlist
    · rcases h with hfalsy | ⟨items, hitems⟩
      · exact .inl hfalsy
      · cases rows with
        | int | float => cases hitems
        | null | bool | str | arr | obj => simp [integer, integerIn] at hinteger
    · exact listOf_closed (nullable_of hlist)

theorem returns_fieldCells (keys : List String) (h : IsObject row) :
    Returns (fieldCells shown keys row) :=
  returns_mapM fun _ _ => returns_bind (returns_fieldOr (returns_asDict h)) fun _ _ => returns_ok _

theorem returns_fieldValues (keys : List String) (h : IsObject row) :
    Returns (fieldValues keys row) :=
  returns_mapM fun _ _ => returns_fieldOr (returns_asDict h)

theorem returns_opportunityCells (h : IsObject row) : Returns (opportunityCells shown row) := by
  have hobject := returns_asDict h
  refine returns_bind (returns_field hobject) fun _ _ => ?_
  refine returns_bind (returns_fieldOr hobject) fun _ _ => ?_
  exact returns_bind (returns_fieldOr hobject) fun _ _ => returns_ok _

theorem returns_opportunityValues (h : IsObject row) : Returns (opportunityValues row) := by
  have hobject := returns_asDict h
  refine returns_bind (returns_field hobject) fun _ _ => ?_
  refine returns_bind (returns_fieldOr hobject) fun _ _ => ?_
  exact returns_bind (returns_fieldOr hobject) fun _ _ => returns_ok _

theorem returns_arrow (change : Change) : Returns (arrow shown (rowOf change)) := by
  refine returns_bind ⟨.float change.change, rfl⟩ fun delta hdelta => ?_
  cases hdelta
  refine returns_bind ⟨_, rfl⟩ fun _ _ => ?_
  refine returns_bind ⟨_, rfl⟩ fun direction hdirection => ?_
  cases hdirection
  exact returns_bind ⟨_, rfl⟩ fun _ _ => returns_ok _

theorem returns_changeCells (change : Change) : Returns (changeCells shown (rowOf change)) := by
  refine returns_bind ⟨_, rfl⟩ fun _ _ => ?_
  refine returns_bind ⟨_, rfl⟩ fun _ _ => ?_
  refine returns_bind ⟨_, rfl⟩ fun _ _ => ?_
  exact returns_bind (returns_arrow change) fun _ _ => returns_ok _

theorem returns_changeValues (change : Change) : Returns (changeValues shown (rowOf change)) := by
  refine returns_bind ⟨_, rfl⟩ fun _ _ => ?_
  refine returns_bind ⟨_, rfl⟩ fun _ _ => ?_
  refine returns_bind ⟨_, rfl⟩ fun _ _ => ?_
  exact returns_bind (returns_arrow change) fun _ _ => returns_ok _

/-- The trend of a legible report, or the empty one. -/
theorem trend_ok (h : Legible report) :
    ∃ trend, part report "trend" = .ok trend ∧ (trend = [] ∨ ∃ t, trend = fieldsOf t) := by
  unfold part
  rcases h.trend with hnull | ⟨t, ht⟩
  · rw [hnull]
    exact ⟨[], rfl, .inl rfl⟩
  · rw [ht]
    exact ⟨fieldsOf t, rfl, .inr ⟨t, rfl⟩⟩

theorem listOf_changes {trend : Dict} (h : trend = [] ∨ ∃ t, trend = fieldsOf t) :
    ListOf (fun row => ∃ change, row = rowOf change) (Dict.get trend "changes") := by
  rcases h with rfl | ⟨t, rfl⟩
  · exact .inl rfl
  · refine .inr ⟨t.changes.map rowOf, rfl, fun row hrow => ?_⟩
    obtain ⟨change, -, rfl⟩ := List.mem_map.mp hrow
    exact ⟨change, rfl⟩

theorem returns_trendNoteMd {trend : Dict} (h : trend = [] ∨ ∃ t, trend = fieldsOf t) :
    Returns (trendNoteMd trend) := by
  unfold trendNoteMd
  split
  · rename_i hboth
    have hnote := (Bool.and_eq_true_iff.mp hboth).2
    rcases h with rfl | ⟨t, rfl⟩
    · cases hnote
    · have hget : Dict.get (fieldsOf t) "note" = .ofOption .str t.note := rfl
      rw [hget] at hnote ⊢
      cases hsaid : t.note with
      | none =>
          rw [hsaid] at hnote
          cases hnote
      | some said => exact returns_bind ⟨said, rfl⟩ fun _ _ => returns_ok _
  · exact returns_ok _

/-- What the sections of a report are made of. -/
structure Material (report : Dict) where
  rankings : Dict
  content : Dict
  trend : Dict
  competitors : Dict
  links : Dict
  plan : Dict
  openings : Json
  rankings_ok : part report "rankings" = .ok rankings
  content_ok : part report "content" = .ok content
  trend_ok : part report "trend" = .ok trend
  competitors_ok : part report "competitors" = .ok competitors
  links_ok : part report "links" = .ok links
  plan_ok : part report "optimizer" = .ok plan
  first : firstRows 15 (Dict.get rankings "opportunities") = .ok openings
  open_listed : ListOf IsObject openings
  rivals_listed : ListOf IsObject (Dict.get rankings "top_competitors")
  gaps_listed : ListOf IsObject (Dict.get content "top_gaps")
  moved : trend = [] ∨ ∃ t, trend = fieldsOf t
  themes_listed : ListOf (fun item => string item = true)
    (Dict.get competitors "top_missing_themes")
  weak_listed : ListOf IsObject (Dict.get links "top_opportunities")
  planned : nullable pagesField (Dict.get plan "pages") = true

theorem material_of_legible (h : Legible report) : Nonempty (Material report) := by
  obtain ⟨rankings, hrankings, hranked⟩ := h.part_ok "rankings" (by simp [resultParts])
  obtain ⟨content, hcontent, hcovered⟩ := h.part_ok "content" (by simp [resultParts])
  obtain ⟨trend, htrend, hmoved⟩ := trend_ok h
  obtain ⟨competitors, hcompetitors, hcompared⟩ :=
    h.part_ok "competitors" (by simp [resultParts])
  obtain ⟨links, hlinks, hlinked⟩ := h.part_ok "links" (by simp [resultParts])
  obtain ⟨plan, hplan, hplanned⟩ := h.part_ok "optimizer" (by simp [resultParts])
  obtain ⟨openings, hfirst, hopenings⟩ :=
    firstRows_listOf (listOf_closed (hranked.field "opportunities" rfl)) 15
  exact ⟨{ rankings, content, trend, competitors, links, plan, openings
           rankings_ok := hrankings
           content_ok := hcontent
           trend_ok := htrend
           competitors_ok := hcompetitors
           links_ok := hlinks
           plan_ok := hplan
           first := hfirst
           open_listed := hopenings
           rivals_listed := listOf_closed (hranked.field "top_competitors" rfl)
           gaps_listed := listOf_closed (hcovered.field "top_gaps" rfl)
           moved := hmoved
           themes_listed := listOf_of_nullable (hcompared.field "top_missing_themes" rfl)
           weak_listed := listOf_closed (hlinked.field "top_opportunities" rfl)
           planned := hplanned.field "pages" rfl }⟩

theorem Material.planPages_eq (m : Material report) :
    planPages report = Dict.get m.plan "pages" := by
  unfold planPages
  rw [m.plan_ok]

/-- The sections of a legible report can be shown where the plan lists its pages. -/
theorem returns_sectionsMd_iff (h : Legible report) :
    Returns (sectionsMd shown report) ↔ ListOf IsObject (planPages report) := by
  obtain ⟨m⟩ := material_of_legible h
  rw [m.planPages_eq]
  unfold sectionsMd
  rw [m.rankings_ok, m.content_ok, m.competitors_ok, m.links_ok, m.plan_ok, m.trend_ok]
  refine returns_bind_iff ⟨m.rankings, rfl⟩ fun _ hfound => ?_
  cases hfound
  refine returns_bind_iff ⟨m.openings, m.first⟩ fun _ hfound => ?_
  rw [m.first] at hfound
  cases hfound
  refine returns_bind_iff (returns_sectionMd m.open_listed fun _ => returns_opportunityCells)
    fun _ _ => ?_
  refine returns_bind_iff (returns_sectionMd m.rivals_listed fun _ => returns_fieldCells _)
    fun _ _ => ?_
  refine returns_bind_iff ⟨m.content, rfl⟩ fun _ hfound => ?_
  cases hfound
  refine returns_bind_iff (returns_sectionMd m.gaps_listed fun _ => returns_fieldCells _)
    fun _ _ => ?_
  refine returns_bind_iff ⟨m.trend, rfl⟩ fun _ hfound => ?_
  cases hfound
  refine returns_bind_iff (returns_sectionMd (listOf_changes m.moved) ?_) fun _ _ => ?_
  · rintro _ ⟨change, rfl⟩
    exact returns_changeCells change
  refine returns_bind_iff (returns_trendNoteMd m.moved) fun _ _ => ?_
  refine returns_bind_iff ⟨m.competitors, rfl⟩ fun _ hfound => ?_
  cases hfound
  refine returns_bind_iff (returns_sectionMd m.themes_listed fun _ _ => returns_ok _) fun _ _ => ?_
  refine returns_bind_iff ⟨m.links, rfl⟩ fun _ hfound => ?_
  cases hfound
  refine returns_bind_iff (returns_sectionMd m.weak_listed fun _ => returns_fieldCells _)
    fun _ _ => ?_
  refine returns_bind_iff ⟨m.plan, rfl⟩ fun _ hfound => ?_
  cases hfound
  constructor
  · rintro ⟨_, h⟩
    obtain ⟨rewrites, hrewrites, -⟩ := ok_of_bind h
    exact listOf_of_iterable m.planned (iterable_of_sectionMd ⟨_, hrewrites⟩)
  · exact fun hlist => returns_bind (returns_sectionMd hlist fun _ => returns_fieldCells _)
      fun _ _ => returns_ok _

theorem returns_sectionsHtml_iff (h : Legible report) :
    Returns (sectionsHtml shown report) ↔ ListOf IsObject (planPages report) := by
  obtain ⟨m⟩ := material_of_legible h
  rw [m.planPages_eq]
  unfold sectionsHtml
  rw [m.rankings_ok, m.content_ok, m.competitors_ok, m.links_ok, m.plan_ok, m.trend_ok]
  refine returns_bind_iff ⟨m.rankings, rfl⟩ fun _ hfound => ?_
  cases hfound
  refine returns_bind_iff ⟨m.openings, m.first⟩ fun _ hfound => ?_
  rw [m.first] at hfound
  cases hfound
  refine returns_bind_iff (returns_sectionHtml m.open_listed fun _ => returns_opportunityValues)
    fun _ _ => ?_
  refine returns_bind_iff (returns_sectionHtml m.rivals_listed fun _ => returns_fieldValues _)
    fun _ _ => ?_
  refine returns_bind_iff ⟨m.content, rfl⟩ fun _ hfound => ?_
  cases hfound
  refine returns_bind_iff (returns_sectionHtml m.gaps_listed fun _ => returns_fieldValues _)
    fun _ _ => ?_
  refine returns_bind_iff ⟨m.trend, rfl⟩ fun _ hfound => ?_
  cases hfound
  refine returns_bind_iff (returns_sectionHtml (listOf_changes m.moved) ?_) fun _ _ => ?_
  · rintro _ ⟨change, rfl⟩
    exact returns_changeValues change
  refine returns_bind_iff ⟨m.competitors, rfl⟩ fun _ hfound => ?_
  cases hfound
  refine returns_bind_iff (returns_sectionHtml m.themes_listed fun _ _ => returns_ok _)
    fun _ _ => ?_
  refine returns_bind_iff ⟨m.links, rfl⟩ fun _ hfound => ?_
  cases hfound
  refine returns_bind_iff (returns_sectionHtml m.weak_listed fun _ => returns_fieldValues _)
    fun _ _ => ?_
  refine returns_bind_iff ⟨m.plan, rfl⟩ fun _ hfound => ?_
  cases hfound
  constructor
  · rintro ⟨_, h⟩
    obtain ⟨rewrites, hrewrites, -⟩ := ok_of_bind h
    exact listOf_of_iterable m.planned (iterable_of_sectionHtml ⟨_, hrewrites⟩)
  · exact fun hlist => returns_bind (returns_sectionHtml hlist fun _ => returns_fieldValues _)
      fun _ _ => returns_ok _

end Sections

section Summaries

variable {shown : Json → String} {summary : Dict}

/-- Of what can be gone through, only a list has objects in it. -/
theorem listOf_isObject_iff {v : Json} (htruthy : v.truthy = true) :
    ListOf IsObject v ↔ ∃ items, iterate v = .ok items ∧ ∀ item ∈ items, IsObject item := by
  constructor
  · rintro (hfalsy | ⟨items, rfl, hitems⟩)
    · rw [hfalsy] at htruthy
      cases htruthy
    · exact ⟨items, rfl, hitems⟩
  · rintro ⟨items, hitems, hobjects⟩
    cases v with
    | arr own =>
        cases hitems
        exact .inr ⟨_, rfl, hobjects⟩
    | str s =>
        cases hitems
        cases hletters : s.toList with
        | nil =>
            rw [String.toList_eq_nil_iff.mp hletters] at htruthy
            cases htruthy
        | cons c rest =>
            obtain ⟨d, hd⟩ := hobjects (.str (String.ofList [c])) (by simp [letters, hletters])
            cases hd
    | obj fields =>
        cases hitems
        cases fields with
        | nil => cases htruthy
        | cons first rest =>
            obtain ⟨d, hd⟩ := hobjects (.str first.1) List.mem_cons_self
            cases hd
    | null | bool | int | float => cases hitems

theorem isObject_of_fieldOr {row fallback v : Json} {key : String}
    (h : fieldOr row key fallback = .ok v) : IsObject row := by
  obtain ⟨d, hd, -⟩ := ok_of_bind h
  cases row with
  | obj fields => exact ⟨fields, rfl⟩
  | null | bool | int | float | str | arr => cases hd

theorem returns_actionMd_iff {n : Nat} {action : Json} :
    Returns (actionMd shown n action) ↔ IsObject action := by
  constructor
  · rintro ⟨_, h⟩
    obtain ⟨_, hread, -⟩ := ok_of_bind h
    exact isObject_of_fieldOr hread
  · rintro ⟨d, rfl⟩
    exact returns_ok _

theorem returns_nextMd_iff {actions : Json} :
    Returns (nextMd shown actions) ↔ ListOf IsObject actions := by
  unfold nextMd
  split
  · rename_i htruthy
    rw [listOf_isObject_iff htruthy]
    constructor
    · rintro ⟨_, h⟩
      obtain ⟨items, hitems, h⟩ := ok_of_bind h
      obtain ⟨listed, hlisted, -⟩ := ok_of_bind h
      refine ⟨items, hitems, fun item hitem => ?_⟩
      rw [← List.zipIdx_map_fst 0 items] at hitem
      obtain ⟨⟨action, n⟩, hnumbered, rfl⟩ := List.mem_map.mp hitem
      obtain ⟨_, -, hread⟩ := exists_mem_of_mapM hlisted hnumbered
      exact returns_actionMd_iff.mp ⟨_, hread⟩
    · rintro ⟨items, hitems, hobjects⟩
      refine returns_bind ⟨items, hitems⟩ fun _ hfound => ?_
      rw [hitems] at hfound
      cases hfound
      refine returns_bind (returns_mapM fun numbered hnumbered => ?_) fun _ _ => returns_ok _
      exact returns_actionMd_iff.mpr (hobjects _ (List.fst_mem_of_mem_zipIdx hnumbered))
  · rename_i hfalsy
    exact iff_of_true (returns_ok _) (.inl (Bool.not_eq_true _ ▸ hfalsy))

theorem returns_nextHtml {actions : Json} (h : ListOf IsObject actions) :
    Returns (nextHtml shown actions) := by
  unfold nextHtml
  split
  · rename_i htruthy
    obtain ⟨items, hitems, hobjects⟩ := (listOf_isObject_iff htruthy).mp h
    refine returns_bind ⟨items, hitems⟩ fun _ hfound => ?_
    rw [hitems] at hfound
    cases hfound
    refine returns_bind (returns_mapM fun item hitem => ?_) fun _ _ => returns_ok _
    obtain ⟨d, rfl⟩ := hobjects item hitem
    exact returns_ok _
  · exact returns_ok _

theorem returns_watchMd_iff {outs : Json} : Returns (watchMd shown outs) ↔ Iterable outs := by
  unfold watchMd Iterable
  split
  · rename_i htruthy
    rw [htruthy, or_iff_right (by simp)]
    constructor
    · rintro ⟨_, h⟩
      obtain ⟨items, hitems, -⟩ := ok_of_bind h
      exact ⟨items, hitems⟩
    · exact fun h => returns_bind h fun _ _ => returns_ok _
  · rename_i hfalsy
    exact iff_of_true (returns_ok _) (.inl (Bool.not_eq_true _ ▸ hfalsy))

theorem returns_watchHtml {outs : Json} (h : Iterable outs) : Returns (watchHtml shown outs) := by
  unfold watchHtml
  split
  · rename_i htruthy
    rcases h with hfalsy | hiterates
    · rw [hfalsy] at htruthy
      cases htruthy
    · exact returns_bind hiterates fun _ _ => returns_ok _
  · exact returns_ok _

/-- What a reader needs of a summary. -/
def Presentable (summary : Dict) : Prop :=
  ListOf IsObject (Dict.get summary "next_actions") ∧ Iterable (Dict.get summary "watch_outs")

theorem returns_summaryMd {said : String} (htext : Dict.get summary "text_fa" = .str said)
    (h : Presentable summary) : Returns (summaryMd shown summary) := by
  unfold summaryMd
  split
  · refine returns_bind (returns_nextMd_iff.mpr h.1) fun _ _ => ?_
    refine returns_bind (returns_watchMd_iff.mpr h.2) fun _ _ => ?_
    rw [htext]
    exact returns_bind ⟨said, rfl⟩ fun _ _ => returns_ok _
  · exact returns_ok _

theorem returns_summaryHtml (h : Presentable summary) : Returns (summaryHtml shown summary) := by
  unfold summaryHtml
  split
  · refine returns_bind (returns_nextHtml h.1) fun _ _ => ?_
    exact returns_bind (returns_watchHtml h.2) fun _ _ => returns_ok _
  · exact returns_ok _

/-- A summary with a text is presentable where it can be shown. -/
theorem presentable_of_summaryMd (htext : (Dict.get summary "text_fa").truthy = true)
    (h : Returns (summaryMd shown summary)) : Presentable summary := by
  unfold summaryMd at h
  rw [if_pos htext] at h
  obtain ⟨_, h⟩ := h
  obtain ⟨_, hnext, h⟩ := ok_of_bind h
  obtain ⟨_, hwatch, -⟩ := ok_of_bind h
  exact ⟨returns_nextMd_iff.mp ⟨_, hnext⟩, returns_watchMd_iff.mp ⟨_, hwatch⟩⟩

end Summaries

section Documents

variable {shown dumped : Json → String} {report summary answer : Dict} {w : Served}

theorem headlineRows_returns (h : Legible report) : Returns (headlineRows report) :=
  returns_bind h.headline fun _ _ => returns_ok _

theorem titleOf_returns (h : Legible report) (hreport : w.report = some report) :
    Returns (titleOf shown w) := by
  refine returns_bind ?_ fun _ _ => returns_ok _
  obtain ⟨crawl, hcrawl, -⟩ := h.parts "crawl" (by simp [resultParts])
  unfold siteOf
  dsimp only
  split
  · exact returns_ok _
  · rw [hreport, Option.getD_some, hcrawl]
    exact returns_bind (returns_field (returns_ok _)) fun _ _ => returns_ok _

theorem part_summary (report summary : Dict) :
    part (Dict.set report "summary" (.obj summary)) "summary" = .ok summary := by
  refine part_of_getD ?_
  simp [Dict.getD, Dict.get?_set]

theorem planPages_set_summary (report : Dict) (summary : Json) :
    planPages (Dict.set report "summary" summary) = planPages report := by
  unfold planPages part Dict.get
  rw [Dict.get?_set_of_ne _ _ (by simp)]

/-- The Markdown is made where the summary can be shown and the plan lists its pages. -/
theorem returns_markdown_iff (h : Legible report) :
    Returns (markdown shown (enriched w report summary)) ↔
      Returns (summaryMd shown summary) ∧ ListOf IsObject (planPages report) := by
  have hlegible := h.set_summary (.obj summary)
  have hpart := part_summary report summary
  rw [← planPages_set_summary report (.obj summary)]
  constructor
  · rintro ⟨_, hmade⟩
    obtain ⟨_, hblocks, -⟩ := ok_of_bind hmade
    obtain ⟨own, hown, hblocks⟩ := ok_of_bind hblocks
    obtain ⟨_, -, hblocks⟩ := ok_of_bind hblocks
    obtain ⟨_, hsummary, hblocks⟩ := ok_of_bind hblocks
    obtain ⟨_, -, hblocks⟩ := ok_of_bind hblocks
    obtain ⟨_, hsections, -⟩ := ok_of_bind hblocks
    obtain rfl : own = summary := Except.ok.inj (hown.symm.trans hpart)
    exact ⟨⟨_, hsummary⟩, (returns_sectionsMd_iff hlegible).mp ⟨_, hsections⟩⟩
  · rintro ⟨hsummary, hpages⟩
    refine returns_bind ?_ fun _ _ => returns_ok _
    refine returns_bind ⟨summary, hpart⟩ fun own hown => ?_
    obtain rfl : summary = own := Except.ok.inj (hpart.symm.trans hown)
    refine returns_bind (titleOf_returns hlegible rfl) fun _ _ => ?_
    refine returns_bind hsummary fun _ _ => ?_
    refine returns_bind (headlineRows_returns hlegible) fun _ _ => ?_
    exact returns_bind ((returns_sectionsMd_iff hlegible).mpr hpages) fun _ _ => returns_ok _

theorem returns_document (h : Legible report) (hsummary : Returns (summaryHtml shown summary))
    (hpages : ListOf IsObject (planPages report)) :
    Returns (document shown (enriched w report summary)) := by
  have hlegible := h.set_summary (.obj summary)
  have hpart := part_summary report summary
  rw [← planPages_set_summary report (.obj summary)] at hpages
  refine returns_bind ⟨summary, hpart⟩ fun own hown => ?_
  obtain rfl : summary = own := Except.ok.inj (hpart.symm.trans hown)
  refine returns_bind (titleOf_returns hlegible rfl) fun _ _ => ?_
  refine returns_bind hsummary fun _ _ => ?_
  refine returns_bind (headlineRows_returns hlegible) fun _ _ => ?_
  exact returns_bind ((returns_sectionsHtml_iff hlegible).mpr hpages) fun _ _ => returns_ok _

/-- What stands in for an empty value is as good as it. -/
theorem listOf_orElse {P : Json → Prop} {v fallback : Json} (h : ListOf P fallback) :
    ListOf P (v.orElse fallback) ↔ ListOf P v := by
  unfold Json.orElse
  cases htruthy : v.truthy with
  | true => rfl
  | false => exact iff_of_true h (.inl htruthy)

theorem iterable_orElse {v fallback : Json} (h : Iterable fallback) :
    Iterable (v.orElse fallback) ↔ Iterable v := by
  unfold Json.orElse
  cases htruthy : v.truthy with
  | true => rfl
  | false => exact iff_of_true h (.inl htruthy)

/-- The summary that comes of an answer has a text, and is presentable where the answer is
harmless. -/
theorem answered_spec (shown : Json → String) (said : String) {next : List Json} (answer : Dict)
    (hnext : ∀ row ∈ next, IsObject row) :
    let summary := answered shown [("source", .str "rules"), ("text_fa", .str said),
      ("next_actions", .arr next), ("watch_outs", .arr []), ("note", .null)] answer
    (∃ text, Dict.get summary "text_fa" = .str text) ∧
      (Harmless shown answer → Presentable summary) ∧
        (written shown answer ≠ "" → (Dict.get summary "text_fa").truthy = true ∧
          (Presentable summary → Harmless shown answer)) := by
  have hbase : ListOf IsObject (.arr next) := .inr ⟨next, rfl, hnext⟩
  have hnone : Iterable (.arr []) := .inl rfl
  dsimp only
  unfold answered
  split
  · rename_i hblank
    refine ⟨⟨said, rfl⟩, fun _ => ⟨hbase, hnone⟩, fun hsaid => absurd hblank hsaid⟩
  · rename_i hsaid
    have hpresentable : Presentable [("source", .str "ai"),
        ("text_fa", .str (written shown answer)),
        ("next_actions", (Dict.get answer "next_actions").orElse (.arr next)),
        ("watch_outs", (Dict.get answer "watch_outs").orElse (.arr [])), ("note", .null)] ↔
          ListOf IsObject (Dict.get answer "next_actions") ∧
            Iterable (Dict.get answer "watch_outs") :=
      and_congr (listOf_orElse hbase) (iterable_orElse hnone)
    refine ⟨⟨_, rfl⟩, fun h => ?_, fun _ => ⟨by simpa [Dict.get] using hsaid, fun h => ?_⟩⟩
    · exact hpresentable.mpr (h.resolve_left hsaid)
    · exact .inr (hpresentable.mp h)

theorem unbroken_iff_of_legible (h : Legible report) :
    Unbroken shown dumped report answer w ↔
      ListOf IsObject (planPages report) ∧ Harmless shown answer := by
  obtain ⟨said, next, henrich, hnext⟩ := enrich_ok shown dumped h answer
  obtain ⟨⟨text, htext⟩, hgood, hbad⟩ := answered_spec shown said answer hnext
  constructor
  · rintro ⟨summary, hmade, hmarkdown, -⟩
    obtain rfl := Except.ok.inj (hmade.symm.trans henrich)
    obtain ⟨hsummary, hpages⟩ := (returns_markdown_iff h).mp hmarkdown
    refine ⟨hpages, ?_⟩
    by_cases hblank : written shown answer = ""
    · exact .inl hblank
    · obtain ⟨htruthy, hharmless⟩ := hbad hblank
      exact hharmless (presentable_of_summaryMd htruthy hsummary)
  · rintro ⟨hpages, hharmless⟩
    have hpresentable := hgood hharmless
    exact ⟨_, henrich,
      (returns_markdown_iff h).mpr ⟨returns_summaryMd htext hpresentable, hpages⟩,
      returns_document h (returns_summaryHtml hpresentable) hpages⟩

end Documents

section Checks

/-- An audit that has failed, to its report. -/
def failedAudit : List Label := crawlFails oneSite ++ [.run 0 (drawn "f")]

def noTexts : Reader := ⟨fun _ => none, fun _ => none⟩

def hasReport (s : System) : Bool :=
  s.db.workflows.rows.any fun row => row.report.any fun report => !(planPages report).truthy

theorem failedAudit_report : ∃ past u row report,
    Run (step (comparing noTexts asciiEnv)) System.initial past u ∧ ContractValid past ∧
      row ∈ u.db.workflows.rows ∧ row.report = some report ∧
        (planPages report).truthy = false := by
  obtain ⟨past, u, hpast, run, hcheck⟩ :=
    Run.of_check (step (comparing noTexts asciiEnv)) System.initial failedAudit
      (fun _ => hasReport) (by decide +kernel)
  simp only [hasReport, List.any_eq_true, Option.any_eq_true, Bool.not_eq_true'] at hcheck
  obtain ⟨row, hrow, report, hreport, hpages⟩ := hcheck
  exact ⟨past, u, row, report, run, contractValid_of_labels hpast (by decide +kernel), hrow,
    hreport, hpages⟩

def served : Served where
  workflowId := "w"
  status := "failed"
  createdAt := ""
  error := none
  inputs := []
  steps := []
  report := none

/-- An answer to the schema. -/
def plainAnswer : Dict :=
  [("summary", .str "x"), ("next_actions", .arr [.obj [("action", .str "a")]]),
    ("watch_outs", .arr [.str "b"])]

/-- The next actions are texts. -/
def oddAnswer : Dict :=
  [("summary", .str "x"), ("next_actions", .arr [.str "a"]), ("watch_outs", .arr [])]

end Checks

end SeoPlatform.Reporting.EnrichedReports
