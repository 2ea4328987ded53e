import SeoPlatform.Foundation.ExceptFlow
import SeoPlatform.Reporting.Rendering

namespace SeoPlatform.Reporting.Tables

open SeoPlatform.Foundation.ExceptFlow
open SeoPlatform.Foundation.JsonValue
open SeoPlatform.Foundation.TextTable
open SeoPlatform.Orchestrator.Engine (asDict sliced)
open SeoPlatform.Orchestrator.Planner (iterate letters)
open SeoPlatform.Reporting.Rendering
open SeoPlatform.Shared.Exceptions

/-- What a list of a report has in it. -/
def itemsOf (v : Json) : List Json := (iterate v).toOption.getD []

/-- A field of a row. -/
def cellAt (row : Json) (key : String) (fallback : Json) : Json :=
  match row with
  | .obj d => Dict.getD d key fallback
  | _ => .null

def partOf (report : Dict) (key : String) : Dict :=
  match Dict.get report key with
  | .obj d => d
  | _ => []

def rowsAt (report : Dict) (key name : String) : List Json :=
  itemsOf (Dict.get (partOf report key) name)

def shownFields (keys : List String) (row : Json) : List Json :=
  keys.map fun key => cellAt row key (.str "")

def shownOpportunity (row : Json) : List Json :=
  [cellAt row "keyword" (.str ""),
    (notNull (cellAt row "position" .null)).getD (.str "پیدا نشد"),
    cellAt row "opportunity" (.str "")]

def shownChange (row : Json) : List Json :=
  [cellAt row "label_fa" (cellAt row "metric" (.str "")), cellAt row "before" (.str ""),
    cellAt row "after" (.str ""), cellAt row "change" (.int 0)]

def shownNumbers (report : Dict) : List Json :=
  headlineFa.filterMap fun label => notNull (Dict.get (partOf report "headline") label.1)

/-- The values that the tables of a report show. -/
def shownValues (report : Dict) : List Json :=
  shownNumbers report ++
    ((rowsAt report "rankings" "opportunities").take 15).flatMap shownOpportunity ++
    (rowsAt report "rankings" "top_competitors").flatMap (shownFields ["domain", "outranks_on"]) ++
    (rowsAt report "content" "top_gaps").flatMap (shownFields ["keyword", "demand"]) ++
    (rowsAt report "trend" "changes").flatMap shownChange ++
    rowsAt report "competitors" "top_missing_themes" ++
    (rowsAt report "links" "top_opportunities").flatMap
      (shownFields ["url", "inlinks", "authority"]) ++
    (rowsAt report "optimizer" "pages").flatMap (shownFields ["url", "fixes"])

/-- The texts of a step that its row shows. -/
def stepTexts (s : ServedStep) : List String := [s.kind, s.status, s.error.getD ""]

/-- No value that a table shows ends a line or a cell. -/
structure FlatReport (shown : Json → String) (w : Served) : Prop where
  steps : ∀ s ∈ w.steps, ∀ words ∈ stepTexts s, Flat words
  values : ∀ v ∈ shownValues (w.report.getD []), Flat (text shown v)

section Reading

variable {shown : Json → String} {row v : Json} {report d : Dict} {key : String}

theorem cellAt_of_fieldOr {fallback : Json} (h : fieldOr row key fallback = .ok v) :
    v = cellAt row key fallback := by
  obtain ⟨d, hd, h⟩ := ok_of_bind h
  cases row with
  | obj fields =>
      cases hd
      exact (Except.ok.inj h).symm
  | null | bool | int | float | str | arr => contradiction

theorem cellAt_of_field (h : field row key = .ok v) : v = cellAt row key .null :=
  cellAt_of_fieldOr h

theorem partOf_of_part (h : part report key = .ok d) : partOf report key = d := by
  unfold part Json.orElse at h
  unfold partOf
  cases hv : Dict.get report key with
  | obj fields =>
      rw [hv] at h
      cases fields with
      | nil => exact Except.ok.inj h
      | cons first rest => exact Except.ok.inj h
  | null | bool | int | float | str | arr =>
      rw [hv] at h
      dsimp only
      split at h
      · contradiction
      · exact Except.ok.inj h

theorem itemsOf_of_falsy (h : v.truthy = false) : itemsOf v = [] := by
  cases v with
  | str s =>
      have hs : s = "" := by simpa using h
      rw [hs]
      rfl
  | arr items =>
      have hitems : items = [] := by simpa using h
      rw [hitems]
      rfl
  | obj fields =>
      have hfields : fields = [] := by simpa using h
      rw [hfields]
      rfl
  | null | bool | int | float => rfl

theorem itemsOf_of_iterate {items : List Json} (h : iterate v = .ok items) :
    itemsOf v = items := by
  unfold itemsOf
  rw [h]
  rfl

theorem itemsOf_of_firstRows {rows : Json} {n : Nat} (h : firstRows n rows = .ok v) :
    itemsOf v = (itemsOf rows).take n := by
  unfold firstRows at h
  split at h
  · cases rows with
    | arr items =>
        cases h
        rfl
    | str s =>
        cases h
        simp [itemsOf, iterate, letters, List.map_take, Except.toOption]
    | null | bool | int | float | obj => contradiction
  · rename_i hfalsy
    cases h
    rw [itemsOf_of_falsy (Bool.eq_false_iff.mpr hfalsy), List.take_nil]

theorem flat_named {table : List (String × String)}
    (htable : ∀ entry ∈ table, Flat entry.1 ∧ Flat entry.2) (value : String) :
    Flat (named table value) ↔ Flat value := by
  unfold named
  cases hvalue : table.lookup value with
  | none => rfl
  | some label =>
      obtain ⟨before, after, rfl, -⟩ := List.lookup_eq_some_iff.mp hvalue
      have hentry := htable (value, label) (by simp)
      exact ⟨fun _ => hentry.1, fun _ => hentry.2⟩

end Reading

section Rows

variable (shown : Json → String)

/-- What the cells of a row show of it: as many texts as there are columns, which are
flat if the values that they show are. -/
def Shows (n : Nat) (cells : Json → Except Exn (List String)) (values : Json → List Json) : Prop :=
  ∀ row texts, cells row = .ok texts → texts.length = n ∧
    ((∀ words ∈ texts, Flat words) ↔ ∀ v ∈ values row, Flat (text shown v))

/-- Cells that are read key by key. -/
theorem shows_mapM {read : Json → String → Except Exn String} {found : Json → String → Json}
    (hread : ∀ row key words, read row key = .ok words → words = text shown (found row key))
    (keys : List String) :
    Shows shown keys.length (fun row => keys.mapM (read row)) fun row => keys.map (found row) := by
  intro row texts h
  have hcells := forall₂_of_mapM h
  have htexts : texts = (keys.map (found row)).map (text shown) := by
    clear h
    induction hcells with
    | nil => rfl
    | cons hcell _ ih => rw [ih, List.map_cons, List.map_cons, hread row _ _ hcell]
  rw [htexts, List.forall_mem_map, List.length_map, List.length_map]
  exact ⟨rfl, Iff.rfl⟩

theorem shows_fieldCells (keys : List String) :
    Shows shown keys.length (fieldCells shown keys) (shownFields keys) := by
  refine shows_mapM shown ?_ keys
  intro row key words h
  obtain ⟨v, hv, h⟩ := ok_of_bind h
  cases h
  rw [cellAt_of_fieldOr hv]

theorem shows_opportunityCells : Shows shown 3 (opportunityCells shown) shownOpportunity := by
  intro row texts h
  obtain ⟨position, hposition, h⟩ := ok_of_bind h
  obtain ⟨keyword, hkeyword, h⟩ := ok_of_bind h
  obtain ⟨opportunity, hopportunity, h⟩ := ok_of_bind h
  cases h
  refine ⟨rfl, ?_⟩
  simp only [shownOpportunity, List.forall_mem_cons, List.not_mem_nil, false_imp_iff,
    implies_true, and_true]
  rw [cellAt_of_field hposition, cellAt_of_fieldOr hkeyword, cellAt_of_fieldOr hopportunity]

theorem flat_signed (delta : String) : Flat ("+" ++ delta) ↔ Flat delta := by
  have hchars : "+" ++ delta = String.ofList (['+'] ++ delta.toList) := by
    rw [String.ofList_append, String.ofList_toList]
  rw [hchars, flat_prefix (by decide)]

theorem flat_verdict {direction : Json} {verdict : String}
    (h : lookupText [("better", "بهتر"), ("worse", "بدتر")] "بدون تغییر معنادار" direction =
      .ok verdict) : Flat verdict := by
  have hbetter : Flat "بهتر" := flat_literal rfl (by decide)
  have hworse : Flat "بدتر" := flat_literal rfl (by decide)
  have hsame : Flat "بدون تغییر معنادار" := flat_literal rfl (by decide)
  cases direction with
  | str s =>
      cases h
      rw [List.lookup_cons, List.lookup_cons, List.lookup_nil]
      split
      · exact hbetter
      · split
        · exact hworse
        · exact hsame
  | null | bool | int | float =>
      cases h
      exact hsame
  | arr | obj => cases h

theorem flat_arrow {change : Json} {words : String} (h : arrow shown change = .ok words) :
    Flat words ↔ Flat (text shown (cellAt change "change" (.int 0))) := by
  obtain ⟨delta, hdelta, h⟩ := ok_of_bind h
  obtain ⟨grew, -, h⟩ := ok_of_bind h
  obtain ⟨direction, -, h⟩ := ok_of_bind h
  obtain ⟨verdict, hverdict, h⟩ := ok_of_bind h
  cases h
  have hsign : Flat (if grew = true then "+" ++ text shown delta else text shown delta) ↔
      Flat (text shown delta) := by
    split
    · exact flat_signed _
    · rfl
  have hafter : " (" ++ (verdict ++ ")") =
      String.ofList (' ' :: (['('] ++ (verdict ++ ")").toList)) := by
    rw [← String.toList_inj, String.toList_append, String.toList_ofList, String.toList_ofList]
    rfl
  have hend : ")" = String.ofList (')' :: []) := rfl
  have hclosed : Flat (verdict ++ ")") :=
    (flat_append (by decide) hend).mpr ⟨flat_verdict hverdict, flat_empty⟩
  rw [String.append_assoc, String.append_assoc, flat_append (by decide) hafter,
    flat_prefix (by decide), and_iff_left hclosed, hsign, cellAt_of_fieldOr hdelta]

theorem shows_changeCells : Shows shown 4 (changeCells shown) shownChange := by
  intro row texts h
  obtain ⟨label, hlabel, h⟩ := ok_of_bind h
  obtain ⟨before, hbefore, h⟩ := ok_of_bind h
  obtain ⟨after, hafter, h⟩ := ok_of_bind h
  obtain ⟨change, hchange, h⟩ := ok_of_bind h
  cases h
  obtain ⟨metric, hmetric, hlabel⟩ := ok_of_bind hlabel
  refine ⟨rfl, ?_⟩
  simp only [shownChange, List.forall_mem_cons, List.not_mem_nil, false_imp_iff, implies_true,
    and_true]
  rw [flat_arrow shown hchange, cellAt_of_fieldOr hlabel, cellAt_of_fieldOr hmetric,
    cellAt_of_fieldOr hbefore, cellAt_of_fieldOr hafter]

theorem shows_themes : Shows shown 1 (fun term => .ok [text shown term]) fun term => [term] := by
  intro row texts h
  cases h
  exact ⟨rfl, by simp⟩

variable {shown}

theorem shows_rows {n : Nat} {cells : Json → Except Exn (List String)}
    {values : Json → List Json} {items : List Json} {body : List (List String)}
    (hcells : Shows shown n cells values) (h : items.mapM cells = .ok body) :
    (∀ row ∈ body, row.length = n) ∧ ((∀ row ∈ body, ∀ cell ∈ row, Flat cell) ↔
      ∀ v ∈ items.flatMap values, Flat (text shown v)) := by
  have hrows := forall₂_of_mapM h
  clear h
  induction hrows with
  | nil => simp
  | cons hrow _ ih =>
      obtain ⟨hlength, hflat⟩ := hcells _ _ hrow
      rw [List.forall_mem_cons, List.forall_mem_cons, List.flatMap_cons, List.forall_mem_append,
        hflat, ih.2]
      exact ⟨⟨hlength, ih.1⟩, Iff.rfl⟩

/-- A section is kept if what its rows show is flat. -/
theorem kept_sectionMd {heading : String} {columns : List String} {rows : Json}
    {cells : Json → Except Exn (List String)} {values : Json → List Json} {blocks : List Block}
    (h : sectionMd heading columns rows cells = .ok blocks)
    (hcolumns : ∀ column ∈ columns, Flat column)
    (hcells : Shows shown columns.length cells values) :
    (∀ block ∈ blocks, block.Kept) ↔
      ∀ v ∈ (itemsOf rows).flatMap values, Flat (text shown v) := by
  unfold sectionMd at h
  split at h
  · obtain ⟨body, hbody, h⟩ := ok_of_bind h
    cases h
    obtain ⟨items, hitems, hmade⟩ := ok_of_bind hbody
    obtain ⟨hlengths, hflat⟩ := shows_rows hcells hmade
    rw [itemsOf_of_iterate hitems, ← hflat, ← kept_iff hcolumns hlengths]
    simp
  · rename_i hfalsy
    cases h
    rw [itemsOf_of_falsy (Bool.eq_false_iff.mpr hfalsy)]
    simp

end Rows

section Reports

variable {shown : Json → String} {report : Dict} {blocks : List Block}

theorem kept_trendNoteMd {trend : Dict} (h : trendNoteMd trend = .ok blocks) :
    ∀ block ∈ blocks, block.Kept := by
  unfold trendNoteMd at h
  split at h
  · obtain ⟨note, -, h⟩ := ok_of_bind h
    cases h
    simp
  · cases h
    simp

theorem kept_sectionsMd (h : sectionsMd shown report = .ok blocks) :
    (∀ block ∈ blocks, block.Kept) ↔
      ∀ v ∈ ((rowsAt report "rankings" "opportunities").take 15).flatMap shownOpportunity ++
        (rowsAt report "rankings" "top_competitors").flatMap
          (shownFields ["domain", "outranks_on"]) ++
        (rowsAt report "content" "top_gaps").flatMap (shownFields ["keyword", "demand"]) ++
        (rowsAt report "trend" "changes").flatMap shownChange ++
        rowsAt report "competitors" "top_missing_themes" ++
        (rowsAt report "links" "top_opportunities").flatMap
          (shownFields ["url", "inlinks", "authority"]) ++
        (rowsAt report "optimizer" "pages").flatMap (shownFields ["url", "fixes"]),
        Flat (text shown v) := by
  obtain ⟨rankings, hrankings, h⟩ := ok_of_bind h
  obtain ⟨first, hfirst, h⟩ := ok_of_bind h
  obtain ⟨opportunities, hopportunities, h⟩ := ok_of_bind h
  obtain ⟨rivals, hrivals, h⟩ := ok_of_bind h
  obtain ⟨content, hcontent, h⟩ := ok_of_bind h
  obtain ⟨gaps, hgaps, h⟩ := ok_of_bind h
  obtain ⟨trend, htrend, h⟩ := ok_of_bind h
  obtain ⟨changes, hchanges, h⟩ := ok_of_bind h
  obtain ⟨noted, hnoted, h⟩ := ok_of_bind h
  obtain ⟨competitors, hcompetitors, h⟩ := ok_of_bind h
  obtain ⟨themes, hthemes, h⟩ := ok_of_bind h
  obtain ⟨links, hlinks, h⟩ := ok_of_bind h
  obtain ⟨pages, hpages, h⟩ := ok_of_bind h
  obtain ⟨plan, hplan, h⟩ := ok_of_bind h
  obtain ⟨rewrites, hrewrites, h⟩ := ok_of_bind h
  cases h
  have hnil := List.forall_mem_nil Flat
  have hone := kept_sectionMd hopportunities
    (flat_columns rfl (by decide) (flat_columns rfl (by decide) (flat_columns rfl (by decide)
      hnil))) (shows_opportunityCells shown)
  have htwo := kept_sectionMd hrivals
    (flat_columns rfl (by decide) (flat_columns rfl (by decide) hnil))
    (shows_fieldCells shown ["domain", "outranks_on"])
  have hthree := kept_sectionMd hgaps
    (flat_columns rfl (by decide) (flat_columns rfl (by decide) hnil))
    (shows_fieldCells shown ["keyword", "demand"])
  have hfour := kept_sectionMd hchanges
    (flat_columns rfl (by decide) (flat_columns rfl (by decide) (flat_columns rfl (by decide)
      (flat_columns rfl (by decide) hnil)))) (shows_changeCells shown)
  have hfive := kept_sectionMd hthemes (flat_columns rfl (by decide) hnil) (shows_themes shown)
  have hsix := kept_sectionMd hpages
    (flat_columns rfl (by decide) (flat_columns rfl (by decide) (flat_columns rfl (by decide)
      hnil))) (shows_fieldCells shown ["url", "inlinks", "authority"])
  have hseven := kept_sectionMd hrewrites
    (flat_columns rfl (by decide) (flat_columns rfl (by decide) hnil))
    (shows_fieldCells shown ["url", "fixes"])
  have hnote := kept_trendNoteMd hnoted
  rw [itemsOf_of_firstRows hfirst] at hone
  rw [List.flatMap_singleton'] at hfive
  unfold rowsAt
  rw [partOf_of_part hrankings, partOf_of_part hcontent, partOf_of_part htrend,
    partOf_of_part hcompetitors, partOf_of_part hlinks, partOf_of_part hplan]
  simp only [List.forall_mem_append]
  rw [hone, htwo, hthree, hfour, hfive, hsix, hseven, and_iff_left hnote]

theorem flat_statusFa : ∀ entry ∈ statusFa, Flat entry.1 ∧ Flat entry.2 := by
  simp only [statusFa, List.forall_mem_cons, List.not_mem_nil, false_imp_iff, implies_true,
    and_true]
  repeat' apply And.intro
  all_goals exact flat_literal rfl (by decide)

theorem flat_stepFa : ∀ entry ∈ stepFa, Flat entry.1 ∧ Flat entry.2 := by
  simp only [stepFa, List.forall_mem_cons, List.not_mem_nil, false_imp_iff, implies_true,
    and_true]
  repeat' apply And.intro
  all_goals exact flat_literal rfl (by decide)

theorem flat_headlineFa : ∀ label ∈ headlineFa, Flat label.2 := by
  simp only [headlineFa, List.forall_mem_cons, List.not_mem_nil, false_imp_iff, implies_true,
    and_true]
  repeat' apply And.intro
  all_goals exact flat_literal rfl (by decide)

theorem flat_stepCells (s : ServedStep) :
    (∀ cell ∈ stepCells s, Flat cell) ↔ ∀ words ∈ stepTexts s, Flat words := by
  unfold stepCells stepTexts
  simp only [List.forall_mem_cons, List.not_mem_nil, false_imp_iff, implies_true, and_true]
  rw [flat_named flat_stepFa, flat_named flat_statusFa, and_iff_right (flat_toString s.position)]

theorem flat_headlineRows {numbers : List (String × Json)} (h : headlineRows report = .ok numbers) :
    (∀ row ∈ numbers.map fun (label, value) => [label, text shown value],
      ∀ cell ∈ row, Flat cell) ↔ ∀ v ∈ shownNumbers report, Flat (text shown v) := by
  obtain ⟨headline, hheadline, h⟩ := ok_of_bind h
  cases h
  unfold shownNumbers
  rw [partOf_of_part hheadline]
  have hlabels := flat_headlineFa
  generalize headlineFa = labels at hlabels
  induction labels with
  | nil => simp
  | cons label rest ih =>
      rw [List.forall_mem_cons] at hlabels
      have ih := ih hlabels.2
      rw [List.filterMap_cons, List.filterMap_cons]
      rcases label with ⟨key, name⟩
      dsimp only
      generalize notNull (Dict.get headline key) = found
      cases found with
      | none => exact ih
      | some value =>
          have hname : Flat name := hlabels.1
          simp only [Option.map_some, List.map_cons, List.forall_mem_cons, List.not_mem_nil,
            false_imp_iff, implies_true, and_true, hname, true_and]
          exact and_congr Iff.rfl ih

/-- A table with a heading, where there is something to show. -/
theorem kept_titled {α : Type} {items : List α} {heading : List String} {columns : List String}
    {rows : List (List String)} [Decidable (items = [])] (hempty : items = [] → rows = [])
    (hcolumns : ∀ column ∈ columns, Flat column)
    (hrows : ∀ row ∈ rows, row.length = columns.length) :
    (∀ block ∈ if items = [] then [] else
        [Block.lines heading, .table columns rows, .lines [""]], block.Kept) ↔
      ∀ row ∈ rows, ∀ cell ∈ row, Flat cell := by
  rw [← kept_iff hcolumns hrows]
  split
  · rename_i hitems
    rw [hempty hitems, kept_iff hcolumns (by simp)]
    simp
  · simp

theorem kept_summaryMd {summary : Dict} (h : summaryMd shown summary = .ok blocks) :
    ∀ block ∈ blocks, block.Kept := by
  unfold summaryMd at h
  split at h
  · obtain ⟨next, -, h⟩ := ok_of_bind h
    obtain ⟨watch, -, h⟩ := ok_of_bind h
    obtain ⟨words, -, h⟩ := ok_of_bind h
    cases h
    simp
  · cases h
    simp

/-- The tables of a report are kept if the values that they show are flat, and only
then. -/
theorem kept_markdownBlocks {w : Served} (h : markdownBlocks shown w = .ok blocks) :
    (∀ block ∈ blocks, block.Kept) ↔ FlatReport shown w := by
  obtain ⟨summary, hsummary, h⟩ := ok_of_bind h
  obtain ⟨title, htitle, h⟩ := ok_of_bind h
  obtain ⟨summarised, hsummarised, h⟩ := ok_of_bind h
  obtain ⟨numbers, hnumbers, h⟩ := ok_of_bind h
  obtain ⟨sections, hsections, h⟩ := ok_of_bind h
  cases h
  have hnil := List.forall_mem_nil Flat
  have hheadline : (∀ block ∈ if numbers = [] then [] else [Block.lines ["## اعداد اصلی", ""],
      .table ["معیار", "مقدار"] (numbers.map fun (label, value) => [label, text shown value]),
      .lines [""]], block.Kept) ↔ ∀ v ∈ shownNumbers (w.report.getD []), Flat (text shown v) := by
    rw [← flat_headlineRows hnumbers]
    apply kept_titled
    · intro hempty
      rw [hempty]
      rfl
    · exact flat_columns rfl (by decide) (flat_columns rfl (by decide) hnil)
    · rw [List.forall_mem_map]
      intro number _
      rfl
  have hsteps : (∀ block ∈ if w.steps = [] then [] else [Block.lines ["## مراحل", ""],
      .table ["#", "مرحله", "وضعیت", "توضیح"] ((sortedSteps w).map stepCells), .lines [""]],
      block.Kept) ↔ ∀ s ∈ w.steps, ∀ words ∈ stepTexts s, Flat words := by
    have hsorted : (∀ s ∈ w.steps, ∀ words ∈ stepTexts s, Flat words) ↔
        ∀ row ∈ (sortedSteps w).map stepCells, ∀ cell ∈ row, Flat cell := by
      simp only [List.forall_mem_map, flat_stepCells, sortedSteps, List.mem_insertionSort]
    rw [hsorted]
    apply kept_titled
    · intro hempty
      rw [sortedSteps, hempty]
      rfl
    · exact flat_columns rfl (by decide) (flat_columns rfl (by decide)
        (flat_columns rfl (by decide) (flat_columns rfl (by decide) hnil)))
    · rw [List.forall_mem_map]
      intro s _
      rfl
  have hsections := kept_sectionsMd hsections
  have hsummary := kept_summaryMd hsummarised
  have hlines : ∀ words : List String, ∀ block ∈ [Block.lines words], block.Kept := by
    simp
  have hvalues : FlatReport shown w ↔ (∀ v ∈ shownNumbers (w.report.getD []), Flat (text shown v)) ∧
      (∀ s ∈ w.steps, ∀ words ∈ stepTexts s, Flat words) ∧ ∀ block ∈ sections, block.Kept := by
    rw [hsections]
    constructor
    · rintro ⟨hsteps, hvalues⟩
      simp only [shownValues, List.append_assoc, List.forall_mem_append] at hvalues ⊢
      exact ⟨hvalues.1, hsteps, hvalues.2⟩
    · rintro ⟨hnumbers, hsteps, hvalues⟩
      refine ⟨hsteps, ?_⟩
      simp only [shownValues, List.append_assoc, List.forall_mem_append] at hvalues ⊢
      exact ⟨hnumbers, hvalues⟩
  rw [List.forall_mem_append, List.forall_mem_append, List.forall_mem_append,
    List.forall_mem_append, List.forall_mem_append, hvalues, hheadline, hsteps,
    and_iff_left (hlines _), and_iff_left hsummary, and_iff_right (hlines _), and_assoc]

theorem read_markdown {w : Served} {words : String} (h : markdown shown w = .ok words) :
    ∃ blocks, markdownBlocks shown w = .ok blocks ∧
      linesOf words = blocks.flatMap Block.readLines := by
  obtain ⟨blocks, hblocks, h⟩ := ok_of_bind h
  cases h
  refine ⟨blocks, hblocks, linesOf_toText ?_⟩
  obtain ⟨summary, -, h⟩ := ok_of_bind hblocks
  obtain ⟨title, -, h⟩ := ok_of_bind h
  obtain ⟨summarised, -, h⟩ := ok_of_bind h
  obtain ⟨numbers, -, h⟩ := ok_of_bind h
  obtain ⟨sections, -, h⟩ := ok_of_bind h
  cases h
  rw [List.flatMap_append]
  exact List.append_ne_nil_of_right_ne_nil _ (List.cons_ne_nil _ _)

end Reports

end SeoPlatform.Reporting.Tables
