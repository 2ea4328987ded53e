import SeoPlatform.Foundation.ExceptFlow
import SeoPlatform.Foundation.JsonShape
import SeoPlatform.Foundation.Markup
import SeoPlatform.Reporting.Rendering

namespace SeoPlatform.Reporting.Escaping

open SeoPlatform.Foundation.ExceptFlow
open SeoPlatform.Foundation.JsonShape
open SeoPlatform.Foundation.JsonValue
open SeoPlatform.Foundation.Markup
open SeoPlatform.Orchestrator.Engine (asDict sliced)
open SeoPlatform.Orchestrator.Planner (iterate letters)
open SeoPlatform.Reporting.Rendering
open SeoPlatform.Shared.Exceptions

section Escapes

theorem escaped_escapeChar (c : Char) : escaped (escapeChar c) = true := by
  unfold escapeChar
  split
  case h_6 hamp hlt hgt hquote hapostrophe =>
    rw [escaped, if_neg hamp]
    simp only [escaped, ne_eq, Bool.and_true, Bool.and_eq_true, decide_not,
      Bool.not_eq_eq_eq_not, Bool.not_true, decide_eq_false_iff_not]
    exact ⟨⟨⟨hlt, hgt⟩, hquote⟩, hapostrophe⟩
  all_goals decide

theorem escaped_flatMap (cs : List Char) : escaped (cs.flatMap escapeChar) = true := by
  induction cs with
  | nil => rfl
  | cons c cs ih =>
      rw [List.flatMap_cons]
      exact escaped_append (escaped_escapeChar c) ih

theorem same_escape (s t : String) : SameMarkup (escape s) (escape t) :=
  sameMarkup_of_escaped (escaped_flatMap s.toList) (escaped_flatMap t.toList)

variable (shown : Json → String)

theorem e_eq_escape (v : Json) : ∃ s, e shown v = escape s := by
  cases v with
  | null => exact ⟨"", rfl⟩
  | bool | int | float | str | arr | obj => exact ⟨_, rfl⟩

theorem same_e (v v' : Json) : SameMarkup (e shown v) (e shown v') := by
  obtain ⟨s, hs⟩ := e_eq_escape shown v
  obtain ⟨t, ht⟩ := e_eq_escape shown v'
  rw [hs, ht]
  exact same_escape s t

end Escapes

section Values

variable {v v' : Json} {d d' : Dict}

theorem together_asDict (h : Alike v v') :
    Together (fun d d' => Alike (.obj d) (.obj d')) (asDict v) (asDict v') := by
  cases h with
  | null | bool | int | float | str | arr => exact .raise _ _
  | obj present values => exact .ok (.obj present values)

theorem together_field (h : Alike v v') (key : String) :
    Together Alike (field v key) (field v' key) := by
  apply Together.bind (together_asDict h)
  intro d d' hd
  exact .ok (alike_get hd key)

theorem together_fieldOr (h : Alike v v') (key : String) {fallback fallback' : Json}
    (hfallback : Alike fallback fallback') :
    Together Alike (fieldOr v key fallback) (fieldOr v' key fallback') := by
  apply Together.bind (together_asDict h)
  intro d d' hd
  refine .ok ?_
  unfold Dict.getD
  rcases alike_get? hd key with ⟨hv, hv'⟩ | ⟨v, v', hv, hv', halike⟩
  · rw [hv, hv']
    exact hfallback
  · rw [hv, hv']
    exact halike

theorem together_part (h : Alike (.obj d) (.obj d')) (key : String) :
    Together (fun d d' => Alike (.obj d) (.obj d')) (part d key) (part d' key) :=
  together_asDict (alike_orElse (alike_get h key) alike_emptyObj)

theorem together_sliced (h : Alike v v') {n : Nat} (hn : 0 < n) :
    Together Alike (sliced n v) (sliced n v') := by
  cases h with
  | null | bool | int | float | obj => exact .raise _ _
  | @str s t h =>
      refine .ok (.str ?_)
      have htake : ∀ s : String, String.ofList (s.toList.take n) = "" ↔ s = "" := by
        intro s
        have hnil : s.toList = [] ↔ s = "" :=
          ⟨fun h => String.toList_inj.mp h, fun h => by rw [h]; rfl⟩
        rw [← hnil, ← String.toList_inj, String.toList_ofList]
        show s.toList.take n = [] ↔ s.toList = []
        rw [List.take_eq_nil_iff]
        exact ⟨fun h => h.resolve_left (Nat.pos_iff_ne_zero.mp hn), .inr⟩
      rw [htake, htake]
      exact h
  | @arr items items' length values =>
      refine .ok (.arr ?_ ?_)
      · rw [List.length_take, List.length_take, length]
      · intro m v v' hv hv'
        rw [List.getElem?_take] at hv hv'
        split at hv
        · rename_i hm
          rw [if_pos hm] at hv'
          exact values m v v' hv hv'
        · contradiction

theorem together_positive (h : Alike v v') : Together (· = ·) (positive v) (positive v') := by
  cases h with
  | null | str | arr | obj => exact .raise _ _
  | bool | int | float => exact .ok rfl

theorem together_lookupText (h : Alike v v') (table : List (String × String))
    (fallback : String) :
    Together (fun _ _ => True) (lookupText table fallback v) (lookupText table fallback v') := by
  cases h with
  | arr | obj => exact .raise _ _
  | null | bool | int | float | str => exact .ok trivial

/-- A loop over a list whose body asks its items for fields. -/
theorem together_rows {α β : Type} {R : α → β → Prop} {f : Json → Except Exn α}
    {g : Json → Except Exn β} (htruthy : v.truthy = true) (h : Alike v v')
    (hrow : ∀ row row', Alike row row' → Together R (f row) (g row'))
    (hf : ∀ s, ∃ e, f (.str s) = .error e) (hg : ∀ s, ∃ e, g (.str s) = .error e) :
    Together (List.Forall₂ R) (iterate v >>= List.mapM f) (iterate v' >>= List.mapM g) := by
  have htruthy' := htruthy
  rw [truthy_of_alike h] at htruthy'
  have hraises : ∀ {γ : Type} {f : Json → Except Exn γ} (items : List String), items ≠ [] →
      (∀ s, ∃ e, f (.str s) = .error e) → ∃ e, (items.map Json.str).mapM f = .error e := by
    intro γ f items hitems hf
    cases items with
    | nil => contradiction
    | cons s rest =>
        obtain ⟨e, he⟩ := hf s
        exact ⟨e, by rw [List.map_cons, List.mapM_cons, he]; rfl⟩
  have hletters : ∀ s : String, letters s = (s.toList.map fun c => String.ofList [c]).map .str := by
    intro s
    unfold letters
    rw [List.map_map]
    rfl
  have hchars : ∀ s : String, (Json.str s).truthy = true →
      (s.toList.map fun c => String.ofList [c]) ≠ [] := by
    intro s hs hnil
    rw [List.map_eq_nil_iff] at hnil
    rw [truthy_str, bne_iff_ne] at hs
    exact hs (String.toList_inj.mp hnil)
  have hkeys : ∀ d : Dict, (Json.obj d).truthy = true → Dict.keys d ≠ [] := by
    intro d hd hnil
    rw [Dict.keys, List.map_eq_nil_iff] at hnil
    rw [hnil] at hd
    contradiction
  cases h with
  | null | bool | int | float => exact .raise _ _
  | @str s t h =>
      obtain ⟨e, he⟩ := hraises _ (hchars s htruthy) hf
      obtain ⟨e', he'⟩ := hraises _ (hchars t htruthy') hg
      show Together _ ((letters s).mapM f) ((letters t).mapM g)
      rw [hletters, hletters, he, he']
      exact .raise _ _
  | arr length values => exact Together.mapM hrow (forall₂_of_alike (.arr length values))
  | @obj d d' present values =>
      obtain ⟨e, he⟩ := hraises _ (hkeys d htruthy) hf
      obtain ⟨e', he'⟩ := hraises _ (hkeys d' htruthy') hg
      show Together _ (((Dict.keys d).map Json.str).mapM f) (((Dict.keys d').map Json.str).mapM g)
      rw [he, he']
      exact .raise _ _

end Values

section Sections

variable {shown : Json → String}

/-- Pieces that only differ between their tags, one by one. -/
abbrev SameLines := List.Forall₂ SameMarkup

theorem sameLines_append {xs xs' ys ys' : List String} (hxs : SameLines xs xs')
    (hys : SameLines ys ys') : SameLines (xs ++ ys) (xs' ++ ys') :=
  List.rel_append hxs hys

theorem same_tableHtml (heading heading' : String) (columns : List String)
    {rows rows' : List (List Json)} {note note' : Json}
    (hrows : List.Forall₂ (List.Forall₂ fun _ _ => True) rows rows')
    (hnote : note.truthy = note'.truthy) :
    SameMarkup (tableHtml shown heading columns rows note)
      (tableHtml shown heading' columns rows' note') := by
  have hhead : SameMarkup (String.join (columns.map fun c => "<th>" ++ escape c ++ "</th>"))
      (String.join (columns.map fun c => "<th>" ++ escape c ++ "</th>")) := by
    apply SameMarkup.join
    rw [List.forall₂_map_left_iff, List.forall₂_map_right_iff, List.forall₂_same]
    intro c _
    exact (same_escape c c).around rfl (by decide) rfl (by decide)
  have hcells : ∀ row row' : List Json, List.Forall₂ (fun _ _ => True) row row' →
      SameMarkup (String.join (row.map fun cell => "<td>" ++ e shown cell ++ "</td>"))
        (String.join (row'.map fun cell => "<td>" ++ e shown cell ++ "</td>")) := by
    intro row row' hrow
    apply SameMarkup.join
    rw [List.forall₂_map_left_iff, List.forall₂_map_right_iff]
    refine hrow.imp ?_
    intro cell cell' _
    exact (same_e shown cell cell').around rfl (by decide) rfl (by decide)
  have hbody : SameMarkup
      (String.join (rows.map fun row =>
        "<tr>" ++ String.join (row.map fun cell => "<td>" ++ e shown cell ++ "</td>") ++ "</tr>"))
      (String.join (rows'.map fun row =>
        "<tr>" ++ String.join (row.map fun cell => "<td>" ++ e shown cell ++ "</td>") ++
          "</tr>")) := by
    apply SameMarkup.join
    rw [List.forall₂_map_left_iff, List.forall₂_map_right_iff]
    refine hrows.imp ?_
    intro row row' hrow
    exact (hcells row row' hrow).around rfl (by decide) rfl (by decide)
  have hlede : SameMarkup
      (if note.truthy then "<p class='lede'>" ++ e shown note ++ "</p>" else "")
      (if note'.truthy then "<p class='lede'>" ++ e shown note' ++ "</p>" else "") := by
    rw [hnote]
    split
    · exact (same_e shown note note').around rfl (by decide) rfl (by decide)
    · exact same_literal rfl (by decide)
  unfold tableHtml
  exact (same_escape heading heading').around rfl (by decide) rfl (by decide)
    |>.append hlede
    |>.andLiteral rfl (by decide)
    |>.append hhead
    |>.andLiteral rfl (by decide)
    |>.append hbody
    |>.andLiteral rfl (by decide)

theorem together_sectionHtml (heading heading' : String) (columns : List String)
    {rows rows' note note' : Json} {cells : Json → Except Exn (List Json)}
    (hrows : rows.truthy = rows'.truthy) (hnote : note.truthy = note'.truthy)
    (hloop : rows.truthy = true → Together (List.Forall₂ (List.Forall₂ fun _ _ => True))
      (iterate rows >>= List.mapM cells) (iterate rows' >>= List.mapM cells)) :
    Together SameLines (sectionHtml shown heading columns rows note cells)
      (sectionHtml shown heading' columns rows' note' cells) := by
  unfold sectionHtml
  rw [← hrows]
  cases htruthy : rows.truthy with
  | false => exact .ok .nil
  | true =>
      rw [if_pos rfl, if_pos rfl, ← bind_assoc, ← bind_assoc]
      apply Together.bind (hloop htruthy)
      intro body body' hbody
      exact .ok (.cons (same_tableHtml heading heading' columns hbody hnote) .nil)

/-- Two sections whose rows are alike and are asked for fields. -/
theorem together_fieldsHtml (heading heading' : String) (columns : List String)
    {rows rows' note note' : Json} {cells : Json → Except Exn (List Json)}
    (hrows : Alike rows rows') (hnote : note.truthy = note'.truthy)
    (hcells : ∀ row row', Alike row row' →
      Together (List.Forall₂ fun _ _ => True) (cells row) (cells row'))
    (hstrict : ∀ s, ∃ e, cells (.str s) = .error e) :
    Together SameLines (sectionHtml shown heading columns rows note cells)
      (sectionHtml shown heading' columns rows' note' cells) :=
  together_sectionHtml heading heading' columns (truthy_of_alike hrows) hnote fun htruthy =>
    together_rows htruthy hrows hcells hstrict hstrict

theorem paired {α β : Type} {xs : List α} {ys : List β} (h : xs.length = ys.length) :
    List.Forall₂ (fun _ _ => True) xs ys :=
  List.forall₂_iff_get.mpr ⟨h, fun _ _ _ => trivial⟩

/-- The number of items a loop over a value goes through. -/
def listed (v : Json) : Option Nat := (iterate v).toOption.map List.length

theorem together_iterate {v v' : Json} (h : listed v = listed v') :
    Together (List.Forall₂ fun _ _ => True) (iterate v) (iterate v') := by
  unfold listed at h
  cases hv : iterate v with
  | error e =>
      cases hv' : iterate v' with
      | error e' => exact .raise e e'
      | ok items =>
          rw [hv, hv'] at h
          contradiction
  | ok items =>
      cases hv' : iterate v' with
      | error e' =>
          rw [hv, hv'] at h
          contradiction
      | ok items' =>
          rw [hv, hv'] at h
          exact .ok (paired (Option.some.inj h))

theorem together_fieldValues {row row' : Json} (keys : List String) (h : Alike row row') :
    Together (List.Forall₂ fun _ _ => True) (fieldValues keys row) (fieldValues keys row') := by
  unfold fieldValues
  apply Together.mapM (R := fun key key' => key = key')
  · rintro key _ rfl
    exact (together_fieldOr h key alike_emptyText).mono fun _ _ _ => trivial
  · exact List.forall₂_same.mpr fun _ _ => rfl

theorem fieldValues_strict (key : String) (keys : List String) (s : String) :
    ∃ e, fieldValues (key :: keys) (.str s) = .error e :=
  ⟨_, rfl⟩

theorem together_opportunityValues {row row' : Json} (h : Alike row row') :
    Together (List.Forall₂ fun _ _ => True) (opportunityValues row) (opportunityValues row') := by
  unfold opportunityValues
  apply Together.bind (together_field h "position")
  intro position position' _
  apply Together.bind (together_fieldOr h "keyword" alike_emptyText)
  intro keyword keyword' _
  apply Together.bind (together_fieldOr h "opportunity" alike_emptyText)
  intro opportunity opportunity' _
  exact .ok (.cons trivial (.cons trivial (.cons trivial .nil)))

theorem together_arrow {change change' : Json} (h : Alike change change') :
    Together (fun _ _ => True) (arrow shown change) (arrow shown change') := by
  unfold arrow
  apply Together.bind (together_fieldOr h "change" (.int 0))
  intro delta delta' hdelta
  apply Together.bind (together_positive hdelta)
  intro up up' _
  apply Together.bind (together_field h "direction")
  intro direction direction' hdirection
  apply Together.bind (together_lookupText hdirection _ _)
  intro verdict verdict' _
  exact .ok trivial

theorem together_changeValues {row row' : Json} (h : Alike row row') :
    Together (List.Forall₂ fun _ _ => True) (changeValues shown row)
      (changeValues shown row') := by
  unfold changeValues labelOf
  rw [bind_assoc, bind_assoc]
  apply Together.bind (together_fieldOr h "metric" alike_emptyText)
  intro metric metric' hmetric
  apply Together.bind (together_fieldOr h "label_fa" hmetric)
  intro label label' _
  apply Together.bind (together_fieldOr h "before" alike_emptyText)
  intro before before' _
  apply Together.bind (together_fieldOr h "after" alike_emptyText)
  intro after after' _
  apply Together.bind (together_arrow h)
  intro change change' _
  exact .ok (.cons trivial (.cons trivial (.cons trivial (.cons trivial .nil))))

theorem together_firstRows {rows rows' : Json} {n : Nat} (hn : 0 < n) (h : Alike rows rows') :
    Together Alike (firstRows n rows) (firstRows n rows') := by
  unfold firstRows
  rw [← truthy_of_alike h]
  split
  · exact together_sliced h hn
  · exact .ok h

/-- Each term of a list is a row of its own. -/
theorem together_terms {v v' : Json} (h : listed v = listed v') :
    Together (List.Forall₂ (List.Forall₂ fun _ _ => True))
      (iterate v >>= List.mapM fun term => .ok [term])
      (iterate v' >>= List.mapM fun term => .ok [term]) := by
  apply Together.bind (together_iterate h)
  intro items items' hitems
  apply Together.mapM _ hitems
  intro term term' _
  exact .ok (.cons trivial .nil)

/-- The list that a part of a report holds under a name, by its length. -/
def listAt (report : Dict) (key name : String) : Option Nat :=
  match part report key with
  | .ok d => listed (Dict.get d name)
  | .error _ => none

theorem listAt_of_part {report d : Dict} {key : String} (h : part report key = .ok d)
    (name : String) : listAt report key name = listed (Dict.get d name) := by
  unfold listAt
  rw [h]

theorem together_sectionsHtml {report report' : Dict} (h : Alike (.obj report) (.obj report'))
    (hthemes : listAt report "competitors" "top_missing_themes" =
      listAt report' "competitors" "top_missing_themes") :
    Together SameLines (sectionsHtml shown report) (sectionsHtml shown report') := by
  unfold sectionsHtml
  apply Together.bind (together_part h "rankings")
  intro rankings rankings' hrankings
  apply Together.bind (together_firstRows (by decide) (alike_get hrankings "opportunities"))
  intro openings openings' hopenings
  apply Together.bind (together_fieldsHtml _ _ _ hopenings rfl
    (fun _ _ => together_opportunityValues) fun s => ⟨_, rfl⟩)
  intro opportunities opportunities' hopportunities
  apply Together.bind (together_fieldsHtml _ _ _ (alike_get hrankings "top_competitors") rfl
    (fun _ _ => together_fieldValues _) (fieldValues_strict _ _))
  intro rivals rivals' hrivals
  apply Together.bind (together_part h "content")
  intro content content' hcontent
  apply Together.bind (together_fieldsHtml _ _ _ (alike_get hcontent "top_gaps") rfl
    (fun _ _ => together_fieldValues _) (fieldValues_strict _ _))
  intro gaps gaps' hgaps
  apply Together.bind (together_part h "trend")
  intro trend trend' htrend
  apply Together.bind (together_fieldsHtml _ _ _ (alike_get htrend "changes")
    (truthy_of_alike (alike_orElse (alike_get htrend "note") alike_emptyText))
    (fun _ _ => together_changeValues) fun s => ⟨_, rfl⟩)
  intro changes changes' hchanges
  apply Together.bind_of (together_part h "competitors")
  intro competitors competitors' hpart hpart' hcompetitors
  rw [listAt_of_part hpart, listAt_of_part hpart'] at hthemes
  have hthemesNote : ∀ compared : Json,
      (Json.str (themesNote shown compared)).truthy = true := by
    intro compared
    rw [truthy_str, bne_iff_ne]
    intro hempty
    unfold themesNote at hempty
    simp at hempty
  apply Together.bind (together_sectionHtml _ _ _
    (truthy_of_alike (alike_get hcompetitors "top_missing_themes"))
    ((hthemesNote _).trans (hthemesNote _).symm) fun _ => together_terms hthemes)
  intro themes themes' hsame
  apply Together.bind (together_part h "links")
  intro links links' hlinks
  apply Together.bind (together_fieldsHtml _ _ _ (alike_get hlinks "top_opportunities") rfl
    (fun _ _ => together_fieldValues _) (fieldValues_strict _ _))
  intro pages pages' hpages
  apply Together.bind (together_part h "optimizer")
  intro plan plan' hplan
  apply Together.bind (together_fieldsHtml _ _ _ (alike_get hplan "pages") rfl
    (fun _ _ => together_fieldValues _) (fieldValues_strict _ _))
  intro rewrites rewrites' hrewrites
  exact .ok (sameLines_append (sameLines_append (sameLines_append (sameLines_append
    (sameLines_append (sameLines_append hopportunities hrivals) hgaps) hchanges) hsame) hpages)
    hrewrites)

theorem together_actionHtml {action action' : Json} (h : Alike action action') :
    Together SameMarkup (actionHtml shown action) (actionHtml shown action') := by
  unfold actionHtml
  apply Together.bind (together_fieldOr h "action" alike_emptyText)
  intro what what' _
  apply Together.bind (together_fieldOr h "why" alike_emptyText)
  intro why why' _
  apply Together.bind (together_fieldOr h "effort" (alike_refl _))
  intro effort effort' _
  apply Together.bind (together_fieldOr h "impact" (alike_refl _))
  intro impact impact' _
  exact .ok ((same_e shown what what').around rfl (by decide) rfl (by decide)
    |>.andLiteral rfl (by decide)
    |>.append (same_e shown why why')
    |>.andLiteral rfl (by decide)
    |>.andLiteral rfl (by decide)
    |>.append (same_e shown effort effort')
    |>.andLiteral rfl (by decide)
    |>.andLiteral rfl (by decide)
    |>.append (same_e shown impact impact')
    |>.andLiteral rfl (by decide))

theorem together_nextHtml {actions actions' : Json} (h : Alike actions actions') :
    Together SameLines (nextHtml shown actions) (nextHtml shown actions') := by
  unfold nextHtml
  rw [← truthy_of_alike h]
  cases htruthy : actions.truthy with
  | false => exact .ok .nil
  | true =>
      rw [if_pos rfl, if_pos rfl, ← bind_assoc, ← bind_assoc]
      apply Together.bind (together_rows htruthy h (fun _ _ => together_actionHtml)
        (fun s => ⟨_, rfl⟩) fun s => ⟨_, rfl⟩)
      intro actions actions' hlisted
      exact .ok (sameLines_append (.cons (same_literal rfl (by decide)) hlisted)
        (.cons (same_literal rfl (by decide)) .nil))

theorem together_watchHtml {outs outs' : Json} (htruthy : outs.truthy = outs'.truthy)
    (h : listed outs = listed outs') :
    Together SameLines (watchHtml shown outs) (watchHtml shown outs') := by
  unfold watchHtml
  rw [← htruthy]
  split
  · apply Together.bind (together_iterate h)
    intro items items' hitems
    refine .ok (sameLines_append (sameLines_append (.cons (same_literal rfl (by decide)) .nil) ?_)
      (.cons (same_literal rfl (by decide)) .nil))
    refine List.forall₂_map_left_iff.mpr (List.forall₂_map_right_iff.mpr (hitems.imp ?_))
    intro item item' _
    exact (same_e shown item item').around rfl (by decide) rfl (by decide)
  · exact .ok .nil

theorem together_summaryHtml {summary summary' : Dict}
    (h : Alike (.obj summary) (.obj summary'))
    (houts : listed (Dict.get summary "watch_outs") = listed (Dict.get summary' "watch_outs")) :
    Together SameLines (summaryHtml shown summary) (summaryHtml shown summary') := by
  unfold summaryHtml
  rw [← truthy_of_alike (alike_get h "text_fa")]
  split
  · apply Together.bind (together_nextHtml (alike_get h "next_actions"))
    intro next next' hnext
    apply Together.bind (together_watchHtml (truthy_of_alike (alike_get h "watch_outs")) houts)
    intro watch watch' hwatch
    have hopening : SameMarkup
        ("<section><h2>خلاصه <span class='pill'>" ++ escape (sourceFa summary) ++
          "</span></h2><p class='lede'>" ++ e shown (Dict.get summary "text_fa") ++ "</p>")
        ("<section><h2>خلاصه <span class='pill'>" ++ escape (sourceFa summary') ++
          "</span></h2><p class='lede'>" ++ e shown (Dict.get summary' "text_fa") ++ "</p>") :=
      (same_escape (sourceFa summary) (sourceFa summary')).around rfl (by decide) rfl (by decide)
        |>.append (same_e shown _ _)
        |>.andLiteral rfl (by decide)
    exact .ok (sameLines_append (sameLines_append (sameLines_append (.cons hopening .nil) hnext)
      hwatch) (.cons (same_literal rfl (by decide)) .nil))
  · exact .ok .nil

theorem same_tile (number number' : String × Json) :
    SameMarkup
      ("<div class='tile'><div class='value'>" ++ e shown number.2 ++ "</div>" ++
        "<div class='name'>" ++ escape number.1 ++ "</div></div>")
      ("<div class='tile'><div class='value'>" ++ e shown number'.2 ++ "</div>" ++
        "<div class='name'>" ++ escape number'.1 ++ "</div></div>") :=
  (same_e shown number.2 number'.2).around rfl (by decide) rfl (by decide)
    |>.andLiteral rfl (by decide)
    |>.append (same_escape number.1 number'.1)
    |>.andLiteral rfl (by decide)

variable (shown) in
theorem same_numbersHtml {numbers numbers' : List (String × Json)}
    (h : numbers.length = numbers'.length) :
    SameLines (numbersHtml shown numbers) (numbersHtml shown numbers') := by
  have hempty : numbers = [] ↔ numbers' = [] := by
    rw [← List.length_eq_zero_iff, ← List.length_eq_zero_iff, h]
  unfold numbersHtml
  by_cases hnumbers : numbers = []
  · rw [if_pos hnumbers, if_pos (hempty.mp hnumbers)]
    exact .nil
  · rw [if_neg hnumbers, if_neg (mt hempty.mpr hnumbers)]
    refine .cons ((SameMarkup.join ?_).around rfl (by decide) rfl (by decide)) .nil
    rw [List.forall₂_map_left_iff, List.forall₂_map_right_iff]
    exact (paired h).imp fun number number' _ => same_tile number number'

theorem same_stepRow (s s' : ServedStep) :
    SameMarkup
      ("<tr><td>" ++ escape (toString s.position) ++ "</td>" ++
        "<td>" ++ escape (named stepFa s.kind) ++ "</td>" ++
        "<td>" ++ escape (named statusFa s.status) ++ "</td>" ++
        "<td class='muted'>" ++ escape (s.error.getD "") ++ "</td></tr>")
      ("<tr><td>" ++ escape (toString s'.position) ++ "</td>" ++
        "<td>" ++ escape (named stepFa s'.kind) ++ "</td>" ++
        "<td>" ++ escape (named statusFa s'.status) ++ "</td>" ++
        "<td class='muted'>" ++ escape (s'.error.getD "") ++ "</td></tr>") :=
  (same_escape (toString s.position) (toString s'.position)).around rfl (by decide) rfl (by decide)
    |>.andLiteral rfl (by decide)
    |>.append (same_escape (named stepFa s.kind) (named stepFa s'.kind))
    |>.andLiteral rfl (by decide)
    |>.andLiteral rfl (by decide)
    |>.append (same_escape (named statusFa s.status) (named statusFa s'.status))
    |>.andLiteral rfl (by decide)
    |>.andLiteral rfl (by decide)
    |>.append (same_escape (s.error.getD "") (s'.error.getD ""))
    |>.andLiteral rfl (by decide)

theorem same_stepsHtml {steps steps' : List ServedStep} (h : steps.length = steps'.length) :
    SameLines (stepsHtml steps) (stepsHtml steps') := by
  have hempty : steps = [] ↔ steps' = [] := by
    rw [← List.length_eq_zero_iff, ← List.length_eq_zero_iff, h]
  unfold stepsHtml
  by_cases hsteps : steps = []
  · rw [if_pos hsteps, if_pos (hempty.mp hsteps)]
    exact .nil
  · rw [if_neg hsteps, if_neg (mt hempty.mpr hsteps)]
    refine .cons ((SameMarkup.join ?_).around rfl (by decide) rfl (by decide)) .nil
    rw [List.forall₂_map_left_iff, List.forall₂_map_right_iff]
    exact (paired h).imp fun s s' _ => same_stepRow s s'

end Sections

/-- Two workflows of one shape: the same fields are there and empty, and the lists
that are shown are of one length. A text that is listed is listed by its characters. -/
structure SameShape (w w' : Served) : Prop where
  error : w.error.getD "" = "" ↔ w'.error.getD "" = ""
  inputs : Alike (.obj w.inputs) (.obj w'.inputs)
  steps : w.steps.length = w'.steps.length
  report : Alike (.obj (w.report.getD [])) (.obj (w'.report.getD []))
  watchOuts : listAt (w.report.getD []) "summary" "watch_outs" =
    listAt (w'.report.getD []) "summary" "watch_outs"
  themes : listAt (w.report.getD []) "competitors" "top_missing_themes" =
    listAt (w'.report.getD []) "competitors" "top_missing_themes"

section Documents

variable {shown : Json → String} {w w' : Served}

theorem together_titleOf (h : SameShape w w') :
    Together (fun _ _ => True) (titleOf shown w) (titleOf shown w') := by
  unfold titleOf siteOf
  dsimp only
  rw [← truthy_of_alike (alike_get h.inputs "start_url")]
  split
  · exact .ok trivial
  · rw [bind_assoc, bind_assoc]
    apply Together.bind (together_field (alike_getD h.report "crawl" alike_emptyObj) "start_url")
    intro site site' _
    exact .ok trivial

theorem isSome_notNull {v v' : Json} (h : Alike v v') :
    (notNull v).isSome = (notNull v').isSome := by
  cases h with
  | null | bool | int | float | str | arr | obj => rfl

theorem length_filterMap_eq {α β γ : Type} {f : α → Option β} {g : α → Option γ}
    (h : ∀ a, (f a).isSome = (g a).isSome) (items : List α) :
    (items.filterMap f).length = (items.filterMap g).length := by
  induction items with
  | nil => rfl
  | cons a rest ih =>
      have ha := h a
      rw [List.filterMap_cons, List.filterMap_cons]
      cases hf : f a <;> cases hg : g a
      · exact ih
      · rw [hf, hg] at ha
        contradiction
      · rw [hf, hg] at ha
        contradiction
      · exact congrArg Nat.succ ih

theorem together_headlineRows {report report' : Dict}
    (h : Alike (.obj report) (.obj report')) :
    Together (fun numbers numbers' => numbers.length = numbers'.length)
      (headlineRows report) (headlineRows report') := by
  unfold headlineRows
  apply Together.bind (together_part h "headline")
  intro headline headline' hheadline
  refine .ok ?_
  have hthere : ∀ key, (notNull (Dict.get headline key)).isSome =
      (notNull (Dict.get headline' key)).isSome :=
    fun key => isSome_notNull (alike_get hheadline key)
  exact length_filterMap_eq (by
    intro label
    rw [Option.isSome_map, Option.isSome_map]
    exact hthere label.1) headlineFa

theorem same_openingHtml (h : SameShape w w') (title title' : String) :
    SameLines (openingHtml w title) (openingHtml w' title') := by
  unfold openingHtml
  apply sameLines_append
  · refine .cons ?_ (.cons ?_ .nil)
    · exact (same_escape title title').around rfl (by decide) rfl (by decide)
    · exact (same_literal rfl (by decide)).andLiteral rfl (by decide)
        |>.append (same_escape _ _)
        |>.andLiteral rfl (by decide)
        |>.append (same_escape _ _)
        |>.andLiteral rfl (by decide)
        |>.append (same_escape w.workflowId w'.workflowId)
        |>.andLiteral rfl (by decide)
        |>.andLiteral rfl (by decide)
  · by_cases hempty : w.error.getD "" = ""
    · rw [if_pos hempty, if_pos (h.error.mp hempty)]
      exact .nil
    · rw [if_neg hempty, if_neg (mt h.error.mpr hempty)]
      exact .cons ((same_escape _ _).around rfl (by decide) rfl (by decide)) .nil

theorem length_sortedSteps (w : Served) : (sortedSteps w).length = w.steps.length :=
  List.length_insertionSort _ _

theorem css_plain : ∀ c ∈ css.toList, c ≠ '<' := by
  have hlines : ∀ line ∈ cssLines, ∀ c ∈ line.toList, c ≠ '<' := by
    simp only [cssLines, List.forall_mem_cons, List.not_mem_nil, false_imp_iff, implies_true,
      and_true]
    repeat' apply And.intro
    all_goals exact plain_literal rfl (by decide)
  intro c hc
  rw [css, String.toList_join] at hc
  obtain ⟨line, hline, hmem⟩ := List.mem_flatMap.mp hc
  exact hlines line hline c hmem

theorem styledPage_eq (head body : String) :
    head ++ "<style>" ++ css ++ "</style></head><body>" ++ body ++ "</body></html>\n" =
      styledPage head css ("</head><body>" ++ body ++ "</body></html>\n") := by
  have hend : "</style></head><body>" = "</style>" ++ "</head><body>" := by decide +kernel
  unfold styledPage
  rw [hend]
  simp only [String.append_assoc]

variable (shown) in
/-- The pages of two workflows of one shape. -/
theorem together_document (h : SameShape w w') :
    Together (SamePage css) (document shown w) (document shown w') := by
  unfold document
  dsimp only
  apply Together.bind_of (together_part h.report "summary")
  intro summary summary' hpart hpart' hsummary
  have houts := h.watchOuts
  rw [listAt_of_part hpart, listAt_of_part hpart'] at houts
  apply Together.bind (together_titleOf h)
  intro title title' _
  apply Together.bind (together_summaryHtml hsummary houts)
  intro summarised summarised' hsummarised
  apply Together.bind (together_headlineRows h.report)
  intro numbers numbers' hnumbers
  apply Together.bind (together_sectionsHtml h.report h.themes)
  intro sections sections' hsections
  have hsteps : (sortedSteps w).length = (sortedSteps w').length := by
    rw [length_sortedSteps, length_sortedSteps, h.steps]
  have hfooter : SameMarkup
      ("<footer>ساخته‌شده با ایجنت سئو. اعداد «فرصت» اولویت نسبی‌اند، " ++
        "نه پیش‌بینی ترافیک.</footer>") _ :=
    (same_literal rfl (by decide)).append (same_literal rfl (by decide))
  have hbody := SameMarkup.join (sameLines_append (sameLines_append (sameLines_append
    (sameLines_append (sameLines_append (same_openingHtml h title title') hsummarised)
      (same_numbersHtml shown hnumbers)) (same_stepsHtml hsteps)) hsections)
    (.cons hfooter .nil))
  have hhead : SameMarkup
      ("<!doctype html>\n" ++ "<html lang='fa' dir='rtl'><head><meta charset='utf-8'>" ++
        "<title>" ++ escape title ++ "</title>" ++
        "<meta name='viewport' content='width=device-width, initial-scale=1'>")
      ("<!doctype html>\n" ++ "<html lang='fa' dir='rtl'><head><meta charset='utf-8'>" ++
        "<title>" ++ escape title' ++ "</title>" ++
        "<meta name='viewport' content='width=device-width, initial-scale=1'>") :=
    (same_literal rfl (by decide)).andLiteral rfl (by decide)
      |>.andLiteral rfl (by decide)
      |>.append (same_escape title title')
      |>.andLiteral rfl (by decide)
      |>.andLiteral rfl (by decide)
  refine .ok ?_
  rw [styledPage_eq, styledPage_eq]
  exact samePage_styled hhead (hbody.around rfl (by decide) rfl (by decide)) css_plain

theorem sameShape_refl (w : Served) : SameShape w w :=
  ⟨Iff.rfl, alike_refl _, rfl, alike_refl _, rfl, rfl⟩

/-- Every page is escaped, whatever it is about. -/
theorem escaped_of_document {page : String} (h : document shown w = .ok page) :
    escaped (outside page) = true ∧ styles page = css.toList := by
  have hsame := together_document shown (sameShape_refl w)
  rw [h] at hsame
  cases hsame with
  | ok hpage => exact ⟨hpage.escaped, hpage.styles⟩

end Documents

/-- A report on a site with one keyword. -/
def audit (site keyword fault : String) : Served where
  workflowId := "w-1"
  status := "completed"
  createdAt := "2026-01-05T09:00:00+00:00"
  error := none
  inputs := [("start_url", .str site)]
  steps := [{ position := 1, kind := "crawl", status := "failed", error := some fault }]
  report := some [("content", .obj [("top_gaps", .arr [.obj [("keyword", .str keyword)]])])]

theorem sameShape_audit (site : String) {keyword keyword' : String}
    (h : keyword = "" ↔ keyword' = "") (fault fault' : String) :
    SameShape (audit site keyword fault) (audit site keyword' fault') := by
  refine ⟨Iff.rfl, alike_refl _, rfl, ?_, rfl, rfl⟩
  refine alike_field _ (alike_field _ (alike_arr (.cons ?_ .nil)) alike_emptyObj) alike_emptyObj
  exact alike_field _ (.str h) alike_emptyObj

end SeoPlatform.Reporting.Escaping
