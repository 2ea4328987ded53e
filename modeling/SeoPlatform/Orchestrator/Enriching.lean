import SeoPlatform.Orchestrator.LegibleReports
import SeoPlatform.Orchestrator.Summaries

namespace SeoPlatform.Orchestrator.Enriching

open SeoPlatform.Foundation.ExceptFlow
open SeoPlatform.Foundation.JsonValue
open SeoPlatform.Foundation.JsonSchema
open SeoPlatform.Orchestrator.Engine (asDict lengthOf sliced stepEntry)
open SeoPlatform.Orchestrator.Planner (iterate)
open SeoPlatform.Orchestrator.LegibleReports
open SeoPlatform.Orchestrator.ReportTrends
open SeoPlatform.Orchestrator.Store
open SeoPlatform.Orchestrator.Summaries
open SeoPlatform.Orchestrator.Trends (Change Trend)
open SeoPlatform.Reporting.Rendering (field fieldOr lookupText notNull part positive text)
open SeoPlatform.Shared.Contracts
open SeoPlatform.Shared.Exceptions

section Lists

variable {item : Schema} {required : List String} {fields : List (String × Schema)} {v row : Json}
  {key : String}

/-- A list that may be missing, read with the empty one for it. -/
theorem items_of_nullable (h : nullable (arrayOf 0 none item) v = true) :
    ∃ items, v.orElse (.arr []) = .arr items ∧ ∀ i ∈ items, item i = true := by
  rcases nullable_iff.mp h with rfl | harray
  · exact ⟨[], rfl, fun _ hi => absurd hi List.not_mem_nil⟩
  · obtain ⟨items, rfl, -, -, hitems⟩ := arrayOf_iff.mp harray
    refine ⟨items, ?_, hitems⟩
    cases items <;> rfl

theorem firstRows_ok (h : nullable (arrayOf 0 none item) v = true) (n : Nat) :
    ∃ rows, firstRows n v = .ok rows ∧ ∀ row ∈ rows, item row = true := by
  obtain ⟨items, hitems, hkeep⟩ := items_of_nullable h
  refine ⟨items.take n, ?_, fun row hrow => hkeep row (List.mem_of_mem_take hrow)⟩
  unfold firstRows
  rw [hitems]
  rfl

theorem asDict_of_closed (h : closedObject required fields row = true) :
    ∃ d, asDict row = .ok d := by
  obtain ⟨d, rfl, -⟩ := closedObject_iff.mp h
  exact ⟨d, rfl⟩

theorem returns_field (h : Returns (asDict v)) : Returns (field v key) :=
  returns_bind h fun _ _ => returns_ok _

theorem returns_fieldOr {fallback : Json} (h : Returns (asDict v)) :
    Returns (fieldOr v key fallback) :=
  returns_bind h fun _ _ => returns_ok _

theorem returns_lengthOf (h : nullable (arrayOf 0 none item) v = true) :
    Returns (lengthOf (v.orElse (.arr []))) := by
  obtain ⟨items, hitems, -⟩ := items_of_nullable h
  rw [hitems]
  exact returns_ok _

end Lists

section Sentences

variable {shown : Json → String} {report headline rankings links content rivals : Dict}

/-- The row of the overall score is one of the rows. -/
theorem scoreRow_ok (changes : List Change) :
    ∃ score, scoreRow (changes.map rowOf) = .ok score ∧
      ∀ fields, score = some fields → ∃ change, rowOf change = .obj fields := by
  induction changes with
  | nil => exact ⟨none, rfl, nofun⟩
  | cons change rest ih =>
      obtain ⟨score, hscore, hfields⟩ := ih
      have hstep : scoreRow ((change :: rest).map rowOf) =
          if (Json.str change.metric).str? = some "overall_score" then
            .ok (some [("metric", .str change.metric), ("label_fa", .str change.labelFa),
              ("before", change.before), ("after", change.after), ("change", .float change.change),
              ("direction", .str (Direction.name change.direction))])
          else scoreRow (rest.map rowOf) := rfl
      rw [hstep]
      split
      · refine ⟨_, rfl, ?_⟩
        rintro fields hsome
        exact ⟨change, congrArg Json.obj (Option.some.inj hsome)⟩
      · exact ⟨score, hscore, hfields⟩

theorem returns_lead {score : Option Dict}
    (h : ∀ fields, score = some fields → ∃ change, rowOf change = .obj fields) :
    Returns (lead shown score) := by
  cases score with
  | none => exact returns_ok _
  | some fields =>
      obtain ⟨change, hchange⟩ := h fields rfl
      cases hchange
      refine returns_bind ⟨_, rfl⟩ fun direction _ => ?_
      split
      · exact returns_ok _
      · refine returns_bind ⟨_, rfl⟩ fun delta hdelta => ?_
        cases hdelta
        refine returns_bind ⟨_, rfl⟩ fun _ _ => ?_
        refine returns_bind ⟨_, rfl⟩ fun _ _ => ?_
        exact returns_bind ⟨_, rfl⟩ fun _ _ => returns_ok _

theorem returns_trendSentences {trend : Json}
    (h : trend = .null ∨ ∃ t, trend = .obj (fieldsOf t)) :
    Returns (trendSentences shown trend) := by
  rcases h with rfl | ⟨t, rfl⟩
  · exact returns_ok _
  · refine returns_bind ⟨fieldsOf t, rfl⟩ fun fields hfields => ?_
    cases hfields
    split
    · refine returns_bind ?_ fun _ _ => returns_ok _
      refine returns_bind ⟨_, rfl⟩ fun better hbetter => ?_
      cases hbetter
      refine returns_bind ⟨_, rfl⟩ fun _ _ => ?_
      refine returns_bind ⟨_, rfl⟩ fun worse hworse => ?_
      cases hworse
      refine returns_bind ⟨_, rfl⟩ fun _ _ => ?_
      split
      · exact returns_ok _
      · refine returns_bind ⟨_, rfl⟩ fun changes hchanges => ?_
        cases hchanges
        refine returns_bind ⟨_, rfl⟩ fun rows hrows => ?_
        cases hrows
        obtain ⟨score, hscore, hfields⟩ := scoreRow_ok t.changes
        refine returns_bind ⟨score, hscore⟩ fun found hfound => ?_
        rw [hscore] at hfound
        cases hfound
        refine returns_bind (returns_lead hfields) fun _ _ => ?_
        split
        · exact returns_ok _
        · split <;> exact returns_ok _
    · exact returns_ok _

theorem returns_keywordSentences (h : Legible report) :
    Returns (keywordSentences shown report headline) := by
  obtain ⟨keywords, hkeywords, -⟩ := h.part_ok "keywords" (by simp [resultParts])
  unfold keywordSentences
  dsimp only
  split
  · exact returns_bind ⟨keywords, hkeywords⟩ fun _ _ => returns_ok _
  · exact returns_ok _

theorem returns_bestSentences (h : Listed rankings) :
    Returns (bestSentences shown (Dict.get rankings "best")) := by
  have hbest := h.field "best" rfl
  unfold bestSentences
  split
  · rename_i htruthy
    rcases nullable_iff.mp hbest with hnull | hbest
    · rw [hnull] at htruthy
      cases htruthy
    · rcases nullable_iff.mp hbest with hnull | hclosed
      · rw [hnull] at htruthy
        cases htruthy
      · have hobject := asDict_of_closed hclosed
        refine returns_bind (returns_field hobject) fun _ _ => ?_
        exact returns_bind (returns_field hobject) fun _ _ => returns_ok _
  · exact returns_ok _

theorem returns_rankingSentences (h : Listed rankings) :
    Returns (rankingSentences shown headline rankings) := by
  unfold rankingSentences
  dsimp only
  split
  · exact returns_bind (returns_bestSentences h) fun _ _ => returns_ok _
  · exact returns_ok _

theorem returns_themeSentences (h : Listed rivals) : Returns (themeSentences shown rivals) := by
  have hthemes := h.field "top_missing_themes" rfl
  unfold themeSentences
  dsimp only
  split
  · refine returns_bind (returns_lengthOf hthemes) fun _ _ => ?_
    obtain ⟨items, hitems, -⟩ := items_of_nullable hthemes
    rw [hitems]
    refine returns_bind ?_ fun _ _ => returns_ok _
    cases items <;> exact ⟨_, rfl⟩
  · exact returns_ok _

theorem returns_rivalSentences (h : Listed rivals) : Returns (rivalSentences shown rivals) := by
  unfold rivalSentences
  dsimp only
  split
  · refine returns_bind (returns_lengthOf (h.field "behind_on" rfl)) fun _ _ => ?_
    refine returns_bind (returns_lengthOf (h.field "ahead_on" rfl)) fun _ _ => ?_
    exact returns_bind (returns_themeSentences h) fun _ _ => returns_ok _
  · exact returns_ok _

/-- The domain of a competitor is a text. -/
theorem domain_of_outranking {row : Json} (h : outrankingDomain row = true) :
    ∃ s, field row "domain" = .ok (.str s) := by
  have hopen := openObject_of_closedObject h
  obtain ⟨d, rfl, -⟩ := openObject_iff.mp hopen
  obtain ⟨v, hv⟩ := required_of_openObject hopen (show "domain" ∈ ["domain", "outranks_on"] by simp)
  obtain ⟨s, rfl⟩ := string_iff.mp (field_of_openObject hopen (mem_of_lookup rfl) hv)
  exact ⟨s, congrArg Except.ok (Dict.get_of_get? hv)⟩

theorem returns_competitorSentences (h : Listed rankings) :
    Returns (competitorSentences rankings) := by
  obtain ⟨rows, hrows, hkeep⟩ := firstRows_ok (h.field "top_competitors" rfl) 3
  refine returns_bind ⟨rows, hrows⟩ fun rows' hrows' => ?_
  rw [hrows] at hrows'
  cases hrows'
  have hdomains : Returns (rows.mapM fun row => field row "domain") := by
    refine returns_mapM fun row hrow => ?_
    obtain ⟨s, hs⟩ := domain_of_outranking (hkeep row hrow)
    exact ⟨_, hs⟩
  refine returns_bind hdomains fun domains hmade => ?_
  split
  · exact returns_ok _
  · refine returns_bind (returns_mapM fun domain hdomain => ?_) fun _ _ => returns_ok _
    obtain ⟨row, hrow, hread⟩ := exists_of_mem_mapM hmade hdomain
    obtain ⟨s, hs⟩ := domain_of_outranking (hkeep row hrow)
    rw [hs] at hread
    cases hread
    exact returns_ok _

theorem returns_stepSentences (step : Step) : Returns (stepSentences shown (stepEntry step)) := by
  refine returns_bind ⟨.str step.status.name, rfl⟩ fun status _ => ?_
  split
  · refine returns_bind ⟨.str step.kind.name, rfl⟩ fun kind hkind => ?_
    cases hkind
    refine returns_bind ⟨_, rfl⟩ fun _ _ => ?_
    exact returns_bind ⟨_, rfl⟩ fun _ _ => returns_ok _
  · exact returns_ok _

theorem returns_skippedSentences (h : Legible report) :
    Returns (skippedSentences shown report) := by
  obtain ⟨steps, hsteps⟩ := h.steps
  refine returns_bind ⟨steps.map stepEntry, by rw [hsteps]; rfl⟩ fun entries hentries => ?_
  rw [hsteps] at hentries
  cases hentries
  refine returns_bind (returns_mapM fun entry hentry => ?_) fun _ _ => returns_ok _
  obtain ⟨step, -, rfl⟩ := List.mem_map.mp hentry
  exact returns_stepSentences step

theorem returns_sentences (shown : Json → String) (headline : Dict) (h : Legible report)
    (hrankings : Listed rankings) :
    Returns (sentences shown report headline rankings) := by
  have hpart : ∀ name ∈ resultParts.map Prod.fst, Returns (part report name) := by
    intro name hname
    obtain ⟨d, hd, -⟩ := h.part_ok name hname
    exact ⟨d, hd⟩
  obtain ⟨rivals, hrivals, hlisted⟩ := h.part_ok "competitors" (by simp [resultParts])
  refine returns_bind (returns_trendSentences h.trend) fun _ _ => ?_
  refine returns_bind (hpart _ (by simp [resultParts])) fun _ _ => ?_
  refine returns_bind (returns_keywordSentences h) fun _ _ => ?_
  refine returns_bind (returns_rankingSentences hrankings) fun _ _ => ?_
  refine returns_bind (hpart _ (by simp [resultParts])) fun _ _ => ?_
  refine returns_bind (hpart _ (by simp [resultParts])) fun _ _ => ?_
  refine returns_bind (hpart _ (by simp [resultParts])) fun _ _ => ?_
  refine returns_bind ⟨rivals, hrivals⟩ fun found hfound => ?_
  rw [hrivals] at hfound
  cases hfound
  refine returns_bind (returns_rivalSentences hlisted) fun _ _ => ?_
  refine returns_bind (returns_competitorSentences hrankings) fun _ _ => ?_
  exact returns_bind (returns_skippedSentences h) fun _ _ => returns_ok _

end Sentences

section Actions

variable (shown : Json → String) {report headline rankings : Dict} {row : Json}

theorem opportunityAction_ok (h : rankOpportunity row = true) :
    ∃ d, opportunityAction shown row = .ok (.obj d) := by
  have hopen := openObject_of_closedObject h
  obtain ⟨fields, rfl, -⟩ := openObject_iff.mp hopen
  have hposition : nullable (nullable integer) (Dict.get fields "position") = true :=
    nullable_get_of_openObject hopen (mem_of_lookup rfl)
  dsimp only [opportunityAction, field, asDict, bind, Except.bind]
  cases hvalue : Dict.get fields "position" with
  | null => exact ⟨_, rfl⟩
  | int n =>
      dsimp only [notNull, atMost]
      split <;> exact ⟨_, rfl⟩
  | float q =>
      dsimp only [notNull, atMost]
      split <;> exact ⟨_, rfl⟩
  | bool | str | arr | obj =>
      rw [hvalue] at hposition
      simp [nullable, integer, integerIn] at hposition

theorem linkAction_ok (h : linkOpportunity row = true) :
    ∃ d, linkAction shown row = .ok (.obj d) := by
  obtain ⟨fields, rfl, -⟩ := closedObject_iff.mp h
  exact ⟨_, rfl⟩

theorem gapAction_ok (h : contentGap row = true) : ∃ d, gapAction shown row = .ok (.obj d) := by
  obtain ⟨fields, rfl, -⟩ := closedObject_iff.mp h
  exact ⟨_, rfl⟩

/-- A loop over rows that all become objects. -/
theorem objects_of_mapM {item : Schema} {f : Json → Except Exn Json} {rows : List Json}
    (hf : ∀ row, item row = true → ∃ d, f row = .ok (.obj d))
    (h : ∀ row ∈ rows, item row = true) :
    ∃ made, rows.mapM f = .ok made ∧ ∀ row ∈ made, ∃ d, row = .obj d := by
  obtain ⟨made, hmade⟩ := returns_mapM (f := f) fun row hrow => by
    obtain ⟨d, hd⟩ := hf row (h row hrow)
    exact ⟨_, hd⟩
  refine ⟨made, hmade, fun row hrow => ?_⟩
  obtain ⟨source, hsource, hread⟩ := exists_of_mem_mapM hmade hrow
  obtain ⟨d, hd⟩ := hf source (h source hsource)
  rw [hd] at hread
  exact ⟨d, (Except.ok.inj hread).symm⟩

/-- The first rows of a list become objects. -/
theorem objects_of_firstRows {item : Schema} {f : Json → Except Exn Json} {v : Json} (n : Nat)
    (hf : ∀ row, item row = true → ∃ d, f row = .ok (.obj d))
    (h : nullable (arrayOf 0 none item) v = true) :
    ∃ rows made, firstRows n v = .ok rows ∧ rows.mapM f = .ok made ∧
      ∀ row ∈ made, ∃ d, row = .obj d := by
  obtain ⟨rows, hrows, hkeep⟩ := firstRows_ok h n
  obtain ⟨made, hmade, hobjects⟩ := objects_of_mapM hf hkeep
  exact ⟨rows, made, hrows, hmade, hobjects⟩

theorem issueActions_objects : ∀ row ∈ issueActions shown headline, ∃ d, row = .obj d := by
  intro row hrow
  unfold issueActions at hrow
  dsimp only at hrow
  split at hrow
  · rw [List.mem_singleton.mp hrow]
    exact ⟨_, rfl⟩
  · cases hrow

/-- The next actions by the rules are objects. -/
theorem actions_ok (headline : Dict) (h : Legible report) (hrankings : Listed rankings) :
    ∃ next, actions shown report headline rankings = .ok next ∧
      ∀ row ∈ next, ∃ d, row = .obj d := by
  obtain ⟨links, hlinks, hlinked⟩ := h.part_ok "links" (by simp [resultParts])
  obtain ⟨content, hcontent, hcovered⟩ := h.part_ok "content" (by simp [resultParts])
  obtain ⟨rows, opportunities, hrows, hopportunities, hfirst⟩ := objects_of_firstRows 3
    (fun _ => opportunityAction_ok shown) (hrankings.field "opportunities" rfl)
  obtain ⟨rows', pages, hrows', hpages, hsecond⟩ := objects_of_firstRows 2
    (fun _ => linkAction_ok shown) (hlinked.field "top_opportunities" rfl)
  obtain ⟨rows'', gaps, hrows'', hgaps, hthird⟩ := objects_of_firstRows 2
    (fun _ => gapAction_ok shown) (hcovered.field "top_gaps" rfl)
  refine ⟨(opportunities ++ pages ++ gaps ++ issueActions shown headline).take 5, ?_, ?_⟩
  · simp only [actions, hlinks, hcontent, hrows, hopportunities, hrows', hpages, hrows'', hgaps,
      bind, Except.bind]
  · intro row hrow
    have hmem := List.mem_of_mem_take hrow
    simp only [List.mem_append] at hmem
    rcases hmem with ((hmem | hmem) | hmem) | hmem
    · exact hfirst row hmem
    · exact hsecond row hmem
    · exact hthird row hmem
    · exact issueActions_objects shown row hmem

end Actions

section Summary

variable (shown dumped : Json → String) {report : Dict}

/-- The summary by the rules is always there, and its actions are objects. -/
theorem deterministic_ok (h : Legible report) :
    ∃ said next, deterministic shown report =
      .ok [("source", .str "rules"), ("text_fa", .str said), ("next_actions", .arr next),
        ("watch_outs", .arr []), ("note", .null)] ∧ ∀ row ∈ next, ∃ d, row = .obj d := by
  obtain ⟨headline, hheadline⟩ := h.headline
  obtain ⟨rankings, hrankings, hlisted⟩ := h.part_ok "rankings" (by simp [resultParts])
  obtain ⟨said, hsaid⟩ := returns_sentences shown headline h hlisted
  obtain ⟨next, hnext, hobjects⟩ := actions_ok shown headline h hlisted
  refine ⟨String.intercalate " " said, next, ?_, hobjects⟩
  simp only [deterministic, hheadline, hrankings, hsaid, hnext, bind, Except.bind]

theorem returns_promptStep (step : Step) : Returns (promptStep shown (stepEntry step)) := by
  refine returns_bind ⟨_, rfl⟩ fun _ _ => ?_
  refine returns_bind ⟨_, rfl⟩ fun _ _ => ?_
  refine returns_bind ⟨_, rfl⟩ fun _ _ => ?_
  exact returns_bind ⟨_, rfl⟩ fun _ _ => returns_ok _

theorem returns_prompt (h : Legible report) : Returns (prompt shown dumped report) := by
  have hpart : ∀ name ∈ resultParts.map Prod.fst, Returns (part report name) := by
    intro name hname
    obtain ⟨d, hd, -⟩ := h.part_ok name hname
    exact ⟨d, hd⟩
  obtain ⟨keywords, hkeywords, hlisted⟩ := h.part_ok "keywords" (by simp [resultParts])
  obtain ⟨steps, hsteps⟩ := h.steps
  refine returns_bind h.headline fun _ _ => ?_
  refine returns_bind (hpart _ (by simp [resultParts])) fun _ _ => ?_
  refine returns_bind ⟨keywords, hkeywords⟩ fun found hfound => ?_
  rw [hkeywords] at hfound
  cases hfound
  refine returns_bind (hpart _ (by simp [resultParts])) fun _ _ => ?_
  refine returns_bind ⟨steps.map stepEntry, by rw [hsteps]; rfl⟩ fun entries hentries => ?_
  rw [hsteps] at hentries
  cases hentries
  refine returns_bind (returns_mapM fun entry hentry => ?_) fun rows hrows => ?_
  · obtain ⟨step, -, rfl⟩ := List.mem_map.mp hentry
    exact ⟨_, rfl⟩
  · refine returns_bind (returns_mapM fun entry hentry => ?_) fun _ _ => ?_
    · -- sorting moves the steps about and leaves them as they are
      obtain ⟨row, hrow, rfl⟩ := List.mem_map.mp hentry
      have hmem : row ∈ rows := (List.perm_insertionSort _ rows).mem_iff.mp hrow
      obtain ⟨source, hsource, hranked⟩ := exists_of_mem_mapM hrows hmem
      obtain ⟨step, -, rfl⟩ := List.mem_map.mp hsource
      cases hranked
      exact returns_promptStep shown step
    · obtain ⟨words, hwords, -⟩ := firstRows_ok (hlisted.field "top_keywords" rfl) 20
      exact returns_bind ⟨words, hwords⟩ fun _ _ => returns_ok _

/-- The summary that an answer of the model leads to. -/
theorem enrich_ok (h : Legible report) (answer : Dict) :
    ∃ said next, enrich shown dumped (some (.ok answer)) report =
      .ok (answered shown [("source", .str "rules"), ("text_fa", .str said),
        ("next_actions", .arr next), ("watch_outs", .arr []), ("note", .null)] answer) ∧
      ∀ row ∈ next, ∃ d, row = .obj d := by
  obtain ⟨said, next, hbase, hobjects⟩ := deterministic_ok shown h
  obtain ⟨asked, hasked⟩ := returns_prompt shown dumped h
  refine ⟨said, next, ?_, hobjects⟩
  simp only [enrich, hbase, hasked, bind, Except.bind]

end Summary

end SeoPlatform.Orchestrator.Enriching
