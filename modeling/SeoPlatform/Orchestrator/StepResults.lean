import SeoPlatform.Orchestrator.Changes
import SeoPlatform.Foundation.ExceptFlow

namespace SeoPlatform.Orchestrator.StepResults

open SeoPlatform.Foundation.ExceptFlow
open SeoPlatform.Foundation.JsonValue
open SeoPlatform.Foundation.JsonSchema
open SeoPlatform.Orchestrator.Planner
open SeoPlatform.Orchestrator.Store
open SeoPlatform.Orchestrator.Engine
open SeoPlatform.Orchestrator.Changes
open SeoPlatform.Shared.Contracts
open SeoPlatform.Shared.Exceptions
open SeoPlatform.Shared.Events

/-- The fields of a step's result that are read again, and what the contracts
say of each. -/
def resultFields : List (String × Schema) :=
  [("crawl_id", string),
   ("research_id", string),
   ("start_url", string),
   ("overall_score", integer),
   ("total_issues", integer),
   ("total", integer),
   ("top_keywords", arrayOf 0 none topKeyword),
   ("keywords_ranked", integer),
   ("average_position", number),
   ("orphan_count", integer),
   ("coverage", number),
   ("pages_with_fixes", integer),
   ("compared_against", integer),
   ("behind_on", arrayOf 0 none string),
   ("result_url", string)]

/-- Every field that is read again is absent, `null`, or of its type. -/
def Typed (result : Dict) : Prop :=
  ∀ field ∈ resultFields, nullable field.2 (Dict.get result field.1) = true

/-- A field of a stored result, by the table of what the contracts say of it. -/
theorem Typed.field {result : Dict} (h : Typed result) {name : String} {schema : Schema}
    (hrow : resultFields.lookup name = some schema) :
    nullable schema (Dict.get result name) = true :=
  h (name, schema) (mem_of_lookup hrow)

variable {env : Env} {type : EventType} {kind : StepKind} {idField : String} {payload result : Dict}

theorem get_plain_append (payload rest : Dict) (names : List String) (key : String) :
    Dict.get (plain payload names ++ rest) key =
      if key ∈ names then Dict.get payload key else Dict.get rest key := by
  induction names with
  | nil => rfl
  | cons name others ih =>
      have hcons : plain payload (name :: others) ++ rest =
          (name, Dict.get payload name) :: (plain payload others ++ rest) := rfl
      rw [hcons, Dict.get_cons, ih]
      by_cases h : name = key
      · simp [h]
      · simp [h, Ne.symm h]

theorem get_plain (payload : Dict) (names : List String) (key : String) :
    Dict.get (plain payload names) key = if key ∈ names then Dict.get payload key else .null := by
  have h := get_plain_append payload [] names key
  rwa [List.append_nil] at h

theorem nullable_mono {schema weaker : Schema} {v : Json}
    (hweaker : ∀ v, schema v = true → weaker v = true) (h : nullable schema v = true) :
    nullable weaker v = true :=
  nullable_iff.mpr ((nullable_iff.mp h).imp_right (hweaker v))

section Fields

variable {name : String} {lower upper : Option Rat} {schema item : Schema} {atMost : Option Nat}

/-- A field of a payload that keeps its contract, by the contract's row. -/
theorem field_of_valid (h : Valid type payload)
    (hrow : (eventSchema type).fields.lookup name = some schema) :
    nullable schema (Dict.get payload name) = true :=
  h.get (mem_of_lookup hrow)

theorem integer_of_valid (h : Valid type payload)
    (hrow : (eventSchema type).fields.lookup name = some (integerIn lower upper)) :
    nullable integer (Dict.get payload name) = true :=
  nullable_mono (fun _ => integer_of_integerIn) (field_of_valid h hrow)

theorem number_of_valid (h : Valid type payload)
    (hrow : (eventSchema type).fields.lookup name = some (numberIn lower upper)) :
    nullable number (Dict.get payload name) = true :=
  nullable_mono (fun _ => number_of_numberIn) (field_of_valid h hrow)

theorem nullable_of_valid (h : Valid type payload)
    (hrow : (eventSchema type).fields.lookup name = some (nullable schema)) :
    nullable schema (Dict.get payload name) = true := by
  rcases nullable_iff.mp (field_of_valid h hrow) with hnull | hfield
  · exact nullable_iff.mpr (.inl hnull)
  · exact hfield

theorem arrayOf_unbounded {least : Nat} {v : Json} (h : arrayOf least atMost item v = true) :
    arrayOf 0 none item v = true := by
  obtain ⟨items, rfl, -, -, hitems⟩ := arrayOf_iff.mp h
  exact arrayOf_iff.mpr ⟨items, rfl, Nat.zero_le _, rfl, hitems⟩

/-- A list that may be absent, read with the empty one for it. -/
theorem array_of_valid (h : Valid type payload)
    (hrow : (eventSchema type).fields.lookup name = some (arrayOf 0 atMost item)) :
    arrayOf 0 none item (Dict.getD payload name (.arr [])) = true := by
  unfold Dict.getD
  cases hv : Dict.get? payload name with
  | none => rfl
  | some v => exact arrayOf_unbounded (h.field (mem_of_lookup hrow) hv)

/-- A slice of a list keeps what holds of its items. -/
theorem array_of_sliced {n : Nat} {v u : Json} (hv : arrayOf 0 none item v = true)
    (h : sliced n v = .ok u) : arrayOf 0 none item u = true := by
  obtain ⟨items, rfl, -, -, hitems⟩ := arrayOf_iff.mp hv
  obtain rfl := Except.ok.inj h
  exact arrayOf_iff.mpr ⟨_, rfl, Nat.zero_le _, rfl, fun i hi => hitems i (List.mem_of_mem_take hi)⟩

end Fields

theorem typed_of_crawl (hvalid : Valid .crawlCompleted payload)
    (h : stepResult .crawl payload = .ok result) : Typed result := by
  obtain ⟨stats, hstats, hresult⟩ := ok_of_bind h
  obtain rfl := Except.ok.inj hresult
  have hissues : nullable integer (Dict.get stats "total_issues") = true := by
    obtain ⟨v, hv⟩ := hvalid.required (show "stats" ∈ crawlCompleted.required by
      simp [crawlCompleted])
    have hschema : crawlStats v = true := hvalid.field (mem_of_lookup rfl) hv
    rw [Dict.getD, hv, Option.getD_some] at hstats
    obtain ⟨d, rfl, -⟩ := openObject_iff.mp hschema
    obtain rfl := Except.ok.inj hstats
    exact nullable_get_of_openObject hschema (mem_of_lookup rfl)
  have hfields : nullable string (Dict.get payload "crawl_id") = true ∧
      nullable string (Dict.get payload "start_url") = true ∧
      nullable integer (Dict.get payload "overall_score") = true ∧
      nullable string (Dict.get payload "result_url") = true :=
    ⟨field_of_valid hvalid rfl, field_of_valid hvalid rfl, integer_of_valid hvalid rfl,
      field_of_valid hvalid rfl⟩
  simpa [Typed, resultFields, get_plain, get_plain_append, Dict.get_cons, hissues] using hfields

theorem typed_of_research (hvalid : Valid .keywordResearched payload)
    (h : stepResult .keywordResearch payload = .ok result) : Typed result := by
  obtain ⟨top, htop, hresult⟩ := ok_of_bind h
  obtain rfl := Except.ok.inj hresult
  have hsliced := nullable_of (array_of_sliced (array_of_valid hvalid rfl) htop)
  have hfields : nullable string (Dict.get payload "research_id") = true ∧
      nullable integer (Dict.get payload "total") = true ∧
      nullable string (Dict.get payload "result_url") = true :=
    ⟨field_of_valid hvalid rfl, integer_of_valid hvalid rfl, field_of_valid hvalid rfl⟩
  simpa [Typed, resultFields, get_plain, get_plain_append, Dict.get_cons, hsliced] using hfields

theorem typed_of_rankings (hvalid : Valid .serpChecked payload)
    (h : stepResult .serpCheck payload = .ok result) : Typed result := by
  obtain ⟨rivals, -, hrest⟩ := ok_of_bind h
  obtain ⟨openings, -, hresult⟩ := ok_of_bind hrest
  obtain rfl := Except.ok.inj hresult
  have hfields : nullable integer (Dict.get payload "keywords_ranked") = true ∧
      nullable number (Dict.get payload "average_position") = true ∧
      nullable string (Dict.get payload "result_url") = true :=
    ⟨integer_of_valid hvalid rfl, nullable_of_valid hvalid rfl, field_of_valid hvalid rfl⟩
  simpa [Typed, resultFields, get_plain, get_plain_append, Dict.get_cons] using hfields

theorem typed_of_links (hvalid : Valid .linksAnalyzed payload)
    (h : stepResult .linkAnalysis payload = .ok result) : Typed result := by
  obtain ⟨top, -, hresult⟩ := ok_of_bind h
  obtain rfl := Except.ok.inj hresult
  have hfields : nullable string (Dict.get payload "crawl_id") = true ∧
      nullable integer (Dict.get payload "orphan_count") = true ∧
      nullable string (Dict.get payload "result_url") = true :=
    ⟨field_of_valid hvalid rfl, integer_of_valid hvalid rfl, field_of_valid hvalid rfl⟩
  simpa [Typed, resultFields, get_plain, get_plain_append, Dict.get_cons] using hfields

theorem typed_of_content (hvalid : Valid .contentAnalyzed payload)
    (h : stepResult .contentAnalysis payload = .ok result) : Typed result := by
  obtain ⟨gaps, -, hresult⟩ := ok_of_bind h
  obtain rfl := Except.ok.inj hresult
  have hfields : nullable string (Dict.get payload "crawl_id") = true ∧
      nullable string (Dict.get payload "research_id") = true ∧
      nullable number (Dict.get payload "coverage") = true ∧
      nullable string (Dict.get payload "result_url") = true :=
    ⟨field_of_valid hvalid rfl, field_of_valid hvalid rfl, number_of_valid hvalid rfl,
      field_of_valid hvalid rfl⟩
  simpa [Typed, resultFields, get_plain, get_plain_append, Dict.get_cons] using hfields

theorem typed_of_plan (hvalid : Valid .optimizerPlanned payload)
    (h : stepResult .optimizerPlan payload = .ok result) : Typed result := by
  obtain ⟨pages, -, hresult⟩ := ok_of_bind h
  obtain rfl := Except.ok.inj hresult
  have hfields : nullable string (Dict.get payload "crawl_id") = true ∧
      nullable integer (Dict.get payload "pages_with_fixes") = true ∧
      nullable string (Dict.get payload "result_url") = true :=
    ⟨field_of_valid hvalid rfl, integer_of_valid hvalid rfl, field_of_valid hvalid rfl⟩
  simpa [Typed, resultFields, get_plain, get_plain_append, Dict.get_cons] using hfields

theorem typed_of_comparison (hvalid : Valid .competitorCompared payload)
    (h : stepResult .competitorCheck payload = .ok result) : Typed result := by
  obtain ⟨themes, -, hresult⟩ := ok_of_bind h
  obtain rfl := Except.ok.inj hresult
  have hbehind := nullable_of (array_of_valid hvalid (show
    competitorCompared.fields.lookup "behind_on" = some (arrayOf 0 (some 10) string) from rfl))
  have hfields : nullable string (Dict.get payload "crawl_id") = true ∧
      nullable integer (Dict.get payload "compared_against") = true ∧
      nullable string (Dict.get payload "result_url") = true :=
    ⟨field_of_valid hvalid rfl, integer_of_valid hvalid rfl, field_of_valid hvalid rfl⟩
  simpa [Typed, resultFields, get_plain, get_plain_append, Dict.get_cons, hbehind] using hfields

/-- What is stored of a completion that keeps its contract. -/
theorem typed_of_valid (hvalid : Valid type payload) {c : Completion}
    (hread : readCompletion env type payload = .ok c) : Typed c.result := by
  obtain ⟨kind, idField, hkind, -, -, hresult, -⟩ := readCompletion_ok hread
  cases type with
  | crawlCompleted =>
      cases hkind
      exact typed_of_crawl hvalid hresult
  | keywordResearched =>
      cases hkind
      exact typed_of_research hvalid hresult
  | serpChecked =>
      cases hkind
      exact typed_of_rankings hvalid hresult
  | linksAnalyzed =>
      cases hkind
      exact typed_of_links hvalid hresult
  | contentAnalyzed =>
      cases hkind
      exact typed_of_content hvalid hresult
  | optimizerPlanned =>
      cases hkind
      exact typed_of_plan hvalid hresult
  | competitorCompared =>
      cases hkind
      exact typed_of_comparison hvalid hresult
  | workflowRequested | workflowCompleted | crawlRequested | keywordResearchRequested
  | serpCheckRequested | linksAnalysisRequested | contentAnalysisRequested
  | optimizerPlanRequested | competitorComparisonRequested | pageUpdated | reportRequested
  | reportRendered => cases hkind

/-- A field the contract does not know is absent. -/
theorem absent_of_valid (h : Valid type payload) {name : String}
    (hname : name ∉ (eventSchema type).fields.map Prod.fst) : Dict.get payload name = .null := by
  unfold Dict.get
  cases hv : Dict.get? payload name with
  | none => rfl
  | some v => exact absurd ((valid_iff.mp h).2.2 name (Dict.mem_keys_of_get? hv)) hname

/-- The crawl a completion is about stays with the step it finished. -/
theorem crawlId_of_valid (hvalid : Valid type payload) {c : Completion}
    (hread : readCompletion env type payload = .ok c) :
    Dict.get c.result "crawl_id" = Dict.get payload "crawl_id" := by
  obtain ⟨kind, idField, hkind, -, -, hresult, -⟩ := readCompletion_ok hread
  cases type with
  | crawlCompleted | linksAnalyzed | contentAnalyzed | optimizerPlanned | competitorCompared =>
      cases hkind
      obtain ⟨part, -, hresult⟩ := ok_of_bind hresult
      rw [← Except.ok.inj hresult]
      simp [get_plain_append]
  | keywordResearched =>
      cases hkind
      obtain ⟨top, -, hresult⟩ := ok_of_bind hresult
      rw [← Except.ok.inj hresult, absent_of_valid hvalid (by decide)]
      simp [get_plain, get_plain_append, Dict.get_cons]
  | serpChecked =>
      cases hkind
      obtain ⟨rivals, -, hrest⟩ := ok_of_bind hresult
      obtain ⟨openings, -, hresult⟩ := ok_of_bind hrest
      rw [← Except.ok.inj hresult, absent_of_valid hvalid (by decide)]
      simp [get_plain, get_plain_append, Dict.get_cons]
  | workflowRequested | workflowCompleted | crawlRequested | keywordResearchRequested
  | serpCheckRequested | linksAnalysisRequested | contentAnalysisRequested
  | optimizerPlanRequested | competitorComparisonRequested | pageUpdated | reportRequested
  | reportRendered => cases hkind

end SeoPlatform.Orchestrator.StepResults
