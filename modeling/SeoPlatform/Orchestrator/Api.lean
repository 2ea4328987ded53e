import SeoPlatform.Orchestrator.Planner
import SeoPlatform.Shared.Contracts

namespace SeoPlatform.Orchestrator.Api

open SeoPlatform.Foundation.JsonValue
open SeoPlatform.Foundation.JsonSchema
open SeoPlatform.Foundation.UrlText
open SeoPlatform.Orchestrator.Planner
open SeoPlatform.Shared.Contracts

/-- `ge` and `le` of an optional field. -/
def bounded (lower upper : Int) (value : Option Int) : Bool :=
  value.all fun n => lower ≤ n && n ≤ upper

/-- The checks of `WorkflowInputs`, on the document it is dumped to. -/
def acceptsInputs (inputs : Inputs) : Bool :=
  inputs.startUrl.any (fun url => 1 ≤ url.length && url.length ≤ 2048) &&
  inputs.seed.all (fun seed => seed.length ≤ 200) &&
  bounded 1 100000 inputs.maxPages &&
  bounded 1 20 inputs.maxDepth &&
  bounded 1 maxTracked inputs.trackKeywords &&
  bounded 1 maxOptimized inputs.optimizePages &&
  inputs.competitors.all (fun urls => urls.length ≤ maxCompetitors) &&
  bounded 1 maxCompetitorPages inputs.competitorPages &&
  inputs.lang.isSome && inputs.country.isSome

/-- What is accepted: inputs that pass the checks, for a goal that plans. -/
def accepts (rules : TextRules) (goal : String) (inputs : Inputs) : Bool :=
  acceptsInputs inputs && (plan rules goal inputs fun _ => "").isOk

/-- The payload of `workflow.requested`. -/
def workflowRequest (workflowId goal : String) (inputs : Inputs) : Dict :=
  [("workflow_id", .str workflowId), ("goal", .str goal), ("inputs", .obj inputs.toDict)]

/-- What `WorkflowInputs` leaves open and `workflow.requested` does not. -/
structure FitsRequest (inputs : Inputs) : Prop where
  lang : (langOf inputs).length ≤ 10
  country : (countryOf inputs).length ≤ 5
  competitors : ∀ url ∈ inputs.competitors.getD [], url.length ≤ 2048

theorem get?_optionalField (name key : String) (v : Option Json) :
    Dict.get? (optionalField name v) key = if name = key then v else none := by
  cases v <;> simp [optionalField]

theorem all_bounded {lower upper : Int} {value : Option Int}
    (h : bounded lower upper value = true) :
    (value.map Json.int).all (integerIn (some lower) (some upper)) = true := by
  cases value with
  | none => rfl
  | some n =>
      simp only [Option.map_some, Option.all_some, integerIn_int]
      exact h

theorem all_text {lower upper : Nat} (value : Option String) :
    (value.map Json.str).all (stringLength lower (some upper)) = true ↔
      ∀ s, value = some s → lower ≤ s.length ∧ s.length ≤ upper := by
  cases value <;> simp

theorem keys_toDict (inputs : Inputs) :
    ∀ name ∈ Dict.keys inputs.toDict, name ∈ workflowInputsFields.map Prod.fst := by
  have hkeys : ∀ (name : String) (v : Option Json), ∀ key ∈ Dict.keys (optionalField name v),
      key = name := by
    intro name v key hkey
    cases v <;> simp [optionalField, Dict.keys] at hkey
    exact hkey
  intro name hname
  simp only [Inputs.toDict, Dict.keys, List.map_append, List.mem_append] at hname
  rcases hname with ((((((((h | h) | h) | h) | h) | h) | h) | h) | h) | h <;>
    rw [hkeys _ _ _ h] <;> simp [workflowInputsFields]

theorem valid_iff_inputs {workflowId : String} {inputs : Inputs} :
    Valid .workflowRequested (workflowRequest workflowId "site_audit" inputs) ↔
      properties workflowInputsFields inputs.toDict = true := by
  have hclosed : closedObject [] workflowInputsFields (.obj inputs.toDict) = true ↔
      properties workflowInputsFields inputs.toDict = true := by
    rw [closedObject_iff]
    constructor
    · rintro ⟨d, hd, -, hproperties, -⟩
      cases hd
      exact hproperties
    · exact fun h => ⟨_, rfl, List.forall_mem_nil _, h, keys_toDict inputs⟩
  rw [← hclosed]
  simp [valid_iff, eventSchema, workflowRequested, workflowRequest, properties, Dict.keys]

theorem all_competitors {value : Option (List String)}
    (h : value.all (fun urls => urls.length ≤ maxCompetitors) = true) :
    (value.map fun urls => Json.arr (urls.map .str)).all
        (arrayOf 0 (some 4) (stringLength 0 (some 2048))) = true ↔
      ∀ url ∈ value.getD [], url.length ≤ 2048 := by
  cases value with
  | none => simp
  | some urls => simpa [arrayOf] using fun _ => (of_decide_eq_true h : urls.length ≤ 4)

/-- The request that accepted inputs make keeps its contract exactly where the
fields that are accepted at any length are short enough. -/
theorem valid_iff_fits {workflowId : String} {inputs : Inputs}
    (haccepts : acceptsInputs inputs = true) :
    Valid .workflowRequested (workflowRequest workflowId "site_audit" inputs) ↔
      FitsRequest inputs := by
  rw [valid_iff_inputs]
  simp only [acceptsInputs, Bool.and_eq_true] at haccepts
  obtain ⟨⟨⟨⟨⟨⟨⟨⟨⟨-, hseed⟩, hpages⟩, hdepth⟩, htrack⟩, hoptimize⟩, hrivals⟩, hrivalPages⟩, hlang⟩,
    hcountry⟩ := haccepts
  obtain ⟨lang, hlang⟩ := Option.isSome_iff_exists.mp hlang
  obtain ⟨country, hcountry⟩ := Option.isSome_iff_exists.mp hcountry
  have hurl : (inputs.startUrl.map Json.str).all string = true := by cases inputs.startUrl <;> rfl
  have hseed : (inputs.seed.map Json.str).all (stringLength 0 (some 200)) = true :=
    (all_text inputs.seed).mpr fun s hs => by simpa [hs] using hseed
  have hpages : (inputs.maxPages.map Json.int).all (integerIn (some 1) (some 100000)) = true :=
    all_bounded hpages
  have hdepth : (inputs.maxDepth.map Json.int).all (integerIn (some 1) (some 20)) = true :=
    all_bounded hdepth
  have htrack : (inputs.trackKeywords.map Json.int).all (integerIn (some 1) (some 50)) = true :=
    all_bounded htrack
  have hoptimize :
      (inputs.optimizePages.map Json.int).all (integerIn (some 1) (some 25)) = true :=
    all_bounded hoptimize
  have hrivalPages :
      (inputs.competitorPages.map Json.int).all (integerIn (some 1) (some 200)) = true :=
    all_bounded hrivalPages
  have hrivals := all_competitors hrivals
  have hfields : properties workflowInputsFields inputs.toDict = true ↔
      lang.length ≤ 10 ∧ country.length ≤ 5 ∧
        ∀ url ∈ inputs.competitors.getD [], url.length ≤ 2048 := by
    simp [workflowInputsFields, properties, Inputs.toDict, Dict.get?_append, get?_optionalField,
      hurl, hseed, hpages, hdepth, htrack, hoptimize, hrivalPages, hrivals, hlang, hcountry]
  rw [hfields]
  constructor
  · rintro ⟨h, h', h''⟩
    exact ⟨by simpa [langOf, hlang] using h, by simpa [countryOf, hcountry] using h', h''⟩
  · rintro ⟨h, h', h''⟩
    exact ⟨by simpa [langOf, hlang] using h, by simpa [countryOf, hcountry] using h', h''⟩

end SeoPlatform.Orchestrator.Api
