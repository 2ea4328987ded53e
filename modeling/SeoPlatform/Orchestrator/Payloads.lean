import SeoPlatform.Orchestrator.Announcement
import SeoPlatform.Orchestrator.Api
import SeoPlatform.Orchestrator.BadSchedules
import SeoPlatform.Orchestrator.LegibleReports
import SeoPlatform.Orchestrator.OwnCrawl

namespace SeoPlatform.Orchestrator.Payloads

open SeoPlatform.Foundation.ExceptFlow
open SeoPlatform.Foundation.JsonSchema
open SeoPlatform.Foundation.JsonValue
open SeoPlatform.Foundation.TransitionSystem
open SeoPlatform.Foundation.UrlText
open SeoPlatform.Orchestrator.Planner
open SeoPlatform.Orchestrator.Store
open SeoPlatform.Orchestrator.StoreSpecs
open SeoPlatform.Orchestrator.Engine
open SeoPlatform.Orchestrator.AdvanceOutcomes
open SeoPlatform.Orchestrator.Snapshots
open SeoPlatform.Orchestrator.NoWork
open SeoPlatform.Orchestrator.Plans
open SeoPlatform.Orchestrator.Workers
open SeoPlatform.Orchestrator.Changes
open SeoPlatform.Orchestrator.Interleavings
open SeoPlatform.Orchestrator.Deliveries
open SeoPlatform.Orchestrator.StepLives
open SeoPlatform.Orchestrator.Conclusions
open SeoPlatform.Orchestrator.Requests
open SeoPlatform.Orchestrator.StepResults
open SeoPlatform.Orchestrator.LegibleReports
open SeoPlatform.Orchestrator.Api
open SeoPlatform.Shared.Contracts
open SeoPlatform.Shared.Exceptions

variable {env : Env} {w : Workflow} {x : Step} {params : Dict}

section Fitting

/-- The parameters that a crawl's request takes over from its step. -/
structure CrawlsWithin (params : Dict) : Prop where
  startUrl : nullable string (Dict.get params "start_url") = true
  maxPages : nullable (integerIn (some 1) (some 100000)) (Dict.get params "max_pages") = true
  maxDepth : nullable (integerIn (some 1) (some 20)) (Dict.get params "max_depth") = true

/-- What the requests of a workflow are made from. -/
structure Provided (w : Workflow) : Prop where
  accepted : acceptsInputs w.inputs = true
  typed : ∀ x ∈ w.steps, Typed (x.result.getD [])
  crawls : ∀ x ∈ w.steps, x.kind = .crawl ∨ x.kind = .competitorCrawl → CrawlsWithin x.params
  few : (w.steps.filter fun x => x.kind = .competitorCrawl).length ≤ maxCompetitors

/-- Without a seed, the address that the study is named after. -/
def studiedUrl (w : Workflow) : String :=
  let result := (w.steps.find? fun x => x.kind = .crawl).bind Step.result
  ((Dict.get (result.getD []) "start_url").orElse (.str (w.inputs.startUrl.getD ""))).str?.getD ""

/-- The name that a study falls back on without a seed is short enough. -/
def StudyFits (env : Env) (w : Workflow) : Prop :=
  strip (w.inputs.seed.getD "") = "" →
    ∀ label, seedFromDomain env.rules (studiedUrl w) = .ok label → label.length ≤ 200

/-- What a rank check is about, where there is something to check, is short enough. -/
def CheckFits (env : Env) (w : Workflow) : Prop :=
  ∀ terms domain,
    keywordsToTrack env.rules env.shown (resultOf w .keywordResearch)
      (orDefault w.inputs.trackKeywords defaultTracked) = .ok terms → terms ≠ [] →
    domainOf env.rules (w.inputs.startUrl.getD "") = .ok domain → domain ≠ "" →
      (langOf w.inputs).length ≤ 10 ∧ (countryOf w.inputs).length ≤ 5 ∧ domain.length ≤ 253 ∧
        ∀ term ∈ terms, term.length ≤ 200

/-- The texts that a kind of step asks with are short enough. -/
def StepFits (env : Env) (w : Workflow) : StepKind → Prop
  | .keywordResearch => StudyFits env w
  | .serpCheck => CheckFits env w
  | .crawl | .linkAnalysis | .contentAnalysis | .optimizerPlan | .competitorCrawl
  | .competitorCheck => True

end Fitting

section Requests

theorem present_eq {d : Dict} {name : String} {schema : Schema}
    (h : nullable schema (Dict.get d name) = true) :
    ∃ v, present d name = optionalField name v ∧ v.all schema = true := by
  unfold present
  rcases nullable_iff.mp h with hnull | hschema
  · rw [hnull]
    exact ⟨none, rfl, rfl⟩
  · cases hv : Dict.get d name with
    | null => exact ⟨none, rfl, rfl⟩
    | bool | int | float | str | arr | obj =>
        rw [hv] at hschema
        exact ⟨some _, rfl, hschema⟩

theorem keys_optionalField (name : String) (v : Option Json) :
    Dict.keys (optionalField name v) ⊆ [name] := by
  cases v <;> simp [optionalField, Dict.keys]

theorem valid_crawlRequest (jobId url : String) {pages depth : Option Json}
    (hpages : pages.all (integerIn (some 1) (some 100000)) = true)
    (hdepth : depth.all (integerIn (some 1) (some 20)) = true) :
    Valid .crawlRequested (("crawl_id", .str jobId) :: ([("start_url", .str url)] ++
      optionalField "max_pages" pages ++ optionalField "max_depth" depth)) := by
  have hkeys : ∀ name ∈ Dict.keys (optionalField "max_pages" pages ++
      optionalField "max_depth" depth), name = "max_pages" ∨ name = "max_depth" := by
    intro name hname
    unfold Dict.keys at hname
    rw [List.map_append] at hname
    rcases List.mem_append.mp hname with h | h
    · exact .inl (List.mem_singleton.mp (keys_optionalField _ _ h))
    · exact .inr (List.mem_singleton.mp (keys_optionalField _ _ h))
  rw [valid_iff]
  refine ⟨by simp [eventSchema, crawlRequested], ?_, ?_⟩
  · simp [eventSchema, crawlRequested, properties, Dict.get?_append, get?_optionalField, hpages,
      hdepth]
  · intro name hname
    rw [List.append_assoc] at hname
    rcases List.mem_cons.mp hname with rfl | hname
    · exact List.mem_map.mpr ⟨_, List.mem_cons_self, rfl⟩
    rcases List.mem_cons.mp hname with rfl | hname
    · exact List.mem_map.mpr ⟨_, List.mem_cons_of_mem _ List.mem_cons_self, rfl⟩
    rcases hkeys name hname with rfl | rfl
    · decide
    · decide

theorem valid_crawl (h : Provided w) (hx : x ∈ w.steps)
    (hkind : x.kind = .crawl ∨ x.kind = .competitorCrawl)
    (hparams : crawlRequestParams w x = .ok params) :
    Valid .crawlRequested (("crawl_id", .str x.jobId) :: params) := by
  have hwithin := h.crawls x hx hkind
  unfold crawlRequestParams at hparams
  split at hparams
  · rename_i htruthy
    obtain rfl := Except.ok.inj hparams
    obtain ⟨url, hurl⟩ : ∃ url, Dict.get x.params "start_url" = .str url := by
      rcases nullable_iff.mp hwithin.startUrl with hnull | hstring
      · rw [hnull] at htruthy
        cases htruthy
      · exact string_iff.mp hstring
    obtain ⟨pages, hpages, hpagesAll⟩ := present_eq hwithin.maxPages
    obtain ⟨depth, hdepth, hdepthAll⟩ := present_eq hwithin.maxDepth
    rw [hurl, hpages, hdepth]
    exact valid_crawlRequest x.jobId url hpagesAll hdepthAll
  · split at hparams
    · cases hparams
    · rename_i url hurl
      obtain rfl := Except.ok.inj hparams
      have haccepted := h.accepted
      simp only [acceptsInputs, Bool.and_eq_true] at haccepted
      obtain ⟨⟨⟨⟨⟨⟨⟨⟨⟨-, -⟩, hpages⟩, hdepth⟩, -⟩, -⟩, -⟩, -⟩, -⟩, -⟩ := haccepted
      exact valid_crawlRequest x.jobId url (all_bounded hpages) (all_bounded hdepth)

theorem valid_study_iff (jobId seed lang country : String) (hseed : seed ≠ "") :
    Valid .keywordResearchRequested [("research_id", .str jobId), ("seed", .str seed),
      ("lang", .str lang), ("country", .str country)] ↔ seed.length ≤ 200 := by
  have hsome : 1 ≤ seed.length := by
    rw [Nat.one_le_iff_ne_zero, ne_eq, String.length_eq_zero_iff]
    exact hseed
  simp [valid_iff, eventSchema, keywordResearchRequested, properties, Dict.keys, hsome]

theorem valid_check_iff (jobId domain lang country : String) {terms : List String}
    (hsome : terms ≠ []) (hlength : terms.length ≤ 50) (hterms : ∀ term ∈ terms, term ≠ "") :
    Valid .serpCheckRequested [("check_id", .str jobId), ("target_domain", .str domain),
      ("keywords", .arr (terms.map .str)), ("lang", .str lang), ("country", .str country)] ↔
      lang.length ≤ 10 ∧ country.length ≤ 5 ∧ domain.length ≤ 253 ∧
        ∀ term ∈ terms, term.length ≤ 200 := by
  have hkeywords : arrayOf 1 (some 50) (stringLength 1 (some 200)) (.arr (terms.map .str)) = true ↔
      ∀ term ∈ terms, term.length ≤ 200 := by
    have hpos : 1 ≤ terms.length := List.length_pos_iff.mpr hsome
    have hone : ∀ term ∈ terms, 1 ≤ term.length := by
      intro term hterm
      rw [Nat.one_le_iff_ne_zero, ne_eq, String.length_eq_zero_iff]
      exact hterms term hterm
    simp only [arrayOf, List.length_map, Bool.and_eq_true, decide_eq_true_eq, hpos, true_and,
      Option.all_some, hlength, List.all_eq_true, List.forall_mem_map, stringLength_str]
    exact forall₂_congr fun term hterm => by simp [hone term hterm]
  rw [← hkeywords]
  simp [valid_iff, eventSchema, serpCheckRequested, properties, Dict.keys]
  tauto

theorem keywordsFrom_within {rules : TextRules} {shown : Json → String} {limit : Nat}
    {items : List Json} {keywords seen terms : List String}
    (h : keywordsFrom rules shown limit items keywords seen = .ok terms)
    (hroom : keywords.length < limit) (hkeywords : ∀ term ∈ keywords, term ≠ "") :
    terms.length ≤ limit ∧ ∀ term ∈ terms, term ≠ "" := by
  induction items generalizing keywords seen with
  | nil =>
      obtain rfl := Except.ok.inj h
      exact ⟨hroom.le, hkeywords⟩
  | cons item rest ih =>
      obtain ⟨term, -, h⟩ := ok_of_bind h
      split at h
      · exact ih h hroom hkeywords
      · rename_i hnew
        have hsome : term ≠ "" := fun hempty => hnew (by simp [hempty])
        have hall : ∀ t ∈ keywords ++ [term], t ≠ "" := by
          intro t ht
          rcases List.mem_append.mp ht with hold | hown
          · exact hkeywords t hold
          · rw [List.mem_singleton.mp hown]
            exact hsome
        have hlength : (keywords ++ [term]).length = keywords.length + 1 := by simp
        split at h
        · obtain rfl := Except.ok.inj h
          exact ⟨by omega, hall⟩
        · exact ih h (by omega) hall

theorem keywordsToTrack_within {rules : TextRules} {shown : Json → String} {result : Option Dict}
    {limit : Int} {terms : List String}
    (h : keywordsToTrack rules shown result limit = .ok terms) :
    terms.length ≤ 50 ∧ ∀ term ∈ terms, term ≠ "" := by
  obtain ⟨items, -, h⟩ := ok_of_bind h
  have hlimit : 0 < (max 1 (min limit maxTracked)).toNat ∧
      (max 1 (min limit maxTracked)).toNat ≤ 50 := by
    unfold maxTracked
    omega
  obtain ⟨hlength, hterms⟩ := keywordsFrom_within h hlimit.1 (List.forall_mem_nil _)
  exact ⟨hlength.trans hlimit.2, hterms⟩

/-- The result of a kind that is there is a step's. -/
theorem typed_resultOf (h : Provided w) (kind : StepKind) :
    Typed ((resultOf w kind).getD []) := by
  unfold resultOf
  cases hresult : w.steps.findSome? fun s => if s.kind = kind then heldResult s else none with
  | none => exact Announcement.typed_nil
  | some d =>
      obtain ⟨x, hx, hheld⟩ := List.exists_of_findSome?_eq_some hresult
      split at hheld
      · have htyped := h.typed x hx
        rw [← OwnCrawl.getD_heldResult, hheld] at htyped
        exact htyped
      · cases hheld

theorem text_of_truthy {v : Json} (h : nullable string v = true) (htruthy : v.truthy = true) :
    ∃ s, v = .str s := by
  rcases nullable_iff.mp h with rfl | hstring
  · cases htruthy
  · exact string_iff.mp hstring

theorem ownCrawlId_text (h : Provided w) (htruthy : (ownCrawlId w).truthy = true) :
    ∃ s, ownCrawlId w = .str s :=
  text_of_truthy ((typed_resultOf h .crawl).field rfl) htruthy

theorem researchId_text (h : Provided w) (htruthy : (researchId w).truthy = true) :
    ∃ s, researchId w = .str s :=
  text_of_truthy ((typed_resultOf h .keywordResearch).field rfl) htruthy

theorem valid_links (h : Provided w) (jobId : String) (hparams : linksParams w = .ok params) :
    Valid .linksAnalysisRequested (("analysis_id", .str jobId) :: params) := by
  unfold linksParams at hparams
  dsimp only at hparams
  split at hparams
  · rename_i htruthy
    obtain rfl := Except.ok.inj hparams
    obtain ⟨crawlId, hcrawl⟩ := ownCrawlId_text h htruthy
    simp [hcrawl, valid_iff, eventSchema, linksAnalysisRequested, properties, Dict.keys]
  · cases hparams

theorem valid_content (h : Provided w) (jobId : String) (hparams : contentParams w = .ok params) :
    Valid .contentAnalysisRequested (("analysis_id", .str jobId) :: params) := by
  unfold contentParams at hparams
  dsimp only at hparams
  split at hparams
  · rename_i htruthy
    obtain ⟨hcrawl, hresearch⟩ := Bool.and_eq_true_iff.mp htruthy
    obtain rfl := Except.ok.inj hparams
    obtain ⟨crawlId, hcrawl⟩ := ownCrawlId_text h hcrawl
    obtain ⟨study, hstudy⟩ := researchId_text h hresearch
    simp [hcrawl, hstudy, valid_iff, eventSchema, contentAnalysisRequested, properties, Dict.keys]
  · cases hparams

theorem optimized_within (h : Provided w) :
    integerIn (some 1) (some 25) (.int (orDefault w.inputs.optimizePages defaultOptimized)) =
      true := by
  have haccepted := h.accepted
  simp only [acceptsInputs, Bool.and_eq_true] at haccepted
  obtain ⟨⟨⟨⟨⟨⟨⟨⟨⟨-, -⟩, -⟩, -⟩, -⟩, hpages⟩, -⟩, -⟩, -⟩, -⟩ := haccepted
  have hbounds := integerIn_int 1 25 (orDefault w.inputs.optimizePages defaultOptimized)
  push_cast at hbounds
  rw [hbounds]
  unfold orDefault defaultOptimized
  unfold bounded maxOptimized at hpages
  cases hasked : w.inputs.optimizePages with
  | none => decide
  | some n =>
      rw [hasked] at hpages
      simp only [Option.all_some, Bool.and_eq_true, decide_eq_true_eq] at hpages
      simp only [Bool.and_eq_true, decide_eq_true_eq]
      split <;> omega

theorem valid_optimizer (h : Provided w) (jobId : String)
    (hparams : optimizerParams w = .ok params) :
    Valid .optimizerPlanRequested (("plan_id", .str jobId) :: params) := by
  have hpages := optimized_within h
  unfold optimizerParams at hparams
  dsimp only at hparams
  split at hparams
  · rename_i htruthy
    obtain rfl := Except.ok.inj hparams
    obtain ⟨crawlId, hcrawl⟩ := ownCrawlId_text h htruthy
    split
    · rename_i hresearch
      obtain ⟨study, hstudy⟩ := researchId_text h hresearch
      simp [hcrawl, hstudy, hpages, valid_iff, eventSchema, optimizerPlanRequested, properties,
        Dict.keys]
    · simp [hcrawl, hpages, valid_iff, eventSchema, optimizerPlanRequested, properties, Dict.keys]
  · cases hparams

theorem rivalIds_within (h : Provided w) :
    (rivalIds w).length ≤ 8 ∧ ∀ v ∈ rivalIds w, string v = true := by
  constructor
  · refine le_trans ?_ (h.few.trans (by decide))
    unfold rivalIds
    refine (List.length_filter_le _ _).trans ?_
    rw [List.length_map]
    refine (((byPosition_perm w.steps).filter _).length_eq).le.trans ?_
    refine List.Sublist.length_le (List.monotone_filter_right _ fun x hx => ?_)
    simp only [decide_eq_true_eq] at hx ⊢
    exact hx.1
  · intro v hv
    obtain ⟨hmem, htruthy⟩ := List.mem_filter.mp hv
    obtain ⟨x, hx, rfl⟩ := List.mem_map.mp hmem
    have hstep : x ∈ w.steps := mem_byPosition.mp (List.mem_of_mem_filter hx)
    exact string_iff.mpr (text_of_truthy ((h.typed x hstep).field rfl) htruthy)

theorem valid_comparisonRequest (jobId crawlId : String) {ids : List Json}
    (hids : arrayOf 1 (some 8) string (.arr ids) = true) :
    Valid .competitorComparisonRequested [("comparison_id", .str jobId),
      ("crawl_id", .str crawlId), ("competitor_crawl_ids", .arr ids)] := by
  rw [valid_iff]
  refine ⟨?_, ?_, ?_⟩
  · intro name hname
    simp only [eventSchema, competitorComparisonRequested, List.mem_cons, List.not_mem_nil,
      or_false] at hname
    rcases hname with rfl | rfl <;> rfl
  · rw [properties_iff]
    simp only [eventSchema, competitorComparisonRequested, List.forall_mem_cons]
    refine ⟨?_, ?_, ?_, List.forall_mem_nil _⟩
    · rintro v ⟨⟩
      rfl
    · rintro v ⟨⟩
      rfl
    · rintro v ⟨⟩
      exact hids
  · simp only [eventSchema, competitorComparisonRequested, Dict.keys, List.map_cons, List.map_nil]
    decide

theorem valid_comparison (h : Provided w) (jobId : String)
    (hparams : competitorParams w = .ok params) :
    Valid .competitorComparisonRequested (("comparison_id", .str jobId) :: params) := by
  obtain ⟨hlength, hall⟩ := rivalIds_within h
  unfold competitorParams at hparams
  dsimp only at hparams
  split at hparams
  · rename_i htruthy
    obtain ⟨crawlId, hcrawl⟩ := ownCrawlId_text h htruthy
    split at hparams
    · cases hparams
    · rename_i hsome
      obtain rfl := Except.ok.inj hparams
      have hids : arrayOf 1 (some 8) string (.arr (rivalIds w)) = true := by
        refine arrayOf_iff.mpr ⟨_, rfl, ?_, by simpa using hlength, hall⟩
        rw [Nat.one_le_iff_ne_zero, ne_eq, List.length_eq_zero_iff]
        simpa using hsome
      rw [hcrawl]
      exact valid_comparisonRequest jobId crawlId hids
  · cases hparams

theorem length_strip_le (s : String) : (strip s).length ≤ s.length := by
  unfold strip
  rw [String.length_ofList, stripChars_eq, ← String.length_toList]
  exact (List.rdropWhile_prefix _ _).length_le.trans (List.dropWhile_suffix _).length_le

/-- The text that a study is seeded with is the given one, or the name of a site. -/
theorem resolveSeed_iff (h : Provided w) (env : Env) :
    (∀ seed, resolveSeed env.rules env.otherSeed w.inputs.seed w.inputs.startUrl
        ((w.steps.find? fun x => x.kind = .crawl).bind Step.result) = .ok seed →
      seed.length ≤ 200) ↔ StudyFits env w := by
  set result := (w.steps.find? fun x => x.kind = .crawl).bind Step.result with hresult
  have htyped : nullable string (Dict.get (result.getD []) "start_url") = true := by
    cases hfound : w.steps.find? fun x => x.kind = .crawl with
    | none =>
        rw [hresult, hfound]
        rfl
    | some x =>
        rw [hresult, hfound]
        exact (h.typed x (List.mem_of_find?_eq_some hfound)).field rfl
  obtain ⟨url, hurl⟩ : ∃ url, (Dict.get (result.getD []) "start_url").orElse
      (.str (w.inputs.startUrl.getD "")) = .str url := by
    unfold Json.orElse
    split
    · rename_i htruthy
      exact text_of_truthy htyped htruthy
    · exact ⟨_, rfl⟩
  have hstudied : studiedUrl w = url := by
    unfold studiedUrl
    dsimp only
    rw [← hresult, hurl]
    rfl
  have haccepted := h.accepted
  simp only [acceptsInputs, Bool.and_eq_true] at haccepted
  obtain ⟨⟨⟨⟨⟨⟨⟨⟨⟨-, hgiven⟩, -⟩, -⟩, -⟩, -⟩, -⟩, -⟩, -⟩, -⟩ := haccepted
  unfold resolveSeed StudyFits
  dsimp only
  rw [hurl, hstudied]
  by_cases hexplicit : strip (w.inputs.seed.getD "") = ""
  · rw [if_neg (not_not.mpr hexplicit)]
    exact ⟨fun hall _ => hall, fun hall => hall hexplicit⟩
  · rw [if_pos hexplicit]
    refine iff_of_true (fun seed hseed => ?_) fun hempty => absurd hempty hexplicit
    rw [← Except.ok.inj hseed]
    refine (length_strip_le _).trans ?_
    cases hseed : w.inputs.seed with
    | none => decide
    | some given =>
        rw [hseed] at hgiven
        simpa using hgiven

theorem study_carried_iff (h : Provided w) (env : Env) (jobId : String) :
    (∀ params, researchRequestParams env w = .ok params →
      Valid .keywordResearchRequested (("research_id", .str jobId) :: params)) ↔
        StudyFits env w := by
  rw [← resolveSeed_iff h env]
  unfold researchRequestParams
  dsimp only
  constructor
  · intro hall seed hseed
    by_cases hempty : seed = ""
    · rw [hempty]
      decide
    · refine (valid_study_iff jobId seed (langOf w.inputs) (countryOf w.inputs) hempty).mp
        (hall _ ?_)
      rw [hseed]
      dsimp only [bind, Except.bind]
      rw [if_neg hempty]
  · intro hall params hparams
    obtain ⟨seed, hseed, hparams⟩ := ok_of_bind hparams
    split at hparams
    · cases hparams
    · rename_i hsome
      obtain rfl := Except.ok.inj hparams
      exact (valid_study_iff jobId seed _ _ hsome).mpr (hall seed hseed)

theorem check_carried_iff (env : Env) (w : Workflow) (jobId : String) :
    (∀ params, serpParams env w = .ok params →
      Valid .serpCheckRequested (("check_id", .str jobId) :: params)) ↔ CheckFits env w := by
  unfold serpParams CheckFits
  dsimp only
  constructor
  · intro hall terms domain hterms hsome hdomain hnamed
    obtain ⟨hlength, hfull⟩ := keywordsToTrack_within hterms
    refine (valid_check_iff jobId domain (langOf w.inputs) (countryOf w.inputs) hsome hlength
      hfull).mp (hall _ ?_)
    rw [hterms]
    dsimp only [bind, Except.bind]
    rw [if_neg hsome, hdomain]
    dsimp only
    rw [if_neg hnamed]
  · intro hall params hparams
    obtain ⟨terms, hterms, hparams⟩ := ok_of_bind hparams
    split at hparams
    · cases hparams
    · rename_i hsome
      obtain ⟨domain, hdomain, hparams⟩ := ok_of_bind hparams
      split at hparams
      · cases hparams
      · rename_i hnamed
        obtain rfl := Except.ok.inj hparams
        obtain ⟨hlength, hfull⟩ := keywordsToTrack_within hterms
        exact (valid_check_iff jobId domain _ _ hsome hlength hfull).mpr
          (hall terms domain hterms hsome hdomain hnamed)

/-- The requests of a step keep their contract exactly where its texts are short enough. -/
theorem request_carried_iff (h : Provided w) (env : Env) (hx : x ∈ w.steps) :
    (∀ params, requestParams env w x = .ok params →
      Valid (requestOf x.kind).1 (((requestOf x.kind).2, .str x.jobId) :: params)) ↔
        StepFits env w x.kind := by
  unfold requestParams
  cases hkind : x.kind with
  | crawl => exact iff_of_true (fun params hparams => valid_crawl h hx (.inl hkind) hparams) trivial
  | competitorCrawl =>
      exact iff_of_true (fun params hparams => valid_crawl h hx (.inr hkind) hparams) trivial
  | keywordResearch => exact study_carried_iff h env x.jobId
  | serpCheck => exact check_carried_iff env w x.jobId
  | linkAnalysis =>
      exact iff_of_true (fun params hparams => valid_links h x.jobId hparams) trivial
  | contentAnalysis =>
      exact iff_of_true (fun params hparams => valid_content h x.jobId hparams) trivial
  | optimizerPlan =>
      exact iff_of_true (fun params hparams => valid_optimizer h x.jobId hparams) trivial
  | competitorCheck =>
      exact iff_of_true (fun params hparams => valid_comparison h x.jobId hparams) trivial

/-- The computation does not end in `ContractError`. -/
def Unbroken {α : Type} (r : Except Exn α) : Prop := ∀ text, r ≠ .error (.contractError text)

theorem unbroken_ok {α : Type} (a : α) : Unbroken (.ok a : Except Exn α) :=
  fun _ h => by cases h

theorem unbroken_of_ordinary {α : Type} {r : Except Exn α} (h : Ordinary r) : Unbroken r :=
  fun _ hbroken => h _ hbroken

theorem unbroken_noWork {α : Type} (reason : String) :
    Unbroken (.error (.noWorkToDo reason) : Except Exn α) :=
  fun _ h => by cases h

theorem unbroken_bind {α β : Type} {r : Except Exn α} {k : α → Except Exn β} (hr : Unbroken r)
    (hk : ∀ a, Unbroken (k a)) : Unbroken (r >>= k) := by
  intro text h
  cases r with
  | error e =>
      cases h
      exact hr text rfl
  | ok a => exact hk a text h

theorem ordinary_iterate (v : Json) : Ordinary (iterate v) := by
  cases v with
  | arr | str | obj => exact ordinary_ok _
  | null | bool | int | float => exact ordinary_error trivial

theorem ordinary_termOf (shown : Json → String) (v : Json) : Ordinary (termOf shown v) := by
  unfold termOf
  split
  · split
    · exact ordinary_ok _
    · exact ordinary_error trivial
  · exact ordinary_ok _
  · exact ordinary_ok _

theorem ordinary_keywordsFrom (rules : TextRules) (shown : Json → String) (limit : Nat)
    (items : List Json) (keywords seen : List String) :
    Ordinary (keywordsFrom rules shown limit items keywords seen) := by
  induction items generalizing keywords seen with
  | nil => exact ordinary_ok _
  | cons item rest ih =>
      refine ordinary_bind (ordinary_termOf shown item) fun term => ?_
      split
      · exact ih _ _
      · split
        · exact ordinary_ok _
        · exact ih _ _

theorem unbroken_requestParams (env : Env) (w : Workflow) (x : Step) :
    Unbroken (requestParams env w x) := by
  unfold requestParams
  split
  · exact unbroken_of_ordinary (ordinary_crawlRequestParams w x)
  · exact unbroken_of_ordinary (ordinary_crawlRequestParams w x)
  · exact unbroken_of_ordinary (ordinary_researchRequestParams env w)
  · refine unbroken_bind (unbroken_of_ordinary (ordinary_bind (ordinary_iterate _) fun items =>
      ordinary_keywordsFrom _ _ _ _ _ _)) fun terms => ?_
    split
    · exact unbroken_noWork _
    · refine unbroken_bind (unbroken_of_ordinary (ordinary_domainOf _ _)) fun domain => ?_
      split
      · exact unbroken_of_ordinary (ordinary_error trivial)
      · exact unbroken_ok _
  · unfold linksParams
    dsimp only
    split
    · exact unbroken_ok _
    · exact unbroken_noWork _
  · unfold contentParams
    dsimp only
    split
    · exact unbroken_ok _
    · exact unbroken_noWork _
  · unfold optimizerParams
    dsimp only
    split
    · exact unbroken_ok _
    · exact unbroken_noWork _
  · unfold competitorParams
    dsimp only
    split
    · split
      · exact unbroken_noWork _
      · exact unbroken_ok _
    · exact unbroken_noWork _

/-- The payload of a step's request keeps its contract, and the dispatch does not raise
`ContractError`. -/
structure Carried (env : Env) (w : Workflow) (x : Step) : Prop where
  valid : ∀ params, requestParams env w x = .ok params →
    Valid (requestOf x.kind).1 (((requestOf x.kind).2, .str x.jobId) :: params)
  unbroken : ∀ eventId, Unbroken (dispatchEvent env eventId w x)

theorem carried_of_valid (h : ∀ params, requestParams env w x = .ok params →
    Valid (requestOf x.kind).1 (((requestOf x.kind).2, .str x.jobId) :: params)) :
    Carried env w x := by
  refine ⟨h, fun eventId text hbroken => ?_⟩
  unfold dispatchEvent validateEvent at hbroken
  cases hparams : requestParams env w x with
  | error e =>
      rw [hparams] at hbroken
      obtain rfl := Except.error.inj hbroken
      exact unbroken_requestParams env w x text hparams
  | ok params =>
      rw [hparams] at hbroken
      dsimp only [bind, Except.bind] at hbroken
      rw [if_pos (h params hparams)] at hbroken
      cases hbroken

/-- A step's request is carried exactly where its texts are short enough. -/
theorem carried_iff (h : Provided w) (env : Env) (hx : x ∈ w.steps) :
    Carried env w x ↔ StepFits env w x.kind := by
  rw [← request_carried_iff h env hx]
  exact ⟨Carried.valid, carried_of_valid⟩

end Requests

section Plans

variable {rules : TextRules} {inputs : Inputs} {jobIds : Nat → String} {goal : String}
  {steps : List PlannedStep}

theorem competitorsFrom_few {entries urls seen rivals : List String}
    (h : competitorsFrom rules entries urls seen = .ok rivals)
    (hroom : urls.length < maxCompetitors) :
    rivals.length ≤ maxCompetitors := by
  induction entries generalizing urls seen with
  | nil =>
      obtain rfl := Except.ok.inj h
      exact hroom.le
  | cons raw rest ih =>
      unfold competitorsFrom at h
      dsimp only at h
      generalize (if occurs ['/', '/'] (strip raw).toList = true then strip raw
        else "https://" ++ strip raw) = url at h
      split at h
      · exact ih h hroom
      · obtain ⟨key, -, h⟩ := ok_of_bind h
        split at h
        · exact ih h hroom
        · split at h
          · obtain rfl := Except.ok.inj h
            rw [List.length_append]
            exact hroom
          · rename_i hmore
            exact ih h (Nat.lt_of_not_le hmore)

theorem countP_rivalSteps (pages : Int) (position : Nat) (rivals : List String) :
    (rivalSteps pages jobIds position rivals).countP (fun p => p.kind = .competitorCrawl) =
      rivals.length := by
  induction rivals generalizing position with
  | nil => rfl
  | cons url rest ih =>
      unfold rivalSteps
      rw [List.countP_cons_of_pos (by rfl), ih, List.length_cons]

theorem nullable_getD {schema : Schema} {v : Option Json} (h : v.all schema = true) :
    nullable schema (v.getD .null) = true := by
  cases v with
  | none => rfl
  | some v => exact nullable_of h

theorem crawlsWithin_own {url : String} {p : PlannedStep}
    (hpages : bounded 1 100000 inputs.maxPages = true)
    (hdepth : bounded 1 20 inputs.maxDepth = true) (hp : p ∈ ownSteps url inputs jobIds)
    (hkind : p.kind = .crawl ∨ p.kind = .competitorCrawl) : CrawlsWithin p.params := by
  have hpages := nullable_getD (all_bounded hpages)
  have hdepth := nullable_getD (all_bounded hdepth)
  simp only [ownSteps, List.mem_cons, List.not_mem_nil, or_false] at hp
  rcases hp with rfl | rfl | rfl | rfl | rfl | rfl
  · refine ⟨?_, ?_, ?_⟩
    · simp [crawlParams, Dict.get]
    · simpa [crawlParams, Dict.get, Dict.get?_append, get?_optionalField] using hpages
    · simpa [crawlParams, Dict.get, Dict.get?_append, get?_optionalField] using hdepth
  all_goals rcases hkind with hkind | hkind <;> cases hkind

theorem competitorPages_within (inputs : Inputs) :
    1 ≤ competitorPages inputs ∧ competitorPages inputs ≤ 200 := by
  unfold competitorPages
  split
  · decide
  · unfold maxCompetitorPages
    omega

theorem crawlsWithin_rival (url : String) (inputs : Inputs) :
    CrawlsWithin [("start_url", .str url), ("max_pages", .int (competitorPages inputs))] := by
  obtain ⟨hlower, hupper⟩ := competitorPages_within inputs
  have hbounds := integerIn_int 1 100000 (competitorPages inputs)
  push_cast at hbounds
  have hpages : integerIn (some 1) (some 100000) (.int (competitorPages inputs)) = true := by
    rw [hbounds, Bool.and_eq_true, decide_eq_true_iff, decide_eq_true_iff]
    omega
  refine ⟨rfl, ?_, rfl⟩
  rw [Dict.get_cons, if_neg (by decide), Dict.get_cons, if_pos rfl]
  exact nullable_of hpages

theorem crawls_of_plan (haccepts : acceptsInputs inputs = true)
    (h : plan rules goal inputs jobIds = .ok steps) :
    (∀ p ∈ steps, p.kind = .crawl ∨ p.kind = .competitorCrawl → CrawlsWithin p.params) ∧
      steps.countP (fun p => p.kind = .competitorCrawl) ≤ maxCompetitors := by
  obtain ⟨-, -, rivals, hrivals, rfl⟩ := plan_ok h
  simp only [acceptsInputs, Bool.and_eq_true] at haccepts
  obtain ⟨⟨⟨⟨⟨⟨⟨⟨⟨-, -⟩, hpages⟩, hdepth⟩, -⟩, -⟩, -⟩, -⟩, -⟩, -⟩ := haccepts
  constructor
  · intro p hp hkind
    rcases List.mem_append.mp hp with hp | hp
    · rcases List.mem_append.mp hp with hp | hp
      · exact crawlsWithin_own hpages hdepth hp hkind
      · obtain ⟨-, -, -, url, -, hparams⟩ := mem_rivalSteps hp
        rw [hparams]
        exact crawlsWithin_rival url inputs
    · obtain ⟨-, hcheck, -⟩ := mem_checkStep hp
      rw [hcheck] at hkind
      rcases hkind with hkind | hkind <;> cases hkind
  · have hcheck : (checkStep jobIds rivals).countP (fun p => p.kind = .competitorCrawl) = 0 := by
      rw [List.countP_eq_zero]
      intro p hp
      rw [(mem_checkStep hp).2.1]
      decide
    have hown : (ownSteps (strip (inputs.startUrl.getD "")) inputs jobIds).countP
        (fun p => p.kind = .competitorCrawl) = 0 := rfl
    rw [List.countP_append, List.countP_append, hown, countP_rivalSteps, hcheck, Nat.zero_add]
    exact competitorsFrom_few hrivals (by decide)

end Plans

section Runs

variable {traffic : Traffic} {db t : Db} {workflowId : String}

/-- The workflows that `advance` makes requests from: as they are read, and read again past a
step with nothing to do. -/
inductive Loaded (env : Env) (db : Db) (workflowId : String) : Workflow → Prop
  | read {w : Workflow} (hw : snapshot db workflowId = some w) : Loaded env db workflowId w
  | past {w after : Workflow} {step : Step} {eventId reason : String}
      (hw : snapshot db workflowId = some w) (hnext : w.nextPending = some step)
      (hevent : dispatchEvent env eventId w step = .error (.noWorkToDo reason))
      (hafter : snapshot (skipped db step reason) workflowId = some after) :
      Loaded env db workflowId after

theorem moved_of_loaded (h : Loaded env db workflowId w) :
    ∃ t, t.workflows = db.workflows ∧ Moved env traffic db t ∧ snapshot t workflowId = some w := by
  cases h with
  | read hw => exact ⟨db, rfl, .refl db, hw⟩
  | past hw hnext hevent hafter =>
      exact ⟨skipped db _ _, rfl, moved_skipped hw hnext hevent, hafter⟩

theorem countP_steps (hw : snapshot t workflowId = some w) :
    (w.steps.filter fun x => x.kind = .competitorCrawl).length =
      (planOf t workflowId).countP fun p => p.kind = .competitorCrawl := by
  rw [steps_of_snapshot hw, ← List.countP_eq_length_filter]
  unfold Db.stepsOf planOf
  rw [(byPosition_perm _).countP_eq, List.countP_map, List.countP_map]
  rfl

theorem provided_of_moved {row : WorkflowRow} (hkeeps : KeepsContracts traffic)
    (hrecorded : AllRecorded env traffic db) (hplanned : PlannedFrom env traffic db row)
    (hrow : row ∈ db.workflows.rows) (haccepts : acceptsInputs row.inputs = true)
    (hworkflows : t.workflows = db.workflows) (hmoved : Moved env traffic db t)
    (hw : snapshot t row.id = some w) : Provided w := by
  have hinputs : w.inputs = row.inputs := by
    obtain ⟨other, hother, hid, rfl⟩ := snapshot_eq_some.mp hw
    rw [hworkflows] at hother
    rw [eq_of_id hother hrow hid]
    rfl
  have hsame : planOf t row.id = planOf db row.id := by
    obtain ⟨f, hrows, hmoves⟩ := hmoved
    exact planOf_of_moved hrows hmoves row.id
  obtain ⟨request, jobIds, -, hplan, -, -, hasked, -, -⟩ := hplanned
  rw [← hasked, ← hsame] at hplan
  obtain ⟨hcrawls, hfew⟩ := crawls_of_plan haccepts hplan
  refine ⟨hinputs ▸ haccepts, fun x hx => ?_, fun x hx hkind => ?_, ?_⟩
  · obtain ⟨r, hr, -, rfl⟩ := (mem_steps_of_snapshot hw).mp hx
    exact Announcement.typed_of_recorded (hmoved.allRecorded hrecorded r hr) hkeeps
  · obtain ⟨r, hr, hown, rfl⟩ := (mem_steps_of_snapshot hw).mp hx
    exact hcrawls (plannedOf r) (mem_planOf.mpr ⟨r, hr, hown, rfl⟩) hkind
  · rw [countP_steps hw]
    exact hfew

theorem provided_of_run {past : List (System × Label)} {u : System}
    (run : Run (step env) System.initial past u) (hvalid : ContractValid past) {row : WorkflowRow}
    (hrow : row ∈ u.db.workflows.rows) (haccepts : acceptsInputs row.inputs = true)
    (hloaded : Loaded env u.db row.id w) : Provided w := by
  have hcarries := carries_delivered past
  have hkeeps := keepsContracts_delivered hvalid
  obtain ⟨t, hworkflows, hmoved, hw⟩ := moved_of_loaded hloaded
  exact provided_of_moved hkeeps (allRecorded_of_run run hcarries)
    (allPlanned_of_run run hcarries row hrow) hrow haccepts hworkflows hmoved hw

/-- The row of a schedule of the API with these inputs. -/
structure ScheduledWith (inputs : Inputs) (row : Schedules.Schedule) : Prop where
  goal : row.goal = "site_audit"
  inputs : row.inputs = inputs.toDict

theorem deactivated_iff {host : Schedules.Host} {wording : Wording} {inputs : Inputs}
    {row : Schedules.Schedule} (haccepts : acceptsInputs inputs = true)
    (h : ScheduledWith inputs row) (scheduledId eventId : String) (now : Int) :
    Schedules.fireRow host wording row scheduledId eventId now = .ok (.deactivated row) ↔
      ¬ FitsRequest inputs := by
  have hfits : BadSchedules.Fits row ↔ FitsRequest inputs := by
    unfold BadSchedules.Fits Schedules.workflowRequest
    rw [h.goal, h.inputs]
    exact valid_iff_fits haccepts
  rw [← hfits]
  constructor
  · intro hfired hrow
    rw [BadSchedules.fireRow_of_fits hrow] at hfired
    cases hnext : Schedules.catchUp host row now with
    | error e =>
        rw [hnext] at hfired
        cases hfired
    | ok next =>
        rw [hnext] at hfired
        cases hfired
  · exact fun hrow => BadSchedules.fireRow_of_unfit hrow _ _

/-- What the API accepts is carried exactly where the texts of the inputs, and those that a
step asks with, are short enough. -/
theorem accepted_carried_iff (env : Env) (host : Schedules.Host) {inputs : Inputs}
    (haccepts : acceptsInputs inputs = true) :
    (∀ workflowId, Valid .workflowRequested (workflowRequest workflowId "site_audit" inputs) ↔
        FitsRequest inputs) ∧
      (∀ row, ScheduledWith inputs row → ∀ workflowId eventId now,
        Schedules.fireRow host env.wording row workflowId eventId now = .ok (.deactivated row) ↔
          ¬ FitsRequest inputs) ∧
      ∀ past u, Run (step env) System.initial past u → ContractValid past →
        ∀ row ∈ u.db.workflows.rows, row.inputs = inputs → ∀ w, Loaded env u.db row.id w →
          ∀ x ∈ w.steps, Carried env w x ↔ StepFits env w x.kind := by
  refine ⟨fun workflowId => valid_iff_fits haccepts, fun row hrow workflowId eventId now =>
    deactivated_iff haccepts hrow workflowId eventId now, ?_⟩
  rintro past u run hvalid row hrow rfl w hloaded x hx
  exact carried_iff (provided_of_run run hvalid hrow haccepts hloaded) env hx

/-- The inputs of an audit with the defaults filled in. -/
def persianSite : Inputs := { oneSite with lang := some "fa", country := some "IR" }

theorem accepted_carried_iff_persianSite :
    Valid .workflowRequested (workflowRequest "w" "site_audit" persianSite) := by
  have hcarried := accepted_carried_iff asciiEnv BadSchedules.updatedHost
    (show acceptsInputs persianSite = true by decide +kernel)
  exact (hcarried.1 "w").mpr ⟨by decide, by decide, by decide⟩

/-- Inputs with a language of twelve characters. -/
def namedLanguage : Inputs := { persianSite with lang := some "persian-iran" }

def namedSchedule : Schedules.Schedule where
  id := "s"
  tenantId := none
  projectId := none
  goal := "site_audit"
  inputs := namedLanguage.toDict
  cadence := "daily"
  nextRunAt := 0
  checked := by decide

theorem accepted_not_carried :
    accepts asciiRules "site_audit" namedLanguage = true ∧
      ¬ Valid .workflowRequested (workflowRequest "w" "site_audit" namedLanguage) ∧
      Schedules.fireRow BadSchedules.updatedHost asciiEnv.wording namedSchedule "w" "e" 0 =
        .ok (.deactivated namedSchedule) := by
  have haccepts : acceptsInputs namedLanguage = true := by decide +kernel
  have hlong : ¬ FitsRequest namedLanguage := fun h => absurd h.lang (by decide)
  refine ⟨by decide +kernel, fun hvalid => hlong ((valid_iff_fits haccepts).mp hvalid), ?_⟩
  exact (deactivated_iff haccepts ⟨rfl, rfl⟩ "w" "e" 0).mpr hlong

end Runs

end SeoPlatform.Orchestrator.Payloads
