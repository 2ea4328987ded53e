import SeoPlatform.Optimizer.Covering
import SeoPlatform.Optimizer.Titles
import SeoPlatform.Orchestrator.Planner

namespace SeoPlatform.Optimizer.Rewriting

open SeoPlatform.Foundation.JsonValue
open SeoPlatform.Foundation.Mapping
open SeoPlatform.Foundation.UrlText
open SeoPlatform.Optimizer.Covering
open SeoPlatform.Optimizer.Titles (titleMax)
open SeoPlatform.Orchestrator.Planner (iterate)
open SeoPlatform.Shared.Exceptions
open SeoPlatform.Shared.Text

section Briefs

def titleMin : Nat := 25
def descMin : Nat := 70
def descMax : Nat := 160

/-- What of a page is rewritten. -/
inductive Field where
  | title
  | description
  | h1
  deriving DecidableEq

def Field.name : Field → String
  | .title => "title"
  | .description => "description"
  | .h1 => "h1"

def Field.limits : Field → Nat × Nat
  | .title => (titleMin, titleMax)
  | .description => (descMin, descMax)
  | .h1 => (0, 0)

/-- One thing to change on a page, and what the change has to meet. -/
structure Fix where
  field : Field
  problem : String
  current : String
  candidate : Option String
  keyword : Option String
  minLength : Option Nat
  maxLength : Option Nat
  whyFa : String
  writtenBy : Option String := none

/-- `n or None`. -/
def orNone (n : Nat) : Option Nat := if n = 0 then none else some n

/-- `_fix`. -/
def fixOf (field : Field) (problem current : String) (candidate keyword : Option String)
    (why : String) : Fix where
  field := field
  problem := problem
  current := current
  candidate := candidate
  keyword := keyword
  minLength := orNone field.limits.1
  maxLength := orNone field.limits.2
  whyFa := why

structure Plan where
  url : String
  keyword : Option String
  demand : Int
  words : Int
  fixes : List Fix
  source : String := "rules"
  note : Option String := none

/-- The plan is as the rules make it. -/
def Built (plan : Plan) : Prop :=
  plan.source = "rules" ∧ ∀ fix ∈ plan.fixes, ∃ field problem current candidate keyword why,
    fix = fixOf field problem current candidate keyword why

end Briefs

section Rewrites

-- `shown` is `str` of what is no text
variable (unicode : Unicode) (shown : Json → String)

/-- `str(value)`. -/
def shownText : Json → String
  | .str s => s
  | v => shown v

/-- What the model wrote, by page and field. -/
def byKey (rewrites : List Json) : Dictionary (String × String) Dict :=
  .ofPairs (rewrites.filterMap fun
    | .obj fields => some ((shownText shown (Dict.get fields "url"),
        shownText shown (Dict.get fields "field")), fields)
    | _ => none)

/-- A limit that is set. -/
def limit (n : Option Nat) : Option Nat := n.filter (· ≠ 0)

/-- Whether a text meets the brief. -/
def accepts (fix : Fix) (text : String) : Bool :=
  if text = "" then false
  else if (limit fix.maxLength).any (· < text.length) then false
  else if (limit fix.minLength).any (text.length < ·) then false
  else
    match fix.keyword.filter (· ≠ "") with
    | some keyword => covers unicode text keyword
    | none => true

def textOf (written : Dict) : String :=
  strip (shownText shown ((Dict.get written "text").orElse (.str "")))

/-- The fix as the model wrote it, where what it wrote is accepted. -/
def rewriteOf (written : Dictionary (String × String) Dict) (url : String) (fix : Fix) :
    Option Fix :=
  (written.get? (url, fix.field.name)).bind fun fields =>
    let text := textOf shown fields
    if accepts unicode fix text then
      some { fix with
        candidate := some text
        writtenBy := some "ai"
        whyFa := strip (fix.whyFa ++ " " ++
          shownText shown (Dict.getD fields "why_fa" (.str ""))) }
    else none

def rewritePlan (written : Dictionary (String × String) Dict) (plan : Plan) : Plan :=
  let rewritten := rewriteOf unicode shown written plan.url
  { plan with
    fixes := plan.fixes.map fun fix => (rewritten fix).getD fix
    source := if plan.fixes.any fun fix => (rewritten fix).isSome then "ai" else "rules" }

/-- `_apply`. -/
def applyRewrites (plans : List Plan) (rewrites : List Json) : List Plan :=
  plans.map (rewritePlan unicode shown (byKey shown rewrites))

def noted (plans : List Plan) (note : String) : List Plan :=
  plans.map fun plan => { plan with note := some note }

/-- `enrich`. The model was not asked, was unavailable for a reason, or gave an answer. -/
def enrich (asked : Option (Except String Dict)) (plans : List Plan) :
    Except Exn (List Plan) :=
  if plans.isEmpty then .ok plans
  else
    match asked with
    | none => .ok (noted plans "ANTHROPIC_API_KEY تنظیم نشده؛ فقط دستورالعمل نوشته شد.")
    | some (.error reason) => .ok (noted plans ("بازنویسی با مدل انجام نشد: " ++ reason))
    | some (.ok answer) =>
        (iterate ((Dict.get answer "rewrites").orElse (.arr []))).map
          (applyRewrites unicode shown plans)

end Rewrites

section Specification

variable (unicode : Unicode)

/-- A text meets the brief of a fix. -/
structure Meets (fix : Fix) (text : String) : Prop where
  written : text ≠ ""
  atLeast : ∀ n, fix.minLength = some n → n ≤ text.length
  atMost : ∀ n, fix.maxLength = some n → text.length ≤ n
  covered : ∀ keyword, fix.keyword = some keyword → keyword ≠ "" → covers unicode text keyword

/-- A fix after the rewriting: written by the model to its brief, or unchanged. -/
def Answered (fix fix' : Fix) : Prop :=
  fix' = fix ∨ ∃ text why, Meets unicode fix text ∧
    fix' = { fix with candidate := some text, writtenBy := some "ai", whyFa := why }

structure Faithful (plan plan' : Plan) : Prop where
  url : plan'.url = plan.url
  keyword : plan'.keyword = plan.keyword
  demand : plan'.demand = plan.demand
  words : plan'.words = plan.words
  fixes : List.Forall₂ (Answered unicode) plan.fixes plan'.fixes
  source : plan'.source = "ai" ↔ ∃ fix ∈ plan'.fixes, fix.writtenBy = some "ai"

/-- What can be gone through, or is as good as nothing. -/
def Listable (value : Json) : Prop := value.truthy = false ∨ (iterate value).isOk = true

end Specification

section Proofs

variable {unicode : Unicode} {shown : Json → String}

theorem limit_orNone (n : Nat) : limit (orNone n) = orNone n := by
  unfold limit orNone
  split
  · rfl
  · rename_i hn
    rw [Option.filter_some, if_pos (decide_eq_true hn)]

/-- What is accepted meets the brief. -/
theorem meets_of_accepts {fix : Fix} {text : String} (hmin : limit fix.minLength = fix.minLength)
    (hmax : limit fix.maxLength = fix.maxLength) (h : accepts unicode fix text = true) :
    Meets unicode fix text := by
  unfold accepts at h
  rw [hmin, hmax] at h
  simp only [Bool.if_false_left, Bool.and_eq_true, Bool.not_eq_true', decide_eq_false_iff_not,
    Bool.not_eq_true] at h
  obtain ⟨hwritten, hmost, hleast, hcovered⟩ := h
  refine ⟨hwritten, fun n hn => ?_, fun n hn => ?_, fun keyword hkeyword hsome => ?_⟩
  · rw [hn] at hleast
    exact Nat.le_of_not_lt (of_decide_eq_false hleast)
  · rw [hn] at hmost
    exact Nat.le_of_not_lt (of_decide_eq_false hmost)
  · rw [hkeyword, Option.filter_some, if_pos (decide_eq_true hsome)] at hcovered
    exact hcovered

theorem rewriteOf_spec {written : Dictionary (String × String) Dict} {url : String}
    {fix fix' : Fix} (hmin : limit fix.minLength = fix.minLength)
    (hmax : limit fix.maxLength = fix.maxLength)
    (h : rewriteOf unicode shown written url fix = some fix') :
    ∃ text why, Meets unicode fix text ∧
      fix' = { fix with candidate := some text, writtenBy := some "ai", whyFa := why } := by
  unfold rewriteOf at h
  obtain ⟨fields, -, hfields⟩ := Option.bind_eq_some_iff.mp h
  obtain ⟨haccepted, hfix⟩ := Option.ite_none_right_eq_some.mp hfields
  exact ⟨_, _, meets_of_accepts hmin hmax haccepted, (Option.some.inj hfix).symm⟩

theorem answered_rewritten {written : Dictionary (String × String) Dict} {url : String}
    {fix : Fix} (hmin : limit fix.minLength = fix.minLength)
    (hmax : limit fix.maxLength = fix.maxLength) :
    Answered unicode fix ((rewriteOf unicode shown written url fix).getD fix) := by
  cases hfix : rewriteOf unicode shown written url fix with
  | none => exact .inl rfl
  | some fix' => exact .inr (rewriteOf_spec hmin hmax hfix)

/-- Every plan comes out to its briefs, and says whether the model wrote any of it. -/
theorem faithful_rewritePlan (written : Dictionary (String × String) Dict) {plan : Plan}
    (h : Built plan) : Faithful unicode plan (rewritePlan unicode shown written plan) := by
  obtain ⟨-, hfixes⟩ := h
  have hlimits : ∀ fix ∈ plan.fixes,
      limit fix.minLength = fix.minLength ∧ limit fix.maxLength = fix.maxLength := by
    intro fix hfix
    obtain ⟨field, problem, current, candidate, keyword, why, rfl⟩ := hfixes fix hfix
    exact ⟨limit_orNone _, limit_orNone _⟩
  refine ⟨rfl, rfl, rfl, rfl, ?_, ?_⟩
  · show List.Forall₂ _ plan.fixes (plan.fixes.map _)
    rw [List.forall₂_map_right_iff, List.forall₂_same]
    exact fun fix hfix => answered_rewritten (hlimits fix hfix).1 (hlimits fix hfix).2
  · have hany : (rewritePlan unicode shown written plan).source = "ai" ↔
        ∃ fix ∈ plan.fixes, (rewriteOf unicode shown written plan.url fix).isSome = true := by
      rw [← List.any_eq_true]
      unfold rewritePlan
      dsimp only
      split
      · rename_i hsome
        exact iff_of_true rfl hsome
      · rename_i hnone
        exact iff_of_false (by decide) hnone
    have hmem : ∀ fix', fix' ∈ (rewritePlan unicode shown written plan).fixes ↔
        ∃ fix ∈ plan.fixes, (rewriteOf unicode shown written plan.url fix).getD fix = fix' :=
      fun fix' => List.mem_map
    rw [hany]
    constructor
    · rintro ⟨fix, hfix, hsome⟩
      obtain ⟨fix', hfix'⟩ := Option.isSome_iff_exists.mp hsome
      obtain ⟨text, why, -, rfl⟩ :=
        rewriteOf_spec (hlimits fix hfix).1 (hlimits fix hfix).2 hfix'
      exact ⟨_, (hmem _).mpr ⟨fix, hfix, by rw [hfix', Option.getD_some]⟩, rfl⟩
    · rintro ⟨fix', hfix', hai⟩
      obtain ⟨fix, hfix, rfl⟩ := (hmem fix').mp hfix'
      refine ⟨fix, hfix, ?_⟩
      cases hrewrite : rewriteOf unicode shown written plan.url fix with
      | some fix' => rfl
      | none =>
          rw [hrewrite, Option.getD_none] at hai
          obtain ⟨field, problem, current, candidate, keyword, why, rfl⟩ := hfixes fix hfix
          cases hai

theorem faithful_noted {plan : Plan} (h : Built plan) (note : String) :
    Faithful unicode plan { plan with note := some note } := by
  obtain ⟨hsource, hfixes⟩ := h
  refine ⟨rfl, rfl, rfl, rfl, List.forall₂_same.mpr fun fix _ => .inl rfl, ?_⟩
  refine iff_of_false ?_ ?_
  · show plan.source ≠ "ai"
    rw [hsource]
    decide
  · rintro ⟨fix, hfix, hai⟩
    obtain ⟨field, problem, current, candidate, keyword, why, rfl⟩ := hfixes fix hfix
    cases hai

theorem faithful_map {plans : List Plan} {f : Plan → Plan}
    (h : ∀ plan ∈ plans, Faithful unicode plan (f plan)) :
    List.Forall₂ (Faithful unicode) plans (plans.map f) := by
  rw [List.forall₂_map_right_iff, List.forall₂_same]
  exact h

theorem isOk_iterate_iff {value : Json} :
    (iterate (value.orElse (.arr []))).isOk = true ↔ Listable value := by
  unfold Listable Json.orElse
  cases h : value.truthy with
  | false => exact iff_of_true rfl (.inl rfl)
  | true => rw [if_pos rfl, or_iff_right (by simp)]

end Proofs

section Examples

/-- A page whose title is too short. -/
def shortTitle : Plan where
  url := "https://a.ir/"
  keyword := none
  demand := 0
  words := 300
  fixes := [fixOf .title "too_short" "Shoes" none none ""]

theorem built_shortTitle : Built shortTitle := by
  refine ⟨rfl, fun fix hfix => ?_⟩
  obtain rfl := List.mem_singleton.mp hfix
  exact ⟨.title, "too_short", "Shoes", none, none, "", rfl⟩

def longerTitle : Option (Except String Dict) :=
  some (.ok [("rewrites", .arr [.obj
    [("url", .str "https://a.ir/"), ("field", .str "title"),
     ("text", .str "Running shoes for the long road")]])])

example : (enrich plainUnicode (fun _ => "") longerTitle [shortTitle]).map
    (List.map Plan.source) = .ok ["ai"] := by decide +kernel

end Examples

end SeoPlatform.Optimizer.Rewriting
