import SeoPlatform.Engine.Keywords
import SeoPlatform.Shared.Exceptions

namespace SeoPlatform.Engine.Research

open SeoPlatform.Engine.Keywords
open SeoPlatform.Foundation.Doubles
open SeoPlatform.Foundation.JsonValue
open SeoPlatform.Foundation.Mapping
open SeoPlatform.Foundation.Rounding
open SeoPlatform.Foundation.UrlText
open SeoPlatform.Shared.Exceptions
open SeoPlatform.Shared.Text (Unicode splitWords)

/-- A line of the dropdown of an engine. -/
structure Suggestion where
  keyword : String
  source : String
  position : Int
  deriving DecidableEq, Repr

/-- What a study is asked for. -/
structure KeywordConfig where
  seed : String
  lang : String := "fa"
  country : String := "IR"
  maxKeywords : Nat := 200

structure KeywordReport where
  seed : String
  lang : String
  country : String
  keywords : List Keyword := []
  clusters : List Cluster := []

section Collecting

variable (rules : TextRules)

def noted (keyword : Keyword) (suggestion : Suggestion) : Keyword :=
  { keyword with
    sources := insert suggestion.source keyword.sources
    hits := keyword.hits + 1
    bestPosition := min keyword.bestPosition suggestion.position }

/-- A suggestion is kept once whatever its case, in the spelling it came in first. -/
def collectOne (collected : Dictionary String Keyword) (suggestion : Suggestion) :
    Dictionary String Keyword :=
  let text := strip suggestion.keyword
  if text = "" ∨ text.length < 2 then collected
  else
    let existing := (collected.get? (rules.lower text)).getD { keyword := text }
    collected.set (rules.lower text) (noted existing suggestion)

/-- The answers to the queries, by turns. Those that failed are left out. -/
def collect (answers : List (Except Exn (List Suggestion))) : Dictionary String Keyword :=
  (answers.flatMap fun answer =>
    match answer with
    | .ok suggestions => suggestions
    | .error _ => []).foldl (collectOne rules) .empty

end Collecting

section Ranking

/-- More demand first, then more hits, then by the text. -/
def Before (a b : Keyword) : Prop :=
  b.demandScore < a.demandScore ∨ a.demandScore = b.demandScore ∧
    (b.hits < a.hits ∨ a.hits = b.hits ∧ a.keyword ≤ b.keyword)

instance : DecidableRel Before := fun a b =>
  inferInstanceAs (Decidable (b.demandScore < a.demandScore ∨ a.demandScore = b.demandScore ∧
    (b.hits < a.hits ∨ a.hits = b.hits ∧ a.keyword ≤ b.keyword)))

variable (rules : TextRules) (unicode : Unicode)

def brandTerms (seed : String) : List String :=
  (splitWords seed).filter fun t => 3 < t.length

def classified (seed : String) (keyword : Keyword) : Keyword :=
  { keyword with intent := classifyIntent rules unicode keyword.keyword (brandTerms seed) }

/-- The keywords that were collected, the ones with the most demand first. -/
def ranked (seed : String) (answers : List (Except Exn (List Suggestion))) : List Keyword :=
  ((collect rules answers).values.map (classified rules unicode seed)).insertionSort Before

/-- The study, once the engines have answered. -/
def research (config : KeywordConfig) (answers : List (Except Exn (List Suggestion))) :
    KeywordReport :=
  let seed := strip config.seed
  if seed = "" then { seed := seed, lang := config.lang, country := config.country }
  else
    let keywords := (ranked rules unicode seed answers).take config.maxKeywords
    { seed := seed
      lang := config.lang
      country := config.country
      keywords := keywords
      clusters := cluster rules unicode keywords seed }

end Ranking

section Payload

variable (unicode : Unicode)

def topKeyword (keyword : Keyword) : Json :=
  .obj
    [("keyword", .str keyword.keyword),
     ("demand", .int keyword.demandScore),
     ("opportunity", .int (keyword.opportunityScore unicode)),
     ("intent", .str keyword.intent)]

/-- The payload of `keyword.researched`. A study that failed has no report. -/
def researchedPayload (researchId seed : String) (report : Option KeywordReport)
    (status : String) (error : Option String) : Dict :=
  let keywords := (report.map KeywordReport.keywords).getD []
  [("research_id", .str researchId),
   ("seed", .str seed),
   ("lang", .str ((report.map KeywordReport.lang).getD "")),
   ("country", .str ((report.map KeywordReport.country).getD "")),
   ("status", .str status),
   ("error", Json.ofOption .str error),
   ("total", .int keywords.length),
   ("cluster_count", .int ((report.map KeywordReport.clusters).getD []).length),
   ("top_keywords", .arr ((keywords.take 25).map (topKeyword unicode))),
   ("result_url", .str ("/v1/research/" ++ researchId))]

end Payload

section Study

variable {rules : TextRules} {unicode : Unicode}

/-- Each keyword is kept under its text in small letters, and the text is stripped and
not empty. -/
def Kept (rules : TextRules) (entry : String × Keyword) : Prop :=
  entry.1 = rules.lower entry.2.keyword ∧ strip entry.2.keyword = entry.2.keyword ∧
    entry.2.keyword ≠ ""

theorem kept_collectOne {collected : Dictionary String Keyword} (suggestion : Suggestion)
    (h : ∀ entry ∈ collected.entries, Kept rules entry) :
    ∀ entry ∈ (collectOne rules collected suggestion).entries, Kept rules entry := by
  intro entry hentry
  unfold collectOne at hentry
  dsimp only at hentry
  split at hentry
  · exact h entry hentry
  · rename_i hlong
    rcases Dictionary.mem_entries_set hentry with rfl | hold
    · cases hexisting : collected.get? (rules.lower (strip suggestion.keyword)) with
      | none =>
          rw [Option.getD_none]
          refine ⟨rfl, strip_strip _, ?_⟩
          intro hnone
          exact hlong (Or.inl hnone)
      | some existing =>
          have hheld : Kept rules (rules.lower (strip suggestion.keyword), existing) :=
            h _ (Dictionary.get?_eq_some_iff.mp hexisting)
          exact hheld
    · exact h entry hold

variable (rules) in
theorem kept_collect (answers : List (Except Exn (List Suggestion))) :
    ∀ entry ∈ (collect rules answers).entries, Kept rules entry := by
  unfold collect
  generalize answers.flatMap _ = suggestions
  have hfold : ∀ collected : Dictionary String Keyword,
      (∀ entry ∈ collected.entries, Kept rules entry) →
        ∀ entry ∈ (suggestions.foldl (collectOne rules) collected).entries,
          Kept rules entry := by
    induction suggestions with
    | nil => exact fun _ h => h
    | cons suggestion rest ih =>
        intro collected h
        rw [List.foldl_cons]
        exact ih _ (kept_collectOne suggestion h)
  exact hfold .empty (List.forall_mem_nil _)

/-- The keywords of a study have texts of their own, which are stripped and not empty. -/
structure Distinct (keywords : List Keyword) : Prop where
  texts : (keywords.map Keyword.keyword).Nodup
  stripped : ∀ keyword ∈ keywords, strip keyword.keyword = keyword.keyword
  some : ∀ keyword ∈ keywords, keyword.keyword ≠ ""

variable (rules unicode) in
theorem distinct_ranked (seed : String) (answers : List (Except Exn (List Suggestion))) :
    Distinct (ranked rules unicode seed answers) := by
  have hkept := kept_collect rules answers
  have hperm : (ranked rules unicode seed answers).Perm
      ((collect rules answers).values.map (classified rules unicode seed)) :=
    List.perm_insertionSort _ _
  have htexts : ((collect rules answers).values.map
      (classified rules unicode seed)).map Keyword.keyword =
        (collect rules answers).entries.map fun entry => entry.2.keyword := by
    unfold Dictionary.values
    rw [List.map_map, List.map_map]
    rfl
  have hentry : ∀ keyword ∈ ranked rules unicode seed answers,
      ∃ entry ∈ (collect rules answers).entries, keyword.keyword = entry.2.keyword := by
    intro keyword hkeyword
    obtain ⟨held, hheld, rfl⟩ := List.mem_map.mp (hperm.subset hkeyword)
    obtain ⟨entry, hentry, rfl⟩ := List.mem_map.mp hheld
    exact ⟨entry, hentry, rfl⟩
  constructor
  · rw [(hperm.map Keyword.keyword).nodup_iff, htexts]
    apply List.Nodup.of_map rules.lower
    rw [List.map_map]
    have hkeys : (collect rules answers).entries.map
        (rules.lower ∘ fun entry => entry.2.keyword) = (collect rules answers).keys := by
      apply List.map_congr_left
      intro entry hentry
      exact (hkept entry hentry).1.symm
    rw [hkeys]
    exact (collect rules answers).nodup_keys
  · intro keyword hkeyword
    obtain ⟨entry, hentry, htext⟩ := hentry keyword hkeyword
    rw [htext]
    exact (hkept entry hentry).2.1
  · intro keyword hkeyword
    obtain ⟨entry, hentry, htext⟩ := hentry keyword hkeyword
    rw [htext]
    exact (hkept entry hentry).2.2

theorem distinct_research (config : KeywordConfig)
    (answers : List (Except Exn (List Suggestion))) :
    Distinct (research rules unicode config answers).keywords := by
  unfold research
  dsimp only
  split
  · exact ⟨List.nodup_nil, by simp, by simp⟩
  · have h := distinct_ranked rules unicode (strip config.seed) answers
    constructor
    · exact ((List.take_sublist _ _).map Keyword.keyword).nodup h.texts
    · exact fun keyword hkeyword => h.stripped keyword (List.mem_of_mem_take hkeyword)
    · exact fun keyword hkeyword => h.some keyword (List.mem_of_mem_take hkeyword)

end Study

section Order

variable {rules : TextRules} {unicode : Unicode}

instance : Std.Total Before where
  total a b := by
    unfold Before
    rcases lt_trichotomy a.demandScore b.demandScore with hless | heq | hmore
    · exact Or.inr (Or.inl hless)
    · rcases lt_trichotomy a.hits b.hits with hfewer | hsame | hmany
      · exact Or.inr (Or.inr ⟨heq.symm, Or.inl hfewer⟩)
      · rcases le_total a.keyword b.keyword with htext | htext
        · exact Or.inl (Or.inr ⟨heq, Or.inr ⟨hsame, htext⟩⟩)
        · exact Or.inr (Or.inr ⟨heq.symm, Or.inr ⟨hsame.symm, htext⟩⟩)
      · exact Or.inl (Or.inr ⟨heq, Or.inl hmany⟩)
    · exact Or.inl (Or.inl hmore)

instance : IsTrans Keyword Before where
  trans a b c := by
    rintro (hab | ⟨hab, hhits | ⟨hhits, htext⟩⟩) (hbc | ⟨hbc, hhits' | ⟨hhits', htext'⟩⟩)
    · exact Or.inl (hbc.trans hab)
    · exact Or.inl (hbc.symm.trans_lt hab)
    · exact Or.inl (hbc.symm.trans_lt hab)
    · exact Or.inl (hbc.trans_eq hab.symm)
    · exact Or.inr ⟨hab.trans hbc, Or.inl (hhits'.trans hhits)⟩
    · exact Or.inr ⟨hab.trans hbc, Or.inl (hhits'.symm.trans_lt hhits)⟩
    · exact Or.inl (hbc.trans_eq hab.symm)
    · exact Or.inr ⟨hab.trans hbc, Or.inl (hhits'.trans_eq hhits.symm)⟩
    · exact Or.inr ⟨hab.trans hbc, Or.inr ⟨hhits.trans hhits', htext.trans htext'⟩⟩

theorem Before.demandScore_le {a b : Keyword} (h : Before a b) :
    b.demandScore ≤ a.demandScore := by
  rcases h with hless | ⟨heq, -⟩
  · exact hless.le
  · exact heq.ge

theorem pairwise_research (config : KeywordConfig)
    (answers : List (Except Exn (List Suggestion))) :
    (research rules unicode config answers).keywords.Pairwise Before := by
  unfold research
  dsimp only
  split
  · exact List.Pairwise.nil
  · exact (List.pairwise_insertionSort Before _).sublist (List.take_sublist _ _)

/-- The longer of two phrases has no less opportunity where it has no less demand. -/
theorem opportunityScore_mono {a b : Keyword} (hdemand : a.demandScore ≤ b.demandScore)
    (hwords : a.wordCount unicode ≤ b.wordCount unicode) :
    a.opportunityScore unicode ≤ b.opportunityScore unicode := by
  have hbonus : double (double ((min (a.wordCount unicode) 6 : Nat) / 6) * 30) ≤
      double (double ((min (b.wordCount unicode) 6 : Nat) / 6) * 30) := by
    apply double_mono
    apply mul_le_mul_of_nonneg_right _ (by norm_num)
    apply double_mono
    apply div_le_div_of_nonneg_right _ (by norm_num)
    exact_mod_cast min_le_min_right 6 hwords
  have hpenalty : (if b.wordCount unicode ≤ 2 then 15 else 0 : Rat) ≤
      if a.wordCount unicode ≤ 2 then 15 else 0 := by
    split_ifs
    · exact le_refl _
    · omega
    · norm_num
    · exact le_refl _
  have hfactor : (0 : Rat) ≤ double (7 / 10) := by decide +kernel
  have hweighed : double (a.demandScore * double (7 / 10)) ≤
      double (b.demandScore * double (7 / 10)) := by
    apply double_mono
    apply mul_le_mul_of_nonneg_right _ hfactor
    exact_mod_cast hdemand
  unfold Keyword.opportunityScore
  apply max_le_max_left
  apply min_le_min_left
  apply roundEven_mono
  apply double_mono
  exact sub_le_sub (double_mono (add_le_add hweighed hbonus)) hpenalty

end Order

end SeoPlatform.Engine.Research
