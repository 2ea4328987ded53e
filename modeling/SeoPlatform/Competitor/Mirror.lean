import SeoPlatform.Competitor.SmallSamples
import SeoPlatform.Engine.AuditReport

namespace SeoPlatform.Competitor.Mirror

open SeoPlatform.Competitor.Analyze
open SeoPlatform.Competitor.SmallSamples
open SeoPlatform.Engine.AuditReport (Report pageRow)
open SeoPlatform.Foundation.ExceptFlow
open SeoPlatform.Foundation.JsonValue
open SeoPlatform.Foundation.Rounding
open SeoPlatform.Foundation.UrlText (TextRules)
open SeoPlatform.InternalLinks.Building (Reader int_nat)
open SeoPlatform.InternalLinks.Reported (plainReader)
open SeoPlatform.Orchestrator.Engine (asDict)
open SeoPlatform.Shared.Exceptions
open SeoPlatform.Shared.Text

section Swaps

def mirror : Standing → Standing
  | .level => .level
  | .ahead => .behind
  | .behind => .ahead

/-- Two verdicts on a metric, seen from both sides. -/
structure Mirrored (v w : Verdict) : Prop where
  metric : w.metric = v.metric
  difference : w.difference = -v.difference
  verdict : w.verdict = mirror v.verdict

/-- The words of a page are a count, as the crawler reports them. -/
def Counted (reader : Reader) (report : Dict) : Prop :=
  ∀ site, buildSite reader report = .ok site → ∀ page ∈ site.pages, 0 ≤ page.wordCount

end Swaps

variable {reader : Reader} {unicode : Unicode}

section Rates

theorem median_single (x : Rat) : median id [x] = x := by
  simp [median]

/-- A rate has one digit after the point. -/
theorem roundTenth_of_rate {pages : List Page} {predicate : Page → Except Exn Bool} {value : Rat}
    (h : rate id pages predicate = .ok value) : roundTenth value = value := by
  unfold rate at h
  split at h
  · obtain rfl := Except.ok.inj h
    decide +kernel
  · obtain ⟨marks, -, h⟩ := ok_of_bind h
    obtain rfl := Except.ok.inj h
    exact roundTenth_roundTenth _

theorem roundTenth_of_metric {site : Site} {made : Profile}
    (h : profile id reader site = .ok made) {metric : Metric} (hmetric : metric ∈ metrics) :
    roundTenth (metric.value made) = metric.value made := by
  unfold profile at h
  obtain ⟨titled, htitled, h⟩ := ok_of_bind h
  obtain ⟨titleInRange, hinRange, h⟩ := ok_of_bind h
  obtain ⟨described, hdescribed, h⟩ := ok_of_bind h
  obtain ⟨hasH1, hhasH1, h⟩ := ok_of_bind h
  obtain ⟨thin, hthin, h⟩ := ok_of_bind h
  obtain rfl := Except.ok.inj h
  simp only [metrics, List.mem_cons, List.not_mem_nil, or_false] at hmetric
  rcases hmetric with rfl | rfl | rfl | rfl | rfl
  · exact roundTenth_of_rate htitled
  · exact roundTenth_of_rate hinRange
  · exact roundTenth_of_rate hdescribed
  · exact roundTenth_of_rate hhasH1
  · exact roundTenth_of_rate hthin

/-- What a difference says, where more is better or less is. -/
def standingOf (higher : Bool) (gap : Rat) : Standing :=
  if |gap| < rateMargin then .level
  else if (if higher then decide (0 < gap) else decide (gap < 0)) = true then .ahead else .behind

theorem standingOf_neg (higher : Bool) (gap : Rat) :
    standingOf higher (-gap) = mirror (standingOf higher gap) := by
  unfold standingOf
  rw [abs_neg]
  by_cases hlevel : |gap| < rateMargin
  · rw [if_pos hlevel, if_pos hlevel]
    rfl
  · have hne : gap ≠ 0 := by
      rintro rfl
      exact hlevel (by decide +kernel)
    rw [if_neg hlevel, if_neg hlevel]
    rcases lt_or_gt_of_ne hne with hless | hmore
    · have hnot : ¬ 0 < gap := not_lt_of_gt hless
      cases higher <;> simp [hless, hnot, mirror]
    · have hnot : ¬ gap < 0 := not_lt_of_gt hmore
      cases higher <;> simp [hmore, hnot, mirror]

/-- Against one site the difference is that of the two rates. -/
theorem verdictOf_single (mine : Profile) {theirs : Profile} {metric : Metric}
    (h : roundTenth (metric.value theirs) = metric.value theirs) :
    (verdictOf id mine [theirs] metric).difference =
        roundTenth (metric.value mine - metric.value theirs) ∧
      (verdictOf id mine [theirs] metric).verdict =
        standingOf metric.higher (roundTenth (metric.value mine - metric.value theirs)) := by
  have hmedian : id (roundTenth (median id ([theirs].map metric.value))) = metric.value theirs := by
    rw [List.map_singleton, median_single]
    exact h
  unfold verdictOf standingOf
  dsimp only
  rw [hmedian]
  exact ⟨rfl, rfl⟩

theorem mirrored_verdicts {a b : Profile} {metric : Metric}
    (ha : roundTenth (metric.value a) = metric.value a)
    (hb : roundTenth (metric.value b) = metric.value b) :
    Mirrored (verdictOf id a [b] metric) (verdictOf id b [a] metric) := by
  obtain ⟨hdifference, hverdict⟩ := verdictOf_single a hb
  obtain ⟨hdifference', hverdict'⟩ := verdictOf_single b ha
  have hneg : roundTenth (metric.value b - metric.value a) =
      -roundTenth (metric.value a - metric.value b) := by
    rw [← roundTenth_neg, neg_sub]
  refine ⟨rfl, ?_, ?_⟩
  · rw [hdifference, hdifference', hneg]
  · rw [hverdict, hverdict', hneg, standingOf_neg]

end Rates

section Lengths

theorem truncate_intCast (n : Int) : truncate n = n := by
  unfold truncate
  split <;> simp

theorem truncate_nonneg {x : Rat} (h : 0 ≤ x) : 0 ≤ truncate x := by
  unfold truncate
  rw [if_pos h]
  exact Int.floor_nonneg.mpr h

theorem median_nonneg {values : List Rat} (h : ∀ value ∈ values, 0 ≤ value) :
    0 ≤ median id values := by
  have hmiddle : ∀ i : Nat, 0 ≤ ((values.insertionSort (· ≤ ·))[i]?).getD 0 := by
    intro i
    cases hvalue : (values.insertionSort (· ≤ ·))[i]? with
    | none => exact le_refl _
    | some value =>
        exact h value ((List.mem_insertionSort _).mp (List.mem_of_getElem? hvalue))
  unfold median
  dsimp only [id]
  split
  · exact hmiddle _
  · exact div_nonneg (add_nonneg (hmiddle _) (hmiddle _)) (by norm_num)

theorem medianWords_nonneg {site : Site} {made : Profile}
    (h : profile id reader site = .ok made) (hwords : ∀ page ∈ site.pages, 0 ≤ page.wordCount) :
    0 ≤ made.medianWords := by
  unfold profile at h
  obtain ⟨titled, -, h⟩ := ok_of_bind h
  obtain ⟨titleInRange, -, h⟩ := ok_of_bind h
  obtain ⟨described, -, h⟩ := ok_of_bind h
  obtain ⟨hasH1, -, h⟩ := ok_of_bind h
  obtain ⟨thin, -, h⟩ := ok_of_bind h
  obtain rfl := Except.ok.inj h
  dsimp only
  split
  · exact le_refl _
  · apply truncate_nonneg
    apply median_nonneg
    rw [List.forall_mem_map]
    intro page hpage
    exact_mod_cast hwords page (List.mem_filter.mp hpage).1

/-- The verdict on lengths, from how many times as long theirs are. -/
def lengthStanding (ratio : Rat) : Standing :=
  if lengthMargin ≤ ratio then .behind
  else if ratio ≤ 1 / lengthMargin then .ahead
  else .level

theorem lengthStanding_inv {ratio : Rat} (hpos : 0 < ratio) :
    lengthStanding ratio⁻¹ = mirror (lengthStanding ratio) := by
  have hmargin : (0 : Rat) < lengthMargin := by decide +kernel
  have hlonger : lengthMargin ≤ ratio⁻¹ ↔ ratio ≤ 1 / lengthMargin := by
    rw [one_div]
    exact le_inv_comm₀ hmargin hpos
  have hshorter : ratio⁻¹ ≤ 1 / lengthMargin ↔ lengthMargin ≤ ratio := by
    rw [one_div]
    exact inv_le_inv₀ hpos hmargin
  have hboth : ¬ (lengthMargin ≤ ratio ∧ ratio ≤ 1 / lengthMargin) := by
    rintro ⟨hlong, hshort⟩
    have hgap : (1 : Rat) / lengthMargin < lengthMargin := by decide +kernel
    linarith
  unfold lengthStanding
  simp only [hlonger, hshorter]
  by_cases hlong : lengthMargin ≤ ratio
  · have hnot : ¬ ratio ≤ 1 / lengthMargin := fun hshort => hboth ⟨hlong, hshort⟩
    rw [if_neg hnot, if_pos hlong, if_pos hlong]
    rfl
  · by_cases hshort : ratio ≤ 1 / lengthMargin
    · rw [if_pos hshort, if_neg hlong, if_pos hshort]
      rfl
    · rw [if_neg hshort, if_neg hlong, if_neg hlong, if_neg hshort]
      rfl

theorem lengthVerdict_single {mine theirs : Profile} (hcomparable : theirs.comparable = true) :
    (lengthVerdict id mine [theirs]).map LengthVerdict.verdict =
      if 0 < theirs.medianWords ∧ mine.medianWords ≠ 0 then
        some (lengthStanding ((theirs.medianWords : Rat) / mine.medianWords))
      else none := by
  unfold lengthVerdict
  dsimp only
  by_cases hpos : 0 < theirs.medianWords
  · have hfilter : [theirs].filter (fun p => p.comparable && decide (0 < p.medianWords)) =
        [theirs] := by simp [hcomparable, hpos]
    rw [hfilter, List.map_singleton, median_single, truncate_intCast]
    by_cases hzero : mine.medianWords = 0
    · simp [hzero]
    · simp [hpos, hzero, lengthStanding]
  · have hfilter : [theirs].filter (fun p => p.comparable && decide (0 < p.medianWords)) = [] := by
      simp [hpos]
    rw [hfilter]
    simp [hpos]

theorem lengthVerdict_mirrored {a b : Profile} (ha : a.comparable = true)
    (hb : b.comparable = true) (hwords : 0 ≤ a.medianWords) (hwords' : 0 ≤ b.medianWords) :
    (lengthVerdict id b [a]).map LengthVerdict.verdict =
      ((lengthVerdict id a [b]).map LengthVerdict.verdict).map mirror := by
  rw [lengthVerdict_single ha, lengthVerdict_single hb]
  by_cases hboth : 0 < a.medianWords ∧ 0 < b.medianWords
  · obtain ⟨hpos, hpos'⟩ := hboth
    have hratio : (0 : Rat) < (b.medianWords : Rat) / a.medianWords :=
      div_pos (by exact_mod_cast hpos') (by exact_mod_cast hpos)
    rw [if_pos ⟨hpos, hpos'.ne'⟩, if_pos ⟨hpos', hpos.ne'⟩, ← inv_div,
      lengthStanding_inv hratio]
    rfl
  · rw [if_neg (by omega), if_neg (by omega)]
    rfl

end Lengths

section Words

theorem wordCount_of_pageOf {row : Dict} {page : Page}
    (hwords : Dict.get row "words" = .null ∨ ∃ n : Nat, Dict.get row "words" = .int n)
    (h : pageOf reader row = .ok (some page)) : 0 ≤ page.wordCount := by
  unfold pageOf at h
  split at h
  · cases h
  · obtain ⟨headings, -, h⟩ := ok_of_bind h
    obtain ⟨words, hread, h⟩ := ok_of_bind h
    obtain rfl := Option.some.inj (Except.ok.inj h)
    rcases hwords with hnull | ⟨n, hcount⟩
    · rw [hnull] at hread
      obtain rfl := Except.ok.inj hread
      exact le_refl _
    · rw [hcount, int_nat] at hread
      obtain rfl := Except.ok.inj hread
      exact Int.natCast_nonneg n

theorem counted_of_rows {report : Dict} {rows : List Dict}
    (hrows : Dict.get report "pages" = .arr (rows.map .obj))
    (h : ∀ row ∈ rows, Dict.get row "words" = .null ∨
      ∃ n : Nat, Dict.get row "words" = .int n) : Counted reader report := by
  intro site hsite page hpage
  unfold buildSite at hsite
  rw [hrows, iterate_arr] at hsite
  obtain ⟨_, hread, hsite⟩ := ok_of_bind hsite
  obtain rfl := Except.ok.inj hread
  obtain ⟨pages, hpages, hsite⟩ := ok_of_bind hsite
  obtain ⟨label, -, hsite⟩ := ok_of_bind hsite
  obtain rfl := Except.ok.inj hsite
  obtain ⟨found, hfound, hsome⟩ := List.mem_filterMap.mp hpage
  obtain ⟨value, hvalue, hmade⟩ := exists_of_mem_mapM hpages hfound
  obtain ⟨row, hrow, rfl⟩ := List.mem_map.mp hvalue
  have hmade : pageOf reader row = .ok (some page) := by
    rw [← show found = some page from hsome]
    exact hmade
  exact wordCount_of_pageOf (h row hrow) hmade

/-- The crawler reports how many words a page has. -/
theorem counted_toDict (rules : TextRules) (report : Report) :
    Counted reader (report.toDict rules) := by
  have hrows : Dict.get (report.toDict rules) "pages" =
      .arr ((report.site.pages.map (pageRow rules)).map .obj) := by
    rw [List.map_map]
    rfl
  refine counted_of_rows hrows ?_
  rw [List.forall_mem_map]
  exact fun page _ => .inr ⟨page.wordCount, rfl⟩

theorem counted_crawlOf (pages : Nat) : Counted reader (crawlOf pages) := by
  have hrows : Dict.get (crawlOf pages) "pages" =
      .arr ((List.replicate pages [("url", .str "https://a.ir/")]).map .obj) := by
    rw [List.map_replicate]
    rfl
  refine counted_of_rows hrows fun row hrow => ?_
  rw [List.eq_of_mem_replicate hrow]
  exact .inl rfl

end Words

section Comparison

theorem returns_themes {mine : Site} {others : List Site}
    (hmine : Returns (terms reader unicode mine))
    (hothers : ∀ site ∈ usable others, Returns (terms reader unicode site)) :
    Returns (themes reader unicode mine others) ∧
      Returns (sharedThemes reader unicode mine others) := by
  unfold themes sharedThemes
  constructor
  · exact returns_bind hmine fun ours _ =>
      returns_bind (returns_mapM hothers) fun counts _ => returns_ok _
  · exact returns_bind hmine fun ours _ =>
      returns_bind (returns_mapM hothers) fun counts _ => returns_ok _

theorem returns_terms {mine : Site} {others : List Site} {found : List Theme}
    (h : themes reader unicode mine others = .ok found) :
    Returns (terms reader unicode mine) ∧
      ∀ site ∈ usable others, Returns (terms reader unicode site) := by
  unfold themes at h
  obtain ⟨ours, hours, h⟩ := ok_of_bind h
  obtain ⟨counts, hcounts, h⟩ := ok_of_bind h
  exact ⟨⟨ours, hours⟩, exists_mapM_iff.mp ⟨counts, hcounts⟩⟩

/-- The comparison can be made the other way round, of the same two profiles. -/
theorem made_swapped {a b : Dict} {parts : Parts} (hb : isLarge reader b = true)
    (hmade : Made id reader unicode a [b] parts) :
    ∃ site made parts', parts.others = [site] ∧ parts.theirProfiles = [made] ∧
      Made id reader unicode b [a] parts' ∧ parts'.myProfile = made ∧
      parts'.theirProfiles = [parts.myProfile] := by
  obtain ⟨site, hsite, hothers⟩ := single_of_mapM hmade.others
  have hprofiles := hmade.theirProfiles
  rw [hothers] at hprofiles
  obtain ⟨made, hprofile, htheirs⟩ := single_of_mapM hprofiles
  have husable : usable [site] = [site] := by
    rw [isLarge_of_buildSite hsite] at hb
    unfold usable
    rw [List.filter_cons, hb]
    rfl
  have hmissing := hmade.missing
  rw [hothers] at hmissing
  obtain ⟨hmine, hterms⟩ := returns_terms hmissing
  rw [husable] at hterms
  have hswapped : ∀ other ∈ usable [parts.mine], Returns (terms reader unicode other) := by
    intro other hother
    rw [List.mem_singleton.mp (List.mem_filter.mp hother).1]
    exact hmine
  obtain ⟨⟨missing, hmissing'⟩, shared, hshared'⟩ :=
    returns_themes (hterms site List.mem_cons_self) hswapped
  refine ⟨site, made, ⟨site, [parts.mine], made, [parts.myProfile], missing, shared⟩, hothers,
    htheirs, ⟨nofun, hsite, ?_, hprofile, ?_, hmissing', hshared'⟩, rfl, rfl⟩
  · rw [List.mapM_cons, hmade.mine]
    rfl
  · rw [List.mapM_cons, hmade.myProfile]
    rfl

theorem verdicts_single {mine theirs : Profile} (h : theirs.comparable = true) :
    rateVerdicts id mine [theirs] = metrics.map (verdictOf id mine [theirs]) := by
  unfold rateVerdicts
  dsimp only
  rw [List.filter_cons, h]
  rfl

/-- Two sites that are both large enough are ahead and behind of each other in the same
measures. -/
theorem verdicts_mirrored {a b : Dict} {summary : Summary} (ha : isLarge reader a = true)
    (hb : isLarge reader b = true) (hwords : Counted reader a) (hwords' : Counted reader b)
    (h : summariseWith id reader unicode a [b] = .ok summary) :
    ∃ summary', summariseWith id reader unicode b [a] = .ok summary' ∧
      summary.verdicts.map Verdict.metric = metrics.map Metric.key ∧
      List.Forall₂ Mirrored summary.verdicts summary'.verdicts ∧
      summary'.contentLength.map LengthVerdict.verdict =
        (summary.contentLength.map LengthVerdict.verdict).map mirror := by
  obtain ⟨parts, hmade, hjudgement⟩ := judged_iff.mp ⟨summary, h, rfl⟩
  obtain ⟨site, made, parts', hothers, htheirs, hmade', hmine', htheirs'⟩ := made_swapped hb hmade
  obtain ⟨summary', hsummary', hjudgement'⟩ := judged_iff.mpr ⟨parts', hmade', rfl⟩
  have hverdicts : summary.verdicts = rateVerdicts id parts.myProfile [made] := by
    rw [← htheirs]
    exact (congrArg Judgement.verdicts hjudgement).symm
  have hverdicts' : summary'.verdicts = rateVerdicts id made [parts.myProfile] := by
    rw [← htheirs', ← hmine']
    exact congrArg Judgement.verdicts hjudgement'
  have hlength : summary.contentLength = lengthVerdict id parts.myProfile [made] := by
    rw [← htheirs]
    exact (congrArg Judgement.contentLength hjudgement).symm
  have hlength' : summary'.contentLength = lengthVerdict id made [parts.myProfile] := by
    rw [← htheirs', ← hmine']
    exact congrArg Judgement.contentLength hjudgement'
  have hmyProfile := hmade.myProfile
  have htheirProfile : profile id reader parts'.mine = .ok made := hmine' ▸ hmade'.myProfile
  have hcomparable : parts.myProfile.comparable = true := by
    rw [comparable_of_profile hmyProfile, ← isLarge_of_buildSite hmade.mine, ha]
  have hcomparable' : made.comparable = true := by
    rw [comparable_of_profile htheirProfile, ← isLarge_of_buildSite hmade'.mine, hb]
  refine ⟨summary', hsummary', ?_, ?_, ?_⟩
  · rw [hverdicts, verdicts_single hcomparable', List.map_map]
    rfl
  · rw [hverdicts, hverdicts', verdicts_single hcomparable, verdicts_single hcomparable',
      List.forall₂_map_left_iff, List.forall₂_map_right_iff, List.forall₂_same]
    exact fun metric hmetric => mirrored_verdicts (roundTenth_of_metric hmyProfile hmetric)
      (roundTenth_of_metric htheirProfile hmetric)
  · rw [hlength, hlength']
    exact lengthVerdict_mirrored hcomparable hcomparable'
      (medianWords_nonneg hmyProfile (hwords _ hmade.mine))
      (medianWords_nonneg htheirProfile (hwords' _ hmade'.mine))

theorem verdicts_mirrored_pages : ∃ summary summary',
    summariseWith id plainReader plainUnicode (crawlOf 5) [crawlOf 6] = .ok summary ∧
    summariseWith id plainReader plainUnicode (crawlOf 6) [crawlOf 5] = .ok summary' ∧
    summary.verdicts.map Verdict.metric = metrics.map Metric.key ∧
    List.Forall₂ Mirrored summary.verdicts summary'.verdicts ∧
    summary'.contentLength.map LengthVerdict.verdict =
      (summary.contentLength.map LengthVerdict.verdict).map mirror := by
  obtain ⟨summary, hsummary⟩ := ok_of_isOk (x := summariseWith id plainReader plainUnicode
    (crawlOf 5) [crawlOf 6]) (by decide +kernel)
  obtain ⟨summary', hsummary', hmirrored⟩ := verdicts_mirrored (by decide +kernel)
    (by decide +kernel) (counted_crawlOf 5) (counted_crawlOf 6) hsummary
  exact ⟨summary, summary', hsummary, hsummary', hmirrored⟩

end Comparison

end SeoPlatform.Competitor.Mirror
