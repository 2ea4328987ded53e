import SeoPlatform.Competitor.SmallSamples
import SeoPlatform.Foundation.SortedLists
import SeoPlatform.Foundation.Unordered

namespace SeoPlatform.Competitor.InputOrder

open SeoPlatform.Competitor.Analyze
open SeoPlatform.Competitor.SmallSamples
open SeoPlatform.Foundation.Counter
open SeoPlatform.Foundation.ExceptFlow
open SeoPlatform.Foundation.JsonValue
open SeoPlatform.Foundation.SortedLists
open SeoPlatform.Foundation.Unordered
open SeoPlatform.InternalLinks.Building (Reader)
open SeoPlatform.InternalLinks.Reported (plainReader)
open SeoPlatform.Orchestrator.Engine (asDict)
open SeoPlatform.Shared.Exceptions
open SeoPlatform.Shared.Text

/-- A report with the same pages in another order. -/
structure Reordered (report report' : Dict) : Prop where
  pages : Dict.get report' "pages" = Dict.get report "pages" ∨
    ∃ rows rows', Dict.get report "pages" = .arr rows ∧ Dict.get report' "pages" = .arr rows' ∧
      rows.Perm rows'
  start : Dict.get report' "start_url" = Dict.get report "start_url"

/-- A site with the same pages in another order. -/
structure SameSite (site site' : Site) : Prop where
  label : site'.label = site.label
  pages : site.pages.Perm site'.pages

variable {fp : Rat → Rat} {reader : Reader} {unicode : Unicode}

section Sites

theorem SameSite.indexable {site site' : Site} (h : SameSite site site') :
    site.indexable.Perm site'.indexable := h.pages.filter _

theorem buildSite_reordered {report report' : Dict} {site : Site} (h : Reordered report report')
    (hsite : buildSite reader report = .ok site) :
    ∃ site', buildSite reader report' = .ok site' ∧ SameSite site site' := by
  have hlabel : siteLabel reader report' = siteLabel reader report := by
    unfold siteLabel
    rw [h.start]
  unfold buildSite at hsite ⊢
  rw [hlabel]
  rcases h.pages with hsame | ⟨rows, rows', hrows, hrows', hperm⟩
  · rw [hsame]
    exact ⟨site, hsite, rfl, List.Perm.refl _⟩
  · rw [hrows, iterate_arr] at hsite
    rw [hrows', iterate_arr]
    obtain ⟨_, hread, hsite⟩ := ok_of_bind hsite
    obtain rfl := Except.ok.inj hread
    obtain ⟨pages, hpages, hsite⟩ := ok_of_bind hsite
    obtain ⟨label, hread, hsite⟩ := ok_of_bind hsite
    obtain rfl := Except.ok.inj hsite
    obtain ⟨pages', hpages', hsame⟩ := mapM_perm hperm hpages
    refine ⟨{ label := label, pages := pages'.filterMap id }, ?_, rfl, hsame.filterMap id⟩
    change (rows'.mapM fun row => do pageOf reader (← asDict row)) >>= _ = _
    rw [hpages', hread]
    rfl

end Sites

section Profiles

theorem median_perm {values values' : List Rat} (h : values.Perm values') :
    median fp values = median fp values' := by
  unfold median
  rw [insertionSort_eq_of_perm h, h.length_eq]

theorem rate_perm {pages pages' : List Page} {predicate : Page → Except Exn Bool} {value : Rat}
    (hperm : pages.Perm pages') (h : rate fp pages predicate = .ok value) :
    rate fp pages' predicate = .ok value := by
  have hnil : pages = [] ↔ pages' = [] := by
    rw [← List.length_eq_zero_iff, hperm.length_eq, List.length_eq_zero_iff]
  unfold rate at h ⊢
  by_cases hempty : pages = []
  · rw [if_pos hempty] at h
    rw [if_pos (hnil.mp hempty), h]
  · rw [if_neg hempty] at h
    rw [if_neg (mt hnil.mpr hempty)]
    obtain ⟨marks, hmarks, h⟩ := ok_of_bind h
    obtain ⟨marks', hmarks', hsame⟩ := mapM_perm hperm hmarks
    rw [hmarks', ← h, hsame.count_eq, hperm.length_eq]
    rfl

theorem profile_reordered {site site' : Site} {made : Profile} (h : SameSite site site')
    (hmade : profile fp reader site = .ok made) : profile fp reader site' = .ok made := by
  have hpages := h.indexable
  have hnil : site.indexable = [] ↔ site'.indexable = [] := by
    rw [← List.length_eq_zero_iff, hpages.length_eq, List.length_eq_zero_iff]
  dsimp only [profile] at hmade ⊢
  obtain ⟨titled, htitled, hmade⟩ := ok_of_bind hmade
  obtain ⟨titleInRange, hinRange, hmade⟩ := ok_of_bind hmade
  obtain ⟨described, hdescribed, hmade⟩ := ok_of_bind hmade
  obtain ⟨hasH1, hhasH1, hmade⟩ := ok_of_bind hmade
  obtain ⟨thin, hthin, hmade⟩ := ok_of_bind hmade
  rw [← hmade, rate_perm hpages htitled, rate_perm hpages hinRange, rate_perm hpages hdescribed,
    rate_perm hpages hhasH1, rate_perm hpages hthin]
  dsimp only [bind, Except.bind]
  rw [h.label, ← hpages.length_eq, ← median_perm (hpages.map fun p => (p.wordCount : Rat)),
    ← median_perm (hpages.map fun p => (p.headings.length : Rat))]
  by_cases hempty : site.indexable = []
  · simp only [if_pos hempty, if_pos (hnil.mp hempty)]
  · simp only [if_neg hempty, if_neg (mt hnil.mpr hempty)]

end Profiles

section Verdicts

theorem rateVerdicts_perm {mine : Profile} {others others' : List Profile}
    (h : others.Perm others') : rateVerdicts fp mine others = rateVerdicts fp mine others' := by
  have hcomparable := h.filter Profile.comparable
  have hverdict : ∀ metric, verdictOf fp mine (others.filter Profile.comparable) metric =
      verdictOf fp mine (others'.filter Profile.comparable) metric := by
    intro metric
    unfold verdictOf
    rw [median_perm (hcomparable.map metric.value)]
  unfold rateVerdicts
  dsimp only
  rw [hcomparable.isEmpty_eq, funext hverdict]

theorem lengthVerdict_perm {mine : Profile} {others others' : List Profile}
    (h : others.Perm others') : lengthVerdict fp mine others = lengthVerdict fp mine others' := by
  have hwritten := h.filter fun p => p.comparable && decide (0 < p.medianWords)
  unfold lengthVerdict
  dsimp only
  rw [hwritten.isEmpty_eq, median_perm (hwritten.map fun p => (p.medianWords : Rat))]

end Verdicts

section Themes

/-- Two counts of the same items. -/
def SameCount (counts counts' : List (String × Nat)) : Prop :=
  ∃ items items', counts = tally items ∧ counts' = tally items' ∧ items.Perm items'

theorem SameCount.perm {counts counts' : List (String × Nat)} (h : SameCount counts counts') :
    counts.Perm counts' := by
  obtain ⟨items, items', rfl, rfl, hperm⟩ := h
  exact tally_perm hperm

theorem SameCount.countOf {counts counts' : List (String × Nat)} (h : SameCount counts counts')
    (term : String) : countOf counts term = countOf counts' term := by
  obtain ⟨items, items', rfl, rfl, hperm⟩ := h
  rw [countOf_tally, countOf_tally, hperm.count_eq]

theorem terms_reordered {site site' : Site} {counts : List (String × Nat)}
    (h : SameSite site site') (hcounts : terms reader unicode site = .ok counts) :
    ∃ counts', terms reader unicode site' = .ok counts' ∧ SameCount counts counts' := by
  unfold terms at hcounts ⊢
  obtain ⟨seen, hseen, hcounts⟩ := ok_of_bind hcounts
  obtain rfl := Except.ok.inj hcounts
  obtain ⟨seen', hseen', hperm⟩ := mapM_perm h.indexable hseen
  rw [hseen']
  exact ⟨_, rfl, _, _, rfl, rfl, hperm.flatten⟩

theorem usable_matched {others others' : List Site} (h : Matched SameSite others others') :
    Matched SameSite (usable others) (usable others') :=
  h.filter fun _ _ hsame => by rw [hsame.indexable.length_eq]

/-- The counts of the terms of the sites that are large enough. -/
theorem counts_matched {others others' : List Site} {counts : List (List (String × Nat))}
    (h : Matched SameSite others others')
    (hcounts : (usable others).mapM (terms reader unicode) = .ok counts) :
    ∃ counts', (usable others').mapM (terms reader unicode) = .ok counts' ∧
      Matched SameCount counts counts' :=
  (usable_matched h).mapM (fun _ _ _ hsame => terms_reordered hsame) hcounts

theorem coverageOf_perm {counts counts' : List (List (String × Nat))}
    (h : Matched SameCount counts counts') : (coverageOf counts).Perm (coverageOf counts') := by
  have hflat : counts.flatten.Perm counts'.flatten := by
    have hmapped := h.flatMap_perm (f := id) (g := id) fun _ _ hsame => hsame.perm
    rwa [List.flatMap_id, List.flatMap_id] at hmapped
  exact tally_perm (hflat.map Prod.fst)

theorem pagesWith_eq {counts counts' : List (List (String × Nat))}
    (h : Matched SameCount counts counts') (term : String) :
    pagesWith counts term = pagesWith counts' term :=
  (h.map_perm fun _ _ hsame => hsame.countOf term).sum_eq

theorem contains_eq {counts counts' : List (String × Nat)} (h : SameCount counts counts')
    (term : String) :
    (counts.map Prod.fst).contains term = (counts'.map Prod.fst).contains term := by
  rw [Bool.eq_iff_iff, List.contains_iff_mem, List.contains_iff_mem]
  exact (h.perm.map Prod.fst).mem_iff

instance : Std.Total Theme.before where
  total a b := by
    unfold Theme.before
    rcases Nat.lt_trichotomy a.competitors b.competitors with hless | heq | hmore
    · exact .inr (.inl hless)
    · rcases Nat.lt_trichotomy a.pages b.pages with hless | hpages | hmore
      · exact .inr (.inr ⟨heq.symm, .inl hless⟩)
      · rcases String.le_total a.term b.term with hle | hge
        · exact .inl (.inr ⟨heq, .inr ⟨hpages, hle⟩⟩)
        · exact .inr (.inr ⟨heq.symm, .inr ⟨hpages.symm, hge⟩⟩)
      · exact .inl (.inr ⟨heq, .inl hmore⟩)
    · exact .inl (.inl hmore)

instance : IsTrans Theme Theme.before where
  trans a b c := by
    rintro (hab | ⟨hab, hab' | ⟨hab', habTerm⟩⟩) (hbc | ⟨hbc, hbc' | ⟨hbc', hbcTerm⟩⟩) <;>
      unfold Theme.before
    · exact .inl (by omega)
    · exact .inl (by omega)
    · exact .inl (by omega)
    · exact .inl (by omega)
    · exact .inr ⟨by omega, .inl (by omega)⟩
    · exact .inr ⟨by omega, .inl (by omega)⟩
    · exact .inl (by omega)
    · exact .inr ⟨by omega, .inl (by omega)⟩
    · exact .inr ⟨by omega, .inr ⟨by omega, String.le_trans habTerm hbcTerm⟩⟩

/-- The order of the themes tells them apart. -/
instance : Std.Antisymm Theme.before where
  antisymm a b := by
    rintro (hab | ⟨hab, hab' | ⟨hab', habTerm⟩⟩) (hba | ⟨hba, hba' | ⟨hba', hbaTerm⟩⟩)
    all_goals try (exfalso; omega)
    cases a
    cases b
    cases hab
    cases hab'
    cases String.le_antisymm habTerm hbaTerm
    rfl

theorem themes_reordered {mine mine' : Site} {others others' : List Site} {found : List Theme}
    (hmine : SameSite mine mine') (hothers : Matched SameSite others others')
    (h : themes reader unicode mine others = .ok found) :
    themes reader unicode mine' others' = .ok found := by
  unfold themes at h ⊢
  obtain ⟨ours, hours, h⟩ := ok_of_bind h
  obtain ⟨counts, hcounts, h⟩ := ok_of_bind h
  obtain ⟨ours', hours', hsame⟩ := terms_reordered hmine hours
  obtain ⟨counts', hcounts', hmatched⟩ := counts_matched hothers hcounts
  rw [hours', hcounts', ← h]
  dsimp only [bind, Except.bind]
  simp only [contains_eq hsame, pagesWith_eq hmatched]
  rw [insertionSort_eq_of_perm (((coverageOf_perm hmatched).filter _).map _)]

theorem sharedThemes_reordered {mine mine' : Site} {others others' : List Site}
    {found : List Theme} (hmine : SameSite mine mine') (hothers : Matched SameSite others others')
    (h : sharedThemes reader unicode mine others = .ok found) :
    sharedThemes reader unicode mine' others' = .ok found := by
  unfold sharedThemes at h ⊢
  obtain ⟨ours, hours, h⟩ := ok_of_bind h
  obtain ⟨counts, hcounts, h⟩ := ok_of_bind h
  obtain ⟨ours', hours', hsame⟩ := terms_reordered hmine hours
  obtain ⟨counts', hcounts', hmatched⟩ := counts_matched hothers hcounts
  rw [hours', hcounts', ← h]
  dsimp only [bind, Except.bind]
  simp only [contains_eq hsame, hsame.countOf]
  rw [insertionSort_eq_of_perm (((coverageOf_perm hmatched).filter _).map _)]

end Themes

section Comparison

variable {mineReport mineReport' : Dict} {reports reports' : List Dict}

theorem made_reordered {parts : Parts} (hmine : Reordered mineReport mineReport')
    (hreports : Matched Reordered reports reports')
    (hmade : Made fp reader unicode mineReport reports parts) :
    ∃ parts', Made fp reader unicode mineReport' reports' parts' ∧
      parts'.judgement fp = parts.judgement fp := by
  obtain ⟨mine', hmine', hsame⟩ := buildSite_reordered hmine hmade.mine
  obtain ⟨others', hothers', hmatched⟩ :=
    hreports.mapM (fun _ _ _ hreport => buildSite_reordered hreport) hmade.others
  have hstep : ∀ site site' made, SameSite site site' → profile fp reader site = .ok made →
      ∃ made', profile fp reader site' = .ok made' ∧ made = made' :=
    fun _ _ made hsite hprofile => ⟨made, profile_reordered hsite hprofile, rfl⟩
  obtain ⟨profiles', hprofiles', hequal⟩ := hmatched.mapM hstep hmade.theirProfiles
  have hprofiles : parts.theirProfiles.Perm profiles' := by
    have hmapped := hequal.map_perm (f := id) (g := id) fun _ _ heq => heq
    rwa [List.map_id, List.map_id] at hmapped
  have hsome : reports' ≠ [] := by
    intro hnil
    have hempty := hreports.isEmpty_eq
    rw [hnil] at hempty
    exact hmade.compared (List.isEmpty_iff.mp hempty)
  refine ⟨{ parts with mine := mine', others := others', theirProfiles := profiles' },
    ⟨hsome, hmine', hothers', profile_reordered hsame hmade.myProfile, hprofiles',
      themes_reordered hsame hmatched hmade.missing,
      sharedThemes_reordered hsame hmatched hmade.shared⟩, ?_⟩
  unfold Parts.judgement
  rw [rateVerdicts_perm hprofiles, lengthVerdict_perm hprofiles]

/-- The judgement does not depend on the order of the competitors or of the pages, in exact
arithmetic as in any other. -/
theorem judgement_of_reordered {summary : Summary}
    (h : summariseWith fp reader unicode mineReport reports = .ok summary)
    (hmine : Reordered mineReport mineReport') (hreports : Matched Reordered reports reports') :
    ∃ summary', summariseWith fp reader unicode mineReport' reports' = .ok summary' ∧
      judgementOf summary' = judgementOf summary := by
  obtain ⟨parts, hmade, hjudgement⟩ := judged_iff.mp ⟨summary, h, rfl⟩
  rw [← hjudgement]
  exact judged_iff.mpr (made_reordered hmine hreports hmade)

/-- The crawl of a site of two pages, and the same with the pages the other way round. -/
def twoPages (first second : String) : Dict :=
  [("start_url", .str "https://a.ir/"),
   ("pages", .arr [.obj [("url", .str first)], .obj [("url", .str second)]])]

theorem judgement_of_reordered_twoPages : ∃ summary summary',
    summariseWith id plainReader plainUnicode (twoPages "https://a.ir/" "https://a.ir/b")
      [crawlOf 1, crawlOf 5] = .ok summary ∧
    summariseWith id plainReader plainUnicode (twoPages "https://a.ir/b" "https://a.ir/")
      [crawlOf 5, crawlOf 1] = .ok summary' ∧
    judgementOf summary' = judgementOf summary := by
  obtain ⟨summary, hsummary⟩ := ok_of_isOk (x := summariseWith id plainReader plainUnicode
    (twoPages "https://a.ir/" "https://a.ir/b") [crawlOf 1, crawlOf 5]) (by decide +kernel)
  have hmine : Reordered (twoPages "https://a.ir/" "https://a.ir/b")
      (twoPages "https://a.ir/b" "https://a.ir/") :=
    ⟨.inr ⟨_, _, rfl, rfl, List.Perm.swap _ _ _⟩, rfl⟩
  have hreports : Matched Reordered [crawlOf 1, crawlOf 5] [crawlOf 5, crawlOf 1] :=
    ⟨[crawlOf 5, crawlOf 1], List.Perm.swap _ _ _,
      .cons ⟨.inl rfl, rfl⟩ (.cons ⟨.inl rfl, rfl⟩ .nil)⟩
  obtain ⟨summary', hsummary', hjudgement⟩ := judgement_of_reordered hsummary hmine hreports
  exact ⟨summary, summary', hsummary, hsummary', hjudgement⟩

end Comparison

end SeoPlatform.Competitor.InputOrder
