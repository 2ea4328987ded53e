import SeoPlatform.Competitor.Analyze
import SeoPlatform.Foundation.ExceptFlow
import SeoPlatform.InternalLinks.Reported

namespace SeoPlatform.Competitor.SmallSamples

open SeoPlatform.Competitor.Analyze
open SeoPlatform.Foundation.Doubles
open SeoPlatform.Foundation.ExceptFlow
open SeoPlatform.Foundation.JsonValue
open SeoPlatform.InternalLinks.Building (Reader)
open SeoPlatform.InternalLinks.Reported (plainReader)
open SeoPlatform.Orchestrator.Planner (iterate)
open SeoPlatform.Shared.Exceptions
open SeoPlatform.Shared.Text

section Judgements

/-- What a comparison says of the sites, without the sites themselves. -/
structure Judgement where
  verdicts : List Verdict
  behindOn : List String
  aheadOn : List String
  contentLength : Option LengthVerdict
  missingThemes : List Theme
  sharedThemes : List Theme

def judgementOf (summary : Summary) : Judgement where
  verdicts := summary.verdicts
  behindOn := summary.behindOn
  aheadOn := summary.aheadOn
  contentLength := summary.contentLength
  missingThemes := summary.missingThemes
  sharedThemes := summary.sharedThemes

/-- No verdict is given. -/
structure Judgement.Silent (judgement : Judgement) : Prop where
  verdicts : judgement.verdicts = []
  behindOn : judgement.behindOn = []
  aheadOn : judgement.aheadOn = []
  contentLength : judgement.contentLength = none

/-- The crawl has enough indexable pages to be compared. -/
def isLarge (reader : Reader) (report : Dict) : Bool :=
  (buildSite reader report).toOption.any fun site => decide (minSample ≤ site.indexable.length)

/-- What a comparison is put together from. -/
structure Parts where
  mine : Site
  others : List Site
  myProfile : Profile
  theirProfiles : List Profile
  missing : List Theme
  shared : List Theme

variable (fp : Rat → Rat) (reader : Reader) (unicode : Unicode)

/-- The parts of the comparison of a report with others. -/
structure Made (mineReport : Dict) (reports : List Dict) (parts : Parts) : Prop where
  compared : reports ≠ []
  mine : buildSite reader mineReport = .ok parts.mine
  others : reports.mapM (buildSite reader) = .ok parts.others
  myProfile : profile fp reader parts.mine = .ok parts.myProfile
  theirProfiles : parts.others.mapM (profile fp reader) = .ok parts.theirProfiles
  missing : themes reader unicode parts.mine parts.others = .ok parts.missing
  shared : sharedThemes reader unicode parts.mine parts.others = .ok parts.shared

/-- The judgement goes by the profiles of the sites that are large enough. -/
def Parts.judgement (parts : Parts) : Judgement :=
  let verdicts := rateVerdicts fp parts.myProfile parts.theirProfiles
  { verdicts := verdicts
    behindOn := (verdicts.filter fun v => v.verdict = .behind).map Verdict.metric
    aheadOn := (verdicts.filter fun v => v.verdict = .ahead).map Verdict.metric
    contentLength := lengthVerdict fp parts.myProfile parts.theirProfiles
    missingThemes := parts.missing
    sharedThemes := parts.shared }

variable {fp reader unicode} {mineReport : Dict} {reports : List Dict} {parts : Parts}

/-- A comparison ends well exactly when all its parts can be made. -/
theorem judged_iff {judgement : Judgement} :
    (∃ summary, summariseWith fp reader unicode mineReport reports = .ok summary ∧
        judgementOf summary = judgement) ↔
      ∃ parts, Made fp reader unicode mineReport reports parts ∧
        parts.judgement fp = judgement := by
  unfold summariseWith
  constructor
  · rintro ⟨summary, h, rfl⟩
    split at h
    · cases h
    · rename_i hcompared
      obtain ⟨mine, hmine, h⟩ := ok_of_bind h
      obtain ⟨others, hothers, h⟩ := ok_of_bind h
      obtain ⟨myProfile, hmyProfile, h⟩ := ok_of_bind h
      obtain ⟨theirProfiles, htheirProfiles, h⟩ := ok_of_bind h
      obtain ⟨missing, hmissing, h⟩ := ok_of_bind h
      obtain ⟨shared, hshared, h⟩ := ok_of_bind h
      obtain rfl := Except.ok.inj h
      exact ⟨⟨mine, others, myProfile, theirProfiles, missing, shared⟩,
        ⟨hcompared, hmine, hothers, hmyProfile, htheirProfiles, hmissing, hshared⟩, rfl⟩
  · rintro ⟨parts, hmade, rfl⟩
    rw [if_neg hmade.compared, hmade.mine, hmade.others]
    dsimp only [bind, Except.bind]
    rw [hmade.myProfile, hmade.theirProfiles, hmade.missing, hmade.shared]
    exact ⟨_, rfl, rfl⟩

end Judgements

theorem iterate_arr (rows : List Json) : iterate ((Json.arr rows).orElse (.arr [])) = .ok rows := by
  cases rows <;> rfl

section Large

variable {fp : Rat → Rat} {reader : Reader} {unicode : Unicode} {mineReport : Dict}
  {reports reports' : List Dict} {parts parts' : Parts}

theorem isLarge_of_buildSite {report : Dict} {site : Site}
    (h : buildSite reader report = .ok site) :
    isLarge reader report = decide (minSample ≤ site.indexable.length) := by
  unfold isLarge
  rw [h]
  rfl

theorem comparable_of_profile {site : Site} {made : Profile}
    (h : profile fp reader site = .ok made) :
    made.comparable = decide (minSample ≤ site.indexable.length) := by
  unfold profile at h
  obtain ⟨titled, -, h⟩ := ok_of_bind h
  obtain ⟨titleInRange, -, h⟩ := ok_of_bind h
  obtain ⟨described, -, h⟩ := ok_of_bind h
  obtain ⟨hasH1, -, h⟩ := ok_of_bind h
  obtain ⟨thin, -, h⟩ := ok_of_bind h
  obtain rfl := Except.ok.inj h
  rfl

/-- The sites that are large enough come from the reports that are. -/
theorem usable_of_buildSite {sites : List Site} (h : reports.mapM (buildSite reader) = .ok sites) :
    (reports.filter (isLarge reader)).mapM (buildSite reader) = .ok (usable sites) :=
  mapM_filter (fun _ _ hsite => (isLarge_of_buildSite hsite).symm) h

theorem comparable_of_profiles {sites : List Site} {profiles : List Profile}
    (h : sites.mapM (profile fp reader) = .ok profiles) :
    (usable sites).mapM (profile fp reader) = .ok (profiles.filter Profile.comparable) :=
  mapM_filter (fun _ _ hmade => comparable_of_profile hmade) h

/-- Only the profiles of large sites are compared. -/
theorem rateVerdicts_congr {mine : Profile} {others others' : List Profile}
    (h : others.filter Profile.comparable = others'.filter Profile.comparable) :
    rateVerdicts fp mine others = rateVerdicts fp mine others' := by
  unfold rateVerdicts
  rw [h]

theorem lengthVerdict_congr {mine : Profile} {others others' : List Profile}
    (h : others.filter Profile.comparable = others'.filter Profile.comparable) :
    lengthVerdict fp mine others = lengthVerdict fp mine others' := by
  have hwritten : ∀ profiles : List Profile,
      (profiles.filter fun p => p.comparable && decide (0 < p.medianWords)) =
        (profiles.filter Profile.comparable).filter fun p => decide (0 < p.medianWords) := by
    intro profiles
    rw [List.filter_filter]
    exact List.filter_congr fun p _ => Bool.and_comm _ _
  unfold lengthVerdict
  rw [hwritten, hwritten, h]

theorem themes_congr {mine : Site} {others others' : List Site}
    (h : usable others = usable others') :
    themes reader unicode mine others = themes reader unicode mine others' := by
  unfold themes
  rw [h]

theorem sharedThemes_congr {mine : Site} {others others' : List Site}
    (h : usable others = usable others') :
    sharedThemes reader unicode mine others = sharedThemes reader unicode mine others' := by
  unfold sharedThemes
  rw [h]

/-- A report can be read and has a profile. -/
def Readable (reader : Reader) (report : Dict) : Prop :=
  ∃ site made, buildSite reader report = .ok site ∧ profile double reader site = .ok made

theorem Made.readable (hmade : Made double reader unicode mineReport reports parts) {report : Dict}
    (h : report ∈ reports) : Readable reader report := by
  obtain ⟨site, hsite, hbuilt⟩ := exists_mem_of_mapM hmade.others h
  obtain ⟨made, -, hprofile⟩ := exists_mem_of_mapM hmade.theirProfiles hsite
  exact ⟨site, made, hbuilt, hprofile⟩

/-- Other reports are compared the same, where those that are large enough are the same. -/
theorem judged_of_same_large (hmade : Made double reader unicode mineReport reports parts)
    (hsome : reports' ≠ []) (hreadable : ∀ report ∈ reports', Readable reader report)
    (hlarge : reports'.filter (isLarge reader) = reports.filter (isLarge reader)) :
    ∃ parts', Made double reader unicode mineReport reports' parts' ∧
      parts'.judgement double = parts.judgement double := by
  obtain ⟨others, hothers⟩ := exists_mapM_iff.mpr fun report hreport => by
    obtain ⟨site, -, hsite, -⟩ := hreadable report hreport
    exact ⟨site, hsite⟩
  obtain ⟨profiles, hprofiles⟩ := exists_mapM_iff.mpr fun site hsite => by
    obtain ⟨report, hreport, hbuilt⟩ := exists_of_mem_mapM hothers hsite
    obtain ⟨site', made, hsite', hmade⟩ := hreadable report hreport
    obtain rfl := Except.ok.inj (hbuilt.symm.trans hsite')
    exact ⟨made, hmade⟩
  have husable : usable others = usable parts.others := by
    have hsame := usable_of_buildSite hothers
    rw [hlarge, usable_of_buildSite hmade.others] at hsame
    exact (Except.ok.inj hsame).symm
  have hcomparable : profiles.filter Profile.comparable =
      parts.theirProfiles.filter Profile.comparable := by
    have hsame := comparable_of_profiles hprofiles
    rw [husable, comparable_of_profiles hmade.theirProfiles] at hsame
    exact (Except.ok.inj hsame).symm
  refine ⟨{ parts with others := others, theirProfiles := profiles },
    ⟨hsome, hmade.mine, hothers, hmade.myProfile, hprofiles, ?_, ?_⟩, ?_⟩
  · rw [themes_congr husable]
    exact hmade.missing
  · rw [sharedThemes_congr husable]
    exact hmade.shared
  · unfold Parts.judgement
    rw [rateVerdicts_congr hcomparable, lengthVerdict_congr hcomparable]

theorem comparable_eq_nil_iff (hmade : Made fp reader unicode mineReport reports parts) :
    parts.theirProfiles.filter Profile.comparable = [] ↔
      ∀ report ∈ reports, isLarge reader report = false := by
  have hprofiles := forall₂_of_mapM (comparable_of_profiles hmade.theirProfiles)
  have hsites := forall₂_of_mapM (usable_of_buildSite hmade.others)
  rw [← List.length_eq_zero_iff, ← hprofiles.length_eq, ← hsites.length_eq,
    List.length_eq_zero_iff, List.filter_eq_nil_iff]
  exact forall₂_congr fun report _ => Bool.not_eq_true _ ▸ Iff.rfl

/-- No verdict is given exactly when no competitor is large enough. -/
theorem silent_iff (hmade : Made fp reader unicode mineReport reports parts) :
    (parts.judgement fp).Silent ↔ ∀ report ∈ reports, isLarge reader report = false := by
  rw [← comparable_eq_nil_iff hmade]
  constructor
  · rintro ⟨hverdicts, -, -, -⟩
    change rateVerdicts fp parts.myProfile parts.theirProfiles = [] at hverdicts
    unfold rateVerdicts at hverdicts
    dsimp only at hverdicts
    split at hverdicts
    · rename_i hempty
      exact List.isEmpty_iff.mp hempty
    · cases hverdicts
  · intro hnone
    have hverdicts : rateVerdicts fp parts.myProfile parts.theirProfiles = [] := by
      unfold rateVerdicts
      rw [hnone]
      rfl
    have hlength : lengthVerdict fp parts.myProfile parts.theirProfiles =
        lengthVerdict fp parts.myProfile [] := lengthVerdict_congr (by rw [hnone]; rfl)
    unfold Parts.judgement
    rw [hverdicts, hlength]
    exact ⟨rfl, rfl, rfl, rfl⟩

/-- Small competitors change nothing. A site is kept out of the verdicts where it is small
itself exactly when it is not, or no competitor is large enough. -/
theorem small_samples_iff {summary : Summary}
    (h : summarise reader unicode mineReport reports = .ok summary) :
    ((∀ reports' : List Dict, reports' ≠ [] →
        (∀ report ∈ reports', report ∉ reports → Readable reader report) →
        reports'.filter (isLarge reader) = reports.filter (isLarge reader) →
        ∃ summary', summarise reader unicode mineReport reports' = .ok summary' ∧
          judgementOf summary' = judgementOf summary) ∧
      (isLarge reader mineReport = false → (judgementOf summary).Silent)) ↔
    isLarge reader mineReport = true ∨ ∀ report ∈ reports, isLarge reader report = false := by
  obtain ⟨parts, hmade, hjudgement⟩ := judged_iff.mp ⟨summary, h, rfl⟩
  rw [← hjudgement, silent_iff hmade]
  constructor
  · rintro ⟨-, hkept⟩
    cases hmine : isLarge reader mineReport with
    | true => exact .inl rfl
    | false => exact .inr (hkept hmine)
  · intro hcondition
    constructor
    · intro reports' hsome hreadable hlarge
      refine judged_iff.mpr (judged_of_same_large hmade hsome (fun report hreport => ?_) hlarge)
      by_cases hold : report ∈ reports
      · exact hmade.readable hold
      · exact hreadable report hreport hold
    · intro hsmall
      rcases hcondition with hmine | hnone
      · rw [hsmall] at hmine
        cases hmine
      · exact hnone

/-- The crawl of a site of so many pages. -/
def crawlOf (pages : Nat) : Dict :=
  [("pages", .arr (List.replicate pages (.obj [("url", .str "https://a.ir/")])))]

theorem small_samples_iff_single : ∃ summary,
    ((∀ reports' : List Dict, reports' ≠ [] →
        (∀ report ∈ reports', report ∉ [crawlOf 1] → Readable plainReader report) →
        reports'.filter (isLarge plainReader) = [crawlOf 1].filter (isLarge plainReader) →
        ∃ summary', summarise plainReader plainUnicode (crawlOf 1) reports' = .ok summary' ∧
          judgementOf summary' = judgementOf summary) ∧
      (isLarge plainReader (crawlOf 1) = false → (judgementOf summary).Silent)) ↔
    isLarge plainReader (crawlOf 1) = true ∨
      ∀ report ∈ [crawlOf 1], isLarge plainReader report = false := by
  obtain ⟨summary, hsummary⟩ := ok_of_isOk (x := summarise plainReader plainUnicode (crawlOf 1)
    [crawlOf 1]) (by decide +kernel)
  exact ⟨summary, small_samples_iff hsummary⟩

/-- A site of one page is judged against a site of five. -/
theorem small_site_judged : ∃ summary,
    summarise plainReader plainUnicode (crawlOf 1) [crawlOf 5] = .ok summary ∧
      isLarge plainReader (crawlOf 1) = false ∧ ¬ (judgementOf summary).Silent := by
  obtain ⟨summary, hsummary⟩ := ok_of_isOk (x := summarise plainReader plainUnicode (crawlOf 1)
    [crawlOf 5]) (by decide +kernel)
  obtain ⟨parts, hmade, hjudgement⟩ := judged_iff.mp ⟨summary, hsummary, rfl⟩
  refine ⟨summary, hsummary, by decide +kernel, ?_⟩
  rw [← hjudgement, silent_iff hmade]
  intro hsmall
  have hlarge : isLarge plainReader (crawlOf 5) = true := by decide +kernel
  rw [hsmall _ List.mem_cons_self] at hlarge
  cases hlarge

end Large

end SeoPlatform.Competitor.SmallSamples
