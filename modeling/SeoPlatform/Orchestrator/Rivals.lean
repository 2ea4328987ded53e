import SeoPlatform.Foundation.ExceptFlow
import SeoPlatform.Foundation.FirstOfEach
import SeoPlatform.Foundation.UrlParse
import SeoPlatform.Orchestrator.Planner

namespace SeoPlatform.Orchestrator.Rivals

open SeoPlatform.Foundation.ExceptFlow
open SeoPlatform.Foundation.FirstOfEach
open SeoPlatform.Foundation.UrlParse
open SeoPlatform.Foundation.UrlText
open SeoPlatform.Orchestrator.Planner
open SeoPlatform.Shared.Exceptions

section Listing

variable (rules : TextRules)

/-- The entry of a competitor as a url. -/
def urlOf (entry : String) : String :=
  if occurs ['/', '/'] (strip entry).toList then strip entry else "https://" ++ strip entry

def listed (entries : List String) : List String :=
  (entries.filter fun entry => strip entry ≠ "").map urlOf

def hosted (entries : List String) : List String :=
  (listed entries).filter fun url => originOf rules url ≠ .ok ""

/-- The port that a scheme stands for where none is written. -/
def defaultPort (scheme : String) : Option Nat :=
  [("http", 80), ("https", 443), ("ftp", 21), ("ws", 80), ("wss", 443)].lookup scheme

def schemeOf (url : String) : String := (splitScheme "" (cleaned url.toList)).1

/-- The site that a url names: its host, up to case and a leading www, and its effective
port. -/
def siteOf (url : String) : Except Exn (String × Option Nat) := do
  let netloc ← parsedNetloc rules url
  let host ← domainOf rules url
  let written ← (port netloc).mapError .valueError
  .ok (host, written <|> defaultPort (schemeOf url))

/-- At most so many of the listed urls, in their order and each with a host, with no site
among them twice, and no site left out that was not listed before or is behind the last. -/
structure Surveyed (entries urls : List String) : Prop where
  few : urls.length ≤ maxCompetitors
  ordered : urls.Sublist (listed entries)
  hosts : ∀ url ∈ urls, ∃ host ≠ "", domainOf rules url = .ok host
  sites : OncePer (siteOf rules) maxCompetitors (hosted rules entries) urls

end Listing

variable {rules : TextRules}

theorem domainOf_of_originOf {url key : String} (h : originOf rules url = .ok key) :
    ∃ host, domainOf rules url = .ok host ∧ (key = "" ↔ host = "") := by
  unfold originOf at h
  obtain ⟨netloc, -, h⟩ := ok_of_bind h
  obtain ⟨host, hhost, h⟩ := ok_of_bind h
  refine ⟨host, hhost, ?_⟩
  split at h
  · rename_i hempty
    obtain rfl := Except.ok.inj h
    exact iff_of_true rfl hempty
  · rename_i hsome
    refine iff_of_false ?_ hsome
    obtain ⟨written, -, h⟩ := ok_of_bind h
    rintro rfl
    split at h
    · have hlength := congrArg String.length (Except.ok.inj h)
      simp at hlength
    · exact hsome (Except.ok.inj h)

/-- The loop of `competitors` keeps one url of each origin. -/
theorem competitorsFrom_eq (entries urls seen : List String)
    (hparse : ∀ url ∈ listed entries, ∃ key, originOf rules url = .ok key)
    (hseen : ∀ key, key ∈ seen ↔ .ok key ∈ urls.map (originOf rules)) :
    competitorsFrom rules entries urls seen =
      .ok (keepFirsts (originOf rules) maxCompetitors urls (hosted rules entries)) := by
  induction entries generalizing urls seen with
  | nil => rfl
  | cons entry rest ih =>
      rw [competitorsFrom]
      dsimp only
      by_cases hblank : strip entry = ""
      · have hsame : listed (entry :: rest) = listed rest := by simp [listed, hblank]
        rw [if_pos hblank, hosted, hsame]
        rw [hsame] at hparse
        exact ih urls seen hparse hseen
      · have hcons : listed (entry :: rest) = urlOf entry :: listed rest := by
          simp [listed, hblank]
        rw [hcons, List.forall_mem_cons] at hparse
        obtain ⟨⟨key, hkey⟩, hparse⟩ := hparse
        rw [if_neg hblank, hosted, hcons]
        change (do
          let key ← originOf rules (urlOf entry)
          if key = "" || key ∈ seen then competitorsFrom rules rest urls seen
          else if maxCompetitors ≤ (urls ++ [urlOf entry]).length then
            .ok (urls ++ [urlOf entry])
          else competitorsFrom rules rest (urls ++ [urlOf entry]) (key :: seen)) = _
        rw [hkey]
        simp only [bind, Except.bind]
        by_cases hnone : key = ""
        · rw [if_pos (by simp [hnone]), List.filter_cons_of_neg (by simp [hkey, hnone])]
          exact ih urls seen hparse hseen
        · rw [List.filter_cons_of_pos (by simp [hkey, hnone]), keepFirsts]
          by_cases hold : originOf rules (urlOf entry) ∈ urls.map (originOf rules)
          · have hthere : key ∈ seen := (hseen key).mpr (hkey ▸ hold)
            rw [if_pos (by simp [hthere]), if_pos hold]
            exact ih urls seen hparse hseen
          · have hnew : key ∉ seen := fun hmem => hold (hkey ▸ (hseen key).mp hmem)
            rw [if_neg (by simp [hnone, hnew]), if_neg hold]
            split
            · rfl
            · apply ih _ _ hparse
              intro other
              rw [List.mem_cons, hseen, List.map_append, List.mem_append, List.map_singleton,
                List.mem_singleton, hkey, Except.ok.injEq]
              exact or_comm

/-- The competitors are surveyed exactly when, among those with a host and before the last
of them, an origin repeats where a site does. -/
theorem surveyed_iff (inputs : Inputs)
    (hparse : ∀ url ∈ listed (inputs.competitors.getD []),
      ∃ key, originOf rules url = .ok key) :
    ∃ urls, competitors rules inputs = .ok urls ∧
      (Surveyed rules (inputs.competitors.getD []) urls ↔
        ∀ before url after,
          hosted rules (inputs.competitors.getD []) = before ++ url :: after →
          (before.map (originOf rules)).toFinset.card < maxCompetitors →
            (originOf rules url ∈ before.map (originOf rules) ↔
              siteOf rules url ∈ before.map (siteOf rules))) := by
  unfold competitors
  generalize inputs.competitors.getD [] = entries at hparse ⊢
  refine ⟨(firsts (originOf rules) (hosted rules entries)).take maxCompetitors, ?_, ?_⟩
  · rw [competitorsFrom_eq entries [] [] hparse (fun key => by simp)]
    exact congrArg Except.ok (keepFirsts_nil (by decide) _)
  · have hsublist := (List.take_sublist maxCompetitors
      (firsts (originOf rules) (hosted rules entries))).trans (firsts_sublist _)
    refine Iff.trans ⟨fun h => h.sites, fun h => ⟨?_, ?_, ?_, h⟩⟩ oncePer_iff
    · exact List.length_take_le _ _
    · exact hsublist.trans List.filter_sublist
    · intro url hurl
      obtain ⟨hlisted, hsome⟩ := List.mem_filter.mp (hsublist.subset hurl)
      obtain ⟨key, hkey⟩ := hparse url hlisted
      obtain ⟨host, hhost, hiff⟩ := domainOf_of_originOf hkey
      refine ⟨host, ?_, hhost⟩
      rintro rfl
      rw [hkey, hiff.mpr rfl] at hsome
      simp at hsome

/-- Rules for hosts in ASCII. -/
def asciiRules : TextRules where
  lower := String.map Char.toLower
  casefold := String.map Char.toLower
  netlocFault _ := none

def against (entries : List String) : Inputs where
  startUrl := none
  seed := none
  maxPages := none
  maxDepth := none
  trackKeywords := none
  optimizePages := none
  competitors := some entries
  competitorPages := none
  lang := none
  country := none

theorem surveyed_iff_shops :
    ∃ urls, competitors asciiRules (against ["www.A.com", "https://a.com/x", "b.ir:8080"]) =
        .ok urls ∧
      (Surveyed asciiRules ["www.A.com", "https://a.com/x", "b.ir:8080"] urls ↔
        ∀ before url after,
          hosted asciiRules ["www.A.com", "https://a.com/x", "b.ir:8080"] =
            before ++ url :: after →
          (before.map (originOf asciiRules)).toFinset.card < maxCompetitors →
            (originOf asciiRules url ∈ before.map (originOf asciiRules) ↔
              siteOf asciiRules url ∈ before.map (siteOf asciiRules))) := by
  have hparse : ∀ url ∈ listed ["www.A.com", "https://a.com/x", "b.ir:8080"],
      (originOf asciiRules url).isOk = true := by
    decide +kernel
  exact surveyed_iff (against ["www.A.com", "https://a.com/x", "b.ir:8080"])
    fun url hurl => ok_of_isOk (hparse url hurl)

/-- A site is crawled twice when the port of its scheme is written out once. -/
theorem not_surveyed_default_port :
    ∃ urls, competitors asciiRules (against ["https://a.com", "https://a.com:443"]) = .ok urls ∧
      ¬ Surveyed asciiRules ["https://a.com", "https://a.com:443"] urls := by
  refine ⟨["https://a.com", "https://a.com:443"], by decide +kernel, ?_⟩
  intro h
  have hsame : siteOf asciiRules "https://a.com" = siteOf asciiRules "https://a.com:443" := by
    decide +kernel
  exact (List.pairwise_pair.mp h.sites.once) hsame

end SeoPlatform.Orchestrator.Rivals
