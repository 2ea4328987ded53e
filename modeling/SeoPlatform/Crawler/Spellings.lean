import SeoPlatform.Crawler.Fetching
import SeoPlatform.Foundation.UrlSpelling

namespace SeoPlatform.Crawler.Spellings

open SeoPlatform.Crawler.Fetching
open SeoPlatform.Foundation.UrlParse
open SeoPlatform.Foundation.UrlSpelling
open SeoPlatform.Foundation.UrlText

/-- The text is an absolute address of the web that names a host, and these are its parts. -/
structure AbsoluteUrl (rules : TextRules) (url : String) (parsed : ParseResult) : Prop where
  trimmed : strip url = url
  read : urlparse rules url "" = .ok parsed
  scheme : parsed.scheme = "http" ∨ parsed.scheme = "https"
  hosted : (hostinfo (rules.lower parsed.netloc).toList).1 ≠ []

/-- The host is the domain or a domain beneath it. -/
def Beneath (base host : String) : Prop := '.' :: base.toList <:+ '.' :: host.toList

/-- The host is one of the site of a domain without `www.`. -/
def OfSite (base host : String) (followSubdomains : Bool) : Prop :=
  if followSubdomains then Beneath base host else removeWww host = base

section Hosts

theorem removeWww_append (host : String) : removeWww ("www." ++ host) = host := by
  have hdrop : ("www.".toList ++ host.toList).drop 4 = host.toList := rfl
  unfold removeWww
  rw [String.toList_append, if_pos (List.isPrefixOf_iff_prefix.mpr (List.prefix_append _ _)), hdrop,
    String.ofList_toList]

theorem removeWww_cases (host : String) :
    host = "www." ++ removeWww host ∨ removeWww host = host ∧ ¬ "www.".toList <+: host.toList := by
  by_cases hwww : "www.".toList <+: host.toList
  · obtain ⟨rest, hrest⟩ := hwww
    have hhost : host = "www." ++ String.ofList rest := by
      apply String.toList_inj.mp
      rw [String.toList_append, ← hrest]
      exact congrArg _ String.toList_ofList.symm
    rw [hhost, removeWww_append]
    exact .inl rfl
  · refine .inr ⟨?_, hwww⟩
    unfold removeWww
    rw [if_neg fun h => hwww (List.isPrefixOf_iff_prefix.mp h)]

theorem beneath_removeWww (host : String) : Beneath (removeWww host) host := by
  unfold Beneath
  rcases removeWww_cases host with hwww | ⟨hsame, -⟩
  · have htext : host.toList = "www.".toList ++ (removeWww host).toList :=
      (congrArg String.toList hwww).trans String.toList_append
    exact ⟨".www".toList, congrArg (List.cons '.') htext.symm⟩
  · simp only [hsame, List.suffix_refl]

theorem beneath_iff (base host : String) :
    Beneath base host ↔ host = base ∨ ("." ++ base).toList <:+ host.toList := by
  unfold Beneath
  rw [List.suffix_cons_iff, List.cons.injEq, String.toList_append]
  constructor
  · rintro (⟨-, hsame⟩ | hsuffix)
    · exact .inl (String.toList_inj.mp hsame.symm)
    · exact .inr hsuffix
  · rintro (rfl | hsuffix)
    · exact .inl ⟨rfl, rfl⟩
    · exact .inr hsuffix

theorem sameSite_spec {rules : TextRules} {url origin : String} {parsed own : ParseResult}
    (hurl : urlparse rules url "" = .ok parsed) (horigin : urlparse rules origin "" = .ok own)
    (follow : Bool) :
    ∃ answer, sameSite rules url origin follow = .ok answer ∧ (answer = true ↔
      OfSite (removeWww (rules.lower own.netloc)) (rules.lower parsed.netloc) follow) := by
  unfold sameSite OfSite
  rw [hurl, horigin]
  dsimp only [Except.mapError, bind, Except.bind]
  by_cases hsame : rules.lower parsed.netloc = rules.lower own.netloc
  · rw [if_pos hsame, hsame]
    refine ⟨true, rfl, iff_of_true rfl ?_⟩
    cases follow with
    | false => exact rfl
    | true => exact beneath_removeWww _
  · rw [if_neg hsame]
    cases follow with
    | false => exact ⟨_, rfl, by simp⟩
    | true =>
        refine ⟨_, rfl, ?_⟩
        rw [if_pos rfl, beneath_iff, Bool.or_eq_true, decide_eq_true_iff,
          List.isSuffixOf_iff_suffix]

end Hosts

section Ports

theorem defaultPort_cases (scheme : String) :
    defaultPort scheme = ":80" ∨ defaultPort scheme = ":443" := by
  unfold defaultPort
  split
  · exact .inl rfl
  · exact .inr rfl

theorem defaultPort_ne (scheme : String) : defaultPort scheme ≠ "" := by
  rcases defaultPort_cases scheme with h | h <;> rw [h] <;> decide

theorem dot_notMem_defaultPort (scheme : String) : '.' ∉ (defaultPort scheme).toList := by
  rcases defaultPort_cases scheme with h | h <;> rw [h] <;> decide

theorem isBracket_defaultPort (scheme : String) :
    ∀ c ∈ (defaultPort scheme).toList, isBracket c = false := by
  suffices hall : (defaultPort scheme).toList.all fun c => !isBracket c by simpa using hall
  rcases defaultPort_cases scheme with h | h <;> rw [h] <;> decide

/-- A text with a stop in front is not at the end of itself with a port behind it. -/
theorem not_beneath_port (base host scheme : String) (h : Beneath base host) :
    ¬ Beneath base (host ++ defaultPort scheme) := by
  unfold Beneath at *
  rw [String.toList_append, ← List.cons_append]
  intro hported
  obtain ⟨before, hbefore⟩ := h
  have hown : '.' :: base.toList <:+ '.' :: base.toList ++ (defaultPort scheme).toList := by
    refine List.suffix_of_suffix_length_le hported ?_ (by simp)
    rw [← hbefore, List.append_assoc]
    exact List.suffix_append _ _
  obtain ⟨front, hfront⟩ := hown
  have hstops := congrArg (List.count '.') hfront
  rw [List.count_append, List.count_append,
    List.count_eq_zero_of_not_mem (dot_notMem_defaultPort scheme)] at hstops
  cases front with
  | nil =>
      have hlength := congrArg List.length hfront
      simp only [List.nil_append, List.length_append] at hlength
      exact defaultPort_ne scheme (by simpa using hlength)
  | cons c rest =>
      have hstop : c = '.' := (List.cons.inj hfront).1
      rw [hstop, List.count_cons_self] at hstops
      omega

theorem removeWww_port (host scheme : String) :
    removeWww (host ++ defaultPort scheme) = removeWww host ++ defaultPort scheme := by
  rcases removeWww_cases host with hwww | ⟨hsame, hnone⟩
  · conv_lhs => rw [hwww, String.append_assoc]
    exact removeWww_append _
  · rcases removeWww_cases (host ++ defaultPort scheme) with hported | ⟨hboth, -⟩
    · have hlists := congrArg String.toList hported
      rw [String.toList_append, String.toList_append] at hlists
      rcases List.append_eq_append_iff.mp hlists with ⟨more, hwww, hport⟩ | ⟨more, hhost, -⟩
      · have hstop : '.' ∈ more := by
          cases more using List.reverseRecOn with
          | nil => exact absurd ⟨[], by rw [hwww, List.append_nil, List.append_nil]⟩ hnone
          | append_singleton early last _ =>
              have hlast := congrArg List.getLast? hwww
              rw [← List.append_assoc, List.getLast?_concat] at hlast
              rw [← Option.some.inj hlast]
              exact List.mem_append_right _ (List.mem_singleton_self _)
        refine absurd ?_ (dot_notMem_defaultPort scheme)
        rw [hport]
        exact List.mem_append_left _ hstop
      · exact absurd ⟨more, hhost.symm⟩ hnone
    · rw [hboth, hsame]

theorem not_ofSite_port {base host : String} {follow : Bool} (h : OfSite base host follow)
    (scheme : String) : ¬ OfSite base (host ++ defaultPort scheme) follow := by
  cases follow with
  | true => exact not_beneath_port base host scheme h
  | false =>
      intro hported
      have hown : removeWww host = base := h
      have hboth : removeWww (host ++ defaultPort scheme) = base := hported
      rw [removeWww_port, hown] at hboth
      have hlength := congrArg (List.length ∘ String.toList) hboth
      simp only [Function.comp_apply, String.toList_append, List.length_append] at hlength
      exact defaultPort_ne scheme (by simpa using hlength)

end Ports

section Normalised

variable {rules : TextRules} {url origin : String} {parsed own : ParseResult} {host scheme : String}

/-- A network location without the default port of its scheme. -/
def bare (scheme netloc : String) : String :=
  if (defaultPort scheme).toList.isSuffixOf netloc.toList then
    String.ofList (netloc.toList.take (netloc.length - (defaultPort scheme).length))
  else netloc

theorem bare_ported (host scheme : String) : bare scheme (host ++ defaultPort scheme) = host := by
  unfold bare
  rw [String.length_append, Nat.add_sub_cancel, String.toList_append,
    if_pos (List.isSuffixOf_iff_suffix.mpr (List.suffix_append _ _)),
    List.take_left' String.length_toList, String.ofList_toList]

/-- A network location ends in the default port, which is cut off, or it stays. -/
theorem bare_cases (scheme netloc : String) :
    netloc = bare scheme netloc ++ defaultPort scheme ∨
      bare scheme netloc = netloc ∧ ∀ host, netloc ≠ host ++ defaultPort scheme := by
  by_cases hported : (defaultPort scheme).toList <:+ netloc.toList
  · obtain ⟨front, hfront⟩ := hported
    have hnetloc : netloc = String.ofList front ++ defaultPort scheme := by
      apply String.toList_inj.mp
      rw [String.toList_append, String.toList_ofList, hfront]
    rw [hnetloc, bare_ported]
    exact .inl rfl
  · refine .inr ⟨if_neg fun h => hported (List.isSuffixOf_iff_suffix.mp h), ?_⟩
    rintro host rfl
    rw [String.toList_append] at hported
    exact hported (List.suffix_append _ _)

/-- The parts that are put together again. -/
def spelled (parsed : ParseResult) (host : String) : ParseResult :=
  { parsed with
    netloc := host
    path := if parsed.path = "" then "/" else parsed.path
    fragment := "" }

theorem normalizeUrl_absolute (h : AbsoluteUrl rules url parsed) :
    normalizeUrl rules url =
      .ok (urlunparse (spelled parsed (bare parsed.scheme (rules.lower parsed.netloc)))) := by
  unfold normalizeUrl
  rw [h.trimmed, h.read]
  dsimp only [Except.mapError, bind, Except.bind]
  unfold spelled bare
  rcases h.scheme with hscheme | hscheme
  · have hport : defaultPort parsed.scheme = ":80" := if_pos hscheme
    have hlength : ":80".length = 3 := rfl
    rw [hport, hscheme, hlength]
    simp
  · have hport : defaultPort parsed.scheme = ":443" := by
      rw [hscheme]
      rfl
    have hlength : ":443".length = 4 := rfl
    rw [hport, hscheme, hlength]
    simp

theorem hosted_netloc (hrules : Steady rules) (h : AbsoluteUrl rules url parsed) :
    parsed.netloc ≠ "" := by
  intro hempty
  have hlower : rules.lower "" = "" := hrules.start "" "http" (hrules.scheme "http" (.inl rfl))
  exact h.hosted (by rw [hempty, hlower]; rfl)

theorem bare_ne (h : AbsoluteUrl rules url parsed) :
    bare parsed.scheme (rules.lower parsed.netloc) ≠ "" := by
  have hhosted := h.hosted
  intro hempty
  rcases bare_cases parsed.scheme (rules.lower parsed.netloc) with hported | ⟨hsame, -⟩
  · rw [hported, hempty] at hhosted
    rcases defaultPort_cases parsed.scheme with hport | hport
    · rw [hport] at hhosted
      exact hhosted rfl
    · rw [hport] at hhosted
      exact hhosted rfl
  · rw [← hsame, hempty] at hhosted
    exact hhosted rfl

/-- The host of an address can be read without its default port. -/
theorem readable_bare (hrules : Steady rules) (h : AbsoluteUrl rules url parsed) :
    Readable rules (bare parsed.scheme (rules.lower parsed.netloc)).toList ∧
      rules.lower (bare parsed.scheme (rules.lower parsed.netloc)) =
        bare parsed.scheme (rules.lower parsed.netloc) := by
  have hread := (urlparse_spec h.read (hosted_netloc hrules h)).1.lower hrules
  have hagain := hrules.again parsed.netloc
  rcases bare_cases parsed.scheme (rules.lower parsed.netloc) with hported | ⟨hsame, -⟩
  · set host := bare parsed.scheme (rules.lower parsed.netloc)
    rw [hported] at hread hagain
    refine ⟨?_, hrules.start host _ hagain⟩
    have hbracket : ∀ c, isBracket c = true → (host.toList.contains c =
        (host ++ defaultPort parsed.scheme).toList.contains c) := by
      intro c hc
      have hport : c ∉ (defaultPort parsed.scheme).toList := fun hmem => by
        rw [isBracket_defaultPort parsed.scheme c hmem] at hc
        cases hc
      rw [Bool.eq_iff_iff, List.contains_iff_mem, List.contains_iff_mem, String.toList_append,
        List.mem_append, or_iff_left hport]
    refine ⟨fun c hc => hread.whole c ?_, ?_, ?_⟩
    · rw [String.toList_append]
      exact List.mem_append_left _ hc
    · rw [hbracket '[' rfl, hbracket ']' rfl]
      exact hread.brackets
    · have hsound := hread.sound
      rw [String.ofList_toList] at hsound ⊢
      exact hrules.unported host parsed.scheme hsound
  · rw [hsame]
    exact ⟨hread, hagain⟩

theorem leads_spelled (hrules : Steady rules) (h : AbsoluteUrl rules url parsed) (host : String) :
    leads "/" (spelled parsed host).path = true := by
  have hpath := (urlparse_spec h.read (hosted_netloc hrules h)).2
  unfold spelled
  dsimp only
  split
  · decide
  · rename_i hne
    exact hpath.resolve_left hne

/-- The host that is put together is the one that is read. -/
theorem urlparse_spelled (hrules : Steady rules) (h : AbsoluteUrl rules url parsed)
    (hread : Readable rules host.toList) (hne : host ≠ "") :
    ∃ again, urlparse rules (urlunparse (spelled parsed host)) "" = .ok again ∧
      again.netloc = host := by
  have hleads := leads_spelled hrules h host
  have hnamed : (spelled parsed host).scheme ≠ "" := by
    change parsed.scheme ≠ ""
    rcases h.scheme with hscheme | hscheme <;> rw [hscheme] <;> decide
  have hhost : (spelled parsed host).netloc ≠ "" := hne
  have hfollows := follows_tailOf (leads_pathOf hleads) (spelled parsed host).query
  obtain ⟨again, hagain, -, hnetloc⟩ :
      ∃ again, urlparse rules _ "" = .ok again ∧ again.scheme = _ ∧ again.netloc = _ :=
    urlparse_located h.scheme hread hfollows
  refine ⟨again, ?_, by rw [hnetloc, String.ofList_toList]⟩
  rw [urlunparse_eq hhost hnamed rfl hleads]
  exact hagain

theorem sameSite_spelled (hrules : Steady rules) (h : AbsoluteUrl rules url parsed)
    (horigin : urlparse rules origin "" = .ok own) (follow : Bool) :
    ∃ answer, (do sameSite rules (← normalizeUrl rules url) origin follow) = .ok answer ∧
      (answer = true ↔ OfSite (removeWww (rules.lower own.netloc))
        (bare parsed.scheme (rules.lower parsed.netloc)) follow) := by
  obtain ⟨hread, hlower⟩ := readable_bare hrules h
  obtain ⟨again, hagain, hnetloc⟩ := urlparse_spelled hrules h hread (bare_ne h)
  have hsite := sameSite_spec hagain horigin follow
  rw [hnetloc, hlower] at hsite
  rw [normalizeUrl_absolute h]
  exact hsite

theorem sameSite_normalised_iff (hrules : Steady rules) (h : AbsoluteUrl rules url parsed)
    (horigin : urlparse rules origin "" = .ok own) (follow : Bool) :
    (do sameSite rules (← normalizeUrl rules url) origin follow) =
        sameSite rules url origin follow ↔
      ∀ host, rules.lower parsed.netloc = host ++ defaultPort parsed.scheme →
        ¬ OfSite (removeWww (rules.lower own.netloc)) host follow ∧
          ¬ OfSite (removeWww (rules.lower own.netloc)) (host ++ defaultPort parsed.scheme)
            follow := by
  obtain ⟨before, hbefore, hraw⟩ := sameSite_spec h.read horigin follow
  obtain ⟨after, hafter, hnormal⟩ := sameSite_spelled hrules h horigin follow
  rw [hbefore, hafter, Except.ok.injEq, Bool.eq_iff_iff, hraw, hnormal]
  rcases bare_cases parsed.scheme (rules.lower parsed.netloc) with hported | ⟨hsame, hnone⟩
  · set host := bare parsed.scheme (rules.lower parsed.netloc)
    rw [hported]
    constructor
    · intro hboth other hother
      obtain rfl : host = other := by
        have hlists := congrArg String.toList hother
        rw [String.toList_append, String.toList_append] at hlists
        exact String.toList_inj.mp (List.append_cancel_right hlists)
      have hnot : ¬ OfSite (removeWww (rules.lower own.netloc)) host follow :=
        fun hin => not_ofSite_port hin parsed.scheme (hboth.mp hin)
      exact ⟨hnot, fun hin => hnot (hboth.mpr hin)⟩
    · intro hneither
      obtain ⟨hwithout, hwith⟩ := hneither host rfl
      exact iff_of_false hwithout hwith
  · rw [hsame]
    exact iff_of_true Iff.rfl fun host hport => absurd hport (hnone host)

/-- The parts of an address that names the port of its scheme. -/
def ported : ParseResult where
  scheme := "https"
  netloc := "a.ir:443"
  path := "/x"
  params := ""
  query := ""
  fragment := ""

theorem absoluteUrl_ported : AbsoluteUrl asciiRules "https://a.ir:443/x" ported where
  trimmed := by decide
  read := rfl
  scheme := .inr rfl
  hosted := by decide

theorem sameSite_normalised_iff_ported :
    (do sameSite asciiRules (← normalizeUrl asciiRules "https://a.ir:443/x") "https://b.ir" true) =
        sameSite asciiRules "https://a.ir:443/x" "https://b.ir" true ↔
      ∀ host, asciiRules.lower "a.ir:443" = host ++ defaultPort "https" →
        ¬ OfSite (removeWww (asciiRules.lower "b.ir")) host true ∧
          ¬ OfSite (removeWww (asciiRules.lower "b.ir")) (host ++ defaultPort "https") true :=
  have horigin : urlparse asciiRules "https://b.ir" "" =
      .ok { ported with netloc := "b.ir", path := "" } := rfl
  sameSite_normalised_iff steady_asciiRules absoluteUrl_ported horigin true

theorem sameSite_port_matters :
    AbsoluteUrl asciiRules "https://a.ir:443/x" ported ∧
      (do registrableOrigin asciiRules (← normalizeUrl asciiRules "https://a.ir")) =
        .ok "https://a.ir" ∧
      (do sameSite asciiRules (← normalizeUrl asciiRules "https://a.ir:443/x")
              "https://a.ir" false) ≠
        sameSite asciiRules "https://a.ir:443/x" "https://a.ir" false := by
  have hnormal : normalizeUrl asciiRules "https://a.ir:443/x" = .ok "https://a.ir/x" := rfl
  have hown : sameSite asciiRules "https://a.ir/x" "https://a.ir" false = .ok true := rfl
  have hother : sameSite asciiRules "https://a.ir:443/x" "https://a.ir" false = .ok false := rfl
  refine ⟨absoluteUrl_ported, rfl, fun hsame => ?_⟩
  rw [hnormal, hother] at hsame
  dsimp only [bind, Except.bind] at hsame
  rw [hown] at hsame
  exact absurd (Except.ok.inj hsame) (by decide)

end Normalised

end SeoPlatform.Crawler.Spellings
