import Mathlib.Data.List.DropRight
import SeoPlatform.Foundation.UrlSpelling
import SeoPlatform.InternalLinks.Building

namespace SeoPlatform.InternalLinks.SpelledTwice

open SeoPlatform.Foundation.ExceptFlow
open SeoPlatform.Foundation.UrlParse
open SeoPlatform.Foundation.UrlSpelling
open SeoPlatform.Foundation.UrlText
open SeoPlatform.InternalLinks.Building
open SeoPlatform.Shared.Exceptions

/-- The address is absolute, and these are its parts without the fragment. -/
structure Absolute (rules : TextRules) (url : String) (parts : ParseResult) : Prop where
  parsed : (do urlsplit rules (← urldefrag rules (strip url))) = .ok parts
  scheme : parts.scheme = "http" ∨ parts.scheme = "https"
  hosted : parts.netloc ≠ ""

/-- The path ends in no more than one slash, unless it is two, and no white space is left at
the end once that slash is gone. -/
structure Settled (parts : ParseResult) : Prop where
  slashes : parts.path = "//" ∨ ¬ "//".toList <:+ parts.path.toList
  last : ∀ c ∈ (if parts.query = "" then withoutSlash parts.path else parts.query).toList.getLast?,
    isSpace c = false

variable {rules : TextRules}

section Slashes

theorem withoutSlash_of_short {cs : List Char} (h : cs.length ≤ 1) :
    withoutSlash (String.ofList cs) = String.ofList cs := by
  unfold withoutSlash
  rw [String.toList_ofList, if_neg (by omega)]

theorem withoutSlash_snoc {cs : List Char} (h : cs ≠ []) (c : Char) :
    withoutSlash (String.ofList (cs ++ [c])) =
      String.ofList (if c = '/' then cs else cs ++ [c]) := by
  have hlength : 1 < (cs ++ [c]).length := by
    have hpos := List.length_pos_iff.mpr h
    rw [List.length_append, List.length_singleton]
    omega
  unfold withoutSlash
  rw [String.toList_ofList, List.getLast?_concat, List.dropLast_concat]
  by_cases hslash : c = '/'
  · rw [if_pos ⟨hlength, congrArg some hslash⟩, if_pos hslash]
  · rw [if_neg fun hboth => hslash (Option.some.inj hboth.2), if_neg hslash]

theorem withoutSlash_again_iff (path : String) :
    withoutSlash (withoutSlash path) = withoutSlash path ↔
      path = "//" ∨ ¬ "//".toList <:+ path.toList := by
  obtain ⟨cs, rfl⟩ : ∃ cs, path = String.ofList cs := ⟨path.toList, String.ofList_toList.symm⟩
  simp only [String.toList_ofList]
  rcases List.eq_nil_or_concat' cs with rfl | ⟨front, last, rfl⟩
  · exact iff_of_true (by decide) (.inr (by decide))
  rcases List.eq_nil_or_concat' front with rfl | ⟨before, middle, rfl⟩
  · refine iff_of_true ?_ (.inr fun h => absurd h.length_le (by simp))
    rw [withoutSlash_of_short (by simp)]
    exact withoutSlash_of_short (by simp)
  rw [withoutSlash_snoc (by simp)]
  by_cases hlast : last = '/'
  · subst hlast
    have htwo : "//".toList <:+ before ++ [middle] ++ ['/'] ↔ middle = '/' := by
      rw [List.append_assoc]
      constructor
      · rintro ⟨start, hstart⟩
        have hlists := List.append_inj_right' hstart rfl
        simpa using hlists.symm
      · rintro rfl
        exact List.suffix_append before _
    rw [if_pos rfl, htwo]
    rcases List.eq_nil_or_concat' before with rfl | ⟨early, e, rfl⟩
    · rw [withoutSlash_of_short (by simp)]
      refine iff_of_true rfl ?_
      by_cases hmiddle : middle = '/'
      · subst hmiddle
        exact .inl rfl
      · exact .inr hmiddle
    · rw [withoutSlash_snoc (by simp)]
      have hlong : String.ofList (early ++ [e] ++ [middle] ++ ['/']) ≠ "//" := by
        intro heq
        have hlength := congrArg (List.length ∘ String.toList) heq
        simp at hlength
      rw [or_iff_right hlong]
      by_cases hmiddle : middle = '/'
      · rw [if_pos hmiddle]
        refine iff_of_false (fun heq => ?_) fun h => h hmiddle
        have hlength := congrArg (List.length ∘ String.toList) heq
        simp at hlength
      · rw [if_neg hmiddle]
        exact iff_of_true rfl hmiddle
  · rw [if_neg hlast, withoutSlash_snoc (by simp), if_neg hlast]
    refine iff_of_true rfl (.inr ?_)
    rintro ⟨start, hstart⟩
    have hends := congrArg List.getLast? hstart
    rw [List.getLast?_concat, List.getLast?_append_of_ne_nil _ (by simp)] at hends
    exact hlast (Option.some.inj hends).symm

theorem length_withoutSlash_le (path : String) :
    (withoutSlash path).toList.length ≤ path.toList.length := by
  unfold withoutSlash
  split
  · rw [String.toList_ofList, List.length_dropLast]
    omega
  · exact le_refl _

theorem mem_of_withoutSlash {path : String} {c : Char} (h : c ∈ (withoutSlash path).toList) :
    c ∈ path.toList := by
  unfold withoutSlash at h
  split at h
  · rw [String.toList_ofList] at h
    exact List.dropLast_subset _ h
  · exact h

theorem leads_withoutSlash {path : String} (h : leads "/" path = true) :
    leads "/" (withoutSlash path) = true := by
  unfold withoutSlash
  split
  · rename_i hslash
    unfold leads at h ⊢
    rw [String.toList_ofList, List.isPrefixOf_iff_prefix] at *
    obtain ⟨later, hlater⟩ := h
    have hpath : path.toList = '/' :: later := hlater.symm
    rw [hpath] at hslash ⊢
    cases later with
    | nil => simp at hslash
    | cons c rest => exact ⟨(c :: rest).dropLast, by rw [String.toList_ofList]; rfl⟩
  · exact h

end Slashes

section Stripping

/-- What stands before a character that stays, stays. -/
theorem rdropWhile_append_cons {p : Char → Bool} {c : Char} (h : p c = false) (a b : List Char) :
    (a ++ c :: b).rdropWhile p = a ++ c :: b.rdropWhile p := by
  unfold List.rdropWhile
  rw [List.reverse_append, List.reverse_cons, List.append_assoc, List.dropWhile_append]
  split
  · rename_i hempty
    rw [List.isEmpty_iff.mp hempty, List.singleton_append, List.dropWhile_cons_of_neg (by simp [h])]
    simp
  · simp

variable {scheme : String} {netloc rest : List Char}

/-- Only the end of an address is stripped. -/
theorem strip_located (hscheme : scheme = "http" ∨ scheme = "https") :
    strip (String.ofList (located scheme netloc ('/' :: rest))) =
      String.ofList (located scheme netloc ('/' :: rest.rdropWhile isSpace)) := by
  have hfront : (located scheme netloc ('/' :: rest)).dropWhile isSpace =
      located scheme netloc ('/' :: rest) := by
    unfold located
    rcases hscheme with rfl | rfl <;> rfl
  have hsplit : ∀ text, located scheme netloc ('/' :: text) =
      (scheme.toList ++ ':' :: '/' :: '/' :: netloc) ++ '/' :: text := by
    intro text
    simp [located]
  unfold strip
  rw [String.toList_ofList, stripChars_eq, hfront, hsplit, rdropWhile_append_cons (by decide),
    ← hsplit]

end Stripping

section Respelling

variable {scheme : String} {netloc rest : List Char}

/-- What follows the network location and a slash, once more. -/
def respelled (rest : List Char) : List Char :=
  let parts := partition '?' ('/' :: rest.rdropWhile isSpace)
  tailOf (withoutSlash (String.ofList parts.1)) (String.ofList parts.2.2)

theorem leads_of_partition (rest : List Char) :
    leads "/" (String.ofList (partition '?' ('/' :: rest)).1) = true := by
  have hrest : ∃ before, (partition '?' ('/' :: rest)).1 = '/' :: before := by
    unfold partition
    rw [List.dropWhile_cons_of_pos (by rfl), List.takeWhile_cons_of_pos (by rfl)]
    split
    · exact ⟨rest, rfl⟩
    · exact ⟨_, rfl⟩
  obtain ⟨before, hbefore⟩ := hrest
  rw [hbefore]
  exact leads_slash before

theorem normalise_located (hrules : Steady rules) (hscheme : scheme = "http" ∨ scheme = "https")
    (hnetloc : Readable rules netloc)
    (hlower : rules.lower (String.ofList netloc) = String.ofList netloc) (hne : netloc ≠ [])
    (hclean : ∀ c ∈ rest, c ≠ '#' ∧ isDropped c = false) :
    normalise rules (String.ofList (located scheme netloc ('/' :: rest))) =
      .ok (String.ofList (located scheme netloc (respelled rest))) := by
  set short := rest.rdropWhile isSpace with hshort
  have hkept : ∀ c ∈ '/' :: short, c ≠ '#' ∧ isDropped c = false := by
    rw [List.forall_mem_cons]
    exact ⟨by decide, fun c hc => hclean c ((List.rdropWhile_prefix isSpace rest).subset hc)⟩
  have hfollows : Follows ('/' :: short) := fun c hc => by
    cases hc
    rfl
  have hleads := leads_of_partition short
  have hpath : String.ofList (partition '?' ('/' :: short)).1 ≠ "" := by
    intro hempty
    rw [hempty] at hleads
    cases hleads
  have hnamed : scheme ≠ "" := by
    rcases hscheme with rfl | rfl <;> decide
  unfold normalise
  rw [strip_located hscheme, ← hshort, urldefrag_located hscheme hnetloc hkept]
  dsimp only [bind, Except.bind]
  rw [urlsplit_located hscheme hnetloc hfollows hkept]
  dsimp only [Except.mapError]
  rw [if_neg hpath, hlower, hrules.scheme scheme hscheme, urlunparse_located]
  · rw [String.toList_ofList]
    rfl
  · exact fun hempty => hne (by simpa using congrArg String.toList hempty)
  · exact hnamed
  · rfl
  · rfl
  · exact leads_withoutSlash hleads

theorem located_inj {others : List Char} :
    String.ofList (located scheme netloc rest) = String.ofList (located scheme netloc others) ↔
      rest = others := by
  constructor
  · intro h
    have hlists := congrArg String.toList h
    rw [String.toList_ofList, String.toList_ofList] at hlists
    unfold located at hlists
    have htails := List.append_cancel_left hlists
    simpa using htails
  · exact fun h => h ▸ rfl

theorem length_tailOf (path query : String) : (tailOf path query).length ≤
    path.toList.length + (if query = "" then 0 else query.toList.length + 1) := by
  unfold tailOf
  split <;> simp

/-- What is spelled once more is not longer, and shorter where white space was left. -/
theorem length_respelled_le (rest : List Char) :
    (respelled rest).length ≤ ('/' :: rest.rdropWhile isSpace).length := by
  unfold respelled
  dsimp only
  set short := '/' :: rest.rdropWhile isSpace
  have hslash := length_withoutSlash_le (String.ofList (partition '?' short).1)
  have htail := length_tailOf (withoutSlash (String.ofList (partition '?' short).1))
    (String.ofList (partition '?' short).2.2)
  rcases partition_cases '?' short with ⟨-, hpart⟩ | ⟨before, after, heq, -, hpart⟩
  · rw [hpart] at hslash htail ⊢
    simp only [String.toList_ofList, String.ofList_nil, if_true] at hslash htail ⊢
    omega
  · have hlength : short.length = before.length + (after.length + 1) := by
      rw [heq, List.length_append, List.length_cons]
    rw [hpart] at hslash htail ⊢
    rw [String.toList_ofList] at hslash htail
    rw [hlength]
    refine htail.trans (Nat.add_le_add hslash ?_)
    split
    · omega
    · exact le_refl _

theorem tailOf_inj {path path' query : String} :
    tailOf path query = tailOf path' query ↔ path = path' := by
  constructor
  · exact fun h => String.toList_inj.mp (List.append_cancel_right h)
  · exact fun h => h ▸ rfl

/-- Without white space at the end only the path is spelled anew. -/
theorem respelled_of_stripped {path query : String} (hpath : tailOf path query = '/' :: rest)
    (hquestion : '?' ∉ path.toList) (hstripped : rest.rdropWhile isSpace = rest) :
    respelled rest = tailOf (withoutSlash path) query := by
  unfold respelled
  rw [hstripped, ← hpath]
  unfold tailOf
  by_cases hquery : query = ""
  · rw [if_pos hquery, List.append_nil, partition_of_notMem hquestion]
    simp
  · rw [if_neg hquery, partition_append hquestion]
    simp [hquery]

/-- The same is spelled once more exactly where no white space is left at the end and no slash
at the end of the path. -/
theorem respelled_eq_iff {path query : String} (hpath : tailOf path query = '/' :: rest)
    (hquestion : '?' ∉ path.toList) :
    respelled rest = '/' :: rest ↔
      rest.rdropWhile isSpace = rest ∧ withoutSlash path = path := by
  constructor
  · intro h
    have hlength := length_respelled_le rest
    rw [h, List.length_cons, List.length_cons, Nat.add_le_add_iff_right] at hlength
    have hstripped := (List.rdropWhile_prefix isSpace rest).eq_of_length_le hlength
    rw [respelled_of_stripped hpath hquestion hstripped, ← hpath, tailOf_inj] at h
    exact ⟨hstripped, h⟩
  · rintro ⟨hstripped, hslash⟩
    rw [respelled_of_stripped hpath hquestion hstripped, hslash, hpath]

end Respelling

section Twice

variable {url : String} {parts : ParseResult}

/-- The path, which is a slash where there is none. -/
def rooted (path : String) : String := if path = "" then "/" else path

theorem leads_rooted {path : String} (h : path = "" ∨ leads "/" path = true) :
    leads "/" (rooted path) = true := by
  unfold rooted
  split
  · decide
  · rename_i hpath
    exact h.resolve_left hpath

theorem clean_rooted {path : String}
    (h : ∀ c ∈ path.toList, c ≠ '?' ∧ c ≠ '#' ∧ isDropped c = false) :
    ∀ c ∈ (rooted path).toList, c ≠ '?' ∧ c ≠ '#' ∧ isDropped c = false := by
  unfold rooted
  split
  · intro c hc
    rw [List.mem_singleton.mp hc]
    decide
  · exact h

theorem normalise_absolute (hrules : Steady rules) (h : Absolute rules url parts) :
    normalise rules url = .ok (String.ofList (located parts.scheme (rules.lower parts.netloc).toList
      (tailOf (withoutSlash (rooted parts.path)) parts.query))) := by
  obtain ⟨address, hdefrag, hsplit⟩ := ok_of_bind h.parsed
  have hread := urlsplit_spec hsplit h.hosted
  have hnamed : parts.scheme ≠ "" := by
    rcases h.scheme with hscheme | hscheme <;> rw [hscheme] <;> decide
  unfold normalise
  rw [hdefrag]
  dsimp only [bind, Except.bind]
  rw [hsplit]
  dsimp only [Except.mapError]
  rw [urlunparse_located, hrules.scheme _ h.scheme]
  · rfl
  · exact fun hempty => h.hosted (hrules.empty _ hempty)
  · rw [hrules.scheme _ h.scheme]
    exact hnamed
  · rfl
  · rfl
  · exact leads_withoutSlash (leads_rooted hread.rooted)

theorem stripped_iff (rest : List Char) :
    rest.rdropWhile isSpace = rest ↔ ∀ c ∈ ('/' :: rest).getLast?, isSpace c = false := by
  rcases List.eq_nil_or_concat' rest with rfl | ⟨before, last, rfl⟩
  · refine iff_of_true rfl fun c hc => ?_
    cases hc
    decide
  · rw [← List.cons_append, List.getLast?_concat, List.rdropWhile_concat]
    constructor
    · intro h c hc
      cases hc
      by_contra hspace
      rw [if_pos (by simpa using hspace)] at h
      have hlength := (List.rdropWhile_prefix isSpace before).length_le
      rw [h, List.length_append, List.length_singleton] at hlength
      omega
    · intro h
      rw [if_neg (by simp [h last rfl])]

theorem getLast?_tailOf (path query : String) :
    (tailOf path query).getLast? = (if query = "" then path else query).toList.getLast? := by
  unfold tailOf
  by_cases hquery : query = ""
  · rw [if_pos hquery, if_pos hquery, List.append_nil]
  · have hne : query.toList ≠ [] := by simpa using hquery
    rw [if_neg hquery, if_neg hquery, List.getLast?_append_of_ne_nil _ (by simp)]
    exact List.getLast?_cons_of_ne_nil hne

theorem settled_iff {rest : List Char}
    (hrest : tailOf (withoutSlash (rooted parts.path)) parts.query = '/' :: rest) :
    Settled parts ↔ rest.rdropWhile isSpace = rest ∧
      withoutSlash (withoutSlash (rooted parts.path)) = withoutSlash (rooted parts.path) := by
  rw [stripped_iff, ← hrest, getLast?_tailOf, withoutSlash_again_iff]
  by_cases hpath : parts.path = ""
  · have hslash : rooted parts.path = "/" := if_pos hpath
    rw [hslash]
    refine ⟨fun h => ⟨fun c hc => ?_, .inr (by decide)⟩, fun h => ⟨?_, fun c hc => ?_⟩⟩
    · by_cases hquery : parts.query = ""
      · rw [if_pos hquery] at hc
        cases hc
        decide
      · rw [if_neg hquery] at hc
        exact h.last c (by rwa [if_neg hquery])
    · rw [hpath]
      exact .inr (by decide)
    · by_cases hquery : parts.query = ""
      · rw [if_pos hquery, hpath] at hc
        cases hc
      · rw [if_neg hquery] at hc
        exact h.1 c (by rwa [if_neg hquery])
  · have hsame : rooted parts.path = parts.path := if_neg hpath
    rw [hsame]
    exact ⟨fun h => ⟨h.last, h.slashes⟩, fun h => ⟨h.2, h.1⟩⟩

/-- What is normalised twice is as it was exactly where the path of the address ends in no
more than one slash, and no white space is left at the end. -/
theorem normalise_again_iff (hrules : Steady rules) (h : Absolute rules url parts) :
    (do normalise rules (← normalise rules url)) = normalise rules url ↔ Settled parts := by
  obtain ⟨address, -, hsplit⟩ := ok_of_bind h.parsed
  have hread := urlsplit_spec hsplit h.hosted
  obtain ⟨path, hpath⟩ : ∃ path, path = withoutSlash (rooted parts.path) := ⟨_, rfl⟩
  have hchars : ∀ c ∈ path.toList, c ≠ '?' ∧ c ≠ '#' ∧ isDropped c = false :=
    fun c hc => clean_rooted hread.path c (mem_of_withoutSlash (hpath ▸ hc))
  obtain ⟨rest, hrest⟩ : ∃ rest, tailOf path parts.query = '/' :: rest := by
    have hleads := leads_withoutSlash (leads_rooted hread.rooted)
    rw [← hpath] at hleads
    obtain ⟨later, hlater⟩ := List.isPrefixOf_iff_prefix.mp hleads
    exact ⟨_, congrArg (· ++ _) hlater.symm⟩
  have hclean : ∀ c ∈ rest, c ≠ '#' ∧ isDropped c = false := by
    intro c hc
    have hmem : c ∈ tailOf path parts.query := hrest ▸ List.mem_cons_of_mem _ hc
    rcases List.mem_append.mp hmem with hin | hin
    · exact (hchars c hin).2
    · split at hin
      · cases hin
      · rcases List.mem_cons.mp hin with rfl | hquery
        · decide
        · exact hread.query c hquery
  have hlower : rules.lower (String.ofList (rules.lower parts.netloc).toList) =
      String.ofList (rules.lower parts.netloc).toList := by
    rw [String.ofList_toList]
    exact hrules.again _
  have hne : (rules.lower parts.netloc).toList ≠ [] := by
    intro hempty
    exact h.hosted (hrules.empty _ (String.toList_inj.mp hempty))
  rw [normalise_absolute hrules h, ← hpath, hrest]
  dsimp only [bind, Except.bind]
  rw [normalise_located hrules h.scheme (hread.netloc.lower hrules) hlower hne hclean,
    Except.ok.injEq, located_inj, respelled_eq_iff hrest fun hmem => (hchars _ hmem).1 rfl]
  rw [hpath] at hrest ⊢
  exact (settled_iff hrest).symm

/-- The parts of an address whose path ends in two slashes. -/
def twoSlashes : ParseResult where
  scheme := "https"
  netloc := "a.ir"
  path := "/blog//"
  params := ""
  query := ""
  fragment := ""

theorem absolute_twoSlashes : Absolute asciiRules "https://a.ir/blog//" twoSlashes where
  parsed := rfl
  scheme := .inr rfl
  hosted := by decide

theorem normalise_again_iff_twoSlashes :
    (do normalise asciiRules (← normalise asciiRules "https://a.ir/blog//")) =
      normalise asciiRules "https://a.ir/blog//" ↔ Settled twoSlashes :=
  normalise_again_iff steady_asciiRules absolute_twoSlashes

theorem normalise_not_idempotent :
    Absolute asciiRules "https://a.ir/blog//" twoSlashes ∧
      (do normalise asciiRules (← normalise asciiRules "https://a.ir/blog//")) ≠
        normalise asciiRules "https://a.ir/blog//" := by
  have hfirst : normalise asciiRules "https://a.ir/blog//" = .ok "https://a.ir/blog/" := rfl
  have hsecond : normalise asciiRules "https://a.ir/blog/" = .ok "https://a.ir/blog" := rfl
  refine ⟨absolute_twoSlashes, fun hsame => ?_⟩
  rw [hfirst] at hsame
  dsimp only [bind, Except.bind] at hsame
  rw [hsecond] at hsame
  exact absurd (Except.ok.inj hsame) (by decide)

end Twice

end SeoPlatform.InternalLinks.SpelledTwice
