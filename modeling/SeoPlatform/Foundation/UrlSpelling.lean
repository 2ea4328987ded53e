import SeoPlatform.Foundation.ExceptFlow
import SeoPlatform.Foundation.UrlParse

namespace SeoPlatform.Foundation.UrlSpelling

open SeoPlatform.Foundation.ExceptFlow
open SeoPlatform.Foundation.UrlParse
open SeoPlatform.Foundation.UrlText

/-- The characters that end a network location. -/
def isEnd (c : Char) : Bool := c == '/' || c == '?' || c == '#'

/-- The characters that are dropped from an address. -/
def isDropped (c : Char) : Bool := c == '\t' || c == '\r' || c == '\n'

def isBracket (c : Char) : Bool := c == '[' || c == ']'

/-- The port that goes without saying. -/
def defaultPort (scheme : String) : String := if scheme = "http" then ":80" else ":443"

/-- What `str.lower` and the checks of a network location are relied on for. -/
structure Steady (rules : TextRules) : Prop where
  again : ∀ s, rules.lower (rules.lower s) = rules.lower s
  start : ∀ s t, rules.lower (s ++ t) = s ++ t → rules.lower s = s
  empty : ∀ s, rules.lower s = "" → s = ""
  scheme : ∀ s, s = "http" ∨ s = "https" → rules.lower s = s
  marks : ∀ s c, isEnd c = true ∨ isDropped c = true ∨ isBracket c = true →
    (c ∈ (rules.lower s).toList ↔ c ∈ s.toList)
  lowered : ∀ s, rules.netlocFault s = none → rules.netlocFault (rules.lower s) = none
  unported : ∀ s scheme, rules.netlocFault (s ++ defaultPort scheme) = none →
    rules.netlocFault s = none

section Partitions

theorem partition_of_notMem {sep : Char} {cs : List Char} (h : sep ∉ cs) :
    partition sep cs = (cs, false, []) := by
  have hnone : cs.dropWhile (· != sep) = [] := by
    rw [List.dropWhile_eq_nil_iff]
    intro c hc
    exact bne_iff_ne.mpr (ne_of_mem_of_not_mem hc h)
  unfold partition
  rw [hnone]

theorem partition_append {sep : Char} {before : List Char} (h : sep ∉ before) (after : List Char) :
    partition sep (before ++ sep :: after) = (before, true, after) := by
  have hall : ∀ c ∈ before, (c != sep) = true := fun c hc =>
    bne_iff_ne.mpr (ne_of_mem_of_not_mem hc h)
  unfold partition
  rw [List.dropWhile_append_of_pos hall, List.takeWhile_append_of_pos hall]
  simp

/-- A text is parted at the first occurrence of a character, or not at all. -/
theorem partition_cases (sep : Char) (cs : List Char) :
    (sep ∉ cs ∧ partition sep cs = (cs, false, [])) ∨
      ∃ before after, cs = before ++ sep :: after ∧ sep ∉ before ∧
        partition sep cs = (before, true, after) := by
  by_cases h : sep ∈ cs
  · obtain ⟨before, after, rfl, hbefore⟩ := List.eq_append_cons_of_mem h
    exact .inr ⟨before, after, rfl, hbefore, partition_append hbefore after⟩
  · exact .inl ⟨h, partition_of_notMem h⟩

end Partitions

section Located

/-- The text of an address with a network location. -/
def located (scheme : String) (netloc rest : List Char) : List Char :=
  scheme.toList ++ ':' :: '/' :: '/' :: (netloc ++ rest)

/-- What follows a network location starts where it ends. -/
def Follows (rest : List Char) : Prop := ∀ c ∈ rest.head?, isEnd c = true

/-- A network location that is read as it is. -/
structure Readable (rules : TextRules) (netloc : List Char) : Prop where
  whole : ∀ c ∈ netloc, isEnd c = false ∧ isDropped c = false
  brackets : netloc.contains '[' = netloc.contains ']'
  sound : rules.netlocFault (String.ofList netloc) = none

variable {rules : TextRules} {scheme default : String} {netloc rest : List Char}

theorem splitScheme_located (hscheme : scheme = "http" ∨ scheme = "https") :
    splitScheme default (located scheme netloc rest) =
      (scheme, '/' :: '/' :: (netloc ++ rest)) := by
  have hcolon : ':' ∉ scheme.toList := by
    rcases hscheme with rfl | rfl <;> decide
  unfold splitScheme located
  rw [partition_append hcolon]
  rcases hscheme with rfl | rfl <;> rfl

theorem splitNetloc_located (hnetloc : Readable rules netloc) (hrest : Follows rest) :
    splitNetloc rules ('/' :: '/' :: (netloc ++ rest)) = .ok (netloc, rest) := by
  have hall : ∀ c ∈ netloc, (!isEnd c) = true := fun c hc => by
    rw [(hnetloc.whole c hc).1]
    rfl
  have hstop : rest.takeWhile (fun c => !isEnd c) = [] ∧
      rest.dropWhile (fun c => !isEnd c) = rest := by
    cases rest with
    | nil => exact ⟨rfl, rfl⟩
    | cons c later =>
        have hend := hrest c rfl
        simp [hend]
  have htake : (netloc ++ rest).takeWhile (fun c => !isEnd c) = netloc := by
    rw [List.takeWhile_append_of_pos hall, hstop.1, List.append_nil]
  have hdrop : (netloc ++ rest).dropWhile (fun c => !isEnd c) = rest := by
    rw [List.dropWhile_append_of_pos hall, hstop.2]
  have hbrackets := hnetloc.brackets
  have hsound := hnetloc.sound
  unfold isEnd at htake hdrop
  simp only [splitNetloc]
  rw [htake, hdrop, hbrackets, hsound, bne_self_eq_false]
  rfl

/-- Nothing is dropped from an address without white space in front that holds none of the
characters that are dropped. -/
theorem cleaned_located (hscheme : scheme = "http" ∨ scheme = "https")
    (hnetloc : ∀ c ∈ netloc, isDropped c = false) :
    cleaned (located scheme netloc rest) =
      located scheme netloc (rest.filter fun c => !isDropped c) := by
  have hfront : (located scheme netloc rest).dropWhile (fun c => decide (c.toNat ≤ 32)) =
      located scheme netloc rest := by
    unfold located
    rcases hscheme with rfl | rfl <;> rfl
  have hkept : netloc.filter (fun c => !isDropped c) = netloc := by
    rw [List.filter_eq_self]
    exact fun c hc => by rw [hnetloc c hc]; rfl
  have hfilter : ∀ c : Char, (c != '\t' && c != '\r' && c != '\n') = !isDropped c := by
    intro c
    unfold isDropped
    simp [bne]
  unfold cleaned
  rw [hfront]
  simp only [hfilter]
  unfold located
  rw [List.filter_append, List.filter_cons_of_pos (by rfl), List.filter_cons_of_pos (by rfl),
    List.filter_cons_of_pos (by rfl), List.filter_append, hkept]
  rcases hscheme with rfl | rfl <;> rfl

theorem follows_filter (hrest : Follows rest) : Follows (rest.filter fun c => !isDropped c) := by
  cases rest with
  | nil => exact hrest
  | cons c later =>
      have hend := hrest c rfl
      have hkept : (!isDropped c) = true := by
        unfold isEnd at hend
        unfold isDropped
        rcases Bool.or_eq_true _ _ |>.mp hend with h | h
        · rcases Bool.or_eq_true _ _ |>.mp h with h | h
          · rw [beq_iff_eq.mp h]; rfl
          · rw [beq_iff_eq.mp h]; rfl
        · rw [beq_iff_eq.mp h]; rfl
      simp only [List.filter_cons, hkept, if_true]
      intro d hd
      cases hd
      exact hend

/-- The network location of an address is read off its text. -/
theorem urlparse_located (hscheme : scheme = "http" ∨ scheme = "https")
    (hnetloc : Readable rules netloc) (hrest : Follows rest) :
    ∃ parsed, urlparse rules (String.ofList (located scheme netloc rest)) default = .ok parsed ∧
      parsed.scheme = scheme ∧ parsed.netloc = String.ofList netloc := by
  unfold urlparse
  rw [String.toList_ofList, cleaned_located hscheme fun c hc => (hnetloc.whole c hc).2,
    splitScheme_located hscheme]
  dsimp only
  rw [splitNetloc_located hnetloc (follows_filter hrest)]
  exact ⟨_, rfl, rfl, rfl⟩

theorem leads_slash (cs : List Char) : leads "/" (String.ofList ('/' :: cs)) = true := by
  simp [leads]

/-- What follows the network location of an address. -/
def tailOf (path query : String) : List Char :=
  path.toList ++ if query = "" then [] else '?' :: query.toList

theorem urlsplit_located (hscheme : scheme = "http" ∨ scheme = "https")
    (hnetloc : Readable rules netloc) (hrest : Follows rest)
    (hclean : ∀ c ∈ rest, c ≠ '#' ∧ isDropped c = false) :
    urlsplit rules (String.ofList (located scheme netloc rest)) = .ok
      { scheme := scheme
        netloc := String.ofList netloc
        path := String.ofList (partition '?' rest).1
        params := ""
        query := String.ofList (partition '?' rest).2.2
        fragment := "" } := by
  have hkept : rest.filter (fun c => !isDropped c) = rest := by
    rw [List.filter_eq_self]
    exact fun c hc => by rw [(hclean c hc).2]; rfl
  have hwhole : partition '#' rest = (rest, false, []) :=
    partition_of_notMem fun hmem => (hclean _ hmem).1 rfl
  unfold urlsplit
  rw [String.toList_ofList, cleaned_located hscheme fun c hc => (hnetloc.whole c hc).2, hkept,
    splitScheme_located hscheme]
  dsimp only
  rw [splitNetloc_located hnetloc hrest]
  dsimp only [bind, Except.bind]
  rw [hwhole]

theorem urldefrag_located (hscheme : scheme = "http" ∨ scheme = "https")
    (hnetloc : Readable rules netloc) (hclean : ∀ c ∈ rest, c ≠ '#' ∧ isDropped c = false) :
    urldefrag rules (String.ofList (located scheme netloc rest)) =
      .ok (String.ofList (located scheme netloc rest)) := by
  have hnone : '#' ∉ located scheme netloc rest := by
    unfold located
    simp only [List.mem_append, List.mem_cons, not_or]
    refine ⟨?_, by decide, by decide, by decide, fun hmem => ?_, fun hmem => ?_⟩
    · rcases hscheme with rfl | rfl <;> decide
    · exact absurd (hnetloc.whole _ hmem).1 (by decide)
    · exact (hclean _ hmem).1 rfl
  unfold urldefrag
  rw [String.toList_ofList, if_neg]
  simpa using hnone

/-- The path with its parameters. -/
def pathOf (parts : ParseResult) : String :=
  if parts.params = "" then parts.path else parts.path ++ ";" ++ parts.params

theorem leads_append {path : String} (h : leads "/" path = true) (more : String) :
    leads "/" (path ++ more) = true := by
  unfold leads at *
  rw [List.isPrefixOf_iff_prefix] at *
  rw [String.toList_append]
  exact h.trans (List.prefix_append _ _)

theorem leads_pathOf {parts : ParseResult} (h : leads "/" parts.path = true) :
    leads "/" (pathOf parts) = true := by
  unfold pathOf
  split
  · exact h
  · rw [String.append_assoc]
    exact leads_append h _

theorem follows_tailOf {path : String} (h : leads "/" path = true) (query : String) :
    Follows (tailOf path query) := by
  unfold leads at h
  obtain ⟨later, hlater⟩ := List.isPrefixOf_iff_prefix.mp h
  unfold tailOf
  rw [← hlater]
  intro c hc
  cases hc
  rfl

/-- An address with a network location and no fragment is put together again as a text. -/
theorem urlunparse_eq {parts : ParseResult} (hnetloc : parts.netloc ≠ "")
    (hscheme : parts.scheme ≠ "") (hfragment : parts.fragment = "")
    (hpath : leads "/" parts.path = true) :
    urlunparse parts = String.ofList
      (located parts.scheme parts.netloc.toList (tailOf (pathOf parts) parts.query)) := by
  have hleads := leads_pathOf hpath
  apply String.toList_inj.mp
  unfold urlunparse located tailOf
  change String.toList ((if parts.scheme = "" then "" else parts.scheme ++ ":") ++
    (if parts.netloc ≠ "" || (parts.scheme ≠ "" && usesNetloc.contains parts.scheme &&
        !leads "//" (pathOf parts)) then
      "//" ++ parts.netloc ++
        (if pathOf parts = "" || leads "/" (pathOf parts) then pathOf parts
          else "/" ++ pathOf parts)
    else pathOf parts) ++ _ ++ _) = _
  rw [if_pos hfragment, if_neg hscheme]
  by_cases hquery : parts.query = ""
  · simp [hnetloc, hleads, hquery]
  · simp [hnetloc, hleads, hquery]

theorem urlunparse_located {parts : ParseResult} (hnetloc : parts.netloc ≠ "")
    (hscheme : parts.scheme ≠ "") (hparams : parts.params = "") (hfragment : parts.fragment = "")
    (hpath : leads "/" parts.path = true) :
    urlunparse parts = String.ofList
      (located parts.scheme parts.netloc.toList (tailOf parts.path parts.query)) := by
  have hwhole : pathOf parts = parts.path := if_pos hparams
  rw [urlunparse_eq hnetloc hscheme hfragment hpath, hwhole]

end Located

section Parts

variable {rules : TextRules} {url : List Char}

theorem isDropped_of_mem_cleaned {c : Char} (h : c ∈ cleaned url) : isDropped c = false := by
  have hkept := (List.mem_filter.mp h).2
  unfold isDropped
  simpa [bne] using hkept

theorem mem_of_splitScheme {scheme : String} {c : Char} (h : c ∈ (splitScheme scheme url).2) :
    c ∈ url := by
  unfold splitScheme at h
  split at h
  · rename_i hpart
    split at h
    · rcases partition_cases ':' url with ⟨-, hnone⟩ | ⟨before, after, heq, -, hfound⟩
      · rw [hnone] at hpart
        cases hpart
      · rw [hfound] at hpart
        cases hpart
        rw [heq]
        exact List.mem_append_right _ (List.mem_cons_of_mem _ h)
    · exact h
  · exact h

/-- A network location that was read can be read again. -/
theorem splitNetloc_spec {netloc rest : List Char} (hclean : ∀ c ∈ url, isDropped c = false)
    (h : splitNetloc rules url = .ok (netloc, rest)) (hne : netloc ≠ []) :
    Readable rules netloc ∧ Follows rest ∧ ∀ c ∈ rest, isDropped c = false := by
  unfold splitNetloc at h
  split at h
  · rename_i later
    dsimp only at h
    split at h
    · cases h
    · rename_i hbrackets
      split at h
      · cases h
      · rename_i hsound
        obtain ⟨rfl, rfl⟩ := Prod.mk.inj (Except.ok.inj h)
        have hlater : ∀ c ∈ later, isDropped c = false := fun c hc =>
          hclean c (List.mem_cons_of_mem _ (List.mem_cons_of_mem _ hc))
        refine ⟨⟨fun c hc => ⟨?_, ?_⟩, ?_, hsound⟩, ?_, ?_⟩
        · have hend := List.all_eq_true.mp List.all_takeWhile c hc
          unfold isEnd
          simpa using hend
        · exact hlater c (List.takeWhile_subset _ hc)
        · simpa using hbrackets
        · intro c hc
          have hstop :=
            List.head?_dropWhile_not (fun c => !(c == '/' || c == '?' || c == '#')) later
          rw [Option.mem_def.mp hc] at hstop
          unfold isEnd
          simpa [or_iff_not_imp_left] using hstop
        · exact fun c hc => hlater c (List.dropWhile_subset _ hc)
  · obtain ⟨rfl, -⟩ := Prod.mk.inj (Except.ok.inj h)
    exact absurd rfl hne

/-- What an address with a network location is read as. -/
structure ReadParts (rules : TextRules) (parts : ParseResult) : Prop where
  netloc : Readable rules parts.netloc.toList
  rooted : parts.path = "" ∨ leads "/" parts.path = true
  path : ∀ c ∈ parts.path.toList, c ≠ '?' ∧ c ≠ '#' ∧ isDropped c = false
  query : ∀ c ∈ parts.query.toList, c ≠ '#' ∧ isDropped c = false

/-- What stands before the first occurrence of a character, and what stands after it. -/
theorem partition_spec (sep : Char) (cs : List Char) :
    sep ∉ (partition sep cs).1 ∧ (partition sep cs).1 <+: cs ∧ (partition sep cs).2.2 ⊆ cs := by
  rcases partition_cases sep cs with ⟨hnone, hpart⟩ | ⟨before, after, rfl, hbefore, hpart⟩
  · rw [hpart]
    exact ⟨hnone, List.prefix_refl cs, List.nil_subset cs⟩
  · rw [hpart]
    refine ⟨hbefore, List.prefix_append _ _, fun c hc => ?_⟩
    exact List.mem_append_right _ (List.mem_cons_of_mem _ hc)

/-- The path after a network location is empty or starts with a slash. -/
theorem rooted_of_follows {rest : List Char} (h : Follows rest) :
    (partition '?' (partition '#' rest).1).1 = [] ∨
      ∃ later, (partition '?' (partition '#' rest).1).1 = '/' :: later := by
  obtain ⟨hhash, hbefore, -⟩ := partition_spec '#' rest
  obtain ⟨hquestion, hpath, -⟩ := partition_spec '?' (partition '#' rest).1
  cases hfirst : (partition '?' (partition '#' rest).1).1 with
  | nil => exact .inl rfl
  | cons c later =>
      rw [hfirst] at hquestion hpath
      have hend : isEnd c = true := by
        obtain ⟨more, rfl⟩ := hpath.trans hbefore
        exact h c rfl
      have hslash : c = '/' := by
        have hne : c ≠ '?' := fun heq => hquestion (heq ▸ List.mem_cons_self)
        have hne' : c ≠ '#' := fun heq => hhash (heq ▸ hpath.subset List.mem_cons_self)
        unfold isEnd at hend
        simpa [hne, hne'] using hend
      exact .inr ⟨later, by rw [hslash]⟩

theorem clean_of_splitScheme (address : String) (default : String) :
    ∀ c ∈ (splitScheme default (cleaned address.toList)).2, isDropped c = false :=
  fun _ hc => isDropped_of_mem_cleaned (mem_of_splitScheme hc)

theorem urlsplit_spec {address : String} {parts : ParseResult}
    (h : urlsplit rules address = .ok parts) (hne : parts.netloc ≠ "") : ReadParts rules parts := by
  unfold urlsplit at h
  dsimp only at h
  obtain ⟨⟨netloc, rest⟩, hsplit, h⟩ := ok_of_bind h
  obtain rfl := Except.ok.inj h
  have hnonempty : netloc ≠ [] := by
    rintro rfl
    exact hne rfl
  obtain ⟨hnetloc, hfollows, hrest⟩ :=
    splitNetloc_spec (clean_of_splitScheme address "") hsplit hnonempty
  obtain ⟨hhash, hbefore, -⟩ := partition_spec '#' rest
  obtain ⟨hquestion, hpath, hquery⟩ := partition_spec '?' (partition '#' rest).1
  refine ⟨?_, ?_, ?_, ?_⟩
  · rw [String.toList_ofList]
    exact hnetloc
  · dsimp only
    rcases rooted_of_follows hfollows with hempty | ⟨later, hslash⟩
    · rw [hempty]
      exact .inl rfl
    · rw [hslash]
      exact .inr (leads_slash later)
  · intro c hc
    rw [String.toList_ofList] at hc
    refine ⟨fun heq => hquestion (heq ▸ hc), fun heq => hhash (heq ▸ hpath.subset hc), ?_⟩
    exact hrest c (hbefore.subset (hpath.subset hc))
  · intro c hc
    rw [String.toList_ofList] at hc
    exact ⟨fun heq => hhash (heq ▸ hquery hc), hrest c (hbefore.subset (hquery hc))⟩

/-- Parameters are cut off behind the last slash. -/
theorem splitParams_slash (cs : List Char) :
    ∃ later, (splitParams ('/' :: cs)).1 = '/' :: later := by
  have hlast : (afterLast '/' ('/' :: cs)).length ≤ cs.length := by
    unfold afterLast
    rw [List.reverse_cons, List.length_reverse, List.takeWhile_append]
    split
    · simp
    · exact (List.takeWhile_prefix _).length_le.trans (List.length_reverse).le
  unfold splitParams
  dsimp only
  split
  · rw [List.length_cons, Nat.succ_sub hlast, List.take_succ_cons]
    exact ⟨_, rfl⟩
  · exact ⟨cs, rfl⟩

theorem urlparse_spec {address default : String} {parts : ParseResult}
    (h : urlparse rules address default = .ok parts) (hne : parts.netloc ≠ "") :
    Readable rules parts.netloc.toList ∧ (parts.path = "" ∨ leads "/" parts.path = true) := by
  unfold urlparse at h
  dsimp only at h
  obtain ⟨⟨netloc, rest⟩, hsplit, h⟩ := ok_of_bind h
  obtain rfl := Except.ok.inj h
  have hnonempty : netloc ≠ [] := by
    rintro rfl
    exact hne rfl
  obtain ⟨hnetloc, hfollows, -⟩ :=
    splitNetloc_spec (clean_of_splitScheme address default) hsplit hnonempty
  refine ⟨by rwa [String.toList_ofList], ?_⟩
  dsimp only
  rcases rooted_of_follows hfollows with hempty | ⟨later, hslash⟩
  · rw [hempty]
    split
    · exact .inl rfl
    · exact .inl rfl
  · rw [hslash]
    split
    · obtain ⟨more, hmore⟩ := splitParams_slash later
      rw [hmore]
      exact .inr (leads_slash more)
    · exact .inr (leads_slash later)

/-- In lower case a network location is read as well. -/
theorem Readable.lower (hrules : Steady rules) {netloc : String}
    (h : Readable rules netloc.toList) : Readable rules (rules.lower netloc).toList := by
  have hnone : ∀ c ∈ (rules.lower netloc).toList, isEnd c = false ∧ isDropped c = false := by
    intro c hc
    constructor
    · cases hend : isEnd c with
      | false => rfl
      | true =>
          have hkept := h.whole c ((hrules.marks netloc c (.inl hend)).mp hc)
          rw [hend] at hkept
          cases hkept.1
    · cases hdropped : isDropped c with
      | false => rfl
      | true =>
          have hkept := h.whole c ((hrules.marks netloc c (.inr (.inl hdropped))).mp hc)
          rw [hdropped] at hkept
          cases hkept.2
  have hbracket : ∀ c, isBracket c = true →
      (rules.lower netloc).toList.contains c = netloc.toList.contains c := by
    intro c hc
    rw [Bool.eq_iff_iff, List.contains_iff_mem, List.contains_iff_mem]
    exact hrules.marks netloc c (.inr (.inr hc))
  refine ⟨hnone, ?_, ?_⟩
  · rw [hbracket _ rfl, hbracket _ rfl]
    exact h.brackets
  · have hsound := h.sound
    rw [String.ofList_toList] at hsound ⊢
    exact hrules.lowered netloc hsound

end Parts

section Ascii

/-- Texts of ASCII characters, with any network location. -/
def asciiRules : TextRules where
  lower s := String.ofList (s.toList.map Char.toLower)
  casefold s := String.ofList (s.toList.map Char.toLower)
  netlocFault := fun _ => none

theorem isLower_iff {c : Char} : c.isLower = true ↔ 97 ≤ c.val.toNat ∧ c.val.toNat ≤ 122 := by
  change (decide (97 ≤ c.val) && decide (c.val ≤ 122)) = true ↔ _
  simp [UInt32.le_iff_toNat_le]

theorem toLower_cases (c : Char) : c.toLower = c ∨ c.toLower.isLower = true := by
  unfold Char.toLower
  split
  · rename_i hupper
    have hbounds : 65 ≤ c.val.toNat ∧ c.val.toNat ≤ 90 := by
      simpa [UInt32.le_iff_toNat_le] using hupper
    refine .inr ?_
    rw [isLower_iff]
    grind [UInt32.toNat_add]
  · exact .inl rfl

theorem toLower_of_isLower {c : Char} (h : c.isLower = true) : c.toLower = c := by
  have hbounds := (isLower_iff.mp h).1
  unfold Char.toLower
  rw [dif_neg]
  simp only [UInt32.le_iff_toNat_le, ge_iff_le, not_and, not_le]
  intro _
  exact lt_of_lt_of_le (by decide) hbounds

theorem toLower_eq_iff_of_mark {c d : Char}
    (h : isEnd c = true ∨ isDropped c = true ∨ isBracket c = true) : d.toLower = c ↔ d = c := by
  have hmark : c ∈ ['/', '?', '#', '\t', '\r', '\n', '[', ']'] := by
    unfold isEnd isDropped isBracket at h
    simp only [Bool.or_eq_true, beq_iff_eq, or_assoc] at h
    simpa using h
  have hsmall : ∀ m ∈ ['/', '?', '#', '\t', '\r', '\n', '[', ']'],
      m.toLower = m ∧ m.isLower = false := by
    simp only [List.forall_mem_cons, List.not_mem_nil, false_imp_iff, implies_true, and_true]
    refine ⟨⟨rfl, rfl⟩, ⟨rfl, rfl⟩, ⟨rfl, rfl⟩, ⟨rfl, rfl⟩, ⟨rfl, rfl⟩, ⟨rfl, rfl⟩, ⟨rfl, rfl⟩,
      rfl, rfl⟩
  constructor
  · intro hlower
    rcases toLower_cases d with hsame | hletter
    · rw [← hlower, hsame]
    · rw [hlower, (hsmall c hmark).2] at hletter
      cases hletter
  · rintro rfl
    exact (hsmall d hmark).1

theorem steady_asciiRules : Steady asciiRules where
  again s := by
    apply String.toList_inj.mp
    simp only [asciiRules, String.toList_ofList, List.map_map]
    refine List.map_congr_left fun c _ => ?_
    rcases toLower_cases c with hsame | hletter
    · exact congrArg Char.toLower hsame
    · exact toLower_of_isLower hletter
  start s t h := by
    have hlists := congrArg String.toList h
    simp only [asciiRules, String.toList_ofList, String.toList_append, List.map_append] at hlists
    apply String.toList_inj.mp
    rw [asciiRules, String.toList_ofList]
    exact (List.append_inj hlists (List.length_map _)).1
  empty s h := by
    have hlist := congrArg String.toList h
    simpa [asciiRules] using hlist
  scheme s h := by
    rcases h with rfl | rfl <;> decide
  marks s c h := by
    simp only [asciiRules, String.toList_ofList, List.mem_map]
    constructor
    · rintro ⟨d, hd, hlower⟩
      rwa [← (toLower_eq_iff_of_mark h).mp hlower]
    · exact fun hc => ⟨c, hc, (toLower_eq_iff_of_mark h).mpr rfl⟩
  lowered _ _ := rfl
  unported _ _ _ := rfl

end Ascii

end SeoPlatform.Foundation.UrlSpelling
