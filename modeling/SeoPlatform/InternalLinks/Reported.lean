import SeoPlatform.Foundation.ExceptFlow
import SeoPlatform.InternalLinks.Building

namespace SeoPlatform.InternalLinks.Reported

open SeoPlatform.Foundation.ExceptFlow
open SeoPlatform.Foundation.JsonValue
open SeoPlatform.Foundation.Mapping
open SeoPlatform.Foundation.UrlParse
open SeoPlatform.Foundation.UrlText
open SeoPlatform.InternalLinks.Building
open SeoPlatform.Shared.Exceptions

section Addresses

theorem append_ne_empty_of_right {a b : String} (h : b ≠ "") : a ++ b ≠ "" := by
  intro heq
  have hlist := congrArg String.toList heq
  rw [String.toList_append] at hlist
  exact h (String.toList_inj.mp (List.append_eq_nil_iff.mp hlist).2)

theorem append_ne_empty_of_left {a b : String} (h : a ≠ "") : a ++ b ≠ "" := by
  intro heq
  have hlist := congrArg String.toList heq
  rw [String.toList_append] at hlist
  exact h (String.toList_inj.mp (List.append_eq_nil_iff.mp hlist).1)

/-- A url with a path is not empty. -/
theorem urlunparse_ne_empty {parts : ParseResult} (hparams : parts.params = "")
    (hpath : parts.path ≠ "") : urlunparse parts ≠ "" := by
  unfold urlunparse
  dsimp only
  rw [if_pos hparams]
  refine append_ne_empty_of_left (append_ne_empty_of_left (append_ne_empty_of_right ?_))
  split
  · exact append_ne_empty_of_left (append_ne_empty_of_left (by decide))
  · exact hpath

theorem withoutSlash_ne_empty {path : String} (h : path ≠ "") : withoutSlash path ≠ "" := by
  unfold withoutSlash
  split
  · rename_i hslash
    intro hempty
    have hlist : path.toList.dropLast = [] := by
      simpa using congrArg String.toList hempty
    have hlength := congrArg List.length hlist
    rw [List.length_dropLast, List.length_nil] at hlength
    omega
  · exact h

theorem ok_of_mapError {ε ε' α : Type} {f : ε → ε'} {x : Except ε α} {a : α}
    (h : x.mapError f = .ok a) : x = .ok a := by
  cases x with
  | error e => cases h
  | ok b => exact congrArg Except.ok (Except.ok.inj h)

/-- Every text is spelled as some address, the empty one as the root. -/
theorem normalise_ne_empty {rules : TextRules} {url spelled : String}
    (h : normalise rules url = .ok spelled) : spelled ≠ "" := by
  unfold normalise at h
  obtain ⟨defragged, -, h⟩ := ok_of_bind (ok_of_mapError h)
  obtain ⟨parts, -, h⟩ := ok_of_bind h
  obtain rfl := Except.ok.inj h
  refine urlunparse_ne_empty rfl (withoutSlash_ne_empty ?_)
  split
  · decide
  · assumption

end Addresses

section Rows

variable {reader : Reader}

/-- A row with a page always makes one. -/
theorem pageOf_spec {row : Dict} {found : Option Page} (h : pageOf reader row = .ok found) :
    ∃ page, found = some page ∧
      normalise reader.rules (reader.text (Dict.get row "url")) = .ok page.url := by
  unfold pageOf at h
  obtain ⟨url, hurl, h⟩ := ok_of_bind h
  rw [if_neg (normalise_ne_empty hurl)] at h
  obtain ⟨status, -, h⟩ := ok_of_bind h
  obtain ⟨depth, -, h⟩ := ok_of_bind h
  obtain ⟨words, -, h⟩ := ok_of_bind h
  obtain rfl := Except.ok.inj h
  exact ⟨_, rfl, hurl⟩

/-- A row makes an edge where its ends are spelled differently. -/
theorem edgeOf_spec {row : Dict} {found : Option Edge} (h : edgeOf reader row = .ok found) :
    ∃ source target, normalise reader.rules (reader.text (Dict.get row "from")) = .ok source ∧
      normalise reader.rules (reader.text (Dict.get row "to")) = .ok target ∧
      found.map Edge.ends = if source = target then none else some (source, target) := by
  unfold edgeOf at h
  obtain ⟨source, hsource, h⟩ := ok_of_bind h
  obtain ⟨target, htarget, h⟩ := ok_of_bind h
  refine ⟨source, target, hsource, htarget, ?_⟩
  by_cases hsame : source = target
  · rw [if_pos (.inr (.inr hsame))] at h
    obtain rfl := Except.ok.inj h
    rw [if_pos hsame]
    rfl
  · have hnot : ¬ (source = "" ∨ target = "" ∨ source = target) := by
      rintro (h | h | h)
      · exact normalise_ne_empty hsource h
      · exact normalise_ne_empty htarget h
      · exact hsame h
    rw [if_neg hnot] at h
    obtain ⟨anchor, -, h⟩ := ok_of_bind h
    obtain rfl := Except.ok.inj h
    rw [if_neg hsame]
    rfl

/-- The values of a row can be read. -/
structure ReadablePage (reader : Reader) (row : Dict) : Prop where
  url : ∃ spelled, normalise reader.rules (reader.text (Dict.get row "url")) = .ok spelled
  status : ∃ n, reader.int (Dict.get row "status") = .ok n
  depth : ∃ n, reader.int (Dict.get row "depth") = .ok n
  words : ∃ n, reader.int (Dict.get row "words") = .ok n

structure ReadableEdge (reader : Reader) (row : Dict) : Prop where
  source : ∃ spelled, normalise reader.rules (reader.text (Dict.get row "from")) = .ok spelled
  target : ∃ spelled, normalise reader.rules (reader.text (Dict.get row "to")) = .ok spelled
  anchor : normalise reader.rules (reader.text (Dict.get row "from")) ≠
      normalise reader.rules (reader.text (Dict.get row "to")) →
    ∃ anchor, stripped (Dict.get row "anchor") = .ok anchor

theorem exists_pageOf_iff {row : Dict} :
    (∃ found, pageOf reader row = .ok found) ↔ ReadablePage reader row := by
  constructor
  · rintro ⟨found, h⟩
    unfold pageOf at h
    obtain ⟨url, hurl, h⟩ := ok_of_bind h
    rw [if_neg (normalise_ne_empty hurl)] at h
    obtain ⟨status, hstatus, h⟩ := ok_of_bind h
    obtain ⟨depth, hdepth, h⟩ := ok_of_bind h
    obtain ⟨words, hwords, -⟩ := ok_of_bind h
    exact ⟨⟨_, hurl⟩, ⟨_, hstatus⟩, ⟨_, hdepth⟩, ⟨_, hwords⟩⟩
  · rintro ⟨⟨url, hurl⟩, ⟨status, hstatus⟩, ⟨depth, hdepth⟩, ⟨words, hwords⟩⟩
    unfold pageOf
    simp only [bind, Except.bind, hurl, hstatus, hdepth, hwords]
    rw [if_neg (normalise_ne_empty hurl)]
    exact ⟨_, rfl⟩

theorem exists_edgeOf_iff {row : Dict} :
    (∃ found, edgeOf reader row = .ok found) ↔ ReadableEdge reader row := by
  constructor
  · rintro ⟨found, h⟩
    unfold edgeOf at h
    obtain ⟨source, hsource, h⟩ := ok_of_bind h
    obtain ⟨target, htarget, h⟩ := ok_of_bind h
    refine ⟨⟨_, hsource⟩, ⟨_, htarget⟩, ?_⟩
    intro hne
    rw [if_neg] at h
    · obtain ⟨anchor, hanchor, -⟩ := ok_of_bind h
      exact ⟨anchor, hanchor⟩
    · rintro (h | h | rfl)
      · exact normalise_ne_empty hsource h
      · exact normalise_ne_empty htarget h
      · exact hne (hsource.trans htarget.symm)
  · rintro ⟨⟨source, hsource⟩, ⟨target, htarget⟩, hanchor⟩
    unfold edgeOf
    simp only [bind, Except.bind, hsource, htarget]
    split
    · exact ⟨_, rfl⟩
    · rename_i hends
      obtain ⟨anchor, hanchor⟩ := hanchor (by
        rw [hsource, htarget]
        intro heq
        exact hends (.inr (.inr (Except.ok.inj heq))))
      rw [hanchor]
      exact ⟨_, rfl⟩

end Rows

section Claim

variable (reader : Reader)

/-- The row has nothing, or an empty text, under a name. -/
def Lacks (row : Dict) (name : String) : Prop := reader.text (Dict.get row name) = ""

instance (row : Dict) (name : String) : Decidable (Lacks reader row name) :=
  inferInstanceAs (Decidable (_ = _))

/-- The ends that a row says an edge has. -/
def saidEnds (row : Dict) : Except Exn (Option (String × String)) :=
  if Lacks reader row "from" ∨ Lacks reader row "to" then .ok none
  else do
    let source ← normalise reader.rules (reader.text (Dict.get row "from"))
    let target ← normalise reader.rules (reader.text (Dict.get row "to"))
    .ok (if source = target then none else some (source, target))

/-- The graph has the pages and the edges that the rows say there are, and the rows
that say less add nothing to it. -/
structure OnlyReported (pages edges : List Dict) (graph : Graph) : Prop where
  pageSaid : ∀ url ∈ graph.urls, ∃ row ∈ pages, ¬ Lacks reader row "url" ∧
    normalise reader.rules (reader.text (Dict.get row "url")) = .ok url
  edgesSaid : ∃ said, edges.mapM (saidEnds reader) = .ok said ∧
    graph.edges.map Edge.ends = said.filterMap id
  endsDiffer : ∀ edge ∈ graph.edges, edge.source ≠ edge.target
  noPage : ∀ row ∈ pages, Lacks reader row "url" → pageOf reader row = .ok none
  noEdge : ∀ row ∈ edges, Lacks reader row "from" ∨ Lacks reader row "to" →
    edgeOf reader row = .ok none

/-- Every page row has its url, and every edge row that lacks an end has the other end
spelled as nothing is. -/
structure Complete (pages edges : List Dict) : Prop where
  urls : ∀ row ∈ pages, ¬ Lacks reader row "url"
  ends : ∀ row ∈ edges, Lacks reader row "from" ∨ Lacks reader row "to" →
    normalise reader.rules (reader.text (Dict.get row "from")) =
      normalise reader.rules (reader.text (Dict.get row "to"))

structure Readable (pages edges : List Dict) : Prop where
  pages : ∀ row ∈ pages, ReadablePage reader row
  edges : ∀ row ∈ edges, ReadableEdge reader row

end Claim

section Graphs

variable {reader : Reader} {report : Dict} {pages edges : List Dict}

/-- The graph is put together from what the rows make. -/
theorem build_eq_ok_iff (hpages : pageRows report = .ok pages)
    (hedges : edgeRows report = .ok edges) {graph : Graph} :
    build reader report = .ok graph ↔
      ∃ madePages madeEdges, pages.mapM (pageOf reader) = .ok madePages ∧
        edges.mapM (edgeOf reader) = .ok madeEdges ∧
        graph =
          { pages := .ofPairs ((madePages.filterMap id).map fun page => (page.url, page))
            edges := madeEdges.filterMap id } := by
  unfold build
  constructor
  · intro h
    obtain ⟨rows, hrows, h⟩ := ok_of_bind h
    obtain rfl := Except.ok.inj (hpages.symm.trans hrows)
    obtain ⟨madePages, hmadePages, h⟩ := ok_of_bind h
    obtain ⟨rows, hrows, h⟩ := ok_of_bind h
    obtain rfl := Except.ok.inj (hedges.symm.trans hrows)
    obtain ⟨madeEdges, hmadeEdges, h⟩ := ok_of_bind h
    exact ⟨madePages, madeEdges, hmadePages, hmadeEdges, (Except.ok.inj h).symm⟩
  · rintro ⟨madePages, madeEdges, hmadePages, hmadeEdges, rfl⟩
    rw [hpages, hedges]
    simp only [bind, Except.bind, hmadePages, hmadeEdges]

/-- A graph is built where every row can be read. -/
theorem exists_build_iff (hpages : pageRows report = .ok pages)
    (hedges : edgeRows report = .ok edges) :
    (∃ graph, build reader report = .ok graph) ↔ Readable reader pages edges := by
  constructor
  · rintro ⟨graph, h⟩
    obtain ⟨madePages, madeEdges, hmadePages, hmadeEdges, -⟩ :=
      (build_eq_ok_iff hpages hedges).mp h
    exact ⟨fun row hrow => exists_pageOf_iff.mp (exists_mapM_iff.mp ⟨_, hmadePages⟩ row hrow),
      fun row hrow => exists_edgeOf_iff.mp (exists_mapM_iff.mp ⟨_, hmadeEdges⟩ row hrow)⟩
  · rintro ⟨hpageRows, hedgeRows⟩
    obtain ⟨madePages, hmadePages⟩ :=
      exists_mapM_iff.mpr fun row hrow => exists_pageOf_iff.mpr (hpageRows row hrow)
    obtain ⟨madeEdges, hmadeEdges⟩ :=
      exists_mapM_iff.mpr fun row hrow => exists_edgeOf_iff.mpr (hedgeRows row hrow)
    exact ⟨_, (build_eq_ok_iff hpages hedges).mpr
      ⟨madePages, madeEdges, hmadePages, hmadeEdges, rfl⟩⟩

/-- What a row with both ends makes is what it says. -/
theorem saidEnds_of_edgeOf {row : Dict}
    (hends : Lacks reader row "from" ∨ Lacks reader row "to" →
      normalise reader.rules (reader.text (Dict.get row "from")) =
        normalise reader.rules (reader.text (Dict.get row "to")))
    {found : Option Edge} (h : edgeOf reader row = .ok found) :
    saidEnds reader row = .ok (found.map Edge.ends) := by
  obtain ⟨source, target, hsource, htarget, hfound⟩ := edgeOf_spec h
  unfold saidEnds
  rw [hfound]
  split
  · rename_i hlacks
    have hsame := hends hlacks
    rw [hsource, htarget] at hsame
    rw [if_pos (Except.ok.inj hsame)]
  · rw [hsource, htarget]
    rfl

theorem map_filterMap_id {α β : Type} (f : α → β) (found : List (Option α)) :
    (found.filterMap id).map f = (found.map (Option.map f)).filterMap id := by
  rw [List.map_filterMap, List.filterMap_map]
  rfl

theorem onlyReported_of_complete (hpages : pageRows report = .ok pages)
    (hedges : edgeRows report = .ok edges) (hcomplete : Complete reader pages edges)
    {graph : Graph} (h : build reader report = .ok graph) :
    OnlyReported reader pages edges graph := by
  obtain ⟨madePages, madeEdges, hmadePages, hmadeEdges, rfl⟩ :=
    (build_eq_ok_iff hpages hedges).mp h
  refine ⟨?_, ?_, ?_, ?_, ?_⟩
  · intro url hurl
    obtain ⟨pair, hpair, rfl⟩ := List.mem_map.mp (Dictionary.mem_keys_ofPairs.mp hurl)
    obtain ⟨page, hpage, rfl⟩ := List.mem_map.mp hpair
    obtain ⟨found, hfound, hid⟩ := List.mem_filterMap.mp hpage
    obtain ⟨row, hrow, hmade⟩ := exists_of_mem_mapM hmadePages hfound
    obtain ⟨page', rfl, hspelled⟩ := pageOf_spec hmade
    obtain rfl := Option.some.inj hid
    exact ⟨row, hrow, hcomplete.urls row hrow, hspelled⟩
  · refine ⟨madeEdges.map (Option.map Edge.ends), ?_, map_filterMap_id _ _⟩
    exact mapM_of_mapM
      (fun row hrow _ hfound => saidEnds_of_edgeOf (hcomplete.ends row hrow) hfound) hmadeEdges
  · intro edge hedge hsame
    obtain ⟨found, hfound, hid⟩ := List.mem_filterMap.mp hedge
    obtain rfl : found = some edge := hid
    obtain ⟨row, -, hmade⟩ := exists_of_mem_mapM hmadeEdges hfound
    obtain ⟨source, target, -, -, hends⟩ := edgeOf_spec hmade
    split at hends
    · cases hends
    · rename_i hdiffer
      obtain ⟨rfl, rfl⟩ := Prod.mk.inj (Option.some.inj hends)
      exact hdiffer hsame
  · intro row hrow hlacks
    exact absurd hlacks (hcomplete.urls row hrow)
  · intro row hrow hlacks
    obtain ⟨found, hmade⟩ := exists_mapM_iff.mp ⟨_, hmadeEdges⟩ row hrow
    obtain ⟨source, target, hsource, htarget, hends⟩ := edgeOf_spec hmade
    have hsame := hcomplete.ends row hrow hlacks
    rw [hsource, htarget] at hsame
    rw [if_pos (Except.ok.inj hsame), Option.map_eq_none_iff] at hends
    rw [hmade, hends]

/-- A row that adds nothing has the ends that nothing has. -/
theorem complete_of_onlyReported {graph : Graph}
    (h : OnlyReported reader pages edges graph) : Complete reader pages edges := by
  constructor
  · intro row hrow hlacks
    obtain ⟨page, hpage, -⟩ := pageOf_spec (h.noPage row hrow hlacks)
    cases hpage
  · intro row hrow hlacks
    obtain ⟨source, target, hsource, htarget, hends⟩ := edgeOf_spec (h.noEdge row hrow hlacks)
    rw [hsource, htarget]
    split at hends
    · rename_i hsame
      rw [hsame]
    · cases hends

/-- Exactly for the reports whose rows can be read and are complete, the graph is what
they say. -/
theorem build_onlyReported_iff (hpages : pageRows report = .ok pages)
    (hedges : edgeRows report = .ok edges) :
    (∃ graph, build reader report = .ok graph ∧ OnlyReported reader pages edges graph) ↔
      Readable reader pages edges ∧ Complete reader pages edges := by
  constructor
  · rintro ⟨graph, hbuild, hreported⟩
    have hreadable := (exists_build_iff hpages hedges).mp ⟨graph, hbuild⟩
    exact ⟨hreadable, complete_of_onlyReported hreported⟩
  · rintro ⟨hreadable, hcomplete⟩
    obtain ⟨graph, hbuild⟩ := (exists_build_iff hpages hedges).mpr hreadable
    exact ⟨graph, hbuild, onlyReported_of_complete hpages hedges hcomplete hbuild⟩

/-- A reader for urls in lower case. -/
def plainReader : Reader where
  rules := { lower := id, casefold := id, netlocFault := fun _ => none }
  shown := fun _ => ""
  parseInt := fun _ => none

/-- A site's own page, and a page whose url is missing. -/
def rootlessRows : List Dict :=
  [[("url", .str "https://shop.example/"), ("status", .int 200)], [("status", .int 200)]]

def rootless : Dict := [("pages", .arr (rootlessRows.map .obj))]

theorem build_onlyReported_iff_rootless :
    (∃ graph, build plainReader rootless = .ok graph ∧
      OnlyReported plainReader rootlessRows [] graph) ↔
      Readable plainReader rootlessRows [] ∧ Complete plainReader rootlessRows [] :=
  build_onlyReported_iff rfl rfl

/-- The page without a url becomes the page `/`, which no row has. -/
theorem build_rootless :
    (build plainReader rootless).map Graph.urls = .ok ["https://shop.example/", "/"] ∧
      ¬ ∃ graph, build plainReader rootless = .ok graph ∧
        OnlyReported plainReader rootlessRows [] graph := by
  constructor
  · decide +kernel
  · rintro ⟨graph, -, hreported⟩
    obtain ⟨page, hpage, -⟩ :=
      pageOf_spec (hreported.noPage [("status", .int 200)] (by simp [rootlessRows]) (by decide))
    cases hpage

end Graphs

end SeoPlatform.InternalLinks.Reported
