import SeoPlatform.Foundation.SortedLists
import SeoPlatform.InternalLinks.FullResult

namespace SeoPlatform.InternalLinks.Undescribed

open SeoPlatform.Foundation.Counter
open SeoPlatform.Foundation.ExceptFlow
open SeoPlatform.Foundation.JsonValue
open SeoPlatform.Foundation.SortedLists
open SeoPlatform.Foundation.UrlText
open SeoPlatform.InternalLinks.Building
open SeoPlatform.InternalLinks.FullResult
open SeoPlatform.InternalLinks.Reported (plainReader)

/-- The links that lead to an address. -/
def linksTo (graph : Graph) (url : String) : List Edge :=
  graph.edges.filter fun edge => edge.target == url

def isGeneric (rules : TextRules) (anchor : String) : Bool :=
  genericAnchors.contains (rules.lower (strip anchor))

/-- A page of the graph that several links lead to, none of which says what it is about. -/
structure Unexplained (rules : TextRules) (graph : Graph) (url : String) : Prop where
  page : url ∈ graph.urls
  linked : 2 ≤ (linksTo graph url).length
  silent : ∀ edge ∈ linksTo graph url, edge.anchor = "" ∨ isGeneric rules edge.anchor = true

variable {rules : TextRules} {graph : Graph}

section Profiles

theorem total_eq (url : String) :
    (anchorProfile rules graph url).total = (linksTo graph url).length := by
  have hsplit := List.length_eq_countP_add_countP (l := linksTo graph url)
    (fun edge : Edge => edge.anchor == "")
  rw [hsplit, Nat.add_comm]
  show (((linksTo graph url).map Edge.anchor).filter (· ≠ "")).length + _ = _
  rw [List.filter_map, List.length_map, ← List.countP_eq_length_filter]
  simp [linksTo, Function.comp_def]

theorem generic_eq (url : String) :
    (anchorProfile rules graph url).generic =
      (((linksTo graph url).map Edge.anchor).filter (· ≠ "")).countP (isGeneric rules) :=
  sum_tally_filter (isGeneric rules) _

/-- No link describes a page exactly when each has no text or a generic one. -/
theorem described_eq_zero_iff (url : String) :
    ((anchorProfile rules graph url).total : Int) - (anchorProfile rules graph url).generic -
        (anchorProfile rules graph url).empty = 0 ↔
      ∀ edge ∈ linksTo graph url, edge.anchor = "" ∨ isGeneric rules edge.anchor = true := by
  have htotal : (anchorProfile rules graph url).total =
      (((linksTo graph url).map Edge.anchor).filter (· ≠ "")).length +
        (anchorProfile rules graph url).empty := rfl
  have hcount : (anchorProfile rules graph url).generic =
      (((linksTo graph url).map Edge.anchor).filter (· ≠ "")).length ↔
      ∀ edge ∈ linksTo graph url, edge.anchor = "" ∨ isGeneric rules edge.anchor = true := by
    rw [generic_eq, List.countP_eq_length]
    simp [or_iff_not_imp_left]
  rw [← hcount]
  omega

end Profiles

section Orders

/-- The pages that links lead to. -/
def targets (graph : Graph) : List String :=
  ((graph.edges.map Edge.target).filter fun url => graph.urls.contains url).eraseDups

def qualifies (rules : TextRules) (graph : Graph) (url : String) : Bool :=
  let profile := anchorProfile rules graph url
  2 ≤ profile.total && ((profile.total : Int) - profile.generic - profile.empty == 0)

theorem mem_unexplained_iff (url : String) :
    url ∈ (targets graph).filter (qualifies rules graph) ↔ Unexplained rules graph url := by
  have hlinked : 0 < (linksTo graph url).length ↔ url ∈ graph.edges.map Edge.target := by
    rw [List.length_pos_iff_exists_mem]
    simp [linksTo, List.mem_filter]
  unfold targets qualifies
  simp only [List.mem_filter, List.mem_eraseDups, List.contains_eq_mem, decide_eq_true_eq,
    Bool.and_eq_true, beq_iff_eq, described_eq_zero_iff]
  rw [total_eq]
  constructor
  · rintro ⟨⟨-, hpage⟩, hmany, hsilent⟩
    exact ⟨hpage, hmany, hsilent⟩
  · rintro ⟨hpage, hmany, hsilent⟩
    exact ⟨⟨hlinked.mp (by omega), hpage⟩, hmany, hsilent⟩

/-- The pages are sorted by how many links lead to them, and cut. -/
theorem undescribed_eq (order : List String → List String) :
    undescribed rules order graph =
      ((((order (targets graph)).filter (qualifies rules graph)).insertionSort fun a b =>
        (linksTo graph b).length ≤ (linksTo graph a).length).take 25).map
          (anchorProfile rules graph) := by
  have hsorted := List.map_insertionSort (r := fun a b =>
      (linksTo graph b).length ≤ (linksTo graph a).length)
    (s := fun a b : Profile => b.total ≤ a.total) (anchorProfile rules graph)
    ((order (targets graph)).filter (qualifies rules graph)) fun a _ b _ => by
      rw [total_eq, total_eq]
  have hfound : ((order (targets graph)).map (anchorProfile rules graph)).filter (fun profile =>
      2 ≤ profile.total && ((profile.total : Int) - profile.generic - profile.empty == 0)) =
      ((order (targets graph)).filter (qualifies rules graph)).map (anchorProfile rules graph) :=
    List.filter_map
  rw [List.map_take, hsorted, ← hfound]
  rfl

/-- The addresses of what is listed. -/
theorem urls_undescribed (order : List String → List String) :
    (undescribed rules order graph).map Profile.url =
      (((order (targets graph)).filter (qualifies rules graph)).insertionSort fun a b =>
        (linksTo graph b).length ≤ (linksTo graph a).length).take 25 := by
  rw [undescribed_eq, List.map_map]
  exact List.map_id _

theorem undescribed_eq_iff (order order' : List String → List String) :
    undescribed rules order graph = undescribed rules order' graph ↔
      (undescribed rules order graph).map Profile.url =
        (undescribed rules order' graph).map Profile.url := by
  constructor
  · exact congrArg _
  · intro h
    rw [urls_undescribed, urls_undescribed] at h
    rw [undescribed_eq, undescribed_eq, h]

theorem nodup_unexplained :
    ((targets graph).filter (qualifies rules graph)).Nodup := (nodup_eraseDups _).filter _

/-- Every order of the pages that qualify comes from an order of the targets. -/
theorem exists_order {urls : List String}
    (h : urls.Perm ((targets graph).filter (qualifies rules graph))) :
    ∃ order : List String → List String, (∀ items, (order items).Perm items) ∧
      (order (targets graph)).filter (qualifies rules graph) = urls := by
  refine ⟨fun items => if items = targets graph then
    urls ++ items.filter fun url => !qualifies rules graph url else items, fun items => ?_, ?_⟩
  · dsimp only
    split
    · rename_i heq
      subst heq
      exact (h.append_right _).trans (List.filter_append_perm _ _)
    · exact List.Perm.refl _
  · dsimp only
    rw [if_pos rfl, List.filter_append, List.filter_filter]
    have hall : urls.filter (qualifies rules graph) = urls := by
      rw [List.filter_eq_self]
      exact fun url hurl => (List.mem_filter.mp (h.mem_iff.mp hurl)).2
    rw [hall]
    simp

/-- The list is the same from every order of the set of targets exactly when the pages that
qualify with as many links as another stand behind 25 with more. -/
theorem undescribed_constant_iff (rules : TextRules) (graph : Graph) :
    (∀ order order' : List String → List String, (∀ urls, (order urls).Perm urls) →
        (∀ urls, (order' urls).Perm urls) →
        undescribed rules order graph = undescribed rules order' graph) ↔
      ∀ a b, Unexplained rules graph a → Unexplained rules graph b → a ≠ b →
        (linksTo graph a).length = (linksTo graph b).length →
        25 ≤ {url | Unexplained rules graph url ∧
          (linksTo graph a).length < (linksTo graph url).length}.ncard := by
  have hmore : ∀ a, {url | Unexplained rules graph url ∧
      (linksTo graph a).length < (linksTo graph url).length}.ncard =
      ((targets graph).filter (qualifies rules graph)).countP fun url =>
        (linksTo graph a).length < (linksTo graph url).length := by
    intro a
    rw [List.countP_eq_length_filter]
    refine ncard_eq_length (nodup_unexplained.filter _) fun url => ?_
    rw [List.mem_filter, mem_unexplained_iff, decide_eq_true_iff]
  have hties : TiesBehind (fun url => (linksTo graph url).length) 25
      ((targets graph).filter (qualifies rules graph)) ↔
      ∀ a b, Unexplained rules graph a → Unexplained rules graph b → a ≠ b →
        (linksTo graph a).length = (linksTo graph b).length →
        25 ≤ {url | Unexplained rules graph url ∧
          (linksTo graph a).length < (linksTo graph url).length}.ncard := by
    unfold TiesBehind
    simp only [hmore, mem_unexplained_iff]
    exact ⟨fun h a b ha hb => h a ha b hb, fun h a ha b hb => h a b ha hb⟩
  rw [← hties, ← take_insertionSort_constant_iff nodup_unexplained]
  constructor
  · intro h urls urls' hurls hurls'
    obtain ⟨order, horder, rfl⟩ := exists_order hurls
    obtain ⟨order', horder', rfl⟩ := exists_order hurls'
    have hsame := h order order' horder horder'
    rwa [undescribed_eq_iff, urls_undescribed, urls_undescribed] at hsame
  · intro h order order' horder horder'
    rw [undescribed_eq_iff, urls_undescribed, urls_undescribed]
    exact h _ _ ((horder _).filter _) ((horder' _).filter _)

/-- A crawl of two pages that each link to the other twice, with «اینجا» as the text. -/
def mutualLinks : Dict :=
  let page (url : String) : Json := .obj [("url", .str url), ("status", .int 200)]
  let edge (source target : String) : Json :=
    .obj [("from", .str source), ("to", .str target), ("anchor", .str "اینجا")]
  [("pages", .arr [page "https://a.ir/", page "https://a.ir/blog"]),
   ("links", .obj [("edges", .arr
     [edge "https://a.ir/" "https://a.ir/blog", edge "https://a.ir/" "https://a.ir/blog",
      edge "https://a.ir/blog" "https://a.ir/", edge "https://a.ir/blog" "https://a.ir/"])])]

/-- The two pages are listed in the order in which the set is gone through. -/
theorem undescribed_varies : ∃ graph, build plainReader mutualLinks = .ok graph ∧
    ∃ order order' : List String → List String, (∀ urls, (order urls).Perm urls) ∧
      (∀ urls, (order' urls).Perm urls) ∧
      undescribed plainReader.rules order graph ≠ undescribed plainReader.rules order' graph := by
  have hbuilt : (build plainReader mutualLinks).isOk = true := by decide +kernel
  obtain ⟨graph, hgraph⟩ := ok_of_isOk hbuilt
  refine ⟨graph, hgraph, id, List.reverse, fun urls => List.Perm.refl _, List.reverse_perm, ?_⟩
  intro hsame
  have hlisted : (build plainReader mutualLinks).map (fun graph =>
      ((undescribed plainReader.rules id graph).map Profile.url,
        (undescribed plainReader.rules List.reverse graph).map Profile.url)) =
      .ok (["https://a.ir/blog", "https://a.ir/"], ["https://a.ir/", "https://a.ir/blog"]) := by
    decide +kernel
  rw [hgraph, Except.map, hsame] at hlisted
  have hpair := Prod.mk.inj (Except.ok.inj hlisted)
  rw [hpair.1] at hpair
  exact absurd hpair.2 (by decide)

end Orders

end SeoPlatform.InternalLinks.Undescribed
