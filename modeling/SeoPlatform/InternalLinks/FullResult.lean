import SeoPlatform.Foundation.PythonJson
import SeoPlatform.InternalLinks.Findings
import SeoPlatform.InternalLinks.Reported
import SeoPlatform.Shared.Restarts

namespace SeoPlatform.InternalLinks.FullResult

open SeoPlatform.Foundation.Counter
open SeoPlatform.Foundation.ExceptFlow
open SeoPlatform.Foundation.JsonValue
open SeoPlatform.Foundation.PythonJson
open SeoPlatform.Foundation.UrlText
open SeoPlatform.InternalLinks.Authority
open SeoPlatform.InternalLinks.Building
open SeoPlatform.InternalLinks.Findings
open SeoPlatform.InternalLinks.Reported (plainReader)
open SeoPlatform.Orchestrator.Engine (asDict)
open SeoPlatform.Shared.Exceptions
open SeoPlatform.Shared.Restarts

section Profiles

def genericAnchors : List String :=
  ["اینجا", "کلیک کنید", "کلیک", "بیشتر", "ادامه مطلب", "ادامه", "لینک", "این لینک",
   "بیشتر بخوانید", "مشاهده", "جزئیات", "اطلاعات بیشتر", "دانلود",
   "click here", "here", "read more", "more", "link", "this", "learn more",
   "details", "download", "continue", "see more"]

/-- What the site calls a page when it links to it. -/
structure Profile where
  url : String
  variants : List (String × Nat)
  generic : Nat
  empty : Nat
  total : Nat

variable (rules : TextRules)

def anchorProfile (graph : Graph) (url : String) : Profile :=
  let there := graph.edges.filter fun edge => edge.target == url
  let anchors := (there.map Edge.anchor).filter (· ≠ "")
  let counted := tally anchors
  let empty := there.countP fun edge => edge.anchor == ""
  { url := url
    variants := mostCommon 10 counted
    generic := ((counted.filter fun entry =>
      genericAnchors.contains (rules.lower (strip entry.1))).map Prod.snd).sum
    empty := empty
    total := anchors.length + empty }

/-- Pages whose incoming links never say what they are about. `setOrder` is the order in
which a set is gone through. -/
def undescribed (setOrder : List String → List String) (graph : Graph) : List Profile :=
  let urls := setOrder
    ((graph.edges.map Edge.target).filter fun url => graph.urls.contains url).eraseDups
  let found := (urls.map (anchorProfile rules graph)).filter fun profile =>
    2 ≤ profile.total && ((profile.total : Int) - profile.generic - profile.empty == 0)
  (found.insertionSort fun a b => b.total ≤ a.total).take 25

def hubs (graph : Graph) (ranking : Ranks) : List (String × Page) :=
  ((graph.pages.entries.filter fun entry => entry.2.indexable).insertionSort fun a b =>
    (ranking.get? b.1).getD 0 ≤ (ranking.get? a.1).getD 0).take 10

end Profiles

section Values

def texts (items : List String) : Value := .list (items.map .str)

def record (fields : List (String × Value)) : Value := .dict (named fields)

def ofProfile (profile : Profile) : Value :=
  record
    [("url", .str profile.url),
     ("variants", .list (profile.variants.map fun entry =>
       record [("anchor", .str entry.1), ("count", .int entry.2)])),
     ("generic", .int profile.generic),
     ("empty", .int profile.empty),
     ("total", .int profile.total)]

def ofBroken (target : Target) : Value :=
  record [("url", .str target.url), ("status", .int target.status),
    ("linked_from", .int target.linkedFrom)]

def ofNoindex (target : Target) : Value :=
  record [("url", .str target.url), ("linked_from", .int target.linkedFrom)]

def ofHub (graph : Graph) (ranking : Ranks) (entry : String × Page) : Value :=
  record
    [("url", .str entry.1),
     ("title", loads entry.2.title),
     ("authority", .float ((ranking.get? entry.1).getD 0)),
     ("outgoing", .int (countOf (tally (graph.edges.map Edge.source)) entry.1))]

def ofCandidate (row : Candidate) : Value :=
  record
    [("url", .str row.url),
     ("title", loads row.title),
     ("words", .int row.words),
     ("inlinks", .int row.inlinks),
     ("depth", .int row.depth),
     ("authority", .float row.authority)]

/-- How many pages there are of each depth, by depth. -/
def depthHistogram (depths : List Int) : List (Key × Value) :=
  ((tally depths).insertionSort fun a b => a.1 ≤ b.1).map fun entry =>
    (.int entry.1, .int entry.2)

/-- The fields of the analysis. `truncated` says whether the crawl left links out. -/
def resultOf (setOrder : List String → List String) (rules : TextRules) (graph : Graph)
    (ranking : Ranks) (summary : Summary) (truncated : Bool) : List (String × Value) :=
  let indexable := (graph.pages.entries.map Prod.snd).filter Page.indexable
  [("pages", .int summary.pages),
   ("indexable_pages", .int indexable.length),
   ("internal_links", .int summary.internalLinks),
   ("truncated", .bool truncated),
   ("average_inlinks", loads summary.averageInlinks),
   ("max_depth", .int summary.maxDepth),
   ("depth_histogram", .dict (depthHistogram (indexable.map Page.depth))),
   ("orphans", texts summary.orphans),
   ("dead_ends", texts summary.deadEnds),
   ("broken_targets", .list (summary.brokenTargets.map ofBroken)),
   ("links_to_noindex", .list (summary.linksToNoindex.map ofNoindex)),
   ("undescribed", .list ((undescribed rules setOrder graph).map ofProfile)),
   ("hubs", .list ((hubs graph ranking).map (ofHub graph ranking))),
   ("overlooked", .list (summary.overlooked.map ofCandidate)),
   ("nofollow_internal", .int (graph.edges.countP Edge.nofollow))]

/-- The whole analysis, as `summarise` returns it. -/
def fullResult (setOrder : List String → List String) (reader : Reader) (report : Dict) :
    Except Exn (List (String × Value)) := do
  let graph ← build reader report
  let ranking ← authority graph
  let summary ← summarise reader report
  let links ← asDict ((Dict.get report "links").orElse (.obj []))
  .ok (resultOf setOrder reader.rules graph ranking summary (Dict.get links "truncated").truthy)

end Values

section Keeping

theorem kept_record {fields : List (String × Value)} (hnames : (fields.map Prod.fst).Nodup)
    (h : ∀ field ∈ fields, Kept field.2) : Kept (record fields) :=
  kept_named hnames h

theorem kept_texts (items : List String) : Kept (texts items) :=
  kept_map fun item _ => kept_str item

theorem kept_ofProfile (profile : Profile) : Kept (ofProfile profile) := by
  have hvariants : Kept (.list (profile.variants.map fun entry =>
      record [("anchor", .str entry.1), ("count", .int entry.2)])) := by
    refine kept_map fun entry _ => kept_record (by simp) ?_
    simp only [List.forall_mem_cons]
    exact ⟨kept_str _, kept_int _, List.forall_mem_nil _⟩
  refine kept_record (by simp) ?_
  simp only [List.forall_mem_cons]
  exact ⟨kept_str _, hvariants, kept_int _, kept_int _, kept_int _, List.forall_mem_nil _⟩

theorem kept_ofBroken (target : Target) : Kept (ofBroken target) := by
  refine kept_record (by simp) ?_
  simp only [List.forall_mem_cons]
  exact ⟨kept_str _, kept_int _, kept_int _, List.forall_mem_nil _⟩

theorem kept_ofNoindex (target : Target) : Kept (ofNoindex target) := by
  refine kept_record (by simp) ?_
  simp only [List.forall_mem_cons]
  exact ⟨kept_str _, kept_int _, List.forall_mem_nil _⟩

theorem kept_ofHub (graph : Graph) (ranking : Ranks) (entry : String × Page) :
    Kept (ofHub graph ranking entry) := by
  refine kept_record (by simp) ?_
  simp only [List.forall_mem_cons]
  exact ⟨kept_str _, kept_loads _, kept_float _, kept_int _, List.forall_mem_nil _⟩

theorem kept_ofCandidate (row : Candidate) : Kept (ofCandidate row) := by
  refine kept_record (by simp) ?_
  simp only [List.forall_mem_cons]
  exact ⟨kept_str _, kept_loads _, kept_int _, kept_int _, kept_int _, kept_float _,
    List.forall_mem_nil _⟩

theorem distinct_depthHistogram (depths : List Int) :
    Distinct (.dict (depthHistogram depths)) := by
  refine .dict ?_ ?_
  · have hkeys : (depthHistogram depths).map Prod.fst =
        (((tally depths).insertionSort fun a b => a.1 ≤ b.1).map Prod.fst).map Key.int := by
      unfold depthHistogram
      rw [List.map_map, List.map_map]
      rfl
    have hperm := ((tally depths).perm_insertionSort fun a b => a.1 ≤ b.1).map Prod.fst
    rw [map_fst_tally] at hperm
    rw [hkeys]
    exact (hperm.nodup_iff.mpr (nodup_eraseDups depths)).map fun _ _ => Key.int.inj
  · unfold depthHistogram
    rw [List.forall_mem_map]
    exact fun entry _ => .int _

/-- A number is no text, so the histogram is read back only where it is empty. -/
theorem plain_depthHistogram_iff (depths : List Int) :
    Plain (.dict (depthHistogram depths)) ↔ depths = [] := by
  constructor
  · intro h
    rw [plain_dict_iff] at h
    rw [List.eq_nil_iff_forall_not_mem]
    intro depth hdepth
    have hcounted : (depth, depths.count depth) ∈ tally depths := mem_tally_iff.mpr ⟨hdepth, rfl⟩
    have hlisted : (Key.int depth, Value.int (depths.count depth)) ∈ depthHistogram depths :=
      List.mem_map.mpr ⟨_, (List.mem_insertionSort _).mpr hcounted, rfl⟩
    obtain ⟨⟨s, hs⟩, -⟩ := h _ hlisted
    cases hs
  · rintro rfl
    exact plain_dict_iff.mpr nofun

/-- All of an analysis but its histogram is read back. -/
theorem kept_of_mem_resultOf {setOrder : List String → List String} {rules : TextRules}
    {graph : Graph} {ranking : Ranks} {summary : Summary} {truncated : Bool} :
    ∀ field ∈ resultOf setOrder rules graph ranking summary truncated,
      Kept field.2 ∨ field.2 = .dict (depthHistogram
        (((graph.pages.entries.map Prod.snd).filter Page.indexable).map Page.depth)) := by
  unfold resultOf
  simp only [List.forall_mem_cons]
  refine ⟨.inl (kept_int _), .inl (kept_int _), .inl (kept_int _), .inl (kept_bool _),
    .inl (kept_loads _), .inl (kept_int _), .inr trivial, .inl (kept_texts _), .inl (kept_texts _),
    .inl (kept_map ?_), .inl (kept_map ?_), .inl (kept_map ?_), .inl (kept_map ?_),
    .inl (kept_map ?_), .inl (kept_int _), List.forall_mem_nil _⟩
  · exact fun target _ => kept_ofBroken target
  · exact fun target _ => kept_ofNoindex target
  · exact fun profile _ => kept_ofProfile profile
  · exact fun entry _ => kept_ofHub graph ranking entry
  · exact fun row _ => kept_ofCandidate row

/-- What a link analysis returns is read back the same exactly when no page of the crawl
may be indexed. -/
theorem plain_fullResult_iff {setOrder : List String → List String} {reader : Reader}
    {report : Dict} {graph : Graph} {fields : List (String × Value)}
    (hgraph : build reader report = .ok graph)
    (h : fullResult setOrder reader report = .ok fields) :
    Plain (.dict (named fields)) ↔
      ∀ page ∈ graph.pages.entries.map Prod.snd, page.indexable = false := by
  unfold fullResult at h
  obtain ⟨built, hbuilt, h⟩ := ok_of_bind h
  obtain ⟨ranking, -, h⟩ := ok_of_bind h
  obtain ⟨summary, -, h⟩ := ok_of_bind h
  obtain ⟨links, -, h⟩ := ok_of_bind h
  obtain rfl := Except.ok.inj h
  obtain rfl := Except.ok.inj (hbuilt.symm.trans hgraph)
  have hdepths : ((built.pages.entries.map Prod.snd).filter Page.indexable).map Page.depth = [] ↔
      ∀ page ∈ built.pages.entries.map Prod.snd, page.indexable = false := by
    rw [List.map_eq_nil_iff, List.filter_eq_nil_iff]
    exact forall₂_congr fun page _ => iff_of_eq (Bool.not_eq_true _)
  rw [plain_named_iff, ← hdepths, ← plain_depthHistogram_iff]
  constructor
  · intro hfields
    exact hfields ("depth_histogram", _) (by simp [resultOf])
  · intro hhistogram field hfield
    rcases kept_of_mem_resultOf field hfield with hkept | heq
    · exact hkept.plain
    · rwa [heq]

/-- Each dictionary of an analysis has a key once. -/
theorem distinct_fullResult {setOrder : List String → List String} {reader : Reader}
    {report : Dict} {fields : List (String × Value)}
    (h : fullResult setOrder reader report = .ok fields) : Distinct (.dict (named fields)) := by
  unfold fullResult at h
  obtain ⟨graph, -, h⟩ := ok_of_bind h
  obtain ⟨ranking, -, h⟩ := ok_of_bind h
  obtain ⟨summary, -, h⟩ := ok_of_bind h
  obtain ⟨links, -, h⟩ := ok_of_bind h
  obtain rfl := Except.ok.inj h
  refine distinct_named (by simp [resultOf]) fun field hfield => ?_
  rcases kept_of_mem_resultOf field hfield with hkept | heq
  · exact hkept.distinct
  · rw [heq]
    exact distinct_depthHistogram _

end Keeping

section Rereading

variable {repr : Rat → String} {names : Fallbacks} {now : String}

/-- A record that was completed is held in memory, and is the same after a restart exactly
when its id and subject are not empty and its result has only texts as keys and no tuples.
For the analysis of a site's links that is when no page may be indexed. -/
theorem completed_reread_iff {store : FileJobStore} {jobId : String} {result : PyDict}
    (hdistinct : Distinct (.dict result)) {record : JobRecord} {after : FileJobStore}
    (h : store.complete repr names now jobId result = .ok (record, after)) :
    (after.memory jobId = some record ∧
      ((FileJobStore.opened after.files).read names record.jobId = .ok (some record) ↔
        record.jobId ≠ "" ∧ record.subject ≠ "" ∧ Plain (.dict result))) ∧
    ∀ setOrder reader report graph fields, build reader report = .ok graph →
      fullResult setOrder reader report = .ok fields → result = named fields →
      (Plain (.dict result) ↔
        ∀ page ∈ graph.pages.entries.map Prod.snd, page.indexable = false) := by
  refine ⟨reread_iff hdistinct h, ?_⟩
  rintro setOrder reader report graph fields hgraph hfields rfl
  exact plain_fullResult_iff hgraph hfields

/-- A store in which one analysis of the crawl `c1` was created. -/
def created : FileJobStore :=
  (FileJobStore.opened fun _ => none).create (fun _ => "")
    { jobId := "l1", subject := "c1", createdAt := "", updatedAt := "" }

theorem complete_created (result : PyDict) :
    ∃ record after, record.jobId = "l1" ∧ record.subject = "c1" ∧
      created.complete (fun _ => "") analysisRecord "" "l1" result = .ok (record, after) :=
  ⟨_, _, rfl, rfl, rfl⟩

def histogramOfOne : PyDict := named [("depth_histogram", .dict (depthHistogram [0]))]

theorem completed_reread_iff_created : ∃ record after,
    created.complete (fun _ => "") analysisRecord "" "l1" histogramOfOne = .ok (record, after) ∧
    (after.memory "l1" = some record ∧
      ((FileJobStore.opened after.files).read analysisRecord record.jobId = .ok (some record) ↔
        record.jobId ≠ "" ∧ record.subject ≠ "" ∧ Plain (.dict histogramOfOne))) := by
  have hdistinct : Distinct (.dict histogramOfOne) := by
    refine distinct_named (by simp) ?_
    simp only [List.forall_mem_cons]
    exact ⟨distinct_depthHistogram [0], List.forall_mem_nil _⟩
  obtain ⟨record, after, -, -, h⟩ := complete_created histogramOfOne
  exact ⟨record, after, h, (completed_reread_iff hdistinct h).1⟩

/-- The report of a crawl that found one page. -/
def onePage : Dict :=
  [("pages", .arr [.obj [("url", .str "https://a.ir/"), ("status", .int 200),
    ("indexable", .bool true)]])]

/-- The pages of depth 0 are counted under a number, and under a text after a restart. -/
theorem not_reread_onePage : ∃ fields record after,
    fullResult id plainReader onePage = .ok fields ∧
      created.complete (fun _ => "") analysisRecord "" "l1" (named fields) =
        .ok (record, after) ∧
      after.memory "l1" = some record ∧
      (FileJobStore.opened after.files).read analysisRecord record.jobId ≠ .ok (some record) := by
  have hran : (fullResult id plainReader onePage).isOk = true := by decide +kernel
  obtain ⟨fields, hfields⟩ := ok_of_isOk hran
  obtain ⟨record, after, -, -, h⟩ := complete_created (named fields)
  obtain ⟨hmemory, hread⟩ := reread_iff (distinct_fullResult hfields) h
  refine ⟨fields, record, after, hfields, h, hmemory, fun hsame => ?_⟩
  have hplain := (hread.mp hsame).2.2
  have hbuilt : (build plainReader onePage).isOk = true := by decide +kernel
  obtain ⟨graph, hgraph⟩ := ok_of_isOk hbuilt
  have hindexable : (build plainReader onePage).map
      (fun graph => (graph.pages.entries.map Prod.snd).all fun page => !page.indexable) =
        .ok false := by decide +kernel
  have hnone := (plain_fullResult_iff hgraph hfields).mp hplain
  have hall : ((graph.pages.entries.map Prod.snd).all fun page => !page.indexable) = true := by
    rw [List.all_eq_true]
    intro page hpage
    rw [hnone page hpage]
    rfl
  rw [hgraph, Except.map, hall] at hindexable
  cases hindexable

end Rereading

end SeoPlatform.InternalLinks.FullResult
