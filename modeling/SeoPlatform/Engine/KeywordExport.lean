import SeoPlatform.Reporting.Tables

namespace SeoPlatform.Engine.KeywordExport

open SeoPlatform.Foundation.ExceptFlow
open SeoPlatform.Foundation.JsonValue
open SeoPlatform.Foundation.TextTable
open SeoPlatform.Orchestrator.Engine (asDict)
open SeoPlatform.Orchestrator.Planner (iterate letters)
open SeoPlatform.Reporting.Rendering (text fieldOr asText Served markdown markdownBlocks)
open SeoPlatform.Reporting.Tables
open SeoPlatform.Shared.Exceptions

section Export

variable (shown : Json → String)

/-- `value[key]`. -/
def item (v : Json) (key : String) : Except Exn Json :=
  match v with
  | .obj d =>
      match Dict.get? d key with
      | some found => .ok found
      | none => .error (.keyError key)
  | .str _ => .error (.typeError "string indices must be integers, not 'str'")
  | .arr _ => .error (.typeError "list indices must be integers or slices, not str")
  | _ => .error (.typeError "object is not subscriptable")

def itemText (v : Json) (key : String) : Except Exn String := do
  .ok (text shown (← item v key))

/-- `"، ".join(value)`. -/
def joined (v : Json) : Except Exn String := do
  .ok ("، ".intercalate (← (← iterate v).mapM asText))

/-- One bullet for each item. -/
def bullets (v : Json) : Except Exn (List String) := do
  .ok ((← iterate v).map fun entry => "- " ++ text shown entry)

def angleLines (angle : Json) : Except Exn (List String) := do
  .ok (["### " ++ (← itemText shown angle "title"), "",
    "*کلمه کلیدی هدف:* " ++ (← itemText shown angle "target_keyword") ++ " | *نیت:* " ++
      (← itemText shown angle "intent"), ""] ++
    (← bullets shown (← fieldOr angle "outline" (.arr []))) ++ [""])

def questionLines (questions : Json) : Except Exn (List String) :=
  if questions.truthy then do
    .ok (["### سؤال‌هایی که باید جواب بدهی", ""] ++ (← bullets shown questions) ++ [""])
  else .ok []

def entityLines (entities : Json) : Except Exn (List String) :=
  if entities.truthy then do
    .ok ["### موجودیت‌ها و اصطلاحات لازم", "", ← joined entities, ""]
  else .ok []

/-- What the model suggested, unless it failed. -/
def suggestionLines (ai : Json) : Except Exn (List String) :=
  if ai.truthy then do
    let fields ← asDict ai
    if (Dict.get fields "error").truthy then .ok []
    else do
      let summary ← asText (Dict.getD fields "summary" (.str ""))
      let angles ← (← iterate (Dict.getD fields "angles" (.arr []))).mapM (angleLines shown)
      let questions ← questionLines shown (Dict.get fields "questions_to_answer")
      let entities ← entityLines (Dict.get fields "entities")
      .ok (["## تحلیل هوش مصنوعی", "", summary, ""] ++ angles.flatten ++ questions ++ entities)
  else .ok []

def trendingLines (trending : Json) : Except Exn (List String) :=
  if trending.truthy then do
    .ok ["## ترندهای امروز گوگل", "", ← joined trending, ""]
  else .ok []

def planColumns : List String :=
  ["primary_keyword", "page_type", "intent_fa", "cluster_size", "suggested_title"]

def planCells (entry : Json) : Except Exn (List String) :=
  planColumns.mapM (itemText shown entry)

def keywordCells (keyword : Json) : Except Exn (List String) := do
  .ok [← itemText shown keyword "keyword", ← itemText shown keyword "demand",
    ← itemText shown keyword "opportunity", ← itemText shown keyword "intent_fa",
    ← joined (← item keyword "sources")]

/-- A closing section, if there is something to list. -/
def closingLines (heading : String) (v : Json) (body : Json → Except Exn (List String)) :
    Except Exn (List String) :=
  if v.truthy then do .ok (["", heading, ""] ++ (← body v)) else .ok []

/-- The report of a keyword research, block by block. -/
def keywordBlocks (report : Dict) : Except Exn (List Block) := do
  let opening := ["# تحقیق کلمات کلیدی — «" ++ (← itemText shown (.obj report) "seed") ++ "»", "",
    "**زبان/کشور:** " ++ (← itemText shown (.obj report) "lang") ++ " / " ++
      (← itemText shown (.obj report) "country") ++ "  ",
    "**تعداد کلمات یافت‌شده:** " ++ (← itemText shown (.obj report) "total") ++ " (از " ++
      (← itemText shown (.obj report) "queries_sent") ++ " پرس‌وجو)", ""]
  let suggestions ← suggestionLines shown (Dict.get report "ai_suggestions")
  let trending ← trendingLines (Dict.get report "trending")
  let plan ← (← iterate (Dict.getD report "plan" (.arr []))).mapM (planCells shown)
  let keywords ← (← iterate (Dict.getD report "keywords" (.arr []))).mapM (keywordCells shown)
  let questions ← closingLines "## پرسش‌های کاربران" (Dict.get report "questions") (bullets shown)
  let entities ← closingLines "## موجودیت‌های مرتبط (ویکی‌پدیا)" (Dict.get report "entities")
    fun v => do .ok [← joined v]
  let errors ← closingLines "## هشدارها" (Dict.get report "errors") (bullets shown)
  .ok [.lines (opening ++ suggestions ++ trending ++ ["## برنامه محتوایی پیشنهادی", ""]),
    .table ["کلمه کلیدی اصلی", "نوع صفحه", "نیت", "اندازه خوشه", "عنوان پیشنهادی"] plan,
    .lines ["", "## کلمات کلیدی", "",
      "> «تقاضا» و «فرصت» امتیاز نسبی و تخمینی هستند که از داده‌ی پیشنهاد خودکار موتورهای " ++
        "جستجو محاسبه می‌شوند — حجم جستجوی واقعی نیستند.", ""],
    .table ["کلمه کلیدی", "تقاضا", "فرصت", "نیت", "منابع"] keywords,
    .lines (questions ++ entities ++ errors)]

def keywordsMarkdown (report : Dict) : Except Exn String := do
  .ok (toText (← keywordBlocks shown report))

end Export

def shownPlan (entry : Json) : List Json := planColumns.map fun key => cellAt entry key .null

def shownKeyword (keyword : Json) : List Json :=
  [cellAt keyword "keyword" .null, cellAt keyword "demand" .null,
    cellAt keyword "opportunity" .null, cellAt keyword "intent_fa" .null] ++
    itemsOf (cellAt keyword "sources" .null)

/-- The values that the tables of a keyword report show. -/
def shownEntries (report : Dict) : List Json :=
  (itemsOf (Dict.getD report "plan" (.arr []))).flatMap shownPlan ++
    (itemsOf (Dict.getD report "keywords" (.arr []))).flatMap shownKeyword

/-- No value that a table shows ends a line or a cell. -/
def FlatKeywords (shown : Json → String) (report : Dict) : Prop :=
  ∀ v ∈ shownEntries report, Flat (text shown v)

section Tables

variable {shown : Json → String} {v : Json} {key words : String}

theorem cellAt_of_item {found : Json} (h : item v key = .ok found) :
    found = cellAt v key .null := by
  cases v with
  | obj d =>
      unfold item at h
      unfold cellAt Dict.getD
      dsimp only at h ⊢
      split at h
      · rename_i hfound
        cases h
        rw [hfound]
        rfl
      · contradiction
  | null | bool | int | float | str | arr => contradiction

theorem cellAt_of_itemText (h : itemText shown v key = .ok words) :
    words = text shown (cellAt v key .null) := by
  obtain ⟨found, hfound, h⟩ := ok_of_bind h
  cases h
  rw [cellAt_of_item hfound]

/-- Texts that are joined are flat together if each of them is. -/
theorem flat_joined (h : joined v = .ok words) :
    Flat words ↔ ∀ entry ∈ itemsOf v, Flat (text shown entry) := by
  obtain ⟨items, hitems, h⟩ := ok_of_bind h
  obtain ⟨texts, hmade, h⟩ := ok_of_bind h
  cases h
  have htexts : texts = items.map (text shown) := by
    rw [← List.map_id texts]
    apply map_of_mapM _ hmade
    intro entry words hentry
    cases entry with
    | str s => exact (Except.ok.inj hentry).symm
    | null | bool | int | float | arr | obj => contradiction
  rw [itemsOf_of_iterate hitems, flat_join rfl (by decide) (by decide), htexts,
    List.forall_mem_map]

theorem shows_planCells : Shows shown 5 (planCells shown) shownPlan :=
  shows_mapM shown (fun _ _ _ => cellAt_of_itemText) planColumns

theorem shows_keywordCells : Shows shown 5 (keywordCells shown) shownKeyword := by
  intro row texts h
  obtain ⟨keyword, hkeyword, h⟩ := ok_of_bind h
  obtain ⟨demand, hdemand, h⟩ := ok_of_bind h
  obtain ⟨opportunity, hopportunity, h⟩ := ok_of_bind h
  obtain ⟨intent, hintent, h⟩ := ok_of_bind h
  obtain ⟨sources, hsources, h⟩ := ok_of_bind h
  obtain ⟨listed, hlisted, h⟩ := ok_of_bind h
  cases h
  refine ⟨rfl, ?_⟩
  unfold shownKeyword
  rw [List.forall_mem_append, ← cellAt_of_item hsources, ← flat_joined hlisted]
  simp only [List.forall_mem_cons, List.not_mem_nil, false_imp_iff, implies_true, and_true,
    and_assoc]
  rw [cellAt_of_itemText hkeyword, cellAt_of_itemText hdemand, cellAt_of_itemText hopportunity,
    cellAt_of_itemText hintent]

variable {report : Dict} {blocks : List Block}

/-- The tables of a keyword report are kept if the values that they show are flat, and
only then. -/
theorem kept_keywordBlocks (h : keywordBlocks shown report = .ok blocks) :
    (∀ block ∈ blocks, block.Kept) ↔ FlatKeywords shown report := by
  obtain ⟨seed, -, h⟩ := ok_of_bind h
  obtain ⟨lang, -, h⟩ := ok_of_bind h
  obtain ⟨country, -, h⟩ := ok_of_bind h
  obtain ⟨total, -, h⟩ := ok_of_bind h
  obtain ⟨sent, -, h⟩ := ok_of_bind h
  obtain ⟨suggestions, -, h⟩ := ok_of_bind h
  obtain ⟨trending, -, h⟩ := ok_of_bind h
  obtain ⟨planned, hplanned, h⟩ := ok_of_bind h
  obtain ⟨plan, hplan, h⟩ := ok_of_bind h
  obtain ⟨listed, hlisted, h⟩ := ok_of_bind h
  obtain ⟨keywords, hkeywords, h⟩ := ok_of_bind h
  obtain ⟨questions, -, h⟩ := ok_of_bind h
  obtain ⟨entities, -, h⟩ := ok_of_bind h
  obtain ⟨errors, -, h⟩ := ok_of_bind h
  cases h
  have hnil := List.forall_mem_nil Flat
  obtain ⟨hplanRows, hplanFlat⟩ := shows_rows shows_planCells hplan
  obtain ⟨hkeywordRows, hkeywordFlat⟩ := shows_rows shows_keywordCells hkeywords
  have hplanColumns : ∀ name ∈
      ["کلمه کلیدی اصلی", "نوع صفحه", "نیت", "اندازه خوشه", "عنوان پیشنهادی"], Flat name :=
    flat_columns rfl (by decide) (flat_columns rfl (by decide) (flat_columns rfl (by decide)
      (flat_columns rfl (by decide) (flat_columns rfl (by decide) hnil))))
  have hkeywordColumns : ∀ name ∈ ["کلمه کلیدی", "تقاضا", "فرصت", "نیت", "منابع"], Flat name :=
    flat_columns rfl (by decide) (flat_columns rfl (by decide) (flat_columns rfl (by decide)
      (flat_columns rfl (by decide) (flat_columns rfl (by decide) hnil))))
  unfold FlatKeywords shownEntries
  rw [itemsOf_of_iterate hplanned, itemsOf_of_iterate hlisted, List.forall_mem_append,
    ← hplanFlat, ← hkeywordFlat, ← kept_iff hplanColumns hplanRows,
    ← kept_iff hkeywordColumns hkeywordRows]
  simp

theorem read_keywordsMarkdown (h : keywordsMarkdown shown report = .ok words) :
    ∃ blocks, keywordBlocks shown report = .ok blocks ∧
      linesOf words = blocks.flatMap Block.readLines := by
  obtain ⟨blocks, hblocks, h⟩ := ok_of_bind h
  cases h
  refine ⟨blocks, hblocks, linesOf_toText ?_⟩
  obtain ⟨seed, -, h⟩ := ok_of_bind hblocks
  obtain ⟨lang, -, h⟩ := ok_of_bind h
  obtain ⟨country, -, h⟩ := ok_of_bind h
  obtain ⟨total, -, h⟩ := ok_of_bind h
  obtain ⟨sent, -, h⟩ := ok_of_bind h
  obtain ⟨suggestions, -, h⟩ := ok_of_bind h
  obtain ⟨trending, -, h⟩ := ok_of_bind h
  obtain ⟨planned, -, h⟩ := ok_of_bind h
  obtain ⟨plan, -, h⟩ := ok_of_bind h
  obtain ⟨listed, -, h⟩ := ok_of_bind h
  obtain ⟨keywords, -, h⟩ := ok_of_bind h
  obtain ⟨questions, -, h⟩ := ok_of_bind h
  obtain ⟨entities, -, h⟩ := ok_of_bind h
  obtain ⟨errors, -, h⟩ := ok_of_bind h
  cases h
  rw [List.flatMap_cons]
  exact List.append_ne_nil_of_left_ne_nil (List.cons_ne_nil _ _) _

end Tables

/-- The tables of a report of a workflow, and those of a keyword report, are read row
by row if and only if no value that they show ends a line or a cell. -/
theorem tables_stay_tables (shown : Json → String) :
    (∀ w words, markdown shown w = .ok words →
      ∃ blocks, markdownBlocks shown w = .ok blocks ∧
        linesOf words = blocks.flatMap Block.readLines ∧
        ((∀ block ∈ blocks, block.Kept) ↔ FlatReport shown w)) ∧
      ∀ report words, keywordsMarkdown shown report = .ok words →
        ∃ blocks, keywordBlocks shown report = .ok blocks ∧
          linesOf words = blocks.flatMap Block.readLines ∧
          ((∀ block ∈ blocks, block.Kept) ↔ FlatKeywords shown report) := by
  constructor
  · intro w words h
    obtain ⟨blocks, hblocks, hread⟩ := read_markdown h
    exact ⟨blocks, hblocks, hread, kept_markdownBlocks hblocks⟩
  · intro report words h
    obtain ⟨blocks, hblocks, hread⟩ := read_keywordsMarkdown h
    exact ⟨blocks, hblocks, hread, kept_keywordBlocks hblocks⟩

/-- `str` of a whole number. -/
def shownInt : Json → String
  | .int n => toString n
  | _ => ""

/-- A crawl that failed with an error of a library. -/
def failedCrawl (fault : String) : Served where
  workflowId := "w-1"
  status := "failed"
  createdAt := "2026-01-05T09:00:00+00:00"
  error := none
  inputs := [("start_url", .str "https://shop.ir")]
  steps := [{ position := 1, kind := "crawl", status := "failed", error := some fault }]
  report := none

/-- A study that found one keyword. -/
def study (keyword : String) : Dict :=
  [("seed", .str "shoes"), ("lang", .str "en"), ("country", .str "us"), ("total", .int 1),
    ("queries_sent", .int 3), ("plan", .arr []),
    ("keywords", .arr [.obj [("keyword", .str keyword), ("demand", .int 40),
      ("opportunity", .int 30), ("intent_fa", .str "info"),
      ("sources", .arr [.str "google"])]])]

theorem tables_stay_tables_plain :
    ∃ blocks, keywordBlocks shownInt (study "red shoes") = .ok blocks ∧
      ((∀ block ∈ blocks, block.Kept) ↔ FlatKeywords shownInt (study "red shoes")) := by
  obtain ⟨blocks, hblocks, -, hkept⟩ := (tables_stay_tables shownInt).2 (study "red shoes") _ rfl
  exact ⟨blocks, hblocks, hkept⟩

/-- A line break of an error ends a line, and a bar of a keyword ends a cell. -/
theorem tables_broken :
    (∃ words blocks, markdown shownInt (failedCrawl "first line\nsecond line") = .ok words ∧
      markdownBlocks shownInt (failedCrawl "first line\nsecond line") = .ok blocks ∧
      ¬ ∀ block ∈ blocks, block.Kept) ∧
    ∃ words blocks, keywordsMarkdown shownInt (study "shoes | boots") = .ok words ∧
      keywordBlocks shownInt (study "shoes | boots") = .ok blocks ∧
      ¬ ∀ block ∈ blocks, block.Kept := by
  constructor
  · have hreturns : ∃ blocks,
        markdownBlocks shownInt (failedCrawl "first line\nsecond line") = .ok blocks := ⟨_, rfl⟩
    obtain ⟨blocks, hblocks⟩ := hreturns
    refine ⟨toText blocks, blocks, by rw [markdown, hblocks]; rfl, hblocks, ?_⟩
    rw [kept_markdownBlocks hblocks]
    intro hflat
    have hfault : Flat "first line\nsecond line" :=
      hflat.steps _ (List.mem_singleton.mpr rfl) _ (by simp [stepTexts])
    revert hfault
    decide
  · have hreturns : ∃ blocks, keywordBlocks shownInt (study "shoes | boots") = .ok blocks :=
      ⟨_, rfl⟩
    obtain ⟨blocks, hblocks⟩ := hreturns
    refine ⟨toText blocks, blocks, by rw [keywordsMarkdown, hblocks]; rfl, hblocks, ?_⟩
    rw [kept_keywordBlocks hblocks]
    intro hflat
    have hkeyword : Flat "shoes | boots" := hflat (.str "shoes | boots") (List.mem_cons_self ..)
    revert hkeyword
    decide

end SeoPlatform.Engine.KeywordExport
