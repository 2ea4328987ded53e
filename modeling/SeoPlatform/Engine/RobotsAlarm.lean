import Mathlib.Tactic.Tauto
import SeoPlatform.Engine.AuditReport
import SeoPlatform.Shared.Text

namespace SeoPlatform.Engine.RobotsAlarm

open SeoPlatform.Crawler.Models
open SeoPlatform.Engine.AuditReport
open SeoPlatform.Foundation.UrlText
open SeoPlatform.Shared.Text (Unicode plainUnicode)

section Lines

def isLineBreak (c : Char) : Bool :=
  let n := c.toNat
  (10 ≤ n && n ≤ 13) || (28 ≤ n && n ≤ 30) || n == 0x85 || n == 0x2028 || n == 0x2029

/-- `str.splitlines`. -/
def splitlines : List Char → List (List Char)
  | [] => []
  | '\r' :: '\n' :: cs => [] :: splitlines cs
  | c :: cs =>
      if isLineBreak c then [] :: splitlines cs
      else
        match splitlines cs with
        | [] => [[c]]
        | line :: rest => (c :: line) :: rest

/-- The lines that say something, without their comments. -/
def linesOf (text : List Char) : List (List Char) :=
  ((splitlines text).map fun raw => stripChars (raw.takeWhile (· != '#'))).filter (· ≠ [])

inductive Line where
  | agent (name : List Char)
  | disallow (path : List Char)
  | allow
  | other
  deriving DecidableEq, Repr

def Line.IsAgent : Line → Prop
  | .agent _ => True
  | _ => False

def Line.IsRule : Line → Prop
  | .disallow _ => True
  | .allow => True
  | _ => False

instance : DecidablePred Line.IsAgent := fun line =>
  match line with
  | .agent _ => .isTrue trivial
  | .disallow _ | .allow | .other => .isFalse id

instance : DecidablePred Line.IsRule := fun line =>
  match line with
  | .disallow _ | .allow => .isTrue trivial
  | .agent _ | .other => .isFalse id

def afterColon (line : List Char) : List Char := stripChars (partition ':' line).2.2

/-- The branch of `check_robots` that a line takes. -/
def lineOf (line : List Char) : Line :=
  if "user-agent:".toList.isPrefixOf line then .agent (afterColon line)
  else if "disallow:".toList.isPrefixOf line then .disallow (afterColon line)
  else if "allow:".toList.isPrefixOf line then .allow
  else .other

/-- What a line is by RFC 9309: there may be white space before its colon. -/
def recordOf (line : List Char) : Line :=
  match partition ':' line with
  | (_, false, _) => .other
  | (key, true, value) =>
      if stripChars key = "user-agent".toList then .agent (stripChars value)
      else if stripChars key = "disallow".toList then .disallow (stripChars value)
      else if stripChars key = "allow".toList then .allow
      else .other

end Lines

section Rule

def docsRobots : String :=
  "https://developers.google.com/search/docs/crawling-indexing/robots/intro"

def docsSitemap : String :=
  "https://developers.google.com/search/docs/crawling-indexing/sitemaps/build-sitemap"

def relevant (agent : List Char) : Bool := agent == ['*'] || agent == "googlebot".toList

/-- The loop over the lines: the agents of the current group, and whether the site was
found blocked. -/
def scan : List (List Char) → Bool → List Line → Bool
  | _, blocksEverything, [] => blocksEverything
  | currentAgents, blocksEverything, line :: rest =>
      match line with
      | .agent name => scan (currentAgents ++ [name]) blocksEverything rest
      | .disallow path =>
          scan currentAgents
            (blocksEverything || (path == ['/'] && currentAgents.any relevant)) rest
      | .allow => scan currentAgents blocksEverything rest
      | .other => scan [] blocksEverything rest

/-- What follows each occurrence of a text. -/
def afterEach (needle : List Char) : List Char → List (List Char)
  | [] => []
  | c :: cs =>
      (if needle.isPrefixOf (c :: cs) then [(c :: cs).drop needle.length] else []) ++
        afterEach needle cs

/-- What is left behind some of the white space in front. -/
def behindSpaces : List Char → List (List Char)
  | [] => [[]]
  | c :: cs => (c :: cs) :: if isSpace c then behindSpaces cs else []

/-- Whether a suffix stands in the line that has begun, with no word character after it. -/
def hasSuffix (unicode : Unicode) (suffix : List Char) : List Char → Bool
  | [] => false
  | c :: cs =>
      (suffix.isPrefixOf (c :: cs) &&
        (((c :: cs).drop suffix.length).head?.all fun next => !unicode.isWord next)) ||
      (c != '\n' && hasSuffix unicode suffix cs)

/-- `disallow:\s*/?.*\.(css|js)\b`. -/
def blocksFile (unicode : Unicode) (text : List Char) : Bool :=
  (afterEach "disallow:".toList text).any fun rest => (behindSpaces rest).any fun start =>
    hasSuffix unicode ".css".toList start || hasSuffix unicode ".js".toList start

def atLineEnd (cs : List Char) : Bool :=
  (cs.takeWhile isSpace).contains '\n' || (cs.dropWhile isSpace).isEmpty

/-- `disallow:\s*/(wp-content|assets|static|dist)/?\s*$`. -/
def blocksFolder (text : List Char) : Bool :=
  (afterEach "disallow:".toList text).any fun rest =>
    ["/wp-content", "/assets", "/static", "/dist"].any fun folder =>
      let start := rest.dropWhile isSpace
      let behind := start.drop folder.length
      folder.toList.isPrefixOf start &&
        (atLineEnd behind || (behind.head? == some '/' && atLineEnd behind.tail))

def missingIssue (ctx : SiteContext) : Issue where
  id := "robots-missing"
  titleEn := "No robots.txt"
  titleFa := "فایل robots.txt وجود ندارد"
  detailFa := "درخواست /robots.txt با کد " ++
    (if ctx.robotsStatus = 0 then "خطا" else toString ctx.robotsStatus) ++
    " پاسخ داد. نبودِ این فایل " ++
    "خطای بحرانی نیست (گوگل فرض می‌کند همه‌چیز مجاز است)، اما جای اعلام سایت‌مپ و " ++
    "کنترل خزش را از دست می‌دهی."
  fixFa := "یک فایل robots.txt در ریشه‌ی دامنه بساز، آدرس سایت‌مپ را داخلش اعلام کن و مسیرهای " ++
    "بی‌ارزش (سبد خرید، جستجوی داخلی، صفحات ورود) را Disallow کن."
  severity := .low
  category := .indexing
  urls := [ctx.startUrl]
  docs := docsRobots

def blockedIssue (ctx : SiteContext) : Issue where
  id := "robots-blocks-site"
  titleEn := "robots.txt blocks the entire site"
  titleFa := "robots.txt کل سایت را بلاک کرده"
  detailFa :=
    "در robots.txt دستور `Disallow: /` برای همه‌ی ربات‌ها یا برای Googlebot وجود دارد. " ++
    "این یعنی گوگل اجازه‌ی خزش هیچ صفحه‌ای را ندارد و سایت عملاً از نتایج جستجو حذف می‌شود. " ++
    "این معمولاً باقی‌مانده‌ی تنظیمات محیط تست است که اشتباهاً روی سایت اصلی رفته."
  fixFa := "فوراً خط `Disallow: /` را حذف کن. بعد در سرچ کنسول ابزار robots.txt Tester را " ++
    "اجرا کن و درخواست ایندکس مجدد بده."
  severity := .critical
  category := .indexing
  urls := [ctx.startUrl]
  docs := docsRobots

def noSitemapIssue (ctx : SiteContext) : Issue where
  id := "robots-no-sitemap"
  titleEn := "robots.txt does not declare a sitemap"
  titleFa := "سایت‌مپ در robots.txt اعلام نشده"
  detailFa := "فایل robots.txt وجود دارد ولی خط Sitemap: ندارد. این ساده‌ترین راه برای معرفی " ++
    "سایت‌مپ به همه‌ی موتورهای جستجو (نه فقط گوگل) است."
  fixFa := "خط `Sitemap: https://دامنه‌ات/sitemap.xml` را به انتهای robots.txt اضافه کن."
  severity := .low
  category := .indexing
  urls := [ctx.startUrl]
  docs := docsSitemap

def assetsIssue (ctx : SiteContext) : Issue where
  id := "robots-blocks-assets"
  titleEn := "robots.txt may block CSS/JS"
  titleFa := "احتمال بلاک شدن فایل‌های CSS/JS"
  detailFa := "به نظر می‌رسد robots.txt مسیر فایل‌های استایل یا اسکریپت را Disallow کرده است. " ++
    "گوگل صفحه را مثل مرورگر رندر می‌کند؛ اگر به CSS و JS دسترسی نداشته باشد صفحه را " ++
    "شکسته می‌بیند، موبایل‌فرندلی بودن را تشخیص نمی‌دهد و ممکن است محتوای اصلی را نبیند."
  fixFa := "دسترسی به فایل‌های CSS، JS و تصاویر را باز بگذار. با ابزار «URL Inspection» در " ++
    "سرچ کنسول ببین گوگل صفحه را چطور رندر می‌کند."
  severity := .high
  category := .indexing
  urls := [ctx.startUrl]
  docs := docsRobots

/-- The rule `robots-txt`. -/
def checkRobots (rules : TextRules) (unicode : Unicode) (ctx : SiteContext) : List Issue :=
  match ctx.robotsTxt with
  | none => [missingIssue ctx]
  | some robotsTxt =>
      let lowered := (rules.lower robotsTxt).toList
      (if scan [] false ((linesOf lowered).map lineOf) then [blockedIssue ctx] else []) ++
        (if occurs "sitemap:".toList lowered then [] else [noSitemapIssue ctx]) ++
        (if blocksFile unicode lowered || blocksFolder lowered then [assetsIssue ctx] else [])

end Rule

section Groups

def Line.Names : Line → Prop
  | .agent name => relevant name = true
  | _ => False

/-- A group: one or more user-agent lines in a row, as many as there are, and the rules
that follow them. -/
def IsGroup (records agents rules : List Line) : Prop :=
  ∃ before after, records = before ++ (agents ++ (rules ++ after)) ∧ agents ≠ [] ∧
    (∀ line ∈ agents, line.IsAgent) ∧ (∀ line ∈ rules, line.IsRule) ∧
    (∀ line ∈ before.getLast?, ¬ line.IsAgent) ∧ ∀ line ∈ after.head?, ¬ line.IsRule

/-- Some group names all robots or Googlebot and disallows everything. -/
def BlocksSite (records : List Line) : Prop :=
  ∃ agents rules, IsGroup records agents rules ∧ (∃ line ∈ agents, line.Names) ∧
    .disallow ['/'] ∈ rules

/-- The records of a file. Lines that are none of them end no group. -/
def recordsOf (lines : List (List Char)) : List Line := (lines.map recordOf).filter (· ≠ .other)

/-- Some line names all robots or Googlebot, some later one disallows everything, and what
is between them satisfies a condition. -/
def Reaches (P : List Line → Prop) (lines : List Line) : Prop :=
  ∃ before agent between after,
    lines = before ++ agent :: (between ++ .disallow ['/'] :: after) ∧ agent.Names ∧ P between

def Unbroken (between : List Line) : Prop := .other ∉ between

/-- No user-agent line stands behind a rule. -/
def OneGroup (between : List Line) : Prop :=
  between.Pairwise fun line later => line.IsRule → ¬ later.IsAgent

end Groups

section Scanning

/-- Some line disallows everything, and no line before it is of another kind. -/
def Opens (lines : List Line) : Prop :=
  ∃ between after, lines = between ++ .disallow ['/'] :: after ∧ Unbroken between

theorem opens_cons_iff {line : Line} {rest : List Line} :
    Opens (line :: rest) ↔ line = .disallow ['/'] ∨ line ≠ .other ∧ Opens rest := by
  constructor
  · rintro ⟨between, after, hsplit, hbetween⟩
    cases between with
    | nil => exact Or.inl (List.cons.inj hsplit).1
    | cons first between =>
        obtain ⟨rfl, rfl⟩ := List.cons.inj hsplit
        obtain ⟨hfirst, hrest⟩ := not_or.mp (mt List.mem_cons.mpr hbetween)
        exact Or.inr ⟨Ne.symm hfirst, between, after, rfl, hrest⟩
  · rintro (rfl | ⟨hline, between, after, rfl, hbetween⟩)
    · exact ⟨[], rest, rfl, List.not_mem_nil⟩
    · refine ⟨line :: between, after, rfl, ?_⟩
      intro hmem
      rcases List.mem_cons.mp hmem with hother | hother
      · exact hline hother.symm
      · exact hbetween hother

theorem reaches_cons_iff {line : Line} {rest : List Line} :
    Reaches Unbroken (line :: rest) ↔ line.Names ∧ Opens rest ∨ Reaches Unbroken rest := by
  constructor
  · rintro ⟨before, agent, between, after, hsplit, hagent, hbetween⟩
    cases before with
    | nil =>
        obtain ⟨rfl, rfl⟩ := List.cons.inj hsplit
        exact Or.inl ⟨hagent, between, after, rfl, hbetween⟩
    | cons first before =>
        obtain ⟨rfl, rfl⟩ := List.cons.inj hsplit
        exact Or.inr ⟨before, agent, between, after, rfl, hagent, hbetween⟩
  · rintro (⟨hline, between, after, rfl, hbetween⟩ |
      ⟨before, agent, between, after, rfl, hagent, hbetween⟩)
    · exact ⟨[], line, between, after, rfl, hline, hbetween⟩
    · exact ⟨line :: before, agent, between, after, rfl, hagent, hbetween⟩

theorem scan_iff (agents : List (List Char)) (blocked : Bool) (lines : List Line) :
    scan agents blocked lines = true ↔
      blocked = true ∨ agents.any relevant = true ∧ Opens lines ∨ Reaches Unbroken lines := by
  induction lines generalizing agents blocked with
  | nil =>
      have hopens : ¬ Opens [] := by
        rintro ⟨between, after, hsplit, -⟩
        simp at hsplit
      have hreaches : ¬ Reaches Unbroken [] := by
        rintro ⟨before, agent, between, after, hsplit, -⟩
        simp at hsplit
      simp [scan, hopens, hreaches]
  | cons line rest ih =>
      rw [opens_cons_iff, reaches_cons_iff]
      cases line with
      | agent name =>
          have hnames : (Line.agent name).Names ↔ relevant name = true := Iff.rfl
          rw [scan, ih, hnames]
          simp only [List.any_append, List.any_cons, List.any_nil, Bool.or_false,
            Bool.or_eq_true, reduceCtorEq, false_or, ne_eq, not_false_eq_true, true_and]
          tauto
      | disallow path =>
          have hnames : ¬ (Line.disallow path).Names := id
          rw [scan, ih]
          simp only [Bool.or_eq_true, Bool.and_eq_true, beq_iff_eq, Line.disallow.injEq, ne_eq,
            reduceCtorEq, not_false_eq_true, true_and, hnames, false_and, false_or]
          tauto
      | allow =>
          have hnames : ¬ Line.allow.Names := id
          rw [scan, ih]
          simp [hnames]
      | other =>
          have hnames : ¬ Line.other.Names := id
          rw [scan, ih]
          simp [hnames]

end Scanning

section Grouping

theorem Line.Names.isAgent {line : Line} (h : line.Names) : line.IsAgent := by
  cases line with
  | agent name => trivial
  | _ => exact h.elim

theorem Line.IsAgent.not_isRule {line : Line} (h : line.IsAgent) : ¬ line.IsRule := by
  cases line with
  | agent name => exact id
  | _ => exact h.elim

theorem isRule_of_not_isAgent {line : Line} (hknown : line ≠ .other) (h : ¬ line.IsAgent) :
    line.IsRule := by
  cases line with
  | agent name => exact absurd trivial h
  | disallow path => trivial
  | allow => trivial
  | other => exact absurd rfl hknown

/-- Of a list, as much from its start as satisfies a condition. -/
theorem exists_span {α : Type} (P : α → Prop) (items : List α) :
    ∃ front back, items = front ++ back ∧ (∀ x ∈ front, P x) ∧ ∀ x ∈ back.head?, ¬ P x := by
  induction items with
  | nil => exact ⟨[], [], rfl, List.forall_mem_nil _, by simp⟩
  | cons first rest ih =>
      by_cases hfirst : P first
      · obtain ⟨front, back, rfl, hfront, hback⟩ := ih
        exact ⟨first :: front, back, rfl, List.forall_mem_cons.mpr ⟨hfirst, hfront⟩, hback⟩
      · exact ⟨[], first :: rest, rfl, List.forall_mem_nil _, by simpa using hfirst⟩

theorem exists_rspan {α : Type} (P : α → Prop) (items : List α) :
    ∃ front back, items = front ++ back ∧ (∀ x ∈ back, P x) ∧
      ∀ x ∈ front.getLast?, ¬ P x := by
  obtain ⟨back, front, hsplit, hback, hfront⟩ := exists_span P items.reverse
  refine ⟨front.reverse, back.reverse, ?_, ?_, ?_⟩
  · rw [← List.reverse_append, ← hsplit, List.reverse_reverse]
  · exact fun x hx => hback x (List.mem_reverse.mp hx)
  · rwa [List.getLast?_reverse]

/-- The records between two lines of a group are user-agent lines and then rules. -/
theorem OneGroup.exists_split {between : List Line} (h : OneGroup between)
    (hknown : ∀ line ∈ between, line ≠ .other) :
    ∃ agents rules, between = agents ++ rules ∧ (∀ line ∈ agents, line.IsAgent) ∧
      ∀ line ∈ rules, line.IsRule := by
  obtain ⟨agents, rules, rfl, hagents, hhead⟩ := exists_span Line.IsAgent between
  refine ⟨agents, rules, rfl, hagents, ?_⟩
  rw [List.forall_mem_append] at hknown
  cases rules with
  | nil => exact List.forall_mem_nil _
  | cons first rest =>
      rw [List.forall_mem_cons] at hknown
      have hfirst : first.IsRule := isRule_of_not_isAgent hknown.2.1 (hhead first rfl)
      have hrest := (List.pairwise_cons.mp (List.pairwise_append.mp h).2.1).1
      rw [List.forall_mem_cons]
      exact ⟨hfirst, fun line hline =>
        isRule_of_not_isAgent (hknown.2.2 line hline) (hrest line hline hfirst)⟩

theorem blocksSite_of_reaches {lines : List Line} (h : Reaches OneGroup lines) :
    BlocksSite (lines.filter (· ≠ .other)) := by
  obtain ⟨before, agent, between, after, rfl, hagent, hbetween⟩ := h
  have hother : agent ≠ .other := by
    rintro rfl
    exact hagent
  have hone : OneGroup (between.filter (· ≠ .other)) := hbetween.filter _
  obtain ⟨agents, rules, hmiddle, hagents, hrules⟩ := hone.exists_split (by simp)
  obtain ⟨earlier, first, hearlier, hfirst, hend⟩ :=
    exists_rspan Line.IsAgent (before.filter (· ≠ .other))
  obtain ⟨last, later, hlater, hlast, hhead⟩ :=
    exists_span Line.IsRule (after.filter (· ≠ .other))
  refine ⟨first ++ agent :: agents, rules ++ .disallow ['/'] :: last,
    ⟨earlier, later, ?_, by simp, ?_, ?_, hend, hhead⟩, ⟨agent, by simp, hagent⟩, by simp⟩
  · rw [List.filter_append, List.filter_cons, if_pos (decide_eq_true hother),
      List.filter_append, List.filter_cons, if_pos (by decide), hearlier, hmiddle, hlater]
    simp only [List.append_assoc, List.cons_append]
  · rw [List.forall_mem_append, List.forall_mem_cons]
    exact ⟨hfirst, hagent.isAgent, hagents⟩
  · rw [List.forall_mem_append, List.forall_mem_cons]
    exact ⟨hrules, trivial, hlast⟩

theorem reaches_of_blocksSite {lines : List Line} (h : BlocksSite (lines.filter (· ≠ .other))) :
    Reaches OneGroup lines := by
  obtain ⟨agents, rules, ⟨before, after, hsplit, -, hagents, hrules, -, -⟩,
    ⟨agent, hmem, hagent⟩, hblocks⟩ := h
  obtain ⟨agents₁, agents₂, rfl⟩ := List.append_of_mem hmem
  obtain ⟨rules₁, rules₂, rfl⟩ := List.append_of_mem hblocks
  have hjoin : before ++ ((agents₁ ++ agent :: agents₂) ++
      ((rules₁ ++ .disallow ['/'] :: rules₂) ++ after)) =
      (before ++ agents₁) ++ agent :: ((agents₂ ++ rules₁) ++ .disallow ['/'] ::
        (rules₂ ++ after)) := by simp
  rw [hjoin, List.filter_eq_append_iff] at hsplit
  obtain ⟨lines₁, rest, rfl, -, hrest⟩ := hsplit
  obtain ⟨others₁, rest, rfl, -, -, hrest⟩ := List.filter_eq_cons_iff.mp hrest
  obtain ⟨lines₂, rest, rfl, hbetween, hrest⟩ := List.filter_eq_append_iff.mp hrest
  obtain ⟨others₂, lines₃, rfl, hothers, -, -⟩ := List.filter_eq_cons_iff.mp hrest
  have hnone : others₂.filter (· ≠ .other) = [] := by
    rw [List.filter_eq_nil_iff]
    exact hothers
  refine ⟨lines₁ ++ others₁, agent, lines₂ ++ others₂, lines₃, by simp, hagent, ?_⟩
  have hone : OneGroup ((lines₂ ++ others₂).filter (· ≠ .other)) := by
    rw [List.filter_append, hbetween, hnone, List.append_nil]
    refine List.pairwise_append.mpr ⟨?_, ?_, ?_⟩
    · apply List.pairwise_of_forall_mem_list
      intro line hline _ _ hrule
      exact absurd hrule (hagents line (by simp [hline])).not_isRule
    · apply List.pairwise_of_forall_mem_list
      intro _ _ line hline _ hagent
      exact hagent.not_isRule (hrules line (by simp [hline]))
    · intro line hline _ _ hrule
      exact absurd hrule (hagents line (by simp [hline])).not_isRule
  refine (List.pairwise_filter.mp hone).imp ?_
  intro line later hapart hrule hagent
  refine hapart ?_ ?_ hrule hagent
  · refine decide_eq_true ?_
    rintro rfl
    exact hrule
  · refine decide_eq_true ?_
    rintro rfl
    exact hagent

theorem blocksSite_iff {lines : List Line} :
    BlocksSite (lines.filter (· ≠ .other)) ↔ Reaches OneGroup lines :=
  ⟨reaches_of_blocksSite, blocksSite_of_reaches⟩

end Grouping

section Alarm

/-- The critical issue that the site is blocked is among those of the rule. -/
def Alarmed (rules : TextRules) (unicode : Unicode) (ctx : SiteContext) : Prop :=
  ∃ issue ∈ checkRobots rules unicode ctx, issue.id = "robots-blocks-site" ∧
    issue.severity = .critical

variable {rules : TextRules} {unicode : Unicode}

theorem alarmed_iff_scan {ctx : SiteContext} {robotsTxt : String}
    (h : ctx.robotsTxt = some robotsTxt) :
    Alarmed rules unicode ctx ↔
      scan [] false ((linesOf (rules.lower robotsTxt).toList).map lineOf) = true := by
  have hsitemap : "robots-no-sitemap" ≠ "robots-blocks-site" := by decide
  have hassets : "robots-blocks-assets" ≠ "robots-blocks-site" := by decide
  unfold Alarmed checkRobots
  rw [h]
  dsimp only
  constructor
  · rintro ⟨issue, hissue, hid, -⟩
    by_contra hnot
    rw [if_neg hnot, List.nil_append, List.mem_append] at hissue
    rcases hissue with hother | hother
    · split at hother
      · cases hother
      · obtain rfl := List.mem_singleton.mp hother
        exact hsitemap hid
    · split at hother
      · obtain rfl := List.mem_singleton.mp hother
        exact hassets hid
      · cases hother
  · intro hblocked
    refine ⟨blockedIssue ctx, ?_, rfl, rfl⟩
    rw [if_pos hblocked]
    exact List.mem_append_left _ (List.mem_append_left _ (List.mem_singleton_self _))

theorem alarmed_iff {ctx : SiteContext} {robotsTxt : String} (h : ctx.robotsTxt = some robotsTxt) :
    Alarmed rules unicode ctx ↔
      Reaches Unbroken ((linesOf (rules.lower robotsTxt).toList).map lineOf) := by
  rw [alarmed_iff_scan h, scan_iff]
  simp

def asciiRules : TextRules where
  lower := String.map Char.toLower
  casefold := String.map Char.toLower
  netlocFault _ := none

end Alarm

end SeoPlatform.Engine.RobotsAlarm
