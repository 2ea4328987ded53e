import SeoPlatform.Engine.AuditReport

namespace SeoPlatform.Engine.OrphanRule

open SeoPlatform.Crawler.Models
open SeoPlatform.Engine.AuditReport
open SeoPlatform.Foundation.UrlText

def docsLinks : String :=
  "https://developers.google.com/search/docs/crawling-indexing/links-crawlable"

/-- A handful of urls, for the evidence. -/
def sample (urls : List String) (limit : Nat) : String := "، ".intercalate (urls.take limit)

def orphanIssue (orphans : List String) : Issue where
  id := "orphan-pages"
  titleEn := "Orphan pages (no internal links)"
  titleFa := "صفحات یتیم (بدون لینک داخلی)"
  detailFa := toString orphans.length ++
    " صفحه هیچ لینک داخلی از بقیه‌ی سایت دریافت نمی‌کند. این صفحات فقط " ++
    "از طریق سایت‌مپ کشف می‌شوند، هیچ اعتباری از صفحات دیگر نمی‌گیرند و گوگل آن‌ها را " ++
    "کم‌اهمیت تلقی می‌کند."
  fixFa := "از صفحات مرتبط و پربازدید به این صفحات لینک بده، با انکرتکست توصیفی که کلمه کلیدی " ++
    "صفحه‌ی مقصد در آن باشد. حداقل ۳ لینک داخلی برای هر صفحه‌ی مهم هدف بگیر."
  severity := .high
  category := .links
  urls := orphans
  evidence := sample orphans 5
  docs := docsLinks

def weakIssue (weak : List String) : Issue where
  id := "weak-internal-linking"
  titleEn := "Weak internal linking"
  titleFa := "لینک‌سازی داخلی ضعیف"
  detailFa := toString weak.length ++
    " صفحه فقط یک لینک داخلی دارد. ساختار لینک داخلی مسطح و ضعیف باعث " ++
    "می‌شود اعتبار دامنه بین صفحات پخش نشود و صفحات عمیق‌تر هیچ‌وقت رتبه نگیرند."
  fixFa := "یک ساختار موضوعی (topic cluster) بساز: یک صفحه‌ی جامع مرکزی که به همه‌ی صفحات " ++
    "زیرموضوع لینک می‌دهد و همه‌ی آن‌ها هم به صفحه‌ی مرکزی برمی‌گردند."
  severity := .medium
  category := .links
  urls := weak
  evidence := sample weak 4
  docs := docsLinks

/-- The pages that `check_orphans` takes for orphans. -/
def orphanUrls (rules : TextRules) (ctx : SiteContext) : List String :=
  ((ctx.indexablePages rules).filter fun page =>
    page.inlinks == 0 && page.url != ctx.startUrl).map PageData.url

def weakUrls (rules : TextRules) (ctx : SiteContext) : List String :=
  ((ctx.indexablePages rules).filter fun page =>
    0 < page.inlinks && page.inlinks ≤ 1 && page.url != ctx.startUrl).map fun page =>
      page.url ++ " (" ++ toString page.inlinks ++ " لینک ورودی)"

/-- The rule `orphan-pages`. On fewer than three pages it says nothing. -/
def checkOrphans (rules : TextRules) (ctx : SiteContext) : List Issue :=
  if (ctx.indexablePages rules).length < 3 then []
  else
    (if orphanUrls rules ctx = [] then [] else [orphanIssue (orphanUrls rules ctx)]) ++
      if weakUrls rules ctx ≠ [] ∧
          ((ctx.indexablePages rules).length * (3 / 10) : Rat) < (weakUrls rules ctx).length then
        [weakIssue (weakUrls rules ctx)]
      else []

end SeoPlatform.Engine.OrphanRule
