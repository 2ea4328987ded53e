import Mathlib.Data.Finset.Sort
import Mathlib.Data.String.Basic
import SeoPlatform.Foundation.Counter
import SeoPlatform.Foundation.Doubles
import SeoPlatform.Foundation.Grouping
import SeoPlatform.Foundation.JsonValue
import SeoPlatform.Shared.Text

namespace SeoPlatform.Engine.Keywords

open SeoPlatform.Foundation.Counter
open SeoPlatform.Foundation.Doubles
open SeoPlatform.Foundation.Grouping
open SeoPlatform.Foundation.JsonValue
open SeoPlatform.Foundation.Mapping
open SeoPlatform.Foundation.Rounding
open SeoPlatform.Foundation.Tokens
open SeoPlatform.Foundation.UrlText
open SeoPlatform.Shared.Text (Unicode isArabic splitWords)

def questionsFa : List String :=
  ["چیست", "چگونه", "چطور", "چرا", "کدام", "کجا", "چند", "آیا", "یعنی چه", "چه زمانی",
   "چه کسی", "چقدر"]

def questionsEn : List String :=
  ["what is", "how to", "why", "when", "where", "which", "who", "can", "is", "does", "vs",
   "how much", "how many"]

def commercialFa : List String :=
  ["قیمت", "خرید", "بهترین", "ارزان", "تخفیف", "فروش", "سفارش", "هزینه", "نمایندگی",
   "اقساطی", "دست دوم", "اورجینال", "تعرفه"]

def commercialEn : List String :=
  ["price", "buy", "best", "cheap", "discount", "cost", "review", "top", "for sale", "deals",
   "pricing", "alternative"]

def informationalFa : List String :=
  ["آموزش", "راهنما", "معرفی", "مقایسه", "تفاوت", "مزایا", "معایب", "کاربرد", "انواع",
   "نمونه", "مثال", "روش", "مراحل", "اصول", "نکات", "ترفند", "رایگان", "آنلاین", "pdf",
   "دانلود", "شرایط", "قوانین"]

def informationalEn : List String :=
  ["tutorial", "guide", "examples", "template", "checklist", "tips", "free", "online", "pdf",
   "course", "meaning", "types", "benefits"]

def localFa : List String :=
  ["در تهران", "نزدیک من", "در ایران", "در مشهد", "در اصفهان", "در شیراز"]

def localEn : List String := ["near me", "in tehran", "online"]

def transactional : List String :=
  ["خرید", "سفارش", "ثبت نام", "ثبت‌نام", "دانلود", "رزرو", "استعلام", "پرداخت", "buy",
   "order", "download", "signup", "sign up", "book", "subscribe", "hire"]

def commercial : List String :=
  commercialFa ++ commercialEn ++ ["مقایسه", "بررسی", "نقد", "review", "vs", "بهترین"]

def informational : List String :=
  informationalFa ++ informationalEn ++ questionsFa ++ questionsEn

def localTerms : List String :=
  localFa ++ localEn ++
    ["نزدیک من", "near me", "تهران", "شیراز", "مشهد", "اصفهان", "کرج", "تبریز"]

def intentTable : List (String × String) :=
  [("transactional", "خرید / اقدام"),
   ("commercial", "بررسی قبل از خرید"),
   ("informational", "اطلاعاتی"),
   ("local", "محلی"),
   ("navigational", "برند / ناوبری")]

/-- `INTENT_FA.get(intent, intent)`. -/
def intentFa (intent : String) : String := (intentTable.lookup intent).getD intent

def stopwords : List String :=
  ["و", "در", "به", "از", "که", "را", "با", "برای", "این", "آن", "است", "می", "یک", "تا",
   "بر", "هم", "یا", "چه", "های", "ها", "شده", "کرد", "کردن", "the", "a", "an", "of", "for",
   "to", "in", "on", "and", "or", "is", "are", "with", "how", "what", "why", "best", "vs"]

/-- A phrase that was suggested: by which engines, by how many probes, and its best rank
in a dropdown. -/
structure Keyword where
  keyword : String
  sources : Finset String := ∅
  hits : Nat := 0
  bestPosition : Int := 99
  intent : String := "informational"
  deriving DecidableEq

section Scores

/-- Relative demand proxy, 0-100. -/
def Keyword.demandScore (keyword : Keyword) : Int :=
  let sourceSignal := double (double ((min keyword.sources.card 4 : Nat) / 4) * 40)
  let frequencySignal := double (double ((min keyword.hits 10 : Nat) / 10) * 35)
  let positionSignal :=
    double (max 0 (double ((10 - min keyword.bestPosition 10 : Int) / 10)) * 25)
  roundEven (double (double (sourceSignal + frequencySignal) + positionSignal))

variable (unicode : Unicode)

/-- The runs of word characters. -/
def findTokens (text : String) : List String :=
  (tokens (fun c => !(unicode.isWord c || isArabic c)) text.toList).map String.ofList

def Keyword.wordCount (keyword : Keyword) : Nat := (findTokens unicode keyword.keyword).length

def Keyword.isLongTail (keyword : Keyword) : Bool := 4 ≤ keyword.wordCount unicode

/-- Demand weighed against how hard the phrase is likely to be. -/
def Keyword.opportunityScore (keyword : Keyword) : Int :=
  let words := keyword.wordCount unicode
  let lengthBonus := double (double ((min words 6 : Nat) / 6) * 30)
  let headPenalty : Rat := if words ≤ 2 then 15 else 0
  let weighed := double (double (double (keyword.demandScore * double (7 / 10)) + lengthBonus) -
    headPenalty)
  max 0 (min 100 (roundEven weighed))

def Keyword.toDict (keyword : Keyword) : Dict :=
  [("keyword", .str keyword.keyword),
   ("sources", .arr ((keyword.sources.sort (· ≤ ·)).map .str)),
   ("hits", .int keyword.hits),
   ("position", .int keyword.bestPosition),
   ("words", .int (keyword.wordCount unicode)),
   ("long_tail", .bool (keyword.isLongTail unicode)),
   ("intent", .str keyword.intent),
   ("intent_fa", .str (intentFa keyword.intent)),
   ("demand", .int keyword.demandScore),
   ("opportunity", .int (keyword.opportunityScore unicode))]

end Scores

section Words

variable (rules : TextRules) (unicode : Unicode)

def classifyIntent (keyword : String) (brandTerms : List String) : String :=
  let lowered := rules.lower keyword
  let found := findTokens unicode lowered
  let names := fun terms : List String =>
    found.any terms.contains || terms.any fun term => occurs term.toList lowered.toList
  if found.any (brandTerms.map rules.lower).contains then "navigational"
  else if localTerms.any fun term => occurs term.toList lowered.toList then "local"
  else if names transactional then "transactional"
  else if names commercial then "commercial"
  else "informational"

def tokensOf (keyword : String) : List String :=
  (findTokens unicode (rules.lower keyword)).filter fun t => !stopwords.contains t && 1 < t.length

end Words

section Clusters

variable (rules : TextRules) (unicode : Unicode)

/-- In how many of the keywords each token is that the seed has not. -/
def frequencies (keywords : List Keyword) (seedTokens : List String) : List (String × Nat) :=
  tally (keywords.flatMap fun keyword =>
    (tokensOf rules unicode keyword.keyword).eraseDups.filter fun t => !seedTokens.contains t)

/-- The token that a keyword is grouped by, or the seed. -/
def labelOf (keywords : List Keyword) (seed : String) (keyword : Keyword) : String :=
  let seedTokens := tokensOf rules unicode seed
  let frequency := countOf (frequencies rules unicode keywords seedTokens)
  let candidates := (tokensOf rules unicode keyword.keyword).filter fun t =>
    !seedTokens.contains t
  -- a token that groups a meaningful number of siblings but is not universal
  match candidates.insertionSort fun s t =>
      frequency t < frequency s ∨ frequency s = frequency t ∧ s.length ≤ t.length with
  | [] => seed
  | first :: rest =>
      ((first :: rest).find? fun t =>
        2 ≤ frequency t ∧ (frequency t : Rat) ≤ double (keywords.length * double (6 / 10))).getD
          first

/-- The keywords by their labels. -/
def buckets (keywords : List Keyword) (seed : String) : Dictionary String (List Keyword) :=
  grouped (labelOf rules unicode keywords seed) keywords

structure Cluster where
  label : String
  size : Nat
  intent : String
  intentFa : String
  avgDemand : Int
  primary : String
  keywords : List Dict

/-- The first of the values that were counted most often. -/
def dominant (intents : List (String × Nat)) : String :=
  (intents.foldl (fun best entry => if best.2 < entry.2 then entry else best) ("", 0)).1

def byDemand (members : List Keyword) : List Keyword :=
  members.insertionSort fun a b => b.demandScore ≤ a.demandScore

def clusterOf (bucket : String × List Keyword) : Cluster :=
  let members := byDemand bucket.2
  let intent := dominant (tally (members.map Keyword.intent))
  { label := bucket.1
    size := members.length
    intent := intent
    intentFa := intentFa intent
    avgDemand := roundEven (double (((members.map Keyword.demandScore).sum : Rat) / members.length))
    primary := (members.head?.map Keyword.keyword).getD ""
    keywords := (members.take 25).map (Keyword.toDict unicode) }

/-- The larger clusters first, then those with more demand. -/
def Cluster.before (a b : Cluster) : Prop :=
  b.size < a.size ∨ a.size = b.size ∧ b.avgDemand ≤ a.avgDemand

instance : DecidableRel Cluster.before := fun a b =>
  inferInstanceAs (Decidable (b.size < a.size ∨ a.size = b.size ∧ b.avgDemand ≤ a.avgDemand))

/-- Group keywords into topic clusters by their most distinctive shared token. -/
def cluster (keywords : List Keyword) (seed : String) (maxClusters : Nat := 12) : List Cluster :=
  (((buckets rules unicode keywords seed).entries.map (clusterOf unicode)).insertionSort
    Cluster.before).take maxClusters

end Clusters

end SeoPlatform.Engine.Keywords
