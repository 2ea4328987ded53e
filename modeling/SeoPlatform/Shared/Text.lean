import SeoPlatform.Crawler.Parsing
import SeoPlatform.Foundation.Tokens

namespace SeoPlatform.Shared.Text

open SeoPlatform.Crawler.Parsing (collapse)
open SeoPlatform.Foundation.Tokens
open SeoPlatform.Foundation.UrlText

/-- What the runtime's Unicode tables say of texts: their compatibility form, the word
characters, and what a character is folded to. -/
structure Unicode where
  nfkc : List Char → List Char
  isWord : Char → Bool
  casefold : Char → List Char

/-- Characters that are spelled otherwise, or not at all. -/
def foldTable : List (Char × List Char) :=
  [('ي', ['ی']),
   ('ى', ['ی']),
   ('ك', ['ک']),
   ('ۀ', ['ه']),
   ('\u200c', [' ']),
   ('\u200f', []),
   ('\u200e', []),
   ('ـ', [])]

/-- `str.replace` of one character. -/
def replaceChar (source : Char) (target cs : List Char) : List Char :=
  cs.flatMap fun c => if c = source then target else [c]

def foldSpelling (cs : List Char) : List Char :=
  foldTable.foldl (fun cs entry => replaceChar entry.1 entry.2 cs) cs

def isDiacritic (c : Char) : Bool :=
  let n := c.toNat
  (0x64B ≤ n && n ≤ 0x652) || n == 0x670

def isPunctuation (c : Char) : Bool :=
  let n := c.toNat
  n == 0x60C || n == 0x60D || n == 0x61B || n == 0x61E || n == 0x61F ||
    (0x66A ≤ n && n ≤ 0x66D) || n == 0x6D4 || n == 0x6DD

def isArabic (c : Char) : Bool :=
  let n := c.toNat
  0x600 ≤ n && n ≤ 0x6FF

/-- Words too common to carry intent. -/
def stopwords : List String :=
  ["و", "در", "به", "از", "با", "برای", "را", "که", "این", "آن", "است", "های", "ها",
   "the", "a", "an", "of", "for", "and", "in", "on", "to"]

section Words

variable (unicode : Unicode)

def nonWord (c : Char) : Bool := !(unicode.isWord c || isArabic c)

/-- A text with one spelling for each letter. -/
def spelled (cs : List Char) : List Char :=
  ((foldSpelling (unicode.nfkc cs)).filter fun c => !isDiacritic c).map fun c =>
    if isPunctuation c then ' ' else c

/-- One spelling per word. -/
def normalise (text : String) : String :=
  if text = "" then ""
  else
    String.ofList ((stripChars (collapse (nonWord unicode) false
      (spelled unicode text.toList))).flatMap unicode.casefold)

/-- `str.split`. -/
def splitWords (text : String) : List String :=
  (tokens isSpace text.toList).map String.ofList

def words (text : String) : List String :=
  (splitWords (normalise unicode text)).filter fun w => w ≠ "" && !stopwords.contains w

end Words

/-- What the tables are known to do: a space ends whatever comes before it, it is no word
character and keeps as it is, and folding neither loses a letter nor makes a space of it. -/
structure Standard (unicode : Unicode) : Prop where
  nfkcNil : unicode.nfkc [] = []
  nfkcJoin : ∀ xs ys, unicode.nfkc (xs ++ ' ' :: ys) = unicode.nfkc xs ++ ' ' :: unicode.nfkc ys
  wordVisible : ∀ c, unicode.isWord c = true → isSpace c = false
  spaceKept : ∀ c, isSpace c = true → unicode.casefold c = [c]
  letterKept : ∀ c, isSpace c = false →
    unicode.casefold c ≠ [] ∧ ∀ d ∈ unicode.casefold c, isSpace d = false

section Spelled

theorem replaceChar_of_notMem {source : Char} {target cs : List Char} (h : source ∉ cs) :
    replaceChar source target cs = cs := by
  unfold replaceChar
  induction cs with
  | nil => rfl
  | cons c rest ih =>
      rw [List.mem_cons, not_or] at h
      rw [List.flatMap_cons, if_neg (Ne.symm h.1), ih h.2]
      rfl

theorem foldSpelling_of_notMem {cs : List Char} (h : ∀ entry ∈ foldTable, entry.1 ∉ cs) :
    foldSpelling cs = cs := by
  unfold foldSpelling
  generalize foldTable = table at h
  induction table with
  | nil => rfl
  | cons entry rest ih =>
      rw [List.forall_mem_cons] at h
      rw [List.foldl_cons, replaceChar_of_notMem h.1]
      exact ih h.2

end Spelled

section Joined

theorem replaceChar_join {source : Char} (hsource : source ≠ ' ') (target xs ys : List Char) :
    replaceChar source target (xs ++ ' ' :: ys) =
      replaceChar source target xs ++ ' ' :: replaceChar source target ys := by
  unfold replaceChar
  rw [List.flatMap_append, List.flatMap_cons, if_neg (Ne.symm hsource)]
  rfl

theorem foldSpelling_join (xs ys : List Char) :
    foldSpelling (xs ++ ' ' :: ys) = foldSpelling xs ++ ' ' :: foldSpelling ys := by
  have hfold : ∀ table : List (Char × List Char), (∀ entry ∈ table, entry.1 ≠ ' ') →
      ∀ xs ys : List Char,
        table.foldl (fun cs entry => replaceChar entry.1 entry.2 cs) (xs ++ ' ' :: ys) =
          table.foldl (fun cs entry => replaceChar entry.1 entry.2 cs) xs ++
            ' ' :: table.foldl (fun cs entry => replaceChar entry.1 entry.2 cs) ys := by
    intro table
    induction table with
    | nil => exact fun _ _ _ => rfl
    | cons entry rest ih =>
        intro h xs ys
        rw [List.forall_mem_cons] at h
        rw [List.foldl_cons, List.foldl_cons, List.foldl_cons, replaceChar_join h.1]
        exact ih h.2 _ _
  apply hfold
  simp [foldTable]

variable {unicode : Unicode}

theorem spelled_join (h : Standard unicode) (xs ys : List Char) :
    spelled unicode (xs ++ ' ' :: ys) =
      spelled unicode xs ++ ' ' :: spelled unicode ys := by
  unfold spelled
  rw [h.nfkcJoin, foldSpelling_join, List.filter_append, List.map_append]
  rfl

/-- A run of characters that is one space in the end separates as it did before. -/
theorem tokens_collapse {kind : Char → Bool} (hkind : ∀ c, kind c = false → isSpace c = false)
    (cs : List Char) : tokens isSpace (collapse kind false cs) = tokens kind cs := by
  -- The word that was begun before `cs` is carried along; none was after a separator.
  have hbegun : ∀ inside begun, (∀ c ∈ begun, kind c = false) → (inside = true → begun = []) →
      tokens isSpace (begun ++ collapse kind inside cs) = tokens kind (begun ++ cs) := by
    induction cs with
    | nil =>
        intro inside begun hbegun _
        unfold collapse
        rw [List.append_nil, tokens_of_forall hbegun,
          tokens_of_forall fun c hc => hkind c (hbegun c hc)]
    | cons c rest ih =>
        intro inside begun hbegun hinside
        have hword : tokens isSpace begun = tokens kind begun := by
          rw [tokens_of_forall hbegun, tokens_of_forall fun c hc => hkind c (hbegun c hc)]
        have hrest := ih true [] (List.forall_mem_nil _) fun _ => rfl
        rw [List.nil_append, List.nil_append] at hrest
        unfold collapse
        cases hc : kind c with
        | true =>
            rw [if_pos rfl, tokens_append_cons hc, ← hrest]
            cases inside with
            | true =>
                rw [if_pos rfl, hinside rfl]
                rfl
            | false =>
                rw [if_neg Bool.false_ne_true, tokens_append_cons (by decide), hword]
        | false =>
            rw [if_neg Bool.false_ne_true, List.append_cons begun c (collapse kind false rest),
              List.append_cons begun c rest]
            refine ih false _ ?_ fun h => absurd h Bool.false_ne_true
            rw [List.forall_mem_append]
            exact ⟨hbegun, List.forall_mem_singleton.mpr hc⟩
  exact hbegun false [] (List.forall_mem_nil _) fun _ => rfl

theorem isSpace_of_wordLike (h : Standard unicode) {c : Char} (hc : nonWord unicode c = false) :
    isSpace c = false := by
  unfold nonWord at hc
  rw [Bool.not_eq_false', Bool.or_eq_true] at hc
  rcases hc with hword | harabic
  · exact h.wordVisible c hword
  · unfold isArabic at harabic
    unfold isSpace
    simp only [Bool.and_eq_true, decide_eq_true_eq] at harabic
    simp
    omega

/-- The words of a text are what the other characters separate, each folded. -/
theorem splitWords_normalise (h : Standard unicode) (text : String) :
    splitWords (normalise unicode text) =
      (tokens (nonWord unicode) (spelled unicode text.toList)).map fun w =>
        String.ofList (w.flatMap unicode.casefold) := by
  unfold splitWords normalise
  split
  · rename_i hempty
    subst hempty
    have hnothing : spelled unicode "".toList = [] := by
      unfold spelled
      rw [String.toList_empty, h.nfkcNil]
      rfl
    rw [hnothing, tokens_nil]
    simp
  · rw [String.toList_ofList, tokens_flatMap h.spaceKept h.letterKept, stripChars, tokens_trim,
      tokens_collapse fun c => isSpace_of_wordLike h, List.map_map]
    rfl

/-- What is joined by a space has the words of its parts. -/
theorem splitWords_join (h : Standard unicode) (text other : String) :
    splitWords (normalise unicode (text ++ " " ++ other)) =
      splitWords (normalise unicode text) ++ splitWords (normalise unicode other) := by
  have hspace : nonWord unicode ' ' = true := by
    cases hc : nonWord unicode ' ' with
    | true => rfl
    | false => exact absurd (isSpace_of_wordLike h hc) (by decide)
  have hchars : (text ++ " " ++ other).toList = text.toList ++ ' ' :: other.toList := by
    rw [String.toList_append, String.toList_append, List.append_assoc]
    rfl
  rw [splitWords_normalise h, splitWords_normalise h, splitWords_normalise h, hchars,
    spelled_join h, tokens_append_cons hspace, List.map_append]

theorem mem_words_iff {text w : String} :
    w ∈ words unicode text ↔
      w ∈ splitWords (normalise unicode text) ∧ w ≠ "" ∧ w ∉ stopwords := by
  unfold words
  rw [List.mem_filter]
  simp

end Joined

section Plain

/-- Tables for texts in small letters that are spelled in one way. -/
def plainUnicode : Unicode where
  nfkc cs := cs
  isWord c := isAsciiLetter c || isDigit c || c == '_'
  casefold c := [c]

theorem standard_plainUnicode : Standard plainUnicode := by
  refine ⟨rfl, fun _ _ => rfl, ?_, fun _ _ => rfl, ?_⟩
  · intro c hword
    simp only [plainUnicode, isAsciiLetter, isDigit, Bool.or_eq_true, Bool.and_eq_true,
      decide_eq_true_eq, beq_iff_eq, Char.le_def, UInt32.le_iff_toNat_le] at hword
    have hcode : 33 ≤ c.toNat ∧ c.toNat ≤ 126 := by
      rcases hword with ((hsmall | hlarge) | hdigit) | rfl
      · exact ⟨le_trans (by decide) hsmall.1, le_trans hsmall.2 (by decide)⟩
      · exact ⟨le_trans (by decide) hlarge.1, le_trans hlarge.2 (by decide)⟩
      · exact ⟨le_trans (by decide) hdigit.1, le_trans hdigit.2 (by decide)⟩
      · decide
    unfold isSpace
    simp
    omega
  · intro c hc
    exact ⟨List.cons_ne_nil c [], List.forall_mem_singleton.mpr hc⟩

example : words plainUnicode "كفش‌هاي مردانه، ورزشى" = ["کفش", "مردانه", "ورزشی"] := by
  decide +kernel

end Plain

end SeoPlatform.Shared.Text
