import SeoPlatform.Foundation.TidyText
import SeoPlatform.Foundation.UrlText

namespace SeoPlatform.Optimizer.Titles

open SeoPlatform.Foundation.TidyText
open SeoPlatform.Foundation.Tokens
open SeoPlatform.Foundation.UrlText

def titleMax : Nat := 60

/-- Separators sites use between a page title and their brand. -/
def brandSeparators : List Char := ['|', '-', '–', '—', '»', '·', ':']

def endMarks : List Char := [' ', '،', '-', '|', '–', '—', ':']

def isEndMark (c : Char) : Bool := endMarks.contains c

/-- `" ".join(title.split())`. -/
def collapsed (title : List Char) : List Char := [' '].intercalate (tokens isSpace title)

/-- The title without the brand behind a separator, where that is enough. -/
def headBefore (limit : Nat) (title : List Char) (separator : Char) : Option (List Char) :=
  let head := stripChars (splitLast [' ', separator, ' '] title)
  if head ≠ [] ∧ head ≠ title ∧ head.length ≤ limit then some head else none

def withoutBrand (limit : Nat) (title : List Char) : Option (List Char) :=
  brandSeparators.findSome? (headBefore limit title)

/-- What of the first characters is whole words, unless they have no space. -/
def cutWords (limit : Nat) (title : List Char) : List Char :=
  let cut := title.take limit
  if cut.contains ' ' then splitLast [' '] cut else cut

def trimChars (limit : Nat) (title : List Char) : List Char :=
  if title.length ≤ limit then title
  else
    match withoutBrand limit title with
    | some head => head
    | none => (cutWords limit title).rdropWhile isEndMark

/-- Cut at a word boundary, dropping the brand suffix first. -/
def trimTitle (title : String) (limit : Nat := titleMax) : String :=
  String.ofList (trimChars limit (collapsed title.toList))

section Cuts

variable {limit : Nat} {title : List Char}

/-- Nothing of a word is cut off but marks at its end. -/
def WholeWords (title cut : List Char) : Prop :=
  ∃ marks rest, title = cut ++ marks ++ rest ∧ (∀ c ∈ marks, isEndMark c = true) ∧
    (rest = [] ∨ rest.head? = some ' ')

theorem tidy_collapsed (title : List Char) : Tidy isSpace ' ' (collapsed title) := tidy_tokens title

theorem stripChars_of_tidy {cs : List Char} (h : Tidy isSpace ' ' cs) : stripChars cs = cs := by
  rw [stripChars_eq]
  cases cs with
  | nil => rfl
  | cons c rest =>
      have hhead : isSpace c = false := h.head c rfl
      rw [List.dropWhile_cons_of_neg (by simp [hhead]), List.rdropWhile_eq_self_iff]
      intro hne
      rw [h.last _ (List.getLast?_eq_getLast_of_ne_nil hne)]
      exact Bool.false_ne_true

/-- Dropping the brand leaves what stands before a space. -/
theorem headBefore_spec (h : Tidy isSpace ' ' title) {separator : Char} {head : List Char}
    (hhead : headBefore limit title separator = some head) :
    head ≠ [] ∧ head.length ≤ limit ∧ ∃ rest, title = head ++ ' ' :: rest := by
  unfold headBefore splitLast at hhead
  dsimp only at hhead
  split at hhead
  · rename_i hkept
    obtain rfl := Option.some.inj hhead
    obtain ⟨hsome, hother, hshort⟩ := hkept
    refine ⟨hsome, hshort, ?_⟩
    cases hlast : beforeLast [' ', separator, ' '] title with
    | none =>
        rw [hlast, Option.getD_none, stripChars_of_tidy h] at hother
        exact absurd rfl hother
    | some before =>
        obtain ⟨tail, htail⟩ := beforeLast_spec hlast
        have htitle : title = before ++ ' ' :: (separator :: ' ' :: tail) := by simpa using htail
        have hbefore : Tidy isSpace ' ' before :=
          h.initial ⟨_, htitle.symm⟩ ((htitle ▸ h).last_of_append (by decide))
        rw [Option.getD_some, stripChars_of_tidy hbefore]
        exact ⟨separator :: ' ' :: tail, htitle⟩
  · cases hhead

theorem withoutBrand_spec (h : Tidy isSpace ' ' title) {head : List Char}
    (hhead : withoutBrand limit title = some head) :
    head ≠ [] ∧ head.length ≤ limit ∧ ∃ rest, title = head ++ ' ' :: rest := by
  obtain ⟨separator, -, hfound⟩ := List.exists_of_findSome?_eq_some hhead
  exact headBefore_spec h hfound

theorem cutWords_starts (limit : Nat) (title : List Char) :
    cutWords limit title <+: title.take limit := by
  unfold cutWords
  dsimp only
  split
  · exact splitLast_prefix _ _
  · exact List.prefix_rfl

/-- Where there is a space, what is cut off starts with one. -/
theorem cutWords_spec (h : ' ' ∈ title.take limit) :
    ∃ rest, title = cutWords limit title ++ ' ' :: rest := by
  have hsome := beforeLast_ne_none h
  obtain ⟨before, hbefore⟩ := Option.ne_none_iff_exists'.mp hsome
  obtain ⟨tail, htail⟩ := beforeLast_spec hbefore
  have hcut : cutWords limit title = before := by
    unfold cutWords splitLast
    dsimp only
    rw [if_pos (List.contains_iff_mem.mpr h), hbefore, Option.getD_some]
  refine ⟨tail ++ title.drop limit, ?_⟩
  calc
    title = title.take limit ++ title.drop limit := (List.take_append_drop limit title).symm
    _ = _ := by rw [hcut, htail]; simp

theorem rdropWhile_append_marks (cut : List Char) :
    ∃ marks, cut = cut.rdropWhile isEndMark ++ marks ∧ ∀ c ∈ marks, isEndMark c = true := by
  refine ⟨cut.rtakeWhile isEndMark, List.rdropWhile_append_rtakeWhile.symm, ?_⟩
  intro c hc
  exact List.mem_rtakeWhile_imp hc

theorem last_of_rdropWhile (h : Tidy isSpace ' ' title) {cut : List Char} (hcut : cut <+: title) :
    ∀ c ∈ (cut.rdropWhile isEndMark).getLast?, isSpace c = false := by
  intro c hc
  rw [← Bool.not_eq_true]
  intro hspace
  obtain ⟨hne, rfl⟩ := List.mem_getLast?_eq_getLast hc
  have hmem := (List.rdropWhile_prefix (p := isEndMark) (l := cut)).subset (List.getLast_mem hne)
  have hmark := List.rdropWhile_last_not (p := isEndMark) (l := cut) hne
  rw [h.spaced _ (hcut.subset hmem) hspace] at hmark
  exact hmark (by decide)

end Cuts

section Trimming

variable {limit : Nat} {title : List Char}

theorem trimChars_of_fits (h : title.length ≤ limit) : trimChars limit title = title := by
  unfold trimChars
  rw [if_pos h]

/-- The three ways a title is trimmed. -/
theorem trimChars_cases (limit : Nat) (title : List Char) :
    (title.length ≤ limit ∧ trimChars limit title = title) ∨
      (limit < title.length ∧
        ((∃ head, withoutBrand limit title = some head ∧ trimChars limit title = head) ∨
          (withoutBrand limit title = none ∧
            trimChars limit title = (cutWords limit title).rdropWhile isEndMark))) := by
  unfold trimChars
  split
  · rename_i hfits
    exact Or.inl ⟨hfits, rfl⟩
  · rename_i hlong
    refine Or.inr ⟨Nat.lt_of_not_le hlong, ?_⟩
    cases hbrand : withoutBrand limit title with
    | some head => exact Or.inl ⟨head, rfl, rfl⟩
    | none => exact Or.inr ⟨rfl, rfl⟩

theorem cut_starts (limit : Nat) (title : List Char) :
    (cutWords limit title).rdropWhile isEndMark <+: title.take limit :=
  (List.rdropWhile_prefix _ _).trans (cutWords_starts limit title)

theorem trimChars_starts (h : Tidy isSpace ' ' title) (limit : Nat) :
    trimChars limit title <+: title := by
  rcases trimChars_cases limit title with ⟨-, heq⟩ | ⟨-, ⟨head, hbrand, heq⟩ | ⟨-, heq⟩⟩
  · exact ⟨[], by rw [heq, List.append_nil]⟩
  · obtain ⟨-, -, rest, hrest⟩ := withoutBrand_spec h hbrand
    rw [heq]
    exact ⟨' ' :: rest, hrest.symm⟩
  · rw [heq]
    exact (cut_starts limit title).trans (List.take_prefix limit title)

theorem length_trimChars_le (h : Tidy isSpace ' ' title) (limit : Nat) :
    (trimChars limit title).length ≤ limit := by
  rcases trimChars_cases limit title with ⟨hfits, heq⟩ | ⟨-, ⟨head, hbrand, heq⟩ | ⟨-, heq⟩⟩
  · rwa [heq]
  · rw [heq]
    exact (withoutBrand_spec h hbrand).2.1
  · rw [heq]
    exact (cut_starts limit title).length_le.trans (List.length_take_le limit title)

theorem tidy_trimChars (h : Tidy isSpace ' ' title) (limit : Nat) :
    Tidy isSpace ' ' (trimChars limit title) := by
  apply h.initial (trimChars_starts h limit)
  rcases trimChars_cases limit title with ⟨-, heq⟩ | ⟨-, ⟨head, hbrand, heq⟩ | ⟨-, heq⟩⟩
  · rw [heq]
    exact h.last
  · obtain ⟨-, -, rest, hrest⟩ := withoutBrand_spec h hbrand
    rw [heq]
    exact (hrest ▸ h).last_of_append (by decide)
  · rw [heq]
    exact last_of_rdropWhile h ((cutWords_starts limit title).trans (List.take_prefix limit title))

theorem wholeWords_trimChars (h : Tidy isSpace ' ' title) (hspace : ' ' ∈ title.take limit) :
    WholeWords title (trimChars limit title) := by
  rcases trimChars_cases limit title with ⟨-, heq⟩ | ⟨-, ⟨head, hbrand, heq⟩ | ⟨-, heq⟩⟩
  · rw [heq]
    exact ⟨[], [], by simp, by simp, Or.inl rfl⟩
  · obtain ⟨-, -, rest, hrest⟩ := withoutBrand_spec h hbrand
    rw [heq]
    exact ⟨[], ' ' :: rest, by rw [List.append_nil]; exact hrest, by simp, Or.inr rfl⟩
  · obtain ⟨marks, hmarks, hall⟩ := rdropWhile_append_marks (cutWords limit title)
    obtain ⟨rest, hrest⟩ := cutWords_spec hspace
    rw [heq]
    refine ⟨marks, ' ' :: rest, ?_, hall, Or.inr rfl⟩
    rw [← hmarks]
    exact hrest

/-- The title is too long, no brand can be dropped, and what is cut is marks only. -/
def MarksOnly (limit : Nat) (title : List Char) : Prop :=
  limit < title.length ∧ withoutBrand limit title = none ∧
    ∀ c ∈ cutWords limit title, isEndMark c = true

theorem trimChars_eq_nil_iff (h : Tidy isSpace ' ' title) (hsome : title ≠ []) :
    trimChars limit title = [] ↔ MarksOnly limit title := by
  unfold MarksOnly
  rcases trimChars_cases limit title with ⟨hfits, heq⟩ | ⟨hlong, ⟨head, hbrand, heq⟩ | ⟨hnone, heq⟩⟩
  · rw [heq]
    refine iff_of_false hsome ?_
    rintro ⟨hlong, -⟩
    omega
  · rw [heq, hbrand]
    refine iff_of_false (withoutBrand_spec h hbrand).1 ?_
    rintro ⟨-, hnone, -⟩
    cases hnone
  · rw [heq, List.rdropWhile_eq_nil_iff]
    exact ⟨fun hall => ⟨hlong, hnone, hall⟩, fun hmarks => hmarks.2.2⟩

end Trimming

section Titles

/-- What a trimmed title has to be. The first characters are those of the title with its
white space collapsed. -/
structure Usable (isLetter : Char → Bool) (title : String) (limit : Nat) : Prop where
  starts : (trimTitle title limit).toList <+: collapsed title.toList
  short : (trimTitle title limit).length ≤ limit
  kept : (collapsed title.toList).length ≤ limit →
    (trimTitle title limit).toList = collapsed title.toList
  again : trimTitle (trimTitle title limit) limit = trimTitle title limit
  whole : ' ' ∈ (collapsed title.toList).take limit →
    WholeWords (collapsed title.toList) (trimTitle title limit).toList
  some : (∃ c ∈ title.toList, isLetter c = true) → trimTitle title limit ≠ ""

variable {isLetter : Char → Bool}

theorem toList_trimTitle (title : String) (limit : Nat) :
    (trimTitle title limit).toList = trimChars limit (collapsed title.toList) :=
  String.toList_ofList

/-- A tidy title is collapsed already. -/
theorem trimTitle_again (title : String) (limit : Nat) :
    trimTitle (trimTitle title limit) limit = trimTitle title limit := by
  have htidy := tidy_trimChars (tidy_collapsed title.toList) limit
  have hcollapsed : collapsed (trimTitle title limit).toList =
      trimChars limit (collapsed title.toList) := by
    rw [toList_trimTitle]
    exact htidy.intercalate_tokens
  apply String.toList_inj.mp
  rw [toList_trimTitle, hcollapsed, toList_trimTitle]
  exact trimChars_of_fits (length_trimChars_le (tidy_collapsed title.toList) limit)

theorem collapsed_ne_nil {title : List Char} {c : Char} (hc : c ∈ title)
    (hspace : isSpace c = false) : collapsed title ≠ [] := by
  obtain ⟨run, hrun, -⟩ := exists_mem_tokens hc hspace
  have hruns : ∀ run ∈ tokens isSpace title, run ≠ [] ∧ ∀ c ∈ run, isSpace c = false :=
    fun _ hrun => of_mem_tokens hrun
  have htidy : Tidy isSpace ' ' (collapsed title) ∧
      (tokens isSpace title ≠ [] → collapsed title ≠ []) := tidy_intercalate hruns
  exact htidy.2 (List.ne_nil_of_mem hrun)

/-- A trimmed title is usable unless the title has letters and what is cut of it has none
but marks. -/
theorem usable_iff (hletter : ∀ c, isLetter c = true → isSpace c = false) (title : String)
    (limit : Nat) :
    Usable isLetter title limit ↔
      ¬ ((∃ c ∈ title.toList, isLetter c = true) ∧ MarksOnly limit (collapsed title.toList)) := by
  have htidy := tidy_collapsed title.toList
  have hempty : (∃ c ∈ title.toList, isLetter c = true) →
      (trimTitle title limit = "" ↔ MarksOnly limit (collapsed title.toList)) := by
    rintro ⟨c, hc, hisLetter⟩
    rw [← String.toList_eq_nil_iff, toList_trimTitle]
    exact trimChars_eq_nil_iff htidy (collapsed_ne_nil hc (hletter c hisLetter))
  constructor
  · rintro h ⟨hhas, hmarks⟩
    exact h.some hhas ((hempty hhas).mpr hmarks)
  · intro h
    constructor
    · rw [toList_trimTitle]
      exact trimChars_starts htidy limit
    · rw [← String.length_toList, toList_trimTitle]
      exact length_trimChars_le htidy limit
    · intro hfits
      rw [toList_trimTitle]
      exact trimChars_of_fits hfits
    · exact trimTitle_again title limit
    · intro hspace
      rw [toList_trimTitle]
      exact wholeWords_trimChars htidy hspace
    · intro hhas hnone
      exact h ⟨hhas, (hempty hhas).mp hnone⟩

theorem isSpace_of_isAsciiLetter {c : Char} (h : isAsciiLetter c = true) : isSpace c = false := by
  unfold isAsciiLetter at h
  simp only [Char.le_def, UInt32.le_iff_toNat_le, Bool.or_eq_true, Bool.and_eq_true,
    decide_eq_true_eq] at h
  have hcode : 97 ≤ c.toNat ∧ c.toNat ≤ 122 ∨ 65 ≤ c.toNat ∧ c.toNat ≤ 90 := h
  unfold isSpace
  simp only [Bool.or_eq_false_iff, Bool.and_eq_false_iff, decide_eq_false_iff_not,
    beq_eq_false_iff_ne]
  omega

example : trimTitle "Running  shoes | Shop" 15 = "Running shoes" := by decide +kernel

theorem usable_iff_brand :
    Usable isAsciiLetter "Running shoes | Shop" 15 ↔
      ¬ ((∃ c ∈ "Running shoes | Shop".toList, isAsciiLetter c = true) ∧
        MarksOnly 15 (collapsed "Running shoes | Shop".toList)) :=
  usable_iff (fun _ => isSpace_of_isAsciiLetter) "Running shoes | Shop" 15

/-- A title that starts with a separator, and goes on with a word that is too long. -/
def unbroken : String := "| " ++ String.ofList (List.replicate 60 'x')

theorem not_usable_unbroken : ¬ Usable isAsciiLetter unbroken titleMax := by
  intro h
  have hx : 'x' ∈ unbroken.toList := by simp [unbroken]
  have hletter : ∃ c ∈ unbroken.toList, isAsciiLetter c = true := ⟨'x', hx, by decide⟩
  have hnone : trimTitle unbroken titleMax = "" := by decide +kernel
  exact h.some hletter hnone

end Titles

end SeoPlatform.Optimizer.Titles
