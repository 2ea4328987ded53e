import SeoPlatform.Content.Analyze

namespace SeoPlatform.Optimizer.Covering

open SeoPlatform.Content.Analyze
open SeoPlatform.Foundation.Doubles
open SeoPlatform.Foundation.JsonValue
open SeoPlatform.Shared.Text

section Texts

variable (unicode : Unicode)

/-- `_covers`, the rule that a rewrite is planned and accepted by. -/
def covers (text keyword : String) : Bool :=
  let terms := words unicode keyword
  if terms = [] then false
  else
    let present := splitWords (normalise unicode text)
    double (67 / 100) ≤ double ((terms.countP present.contains : Rat) / terms.length)

end Texts

variable {unicode : Unicode} {page : Page} {text keyword : String}

/-- What a page with a title alone declares. -/
theorem declared_of_title (htitle : page.title = .str text)
    (hdescription : page.description.truthy = false) (hheadings : page.headings = []) :
    page.declared = .ok (text ++ " " ++ text ++ " " ++ "") := by
  have htext : part page.title = .ok text := by
    rw [htitle]
    unfold part Json.orElse
    by_cases h : text = ""
    · subst h
      rfl
    · rw [if_pos (by simp [h])]
  have hnone : part page.description = .ok "" := by
    unfold part Json.orElse
    rw [if_neg (by simp [hdescription])]
  unfold Page.declared
  simp only [bind, Except.bind, htext, hnone, hheadings]
  rfl

/-- A term of a keyword is declared where it occurs in the text: it is no stop word, and
that the title is declared twice does not matter. -/
theorem mem_declared_iff (h : Standard unicode) {term : String}
    (hterm : term ∈ words unicode keyword) :
    term ∈ words unicode (text ++ " " ++ text ++ " " ++ "") ↔
      term ∈ splitWords (normalise unicode text) := by
  obtain ⟨-, hsome, hrare⟩ := mem_words_iff.mp hterm
  have hnone : splitWords (normalise unicode "") = [] := by
    unfold normalise splitWords
    rw [if_pos rfl, String.toList_empty]
    simp
  rw [mem_words_iff, splitWords_join h, splitWords_join h, hnone, List.append_nil,
    List.mem_append, or_self]
  exact and_iff_left ⟨hsome, hrare⟩

/-- A page that declares a text as its title and nothing else targets exactly the keywords
that the text covers. -/
theorem targets_eq_covers (h : Standard unicode) (htitle : page.title = .str text)
    (hdescription : page.description.truthy = false) (hheadings : page.headings = [])
    (keyword : String) :
    targets unicode page keyword = .ok (covers unicode text keyword) := by
  unfold targets covers
  dsimp only
  by_cases hterms : words unicode keyword = []
  · rw [if_pos hterms, if_pos hterms]
  · rw [if_neg hterms, if_neg hterms, declared_of_title htitle hdescription hheadings]
    have hhits : hits (words unicode keyword)
        (words unicode (text ++ " " ++ text ++ " " ++ "")) =
        (words unicode keyword).countP (splitWords (normalise unicode text)).contains := by
      apply List.countP_congr
      intro term hterm
      rw [List.contains_iff_mem, List.contains_iff_mem]
      exact mem_declared_iff h hterm
    show Except.ok (enough _ _) = Except.ok _
    unfold enough matchRatio
    rw [hhits]

/-- A page that declares a keyword in another spelling, among stop words. -/
def guide : Page where
  url := "https://shop.ir/guide"
  title := .str "راهنماي خرید کفش براي مردانه"

theorem targets_eq_covers_guide :
    targets plainUnicode guide "خرید کفش مردانه" =
      .ok (covers plainUnicode "راهنماي خرید کفش براي مردانه" "خرید کفش مردانه") :=
  targets_eq_covers standard_plainUnicode rfl rfl rfl "خرید کفش مردانه"

end SeoPlatform.Optimizer.Covering
