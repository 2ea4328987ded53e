import Mathlib.Data.List.Forall2

namespace SeoPlatform.Foundation.Markup

/-- What a reader of markup makes of a text: tags, with their attributes, and the
characters between them. -/
inductive Token where
  | tag (text : List Char)
  | char (c : Char)
  deriving DecidableEq, Repr

/-- Read a text, inside a tag that is open so far or outside. -/
def tokens : Option (List Char) → List Char → List Token
  | _, [] => []
  | none, c :: cs => if c = '<' then tokens (some ['<']) cs else .char c :: tokens none cs
  | some tag, c :: cs =>
      if c = '>' then .tag (tag ++ ['>']) :: tokens none cs else tokens (some (tag ++ [c])) cs

/-- The tag that is still open at the end of a text. -/
def opened : Option (List Char) → List Char → Option (List Char)
  | state, [] => state
  | none, c :: cs => if c = '<' then opened (some ['<']) cs else opened none cs
  | some tag, c :: cs =>
      if c = '>' then opened none cs else opened (some (tag ++ [c])) cs

def Token.tag? : Token → Option (List Char)
  | .tag text => some text
  | .char _ => none

def styleTag : List Char := "<style>".toList

/-- The characters inside the style elements, or those outside. -/
def texts (inside : Bool) : Bool → List Token → List Char
  | _, [] => []
  | _, .tag text :: rest => texts inside (text = styleTag) rest
  | styled, .char c :: rest =>
      if styled = inside then c :: texts inside styled rest else texts inside styled rest

/-- Whether the last tag opened a style element. -/
def styledAfter : Bool → List Token → Bool
  | styled, [] => styled
  | _, .tag text :: rest => styledAfter (text = styleTag) rest
  | styled, .char _ :: rest => styledAfter styled rest

def entities : List (List Char) :=
  ["amp;".toList, "lt;".toList, "gt;".toList, "quot;".toList, "#x27;".toList]

/-- No character of markup stands for itself. -/
def escaped : List Char → Bool
  | [] => true
  | c :: cs =>
      (if c = '&' then entities.any fun entity => entity.isPrefixOf cs
        else c ≠ '<' && c ≠ '>' && c ≠ '"' && c ≠ '\'') && escaped cs

/-- The tags of a page, in order. -/
def tags (page : String) : List (List Char) :=
  (tokens none page.toList).filterMap Token.tag?

/-- What is read outside the tags and the style elements. -/
def outside (page : String) : List Char := texts false false (tokens none page.toList)

/-- The contents of the style elements. -/
def styles (page : String) : List Char := texts true false (tokens none page.toList)

section Appends

theorem tokens_outside (c : Char) (cs : List Char) :
    tokens none (c :: cs) =
      if c = '<' then tokens (some ['<']) cs else .char c :: tokens none cs := rfl

theorem tokens_inside (tag : List Char) (c : Char) (cs : List Char) :
    tokens (some tag) (c :: cs) =
      if c = '>' then .tag (tag ++ ['>']) :: tokens none cs else tokens (some (tag ++ [c])) cs :=
  rfl

theorem opened_outside (c : Char) (cs : List Char) :
    opened none (c :: cs) = if c = '<' then opened (some ['<']) cs else opened none cs := rfl

theorem opened_inside (tag : List Char) (c : Char) (cs : List Char) :
    opened (some tag) (c :: cs) =
      if c = '>' then opened none cs else opened (some (tag ++ [c])) cs := rfl

theorem tokens_append (state : Option (List Char)) (xs ys : List Char) :
    tokens state (xs ++ ys) = tokens state xs ++ tokens (opened state xs) ys := by
  induction xs generalizing state with
  | nil => cases state <;> rfl
  | cons c cs ih =>
      rw [List.cons_append]
      cases state with
      | none =>
          rw [tokens_outside, tokens_outside, opened_outside]
          split
          · exact ih _
          · rw [ih, List.cons_append]
      | some tag =>
          rw [tokens_inside, tokens_inside, opened_inside]
          split
          · rw [ih, List.cons_append]
          · exact ih _

theorem opened_append (state : Option (List Char)) (xs ys : List Char) :
    opened state (xs ++ ys) = opened (opened state xs) ys := by
  induction xs generalizing state with
  | nil => cases state <;> rfl
  | cons c cs ih =>
      rw [List.cons_append]
      cases state with
      | none =>
          rw [opened_outside, opened_outside]
          split <;> exact ih _
      | some tag =>
          rw [opened_inside, opened_inside]
          split <;> exact ih _

theorem texts_append (inside styled : Bool) (xs ys : List Token) :
    texts inside styled (xs ++ ys) =
      texts inside styled xs ++ texts inside (styledAfter styled xs) ys := by
  induction xs generalizing styled with
  | nil => rfl
  | cons x rest ih =>
      cases x with
      | tag text => exact ih _
      | char c =>
          rw [List.cons_append, texts, texts, styledAfter, ih]
          split <;> rfl

theorem styledAfter_append (styled : Bool) (xs ys : List Token) :
    styledAfter styled (xs ++ ys) = styledAfter (styledAfter styled xs) ys := by
  induction xs generalizing styled with
  | nil => rfl
  | cons x rest ih =>
      cases x <;> exact ih _

theorem isPrefixOf_append {xs ys zs : List Char} (h : xs.isPrefixOf ys = true) :
    xs.isPrefixOf (ys ++ zs) = true := by
  rw [List.isPrefixOf_iff_prefix] at h ⊢
  exact h.trans (List.prefix_append ys zs)

theorem escaped_append {xs ys : List Char} (hxs : escaped xs = true) (hys : escaped ys = true) :
    escaped (xs ++ ys) = true := by
  induction xs with
  | nil => exact hys
  | cons c cs ih =>
      rw [escaped, Bool.and_eq_true] at hxs
      obtain ⟨hfirst, hrest⟩ := hxs
      rw [List.cons_append, escaped, ih hrest, Bool.and_true]
      split at hfirst
      · rename_i hamp
        rw [if_pos hamp]
        obtain ⟨entity, hentity, hprefix⟩ := List.any_eq_true.mp hfirst
        exact List.any_eq_true.mpr ⟨entity, hentity, isPrefixOf_append hprefix⟩
      · rename_i hamp
        rw [if_neg hamp]
        exact hfirst

end Appends

/-- A piece of a page that ends outside its tags and opens no style element, and
whose text is escaped. -/
structure Clean (piece : String) : Prop where
  closed : opened none piece.toList = none
  unstyled : styledAfter false (tokens none piece.toList) = false
  noStyles : styles piece = []
  escaped : escaped (outside piece) = true

/-- The same, read off the characters. -/
def cleanChars (cs : List Char) : Bool :=
  opened none cs = none && styledAfter false (tokens none cs) = false &&
    texts true false (tokens none cs) = [] && Markup.escaped (texts false false (tokens none cs))

/-- A literal is clean where its characters are. -/
theorem clean_literal {piece : String} {cs : List Char} (hpiece : piece = String.ofList cs)
    (h : cleanChars cs = true) : Clean piece := by
  unfold cleanChars at h
  simp only [Bool.and_eq_true, decide_eq_true_eq] at h
  obtain ⟨⟨⟨hclosed, hunstyled⟩, hstyles⟩, hescaped⟩ := h
  have hchars : piece.toList = cs := by rw [hpiece, String.toList_ofList]
  refine ⟨?_, ?_, ?_, ?_⟩
  · rw [hchars]
    exact hclosed
  · rw [hchars]
    exact hunstyled
  · unfold styles
    rw [hchars]
    exact hstyles
  · unfold outside
    rw [hchars]
    exact hescaped

/-- Two pieces that only differ between their tags. -/
structure SameMarkup (piece piece' : String) : Prop where
  left : Clean piece
  right : Clean piece'
  tags : tags piece = tags piece'

section Pieces

variable {a a' b b' : String}

theorem tokens_of_closed (h : opened none a.toList = none) :
    tokens none (a ++ b).toList = tokens none a.toList ++ tokens none b.toList := by
  rw [String.toList_append, tokens_append, h]

theorem tags_append (h : opened none a.toList = none) : tags (a ++ b) = tags a ++ tags b := by
  unfold tags
  rw [tokens_of_closed h, List.filterMap_append]

theorem Clean.append (ha : Clean a) (hb : Clean b) : Clean (a ++ b) := by
  have htokens := tokens_of_closed (b := b) ha.closed
  refine ⟨?_, ?_, ?_, ?_⟩
  · rw [String.toList_append, opened_append, ha.closed]
    exact hb.closed
  · rw [htokens, styledAfter_append, ha.unstyled]
    exact hb.unstyled
  · unfold styles
    rw [htokens, texts_append, ha.unstyled]
    exact List.append_eq_nil_iff.mpr ⟨ha.noStyles, hb.noStyles⟩
  · unfold outside
    rw [htokens, texts_append, ha.unstyled]
    exact escaped_append ha.escaped hb.escaped

theorem SameMarkup.append (ha : SameMarkup a a') (hb : SameMarkup b b') :
    SameMarkup (a ++ b) (a' ++ b') := by
  refine ⟨ha.left.append hb.left, ha.right.append hb.right, ?_⟩
  rw [tags_append ha.left.closed, tags_append ha.right.closed, ha.tags, hb.tags]

theorem sameMarkup_refl (h : Clean a) : SameMarkup a a := ⟨h, h, rfl⟩

/-- What both have in common. -/
theorem same_literal {cs : List Char} (ha : a = String.ofList cs)
    (h : cleanChars cs = true) : SameMarkup a a :=
  sameMarkup_refl (clean_literal ha h)

theorem plain_literal {cs : List Char} (ha : a = String.ofList cs)
    (h : cs.all (fun c => c ≠ '<') = true) : ∀ c ∈ a.toList, c ≠ '<' := by
  rw [ha, String.toList_ofList]
  intro c hc
  simpa using List.all_eq_true.mp h c hc

theorem SameMarkup.andLiteral {cs : List Char} (h : SameMarkup a a') (hb : b = String.ofList cs)
    (hcs : cleanChars cs = true) : SameMarkup (a ++ b) (a' ++ b) :=
  h.append (same_literal hb hcs)

/-- A piece inside fixed markup. -/
theorem SameMarkup.around {before after : String} {cs ds : List Char} (h : SameMarkup a a')
    (hbefore : before = String.ofList cs) (hcs : cleanChars cs = true)
    (hafter : after = String.ofList ds) (hds : cleanChars ds = true) :
    SameMarkup (before ++ a ++ after) (before ++ a' ++ after) :=
  ((same_literal hbefore hcs).append h).andLiteral hafter hds

theorem SameMarkup.join {pieces pieces' : List String}
    (h : List.Forall₂ SameMarkup pieces pieces') :
    SameMarkup (String.join pieces) (String.join pieces') := by
  induction h with
  | nil => exact same_literal rfl (by decide)
  | cons hfirst _ ih =>
      rw [String.join_cons, String.join_cons]
      exact hfirst.append ih

theorem tokens_of_text {cs : List Char} (h : ∀ c ∈ cs, c ≠ '<') :
    tokens none cs = cs.map .char ∧ opened none cs = none := by
  induction cs with
  | nil => exact ⟨rfl, rfl⟩
  | cons c cs ih =>
      have hc : c ≠ '<' := h c (List.mem_cons_self ..)
      obtain ⟨htokens, hopened⟩ := ih fun d hd => h d (List.mem_cons_of_mem _ hd)
      rw [tokens_outside, opened_outside, if_neg hc, if_neg hc, htokens]
      exact ⟨rfl, hopened⟩

theorem texts_of_text (inside styled : Bool) (cs : List Char) :
    texts inside styled (cs.map .char) = if styled = inside then cs else [] := by
  induction cs with
  | nil => cases inside <;> cases styled <;> rfl
  | cons c cs ih =>
      rw [List.map_cons, texts, ih]
      split <;> rfl

theorem styledAfter_of_text (styled : Bool) (cs : List Char) :
    styledAfter styled (cs.map .char) = styled := by
  induction cs with
  | nil => rfl
  | cons c cs ih => exact ih

theorem not_open_of_escaped {cs : List Char} (h : escaped cs = true) : ∀ c ∈ cs, c ≠ '<' := by
  induction cs with
  | nil => exact fun c hc => by contradiction
  | cons d cs ih =>
      rw [escaped, Bool.and_eq_true] at h
      obtain ⟨hfirst, hrest⟩ := h
      intro c hc
      rcases List.mem_cons.mp hc with rfl | hmem
      · rintro rfl
        simp at hfirst
      · exact ih hrest c hmem

/-- Escaped texts are clean, and no tags are read in them. -/
theorem clean_of_escaped {cs : List Char} (h : escaped cs = true) :
    Clean (String.ofList cs) ∧ tags (String.ofList cs) = [] := by
  obtain ⟨htokens, hopened⟩ := tokens_of_text (not_open_of_escaped h)
  refine ⟨⟨?_, ?_, ?_, ?_⟩, ?_⟩
  · rw [String.toList_ofList]
    exact hopened
  · rw [String.toList_ofList, htokens]
    exact styledAfter_of_text false cs
  · unfold styles
    rw [String.toList_ofList, htokens]
    exact texts_of_text true false cs
  · unfold outside
    rw [String.toList_ofList, htokens, texts_of_text]
    exact h
  · unfold tags
    rw [String.toList_ofList, htokens, List.filterMap_map]
    exact List.filterMap_eq_nil_iff.mpr fun c _ => rfl

theorem sameMarkup_of_escaped {xs ys : List Char} (hxs : escaped xs = true)
    (hys : escaped ys = true) : SameMarkup (String.ofList xs) (String.ofList ys) := by
  obtain ⟨hleft, hnone⟩ := clean_of_escaped hxs
  obtain ⟨hright, hnone'⟩ := clean_of_escaped hys
  exact ⟨hleft, hright, hnone.trans hnone'.symm⟩

end Pieces

/-- Two pages: the tags are the same, the text between them is escaped, and the style
elements hold the stylesheet alone. -/
structure SamePage (sheet page page' : String) : Prop where
  tags : tags page = tags page'
  escaped : escaped (outside page) = true
  styles : styles page = sheet.toList

section Pages

variable {a a' b b' sheet : String}

def endStyleTag : List Char := "</style>".toList

/-- A page with a stylesheet. -/
def styledPage (a sheet b : String) : String := a ++ "<style>" ++ sheet ++ "</style>" ++ b

theorem tokens_styledPage (ha : opened none a.toList = none)
    (hsheet : ∀ c ∈ sheet.toList, c ≠ '<') :
    tokens none (styledPage a sheet b).toList =
      tokens none a.toList ++
        .tag styleTag :: (sheet.toList.map .char ++ .tag endStyleTag :: tokens none b.toList) := by
  obtain ⟨htokens, hopened⟩ := tokens_of_text hsheet
  have hopen : ∀ cs, tokens none ("<style>".toList ++ cs) = .tag styleTag :: tokens none cs := by
    intro cs
    rw [tokens_append]
    rfl
  have hclose : ∀ cs,
      tokens none ("</style>".toList ++ cs) = .tag endStyleTag :: tokens none cs := by
    intro cs
    rw [tokens_append]
    rfl
  unfold styledPage
  simp only [String.toList_append, List.append_assoc]
  rw [tokens_append, ha, hopen, tokens_append, htokens, hopened, hclose]

theorem samePage_styled (ha : SameMarkup a a') (hb : SameMarkup b b')
    (hsheet : ∀ c ∈ sheet.toList, c ≠ '<') :
    SamePage sheet (styledPage a sheet b) (styledPage a' sheet b') := by
  have htags : ∀ a b : String, opened none a.toList = none →
      tags (styledPage a sheet b) = tags a ++ styleTag :: endStyleTag :: tags b := by
    intro a b ha
    have hchars : (sheet.toList.map Token.char).filterMap Token.tag? = [] := by
      rw [List.filterMap_map]
      exact List.filterMap_eq_nil_iff.mpr fun c _ => rfl
    unfold tags
    rw [tokens_styledPage ha hsheet, List.filterMap_append, List.filterMap_cons,
      List.filterMap_append, hchars]
    rfl
  have htexts : ∀ inside, texts inside false (tokens none (styledPage a sheet b).toList) =
      texts inside false (tokens none a.toList) ++
        ((if true = inside then sheet.toList else []) ++
          texts inside false (tokens none b.toList)) := by
    intro inside
    rw [tokens_styledPage ha.left.closed hsheet, texts_append, ha.left.unstyled]
    congr 1
    show texts inside true (sheet.toList.map .char ++ _) = _
    rw [texts_append, styledAfter_of_text, texts_of_text]
    rfl
  refine ⟨?_, ?_, ?_⟩
  · rw [htags a b ha.left.closed, htags a' b' ha.right.closed, ha.tags, hb.tags]
  · unfold outside
    rw [htexts false, if_neg (by decide), List.nil_append]
    exact escaped_append ha.left.escaped hb.left.escaped
  · unfold styles
    rw [htexts true, if_pos rfl]
    have hnone : texts true false (tokens none a.toList) = [] := ha.left.noStyles
    have hnone' : texts true false (tokens none b.toList) = [] := hb.left.noStyles
    rw [hnone, hnone', List.append_nil, List.nil_append]

end Pages

end SeoPlatform.Foundation.Markup
