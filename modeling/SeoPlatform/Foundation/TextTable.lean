import Mathlib.Algebra.BigOperators.Group.List.Basic
import Mathlib.Algebra.GroupWithZero.Nat

namespace SeoPlatform.Foundation.TextTable

/-- What a report in plain text is made of, in order: lines, and tables by their
columns and the texts of their cells. -/
inductive Block where
  | lines (texts : List String)
  | table (columns : List String) (rows : List (List String))
  deriving DecidableEq, Repr

/-- A row of a table. -/
def rowText (cells : List String) : String :=
  cells.foldl (fun line cell => line ++ " " ++ cell ++ " |") "|"

def Block.toLines : Block → List String
  | .lines texts => texts
  | .table columns rows =>
      rowText columns :: rowText (columns.map fun _ => "---") :: rows.map rowText

def toText (blocks : List Block) : String :=
  "\n".intercalate (blocks.flatMap Block.toLines)

def lineBreak (c : Char) : Bool := c == '\n' || c == '\r'

/-- The lines that a reader finds in a text. -/
def linesOf (text : String) : List (List Char) := text.toList.splitOnP lineBreak

/-- The lines that a reader finds for a block. -/
def Block.readLines (block : Block) : List (List Char) := block.toLines.flatMap linesOf

/-- The bars between the cells of a line. A backslash leaves the next character, be it
a bar, to the cell. -/
def bars : Bool → List Char → Nat
  | _, [] => 0
  | true, _ :: cs => bars false cs
  | false, c :: cs =>
      if c = '\\' then bars true cs else if c = '|' then bars false cs + 1 else bars false cs

/-- The cells that a reader finds in a line that starts and ends with a bar. -/
def cellsIn (line : List Char) : Nat := bars false line - 1

/-- A table is read with one line for each of its rows, after the two lines of its
header, and with as many cells in each line as there are columns. -/
def Block.Kept : Block → Prop
  | .lines _ => True
  | .table columns rows =>
      (Block.table columns rows).readLines.length = rows.length + 2 ∧
        ∀ line ∈ (Block.table columns rows).readLines, cellsIn line = columns.length

@[simp] theorem kept_lines (texts : List String) : (Block.lines texts).Kept := trivial

/-- A text that neither ends a line nor a cell. -/
structure Flat (cell : String) : Prop where
  oneLine : ∀ c ∈ cell.toList, lineBreak c = false
  oneCell : bars false cell.toList = 0

theorem flat_iff {cell : String} :
    Flat cell ↔ (∀ c ∈ cell.toList, lineBreak c = false) ∧ bars false cell.toList = 0 :=
  ⟨fun h => ⟨h.oneLine, h.oneCell⟩, fun h => ⟨h.1, h.2⟩⟩

instance (cell : String) : Decidable (Flat cell) :=
  decidable_of_iff ((cell.toList.all fun c => !lineBreak c) = true ∧ bars false cell.toList = 0) (by
    rw [flat_iff, List.all_eq_true]
    simp)

section Bars

/-- A character that is no mark of a table. -/
def plainChar (c : Char) : Bool := c != '\\' && c != '|' && !lineBreak c

theorem bars_cons (c : Char) (cs : List Char) :
    bars false (c :: cs) =
      if c = '\\' then bars true cs else if c = '|' then bars false cs + 1 else bars false cs :=
  rfl

theorem bars_plain {c : Char} (h : plainChar c = true) (escaped : Bool) (cs : List Char) :
    bars escaped (c :: cs) = bars false cs := by
  simp only [plainChar, Bool.and_eq_true, bne_iff_ne] at h
  cases escaped with
  | true => rfl
  | false => rw [bars_cons, if_neg h.1.1, if_neg h.1.2]

theorem bars_bar (cs : List Char) : bars false ('|' :: cs) = bars false cs + 1 := by
  apply if_neg
  decide

theorem bars_append {c : Char} (h : plainChar c = true) (escaped : Bool) (xs ys : List Char) :
    bars escaped (xs ++ c :: ys) = bars escaped xs + bars false ys := by
  induction xs generalizing escaped with
  | nil =>
      rw [List.nil_append, bars_plain h]
      cases escaped <;> exact (Nat.zero_add _).symm
  | cons x rest ih =>
      cases escaped with
      | true => exact ih false
      | false =>
          rw [List.cons_append, bars_cons, bars_cons]
          split
          · exact ih true
          · split
            · rw [ih false]
              omega
            · exact ih false

theorem bars_of_plain {cs : List Char} (h : ∀ c ∈ cs, plainChar c = true) :
    bars false cs = 0 := by
  induction cs with
  | nil => rfl
  | cons c rest ih =>
      rw [bars_plain (h c List.mem_cons_self)]
      exact ih fun d hd => h d (List.mem_cons_of_mem c hd)

end Bars

section FlatTexts

theorem lineBreak_of_plain {c : Char} (h : plainChar c = true) : lineBreak c = false := by
  simp only [plainChar, Bool.and_eq_true, Bool.not_eq_true'] at h
  exact h.2

theorem flat_of_plain {text : String} (h : ∀ c ∈ text.toList, plainChar c = true) : Flat text :=
  ⟨fun c hc => lineBreak_of_plain (h c hc), bars_of_plain h⟩

theorem flat_literal {text : String} {cs : List Char} (htext : text = String.ofList cs)
    (hcs : cs.all plainChar = true) : Flat text := by
  apply flat_of_plain
  rw [htext, String.toList_ofList]
  exact List.all_eq_true.mp hcs

theorem flat_columns {column : String} {cs : List Char} {rest : List String}
    (hcolumn : column = String.ofList cs) (hcs : cs.all plainChar = true)
    (hrest : ∀ column ∈ rest, Flat column) : ∀ name ∈ column :: rest, Flat name :=
  List.forall_mem_cons.mpr ⟨flat_literal hcolumn hcs, hrest⟩

/-- Two texts with a plain character between them. -/
theorem flat_append {before after : String} {c : Char} {cs : List Char} (hc : plainChar c = true)
    (hafter : after = String.ofList (c :: cs)) :
    Flat (before ++ after) ↔ Flat before ∧ Flat (String.ofList cs) := by
  have hchars : (before ++ after).toList = before.toList ++ c :: cs := by
    rw [String.toList_append, hafter, String.toList_ofList]
  have hbreak := lineBreak_of_plain hc
  rw [flat_iff, flat_iff, flat_iff, hchars, bars_append hc, String.toList_ofList,
    List.forall_mem_append, List.forall_mem_cons]
  constructor
  · rintro ⟨⟨hbefore, -, hcs⟩, hbars⟩
    exact ⟨⟨hbefore, by omega⟩, hcs, by omega⟩
  · rintro ⟨⟨hbefore, hfirst⟩, hcs, hsecond⟩
    exact ⟨⟨hbefore, hbreak, hcs⟩, by omega⟩

theorem flat_cons {c : Char} (hc : plainChar c = true) (cs : List Char) :
    Flat (String.ofList (c :: cs)) ↔ Flat (String.ofList cs) := by
  have hbreak := lineBreak_of_plain hc
  rw [flat_iff, flat_iff, String.toList_ofList, String.toList_ofList, bars_plain hc,
    List.forall_mem_cons, and_iff_right hbreak]

theorem flat_prefix {cs : List Char} (hcs : cs.all plainChar = true) (rest : String) :
    Flat (String.ofList (cs ++ rest.toList)) ↔ Flat rest := by
  induction cs with
  | nil => rw [List.nil_append, String.ofList_toList]
  | cons c cs ih =>
      rw [List.all_cons, Bool.and_eq_true] at hcs
      rw [List.cons_append, flat_cons hcs.1]
      exact ih hcs.2

theorem flat_empty : Flat "" := flat_of_plain (by simp)

theorem flat_join {texts : List String} {separator : String} {c : Char} {cs : List Char}
    (hseparator : separator = String.ofList (c :: cs)) (hc : plainChar c = true)
    (hcs : cs.all plainChar = true) :
    Flat (separator.intercalate texts) ↔ ∀ text ∈ texts, Flat text := by
  induction texts with
  | nil => simpa using flat_empty
  | cons text rest ih =>
      cases rest with
      | nil => simp
      | cons next rest =>
          have hafter : separator ++ separator.intercalate (next :: rest) =
              String.ofList (c :: (cs ++ (separator.intercalate (next :: rest)).toList)) := by
            rw [← String.toList_inj, String.toList_append, String.toList_ofList, hseparator,
              String.toList_ofList, List.cons_append]
          rw [String.intercalate_cons_cons, String.append_assoc, flat_append hc hafter,
            flat_prefix hcs, ih, List.forall_mem_cons (l := next :: rest)]

theorem plain_of_isDigit {c : Char} (h : c.isDigit = true) : plainChar c = true := by
  have hne : ∀ mark : Char, mark.isDigit = false → c ≠ mark := by
    rintro mark hmark rfl
    rw [h] at hmark
    contradiction
  simp only [plainChar, lineBreak, Bool.and_eq_true, bne_iff_ne, Bool.not_eq_true',
    Bool.or_eq_false_iff, beq_eq_false_iff_ne]
  exact ⟨⟨hne _ rfl, hne _ rfl⟩, hne _ rfl, hne _ rfl⟩

theorem flat_toString (n : Int) : Flat (toString n) := by
  have hdigits : ∀ m : Nat, ∀ c ∈ (Nat.repr m).toList, plainChar c = true := by
    intro m c hc
    rw [Nat.toList_repr] at hc
    exact plain_of_isDigit (Nat.isDigit_of_mem_toDigits (by decide) (by decide) hc)
  apply flat_of_plain
  rw [Int.toString_eq_repr, Int.repr_eq_if]
  split
  · exact hdigits n.toNat
  · have hsign : ("-" ++ (-n).toNat.repr).toList = '-' :: (-n).toNat.repr.toList := by
      rw [String.toList_append]
      rfl
    rw [hsign, List.forall_mem_cons]
    exact ⟨rfl, hdigits (-n).toNat⟩

end FlatTexts

section Rows

theorem toList_rowText (cells : List String) :
    (rowText cells).toList =
      '|' :: cells.flatMap fun cell => ' ' :: (cell.toList ++ [' ', '|']) := by
  have hline : ∀ line : String,
      (cells.foldl (fun line cell => line ++ " " ++ cell ++ " |") line).toList =
        line.toList ++ cells.flatMap fun cell => ' ' :: (cell.toList ++ [' ', '|']) := by
    induction cells with
    | nil => simp
    | cons cell rest ih =>
        intro line
        rw [List.foldl_cons, ih]
        simp
  exact hline "|"

theorem bars_cells (cells : List String) :
    bars false (cells.flatMap fun cell => ' ' :: (cell.toList ++ [' ', '|'])) =
      (cells.map fun cell => bars false cell.toList).sum + cells.length := by
  induction cells with
  | nil => rfl
  | cons cell rest ih =>
      have hspace : plainChar ' ' = true := by decide
      rw [List.flatMap_cons, List.cons_append, bars_plain hspace, List.append_assoc,
        List.cons_append, bars_append hspace, List.cons_append, List.nil_append, bars_bar, ih]
      simp only [List.map_cons, List.sum_cons, List.length_cons]
      omega

theorem cellsIn_rowText (cells : List String) :
    cellsIn (rowText cells).toList =
      (cells.map fun cell => bars false cell.toList).sum + cells.length := by
  unfold cellsIn
  rw [toList_rowText, bars_bar, bars_cells]
  omega

/-- A row is one line if its cells are. -/
theorem oneLine_rowText (cells : List String) :
    (∀ c ∈ (rowText cells).toList, lineBreak c = false) ↔
      ∀ cell ∈ cells, ∀ c ∈ cell.toList, lineBreak c = false := by
  rw [toList_rowText]
  simp only [List.mem_flatMap, List.mem_append, forall_exists_index, and_imp, or_imp, forall_and,
    List.mem_cons, List.not_mem_nil, or_false]
  constructor
  · rintro ⟨-, -, hcells, -⟩ cell hcell c hc
    exact hcells c cell hcell hc
  · intro hcells
    refine ⟨?_, ?_, ?_, ?_, ?_⟩
    · rintro c rfl
      rfl
    · rintro c cell - rfl
      rfl
    · intro c cell hcell hc
      exact hcells cell hcell c hc
    · rintro c cell - rfl
      rfl
    · rintro c cell - rfl
      rfl

theorem kept_row_iff {cells : List String} {n : Nat} (hn : cells.length = n) :
    ((∀ c ∈ (rowText cells).toList, lineBreak c = false) ∧ cellsIn (rowText cells).toList = n) ↔
      ∀ cell ∈ cells, Flat cell := by
  have hsum : (cells.map fun cell => bars false cell.toList).sum + cells.length = n ↔
      ∀ cell ∈ cells, bars false cell.toList = 0 := by
    rw [hn, Nat.add_eq_right, List.sum_eq_zero_iff_forall_eq_nat, List.forall_mem_map]
  rw [oneLine_rowText, cellsIn_rowText, hsum]
  constructor
  · intro h cell hcell
    exact ⟨h.1 cell hcell, h.2 cell hcell⟩
  · intro h
    exact ⟨fun cell hcell => (h cell hcell).oneLine, fun cell hcell => (h cell hcell).oneCell⟩

end Rows

section Lines

theorem linesOf_append (before after : String) :
    linesOf (before ++ "\n" ++ after) = linesOf before ++ linesOf after := by
  unfold linesOf
  have hbreak : lineBreak '\n' = true := by decide
  rw [← List.splitOnP_append_cons before.toList after.toList hbreak]
  simp

/-- The lines of a text that is put together from pieces are those of the pieces. -/
theorem linesOf_intercalate {pieces : List String} (h : pieces ≠ []) :
    linesOf ("\n".intercalate pieces) = pieces.flatMap linesOf := by
  induction pieces with
  | nil => contradiction
  | cons piece rest ih =>
      cases rest with
      | nil => simp
      | cons next rest =>
          rw [String.intercalate_cons_cons, linesOf_append, ih (List.cons_ne_nil next rest)]
          rfl

/-- A report is read block by block. -/
theorem linesOf_toText {blocks : List Block} (h : blocks.flatMap Block.toLines ≠ []) :
    linesOf (toText blocks) = blocks.flatMap Block.readLines := by
  unfold toText
  rw [linesOf_intercalate h, List.flatMap_assoc]
  rfl

theorem linesOf_of_oneLine {text : String} (h : ∀ c ∈ text.toList, lineBreak c = false) :
    linesOf text = [text.toList] :=
  List.splitOnP_eq_singleton h

theorem length_linesOf (text : String) :
    (linesOf text).length = text.toList.countP lineBreak + 1 := by
  unfold linesOf
  induction text.toList with
  | nil => rfl
  | cons c rest ih =>
      rw [List.splitOnP_cons_eq_if_modifyHead, List.countP_cons]
      split
      · rw [List.length_cons, ih]
      · rw [List.length_modifyHead, ih, Nat.add_zero]

end Lines

section Tables

variable {columns : List String} {rows : List (List String)}

theorem length_lines :
    (rows.flatMap fun row => linesOf (rowText row)).length =
      (rows.map fun row => (rowText row).toList.countP lineBreak).sum + rows.length := by
  induction rows with
  | nil => rfl
  | cons row rest ih =>
      rw [List.flatMap_cons, List.length_append, length_linesOf, ih, List.map_cons, List.sum_cons,
        List.length_cons]
      omega

/-- A table is read as it was made if its cells are flat, and only then. -/
theorem kept_iff (hcolumns : ∀ column ∈ columns, Flat column)
    (hrows : ∀ row ∈ rows, row.length = columns.length) :
    (Block.table columns rows).Kept ↔ ∀ row ∈ rows, ∀ cell ∈ row, Flat cell := by
  have hheader := (kept_row_iff rfl).mpr hcolumns
  have hdash : ∀ cell ∈ columns.map fun _ => "---", Flat cell := by
    rw [List.forall_mem_map]
    intro column _
    exact flat_literal rfl (by decide)
  have hdashes := (kept_row_iff rfl).mpr hdash
  have hlines : (Block.table columns rows).readLines =
      (rowText columns).toList :: (rowText (columns.map fun _ => "---")).toList ::
        rows.flatMap fun row => linesOf (rowText row) := by
    unfold Block.readLines Block.toLines
    rw [List.flatMap_cons, List.flatMap_cons, List.flatMap_map, linesOf_of_oneLine hheader.1,
      linesOf_of_oneLine hdashes.1]
    rfl
  unfold Block.Kept
  dsimp only
  rw [hlines]
  constructor
  · rintro ⟨hlength, hcells⟩ row hrow
    have hbreaks : ∀ row ∈ rows, (rowText row).toList.countP lineBreak = 0 := by
      rw [← List.forall_mem_map (P := fun n => n = 0), ← List.sum_eq_zero_iff_forall_eq_nat]
      rw [List.length_cons, List.length_cons, length_lines] at hlength
      omega
    have hflat : ∀ c ∈ (rowText row).toList, lineBreak c = false := by
      simpa using List.countP_eq_zero.mp (hbreaks row hrow)
    refine (kept_row_iff (hrows row hrow)).mp ⟨hflat, ?_⟩
    apply hcells
    refine List.mem_cons_of_mem _ (List.mem_cons_of_mem _ (List.mem_flatMap.mpr ⟨row, hrow, ?_⟩))
    rw [linesOf_of_oneLine hflat]
    exact List.mem_singleton.mpr rfl
  · intro hflat
    have hkept : ∀ row ∈ rows, linesOf (rowText row) = [(rowText row).toList] ∧
        cellsIn (rowText row).toList = columns.length := by
      intro row hrow
      have hrow := (kept_row_iff (hrows row hrow)).mpr (hflat row hrow)
      exact ⟨linesOf_of_oneLine hrow.1, hrow.2⟩
    have hbody : (rows.flatMap fun row => linesOf (rowText row)) =
        rows.map fun row => (rowText row).toList := by
      rw [List.map_eq_flatMap]
      exact List.flatMap_congr fun row hrow => (hkept row hrow).1
    rw [hbody, List.length_cons, List.length_cons, List.length_map]
    refine ⟨rfl, ?_⟩
    rw [List.forall_mem_cons, List.forall_mem_cons, List.forall_mem_map]
    refine ⟨hheader.2, ?_, fun row hrow => (hkept row hrow).2⟩
    rw [hdashes.2, List.length_map]

end Tables

end SeoPlatform.Foundation.TextTable
