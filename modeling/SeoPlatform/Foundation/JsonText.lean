import SeoPlatform.Foundation.ExceptFlow
import SeoPlatform.Foundation.JsonScanners
import SeoPlatform.Foundation.Mapping

namespace SeoPlatform.Foundation.JsonText

open SeoPlatform.Foundation.ExceptFlow
open SeoPlatform.Foundation.JsonScanners
open SeoPlatform.Foundation.Mapping

/-- A document over some format of fractional numbers. -/
inductive Doc (φ : Type) where
  | null
  | bool (b : Bool)
  | int (n : Int)
  | float (x : φ)
  | str (s : String)
  | arr (items : List (Doc φ))
  | obj (fields : List (String × Doc φ))

/-- How a format writes and reads its numbers: the ones that are no numbers by
a word, and the others so that they read back. -/
structure Floats (φ : Type) where
  repr : φ → List Char
  read : List Char → φ
  nan : φ
  infinity : φ
  negInfinity : φ
  reads : ∀ x, repr x = ['N', 'a', 'N'] ∧ x = nan ∨
    repr x = ['I', 'n', 'f', 'i', 'n', 'i', 't', 'y'] ∧ x = infinity ∨
    repr x = ['-', 'I', 'n', 'f', 'i', 'n', 'i', 't', 'y'] ∧ x = negInfinity ∨
    ∃ i f e, repr x = i ++ (f ++ e) ∧ FloatText i f e ∧ read (repr x) = x

/-- The numbers that are no numbers, and nothing else. -/
inductive Special where
  | nan
  | infinity
  | negInfinity
  deriving DecidableEq, Repr

def specials : Floats Special where
  repr
    | .nan => ['N', 'a', 'N']
    | .infinity => ['I', 'n', 'f', 'i', 'n', 'i', 't', 'y']
    | .negInfinity => ['-', 'I', 'n', 'f', 'i', 'n', 'i', 't', 'y']
  read _ := .nan
  nan := .nan
  infinity := .infinity
  negInfinity := .negInfinity
  reads x := by cases x <;> simp

/-- The digits of the longest whole number that is written or read. -/
def maxDigits : Nat := 4300

/-- Why a document is not written. -/
inductive DumpsError where
  | digits
  | recursion
  deriving DecidableEq, Repr

variable {φ : Type} (floats : Floats φ)

section Writing

def dumpInt (n : Int) : Except DumpsError (List Char) :=
  if maxDigits < (Nat.toDigits 10 n.natAbs).length then .error .digits else .ok (intText n)

mutual

/-- The text of a document, with `depth` levels left to go down. -/
def dumpDoc : Nat → Doc φ → Except DumpsError (List Char)
  | _, .null => .ok ['n', 'u', 'l', 'l']
  | _, .bool true => .ok ['t', 'r', 'u', 'e']
  | _, .bool false => .ok ['f', 'a', 'l', 's', 'e']
  | _, .int n => dumpInt n
  | _, .float x => .ok (floats.repr x)
  | _, .str s => .ok (quoted s.toList)
  | 0, .arr _ => .error .recursion
  | 0, .obj _ => .error .recursion
  | depth + 1, .arr items => do
      let inner ← dumpItems depth [] items
      .ok ('[' :: inner)
  | depth + 1, .obj fields => do
      let inner ← dumpFields depth [] fields
      .ok ('{' :: inner)

/-- The rest of a list, each item behind its separator. -/
def dumpItems : Nat → List Char → List (Doc φ) → Except DumpsError (List Char)
  | _, _, [] => .ok [']']
  | depth, separator, v :: items => do
      let first ← dumpDoc depth v
      let later ← dumpItems depth [',', ' '] items
      .ok (separator ++ (first ++ later))

def dumpFields : Nat → List Char → List (String × Doc φ) → Except DumpsError (List Char)
  | _, _, [] => .ok ['}']
  | depth, separator, (name, v) :: fields => do
      let first ← dumpDoc depth v
      let later ← dumpFields depth [',', ' '] fields
      .ok (separator ++ (quoted name.toList ++ ([':', ' '] ++ (first ++ later))))

end

end Writing

section Reading

def isSpace (c : Char) : Bool := c = ' ' || c = '\t' || c = '\n' || c = '\r'

def skipSpace (cs : List Char) : List Char := cs.dropWhile isSpace

def scanNumber (cs : List Char) : Except LoadsError (Doc φ × List Char) :=
  match scanInteger cs with
  | none => .error .decode
  | some (i, rest) =>
      let (f, rest) := scanFraction rest
      let (e, rest) := scanExponent rest
      if f = [] ∧ e = [] then
        if maxDigits < (i.filter Char.isDigit).length then .error .digits
        else .ok (.int (intOf i), rest)
      else .ok (.float (floats.read (i ++ (f ++ e))), rest)

/-- The words that stand for a value. -/
def words : List (List Char × Doc φ) :=
  [(['n', 'u', 'l', 'l'], .null),
    (['t', 'r', 'u', 'e'], .bool true),
    (['f', 'a', 'l', 's', 'e'], .bool false),
    (['N', 'a', 'N'], .float floats.nan),
    (['I', 'n', 'f', 'i', 'n', 'i', 't', 'y'], .float floats.infinity),
    (['-', 'I', 'n', 'f', 'i', 'n', 'i', 't', 'y'], .float floats.negInfinity)]

/-- A word or a number. -/
def scanPlain (cs : List Char) : Except LoadsError (Doc φ × List Char) :=
  match (words floats).find? fun word => word.1.isPrefixOf cs with
  | some word => .ok (word.2, cs.drop word.1.length)
  | none => scanNumber floats cs

mutual

/-- The value at the front of a text, with `depth` levels left to go down. -/
def scanValue : Nat → Nat → List Char → Except LoadsError (Doc φ × List Char)
  | 0, _, _ => .error .decode
  | _ + 1, _, [] => .error .decode
  | fuel + 1, depth, c :: cs =>
      if c = '"' then do
        let (s, rest) ← scanString (cs.length + 1) cs
        .ok (.str (String.ofList s), rest)
      else if c = '{' then
        match depth with
        | 0 => .error .recursion
        | depth + 1 =>
            match skipSpace cs with
            | '}' :: rest => .ok (.obj [], rest)
            | inner => do
                let (fields, rest) ← scanFields fuel depth inner
                .ok (.obj (Dictionary.ofPairs fields).entries, rest)
      else if c = '[' then
        match depth with
        | 0 => .error .recursion
        | depth + 1 =>
            match skipSpace cs with
            | ']' :: rest => .ok (.arr [], rest)
            | inner => do
                let (items, rest) ← scanItems fuel depth inner
                .ok (.arr items, rest)
      else scanPlain floats (c :: cs)

/-- The items of a list, from one of them to the closing bracket. -/
def scanItems : Nat → Nat → List Char → Except LoadsError (List (Doc φ) × List Char)
  | 0, _, _ => .error .decode
  | fuel + 1, depth, cs => do
      let (v, rest) ← scanValue fuel depth cs
      match skipSpace rest with
      | ']' :: rest => .ok ([v], rest)
      | ',' :: rest => do
          let (items, rest) ← scanItems fuel depth (skipSpace rest)
          .ok (v :: items, rest)
      | _ => .error .decode

def scanFields : Nat → Nat → List Char → Except LoadsError (List (String × Doc φ) × List Char)
  | 0, _, _ => .error .decode
  | fuel + 1, depth, '"' :: cs => do
      let (name, rest) ← scanString (cs.length + 1) cs
      match skipSpace rest with
      | ':' :: rest => do
          let (v, rest) ← scanValue fuel depth (skipSpace rest)
          match skipSpace rest with
          | '}' :: rest => .ok ([(String.ofList name, v)], rest)
          | ',' :: rest => do
              let (fields, rest) ← scanFields fuel depth (skipSpace rest)
              .ok ((String.ofList name, v) :: fields, rest)
          | _ => .error .decode
      | _ => .error .decode
  | _ + 1, _, _ => .error .decode

end

/-- The byte order mark, with which a text may not begin. -/
def byteOrderMark : Char := '\ufeff'

def loads (depth : Nat) (cs : List Char) : Except LoadsError (Doc φ) :=
  if cs.head? = some byteOrderMark then .error .decode
  else do
    let (v, rest) ← scanValue floats (2 * cs.length + 1) depth (skipSpace cs)
    if skipSpace rest = [] then .ok v else .error .decode

end Reading

/-- Each object has a name once. -/
inductive Distinct : Doc φ → Prop
  | null : Distinct .null
  | bool (b : Bool) : Distinct (.bool b)
  | int (n : Int) : Distinct (.int n)
  | float (x : φ) : Distinct (.float x)
  | str (s : String) : Distinct (.str s)
  | arr {items : List (Doc φ)} (h : ∀ v ∈ items, Distinct v) : Distinct (.arr items)
  | obj {fields : List (String × Doc φ)} (hnames : (fields.map Prod.fst).Nodup)
      (h : ∀ field ∈ fields, Distinct field.2) : Distinct (.obj fields)

section Plain

variable {floats}

theorem head_whole {ds : List Char} (h : WholeText ds) :
    ∃ c cs, ds = c :: cs ∧ c.isDigit = true := by
  rcases h with rfl | ⟨hne, hds, -⟩
  · exact ⟨_, _, rfl, rfl⟩
  · obtain ⟨c, cs, rfl⟩ := List.exists_cons_of_ne_nil hne
    exact ⟨c, cs, rfl, hds c List.mem_cons_self⟩

theorem ne_of_digit {c d : Char} (hc : c.isDigit = true) (hd : d.isDigit = false) : d ≠ c := by
  rintro rfl
  rw [hc] at hd
  contradiction

/-- No word begins as a number does. -/
theorem find_words_of_integer {i : List Char} (h : IntegerText i) (rest : List Char) :
    ((words floats).find? fun word => word.1.isPrefixOf (i ++ rest)) = none := by
  obtain ⟨ds, hds, hi⟩ := h
  obtain ⟨c, cs, rfl, hc⟩ := head_whole hds
  have hn := ne_of_digit hc (d := 'n') rfl
  have ht := ne_of_digit hc (d := 't') rfl
  have hf := ne_of_digit hc (d := 'f') rfl
  have hN := ne_of_digit hc (d := 'N') rfl
  have hI := ne_of_digit hc (d := 'I') rfl
  have hminus := ne_of_digit hc (d := '-') rfl
  rcases hi with rfl | rfl
  · simp [words, hn, ht, hf, hN, hI, hminus]
  · simp [words, hI]

variable (floats) in
theorem scanPlain_int {n : Int} {s rest : List Char} (h : dumpInt n = .ok s)
    (hrest : Stops rest) : scanPlain floats (s ++ rest) = .ok (.int n, rest) := by
  unfold dumpInt at h
  split at h
  · contradiction
  · rename_i hdigits
    cases h
    have hcount : ((intText n).filter Char.isDigit).length =
        (Nat.toDigits 10 n.natAbs).length := by
      have hall : (Nat.toDigits 10 n.natAbs).filter Char.isDigit = Nat.toDigits 10 n.natAbs :=
        List.filter_eq_self.mpr fun c hc => Nat.isDigit_of_mem_toDigits (by omega) (by omega) hc
      unfold intText
      split
      · rw [List.filter_cons_of_neg (by decide), hall]
      · rw [hall]
    have hinteger := scanInteger_append (integerText_intText n) fun c hc => (hrest c hc).1
    have hfraction := scanFraction_append (f := []) (.inl rfl) fun c (hc : c ∈ rest.head?) =>
      ⟨(hrest c hc).1, (hrest c hc).2.1⟩
    have hexponent := scanExponent_append (e := []) (.inl rfl) hrest
    rw [List.nil_append] at hfraction hexponent
    unfold scanPlain scanNumber
    rw [find_words_of_integer (integerText_intText n)]
    simp only [hinteger, hfraction, hexponent, hcount, hdigits, intOf_intText, and_self, if_true,
      if_false]

variable (floats) in
theorem scanPlain_parts {i f e rest : List Char} (h : FloatText i f e) (hrest : Stops rest) :
    scanPlain floats (i ++ (f ++ e) ++ rest) =
      .ok (.float (floats.read (i ++ (f ++ e))), rest) := by
  have hdigit : ∀ c ∈ (f ++ (e ++ rest)).head?, c.isDigit = false := by
    rcases h.fraction with rfl | ⟨ds, -, -, rfl⟩
    · rcases h.exponent with rfl | ⟨mark, sign, ds, hmark, -, -, -, rfl⟩
      · exact fun c hc => (hrest c hc).1
      · rintro c ⟨⟩
        rcases (Bool.or_eq_true _ _).mp hmark with hlower | hupper
        · rw [of_decide_eq_true hlower]
          rfl
        · rw [of_decide_eq_true hupper]
          rfl
    · rintro c ⟨⟩
      rfl
  have hpoint : ∀ c ∈ (e ++ rest).head?, c.isDigit = false ∧ c ≠ '.' := by
    rcases h.exponent with rfl | ⟨mark, sign, ds, hmark, -, -, -, rfl⟩
    · exact fun c hc => ⟨(hrest c hc).1, (hrest c hc).2.1⟩
    · rintro c ⟨⟩
      rcases (Bool.or_eq_true _ _).mp hmark with hlower | hupper
      · rw [of_decide_eq_true hlower]
        decide
      · rw [of_decide_eq_true hupper]
        decide
  have hparted : ¬ (f = [] ∧ e = []) := fun hnone =>
    h.parted.elim (fun hf => hf hnone.1) fun he => he hnone.2
  rw [List.append_assoc, List.append_assoc]
  unfold scanPlain scanNumber
  rw [find_words_of_integer h.integer]
  simp only [scanInteger_append h.integer hdigit, scanFraction_append h.fraction hpoint,
    scanExponent_append h.exponent hrest, if_neg hparted]

variable (floats) in
theorem scanPlain_float (x : φ) {rest : List Char} (hrest : Stops rest) :
    scanPlain floats (floats.repr x ++ rest) = .ok (.float x, rest) := by
  rcases floats.reads x with ⟨hrepr, rfl⟩ | ⟨hrepr, rfl⟩ | ⟨hrepr, rfl⟩ |
    ⟨i, f, e, hrepr, hparts, hread⟩
  · rw [hrepr]
    rfl
  · rw [hrepr]
    rfl
  · rw [hrepr]
    rfl
  · have hscan := scanPlain_parts floats hparts hrest
    rwa [← hrepr, hread] at hscan

end Plain

section RoundTrip

variable {floats}

/-- What a value may begin with: nothing that is passed over and no closing bracket. -/
def opens (c : Char) : Bool := !isSpace c && c ≠ ']' && c ≠ '}' && c ≠ byteOrderMark

theorem opens_of_digit {c : Char} (h : c.isDigit = true) : opens c = true := by
  have hspace := ne_of_digit h (d := ' ') rfl
  have htab := ne_of_digit h (d := '\t') rfl
  have hline := ne_of_digit h (d := '\n') rfl
  have hreturn := ne_of_digit h (d := '\r') rfl
  have hbracket := ne_of_digit h (d := ']') rfl
  have hbrace := ne_of_digit h (d := '}') rfl
  have hmark := ne_of_digit h (d := byteOrderMark) (by decide)
  simp [opens, isSpace, hspace.symm, htab.symm, hline.symm, hreturn.symm, hbracket.symm,
    hbrace.symm, hmark.symm]

theorem head_integer {i : List Char} (h : IntegerText i) :
    ∃ c cs, i = c :: cs ∧ opens c = true ∧ c ≠ '"' ∧ c ≠ '{' ∧ c ≠ '[' := by
  obtain ⟨ds, hds, hi⟩ := h
  obtain ⟨c, cs, rfl, hc⟩ := head_whole hds
  rcases hi with rfl | rfl
  · exact ⟨c, cs, rfl, opens_of_digit hc, (ne_of_digit hc rfl).symm, (ne_of_digit hc rfl).symm,
      (ne_of_digit hc rfl).symm⟩
  · exact ⟨'-', c :: cs, rfl, by decide, by decide, by decide, by decide⟩

variable (floats) in
theorem head_repr (x : φ) : ∃ c cs, floats.repr x = c :: cs ∧ opens c = true ∧ c ≠ '"' ∧
    c ≠ '{' ∧ c ≠ '[' := by
  rcases floats.reads x with ⟨hrepr, -⟩ | ⟨hrepr, -⟩ | ⟨hrepr, -⟩ | ⟨i, f, e, hrepr, hparts, -⟩
  · exact ⟨_, _, hrepr, by decide, by decide, by decide, by decide⟩
  · exact ⟨_, _, hrepr, by decide, by decide, by decide, by decide⟩
  · exact ⟨_, _, hrepr, by decide, by decide, by decide, by decide⟩
  · obtain ⟨c, cs, rfl, hc⟩ := head_integer hparts.integer
    exact ⟨c, _, hrepr, hc⟩

theorem skipSpace_of_opens {c : Char} {cs : List Char} (h : opens c = true) :
    skipSpace (c :: cs) = c :: cs := by
  have hspace : isSpace c = false := by
    unfold opens at h
    simp only [Bool.and_eq_true, Bool.not_eq_true'] at h
    exact h.1.1.1
  simp [skipSpace, hspace]

theorem scanValue_plain {c : Char} {cs : List Char} {fuel depth : Nat}
    (hquote : c ≠ '"') (hbrace : c ≠ '{') (hbracket : c ≠ '[') :
    scanValue floats (fuel + 1) depth (c :: cs) = scanPlain floats (c :: cs) := by
  rw [scanValue.eq_def]
  simp only [if_neg hquote, if_neg hbrace, if_neg hbracket]

theorem scanValue_array {c : Char} {cs rest : List Char} {fuel depth : Nat}
    {items : List (Doc φ)} (hc : opens c = true)
    (h : scanItems floats fuel depth (c :: cs) = .ok (items, rest)) :
    scanValue floats (fuel + 1) (depth + 1) ('[' :: c :: cs) = .ok (.arr items, rest) := by
  rw [scanValue.eq_def]
  simp only [skipSpace_of_opens hc, if_neg (show '[' ≠ '"' by decide),
    if_neg (show '[' ≠ '{' by decide), if_true]
  split
  · rename_i heq
    rw [(List.cons.inj heq).1] at hc
    contradiction
  · rw [h]
    rfl

theorem scanValue_object {c : Char} {cs rest : List Char} {fuel depth : Nat}
    {fields : List (String × Doc φ)} (hc : opens c = true)
    (h : scanFields floats fuel depth (c :: cs) = .ok (fields, rest)) :
    scanValue floats (fuel + 1) (depth + 1) ('{' :: c :: cs) =
      .ok (.obj (Dictionary.ofPairs fields).entries, rest) := by
  rw [scanValue.eq_def]
  simp only [skipSpace_of_opens hc, if_neg (show '{' ≠ '"' by decide), if_true]
  split
  · rename_i heq
    rw [(List.cons.inj heq).1] at hc
    contradiction
  · rw [h]
    rfl

theorem dumpInt_ok {n : Int} {s : List Char} (h : dumpInt n = .ok s) : s = intText n := by
  unfold dumpInt at h
  split at h
  · contradiction
  · exact (Except.ok.inj h).symm

theorem head_dumpDoc {depth : Nat} {v : Doc φ} {s : List Char}
    (h : dumpDoc floats depth v = .ok s) : ∃ c cs, s = c :: cs ∧ opens c = true := by
  cases v with
  | null =>
      cases h
      exact ⟨_, _, rfl, by decide⟩
  | bool b => cases b <;> cases h <;> exact ⟨_, _, rfl, by decide⟩
  | int n =>
      rw [dumpDoc] at h
      obtain ⟨c, cs, hi, hc, -⟩ := head_integer (integerText_intText n)
      exact ⟨c, cs, (dumpInt_ok h).trans hi, hc⟩
  | float x =>
      cases h
      obtain ⟨c, cs, hrepr, hc, -⟩ := head_repr floats x
      exact ⟨c, cs, hrepr, hc⟩
  | str s =>
      cases h
      exact ⟨_, _, rfl, by decide⟩
  | arr items =>
      cases depth with
      | zero => cases h
      | succ depth =>
          obtain ⟨inner, -, h⟩ := ok_of_bind h
          cases h
          exact ⟨_, _, rfl, by decide⟩
  | obj fields =>
      cases depth with
      | zero => cases h
      | succ depth =>
          obtain ⟨inner, -, h⟩ := ok_of_bind h
          cases h
          exact ⟨_, _, rfl, by decide⟩

theorem length_le_escaped (s : List Char) : s.length ≤ (s.flatMap escaped).length := by
  induction s with
  | nil => exact Nat.zero_le _
  | cons c s ih =>
      obtain ⟨d, cs, hescaped, -⟩ := head_escaped c
      rw [List.flatMap_cons, hescaped, List.length_append, List.length_cons, List.length_cons]
      omega

theorem scanString_quoted (s rest : List Char) :
    scanString ((s.flatMap escaped ++ '"' :: rest).length + 1) (s.flatMap escaped ++ '"' :: rest) =
      .ok (s, rest) := by
  apply scanString_escaped
  have hlength := length_le_escaped s
  rw [List.length_append]
  omega

theorem stops_cons {c : Char} (cs : List Char) (h : c ∈ [']', '}', ',']) : Stops (c :: cs) := by
  rintro d ⟨⟩
  simp only [List.mem_cons, List.not_mem_nil, or_false] at h
  rcases h with rfl | rfl | rfl <;> decide

variable (floats) in
/-- A document written with so many levels left reads back, with what follows left over. -/
def ReadsBack (depth : Nat) (v : Doc φ) : Prop :=
  ∀ {fuel : Nat} {s rest : List Char}, dumpDoc floats depth v = .ok s → Stops rest →
    2 * s.length < fuel → scanValue floats fuel depth (s ++ rest) = .ok (v, rest)

theorem readsBack_scalar {depth : Nat} {v : Doc φ}
    (h : ∀ {fuel : Nat} {s rest : List Char}, dumpDoc floats depth v = .ok s → Stops rest →
      scanValue floats (fuel + 1) depth (s ++ rest) = .ok (v, rest)) :
    ReadsBack floats depth v := by
  intro fuel s rest hdump hrest hfuel
  obtain ⟨fuel, rfl⟩ := Nat.exists_eq_add_one.mpr (Nat.zero_lt_of_lt hfuel)
  exact h hdump hrest

theorem readsBack_int (depth : Nat) (n : Int) : ReadsBack floats depth (.int n) := by
  apply readsBack_scalar
  intro fuel s rest h hrest
  rw [dumpDoc] at h
  obtain ⟨c, cs, hi, -, hquote, hbrace, hbracket⟩ := head_integer (integerText_intText n)
  have hscan := scanPlain_int floats h hrest
  rw [dumpInt_ok h, hi, List.cons_append] at hscan ⊢
  rw [scanValue_plain hquote hbrace hbracket, hscan]

theorem readsBack_float (depth : Nat) (x : φ) : ReadsBack floats depth (.float x) := by
  apply readsBack_scalar
  intro fuel s rest h hrest
  cases h
  obtain ⟨c, cs, hrepr, -, hquote, hbrace, hbracket⟩ := head_repr floats x
  have hscan := scanPlain_float floats x hrest
  rw [hrepr, List.cons_append] at hscan ⊢
  rw [scanValue_plain hquote hbrace hbracket, hscan]

theorem readsBack_str (depth : Nat) (s : String) : ReadsBack floats depth (.str s) := by
  apply readsBack_scalar
  intro fuel text rest h hrest
  cases h
  unfold quoted
  rw [List.cons_append, List.append_assoc, List.singleton_append, scanValue.eq_def]
  simp only [if_true, scanString_quoted, bind, Except.bind, String.ofList_toList]

theorem scanItems_dumpItems {depth : Nat} (v : Doc φ) (items : List (Doc φ))
    (hv : ∀ w ∈ v :: items, ReadsBack floats depth w) {fuel : Nat} {first later : List Char}
    (hfirst : dumpDoc floats depth v = .ok first)
    (hlater : dumpItems floats depth [',', ' '] items = .ok later) (rest : List Char)
    (hfuel : 2 * (first.length + later.length) < fuel + 1) :
    scanItems floats fuel depth (first ++ (later ++ rest)) = .ok (v :: items, rest) := by
  induction items generalizing v fuel first later with
  | nil =>
      cases hlater
      simp only [List.length_singleton] at hfuel
      obtain ⟨fuel, rfl⟩ := Nat.exists_eq_add_one.mpr (show 0 < fuel by omega)
      have hvalue := hv v List.mem_cons_self hfirst (stops_cons (c := ']') rest (by decide))
        (show 2 * first.length < fuel by omega)
      simp only [scanItems, List.cons_append, List.nil_append, hvalue, bind, Except.bind]
      rfl
  | cons w items ih =>
      obtain ⟨second, hsecond, hlater⟩ := ok_of_bind hlater
      obtain ⟨last, hlast, hlater⟩ := ok_of_bind hlater
      cases hlater
      simp only [List.length_append, List.length_cons, List.length_nil] at hfuel
      obtain ⟨fuel, rfl⟩ := Nat.exists_eq_add_one.mpr (show 0 < fuel by omega)
      have hvalue := hv v List.mem_cons_self hfirst
        (stops_cons (c := ',') (' ' :: (second ++ (last ++ rest))) (by decide))
        (show 2 * first.length < fuel by omega)
      have hrest := ih w (fun u hu => hv u (List.mem_cons_of_mem _ hu)) hsecond hlast
        (show 2 * (second.length + last.length) < fuel + 1 by omega)
      have hskip : skipSpace (' ' :: (second ++ (last ++ rest))) = second ++ (last ++ rest) := by
        obtain ⟨d, ds, rfl, hd⟩ := head_dumpDoc hsecond
        exact skipSpace_of_opens hd
      simp only [scanItems, List.cons_append, List.nil_append, List.append_assoc, hvalue, bind,
        Except.bind, skipSpace_of_opens (show opens ',' = true by decide), hskip, hrest]

theorem scanFields_dumpFields {depth : Nat} (name : String) (v : Doc φ)
    (fields : List (String × Doc φ))
    (hv : ∀ field ∈ (name, v) :: fields, ReadsBack floats depth field.2) {fuel : Nat}
    {first later : List Char} (hfirst : dumpDoc floats depth v = .ok first)
    (hlater : dumpFields floats depth [',', ' '] fields = .ok later) (rest : List Char)
    (hfuel : 2 * (first.length + later.length) < fuel + 1) :
    scanFields floats fuel depth
      ('"' :: (name.toList.flatMap escaped ++ '"' :: ':' :: ' ' :: (first ++ (later ++ rest)))) =
        .ok ((name, v) :: fields, rest) := by
  have hname := scanString_quoted name.toList (':' :: ' ' :: (first ++ (later ++ rest)))
  have hskip : skipSpace (' ' :: (first ++ (later ++ rest))) = first ++ (later ++ rest) := by
    obtain ⟨c, cs, rfl, hc⟩ := head_dumpDoc hfirst
    exact skipSpace_of_opens hc
  have hcolon : skipSpace (':' :: ' ' :: (first ++ (later ++ rest))) =
      ':' :: ' ' :: (first ++ (later ++ rest)) := skipSpace_of_opens (by decide)
  induction fields generalizing name v fuel first later with
  | nil =>
      cases hlater
      simp only [List.length_singleton] at hfuel
      obtain ⟨fuel, rfl⟩ := Nat.exists_eq_add_one.mpr (show 0 < fuel by omega)
      have hvalue := hv (name, v) List.mem_cons_self hfirst (stops_cons (c := '}') rest (by decide))
        (show 2 * first.length < fuel by omega)
      simp only [List.cons_append, List.nil_append] at hname hcolon hskip ⊢
      simp only [scanFields, hname, hcolon, hskip, hvalue, bind, Except.bind,
        String.ofList_toList]
      rfl
  | cons field fields ih =>
      obtain ⟨next, w⟩ := field
      obtain ⟨second, hsecond, hlater⟩ := ok_of_bind hlater
      obtain ⟨last, hlast, hlater⟩ := ok_of_bind hlater
      cases hlater
      simp only [List.length_append, List.length_cons, List.length_nil] at hfuel
      obtain ⟨fuel, rfl⟩ := Nat.exists_eq_add_one.mpr (show 0 < fuel by omega)
      have hvalue := hv (name, v) List.mem_cons_self hfirst (stops_cons (c := ',')
          (' ' :: (quoted next.toList ++ (':' :: ' ' :: (second ++ (last ++ rest))))) (by decide))
        (show 2 * first.length < fuel by omega)
      have hskip' : skipSpace (' ' :: (second ++ (last ++ rest))) = second ++ (last ++ rest) := by
        obtain ⟨c, cs, rfl, hc⟩ := head_dumpDoc hsecond
        exact skipSpace_of_opens hc
      have hrest := ih next w (fun u hu => hv u (List.mem_cons_of_mem _ hu)) hsecond hlast
        (show 2 * (second.length + last.length) < fuel + 1 by omega)
        (scanString_quoted next.toList _) hskip' (skipSpace_of_opens (by decide))
      have hspace (inner : List Char) : skipSpace (' ' :: '"' :: inner) = '"' :: inner :=
        skipSpace_of_opens (c := '"') (by decide)
      simp only [quoted, List.cons_append, List.nil_append, List.append_assoc]
        at hname hcolon hskip hvalue ⊢
      simp only [scanFields, hname, hcolon, hskip, hvalue, bind, Except.bind,
        String.ofList_toList, skipSpace_of_opens (show opens ',' = true by decide), hspace, hrest]

theorem readsBack_arr {depth : Nat} {items : List (Doc φ)}
    (h : ∀ v ∈ items, ReadsBack floats depth v) : ReadsBack floats (depth + 1) (.arr items) := by
  intro fuel s rest hdump hrest hfuel
  obtain ⟨inner, hinner, hdump⟩ := ok_of_bind hdump
  cases hdump
  rw [List.length_cons] at hfuel
  obtain ⟨fuel, rfl⟩ := Nat.exists_eq_add_one.mpr (Nat.zero_lt_of_lt hfuel)
  cases items with
  | nil =>
      cases hinner
      rfl
  | cons v items =>
      obtain ⟨first, hfirst, hinner⟩ := ok_of_bind hinner
      obtain ⟨later, hlater, hinner⟩ := ok_of_bind hinner
      cases hinner
      simp only [List.length_append, List.nil_append] at hfuel
      have hscan := scanItems_dumpItems v items h hfirst hlater rest
        (show 2 * (first.length + later.length) < fuel + 1 by omega)
      obtain ⟨c, cs, rfl, hc⟩ := head_dumpDoc hfirst
      rw [List.nil_append, List.cons_append, List.append_assoc]
      exact scanValue_array hc hscan

theorem readsBack_obj {depth : Nat} {fields : List (String × Doc φ)}
    (hnames : (fields.map Prod.fst).Nodup)
    (h : ∀ field ∈ fields, ReadsBack floats depth field.2) :
    ReadsBack floats (depth + 1) (.obj fields) := by
  intro fuel s rest hdump hrest hfuel
  obtain ⟨inner, hinner, hdump⟩ := ok_of_bind hdump
  cases hdump
  rw [List.length_cons] at hfuel
  obtain ⟨fuel, rfl⟩ := Nat.exists_eq_add_one.mpr (Nat.zero_lt_of_lt hfuel)
  cases fields with
  | nil =>
      cases hinner
      rfl
  | cons field fields =>
      obtain ⟨name, v⟩ := field
      obtain ⟨first, hfirst, hinner⟩ := ok_of_bind hinner
      obtain ⟨later, hlater, hinner⟩ := ok_of_bind hinner
      cases hinner
      simp only [List.length_append, List.nil_append] at hfuel
      have hscan := scanFields_dumpFields name v fields h hfirst hlater rest
        (show 2 * (first.length + later.length) < fuel + 1 by omega)
      have hobject := scanValue_object (c := '"') (by decide) hscan
      rw [Dictionary.entries_ofPairs hnames] at hobject
      simp only [quoted, List.cons_append, List.nil_append, List.append_assoc]
      exact hobject

theorem readsBack {v : Doc φ} (hv : Distinct v) (depth : Nat) : ReadsBack floats depth v := by
  induction hv generalizing depth with
  | null =>
      apply readsBack_scalar
      intro fuel s rest h hrest
      cases h
      exact scanValue_plain (by decide) (by decide) (by decide)
  | bool b =>
      apply readsBack_scalar
      intro fuel s rest h hrest
      cases b <;> cases h <;> exact scanValue_plain (by decide) (by decide) (by decide)
  | int n => exact readsBack_int depth n
  | float x => exact readsBack_float depth x
  | str s => exact readsBack_str depth s
  | arr _ ih =>
      cases depth with
      | zero => rintro fuel s rest ⟨⟩
      | succ depth => exact readsBack_arr fun v hv => ih v hv depth
  | obj hnames _ ih =>
      cases depth with
      | zero => rintro fuel s rest ⟨⟩
      | succ depth => exact readsBack_obj hnames fun field hfield => ih field hfield depth

/-- What was written is read. -/
theorem loads_dumpDoc {v : Doc φ} (hv : Distinct v) {depth : Nat} {s : List Char}
    (h : dumpDoc floats depth v = .ok s) : loads floats depth s = .ok v := by
  obtain ⟨c, cs, hs, hc⟩ := head_dumpDoc h
  have hmark : s.head? ≠ some byteOrderMark := by
    rw [hs]
    rintro ⟨⟩
    contradiction
  have hscan := readsBack hv depth h (show Stops [] by rintro c ⟨⟩) (Nat.lt_succ_self _)
  rw [List.append_nil] at hscan
  have hskip : skipSpace s = s := by
    rw [hs]
    exact skipSpace_of_opens hc
  unfold loads
  rw [if_neg hmark, hskip, hscan]
  rfl

end RoundTrip

section Fuel

variable {floats}

theorem length_skipSpace (cs : List Char) : (skipSpace cs).length ≤ cs.length :=
  (List.dropWhile_suffix _).length_le

/-- What stands behind what is passed over is shorter than the text. -/
theorem length_of_skipSpace {cs rest : List Char} {c : Char} (h : skipSpace cs = c :: rest) :
    rest.length < cs.length := by
  have hlength := length_skipSpace cs
  rw [h, List.length_cons] at hlength
  omega

theorem length_scanNumber {cs rest : List Char} {v : Doc φ}
    (h : scanNumber floats cs = .ok (v, rest)) : rest.length < cs.length := by
  unfold scanNumber at h
  split at h
  · contradiction
  · rename_i i after hinteger
    have hfirst := length_scanInteger hinteger
    have hsecond := length_scanFraction after
    have hthird := length_scanExponent (scanFraction after).2
    rcases hfraction : scanFraction after with ⟨f, middle⟩
    rcases hexponent : scanExponent middle with ⟨e, last⟩
    rw [hfraction] at hsecond hthird
    rw [hexponent] at hthird
    simp only [hfraction, hexponent] at h hsecond hthird
    split at h
    · split at h
      · contradiction
      · cases h
        omega
    · cases h
      omega

theorem length_scanPlain {cs rest : List Char} {v : Doc φ}
    (h : scanPlain floats cs = .ok (v, rest)) : rest.length < cs.length := by
  unfold scanPlain at h
  split at h
  · rename_i word hfound
    have hbegins := List.find?_some hfound
    have hprefix := (List.isPrefixOf_iff_prefix.mp hbegins).length_le
    have hne : 0 < word.1.length := by
      have hword := List.mem_of_find?_eq_some hfound
      simp only [words, List.mem_cons, List.not_mem_nil, or_false] at hword
      rcases hword with rfl | rfl | rfl | rfl | rfl | rfl <;> exact Nat.succ_pos _
    cases h
    rw [List.length_drop]
    omega
  · exact length_scanNumber h

/-- Each scanner reads at least one character. -/
theorem length_scan (fuel : Nat) :
    (∀ {depth cs v rest}, scanValue floats fuel depth cs = .ok (v, rest) →
      rest.length < cs.length) ∧
    (∀ {depth cs items rest}, scanItems floats fuel depth cs = .ok (items, rest) →
      rest.length < cs.length) ∧
    (∀ {depth cs fields rest}, scanFields floats fuel depth cs = .ok (fields, rest) →
      rest.length < cs.length) := by
  induction fuel with
  | zero => exact ⟨by rintro _ _ _ _ ⟨⟩, by rintro _ _ _ _ ⟨⟩, by rintro _ _ _ _ ⟨⟩⟩
  | succ fuel ih =>
      obtain ⟨hvalue, hitems, hfields⟩ := ih
      refine ⟨?_, ?_, ?_⟩
      · intro depth cs v rest h
        cases cs with
        | nil => cases h
        | cons c cs =>
            rw [scanValue.eq_def] at h
            simp only at h
            split at h
            · obtain ⟨read, hread, h⟩ := ok_of_bind h
              cases h
              exact Nat.lt_succ_of_lt (length_scanString hread)
            · split at h
              · split at h
                · contradiction
                · split at h
                  · rename_i heq
                    cases h
                    exact Nat.lt_succ_of_lt (length_of_skipSpace heq)
                  · obtain ⟨read, hread, h⟩ := ok_of_bind h
                    cases h
                    exact Nat.lt_succ_of_lt
                      ((hfields hread).trans_le (length_skipSpace cs))
              · split at h
                · split at h
                  · contradiction
                  · split at h
                    · rename_i heq
                      cases h
                      exact Nat.lt_succ_of_lt (length_of_skipSpace heq)
                    · obtain ⟨read, hread, h⟩ := ok_of_bind h
                      cases h
                      exact Nat.lt_succ_of_lt
                        ((hitems hread).trans_le (length_skipSpace cs))
                · exact length_scanPlain h
      · intro depth cs items rest h
        rw [scanItems] at h
        obtain ⟨⟨v, after⟩, hread, h⟩ := ok_of_bind h
        have hfirst := hvalue hread
        simp only at h
        split at h
        · rename_i heq
          cases h
          exact (length_of_skipSpace heq).trans hfirst
        · rename_i heq
          obtain ⟨read, hlater, h⟩ := ok_of_bind h
          cases h
          have hsecond := length_of_skipSpace heq
          have hthird := (hitems hlater).trans_le (length_skipSpace _)
          omega
        · contradiction
      · intro depth cs fields rest h
        by_cases hquote : ∃ inner, cs = '"' :: inner
        · obtain ⟨inner, rfl⟩ := hquote
          rw [scanFields] at h
          obtain ⟨⟨name, after⟩, hread, h⟩ := ok_of_bind h
          have hname := length_scanString hread
          simp only at h
          rw [List.length_cons]
          split at h
          · rename_i hcolon
            have hcolon := length_of_skipSpace hcolon
            obtain ⟨⟨v, behind⟩, hread, h⟩ := ok_of_bind h
            have hfirst := (hvalue hread).trans_le (length_skipSpace _)
            simp only at h
            split at h
            · rename_i heq
              cases h
              have hsecond := length_of_skipSpace heq
              omega
            · rename_i heq
              obtain ⟨read, hlater, h⟩ := ok_of_bind h
              cases h
              have hsecond := length_of_skipSpace heq
              have hthird := (hfields hlater).trans_le (length_skipSpace _)
              omega
            · contradiction
          · contradiction
        · rw [scanFields] at h
          · contradiction
          · exact fun inner heq => hquote ⟨inner, heq⟩

/-- Fuel beyond what the length of a text asks for changes nothing. -/
theorem scan_enough (fuel : Nat) : ∀ {fuel' depth : Nat} {cs : List Char},
    (2 * cs.length < fuel → 2 * cs.length < fuel' →
      scanValue floats fuel depth cs = scanValue floats fuel' depth cs) ∧
    (2 * cs.length + 1 < fuel → 2 * cs.length + 1 < fuel' →
      scanItems floats fuel depth cs = scanItems floats fuel' depth cs) ∧
    (2 * cs.length + 1 < fuel → 2 * cs.length + 1 < fuel' →
      scanFields floats fuel depth cs = scanFields floats fuel' depth cs) := by
  induction fuel with
  | zero =>
      intro fuel' depth cs
      refine ⟨?_, ?_, ?_⟩ <;> exact fun h => absurd h (Nat.not_lt_zero _)
  | succ fuel ih =>
      intro fuel' depth cs
      refine ⟨fun h h' => ?_, fun h h' => ?_, fun h h' => ?_⟩
      · obtain ⟨fuel', rfl⟩ := Nat.exists_eq_add_one.mpr (Nat.zero_lt_of_lt h')
        cases cs with
        | nil => rfl
        | cons c cs =>
            have hlength := length_skipSpace cs
            rw [List.length_cons] at h h'
            rw [scanValue.eq_def, scanValue.eq_def]
            simp only
            congr 1
            congr 1
            · cases depth with
              | zero => rfl
              | succ depth =>
                  generalize skipSpace cs = inner at hlength ⊢
                  simp only
                  split
                  · rfl
                  · rw [ih.2.2 (by omega) (show _ < fuel' by omega)]
            · congr 1
              cases depth with
              | zero => rfl
              | succ depth =>
                  generalize skipSpace cs = inner at hlength ⊢
                  simp only
                  split
                  · rfl
                  · rw [ih.2.1 (by omega) (show _ < fuel' by omega)]
      · obtain ⟨fuel', rfl⟩ := Nat.exists_eq_add_one.mpr (Nat.zero_lt_of_lt h')
        rw [scanItems, scanItems, ih.1 (by omega) (show 2 * cs.length < fuel' by omega)]
        cases hread : scanValue floats fuel' depth cs with
        | error e => rfl
        | ok read =>
            obtain ⟨v, after⟩ := read
            have hafter := (length_scan fuel').1 hread
            simp only [bind, Except.bind]
            split
            · rfl
            · rename_i rest heq
              have hcomma := length_of_skipSpace heq
              have hrest := length_skipSpace rest
              rw [ih.2.1 (by omega) (show 2 * (skipSpace rest).length + 1 < fuel' by omega)]
            · rfl
      · obtain ⟨fuel', rfl⟩ := Nat.exists_eq_add_one.mpr (Nat.zero_lt_of_lt h')
        by_cases hquote : ∃ inner, cs = '"' :: inner
        · obtain ⟨inner, rfl⟩ := hquote
          rw [List.length_cons] at h h'
          rw [scanFields, scanFields]
          cases hname : scanString (inner.length + 1) inner with
          | error e => rfl
          | ok read =>
              obtain ⟨name, after⟩ := read
              have hafter := length_scanString hname
              simp only [bind, Except.bind]
              split
              · rename_i behind hcolon
                have hcolon := length_of_skipSpace hcolon
                have hbehind := length_skipSpace behind
                rw [ih.1 (by omega) (show 2 * (skipSpace behind).length < fuel' by omega)]
                cases hread : scanValue floats fuel' depth (skipSpace behind) with
                | error e => rfl
                | ok read =>
                    obtain ⟨v, last⟩ := read
                    have hlast := (length_scan fuel').1 hread
                    simp only
                    split
                    · rfl
                    · rename_i rest heq
                      have hcomma := length_of_skipSpace heq
                      have hrest := length_skipSpace rest
                      rw [ih.2.2 (by omega) (show 2 * (skipSpace rest).length + 1 < fuel' by omega)]
                    · rfl
              · rfl
        · rw [scanFields, scanFields]
          · exact fun inner heq => hquote ⟨inner, heq⟩
          · exact fun inner heq => hquote ⟨inner, heq⟩

/-- A text reads the same with any fuel beyond what its length asks for. -/
theorem loads_fuel (depth : Nat) {cs : List Char} {fuel : Nat} (h : 2 * cs.length < fuel) :
    loads floats depth cs =
      if cs.head? = some byteOrderMark then .error .decode
      else (do
        let (v, rest) ← scanValue floats fuel depth (skipSpace cs)
        if skipSpace rest = [] then .ok v else .error .decode) := by
  have hlength := length_skipSpace cs
  unfold loads
  rw [(scan_enough (2 * cs.length + 1)).1 (by omega)
    (show 2 * (skipSpace cs).length < fuel by omega)]

end Fuel

end SeoPlatform.Foundation.JsonText
