import Mathlib.Data.List.TakeDrop
import Mathlib.Tactic.IntervalCases
import SeoPlatform.Foundation.ExceptFlow

namespace SeoPlatform.Foundation.JsonScanners

open SeoPlatform.Foundation.ExceptFlow

/-- Why a text is not read. -/
inductive LoadsError where
  /-- It is no document. -/
  | decode
  /-- It holds a whole number of more digits than the language takes. -/
  | digits
  /-- It is nested deeper than the language goes. -/
  | recursion
  /-- It escapes half of a pair of surrogates, which is no character. -/
  | surrogate
  deriving DecidableEq, Repr

section Numbers

def leadingDigits (cs : List Char) : List Char := cs.takeWhile Char.isDigit

def afterDigits (cs : List Char) : List Char := cs.dropWhile Char.isDigit

/-- `0|[1-9][0-9]*`. -/
def scanWhole : List Char → Option (List Char × List Char)
  | '0' :: cs => some (['0'], cs)
  | cs => if leadingDigits cs = [] then none else some (leadingDigits cs, afterDigits cs)

def scanInteger : List Char → Option (List Char × List Char)
  | '-' :: cs => (scanWhole cs).map fun r => ('-' :: r.1, r.2)
  | cs => scanWhole cs

def scanFraction : List Char → List Char × List Char
  | '.' :: cs =>
      if leadingDigits cs = [] then ([], '.' :: cs) else ('.' :: leadingDigits cs, afterDigits cs)
  | cs => ([], cs)

def scanSign : List Char → List Char × List Char
  | '+' :: cs => (['+'], cs)
  | '-' :: cs => (['-'], cs)
  | cs => ([], cs)

def isMark (c : Char) : Bool := c = 'e' || c = 'E'

def scanExponent : List Char → List Char × List Char
  | [] => ([], [])
  | c :: cs =>
      if isMark c && leadingDigits (scanSign cs).2 ≠ [] then
        (c :: ((scanSign cs).1 ++ leadingDigits (scanSign cs).2), afterDigits (scanSign cs).2)
      else ([], c :: cs)

/-- `int` of a text of digits, with or without a sign. -/
def intOf : List Char → Int
  | '-' :: ds => -(Nat.ofDigitChars 10 ds 0 : Int)
  | ds => Nat.ofDigitChars 10 ds 0

/-- `int.__repr__`. -/
def intText (n : Int) : List Char :=
  if n < 0 then '-' :: Nat.toDigits 10 n.natAbs else Nat.toDigits 10 n.natAbs

def WholeText (ds : List Char) : Prop :=
  ds = ['0'] ∨ ds ≠ [] ∧ (∀ c ∈ ds, c.isDigit = true) ∧ ds.head? ≠ some '0'

def IntegerText (i : List Char) : Prop :=
  ∃ ds, WholeText ds ∧ (i = ds ∨ i = '-' :: ds)

def FractionText (f : List Char) : Prop :=
  f = [] ∨ ∃ ds, ds ≠ [] ∧ (∀ c ∈ ds, c.isDigit = true) ∧ f = '.' :: ds

def ExponentText (e : List Char) : Prop :=
  e = [] ∨ ∃ mark sign ds, isMark mark = true ∧ sign ∈ [[], ['+'], ['-']] ∧ ds ≠ [] ∧
    (∀ c ∈ ds, c.isDigit = true) ∧ e = mark :: (sign ++ ds)

/-- A number with a fraction, an exponent or both. -/
structure FloatText (i f e : List Char) : Prop where
  integer : IntegerText i
  fraction : FractionText f
  exponent : ExponentText e
  parted : f ≠ [] ∨ e ≠ []

/-- No character that could go on with a number. -/
def Stops (rest : List Char) : Prop :=
  ∀ c ∈ rest.head?, c.isDigit = false ∧ c ≠ '.' ∧ isMark c = false

variable {ds rest : List Char}

theorem leadingDigits_append (hds : ∀ c ∈ ds, c.isDigit = true)
    (hrest : ∀ c ∈ rest.head?, c.isDigit = false) :
    leadingDigits (ds ++ rest) = ds ∧ afterDigits (ds ++ rest) = rest := by
  unfold leadingDigits afterDigits
  rw [List.takeWhile_append_of_pos hds, List.dropWhile_append_of_pos hds]
  cases rest with
  | nil => simp
  | cons c rest => simp [hrest c rfl]

theorem scanWhole_append (h : WholeText ds) (hrest : ∀ c ∈ rest.head?, c.isDigit = false) :
    scanWhole (ds ++ rest) = some (ds, rest) := by
  rcases h with rfl | ⟨hne, hds, hhead⟩
  · rfl
  · obtain ⟨c, cs, rfl⟩ := List.exists_cons_of_ne_nil hne
    have hzero : c ≠ '0' := by simpa using hhead
    obtain ⟨hleading, hafter⟩ := leadingDigits_append hds hrest
    rw [List.cons_append] at hleading hafter ⊢
    unfold scanWhole
    split
    · rename_i heq
      exact absurd (List.cons.inj heq).1 hzero
    · rw [hleading, hafter, if_neg (List.cons_ne_nil c cs)]

theorem not_minus_of_whole (h : WholeText ds) : ds.head? ≠ some '-' := by
  rcases h with rfl | ⟨-, hds, -⟩
  · simp
  · intro hhead
    have hdigit := hds _ (List.mem_of_head? hhead)
    contradiction

theorem scanInteger_append {i : List Char} (h : IntegerText i)
    (hrest : ∀ c ∈ rest.head?, c.isDigit = false) : scanInteger (i ++ rest) = some (i, rest) := by
  obtain ⟨ds, hds, rfl | rfl⟩ := h
  · have hscan := scanWhole_append hds hrest
    unfold scanInteger
    split
    · rename_i cs heq
      have hne : i ≠ [] := by rcases hds with rfl | ⟨hne, -⟩ <;> simp [*]
      obtain ⟨c, cs', rfl⟩ := List.exists_cons_of_ne_nil hne
      rw [List.cons_append] at heq
      exact absurd (congrArg some (List.cons.inj heq).1) (not_minus_of_whole hds)
    · exact hscan
  · simp [scanInteger, scanWhole_append hds hrest]

theorem scanFraction_append {f : List Char} (h : FractionText f)
    (hrest : ∀ c ∈ rest.head?, c.isDigit = false ∧ c ≠ '.') :
    scanFraction (f ++ rest) = (f, rest) := by
  have hdigit : ∀ c ∈ rest.head?, c.isDigit = false := fun c hc => (hrest c hc).1
  rcases h with rfl | ⟨ds, hne, hds, rfl⟩
  · rw [List.nil_append]
    unfold scanFraction
    split
    · exact absurd rfl (hrest '.' rfl).2
    · rfl
  · obtain ⟨hleading, hafter⟩ := leadingDigits_append hds hdigit
    rw [List.cons_append, scanFraction, hleading, hafter, if_neg hne]

theorem scanSign_append {sign : List Char} (h : sign ∈ [[], ['+'], ['-']])
    (hne : ds ≠ []) (hds : ∀ c ∈ ds, c.isDigit = true) :
    scanSign (sign ++ (ds ++ rest)) = (sign, ds ++ rest) := by
  obtain ⟨c, cs, rfl⟩ := List.exists_cons_of_ne_nil hne
  have hc := hds c List.mem_cons_self
  simp only [List.mem_cons, List.not_mem_nil, or_false] at h
  rcases h with rfl | rfl | rfl
  · rw [List.nil_append, List.cons_append]
    unfold scanSign
    split
    · rename_i heq
      rw [(List.cons.inj heq).1] at hc
      contradiction
    · rename_i heq
      rw [(List.cons.inj heq).1] at hc
      contradiction
    · rfl
  · rfl
  · rfl

theorem scanExponent_append {e : List Char} (h : ExponentText e) (hrest : Stops rest) :
    scanExponent (e ++ rest) = (e, rest) := by
  rcases h with rfl | ⟨mark, sign, ds, hmark, hsign, hne, hds, rfl⟩
  · cases rest with
    | nil => rfl
    | cons c rest => simp [scanExponent, (hrest c rfl).2.2]
  · obtain ⟨hleading, hafter⟩ := leadingDigits_append hds fun c hc => (hrest c hc).1
    rw [List.cons_append, List.append_assoc, scanExponent, scanSign_append hsign hne hds]
    simp [hmark, hleading, hafter, hne]

theorem wholeText_toDigits (n : Nat) : WholeText (Nat.toDigits 10 n) := by
  induction n using Nat.strong_induction_on with
  | _ n ih =>
      have hdigits : ∀ c ∈ Nat.toDigits 10 n, c.isDigit = true := fun c hc =>
        Nat.isDigit_of_mem_toDigits (by omega) (by omega) hc
      by_cases hsmall : n < 10
      · rw [Nat.toDigits_of_lt_base hsmall] at hdigits ⊢
        rcases Nat.eq_zero_or_pos n with rfl | hpos
        · exact .inl rfl
        · refine .inr ⟨by simp, hdigits, ?_⟩
          interval_cases n <;> decide
      · refine .inr ⟨Nat.toDigits_ne_nil, hdigits, ?_⟩
        rw [Nat.toDigits_of_base_le (by omega) (by omega)]
        have hlower : 0 < n / 10 := by omega
        rcases ih (n / 10) (by omega) with hzero | ⟨hne, -, hhead⟩
        · have hback := congrArg (fun ds => Nat.ofDigitChars 10 ds 0) hzero
          simp only [Nat.ofDigitChars_ten_toDigits] at hback
          rw [hback] at hlower
          exact absurd hlower (by decide)
        · rw [List.head?_append]
          obtain ⟨c, cs, hcs⟩ := List.exists_cons_of_ne_nil hne
          rw [hcs] at hhead ⊢
          exact hhead

theorem integerText_intText (n : Int) : IntegerText (intText n) := by
  refine ⟨Nat.toDigits 10 n.natAbs, wholeText_toDigits _, ?_⟩
  unfold intText
  split
  · exact .inr rfl
  · exact .inl rfl

/-- A whole number reads as the number it was written from. -/
theorem intOf_intText (n : Int) : intOf (intText n) = n := by
  unfold intText
  split
  · simp only [intOf, Nat.ofDigitChars_ten_toDigits]
    omega
  · have hhead := not_minus_of_whole (wholeText_toDigits n.natAbs)
    unfold intOf
    split
    · rename_i heq
      rw [heq] at hhead
      exact absurd rfl hhead
    · rw [Nat.ofDigitChars_ten_toDigits]
      omega

theorem length_afterDigits (cs : List Char) : (afterDigits cs).length ≤ cs.length :=
  (List.dropWhile_suffix _).length_le

theorem length_scanWhole {cs i : List Char} (h : scanWhole cs = some (i, rest)) :
    rest.length < cs.length := by
  unfold scanWhole at h
  split at h
  · cases h
    exact Nat.lt_succ_self _
  · split at h
    · contradiction
    · rename_i hdigits
      cases h
      have hlength := congrArg List.length (List.takeWhile_append_dropWhile (p := Char.isDigit)
        (l := cs))
      have hpos := List.length_pos_iff.mpr hdigits
      rw [List.length_append] at hlength
      unfold leadingDigits at hpos
      unfold afterDigits
      omega

theorem length_scanInteger {cs i : List Char} (h : scanInteger cs = some (i, rest)) :
    rest.length < cs.length := by
  unfold scanInteger at h
  split at h
  · obtain ⟨read, hread, hrest⟩ := Option.map_eq_some_iff.mp h
    cases hrest
    exact Nat.lt_succ_of_lt (length_scanWhole hread)
  · exact length_scanWhole h

theorem length_scanFraction (cs : List Char) : (scanFraction cs).2.length ≤ cs.length := by
  unfold scanFraction
  split
  · split
    · exact le_rfl
    · exact Nat.le_succ_of_le (length_afterDigits _)
  · exact le_rfl

theorem length_scanExponent (cs : List Char) : (scanExponent cs).2.length ≤ cs.length := by
  unfold scanExponent
  split
  · exact le_rfl
  · rename_i c cs
    split
    · have hsign : (scanSign cs).2.length ≤ cs.length := by
        unfold scanSign
        split <;> simp
      exact Nat.le_succ_of_le ((length_afterDigits _).trans hsign)
    · exact le_rfl

end Numbers

section Strings

def hexDigit (c : Char) : Option Nat :=
  if c.isDigit then some (c.toNat - '0'.toNat)
  else if 'a' ≤ c ∧ c ≤ 'f' then some (c.toNat - 'a'.toNat + 10)
  else if 'A' ≤ c ∧ c ≤ 'F' then some (c.toNat - 'A'.toNat + 10)
  else none

def scanHex : List Char → Option (Nat × List Char)
  | a :: b :: c :: d :: cs =>
      match hexDigit a, hexDigit b, hexDigit c, hexDigit d with
      | some a, some b, some c, some d => some (((a * 16 + b) * 16 + c) * 16 + d, cs)
      | _, _, _, _ => none
  | _ => none

def isHigh (n : Nat) : Bool := 0xd800 ≤ n && n ≤ 0xdbff

def isLow (n : Nat) : Bool := 0xdc00 ≤ n && n ≤ 0xdfff

def unpaired (high low : Nat) : Char :=
  Char.ofNat (0x10000 + ((high - 0xd800) * 0x400 + (low - 0xdc00)))

/-- The low half that has to follow a high one. -/
def scanLow (high : Nat) : List Char → Except LoadsError (Char × List Char)
  | '\\' :: 'u' :: cs =>
      match scanHex cs with
      | some (low, rest) => if isLow low then .ok (unpaired high low, rest) else .error .surrogate
      | none => .error .decode
  | _ => .error .surrogate

/-- What follows `\u`. -/
def scanCode (cs : List Char) : Except LoadsError (Char × List Char) :=
  match scanHex cs with
  | none => .error .decode
  | some (n, rest) =>
      if isHigh n then scanLow n rest
      else if isLow n then .error .surrogate
      else .ok (Char.ofNat n, rest)

/-- What follows a backslash. -/
def scanEscape : List Char → Except LoadsError (Char × List Char)
  | [] => .error .decode
  | c :: cs =>
      match c with
      | '"' => .ok ('"', cs)
      | '\\' => .ok ('\\', cs)
      | '/' => .ok ('/', cs)
      | 'b' => .ok ('\x08', cs)
      | 'f' => .ok ('\x0c', cs)
      | 'n' => .ok ('\n', cs)
      | 'r' => .ok ('\r', cs)
      | 't' => .ok ('\t', cs)
      | 'u' => scanCode cs
      | _ => .error .decode

def scanChar : List Char → Except LoadsError (Char × List Char)
  | [] => .error .decode
  | c :: cs =>
      if c = '\\' then scanEscape cs
      else if c.toNat < 0x20 then .error .decode
      else .ok (c, cs)

/-- What follows the opening quote, up to the closing one. -/
def scanString : Nat → List Char → Except LoadsError (List Char × List Char)
  | 0, _ => .error .decode
  | _ + 1, '"' :: cs => .ok ([], cs)
  | fuel + 1, cs => do
      let (c, rest) ← scanChar cs
      let (s, rest) ← scanString fuel rest
      .ok (c :: s, rest)

/-- The character as it stands between quotes. -/
def escaped (c : Char) : List Char :=
  if c = '"' then ['\\', '"']
  else if c = '\\' then ['\\', '\\']
  else if c = '\n' then ['\\', 'n']
  else if c = '\r' then ['\\', 'r']
  else if c = '\t' then ['\\', 't']
  else if c = '\x0c' then ['\\', 'f']
  else if c = '\x08' then ['\\', 'b']
  else if c.toNat < 0x20 then
    ['\\', 'u', '0', '0', Nat.digitChar (c.toNat / 16), Nat.digitChar (c.toNat % 16)]
  else [c]

def quoted (s : List Char) : List Char := '"' :: (s.flatMap escaped ++ ['"'])

theorem scanCode_control {n : Nat} (h : n < 0x20) (rest : List Char) :
    scanCode ('0' :: '0' :: Nat.digitChar (n / 16) :: Nat.digitChar (n % 16) :: rest) =
      .ok (Char.ofNat n, rest) := by
  interval_cases n <;> rfl

/-- A character reads as what was escaped. -/
theorem scanChar_escaped (c : Char) (rest : List Char) :
    scanChar (escaped c ++ rest) = .ok (c, rest) := by
  unfold escaped
  split_ifs with hquote hback hline hreturn htab hfeed hbell hcontrol
  · rw [hquote]
    rfl
  · rw [hback]
    rfl
  · rw [hline]
    rfl
  · rw [hreturn]
    rfl
  · rw [htab]
    rfl
  · rw [hfeed]
    rfl
  · rw [hbell]
    rfl
  · have hcode := scanCode_control hcontrol rest
    rw [Char.ofNat_toNat] at hcode
    exact hcode
  · rw [List.singleton_append, scanChar, if_neg hback, if_neg hcontrol]

theorem head_escaped (c : Char) : ∃ d cs, escaped c = d :: cs ∧ d ≠ '"' := by
  unfold escaped
  split_ifs with hquote
  all_goals exact ⟨_, _, rfl, by first | decide | exact hquote⟩

theorem scanString_escaped (s rest : List Char) {fuel : Nat} (hfuel : s.length < fuel) :
    scanString fuel (s.flatMap escaped ++ '"' :: rest) = .ok (s, rest) := by
  induction s generalizing fuel with
  | nil =>
      obtain ⟨fuel, rfl⟩ := Nat.exists_eq_add_one.mpr hfuel
      rfl
  | cons c s ih =>
      obtain ⟨fuel, rfl⟩ := Nat.exists_eq_add_one.mpr (Nat.zero_lt_of_lt hfuel)
      have hread := scanChar_escaped c (s.flatMap escaped ++ '"' :: rest)
      obtain ⟨d, cs, hescaped, hquote⟩ := head_escaped c
      rw [List.flatMap_cons, List.append_assoc]
      rw [hescaped, List.cons_append] at hread ⊢
      rw [scanString, hread]
      · simp only [bind, Except.bind]
        rw [ih (Nat.lt_of_succ_lt_succ hfuel)]
      · intro cs' heq
        exact hquote (List.cons.inj heq).1

theorem length_scanHex {cs rest : List Char} {n : Nat} (h : scanHex cs = some (n, rest)) :
    rest.length < cs.length := by
  unfold scanHex at h
  split at h
  · split at h
    · simp only [Option.some.injEq, Prod.mk.injEq] at h
      simp only [← h.2, List.length_cons]
      omega
    · contradiction
  · contradiction

theorem length_scanCode {cs rest : List Char} {c : Char} (h : scanCode cs = .ok (c, rest)) :
    rest.length < cs.length := by
  unfold scanCode at h
  split at h
  · contradiction
  · rename_i n after hhex
    have hlength := length_scanHex hhex
    split at h
    · unfold scanLow at h
      split at h
      · rename_i cs'
        split at h
        · rename_i low after' hlow
          have hlength' := length_scanHex hlow
          split at h
          · simp only [Except.ok.injEq, Prod.mk.injEq] at h
            rw [← h.2]
            simp only [List.length_cons] at hlength
            omega
          · contradiction
        · contradiction
      · contradiction
    · split at h
      · contradiction
      · simp only [Except.ok.injEq, Prod.mk.injEq] at h
        rw [← h.2]
        exact hlength

theorem length_scanChar {cs rest : List Char} {c : Char} (h : scanChar cs = .ok (c, rest)) :
    rest.length < cs.length := by
  unfold scanChar at h
  split at h
  · contradiction
  · rename_i d cs
    split at h
    · unfold scanEscape at h
      split at h
      · contradiction
      · split at h
        case h_9 =>
          have hlength := length_scanCode h
          simp only [List.length_cons]
          omega
        all_goals simp_all
        all_goals omega
    · split at h
      · contradiction
      · simp only [Except.ok.injEq, Prod.mk.injEq] at h
        simp [← h.2]

theorem scanString_other {cs : List Char} (h : ∀ inner, cs ≠ '"' :: inner) (fuel : Nat) :
    scanString (fuel + 1) cs = (do
      let (c, rest) ← scanChar cs
      let (s, rest) ← scanString fuel rest
      .ok (c :: s, rest)) := by
  rw [scanString]
  exact h

theorem length_scanString {fuel : Nat} {cs s rest : List Char}
    (h : scanString fuel cs = .ok (s, rest)) : rest.length < cs.length := by
  induction fuel generalizing cs s with
  | zero => cases h
  | succ fuel ih =>
      by_cases hquote : ∃ inner, cs = '"' :: inner
      · obtain ⟨inner, rfl⟩ := hquote
        cases h
        exact Nat.lt_succ_self _
      · rw [scanString_other fun inner heq => hquote ⟨inner, heq⟩] at h
        obtain ⟨⟨c, middle⟩, hchar, h⟩ := ok_of_bind h
        obtain ⟨⟨later, rest'⟩, hlater, h⟩ := ok_of_bind h
        cases h
        exact (ih hlater).trans (length_scanChar hchar)

end Strings

end SeoPlatform.Foundation.JsonScanners
