import Mathlib.Data.List.Basic

namespace SeoPlatform.Foundation.PercentDecoding

/-- A piece of a text: a byte, which an ASCII character or an escape stands for, or
another character. -/
inductive Piece where
  | byte (n : Nat)
  | char (c : Char)
  deriving DecidableEq, Repr

def hexValue (c : Char) : Option Nat :=
  if '0' ≤ c ∧ c ≤ '9' then some (c.toNat - '0'.toNat)
  else if 'a' ≤ c ∧ c ≤ 'f' then some (c.toNat - 'a'.toNat + 10)
  else if 'A' ≤ c ∧ c ≤ 'F' then some (c.toNat - 'A'.toNat + 10)
  else none

def pieceOf (c : Char) : Piece := if c.toNat < 128 then .byte c.toNat else .char c

/-- A percent sign that two hexadecimal digits do not follow stands for itself. -/
def pieces : List Char → List Piece
  | [] => []
  | '%' :: a :: b :: rest =>
      match hexValue a, hexValue b with
      | some high, some low => .byte (16 * high + low) :: pieces rest
      | _, _ => .byte 37 :: pieces (a :: b :: rest)
  | c :: rest => pieceOf c :: pieces rest

/-- A character of which bytes are missing: how many, the bounds of the next one, and
what the bytes so far come to. -/
structure Begun where
  missing : Nat
  low : Nat := 0x80
  high : Nat := 0xBF
  value : Nat

def replacement : Char := '\uFFFD'

/-- What the first byte of a character starts, or the character that it is. -/
def startOf (b : Nat) : Char ⊕ Begun :=
  if b < 0x80 then .inl (Char.ofNat b)
  else if 0xC2 ≤ b ∧ b ≤ 0xDF then .inr { missing := 1, value := b - 0xC0 }
  else if b = 0xE0 then .inr { missing := 2, low := 0xA0, value := 0 }
  else if b = 0xED then .inr { missing := 2, high := 0x9F, value := 0xD }
  else if 0xE1 ≤ b ∧ b ≤ 0xEF then .inr { missing := 2, value := b - 0xE0 }
  else if b = 0xF0 then .inr { missing := 3, low := 0x90, value := 0 }
  else if 0xF1 ≤ b ∧ b ≤ 0xF3 then .inr { missing := 3, value := b - 0xF0 }
  else if b = 0xF4 then .inr { missing := 3, high := 0x8F, value := 4 }
  else .inl replacement

/-- A character or the start of one, in front of what follows. -/
def lead (first : Char ⊕ Begun) (following : Option Begun → List Char) : List Char :=
  match first with
  | .inl c => c :: following none
  | .inr begun => following (some begun)

/-- The next byte of a character, which completes it or not. -/
def Begun.next (begun : Begun) (b : Nat) : Char ⊕ Begun :=
  let value := 64 * begun.value + (b - 0x80)
  if begun.missing = 1 then .inl (Char.ofNat value)
  else .inr { missing := begun.missing - 1, value := value }

/-- The characters of the pieces, in UTF-8. A character that breaks off is replaced. -/
def decode : List Piece → Option Begun → List Char
  | [], none => []
  | [], some _ => [replacement]
  | .char c :: rest, none => c :: decode rest none
  | .char c :: rest, some _ => replacement :: c :: decode rest none
  | .byte b :: rest, none => lead (startOf b) (decode rest)
  | .byte b :: rest, some begun =>
      if begun.low ≤ b ∧ b ≤ begun.high then lead (begun.next b) (decode rest)
      else replacement :: lead (startOf b) (decode rest)

/-- `urllib.parse.unquote`. -/
def unquote (text : String) : String := String.ofList (decode (pieces text.toList) none)

example : unquote "/%DA%A9%D9%81%D8%B4-a%2Fb%zz/%E2%82" = "/کفش-a/b%zz/\uFFFD" := by decide

end SeoPlatform.Foundation.PercentDecoding
