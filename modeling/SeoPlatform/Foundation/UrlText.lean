import Mathlib.Data.List.Basic
import Mathlib.Data.List.DropRight

namespace SeoPlatform.Foundation.UrlText

/-- What the runtime's Unicode tables decide about a text. -/
structure TextRules where
  lower : String → String
  casefold : String → String
  /-- The complaint about a network location: a malformed bracketed host, or
  a host that changes its delimiters under normalisation. -/
  netlocFault : String → Option String

/-- The characters `str.strip` takes for white space. -/
def isSpace (c : Char) : Bool :=
  let n := c.toNat
  (9 ≤ n && n ≤ 13) || (28 ≤ n && n ≤ 32) || n == 0x85 || n == 0xA0 || n == 0x1680 ||
    (0x2000 ≤ n && n ≤ 0x200A) || n == 0x2028 || n == 0x2029 || n == 0x202F || n == 0x205F ||
    n == 0x3000

def stripChars (cs : List Char) : List Char :=
  ((cs.dropWhile isSpace).reverse.dropWhile isSpace).reverse

def strip (s : String) : String := String.ofList (stripChars s.toList)

/-- Whether a text occurs inside another. -/
def occurs (needle : List Char) : List Char → Bool
  | [] => needle.isEmpty
  | c :: cs => needle.isPrefixOf (c :: cs) || occurs needle cs

/-- Whether a text starts with another. -/
def leads (start text : String) : Bool := start.toList.isPrefixOf text.toList

/-- The parts before and after the first occurrence of a character, and
whether it occurs. -/
def partition (sep : Char) (cs : List Char) : List Char × Bool × List Char :=
  match cs.dropWhile (· != sep) with
  | [] => (cs, false, [])
  | _ :: after => (cs.takeWhile (· != sep), true, after)

/-- `str.split` at a character. -/
def splitAt (sep : Char) : List Char → List (List Char)
  | [] => [[]]
  | c :: cs =>
      match splitAt sep cs with
      | [] => [[c]]
      | first :: rest => if c = sep then [] :: first :: rest else (c :: first) :: rest

def joinWith (sep : Char) : List (List Char) → List Char
  | [] => []
  | [part] => part
  | part :: rest => part ++ sep :: joinWith sep rest

/-- The part after the last occurrence of a character, or the whole. -/
def afterLast (sep : Char) (cs : List Char) : List Char :=
  (cs.reverse.takeWhile (· != sep)).reverse

def isAsciiLetter (c : Char) : Bool := ('a' ≤ c && c ≤ 'z') || ('A' ≤ c && c ≤ 'Z')

def isDigit (c : Char) : Bool := '0' ≤ c && c ≤ '9'

def isSchemeChar (c : Char) : Bool :=
  isAsciiLetter c || isDigit c || c == '+' || c == '-' || c == '.'

/-- Drop `scheme:` where the text before the first colon is a scheme. -/
def dropScheme (url : List Char) : List Char :=
  match partition ':' url with
  | (c :: scheme, true, rest) =>
      if isAsciiLetter c && (c :: scheme).all isSchemeChar then rest else url
  | _ => url

/-- The network location of a url, as `urlsplit` finds it. The error is the
text of the `ValueError`. -/
def netlocOf (rules : TextRules) (url : String) : Except String (List Char) :=
  let cleaned := (url.toList.dropWhile fun c => c.toNat ≤ 32).filter
    fun c => c != '\t' && c != '\r' && c != '\n'
  match dropScheme cleaned with
  | '/' :: '/' :: rest =>
      let netloc := rest.takeWhile fun c => c != '/' && c != '?' && c != '#'
      if netloc.contains '[' != netloc.contains ']' then
        .error "Invalid IPv6 URL"
      else
        match rules.netlocFault (String.ofList netloc) with
        | some complaint => .error complaint
        | none => .ok netloc
  | _ => .ok []

/-- Host and port texts of a network location. -/
def hostinfo (netloc : List Char) : List Char × List Char :=
  let info := afterLast '@' netloc
  match partition '[' info with
  | (_, true, bracketed) =>
      let (host, _, rest) := partition ']' bracketed
      (host, (partition ':' rest).2.2)
  | (_, false, _) =>
      let (host, _, port) := partition ':' info
      (host, port)

/-- The `hostname` attribute, with the empty text for none. A zone behind `%`
keeps its case. -/
def hostname (rules : TextRules) (netloc : List Char) : String :=
  let host := (hostinfo netloc).1
  if host = [] then ""
  else
    match partition '%' host with
    | (address, true, zone) => rules.lower (String.ofList address) ++ "%" ++ String.ofList zone
    | (address, false, _) => rules.lower (String.ofList address)

def decimal (cs : List Char) : Nat := cs.foldl (fun n c => 10 * n + (c.toNat - '0'.toNat)) 0

/-- The `port` attribute. -/
def port (netloc : List Char) : Except String (Option Nat) :=
  match (hostinfo netloc).2 with
  | [] => .ok none
  | digits =>
      if digits.all isDigit then
        if decimal digits ≤ 65535 then .ok (some (decimal digits))
        else .error "Port out of range 0-65535"
      else
        .error ("Port could not be cast to integer value as '" ++ String.ofList digits ++ "'")

theorem stripChars_eq (cs : List Char) :
    stripChars cs = (cs.dropWhile isSpace).rdropWhile isSpace := rfl

/-- What is stripped has nothing left to strip. -/
theorem strip_strip (s : String) : strip (strip s) = strip s := by
  have hchars : ∀ cs : List Char, stripChars (stripChars cs) = stripChars cs := by
    intro cs
    have hhead : (stripChars cs).dropWhile isSpace = stripChars cs := by
      have hprefix : stripChars cs <+: cs.dropWhile isSpace := List.rdropWhile_prefix _ _
      cases hstripped : stripChars cs with
      | nil => rfl
      | cons c rest =>
          rw [hstripped] at hprefix
          obtain ⟨later, hlater⟩ := hprefix
          have hne : cs.dropWhile isSpace ≠ [] := by
            rw [← hlater]
            exact List.cons_ne_nil _ _
          have hfirst := List.head_dropWhile_not isSpace hne
          simp only [← hlater, List.cons_append, List.head_cons] at hfirst
          exact List.dropWhile_cons_of_neg (by simp [hfirst])
    rw [stripChars_eq (stripChars cs), hhead]
    exact List.rdropWhile_idempotent _ _
  unfold strip
  rw [String.toList_ofList, hchars]

end SeoPlatform.Foundation.UrlText
