import ParseKit.Json
import ParseKit.Text.Digits

/-! Reading JSON. The grammar is followed strictly: no trailing commas, no leading zeros, no bare
control characters in strings. An escape may stand for half of a character; the two halves of a
character are put together where they follow each other. -/

namespace ParseKit.Json

def isSpace (c : Char) : Bool :=
  c == ' ' || c == '\n' || c == '\t' || c == '\r'

def skipSpace (text : List Char) : List Char :=
  text.dropWhile isSpace

def unit? (a b c d : Char) : Option Nat :=
  Text.natOfDigits? 16 [a, b, c, d]

inductive Piece where
  | whole (c : Char)
  /-- Half of a character beyond U+FFFF. -/
  | half (unit : Nat)
  deriving DecidableEq, Repr

def Piece.ofUnit (unit : Nat) : Piece :=
  if 0xD800 ≤ unit ∧ unit < 0xE000 then .half unit else .whole (Char.ofNat unit)

def escaped? : Char → Option Char
  | '"' => some '"'
  | '\\' => some '\\'
  | '/' => some '/'
  | 'b' => some '\x08'
  | 'f' => some '\x0c'
  | 'n' => some '\n'
  | 'r' => some '\r'
  | 't' => some '\t'
  | _ => none

/-- The pieces of a string after its opening quote, and what follows the closing one. -/
def pieces? : List Char → Option (List Piece × List Char)
  | [] => none
  | '"' :: rest => some ([], rest)
  | '\\' :: 'u' :: a :: b :: c :: d :: rest => do
    let unit ← unit? a b c d
    let (pieces, after) ← pieces? rest
    return (.ofUnit unit :: pieces, after)
  | '\\' :: letter :: rest => do
    let c ← escaped? letter
    let (pieces, after) ← pieces? rest
    return (.whole c :: pieces, after)
  | c :: rest => do
    guard (0x20 ≤ c.toNat ∧ c ≠ '\\')
    let (pieces, after) ← pieces? rest
    return (.whole c :: pieces, after)

/-- The characters of a string, unless a half stands without the other one. -/
def joinPieces? : List Piece → Option (List Char)
  | [] => some []
  | .whole c :: rest => (c :: ·) <$> joinPieces? rest
  | .half high :: .half low :: rest =>
    if high < 0xDC00 ∧ 0xDC00 ≤ low then
      (Char.ofNat (0x10000 + (high - 0xD800) * 0x400 + (low - 0xDC00)) :: ·) <$> joinPieces? rest
    else none
  | .half _ :: _ => none

/-- A string after its opening quote: its text, if it stands for one, and what follows it. -/
def string? (text : List Char) : Option (Option String × List Char) := do
  let (pieces, after) ← pieces? text
  return (String.ofList <$> joinPieces? pieces, after)

/-- The digits at the front of a text, at least one, and what follows them. -/
def digits? (text : List Char) : Option (List Char × List Char) :=
  match text.span Char.isDigit with
  | ([], _) => none
  | (digits, after) => some (digits, after)

/-- The digits before the point of a number. A leading zero stands alone. -/
def whole? : List Char → Option (List Char × List Char)
  | '0' :: rest => some (['0'], rest)
  | text => digits? text

/-- The point and the digits after it, or nothing. -/
def fraction? : List Char → Option (List Char × List Char)
  | '.' :: rest => do
    let (digits, after) ← digits? rest
    return ('.' :: digits, after)
  | text => some ([], text)

def exponent? : List Char → Option (List Char × List Char)
  | e :: rest =>
    if e = 'e' ∨ e = 'E' then
      match rest with
      | sign :: rest' =>
        if sign = '+' ∨ sign = '-' then do
          let (digits, after) ← digits? rest'
          return (e :: sign :: digits, after)
        else do
          let (digits, after) ← digits? rest
          return (e :: digits, after)
      | [] => none
    else some ([], e :: rest)
  | [] => some ([], [])

/-- A number as it is written, and what follows it. -/
def number? (text : List Char) : Option (List Char × List Char) := do
  let (sign, text) := match text with
    | '-' :: rest => (['-'], rest)
    | text => ([], text)
  let (whole, text) ← whole? text
  let (fraction, text) ← fraction? text
  let (exponent, text) ← exponent? text
  return (sign ++ whole ++ fraction ++ exponent, text)

mutual

/-- The value at the front of a text, and what follows it. Every call takes a unit of `fuel`. -/
def value? (fuel : Nat) (text : List Char) : Option (Json × List Char) :=
  match fuel with
  | 0 => none
  | fuel + 1 =>
    match skipSpace text with
    | 'n' :: 'u' :: 'l' :: 'l' :: rest => some (null, rest)
    | 't' :: 'r' :: 'u' :: 'e' :: rest => some (bool true, rest)
    | 'f' :: 'a' :: 'l' :: 's' :: 'e' :: rest => some (bool false, rest)
    | '"' :: rest => do
      let (text?, after) ← string? rest
      return (string text?, after)
    | '[' :: rest =>
      match skipSpace rest with
      | ']' :: after => some (array [], after)
      | rest => do
        let (items, after) ← items? fuel rest
        return (array items, after)
    | '\x7b' :: rest =>
      match skipSpace rest with
      | '\x7d' :: after => some (object [], after)
      | rest => do
        let (members, after) ← members? fuel rest
        return (object members, after)
    | text => do
      let (literal, after) ← number? text
      return (number (String.ofList literal), after)

/-- The items of an array, up to its closing bracket. -/
def items? (fuel : Nat) (text : List Char) : Option (List Json × List Char) :=
  match fuel with
  | 0 => none
  | fuel + 1 => do
    let (item, after) ← value? fuel text
    match skipSpace after with
    | ']' :: after => return ([item], after)
    | ',' :: after =>
      let (items, after) ← items? fuel after
      return (item :: items, after)
    | _ => none

/-- The members of an object, up to its closing brace. -/
def members? (fuel : Nat) (text : List Char) :
    Option (List (Option String × Json) × List Char) :=
  match fuel with
  | 0 => none
  | fuel + 1 =>
    match skipSpace text with
    | '"' :: rest => do
      let (name?, after) ← string? rest
      match skipSpace after with
      | ':' :: after =>
        let (value, after) ← value? fuel after
        match skipSpace after with
        | '\x7d' :: after => return ([(name?, value)], after)
        | ',' :: after =>
          let (members, after) ← members? fuel after
          return ((name?, value) :: members, after)
        | _ => none
      | _ => none
    | _ => none

end

/-- The value that a text writes. Two units of fuel for each character are enough: an opening
bracket takes one for the value and one for its contents. -/
def ofChars? (text : List Char) : Option Json :=
  match value? (2 * text.length + 2) text with
  | some (value, after) => if (skipSpace after).isEmpty then some value else none
  | none => none

def ofText? (text : String) : Option Json :=
  ofChars? text.toList

end ParseKit.Json
