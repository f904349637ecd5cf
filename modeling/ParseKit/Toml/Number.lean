import ParseKit.Decimal.Literal
import ParseKit.Text.Digits
import ParseKit.Toml.Value

/-! Numbers of TOML. Integers are decimal, or without a sign in base sixteen, eight or two, and fit
64 bits. Floats are decimal, infinite or not a number. An underscore may stand between any two
digits, and a decimal number has no needless zero in front. -/

namespace ParseKit.Toml

/-- Digits that go on after a digit, without the underscores between them, and what follows. -/
def moreDigits (base : Nat) : List Char → List Char × List Char
  | '_' :: c :: rest =>
    if Text.isDigit base c then
      let (digits, after) := moreDigits base rest
      (c :: digits, after)
    else ([], '_' :: c :: rest)
  | c :: rest =>
    if Text.isDigit base c then
      let (digits, after) := moreDigits base rest
      (c :: digits, after)
    else ([], c :: rest)
  | [] => ([], [])

def digits? (base : Nat) : List Char → Option (List Char × List Char)
  | c :: rest =>
    if Text.isDigit base c then
      let (digits, after) := moreDigits base rest
      some (c :: digits, after)
    else none
  | [] => none

/-- The digits of a whole decimal number, and what follows. A zero in front stands alone. -/
def whole? : List Char → Option (List Char × List Char)
  | '0' :: rest => some (['0'], rest)
  | text => digits? 10 text

/-- A sign, if there is one, and what follows. -/
def sign : List Char → List Char × List Char
  | '+' :: rest => (['+'], rest)
  | '-' :: rest => (['-'], rest)
  | text => ([], text)

/-- A point with the digits after it, and what follows. -/
def fraction? : List Char → Option (List Char × List Char)
  | '.' :: rest => do
    let (digits, after) ← digits? 10 rest
    return ('.' :: digits, after)
  | _ => none

def exponent? : List Char → Option (List Char × List Char)
  | c :: rest => do
    guard (c = 'e' ∨ c = 'E')
    let (sign, rest) := sign rest
    let (digits, after) ← digits? 10 rest
    return ('e' :: sign ++ digits, after)
  | [] => none

/-- A decimal number as a float. One that is too large is refused, unless it is negative. -/
def floatOf? (literal : List Char) : Option Value := do
  let literal ← Decimal.Literal.ofChars? literal
  guard (literal.negative ∨ ¬ literal.overflows)
  return .float literal.toFloat

/-- An integer of the given size, if 64 bits hold it. -/
def integerOf? (negative : Bool) (size : Nat) : Option Value :=
  let limit := Decimal.twoTo 63
  if negative then if size ≤ limit then some (.integer (-size)) else none
  else if size < limit then some (.integer size) else none

/-- An integer in a base other than ten after the mark of its base. -/
def inBase? (base : Nat) (text : List Char) : Option (Value × List Char) := do
  let (digits, after) ← digits? base text
  let value ← integerOf? false (← Text.natOfDigits? base digits)
  return (value, after)

/-- Infinity and what is not a number, after the sign. -/
def special? (sign : List Char) : List Char → Option (Value × List Char)
  | 'i' :: 'n' :: 'f' :: rest =>
    some (.float (if sign = ['-'] then -(1.0 / 0.0) else 1.0 / 0.0), rest)
  | 'n' :: 'a' :: 'n' :: rest => some (.float (0.0 / 0.0), rest)
  | _ => none

def decimal? (sign text : List Char) : Option (Value × List Char) := do
  let (whole, text) ← whole? text
  match fraction? text, exponent? text with
  | some (fraction, after), _ =>
    let (exponent, after) := (exponent? after).getD ([], after)
    return (← floatOf? (sign ++ whole ++ fraction ++ exponent), after)
  | none, some (exponent, after) => return (← floatOf? (sign ++ whole ++ exponent), after)
  | none, none =>
    return (← integerOf? (sign = ['-']) (← Text.natOfDigits? 10 whole), text)

def number? (text : List Char) : Option (Value × List Char) :=
  match text with
  | '0' :: 'x' :: rest => inBase? 16 rest
  | '0' :: 'o' :: rest => inBase? 8 rest
  | '0' :: 'b' :: rest => inBase? 2 rest
  | text =>
    let (sign, rest) := sign text
    special? sign rest <|> decimal? sign rest

end ParseKit.Toml
