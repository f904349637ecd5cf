import ParseKit.Text.Digits

/-! Decimal numbers as they are written: an optional sign, digits with at most one point among or
around them, and an optional exponent. -/

namespace ParseKit.Decimal

/-- The number `digits * 10 ^ exponent`, or its negative. -/
structure Literal where
  negative : Bool
  digits : Nat
  exponent : Int
  deriving DecidableEq, Repr

def tenTo (n : Nat) : Nat :=
  Nat.pow 10 n

def twoTo (n : Nat) : Nat :=
  Nat.pow 2 n

/-- Splits off a sign. The flag tells whether it is a minus. -/
def splitSign : List Char → Bool × List Char
  | '-' :: rest => (true, rest)
  | '+' :: rest => (false, rest)
  | text => (false, text)

/-- The exponent that ends a number, zero if there is none. -/
def exponentOf? : List Char → Option Int
  | [] => some 0
  | e :: rest =>
    if e = 'e' ∨ e = 'E' then
      let (negative, digits) := splitSign rest
      if digits.isEmpty ∨ ¬ digits.all Char.isDigit then none
      else some (if negative then -(Text.natOfDigits digits : Int) else Text.natOfDigits digits)
    else none

namespace Literal

/-- The number that a text writes. At least one digit stands before or after the point. -/
def ofChars? (text : List Char) : Option Literal := do
  let (negative, text) := splitSign text
  let (whole, text) := text.span Char.isDigit
  let (fraction, text) := match text with
    | '.' :: rest => rest.span Char.isDigit
    | text => ([], text)
  guard (¬ (whole.isEmpty ∧ fraction.isEmpty))
  let exponent ← exponentOf? text
  return ⟨negative, Text.natOfDigits (whole ++ fraction), exponent - fraction.length⟩

/-- The exponent of the power of ten just above the number, which is not zero. -/
def magnitude (l : Literal) : Int :=
  (Nat.toDigits 10 l.digits).length + l.exponent

/-- The least number that rounds to infinity as a 64-bit float. -/
def floatLimit : Nat := twoTo 1024 - twoTo 970

/-- Whether the number rounds to infinity as a 64-bit float. Far from the limit the order of
magnitude decides, so that no huge power is computed. -/
def overflows (l : Literal) : Bool :=
  if l.digits = 0 ∨ l.magnitude < 300 then false
  else if 400 < l.magnitude then true
  else floatLimit * tenTo (-l.exponent).toNat ≤ l.digits * tenTo l.exponent.toNat

def toFloat (l : Literal) : Float :=
  let size : Float :=
    if l.digits = 0 ∨ l.magnitude < -400 then 0.0
    else if l.overflows then 1.0 / 0.0
    else Float.ofScientific l.digits (l.exponent < 0) l.exponent.natAbs
  if l.negative then -size else size

end Literal

end ParseKit.Decimal
