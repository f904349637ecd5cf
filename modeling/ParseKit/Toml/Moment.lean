import ParseKit.Text.Digits
import ParseKit.Toml.Value

/-! Dates and times of TOML. They are checked against the calendar and kept as text in one form: a
`T` between date and time, a `Z` or a signed offset at the end, and a fraction of a second of at
most nine digits without needless zeros. -/

namespace ParseKit.Toml

/-- The number of decimal digits, if it lies between the bounds. -/
def field? (low high : Nat) (digits : List Char) : Option Nat := do
  let n ← Text.natOfDigits? 10 digits
  guard (low ≤ n ∧ n ≤ high)
  return n

def isLeapYear (year : Nat) : Bool :=
  year % 4 == 0 && (year % 100 != 0 || year % 400 == 0)

def daysIn (year month : Nat) : Nat :=
  if month = 2 then if isLeapYear year then 29 else 28
  else if [4, 6, 9, 11].contains month then 30
  else 31

def date? : List Char → Option (List Char × List Char)
  | y₁ :: y₂ :: y₃ :: y₄ :: '-' :: m₁ :: m₂ :: '-' :: d₁ :: d₂ :: rest => do
    let year ← field? 0 9999 [y₁, y₂, y₃, y₄]
    let month ← field? 1 12 [m₁, m₂]
    let _ ← field? 1 (daysIn year month) [d₁, d₂]
    return ([y₁, y₂, y₃, y₄, '-', m₁, m₂, '-', d₁, d₂], rest)
  | _ => none

/-- The text of a fraction of a second whose digits are given. -/
def fractionText (digits : List Char) : List Char :=
  let kept := ((digits.take 9).reverse.dropWhile (· == '0')).reverse
  if kept.isEmpty then [] else '.' :: kept

/-- A fraction of a second if there is one, and what follows. -/
def secondFraction (text : List Char) : List Char × List Char :=
  match text with
  | '.' :: c :: rest =>
    if c.isDigit then
      let (digits, after) := rest.span Char.isDigit
      (fractionText (c :: digits), after)
    else ([], text)
  | _ => ([], text)

/-- A time of day, and what follows it. A minute may have a leap second. -/
def time? : List Char → Option (List Char × List Char)
  | h₁ :: h₂ :: ':' :: m₁ :: m₂ :: ':' :: s₁ :: s₂ :: rest => do
    let _ ← field? 0 23 [h₁, h₂]
    let _ ← field? 0 59 [m₁, m₂]
    let _ ← field? 0 60 [s₁, s₂]
    let (fraction, after) := secondFraction rest
    return ([h₁, h₂, ':', m₁, m₂, ':', s₁, s₂] ++ fraction, after)
  | _ => none

/-- An offset from universal time, and what follows it. There is no negative zero. -/
def offset? : List Char → Option (List Char × List Char)
  | 'Z' :: rest => some (['Z'], rest)
  | 'z' :: rest => some (['Z'], rest)
  | sign :: h₁ :: h₂ :: ':' :: m₁ :: m₂ :: rest => do
    guard (sign = '+' ∨ sign = '-')
    let hours ← field? 0 23 [h₁, h₂]
    let minutes ← field? 0 59 [m₁, m₂]
    let sign := if hours = 0 ∧ minutes = 0 then '+' else sign
    return ([sign, h₁, h₂, ':', m₁, m₂], rest)
  | _ => none

/-- What follows a date: a time of day with or without an offset, or nothing. -/
def timeAfterDate (text : List Char) : List Char × List Char :=
  let found? : Option (List Char × List Char) := do
    let mark ← text.head?
    guard (mark = 'T' ∨ mark = 't' ∨ mark = ' ')
    let (time, after) ← time? text.tail
    let (offset, after) := (offset? after).getD ([], after)
    return ('T' :: time ++ offset, after)
  found?.getD ([], text)

/-- A date, a time or both, and what follows. -/
def moment? (text : List Char) : Option (Value × List Char) :=
  let found? : Option (List Char × List Char) :=
    match date? text with
    | some (date, after) =>
      let (time, after) := timeAfterDate after
      some (date ++ time, after)
    | none => time? text
  found?.map fun (moment, after) => (.moment (String.ofList moment), after)

end ParseKit.Toml
