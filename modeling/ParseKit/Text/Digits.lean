/-! Digits in base ten and in any other base up to sixteen. -/

namespace ParseKit.Text

/-- The value of a digit of the base. Letters count in either case. -/
def digitValue? (base : Nat) (c : Char) : Option Nat := do
  let value ←
    if '0' ≤ c ∧ c ≤ '9' then some (c.toNat - '0'.toNat)
    else if 'a' ≤ c ∧ c ≤ 'f' then some (c.toNat - 'a'.toNat + 10)
    else if 'A' ≤ c ∧ c ≤ 'F' then some (c.toNat - 'A'.toNat + 10)
    else none
  guard (value < base)
  return value

def isDigit (base : Nat) (c : Char) : Bool :=
  (digitValue? base c).isSome

def natOfDigits (digits : List Char) : Nat :=
  digits.foldl (fun n c => 10 * n + (c.toNat - '0'.toNat)) 0

/-- The number that digits of a base write, at least one of them. -/
def natOfDigits? (base : Nat) (digits : List Char) : Option Nat :=
  match digits with
  | [] => none
  | digits => do
    let values ← digits.mapM (digitValue? base)
    return values.foldl (fun n value => base * n + value) 0

end ParseKit.Text
