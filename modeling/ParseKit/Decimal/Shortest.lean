import ParseKit.Decimal.Literal

/-! The shortest decimal digits that read back to a given 64-bit float, written out without an
exponent. A decimal reads back when it lies among the reals that round to the float: between the
points halfway to its two neighbours, which themselves belong to it when its significand is even. -/

namespace ParseKit.Decimal

/-- A finite float without its sign, `significand * 2 ^ exponent`. -/
structure Binary where
  significand : Nat
  exponent : Int
  /-- The gap to the next smaller float is half as wide as the gap to the next larger one. -/
  narrowBelow : Bool
  deriving DecidableEq, Repr

def Binary.ofBits (bits : UInt64) : Binary :=
  let biased := ((bits >>> 52) &&& 0x7FF).toNat
  let fraction := (bits &&& 0xFFFFFFFFFFFFF).toNat
  if biased = 0 then ⟨fraction, -1074, false⟩
  else ⟨twoTo 52 + fraction, biased - 1075, fraction = 0 && 1 < biased⟩

/-- Compares `a * 10 ^ i` with `b * 2 ^ j`. -/
def compareScaled (a : Nat) (i : Int) (b : Nat) (j : Int) : Ordering :=
  compare (a * tenTo i.toNat * twoTo (-j).toNat) (b * twoTo j.toNat * tenTo (-i).toNat)

namespace Binary

/-- Whether `digits * 10 ^ exponent` rounds to the float. -/
def readsBack (x : Binary) (digits : Nat) (exponent : Int) : Bool :=
  let low := 4 * x.significand - (if x.narrowBelow then 1 else 2)
  let high := 4 * x.significand + 2
  let ends := x.significand % 2 = 0
  let above := compareScaled digits exponent low (x.exponent - 2)
  let below := compareScaled digits exponent high (x.exponent - 2)
  (above = .gt || (ends && above = .eq)) && (below = .lt || (ends && below = .eq))

/-- The least exponent, from `-limit` on, of a power of ten above the float. -/
def scale (x : Binary) (limit : Nat) : Int :=
  let above (k : Int) : Bool := compareScaled 1 k x.significand x.exponent = .gt
  match (List.range (2 * limit)).find? fun (n : Nat) => above ((n : Int) - (limit : Int)) with
  | some n => (n : Int) - (limit : Int)
  | none => limit

/-- The largest multiple of `10 ^ exponent` that is not above the float, divided by that power. -/
def floorAt (x : Binary) (exponent : Int) : Nat :=
  x.significand * twoTo x.exponent.toNat * tenTo (-exponent).toNat /
    (tenTo exponent.toNat * twoTo (-x.exponent).toNat)

/-- The neighbour of the float among the multiples of `10 ^ exponent` that reads back. If both do,
the nearer one is taken, and the upper one if they are equally near. -/
def neighbour? (x : Binary) (exponent : Int) : Option Nat :=
  let low := x.floorAt exponent
  match x.readsBack low exponent, x.readsBack (low + 1) exponent with
  | true, true =>
    if compareScaled (2 * low + 1) exponent (2 * x.significand) x.exponent = .gt then some low
    else some (low + 1)
  | true, false => some low
  | false, true => some (low + 1)
  | false, false => none

/-- The fewest digits that read back, and their exponent. Seventeen digits are always enough. -/
def shortest (x : Binary) : Nat × Int :=
  let scale := x.scale 400
  let attempt (n : Nat) : Option (Nat × Int) :=
    let exponent := scale - (n + 1 : Nat)
    (x.neighbour? exponent).map (·, exponent)
  ((List.range 17).findSome? attempt).getD (x.floorAt 0, 0)

end Binary

/-- The number `digits * 10 ^ exponent` without an exponent and without needless zeros after the
point. -/
def positional (digits : Nat) (exponent : Int) : String :=
  let text := Nat.toDigits 10 digits
  if 0 ≤ exponent then String.ofList (text ++ List.replicate exponent.toNat '0')
  else
    let places := (-exponent).toNat
    let padded := List.replicate (places + 1 - text.length) '0' ++ text
    let whole := padded.take (padded.length - places)
    let fraction := padded.drop (padded.length - places)
    let kept := (fraction.reverse.dropWhile (· == '0')).reverse
    String.ofList (whole ++ if kept.isEmpty then [] else '.' :: kept)

/-- The text of a float: its shortest digits, written out in full. -/
def ofFloat (x : Float) : String :=
  if x.isNaN then "NaN"
  else
    let bits := x.toBits
    let sign := if bits >>> 63 = 1 then "-" else ""
    if x.isInf then sign ++ "inf"
    else
      let size := Binary.ofBits bits
      if size.significand = 0 then sign ++ "0"
      else
        let (digits, exponent) := size.shortest
        sign ++ positional digits exponent

end ParseKit.Decimal
