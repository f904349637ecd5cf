import ParseKit.Table

/-! Operator tables. -/

namespace ParseKit

inductive Assoc where
  | left
  | right
  deriving DecidableEq, Repr

structure Precedence where
  value : Nat
  assoc : Assoc
  deriving DecidableEq, Repr

/-- Whether an operator of precedence `next` that follows one of precedence `p` belongs to the
right operand of the latter. -/
def Precedence.yieldsTo (p next : Precedence) : Bool :=
  match next.assoc with
  | .left => p.value < next.value
  | .right => p.value ≤ next.value

abbrev Operators := Table String Precedence

/-- The table of a list of operators. A name that occurs twice keeps its last entry. -/
def Operators.ofList (operators : List (String × Precedence)) : Operators :=
  operators.foldl (fun table (name, precedence) => table.insert name precedence) ∅

end ParseKit
