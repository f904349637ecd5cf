import ParseKit.Toml.Moment

/-! Tables that stand for a date or a time. Such a table has a key of its own in the first place,
which holds the text of the moment. What follows that key counts for nothing. -/

namespace ParseKit.Toml

/-- The key under which a table holds the text of a moment that it stands for. -/
def momentKey : String := "$__toml_private_datetime"

namespace Value

def toMoment? : Value → Option Value
  | string text =>
    match moment? text.toList with
    | some (found, []) => some found
    | _ => none
  | _ => none

mutual

/-- Puts moments in the place of the tables that stand for them. -/
def resolve? : Value → Option Value
  | array items => do return array (← resolveItems? items)
  | table entries =>
    match entries with
    | [] => some (table [])
    | (key, value) :: rest =>
      if key = momentKey then value.toMoment?
      else do return table ((key, ← value.resolve?) :: (← resolveEntries? rest))
  | value => some value

def resolveItems? : List Value → Option (List Value)
  | [] => some []
  | item :: rest => do return (← item.resolve?) :: (← resolveItems? rest)

def resolveEntries? : List (String × Value) → Option (List (String × Value))
  | [] => some []
  | (key, value) :: rest => do return (key, ← value.resolve?) :: (← resolveEntries? rest)

end

end Value

end ParseKit.Toml
