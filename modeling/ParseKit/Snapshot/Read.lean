import ParseKit.Json.Read
import ParseKit.Snapshot

/-! Reading snapshots from JSON. An object gives the parts by name and an array gives them in
order. The line and the children may be left out; members with other names are passed over, but a
part may not be given twice. Objects and arrays that are read for their parts may be nested only so
deep. -/

namespace ParseKit.Snapshot

/-- How many objects and arrays may be read inside each other. -/
def maxDepth : Nat := 127

/-- The lines that can be read are those that fit 64 bits. -/
def lineLimit : Nat := UInt64.size

def natural? (literal : String) : Option Nat :=
  if literal.toList.all Char.isDigit then some (Text.natOfDigits literal.toList) else none

def text? : Json → Option String
  | .string text? => text?
  | _ => none

/-- A line, or the explicit absence of one. -/
def lineOf? : Json → Option (Option Nat)
  | .null => some none
  | .number literal => do
    let line ← natural? literal
    guard (line < lineLimit)
    return some line
  | _ => none

/-- The only value among the members of a name. The answer is `none` if there are several. -/
def member? (members : List (String × Json)) (name : String) : Option (Option Json) :=
  match members.filter (·.1 = name) with
  | [] => some none
  | [(_, value)] => some (some value)
  | _ => none

/-- The members of an object, if all their names are texts. -/
def named? (members : List (Option String × Json)) : Option (List (String × Json)) :=
  members.mapM fun (name?, value) => (·, value) <$> name?

/-- The snapshots in an array, each read by `read?`. -/
def childrenWith? (read? : Json → Option Snapshot) : Json → Option (List Snapshot)
  | .array items => items.mapM read?
  | _ => none

section Parts

variable (children? : Json → Option (List Snapshot))

def ofMembers? (members : List (String × Json)) : Option Snapshot := do
  let nodeType ← (← member? members "node_type").bind text?
  let label ← (← member? members "label").bind text?
  let line? ← ((← member? members "line").map lineOf?).getD (some none)
  let children ← ((← member? members "children").map children?).getD (some [])
  return mk nodeType label line? children

def ofItems? : List Json → Option Snapshot
  | nodeType :: label :: rest => do
    let nodeType ← text? nodeType
    let label ← text? label
    match rest with
    | [] => return mk nodeType label none []
    | [line] => return mk nodeType label (← lineOf? line) []
    | [line, children] => return mk nodeType label (← lineOf? line) (← children? children)
    | _ => none
  | _ => none

def ofParts? : Json → Option Snapshot
  | .object members => (named? members).bind (ofMembers? children?)
  | .array items => ofItems? children? items
  | _ => none

end Parts

/-- A snapshot, read through at most `depth` objects and arrays inside each other. The children take
two of them, one for their array and one for each child. -/
def ofJsonWithin? : Nat → Json → Option Snapshot
  | 0 => fun _ => none
  | 1 => ofParts? fun _ => none
  | depth + 2 => ofParts? (childrenWith? (ofJsonWithin? depth))

def ofJson? (value : Json) : Option Snapshot :=
  ofJsonWithin? maxDepth value

/-- The snapshots in an array, which is one of those that are read inside each other. -/
def allOfJson? (value : Json) : Option (List Snapshot) :=
  childrenWith? (ofJsonWithin? (maxDepth - 1)) value

end ParseKit.Snapshot
