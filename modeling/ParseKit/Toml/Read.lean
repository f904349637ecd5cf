import ParseKit.Toml.MomentTable
import ParseKit.Toml.Number
import ParseKit.Toml.Quoted
import ParseKit.Toml.Tree

/-! Reading TOML. A document is a sequence of lines, each of which is blank, a header, or a key with
its value; only values may go over several lines. -/

namespace ParseKit.Toml

/-- The bound on the parts of a key and on arrays and inline tables inside each other. -/
def maxDepth : Nat := 80

def skipSpace (text : List Char) : List Char :=
  text.dropWhile isSpace

def skipComment (text : List Char) : List Char :=
  match text with
  | '#' :: rest => rest.dropWhile isVisible
  | _ => text

/-- Skips blanks and comments over any number of lines. `comment` tells whether a comment is being
skipped. -/
def skipLines (comment : Bool) : List Char → List Char
  | '\r' :: '\n' :: rest => skipLines false rest
  | c :: rest =>
    if c == '\n' then skipLines false rest
    else if comment then if isVisible c then skipLines true rest else c :: rest
    else if isSpace c then skipLines false rest
    else if c == '#' then skipLines true rest
    else c :: rest
  | [] => []

/-- What follows the rest of a line, if that holds only blanks and a comment. -/
def endLine? (text : List Char) : Option (List Char) :=
  match skipComment (skipSpace text) with
  | [] => some []
  | rest => newline? rest

def isBareKey (c : Char) : Bool :=
  c.isAlphanum || c == '_' || c == '-'

def keyPart? (text : List Char) : Option (String × List Char) :=
  match text with
  | '"' :: rest => (basic? rest).map fun (body, after) => (String.ofList body, after)
  | '\'' :: rest => (literal? rest).map fun (body, after) => (String.ofList body, after)
  | _ =>
    match text.span isBareKey with
    | ([], _) => none
    | (name, after) => some (String.ofList name, after)

/-- The parts of a key, at most `limit` of them, with blanks around each. -/
def key? (limit : Nat) (text : List Char) : Option (List String × List Char) :=
  match limit with
  | 0 => none
  | limit + 1 => do
    let (part, after) ← keyPart? (skipSpace text)
    match skipSpace after with
    | '.' :: after =>
      let (parts, after) ← key? limit after
      return (part :: parts, after)
    | after => return ([part], after)

/-- A key as the path to its table and its last part. -/
def keyPath? (text : List Char) : Option ((List String × String) × List Char) := do
  let (parts, after) ← key? (maxDepth - 1) text
  let last ← parts.getLast?
  return ((parts.dropLast, last), after)

/-- A key with the equals sign and the blanks after it. -/
def keyEquals? (text : List Char) : Option ((List String × String) × List Char) := do
  let (path, after) ← keyPath? text
  match after with
  | '=' :: after => return (path, skipSpace after)
  | _ => none

mutual

/-- A value, and what follows it. Arrays and inline tables stand inside each other to less than
`depth`; every call takes a unit of `fuel`. -/
def value? (fuel depth : Nat) (text : List Char) : Option (Value × List Char) :=
  match fuel with
  | 0 => none
  | fuel + 1 =>
    match text with
    | '"' :: _ => (string? text).map fun (text, after) => (.string text, after)
    | '\'' :: _ => (string? text).map fun (text, after) => (.string text, after)
    | 't' :: 'r' :: 'u' :: 'e' :: rest => some (.boolean true, rest)
    | 'f' :: 'a' :: 'l' :: 's' :: 'e' :: rest => some (.boolean false, rest)
    | '[' :: rest => do
      guard (1 < depth)
      let (items, after) ← items? fuel (depth - 1) (skipLines false rest)
      return (.array items, after)
    | '\x7b' :: rest => do
      guard (1 < depth)
      match skipSpace rest with
      | '\x7d' :: after => return (.table [], after)
      | rest =>
        let (item, after) ← entries? fuel (depth - 1) (.table .header []) rest
        return (item.toValue, after)
    | text => moment? text <|> number? text

/-- The items of an array, up to its closing bracket. -/
def items? (fuel depth : Nat) (text : List Char) : Option (List Value × List Char) :=
  match fuel with
  | 0 => none
  | fuel + 1 =>
    match text with
    | ']' :: after => some ([], after)
    | text => do
      let (item, after) ← value? fuel depth text
      match skipLines false after with
      | ',' :: after =>
        let (items, after) ← items? fuel depth (skipLines false after)
        return (item :: items, after)
      | ']' :: after => return ([item], after)
      | _ => none

/-- The entries of an inline table, added to what was read of it, up to its closing brace. -/
def entries? (fuel depth : Nat) (item : Item) (text : List Char) : Option (Item × List Char) :=
  match fuel with
  | 0 => none
  | fuel + 1 => do
    let ((path, key), after) ← keyEquals? text
    let (value, after) ← value? fuel depth after
    let item ← item.insert? path key value
    match skipSpace after with
    | ',' :: after => entries? fuel depth item after
    | '\x7d' :: after => return (item, after)
    | _ => none

end

/-- What was read of a document, and the table that is open. -/
structure Reading where
  root : Item := .table .header []
  header : List String := []

namespace Reading

/-- Opens the table that a header names by what `change` does to the table around it. -/
def openWith? (r : Reading) (change : String → Item → Option Item) (path : List String)
    (key : String) : Option Reading := do
  let root ← r.root.within? .passing (change key) path
  return { root := root, header := path ++ [key] }

def insert? (r : Reading) (path : List String) (key : String) (value : Value) : Option Reading := do
  let root ← r.root.within? .passing (Item.insert? path key value) r.header
  return { r with root := root }

/-- Reads what stands on a line, and a value that goes over several lines. -/
def entry? (r : Reading) (text : List Char) : Option (Reading × List Char) :=
  match text with
  | '[' :: '[' :: rest => do
    let ((path, key), after) ← keyPath? rest
    match after with
    | ']' :: ']' :: after => return (← r.openWith? Item.openNext? path key, after)
    | _ => none
  | '[' :: rest => do
    let ((path, key), after) ← keyPath? rest
    match after with
    | ']' :: after => return (← r.openWith? Item.open? path key, after)
    | _ => none
  | text => do
    let ((path, key), after) ← keyEquals? text
    let (value, after) ← value? (2 * after.length + 2) maxDepth after
    return (← r.insert? path key value, after)

def isEmptyLine (text : List Char) : Bool :=
  text.head?.all fun c => c == '#' || c == '\n' || c == '\r'

def line? (r : Reading) (text : List Char) : Option (Reading × List Char) := do
  let text := skipSpace text
  let (r, after) ← if isEmptyLine text then some (r, text) else r.entry? text
  return (r, ← endLine? after)

def lines? (r : Reading) (text : List Char) : Option Reading :=
  match r.line? text with
  | none => none
  | some (r, after) =>
    if after.isEmpty then some r
    else if _h : after.length < text.length then lines? r after
    else none
termination_by text.length
decreasing_by assumption

end Reading

def dropMark : List Char → List Char
  | '\ufeff' :: rest => rest
  | text => text

def ofChars? (text : List Char) : Option (List (String × Value)) := do
  let r ← ({} : Reading).lines? (dropMark text)
  match ← r.root.toValue.resolve? with
  | .table entries => return entries
  | _ => none

end ParseKit.Toml
