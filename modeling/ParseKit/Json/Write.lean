import ParseKit.Json
import ParseKit.Text.Pad

/-! Writing JSON, on one line or indented by two spaces a level. Quotes, backslashes and control
characters are escaped in strings; every other character stands for itself. -/

namespace ParseKit.Json

def hexByte (n : Nat) : List Char :=
  [Nat.digitChar (n / 16 % 16), Nat.digitChar (n % 16)]

def escapeChar (c : Char) : List Char :=
  match c with
  | '"' => ['\\', '"']
  | '\\' => ['\\', '\\']
  | '\x08' => ['\\', 'b']
  | '\x0c' => ['\\', 'f']
  | '\n' => ['\\', 'n']
  | '\r' => ['\\', 'r']
  | '\t' => ['\\', 't']
  | c => if c.toNat < 0x20 then ['\\', 'u', '0', '0'] ++ hexByte c.toNat else [c]

def quote (text : String) : String :=
  "\"" ++ String.ofList (text.toList.flatMap escapeChar) ++ "\""

/-- A string value; what stands for no text is written as the replacement character. -/
def quote? (text? : Option String) : String :=
  quote (text?.getD "\ufffd")

mutual

def compact : Json → String
  | null => "null"
  | bool value => if value then "true" else "false"
  | number literal => literal
  | string text? => quote? text?
  | array items => "[" ++ compactItems items ++ "]"
  | object members => "\x7b" ++ compactMembers members ++ "\x7d"

def compactItems : List Json → String
  | [] => ""
  | [item] => item.compact
  | item :: rest => item.compact ++ "," ++ compactItems rest

def compactMembers : List (Option String × Json) → String
  | [] => ""
  | [(name?, value)] => quote? name? ++ ":" ++ value.compact
  | (name?, value) :: rest => quote? name? ++ ":" ++ value.compact ++ "," ++ compactMembers rest

end

def newline (level : Nat) : String :=
  "\n" ++ Text.spaces (2 * level)

mutual

/-- A value with each item and member on lines of its own, nested at the given level. -/
def prettyAt (level : Nat) : Json → String
  | null => "null"
  | bool value => if value then "true" else "false"
  | number literal => literal
  | string text? => quote? text?
  | array [] => "[]"
  | array (item :: rest) => "[" ++ prettyItems level (item :: rest) ++ newline level ++ "]"
  | object [] => "\x7b\x7d"
  | object (member :: rest) =>
    "\x7b" ++ prettyMembers level (member :: rest) ++ newline level ++ "\x7d"

def prettyItems (level : Nat) : List Json → String
  | [] => ""
  | [item] => newline (level + 1) ++ item.prettyAt (level + 1)
  | item :: rest =>
    newline (level + 1) ++ item.prettyAt (level + 1) ++ "," ++ prettyItems level rest

def prettyMembers (level : Nat) : List (Option String × Json) → String
  | [] => ""
  | [(name?, value)] =>
    newline (level + 1) ++ quote? name? ++ ": " ++ value.prettyAt (level + 1)
  | (name?, value) :: rest =>
    newline (level + 1) ++ quote? name? ++ ": " ++ value.prettyAt (level + 1) ++ "," ++
      prettyMembers level rest

end

def pretty (value : Json) : String :=
  value.prettyAt 0

end ParseKit.Json
