import ParseKit.Settings.Value
import ParseKit.Text.Digits

/-! Dotted keys of settings, with indices into arrays: `output.format`, `list[0].name`. A name holds
ASCII letters and digits, spaces, underscores and dashes. -/

namespace ParseKit

inductive Step where
  | name (key : String)
  /-- A negative index counts from the end. -/
  | index (i : Int)
  deriving DecidableEq, Repr

abbrev SettingKey := List Step

namespace SettingKey

def isNameChar (c : Char) : Bool :=
  c.isAlphanum || c == ' ' || c == '_' || c == '-'

def isSpace (c : Char) : Bool :=
  c == ' ' || c == '\t'

/-- A name at the front of a text, and what follows it. -/
def name? (text : List Char) : Option (Step × List Char) :=
  match text.span isNameChar with
  | ([], _) => none
  | (name, after) => some (.name (String.ofList name), after)

/-- An index and its closing bracket, and what follows. The index fits 64 bits. -/
def index? (text : List Char) : Option (Step × List Char) := do
  let text := text.dropWhile isSpace
  let (negative, text) := match text with
    | '-' :: rest => (true, rest)
    | text => (false, text)
  let (digits, after) := text.span Char.isDigit
  let size ← Text.natOfDigits? 10 digits
  guard (size < 9223372036854775808 ∨ negative ∧ size = 9223372036854775808)
  match after.dropWhile isSpace with
  | ']' :: after => return (.index (if negative then -size else size), after)
  | _ => none

def steps? (text : List Char) : Option SettingKey :=
  match text with
  | [] => some []
  | mark :: rest =>
    let step? := if mark = '.' then name? rest else if mark = '[' then index? rest else none
    match step? with
    | none => none
    | some (step, after) =>
      if _h : after.length < (mark :: rest).length then (step :: ·) <$> steps? after else none
termination_by text.length
decreasing_by assumption

def ofText? (text : String) : Option SettingKey := do
  let (first, after) ← name? text.toList
  return first :: (← steps? after)

end SettingKey

namespace Setting

def place (i : Int) (length : Nat) : Nat :=
  if i < 0 then length - i.natAbs else i.toNat

/-- The setting that results when a value is laid over what a key leads to. What is in the way gives
way to a table or an array. -/
def put (value : Setting) : SettingKey → Option Setting → Setting
  | [], below? => layOver below? value
  | .name key :: rest, below? =>
    let below := below?.getD empty
    let name := Text.lower key
    below.set name (put value rest (below.get? name))
  | [.index i], below? =>
    let below := below?.getD unset
    below.setItem (place i below.items.length) value
  | .index i :: rest, below? =>
    let below := below?.getD unset
    let index := place i below.items.length
    below.setItem index (put value rest below.items[index]?)

/-- Lays the entries of a file over settings. Their keys may be dotted. -/
def layer (below : Setting) (entries : List (String × Setting)) : Setting :=
  entries.foldl
    (fun below (key, value) =>
      put value ((SettingKey.ofText? key).getD [.name key]) (some below)) below

end Setting

end ParseKit
