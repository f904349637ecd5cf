import ParseKit.Decimal.Shortest
import ParseKit.Lexer
import ParseKit.Settings.Value
import ParseKit.Text.Quoted

/-! The settings of the tools, taken out of a tree of values. Truth values may be written as
numbers or words, and texts as truth values or numbers. -/

namespace ParseKit

structure OutputSettings where
  /-- The name of a format. -/
  format : String
  /-- Whether each tree is written after the number of its line. -/
  showLines : Bool
  deriving DecidableEq, Repr

structure Settings where
  lexer : LexerOptions
  output : OutputSettings
  deriving DecidableEq, Repr

/-- A group of settings, with the name it has in messages and the number of its members. -/
structure Section where
  name : String
  size : Nat
  deriving DecidableEq, Repr

inductive SettingsError where
  /-- A value under `key` cannot be taken for what is expected. -/
  | wrongType (found expected key : String) (origin? : Option String)
  /-- A value stands where a group of settings is expected. -/
  | notSection (found : String) (expected : Section)
  /-- A group is given as an array with too few items. -/
  | tooShort (count : Nat) (expected : Section)
  | missingMember (name : String)
  /-- Programs cannot be parsed without end-of-line tokens. -/
  | endOfLineNeeded
  | fileNotFound (path : String)
  /-- The bytes of a file are not UTF-8. -/
  | undecodableFile
  | malformedFile (path : String)
  | malformedKey (key : String)
  deriving DecidableEq, Repr

namespace SettingsError

def elements (n : Nat) : String :=
  if n = 1 then "1 element" else toString n ++ " elements"

def message : SettingsError → String
  | wrongType found expected key origin? =>
    let place := match origin? with
      | some origin => " in " ++ origin
      | none => ""
    s!"invalid type: {found}, expected {expected} for key \x60{key}\x60{place}"
  | notSection found expected => s!"invalid type: {found}, expected struct {expected.name}"
  | tooShort count expected =>
    s!"invalid length {count}, expected struct {expected.name} with {elements expected.size}"
  | missingMember name => s!"missing field \x60{name}\x60"
  | endOfLineNeeded =>
    "lexer.emit_eol = false is only supported by \x60stone tokens\x60; " ++
      "the basic grammar separates statements with end-of-line tokens"
  | fileNotFound path => s!"configuration file \"{path}\" not found"
  | undecodableFile => notUtf8
  | malformedFile path => s!"malformed configuration file \"{path}\""
  | malformedKey key => s!"malformed key \"{key}\""

end SettingsError

namespace Scalar

/-- The text of a float, with a point if it is finite. -/
def floatText (x : Float) : String :=
  let text := Decimal.ofFloat x
  if x.isFinite && !text.toList.contains '.' then text ++ ".0" else text

def describe : Scalar → String
  | boolean b => s!"boolean \x60{b}\x60"
  | integer n => s!"integer \x60{n}\x60"
  | float x => "floating point \x60" ++ floatText x ++ "\x60"
  | text s => "string " ++ Text.quoted s

def toText : Scalar → String
  | boolean b => toString b
  | integer n => toString n
  | float x => Decimal.ofFloat x
  | text s => s

/-- The truth value of a value. Numbers other than zero are true, and so are some words. -/
def toBool? : Scalar → Option Bool
  | boolean b => some b
  | integer n => some (n ≠ 0)
  | float x => some (x != 0.0)
  | text s =>
    if ["1", "true", "on", "yes"].contains (Text.lower s) then some true
    else if ["0", "false", "off", "no"].contains (Text.lower s) then some false
    else none

end Scalar

namespace Setting

def describe : Setting → String
  | unset => "unit value"
  | scalar value _ => value.describe
  | array _ _ => "sequence"
  | table _ _ => "map"

def text (key : String) : Setting → Except SettingsError String
  | scalar value _ => .ok value.toText
  | s => .error (.wrongType s.describe "a string" key s.origin?)

/-- The truth value that stands under a key. Words are named in lower case in messages. -/
def flag (key : String) : Setting → Except SettingsError Bool
  | scalar value origin? =>
    match value.toBool? with
    | some b => .ok b
    | none =>
      let found := "string " ++ Text.quoted (Text.lower value.toText)
      .error (.wrongType found "a boolean" key origin?)
  | s => .error (.wrongType s.describe "a boolean" key s.origin?)

def require {α : Type} (name : String) : Option α → Except SettingsError α
  | some a => .ok a
  | none => .error (.missingMember name)

def lexerSection : Section := ⟨"LexerOptions", 1⟩

def outputSection : Section := ⟨"OutputConfig", 2⟩

/-- The settings of the lexer. An array gives the members in order. -/
def toLexerOptions : Setting → Except SettingsError LexerOptions
  | table entries _ => do
    let emitEol? ← (Entries.get? "emit_eol" entries).mapM (flag "lexer.emit_eol")
    return ⟨← require "emit_eol" emitEol?⟩
  | array (emitEol :: _) _ => do return ⟨← emitEol.flag "lexer[0]"⟩
  | array [] _ => .error (.tooShort 0 lexerSection)
  | s => .error (.notSection s.describe lexerSection)

/-- The settings of the output. An array gives the members in order. -/
def toOutputSettings : Setting → Except SettingsError OutputSettings
  | table entries _ => do
    let format? ← (Entries.get? "format" entries).mapM (text "output.format")
    let showLines? ← (Entries.get? "show_lines" entries).mapM (flag "output.show_lines")
    return ⟨← require "format" format?, ← require "show_lines" showLines?⟩
  | array (format :: rest) _ => do
    let format ← format.text "output[0]"
    match rest with
    | showLines :: _ => return ⟨format, ← showLines.flag "output[1]"⟩
    | [] => throw (.tooShort 1 outputSection)
  | array [] _ => .error (.tooShort 0 outputSection)
  | s => .error (.notSection s.describe outputSection)

def toSettings (s : Setting) : Except SettingsError Settings := do
  let lexer? ← (s.get? "lexer").mapM toLexerOptions
  let output? ← (s.get? "output").mapM toOutputSettings
  return ⟨← require "lexer" lexer?, ← require "output" output?⟩

end Setting

def Settings.checkParse (s : Settings) : Except SettingsError Unit :=
  if s.lexer.emitEol then .ok () else .error .endOfLineNeeded

end ParseKit
