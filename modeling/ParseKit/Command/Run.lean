import ParseKit.Command.Help
import ParseKit.Format.Catalog
import ParseKit.Script
import ParseKit.Settings.Loader
import ParseKit.Token.Json

/-! The work of the command line, over any access to files. Settings are loaded before a source is
opened: those of the file that is named, else those of the working directory. -/

namespace ParseKit.Command

structure Outcome where
  code : UInt32 := 0
  output : String := ""
  errors : String := ""
  deriving DecidableEq, Repr

def failure (reason : String) (output : String) : Outcome where
  code := 1
  output := output
  errors := s!"Error: {reason}\n"

def settingsFailure (error : SettingsError) : Outcome :=
  failure ("configuration error: " ++ error.message) ""

def cannotOpen (path reason : String) : Outcome :=
  failure s!"cannot open {path}: {reason}" ""

def missingText : String := "No such file or directory (os error 2)"

def blockedText : String := "Not a directory (os error 20)"

def deniedText : String := "Permission denied (os error 13)"

def tooLongText : String := "File name too long (os error 36)"

/-- Why a directory cannot be read. It is opened like a file, and its first line cannot be read. -/
def directoryError : LexError := ⟨1, .unreadable "Is a directory (os error 21)"⟩

def loader (config? : Option String) : Loader :=
  match config? with
  | some path => ({} : Loader).withFile path
  | none => .discover "."

/-- The listing of tokens, one after each arrow. -/
def listing (tokens : List Token) : String :=
  String.join (tokens.map fun token => "==> " ++ token.text ++ "\n")

/-- Writes the tokens of a source. The listing goes on to the first error, and JSON is written only
for a source without errors. -/
def writeTokens (json : Bool) (source : Source) (options : LexerOptions) : Outcome :=
  match (Lexer.ofSource source options).rest with
  | (tokens, none, _) =>
    if json then { output := (Json.array (tokens.map Token.toJson)).pretty ++ "\n" }
    else { output := listing tokens }
  | (tokens, some error, _) => failure error.message (if json then "" else listing tokens)

def writeProgram (output : OutputSettings) (source : Source) (options : LexerOptions) : Outcome :=
  match Script.parseProgram source options with
  | .error error => failure error.message ""
  | .ok nodes =>
    let catalog := Catalog.standard.add (.parenthesised output.showLines)
    match catalog.write output.format nodes with
    | .ok text => { output := text }
    | .error error => failure error.message ""

def formatTable : String :=
  let line (name : String) : String :=
    let description := ((Catalog.standard.get? name).map (·.description)).getD ""
    "  " ++ Text.padRight 10 name ++ " " ++ description ++ "\n"
  "Available output formats:\n\n" ++ String.join (Catalog.standard.names.map line)

variable {m : Type → Type} [Monad m]

def withSource (files : FileAccess m) (path : String) (work : Source → Outcome) : m Outcome := do
  match ← files.entry path with
  | .missing => return cannotOpen path missingText
  | .blocked => return cannotOpen path blockedText
  | .denied => return cannotOpen path deniedText
  | .tooLong => return cannotOpen path tooLongText
  | .directory => return failure directoryError.message ""
  | .file bytes => return work (.ofBytes bytes)

/-- The loader of a run that parses. What the command line says goes over all files. -/
def parseLoader (config? format? : Option String) (showLines : Bool) : Loader :=
  let l := loader config?
  let l := match format? with
    | some format => l.override "output.format" (.text format)
    | none => l
  if showLines then l.override "output.show_lines" (.boolean true) else l

def Request.run (files : FileAccess m) : Request → m Outcome
  | .formats => return { output := formatTable }
  | .tokens path config? json => do
    match ← (loader config?).build files with
    | .error error => return settingsFailure error
    | .ok settings => withSource files path (writeTokens json · settings.lexer)
  | .parse path config? format? showLines => do
    match ← (parseLoader config? format? showLines).build files with
    | .error error => return settingsFailure error
    | .ok settings =>
      match settings.checkParse with
      | .error error => return settingsFailure error
      | .ok () => withSource files path (writeProgram settings.output · settings.lexer)

def versionText : String := "stone 0.1.0\n"

def Stop.outcome : Stop → Outcome
  | usage => { code := 2, errors := Topic.program.page }
  | help topic => { output := topic.page }
  | version => { output := versionText }

def run (files : FileAccess m) (arguments : List String) : m Outcome :=
  match Request.ofArguments arguments with
  | .ok request => request.run files
  | .error stop => return stop.outcome

end ParseKit.Command
