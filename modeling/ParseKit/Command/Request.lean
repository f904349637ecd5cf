import ParseKit.Command.Arguments

/-! What a command line asks for. -/

namespace ParseKit.Command

inductive Request where
  /-- The tokens of a source. -/
  | tokens (path : String) (config? : Option String) (json : Bool)
  /-- The trees of a program. -/
  | parse (path : String) (config? format? : Option String) (showLines : Bool)
  /-- The names of the formats. -/
  | formats
  deriving DecidableEq, Repr

def configSwitch : Switch where
  name := "config"
  about := "Configuration file layered over the defaults"
  letter? := some 'c'
  takesValue := true

def jsonSwitch : Switch where
  name := "json"
  about := "Print the tokens as a JSON array"

def formatSwitch : Switch where
  name := "format"
  about := "Output format (see `stone formats`)"
  letter? := some 'f'
  takesValue := true

def showLinesSwitch : Switch where
  name := "show-lines"
  about := "Prefix statements with their line (sexp format)"

def tokensSignature : Signature where
  topic := .tokens
  switches := [jsonSwitch, configSwitch]
  takesPath := true

def parseSignature : Signature where
  topic := .parse
  switches := [formatSwitch, showLinesSwitch, configSwitch]
  takesPath := true

def formatsSignature : Signature where
  topic := .formats

def commands : List (String × Topic) :=
  [("tokens", .tokens), ("parse", .parse), ("formats", .formats), ("help", .help)]

/-- Why the arguments of `help` ask for no work. -/
def helpStop : List String → Stop
  | [] => .help .program
  | [name] =>
    match commands.lookup name with
    | some topic => .help topic
    | none => .usage
  | _ => .usage

/-- Why an argument in the place of a command asks for no work. -/
def stopOf (argument : String) : Stop :=
  match argument.toList with
  | '-' :: 'h' :: _ => .help .program
  | '-' :: 'V' :: _ => .version
  | _ =>
    if argument = "--help" then .help .program
    else if argument = "--version" then .version
    else .usage

namespace Request

def ofArguments : List String → Except Stop Request
  | [] => .error .usage
  | command :: arguments =>
    match command with
    | "tokens" => do
      let a ← tokensSignature.read arguments
      return tokens (a.path?.getD "") (a.value? "config") (a.has "json")
    | "parse" => do
      let a ← parseSignature.read arguments
      return parse (a.path?.getD "") (a.value? "config") (a.value? "format") (a.has "show-lines")
    | "formats" => do
      let _ ← formatsSignature.read arguments
      return formats
    | "help" => .error (helpStop arguments)
    | command => .error (stopOf command)

end Request

end ParseKit.Command
