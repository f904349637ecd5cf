import ParseKit.Command.Request
import ParseKit.Text.Pad

/-! Help pages. A page says what a command is for, how it is called and what it accepts, each list
in two columns. -/

namespace ParseKit.Command

/-- Rows of two columns. The second one starts after the longest text of the first. -/
def columns (rows : List (String × String)) : String :=
  let width := rows.foldl (fun width row => max width row.1.length) 0
  String.join (rows.map fun (label, about) =>
    "  " ++ Text.padRight width label ++ "  " ++ about ++ "\n")

/-- Rows under a heading, if there are any. -/
def titled (heading : String) (rows : List (String × String)) : String :=
  if rows.isEmpty then "" else "\n" ++ heading ++ ":\n" ++ columns rows

/-- A switch as it is given. The names stand in one column, whether there are letters or not. -/
def Switch.label (switch : Switch) : String :=
  let letter := match switch.letter? with
    | some letter => "-" ++ letter.toString ++ ", "
    | none => "    "
  letter ++ "--" ++ switch.name ++ if switch.takesValue then " <" ++ switch.name ++ ">" else ""

def helpSwitch : Switch where
  name := "help"
  about := "Print help"
  letter? := some 'h'

def versionSwitch : Switch where
  name := "version"
  about := "Print version"
  letter? := some 'V'

namespace Topic

def about : Topic → String
  | program => "Lexer and parser front end for the Stone language"
  | tokens => "Print the token stream of a source file"
  | parse => "Parse a source file with the basic grammar and print the tree"
  | formats => "List available output formats"
  | help => "Print this message or the help of the given subcommand(s)"

/-- What follows the name of the program when it is called. -/
def usage : Topic → String
  | program => "<COMMAND>"
  | tokens => "tokens [OPTIONS] <path>"
  | parse => "parse [OPTIONS] <path>"
  | formats => "formats"
  | help => "help [COMMAND]..."

def commandRows : Topic → List (String × String)
  | program => commands.map fun (name, topic) => (name, topic.about)
  | _ => []

def argumentRows : Topic → List (String × String)
  | tokens => [("<path>", "Path to the stone source file")]
  | parse => [("<path>", "Path to the stone source file")]
  | help => [("[COMMAND]...", "Print help for the subcommand(s)")]
  | _ => []

def switches : Topic → List Switch
  | program => [helpSwitch, versionSwitch]
  | tokens => tokensSignature.switches ++ [helpSwitch]
  | parse => parseSignature.switches ++ [helpSwitch]
  | formats => formatsSignature.switches ++ [helpSwitch]
  | help => []

def page (topic : Topic) : String :=
  topic.about ++ "\n\nUsage: stone " ++ topic.usage ++ "\n" ++
    titled "Commands" topic.commandRows ++
    titled "Arguments" topic.argumentRows ++
    titled "Options" (topic.switches.map fun switch => (switch.label, switch.about))

end Topic

end ParseKit.Command
