/-! Arguments of a command line. Switches have a long name and may have a letter. The value of a
switch follows its name after an equals sign or as the next argument, and its letter also directly.
A switch is given at most once, and after two dashes nothing is a switch. -/

namespace ParseKit.Command

inductive Topic where
  | program
  | tokens
  | parse
  | formats
  | help
  deriving DecidableEq, Repr

inductive Stop where
  | usage
  | help (topic : Topic)
  | version
  deriving DecidableEq, Repr

structure Switch where
  name : String
  about : String
  letter? : Option Char := none
  takesValue : Bool := false
  deriving DecidableEq, Repr

structure Signature where
  topic : Topic
  switches : List Switch := []
  takesPath : Bool := false

structure Arguments where
  path? : Option String := none
  /-- The switches that were given, by name, with their values. -/
  given : List (String × Option String) := []
  deriving DecidableEq, Repr

inductive Role where
  | path
  | switch (name : String) (value? : Option String)
  /-- A switch whose value is the next argument. -/
  | awaiting (name : String)
  deriving DecidableEq, Repr

namespace Signature

/-- The role of a switch that is given with an attached value or without one. -/
def switchRole (switch : Switch) (value? : Option String) : Except Stop Role :=
  match switch.takesValue, value? with
  | true, some value => .ok (.switch switch.name (some value))
  | true, none => .ok (.awaiting switch.name)
  | false, none => .ok (.switch switch.name none)
  | false, some _ => .error .usage

/-- The role of an argument that begins with two dashes, which are left out here. -/
def longRole (s : Signature) (text : List Char) : Except Stop Role :=
  let (name, rest) := text.span (· ≠ '=')
  let value? := if rest.isEmpty then none else some (String.ofList rest.tail)
  if name = "help".toList then .error (if rest.isEmpty then .help s.topic else .usage)
  else
    match s.switches.find? fun switch => switch.name.toList = name with
    | some switch => switchRole switch value?
    | none => .error .usage

/-- The role of an argument that begins with one dash, before the given letter. -/
def letterRole (s : Signature) (letter : Char) (rest : List Char) : Except Stop Role :=
  if letter = 'h' then .error (.help s.topic)
  else
    match s.switches.find? fun switch => switch.letter? = some letter with
    | none => .error .usage
    | some switch =>
      match rest with
      | [] => switchRole switch none
      | '=' :: value => switchRole switch (some (String.ofList value))
      | value => switchRole switch (some (String.ofList value))

def role (s : Signature) (argument : String) : Except Stop Role :=
  match argument.toList with
  | '-' :: '-' :: text => s.longRole text
  | '-' :: letter :: rest => s.letterRole letter rest
  | _ => .ok .path

/-- Takes an argument for the path, of which there is at most one. -/
def addPath (s : Signature) (a : Arguments) (path : String) : Except Stop Arguments :=
  if s.takesPath ∧ a.path?.isNone then .ok { a with path? := some path } else .error .usage

end Signature

namespace Arguments

def value? (a : Arguments) (name : String) : Option String :=
  (a.given.lookup name).join

def has (a : Arguments) (name : String) : Bool :=
  (a.given.lookup name).isSome

def add (a : Arguments) (name : String) (value? : Option String) : Except Stop Arguments :=
  if a.has name then .error .usage else .ok { a with given := (name, value?) :: a.given }

end Arguments

/-- Whether an argument is none of the values that follow a switch. -/
def isDashed (argument : String) : Bool :=
  argument.startsWith "-" && argument != "-"

def Signature.readFrom (s : Signature) (a : Arguments) : List String → Except Stop Arguments
  | [] => .ok a
  | argument :: rest =>
    if argument = "--" then rest.foldlM s.addPath a
    else
      match s.role argument, rest with
      | .error stop, _ => .error stop
      | .ok .path, rest => do s.readFrom (← s.addPath a argument) rest
      | .ok (.switch name value?), rest => do s.readFrom (← a.add name value?) rest
      | .ok (.awaiting _), [] => .error .usage
      | .ok (.awaiting name), value :: rest =>
        if isDashed value then .error .usage
        else do s.readFrom (← a.add name (some value)) rest

/-- Reads all arguments of a command. A path has to be there if the command takes one. -/
def Signature.read (s : Signature) (arguments : List String) : Except Stop Arguments := do
  let a ← s.readFrom {} arguments
  if s.takesPath ∧ a.path?.isNone then throw .usage
  return a

end ParseKit.Command
