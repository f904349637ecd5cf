import ParseKit.LexError
import ParseKit.Node

/-! Errors of defining a grammar and of parsing with it. -/

namespace ParseKit

inductive Shape where
  | token
  | list
  deriving DecidableEq, Repr

def Shape.name : Shape → String
  | token => "token"
  | list => "list"

/-- Defects of a grammar. No input causes them. -/
inductive GrammarError where
  | missingFactory (kind : NodeKind) (shape : Shape)
  | undefinedRule (name : String)
  | unknownRule (id : Nat)
  | notAnAlternation (name : String)
  | constructionFailed (kind : NodeKind) (reason : String)
  /-- A rule comes back to itself before it takes a token. -/
  | leftRecursion
  deriving DecidableEq, Repr

def GrammarError.message : GrammarError → String
  | missingFactory kind shape =>
    s!"no {shape.name} factory or constructor registered for node kind '{kind.name}'"
  | undefinedRule name => s!"rule '{name}' was declared but never defined"
  | unknownRule id => s!"rule id {id} does not belong to this grammar"
  | notAnAlternation name => s!"rule '{name}' does not start with an alternation"
  | constructionFailed kind reason => s!"building a '{kind.name}' node failed: {reason}"
  | leftRecursion => "a rule calls itself before it takes a token"

inductive ParseError where
  | lex (error : LexError)
  /-- An expected element is absent where `found` stands. -/
  | unexpected (found : Token)
  /-- A builder refused its argument, which starts on the given line. -/
  | invalidArgument (kind : NodeKind) (line? : Option Nat) (reason : String)
  | grammar (error : GrammarError)
  deriving DecidableEq, Repr

namespace ParseError

def line? : ParseError → Option Nat
  | lex error => some error.line
  | unexpected found => found.line?
  | invalidArgument _ line? _ => line?
  | grammar _ => none

def isRecoverable : ParseError → Bool
  | unexpected _ => true
  | invalidArgument _ _ _ => true
  | lex _ => false
  | grammar _ => false

/-- Where a token stands, for people to read. -/
def around (found : Token) : String :=
  match found.line? with
  | some line => s!"\"{found.text}\" at line {line}"
  | none => "the last line"

/-- Where the argument of a builder starts, for people to read. -/
def place : Option Nat → String
  | some line => s!"at line {line}"
  | none => "at end of input"

def message : ParseError → String
  | lex error => error.message
  | unexpected found => s!"syntax error around {around found}"
  | invalidArgument kind line? reason => s!"cannot build '{kind.name}' {place line?}: {reason}"
  | grammar error => error.message

end ParseError

end ParseKit
