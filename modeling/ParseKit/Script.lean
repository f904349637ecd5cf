import ParseKit.Grammar.Parse
import ParseKit.Lexer

/-! A small statement language as a grammar.

    primary   : "(" expr ")" | NUMBER | IDENTIFIER | STRING
    factor    : "-" primary | primary
    expr      : factor ( OP factor )*
    block     : "{" statement? ( (";" | EOL) statement? )* "}"
    simple    : expr
    statement : "if" expr block ( "else" block )? | "while" expr block | simple
    program   : statement? (";" | EOL)

The reserved words never parse as names. A parenthesised expression is the inner expression, and
keywords and punctuation leave no node. `Draft.addScript` adds the rules to any draft, so a richer
language can be laid over them with `Draft.insertChoice`. -/

namespace ParseKit

namespace Script

def numberKind : NodeKind := ⟨"number"⟩
def nameKind : NodeKind := ⟨"name"⟩
def stringKind : NodeKind := ⟨"string"⟩
def negativeKind : NodeKind := ⟨"negative_expr"⟩
def binaryKind : NodeKind := ⟨"binary_expr"⟩
def primaryKind : NodeKind := ⟨"primary_expr"⟩
def blockKind : NodeKind := ⟨"block"⟩
def ifKind : NodeKind := ⟨"if_stmt"⟩
def whileKind : NodeKind := ⟨"while_stmt"⟩
def nullKind : NodeKind := ⟨"null_stmt"⟩

def keywords : List String := ["if", "while", "else"]

def separators : List String := [";", endOfLineText]

def operators : Operators :=
  .ofList [("=", ⟨1, .right⟩), ("==", ⟨2, .left⟩), (">", ⟨2, .left⟩), ("<", ⟨2, .left⟩),
    ("+", ⟨3, .left⟩), ("-", ⟨3, .left⟩), ("*", ⟨4, .left⟩), ("/", ⟨4, .left⟩), ("%", ⟨4, .left⟩)]

/-- The numbers of the rules that a user of the language may ask for. -/
structure Rules where
  primary : RuleId
  factor : RuleId
  expr : RuleId
  block : RuleId
  simple : RuleId
  statement : RuleId
  program : RuleId
  deriving DecidableEq, Repr

def register (registry : Registry) : Registry :=
  let registry := [numberKind, nameKind, stringKind].foldl Registry.addLeaf registry
  let registry := registry.addListBuilder primaryKind (.flattenOrWrap primaryKind)
  [negativeKind, binaryKind, blockKind, ifKind, whileKind, nullKind].foldl
    (fun registry kind => registry.addListConstructor kind (.wrap kind)) registry

end Script

namespace Draft

open Script

def addScript (draft : Draft) : Except GrammarError (Script.Rules × Draft) := do
  let draft := draft.registering register
  let (expr, draft) := draft.declare "expr"
  let (statement, draft) := draft.declare "statement"
  let (paren, draft) := draft.add (Rule.untyped.separator ["("] |>.tree expr |>.separator [")"])
  let (number, draft) := draft.add (Rule.untyped.number numberKind)
  let (name, draft) := draft.add (Rule.untyped.identifier nameKind keywords)
  let (string, draft) := draft.add (Rule.untyped.string stringKind)
  let (primary, draft) := draft.addNamed "primary"
    ((Rule.of primaryKind).choice [paren, number, name, string])
  let (negative, draft) := draft.add ((Rule.of negativeKind).separator ["-"] |>.tree primary)
  let (factor, draft) := draft.addNamed "factor" (Rule.untyped.choice [negative, primary])
  let draft ← draft.define expr (Rule.untyped.expression binaryKind factor operators)
  let (blockItem, draft) := draft.add (Rule.untyped.separator separators |>.optional statement)
  let (block, draft) := draft.addNamed "block"
    ((Rule.of blockKind).separator ["\x7b"] |>.optional statement |>.many blockItem
      |>.separator ["\x7d"])
  let (simple, draft) := draft.addNamed "simple" ((Rule.of primaryKind).tree expr)
  let (elsePart, draft) := draft.add (Rule.untyped.separator ["else"] |>.tree block)
  let (ifRule, draft) := draft.addNamed "if"
    ((Rule.of ifKind).separator ["if"] |>.tree expr |>.tree block |>.optional elsePart)
  let (whileRule, draft) := draft.addNamed "while"
    ((Rule.of whileKind).separator ["while"] |>.tree expr |>.tree block)
  let draft ← draft.define statement (Rule.untyped.choice [ifRule, whileRule, simple])
  -- An empty statement only matches right before a separator.
  let (fullLine, draft) := draft.add (Rule.untyped.tree statement |>.separator separators)
  let (nullLine, draft) := draft.add ((Rule.of nullKind).separator separators)
  let (program, draft) := draft.addNamed "program" (Rule.untyped.choice [fullLine, nullLine])
  return (⟨primary, factor, expr, block, simple, statement, program⟩, draft)

end Draft

namespace Script

structure Parser where
  grammar : Grammar
  rules : Rules

/-- Builds the grammar of the language, and the journal of doing so. -/
def parser : Except GrammarError Parser × Journal :=
  match ({} : Draft).addScript with
  | .error error => (.error error, [])
  | .ok (rules, draft) =>
    match draft.build with
    | (.error error, registry) => (.error error, registry.journal)
    | (.ok grammar, registry) => (.ok ⟨grammar, rules⟩, registry.journal)

namespace Parser

variable {σ : Type} [TokenStream σ]

def parse (p : Parser) : ParseM σ Node :=
  p.grammar.parse p.rules.program

def parseAll (p : Parser) : ParseM σ (List Node) :=
  p.grammar.parseAll p.rules.program

end Parser

def parseProgram (source : Source) (options : LexerOptions) : Except ParseError (List Node) :=
  match parser.1 with
  | .error error => .error (.grammar error)
  | .ok p => (p.parseAll (Lexer.ofSource source options)).1

end Script

end ParseKit
