import ParseKit.Grammar.Build
import ParseKit.TokenStream

/-! Parsing with a grammar. An element is asked two things: whether it could start at the current
token, and to take its tokens and give its nodes. Both are written over what the rules it refers to
answer; the answers of the rules are then tied together by recursion on a depth. Between two tokens
a chain of rule calls meets no rule twice, unless the grammar is left-recursive, so a depth of the
number of rules for each token is enough. -/

namespace ParseKit

/-- Parsing moves a stream and may fail. The stream keeps its state after a failure. -/
abbrev ParseM (σ : Type) := ExceptT ParseError (StateM σ)

namespace ParseM

variable {σ : Type} [TokenStream σ]

def peek (k : Nat) : ParseM σ Token :=
  fun s =>
    match TokenStream.peek k s with
    | (.ok token, s) => (.ok token, s)
    | (.error error, s) => (.error (.lex error), s)

def read : ParseM σ Token :=
  fun s =>
    match TokenStream.read s with
    | (.ok token, s) => (.ok token, s)
    | (.error error, s) => (.error (.lex error), s)

def cursor : ParseM σ Nat :=
  fun s => (.ok (TokenStream.cursor s), s)

def unread : ParseM σ Nat :=
  fun s => (.ok (TokenStream.unread s), s)

def checkpoint : ParseM σ Checkpoint :=
  fun s => let (mark, s) := TokenStream.checkpoint s; (.ok mark, s)

def rewind (mark : Checkpoint) : ParseM σ Unit :=
  fun s => (.ok (), TokenStream.rewind mark s)

def commit : ParseM σ Unit :=
  fun s => (.ok (), TokenStream.commit s)

def trace (text : String) : ParseM σ Unit :=
  fun s => (.ok (), TokenStream.report ⟨.trace, text⟩ s)

def ofGrammar {α : Type} : Except GrammarError α → ParseM σ α
  | .ok a => pure a
  | .error error => throw (.grammar error)

def attempt {α : Type} (parse : ParseM σ α) : ParseM σ (Except ParseError α) :=
  fun s => let (result, s) := parse s; (.ok result, s)

def unexpected {α : Type} : ParseM σ α := do
  throw (.unexpected (← peek 0))

end ParseM

open ParseM

variable {σ : Type} [TokenStream σ]

def TokenClass.take (what : TokenClass) : ParseM σ Token := do
  let next ← peek 0
  if what.accepts next then read else throw (.unexpected next)

namespace Element

/-- Whether an element could start here, when `starts` tells it of rules. Nothing is taken. -/
def startsWith (starts : RuleId → ParseM σ Bool) : Element → ParseM σ Bool
  | keep what _ => return what.accepts (← peek 0)
  | drop what => return what.accepts (← peek 0)
  | tree rule => starts rule
  | choice rules => rules.anyM starts
  | repeated rule _ => starts rule
  | orEmpty rule => starts rule
  | expression _ factor _ => starts factor

/-- Whether a sequence of elements could start here. Optional elements that could not start are
passed over, and an empty sequence always starts. -/
def allStartWith (starts : RuleId → ParseM σ Bool) : List Element → ParseM σ Bool
  | [] => return true
  | element :: rest => do
    if ← element.startsWith starts then return true
    if element.isOptional then allStartWith starts rest else return false

end Element

namespace Grammar

/-- Whether a rule could start here, found by at most `depth` nested rules. -/
def startsWithin (g : Grammar) (depth : Nat) (id : RuleId) : ParseM σ Bool := do
  let rule ← ofGrammar (g.rule id)
  match depth with
  | 0 => throw (.grammar .leftRecursion)
  | depth + 1 => Element.allStartWith (g.startsWithin depth) rule.elements

/-- Whether a rule could start at the current token. Nothing is taken. -/
def starts (g : Grammar) (id : RuleId) : ParseM σ Bool :=
  g.startsWithin (g.size + 1) id

def makeToken (g : Grammar) (kind : NodeKind) (token : Token) : ParseM σ Node := do
  let factory ← ofGrammar (g.tokenFactory kind)
  ofExcept (factory.ofToken token)

def makeList (g : Grammar) (kind : NodeKind) (children : List Node) : ParseM σ Node := do
  let factory ← ofGrammar (g.listFactory kind)
  ofExcept (factory.ofChildren children)

/-- How rules are run while an element is parsed: a parser for each rule, and a bound on the
tokens that can still be taken. -/
structure Runner (σ : Type) where
  parse : RuleId → ParseM σ Node
  bound : Nat

/-- The first alternative that parses. Those that could not start are passed over, and the stream
is put back after each that fails. `last?` is the latest recoverable failure. -/
def parseChoice (g : Grammar) (run : Runner σ) (last? : Option ParseError) :
    List RuleId → ParseM σ Node
  | [] =>
    match last? with
    | some error => throw error
    | none => unexpected
  | id :: rest => do
    if ← g.starts id then
      let mark ← checkpoint
      match ← attempt (run.parse id) with
      | .ok node =>
        commit
        return node
      | .error error =>
        if error.isRecoverable then
          let name := (g.ruleName? id).getD "?"
          trace s!"alternative '{name}' rejected: {error.message}"
          rewind mark
          g.parseChoice run (some error) rest
        else
          rewind mark
          throw error
    else g.parseChoice run last? rest

/-- Runs a rule as often as it can start and takes something, at most `bound` times. Generic empty
lists are left out. -/
def parseRepeated (g : Grammar) (run : Runner σ) (id : RuleId) (once : Bool) :
    Nat → ParseM σ (List Node)
  | 0 => throw (.grammar .leftRecursion)
  | bound + 1 => do
    if ← g.starts id then
      let start ← cursor
      let node ← run.parse id
      let nodes := if node.isGenericEmpty then [] else [node]
      if once || (← cursor) == start then return nodes
      return nodes ++ (← g.parseRepeated run id once bound)
    else return []

def nextOperator (operators : Operators) : ParseM σ (Option Precedence) := do
  let next ← peek 0
  return if next.isIdentifier || next.isOperator then operators.get? next.text else none

/-- Extends `left` by the operators that follow it and belong to it. Inside the right operand of an
operator, which `outer?` then is, these are the operators that it yields to. -/
def parseOperators (g : Grammar) (run : Runner σ) (kind : NodeKind) (factor : RuleId)
    (operators : Operators) (outer? : Option Precedence) (left : Node) : Nat → ParseM σ Node
  | 0 => throw (.grammar .leftRecursion)
  | bound + 1 => do
    match ← nextOperator operators with
    | none => return left
    | some precedence =>
      if outer?.all (·.yieldsTo precedence) then
        let leaf ← ofGrammar (g.tokenFactory .leaf)
        let operator ← ofExcept (leaf.ofToken (← read))
        let right ← run.parse factor
        let right ← g.parseOperators run kind factor operators (some precedence) right bound
        let node ← g.makeList kind [left, operator, right]
        g.parseOperators run kind factor operators outer? node bound
      else return left

def parseElement (g : Grammar) (run : Runner σ) : Element → ParseM σ (List Node)
  | .keep what kind => do
    let token ← what.take
    return [← g.makeToken kind token]
  | .drop what => do
    let _ ← what.take
    return []
  | .tree id => return [← run.parse id]
  | .choice ids => return [← g.parseChoice run none ids]
  | .repeated id once => g.parseRepeated run id once (run.bound + 1)
  | .orEmpty id => do
    if ← g.starts id then return [← run.parse id]
    let rule ← ofGrammar (g.rule id)
    return [← g.makeList rule.kind []]
  | .expression kind factor operators => do
    let left ← run.parse factor
    return [← g.parseOperators run kind factor operators none left (run.bound + 1)]

/-- The nodes that a sequence of elements gives, in order. -/
def parseElements (g : Grammar) (run : Runner σ) : List Element → ParseM σ (List Node)
  | [] => return []
  | element :: rest => do
    let nodes ← g.parseElement run element
    return nodes ++ (← g.parseElements run rest)

/-- Parses a rule by at most `depth` nested rules, over at most `bound` tokens. -/
def parseWithin (g : Grammar) (bound depth : Nat) (id : RuleId) : ParseM σ Node := do
  let rule ← ofGrammar (g.rule id)
  match depth with
  | 0 => throw (.grammar .leftRecursion)
  | depth + 1 =>
    let nodes ← g.parseElements ⟨g.parseWithin bound depth, bound⟩ rule.elements
    g.makeList rule.kind nodes

/-- Parses a rule over at most `bound` tokens. -/
def parseBounded (g : Grammar) (bound : Nat) (id : RuleId) : ParseM σ Node :=
  g.parseWithin bound (g.size * (bound + 1) + 1) id

def parse (g : Grammar) (id : RuleId) : ParseM σ Node := do
  g.parseBounded (← unread) id

/-- Parses a rule again and again up to the end of the input, at most `limit` times. -/
def parseUpTo (g : Grammar) (bound : Nat) (id : RuleId) : Nat → ParseM σ (List Node)
  | 0 => throw (.grammar .leftRecursion)
  | limit + 1 => do
    if (← peek 0).isEndOfInput then return []
    let start ← cursor
    let node ← g.parseBounded bound id
    if (← cursor) == start then unexpected
    return node :: (← g.parseUpTo bound id limit)

/-- Parses a rule again and again up to the end of the input. A round that takes nothing fails. -/
def parseAll (g : Grammar) (id : RuleId) : ParseM σ (List Node) := do
  let bound ← unread
  g.parseUpTo bound id (bound + 1)

end Grammar

end ParseKit
