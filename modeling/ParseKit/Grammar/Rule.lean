import ParseKit.Node
import ParseKit.Operators

/-! Rules of a grammar. A rule is a sequence of elements and names the kind of node it builds.
Elements refer to rules by their number in the grammar, so rules may be recursive. -/

namespace ParseKit

abbrev RuleId := Nat

inductive TokenClass where
  | number
  /-- Identifiers other than the reserved ones. -/
  | identifier (reserved : List String)
  | string
  /-- Tokens spelled in one of the given ways. -/
  | spelled (texts : List String)
  deriving DecidableEq, Repr

def TokenClass.accepts : TokenClass → Token → Bool
  | number, token => token.isNumber
  | identifier reserved, token => token.isIdentifier && !reserved.contains token.text
  | string, token => token.isString
  | spelled texts, token => texts.any token.isSpelled

inductive Element where
  /-- A token that is kept as a node of the given kind. -/
  | keep (what : TokenClass) (kind : NodeKind)
  /-- A token that leaves no node. -/
  | drop (what : TokenClass)
  /-- What another rule builds, as a single node. -/
  | tree (rule : RuleId)
  /-- The first of several rules that parses. -/
  | choice (rules : List RuleId)
  /-- A rule as often as it can start; with `once`, at most one time. -/
  | repeated (rule : RuleId) (once : Bool)
  /-- A rule, or the node it builds from no children where it cannot start. -/
  | orEmpty (rule : RuleId)
  /-- A chain of factors joined by binary operators, built into nodes of the given kind. -/
  | expression (kind : NodeKind) (factor : RuleId) (operators : Operators)

namespace Element

/-- Whether the element may be absent, so that a rule can start with what follows it. -/
def isOptional : Element → Bool
  | repeated _ _ => true
  | orEmpty _ => true
  | _ => false

def rules : Element → List RuleId
  | keep _ _ => []
  | drop _ => []
  | tree rule => [rule]
  | choice rules => rules
  | repeated rule _ => [rule]
  | orEmpty rule => [rule]
  | expression _ factor _ => [factor]

/-- The kinds of nodes that an element builds from tokens. Operators become generic leaves. -/
def tokenKinds : Element → List NodeKind
  | keep _ kind => [kind]
  | expression _ _ _ => [.leaf]
  | _ => []

def listKinds : Element → List NodeKind
  | expression kind _ _ => [kind]
  | _ => []

end Element

structure Rule where
  kind : NodeKind := .list
  elements : List Element := []

namespace Rule

/-- A rule without elements that builds nodes of the given kind. -/
def of (kind : NodeKind) : Rule where
  kind := kind

/-- A rule without elements and without a kind of its own. -/
def untyped : Rule := {}

def push (rule : Rule) (element : Element) : Rule :=
  { rule with elements := rule.elements ++ [element] }

def number (rule : Rule) (kind : NodeKind) : Rule :=
  rule.push (.keep .number kind)

def identifier (rule : Rule) (kind : NodeKind) (reserved : List String) : Rule :=
  rule.push (.keep (.identifier reserved) kind)

def string (rule : Rule) (kind : NodeKind) : Rule :=
  rule.push (.keep .string kind)

/-- One of the given spellings, kept as a generic leaf. -/
def token (rule : Rule) (texts : List String) : Rule :=
  rule.push (.keep (.spelled texts) .leaf)

def separator (rule : Rule) (texts : List String) : Rule :=
  rule.push (.drop (.spelled texts))

def tree (rule : Rule) (id : RuleId) : Rule :=
  rule.push (.tree id)

def choice (rule : Rule) (ids : List RuleId) : Rule :=
  rule.push (.choice ids)

def many (rule : Rule) (id : RuleId) : Rule :=
  rule.push (.repeated id false)

def optional (rule : Rule) (id : RuleId) : Rule :=
  rule.push (.repeated id true)

def orEmpty (rule : Rule) (id : RuleId) : Rule :=
  rule.push (.orEmpty id)

def expression (rule : Rule) (kind : NodeKind) (factor : RuleId) (operators : Operators) : Rule :=
  rule.push (.expression kind factor operators)

end Rule

end ParseKit
