import ParseKit.Journal
import ParseKit.ParseError
import ParseKit.Table

/-! How nodes of each kind are built. A builder takes either one token or the children that a rule
collected. For each of the two shapes a registry holds registered builders and constructors, and a
builder goes before a constructor. Kinds that opted in fall back to `flattenOrWrap` for lists.
What was resolved once is remembered until something is registered for the kind again. -/

namespace ParseKit

inductive BuildError where
  /-- The argument is not one for this builder; an alternation may try its next option. -/
  | invalidArgument (reason : String)
  /-- The builder itself is at fault. -/
  | failed (reason : String)
  deriving DecidableEq, Repr

abbrev Builder (α : Type) := α → Except BuildError Node

/-- A resolved builder, with the kind it was resolved for. -/
structure Factory (α : Type) where
  kind : NodeKind
  build : Builder α

/-- Builds a node. `line?` is where the argument starts. -/
def Factory.makeAt {α : Type} (factory : Factory α) (line? : Option Nat) (argument : α) :
    Except ParseError Node :=
  match factory.build argument with
  | .ok node => .ok node
  | .error (.invalidArgument reason) => .error (.invalidArgument factory.kind line? reason)
  | .error (.failed reason) => .error (.grammar (.constructionFailed factory.kind reason))

def Factory.ofToken (factory : Factory Token) (token : Token) : Except ParseError Node :=
  factory.makeAt token.line? token

def Factory.ofChildren (factory : Factory (List Node)) (children : List Node) :
    Except ParseError Node :=
  factory.makeAt (Node.locationAmong children) children

namespace Builder

def leaf (kind : NodeKind) : Builder Token :=
  fun token => .ok (.leaf kind token)

def wrap (kind : NodeKind) : Builder (List Node) :=
  fun children => .ok (.list kind children)

/-- A single child stands for itself, any other number of children is wrapped in a list. -/
def flattenOrWrap (kind : NodeKind) : Builder (List Node)
  | [child] => .ok child
  | children => .ok (.list kind children)

end Builder

structure Shelf (α : Type) where
  builders : Table NodeKind (Builder α) := ∅
  constructors : Table NodeKind (Builder α) := ∅
  resolved : Table NodeKind (Factory α) := ∅

namespace Shelf

variable {α : Type}

def forget (shelf : Shelf α) (kind : NodeKind) : Shelf α :=
  { shelf with resolved := shelf.resolved.erase kind }

def addBuilder (shelf : Shelf α) (kind : NodeKind) (build : Builder α) : Shelf α :=
  { shelf.forget kind with builders := shelf.builders.insert kind build }

def addConstructor (shelf : Shelf α) (kind : NodeKind) (build : Builder α) : Shelf α :=
  { shelf.forget kind with constructors := shelf.constructors.insert kind build }

/-- The registered builder of a kind, else its constructor. -/
def registered? (shelf : Shelf α) (kind : NodeKind) : Option (Builder α) :=
  shelf.builders.get? kind <|> shelf.constructors.get? kind

def remember (shelf : Shelf α) (factory : Factory α) : Shelf α :=
  { shelf with resolved := shelf.resolved.insert factory.kind factory }

end Shelf

structure Registry where
  tokens : Shelf Token := {}
  lists : Shelf (List Node) := {}
  /-- The kinds whose lists may be built by `flattenOrWrap`. -/
  defaults : List NodeKind := []
  journal : Journal := []

namespace Registry

def addTokenBuilder (r : Registry) (kind : NodeKind) (build : Builder Token) : Registry :=
  { r with tokens := r.tokens.addBuilder kind build }

def addTokenConstructor (r : Registry) (kind : NodeKind) (build : Builder Token) : Registry :=
  { r with tokens := r.tokens.addConstructor kind build }

def addListBuilder (r : Registry) (kind : NodeKind) (build : Builder (List Node)) : Registry :=
  { r with lists := r.lists.addBuilder kind build }

def addListConstructor (r : Registry) (kind : NodeKind) (build : Builder (List Node)) : Registry :=
  { r with lists := r.lists.addConstructor kind build }

def addLeaf (r : Registry) (kind : NodeKind) : Registry :=
  r.addTokenConstructor kind (.leaf kind)

/-- Lets lists of this kind fall back to `flattenOrWrap`. -/
def addDefault (r : Registry) (kind : NodeKind) : Registry :=
  { r with lists := r.lists.forget kind, defaults := kind :: r.defaults }

def initial : Registry :=
  (({} : Registry).addLeaf .leaf).addDefault .list

instance : Inhabited Registry := ⟨initial⟩

def debug (r : Registry) (text : String) : Registry :=
  { r with journal := ⟨.debug, text⟩ :: r.journal }

def default? (r : Registry) (kind : NodeKind) : Option (Builder (List Node)) :=
  if kind ∈ r.defaults then some (.flattenOrWrap kind) else none

def resolveToken (kind : NodeKind) (r : Registry) : Except GrammarError (Factory Token) × Registry :=
  match r.tokens.resolved.get? kind with
  | some factory => (.ok factory, r)
  | none =>
    match r.tokens.registered? kind with
    | none => (.error (.missingFactory kind .token), r)
    | some build =>
      let factory : Factory Token := ⟨kind, build⟩
      let r := r.debug s!"resolved token factory for '{kind.name}'"
      (.ok factory, { r with tokens := r.tokens.remember factory })

def resolveList (kind : NodeKind) (r : Registry) :
    Except GrammarError (Factory (List Node)) × Registry :=
  match r.lists.resolved.get? kind with
  | some factory => (.ok factory, r)
  | none =>
    match r.lists.registered? kind <|> r.default? kind with
    | none => (.error (.missingFactory kind .list), r)
    | some build =>
      let factory : Factory (List Node) := ⟨kind, build⟩
      let r := r.debug s!"resolved list factory for '{kind.name}'"
      (.ok factory, { r with lists := r.lists.remember factory })

end Registry

end ParseKit
