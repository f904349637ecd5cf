import ParseKit.Node

/-! Assertions about trees. A chain of assertions walks down a tree, and the first one that does
not hold is reported with the path to its node. -/

namespace ParseKit

inductive Assertion where
  | kind (expected : NodeKind)
  /-- The node is a leaf whose token has this text. -/
  | text (expected : String)
  /-- The node is a leaf of this number. -/
  | number (expected : Int)
  | isList
  | childCount (expected : Nat)
  /-- The tree is rendered as this text. -/
  | rendering (expected : String)
  /-- The first token of the tree stands on this line. -/
  | line (expected : Nat)
  /-- All of the assertions hold of this child. -/
  | child (index : Nat) (chain : List Assertion)

namespace Assertion

/-- Passes if the condition holds, else reports what was found at the path. -/
def expect (condition : Bool) (path report : String) : Except String Unit :=
  if condition then .ok () else .error (path ++ ": " ++ report)

def checkText (expected path : String) : Node → Except String Unit
  | .leaf _ token =>
    expect (token.text = expected) path s!"expected leaf text '{expected}', found '{token.text}'"
  | node => expect false path s!"expected a leaf '{expected}', found list {node.render}"

def isNumber (expected : Int) : Node → Bool
  | .leaf _ token => token.numberValue.toOption = some expected
  | .list _ _ => false

mutual

/-- Checks an assertion about the node at `path`. -/
def check (path : String) (node : Node) : Assertion → Except String Unit
  | kind expected =>
    expect (node.kind = expected) path
      s!"expected kind '{expected.name}', found '{node.kind.name}' ({node.render})"
  | text expected => checkText expected path node
  | number expected =>
    expect (isNumber expected node) path s!"expected number {expected}, found {node.render}"
  | isList => expect (!node.isLeaf) path s!"expected a list, found leaf {node.render}"
  | childCount expected =>
    expect (node.children.length = expected) path
      s!"expected {expected} children, found {node.children.length} in {node.render}"
  | rendering expected => expect (node.render = expected) path "rendered tree differs"
  | line expected => expect (node.location = some expected) path s!"expected node on line {expected}"
  | child index chain =>
    match node.child index with
    | .ok found => checkAll s!"{path}[{index}]" found chain
    | .error error => expect false path s!"{error.message} in {node.render}"

/-- Checks the assertions one after the other, up to the first that does not hold. -/
def checkAll (path : String) (node : Node) : List Assertion → Except String Unit
  | [] => .ok ()
  | assertion :: rest => do
    check path node assertion
    checkAll path node rest

end

end Assertion

def Node.assert (node : Node) (chain : List Assertion) : Except String Unit :=
  Assertion.checkAll "root" node chain

end ParseKit
