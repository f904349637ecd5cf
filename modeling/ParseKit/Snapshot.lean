import ParseKit.Json
import ParseKit.Node

/-! Snapshots: trees in a plain shape that stays the same whatever is made of the nodes. A snapshot
holds the name of the node's kind, the text of a leaf, the line the node starts on and the
snapshots of the children. -/

namespace ParseKit

inductive Snapshot where
  | mk (nodeType label : String) (line? : Option Nat) (children : List Snapshot)

namespace Snapshot

def nodeType : Snapshot → String
  | mk nodeType _ _ _ => nodeType

def label : Snapshot → String
  | mk _ label _ _ => label

def line? : Snapshot → Option Nat
  | mk _ _ line? _ => line?

def children : Snapshot → List Snapshot
  | mk _ _ _ children => children

def withLine (line? : Option Nat) : Snapshot → Snapshot
  | mk nodeType label _ children => mk nodeType label line? children

def withChildren (more : List Snapshot) : Snapshot → Snapshot
  | mk nodeType label line? children => mk nodeType label line? (children ++ more)

mutual

def ofNode : Node → Snapshot
  | .leaf kind token => mk kind.name token.text token.line? []
  | .list kind children =>
    mk kind.name "" (Node.locationAmong children) (ofNodes children)

def ofNodes : List Node → List Snapshot
  | [] => []
  | node :: rest => ofNode node :: ofNodes rest

end

/-- The member for a line, which is left out where there is none. -/
def lineMember : Option Nat → List (String × Json)
  | some line => [("line", .ofNat line)]
  | none => []

mutual

/-- The members are the type, the label, and where they are there the line and the children. -/
def toJson : Snapshot → Json
  | mk nodeType label line? [] =>
    .ofMembers ([("node_type", .ofString nodeType), ("label", .ofString label)] ++ lineMember line?)
  | mk nodeType label line? (child :: rest) =>
    .ofMembers ([("node_type", .ofString nodeType), ("label", .ofString label)] ++
      lineMember line? ++ [("children", .array (toJsonAll (child :: rest)))])

def toJsonAll : List Snapshot → List Json
  | [] => []
  | snapshot :: rest => snapshot.toJson :: toJsonAll rest

end

end Snapshot

end ParseKit
