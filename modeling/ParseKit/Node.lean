import ParseKit.Token

/-! Trees: a leaf wraps one token, a list owns its children in order. What a node stands for in a
grammar is its kind. -/

namespace ParseKit

/-- The type of a node, as a grammar names it. -/
structure NodeKind where
  name : String
  deriving DecidableEq, Repr

def NodeKind.leaf : NodeKind := ⟨"leaf"⟩

/-- The kind of a list that no grammar gave a kind of its own. -/
def NodeKind.list : NodeKind := ⟨"list"⟩

inductive Node where
  | leaf (kind : NodeKind) (token : Token)
  | list (kind : NodeKind) (children : List Node)

instance : Inhabited Node := ⟨.list .list []⟩

inductive ChildError where
  | outOfRange (index count : Nat)
  | leafHasNoChildren (index : Nat)
  deriving DecidableEq, Repr

def ChildError.message : ChildError → String
  | outOfRange index count =>
    s!"child index {index} out of range for node with {count} children"
  | leafHasNoChildren index =>
    s!"leaf nodes have no children (asked for child {index})"

namespace Node

def kind : Node → NodeKind
  | leaf kind _ => kind
  | list kind _ => kind

def isLeaf : Node → Bool
  | leaf _ _ => true
  | list _ _ => false

def children : Node → List Node
  | leaf _ _ => []
  | list _ children => children

def token? : Node → Option Token
  | leaf _ token => some token
  | list _ _ => none

def child (index : Nat) : Node → Except ChildError Node
  | leaf _ _ => .error (.leafHasNoChildren index)
  | list _ children =>
    match children[index]? with
    | some child => .ok child
    | none => .error (.outOfRange index children.length)

/-- The text of a leaf's token, the name of a list's kind. -/
def label : Node → String
  | leaf _ token => token.text
  | list kind _ => kind.name

def isGenericEmpty : Node → Bool
  | list kind [] => kind = .list
  | _ => false

mutual

def location : Node → Option Nat
  | leaf _ token => token.line?
  | list _ children => locationAmong children

def locationAmong : List Node → Option Nat
  | [] => none
  | node :: rest => node.location <|> locationAmong rest

end

mutual

/-- A leaf as the text of its token, a list as its children in parentheses. -/
def render : Node → String
  | leaf _ token => token.text
  | list _ children => "(" ++ renderAll children ++ ")"

/-- The renderings of several nodes, with single spaces between them. -/
def renderAll : List Node → String
  | [] => ""
  | [node] => node.render
  | node :: rest => node.render ++ " " ++ renderAll rest

end

mutual

/-- Equality of trees: kinds, tokens with their lines, and children. -/
def same : Node → Node → Bool
  | leaf k s, leaf l t => k = l && s = t
  | list k xs, list l ys => k = l && sameAll xs ys
  | _, _ => false

def sameAll : List Node → List Node → Bool
  | [], [] => true
  | x :: xs, y :: ys => same x y && sameAll xs ys
  | _, _ => false

end

mutual

theorem same_iff : ∀ x y : Node, same x y = true ↔ x = y
  | leaf k s, leaf l t => by simp [same]
  | list k xs, list l ys => by simp [same, sameAll_iff xs ys]
  | leaf _ _, list _ _ => by simp [same]
  | list _ _, leaf _ _ => by simp [same]

theorem sameAll_iff : ∀ xs ys : List Node, sameAll xs ys = true ↔ xs = ys
  | [], [] => by simp [sameAll]
  | x :: xs, y :: ys => by
    simp [sameAll, same_iff x y, sameAll_iff xs ys]
  | [], _ :: _ => by simp [sameAll]
  | _ :: _, [] => by simp [sameAll]

end

instance : DecidableEq Node := fun _ _ => decidable_of_iff _ (same_iff _ _)

end Node

end ParseKit
