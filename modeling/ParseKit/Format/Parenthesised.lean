import ParseKit.Node
import ParseKit.Text.Pad

/-! The parenthesised format: one line per tree, optionally after the number of the line that the
tree starts on. -/

namespace ParseKit.Parenthesised

/-- What stands before a tree that starts on the given line. -/
def margin : Option Nat → String
  | some line => Text.padLeft 4 (toString line) ++ " | "
  | none => "     | "

def line (showLines : Bool) (node : Node) : String :=
  (if showLines then margin node.location else "") ++ node.render ++ "\n"

def write (showLines : Bool) (nodes : List Node) : String :=
  String.join (nodes.map (line showLines))

end ParseKit.Parenthesised
