import ParseKit.Node

/-! Drawings of trees: one line per node, in depth-first order. A connector shows whether a node is
the last of its siblings, and a bar runs down beside the descendants of each that is not. -/

namespace ParseKit.Drawing

/-- A text cut to `limit` characters, with three dots where something was cut off. -/
def clip (limit : Nat) (text : String) : String :=
  if text.length > limit then String.ofList (text.toList.take limit) ++ "..." else text

/-- The kind of a node and the beginning of its rendering. -/
def caption (node : Node) : String :=
  node.kind.name ++ ": " ++ clip 30 node.render

def connector (isLast : Bool) : String :=
  if isLast then "└─ " else "├─ "

def continuation (isLast : Bool) : String :=
  if isLast then "  " else "│ "

mutual

/-- The lines of a node and its descendants, each after `margin`. -/
def drawNode (margin : String) (isLast : Bool) : Node → String
  | .leaf kind token => margin ++ connector isLast ++ caption (.leaf kind token) ++ "\n"
  | .list kind children =>
    margin ++ connector isLast ++ caption (.list kind children) ++ "\n" ++
      drawAll (margin ++ continuation isLast) children

def drawAll (margin : String) : List Node → String
  | [] => ""
  | node :: rest => drawNode margin rest.isEmpty node ++ drawAll margin rest

end

def write (nodes : List Node) : String :=
  drawAll "" nodes

end ParseKit.Drawing
