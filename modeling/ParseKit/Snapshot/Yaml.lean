import ParseKit.Snapshot
import ParseKit.Yaml.Scalar

/-! Snapshots as YAML: a list of mappings whose keys are the parts of a snapshot, with the children
as a list under their key. -/

namespace ParseKit.Snapshot

/-- A key and its value on a line, from column `indent` on. -/
def yamlEntry (indent : Nat) (key value : String) : String :=
  Text.spaces indent ++ key ++ ": " ++ Yaml.scalar (indent + 2) value

/-- The line of a snapshot, if there is one. -/
def yamlLine (indent : Nat) : Option Nat → String
  | some line => Text.spaces indent ++ "line: " ++ toString line ++ "\n"
  | none => ""

mutual

/-- The item of a snapshot in a list whose dashes stand in column `indent`. -/
def yamlItem (indent : Nat) : Snapshot → String
  | mk nodeType label line? children =>
    Text.spaces indent ++ "- node_type: " ++ Yaml.scalar (indent + 4) nodeType ++
      yamlEntry (indent + 2) "label" label ++ yamlLine (indent + 2) line? ++
      yamlChildren (indent + 2) children

/-- The children of a snapshot under their key, which is left out if there are none. -/
def yamlChildren (indent : Nat) : List Snapshot → String
  | [] => ""
  | child :: rest =>
    Text.spaces indent ++ "children:\n" ++ yamlItem indent child ++ yamlItems indent rest

def yamlItems (indent : Nat) : List Snapshot → String
  | [] => ""
  | snapshot :: rest => yamlItem indent snapshot ++ yamlItems indent rest

end

def writeYaml (nodes : List Node) : String :=
  match nodes with
  | [] => "[]\n"
  | nodes => yamlItems 0 (ofNodes nodes)

end ParseKit.Snapshot
