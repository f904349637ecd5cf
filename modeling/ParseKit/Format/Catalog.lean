import ParseKit.Format.Drawing
import ParseKit.Format.Parenthesised
import ParseKit.Snapshot.Library
import ParseKit.Snapshot.Yaml
import ParseKit.Table

/-! Formats in which programs are written, looked up by name in a catalog. -/

namespace ParseKit

inductive FormatError where
  | notFound (name : String)
  | failed (reason : String)
  deriving DecidableEq, Repr

def FormatError.message : FormatError → String
  | notFound name => s!"format '{name}' not found"
  | failed reason => s!"serialization error: {reason}"

/-- A way to write a program, which is given as its top-level nodes. -/
structure Format where
  name : String
  description : String := ""
  write : List Node → Except FormatError String

namespace Format

def parenthesised (showLines : Bool) : Format where
  name := "sexp"
  description := "Parenthesised tree, one statement per line"
  write nodes := .ok (Parenthesised.write showLines nodes)

def drawing : Format where
  name := "treeviz"
  description := "One line per node with box-drawn nesting"
  write nodes := .ok (Drawing.write nodes)

def json : Format where
  name := "json"
  description := "AST snapshot as JSON"
  write nodes := .ok (Snapshot.writeJson .standard nodes)

def yaml : Format where
  name := "yaml"
  description := "AST snapshot as YAML"
  write nodes := .ok (Snapshot.writeYaml nodes)

end Format

abbrev Catalog := Table String Format

namespace Catalog

/-- Adds a format in place of the one of its name. -/
def add (catalog : Catalog) (format : Format) : Catalog :=
  catalog.insert format.name format

def standard : Catalog :=
  [.parenthesised false, .drawing, .json, .yaml].foldl add ∅

def names (catalog : Catalog) : List String :=
  catalog.keys.mergeSort

def write (catalog : Catalog) (name : String) (nodes : List Node) : Except FormatError String :=
  match catalog.get? name with
  | some format => format.write nodes
  | none => .error (.notFound name)

end Catalog

end ParseKit
