import ParseKit.Json.Write
import ParseKit.Snapshot.Read

/-! Snapshots pass through a library on their way to a JSON text and back. Texts are made from values
and read as values, and between values and snapshots stand an encoder and a decoder, which the library
makes from the fields of a snapshot. What is written and read depends on the library; programs run with
the standard one. -/

namespace ParseKit

/-- A library for JSON texts. A value holds the parts of a text in their order. -/
structure JsonLibrary where
  compact : Json → String
  pretty : Json → String
  parse? : String → Option Json
  encode : Snapshot → Json
  encodeAll : List Snapshot → Json
  decode? : Json → Option Snapshot
  decodeAll? : Json → Option (List Snapshot)

namespace JsonLibrary

def standard : JsonLibrary where
  compact := Json.compact
  pretty := Json.pretty
  parse? := Json.ofText?
  encode := Snapshot.toJson
  encodeAll snapshots := .array (Snapshot.toJsonAll snapshots)
  decode? := Snapshot.ofJson?
  decodeAll? := Snapshot.allOfJson?

variable (library : JsonLibrary)

def read? (text : String) : Option Snapshot :=
  (library.parse? text).bind library.decode?

def readAll? (text : String) : Option (List Snapshot) :=
  (library.parse? text).bind library.decodeAll?

end JsonLibrary

namespace Snapshot

def writeJson (library : JsonLibrary) (nodes : List Node) : String :=
  library.pretty (library.encodeAll (ofNodes nodes))

def ofText? (text : String) : Option Snapshot :=
  JsonLibrary.standard.read? text

end Snapshot

end ParseKit
