/-! What the library reports about its own work, apart from its results. -/

namespace ParseKit

inductive Level where
  | debug
  | trace
  deriving DecidableEq, Repr

structure Note where
  level : Level
  text : String
  deriving DecidableEq, Repr

/-- Reports in the order in which they were made, the newest first. -/
abbrev Journal := List Note

def Level.name : Level → String
  | .debug => "DEBUG"
  | .trace => "TRACE"

def Note.line (note : Note) : String :=
  note.level.name ++ " " ++ note.text

/-- The lines of a log, the oldest report first. -/
def Journal.lines (journal : Journal) : List String :=
  (journal.map Note.line).reverse

end ParseKit
