import ParseKit.Scan

/-! Errors of reading a source, each with the number of its line. -/

namespace ParseKit

inductive LineFault where
  | scan (fault : ScanFault)
  | unreadable (reason : String)
  deriving DecidableEq, Repr

structure LexError where
  line : Nat
  fault : LineFault
  deriving DecidableEq, Repr

/-- The reason given for a line whose bytes are not UTF-8. -/
def notUtf8 : String := "stream did not contain valid UTF-8"

def LexError.message (error : LexError) : String :=
  match error.fault with
  | .scan (.badToken column near) =>
    s!"bad token at line {error.line}, column {column}: '{near}'"
  | .scan (.numberOutOfRange digits) =>
    s!"integer literal '{digits}' out of range at line {error.line}"
  | .unreadable reason =>
    s!"failed to read line {error.line}: {reason}"

end ParseKit
