import ParseKit.Command.Run

/-! The program. It reaches files through the operating system and writes what a run leaves. -/

namespace ParseKit

def entryOfError : IO.Error → FileEntry
  | .inappropriateType _ code _ => if code = 21 then .directory else .blocked
  | .invalidArgument _ code _ => if code = 36 ∨ code = -36 then .tooLong else .missing
  | .permissionDenied .. => .denied
  | _ => .missing

def readEntry (path : String) : IO FileEntry := do
  try
    return .file (← IO.FS.readBinFile path).toList
  catch error =>
    return entryOfError error

end ParseKit

def main (arguments : List String) : IO UInt32 := do
  let directory ← IO.currentDir
  let files : ParseKit.FileAccess IO :=
    { workingDirectory := ParseKit.Path.parts directory.toString, entry := ParseKit.readEntry }
  let outcome ← ParseKit.Command.run files arguments
  IO.print outcome.output
  IO.eprint outcome.errors
  return outcome.code
