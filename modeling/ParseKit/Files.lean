/-! Files by path. What a path leads to is asked of a directory tree that is given as the list of
its files, or of the world outside through a monad. -/

namespace ParseKit

inductive FileEntry where
  | missing
  /-- The path goes on after a file. -/
  | blocked
  /-- The file may not be read. -/
  | denied
  /-- The path or a name in it is longer than any can be. -/
  | tooLong
  | directory
  | file (bytes : List UInt8)

/-- How files are reached. Relative paths start at the working directory, whose own path is given
by its parts. -/
structure FileAccess (m : Type → Type) where
  workingDirectory : List String
  entry : String → m FileEntry

namespace Path

def split (path : String) : List String :=
  path.splitOn "/"

def isAbsolute (path : String) : Bool :=
  path.startsWith "/"

def parts (path : String) : List String :=
  (split path).filter fun part => part ≠ "" ∧ part ≠ "."

def join (directory name : String) : String :=
  if directory = "" ∨ directory.endsWith "/" then directory ++ name else directory ++ "/" ++ name

/-- The path with an extension after the name at its end, if it ends in a name. -/
def extended? (extension path : String) : Option String :=
  match (split path).reverse.dropWhile fun part => part = "" ∨ part = "." with
  | [] => none
  | name :: before =>
    if name = ".." then none
    else some ("/".intercalate (before.reverse ++ [name ++ "." ++ extension]))

/-- The way from one directory to a path, both given by their parts from the root. -/
def between : List String → List String → List String
  | a :: base, b :: target =>
    if a = b then between base target else (a :: base).map (fun _ => "..") ++ b :: target
  | base, target => base.map (fun _ => "..") ++ target

def relative (workingDirectory : List String) (path : String) : String :=
  "/".intercalate <|
    if isAbsolute path then between workingDirectory (parts path) else parts path

end Path

/-- The files of a directory tree, by their paths. -/
structure Directory where
  files : List (String × List UInt8)

inductive Place where
  /-- In the tree, at a place that is given by the parts of its path, backwards. -/
  | inside (parts : List String)
  /-- In one of the directories around the tree, of which nothing more is known. -/
  | outside
  deriving DecidableEq, Repr

def Place.parent : Place → Place
  | inside (_ :: parts) => inside parts
  | _ => outside

namespace Directory

/-- The bytes that a name in a path has at most. -/
def maxNameSize : Nat := 255

def maxPathSize : Nat := 4095

def entryAt (d : Directory) : Place → FileEntry
  | .outside => .directory
  | .inside parts =>
    match d.files.find? fun file => Path.parts file.1 = parts.reverse with
    | some file => .file file.2
    | none =>
      if parts.isEmpty ∨ d.files.any fun file => parts.reverse.isPrefixOf (Path.parts file.1) then
        .directory
      else .missing

/-- Walks on from a place. A name is looked up only in a directory that is there. -/
def walk (d : Directory) (place : Place) : List String → FileEntry
  | [] => d.entryAt place
  | part :: rest =>
    match d.entryAt place with
    | .directory =>
      if part = "" ∨ part = "." then walk d place rest
      else if part = ".." then walk d place.parent rest
      else if maxNameSize < part.utf8ByteSize then .tooLong
      else
        match place with
        | .inside parts => walk d (.inside (part :: parts)) rest
        | .outside => .missing
    | .file _ => .blocked
    | other => other

def entry (d : Directory) (path : String) : FileEntry :=
  if path = "" then .missing
  else if maxPathSize < path.utf8ByteSize then .tooLong
  else d.walk (if Path.isAbsolute path then .outside else .inside []) (Path.split path)

/-- Access to the files of a tree whose own place is not known. -/
def access (d : Directory) : FileAccess Id where
  workingDirectory := []
  entry := d.entry

end Directory

end ParseKit
