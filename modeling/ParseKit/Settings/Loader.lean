import ParseKit.Files
import ParseKit.Journal
import ParseKit.Settings.Decode
import ParseKit.Settings.Key
import ParseKit.Toml.Read

/-! Loading settings. Files are laid over the built-in settings in the order in which they were
added, and single values over all files, wherever they were added in between. -/

namespace ParseKit

structure Layer where
  path : String
  /-- Whether it is an error that there is no such file. -/
  required : Bool
  deriving DecidableEq, Repr

/-- What settings are loaded from. Nothing is read before they are. -/
structure Loader where
  layers : List Layer := []
  overrides : List (String × Scalar) := []

namespace Loader

/-- The name of the file that holds the settings of a directory. -/
def localName : String := "stone.toml"

def withFile (loader : Loader) (path : String) : Loader :=
  { loader with layers := loader.layers ++ [⟨path, true⟩] }

def withOptionalFile (loader : Loader) (path : String) : Loader :=
  { loader with layers := loader.layers ++ [⟨path, false⟩] }

/-- The file of a directory, if there is one. -/
def discover (directory : String) : Loader :=
  ({} : Loader).withOptionalFile (Path.join directory localName)

def override (loader : Loader) (key : String) (value : Scalar) : Loader :=
  { loader with overrides := loader.overrides ++ [(key, value)] }

def defaults : List (String × Setting) :=
  let given (value : Scalar) : Setting := .scalar value none
  let output := [("format", given (.text "sexp")), ("show_lines", given (.boolean false))]
  [("lexer", .table [("emit_eol", given (.boolean true))] none), ("output", .table output none)]

/-- The settings that the text of a file writes. `origin` is its name in messages. -/
def fileEntries (origin text : String) : Except SettingsError (List (String × Setting)) :=
  match Toml.ofChars? text.toList with
  | some entries => .ok (Setting.ofTomlEntries (some origin) entries)
  | none => .error (.malformedFile origin)

variable {m : Type → Type} [Monad m]

/-- The first of the paths that leads to a file, and the bytes of that file. -/
def firstFile? (files : FileAccess m) : List String → m (Option (String × List UInt8))
  | [] => return none
  | path :: rest => do
    match ← files.entry path with
    | .file bytes => return some (path, bytes)
    | _ => firstFile? files rest

/-- Where the file of a layer may be: at the path itself or, if there is none, at the path with
`.toml` after it. -/
def candidates (path : String) : List String :=
  path :: (Path.extended? "toml" path).toList

/-- The text of the file of a layer, and the path that led to it. -/
def fileText (files : FileAccess m) (path : String) :
    ExceptT SettingsError m (String × String) := do
  let some (place, bytes) ← (firstFile? files (candidates path) : m _) | throw (.fileNotFound path)
  let some text := String.fromUTF8? (ByteArray.mk bytes.toArray) | throw .undecodableFile
  return (place, text)

/-- What a layer adds. A file that may be missing need not be text either. -/
def readLayer (files : FileAccess m) (layer : Layer) :
    ExceptT SettingsError m (List (String × Setting)) := do
  let found : Except SettingsError (String × String) ← (fileText files layer.path).run
  match found with
  | .ok (place, text) => ofExcept (fileEntries (Path.relative files.workingDirectory place) text)
  | .error error => if layer.required then throw error else return []

def overrideKeys (overrides : List (String × Scalar)) :
    Except SettingsError (List (SettingKey × Scalar)) :=
  overrides.mapM fun (key, value) =>
    match SettingKey.ofText? key with
    | some path => .ok (path, value)
    | none => .error (.malformedKey key)

/-- The values of all layers, the first one at the bottom, and the single values on top. -/
def merge (layers : List (List (String × Setting))) (overrides : List (SettingKey × Scalar)) :
    Setting :=
  overrides.foldl
    (fun below (path, value) => Setting.put (.scalar value none) path (some below))
    ((defaults :: layers).foldl Setting.layer .empty)

/-- Loads the settings. Keys are checked before any file is read. -/
def build (loader : Loader) (files : FileAccess m) : ExceptT SettingsError m Settings := do
  let overrides ← ofExcept (overrideKeys loader.overrides)
  let layers ← loader.layers.mapM (readLayer files)
  ofExcept (merge layers overrides).toSettings

def note (loader : Loader) : Note where
  level := .debug
  text := s!"configuration loaded from {loader.layers.length} file(s) and " ++
    s!"{loader.overrides.length} override(s)"

end Loader

end ParseKit
