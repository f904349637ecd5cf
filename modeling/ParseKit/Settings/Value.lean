import ParseKit.Entries
import ParseKit.Text.Lower
import ParseKit.Toml.Value

/-! Values that settings are made of, each with the file it comes from. Layers of settings are laid
over each other table by table: a value takes the place of an older one, and a table is merged key
by key into what is there. Keys are the same in upper and in lower case. -/

namespace ParseKit

inductive Scalar where
  | boolean (b : Bool)
  | integer (n : Int)
  | float (x : Float)
  | text (s : String)

inductive Setting where
  /-- A place in an array that nothing was written to. -/
  | unset
  | scalar (value : Scalar) (origin? : Option String)
  | array (items : List Setting) (origin? : Option String)
  | table (entries : List (String × Setting)) (origin? : Option String)

instance : Inhabited Setting := ⟨.unset⟩

namespace Setting

def empty : Setting := table [] none

def entries : Setting → List (String × Setting)
  | table entries _ => entries
  | _ => []

def items : Setting → List Setting
  | array items _ => items
  | _ => []

def origin? : Setting → Option String
  | unset => none
  | scalar _ origin? => origin?
  | array _ origin? => origin?
  | table _ origin? => origin?

/-- The value of a key, if there is one. -/
def get? (key : String) (s : Setting) : Option Setting :=
  Entries.get? key s.entries

/-- Sets the value of a key. What is not a table gives way to one. -/
def set (s : Setting) (key : String) (value : Setting) : Setting :=
  match s with
  | table entries origin? => table (Entries.set key value entries) origin?
  | _ => table [(key, value)] none

/-- Sets an item of an array, which is filled up to it. What is not an array gives way to one. -/
def setItem (s : Setting) (index : Nat) (value : Setting) : Setting :=
  match s with
  | array items origin? =>
    array ((items ++ List.replicate (index + 1 - items.length) unset).set index value) origin?
  | _ => array ((List.replicate (index + 1) unset).set index value) none

mutual

/-- The value that results when one is laid over what was there. -/
def layOver (below? : Option Setting) : Setting → Setting
  | table entries _ => layAllOver (below?.getD empty) entries
  | value => value

def layAllOver (below : Setting) : List (String × Setting) → Setting
  | [] => below
  | (key, value) :: rest =>
    let name := Text.lower key
    layAllOver (below.set name (layOver (below.get? name) value)) rest

end

mutual

def ofToml (origin? : Option String) : Toml.Value → Setting
  | .string s => scalar (.text s) origin?
  | .integer n => scalar (.integer n) origin?
  | .float x => scalar (.float x) origin?
  | .boolean b => scalar (.boolean b) origin?
  | .moment s => scalar (.text s) origin?
  | .array items => array (ofTomlItems origin? items) origin?
  | .table entries => table (ofTomlEntries origin? entries) origin?

def ofTomlItems (origin? : Option String) : List Toml.Value → List Setting
  | [] => []
  | item :: rest => ofToml origin? item :: ofTomlItems origin? rest

def ofTomlEntries (origin? : Option String) :
    List (String × Toml.Value) → List (String × Setting)
  | [] => []
  | (key, value) :: rest => (key, ofToml origin? value) :: ofTomlEntries origin? rest

end

@[simp] theorem get?_set_self (s : Setting) (key : String) (value : Setting) :
    (s.set key value).get? key = some value := by
  cases s <;> simp [set, get?, entries, Entries.get?]

theorem get?_set_of_ne (s : Setting) {key other : String} (h : other ≠ key) (value : Setting) :
    (s.set key value).get? other = s.get? other := by
  cases s <;> simp [set, get?, entries, Entries.get?, Entries.get?_set_of_ne h, Ne.symm h]

@[simp] theorem layOver_scalar (below? : Option Setting) (value : Scalar) (origin? : Option String) :
    layOver below? (scalar value origin?) = scalar value origin? := by
  simp [layOver]

end Setting

end ParseKit
