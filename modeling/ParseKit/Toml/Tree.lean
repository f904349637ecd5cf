import ParseKit.Entries
import ParseKit.Toml.Value

/-! Tables while a document is read. A table is opened once, by its own header. Tables that stand
on the way to another one are there without a header, and may get one later if only headers led
through them. Tables that dotted keys made are extended by dotted keys only. -/

namespace ParseKit.Toml

inductive Opening where
  /-- By its header. -/
  | header
  /-- On the way that a header names. -/
  | passing
  /-- On the way that a dotted key names. -/
  | dotted
  deriving DecidableEq, Repr

inductive Item where
  | value (value : Value)
  | table (opening : Opening) (entries : List (String × Item))
  /-- Tables under one repeated header, the newest first. -/
  | tables (elements : List Item)

instance : Inhabited Item := ⟨.table .header []⟩

namespace Item

/-- Changes the table that a path leads to from a table. Tables that are missing on the way are
made with the given opening. A dotted path does not lead into tables that have a header, and
through repeated tables every path leads into the newest. -/
def within? (opening : Opening) (change : Item → Option Item) : List String → Item → Option Item
  | [], item => change item
  | key :: path, table own entries =>
    let changed? :=
      match (Entries.get? key entries).getD (table opening []) with
      | value _ => none
      | tables [] => none
      | tables (newest :: older) =>
        (within? opening change path newest).map fun newest => tables (newest :: older)
      | table other inner =>
        if opening = Opening.dotted ∧ other = Opening.header then none
        else within? opening change path (table other inner)
    changed?.map fun item => table own (Entries.set key item entries)
  | _ :: _, _ => none

/-- Adds a value to a table that has nothing under the key. -/
def addValue? (dotted : Bool) (key : String) (v : Value) : Item → Option Item
  | table own entries =>
    -- A dotted key ends in a table of its kind, and a plain key in any other.
    if dotted = (own = .dotted) ∧ (Entries.get? key entries).isNone then
      some (table own (Entries.set key (value v) entries))
    else none
  | _ => none

/-- Adds a value under a key, dotted if it has several parts, to a table. -/
def insert? (path : List String) (key : String) (v : Value) (item : Item) : Option Item :=
  within? .dotted (addValue? (!path.isEmpty) key v) path item

/-- Opens the table of a header in the table around it. A table that was there without a header
takes the last place. -/
def open? (key : String) : Item → Option Item
  | table own entries =>
    match Entries.get? key entries with
    | none => some (table own (Entries.set key (table .header []) entries))
    | some (table .passing inner) =>
      some (table own (Entries.set key (table .header inner) (Entries.erase key entries)))
    | some _ => none
  | _ => none

/-- Opens one more of the tables of a repeated header in the table around them. -/
def openNext? (key : String) : Item → Option Item
  | table own entries =>
    match (Entries.get? key entries).getD (tables []) with
    | tables elements =>
      some (table own (Entries.set key (tables (table .header [] :: elements)) entries))
    | _ => none
  | _ => none

mutual

def toValue : Item → Value
  | value v => v
  | table _ entries => .table (entriesToValues entries)
  | tables elements => .array (elementsToValues elements).reverse

def entriesToValues : List (String × Item) → List (String × Value)
  | [] => []
  | (key, item) :: rest => (key, item.toValue) :: entriesToValues rest

def elementsToValues : List Item → List Value
  | [] => []
  | item :: rest => item.toValue :: elementsToValues rest

end

end Item

end ParseKit.Toml
