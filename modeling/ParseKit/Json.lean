/-! JSON values. Numbers are kept as they are written, and the members of an object in their order,
also if a name occurs twice. -/

namespace ParseKit

/-- A JSON value. A string is `none` where an escape in it stands for half a character only, which
no text holds. -/
inductive Json where
  | null
  | bool (value : Bool)
  | number (literal : String)
  | string (text? : Option String)
  | array (items : List Json)
  | object (members : List (Option String × Json))

namespace Json

instance : Inhabited Json := ⟨null⟩

def ofString (text : String) : Json :=
  string (some text)

def ofNat (n : Nat) : Json :=
  number (toString n)

def ofInt (n : Int) : Json :=
  number (toString n)

def ofMembers (members : List (String × Json)) : Json :=
  object (members.map fun (name, value) => (some name, value))

end Json

end ParseKit
