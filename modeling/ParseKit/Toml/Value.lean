/-! TOML values. Dates and times are kept as their text. -/

namespace ParseKit.Toml

inductive Value where
  | string (text : String)
  | integer (n : Int)
  | float (x : Float)
  | boolean (b : Bool)
  | moment (text : String)
  | array (items : List Value)
  /-- Values by key, no key twice. -/
  | table (entries : List (String × Value))

instance : Inhabited Value := ⟨.table []⟩

end ParseKit.Toml
