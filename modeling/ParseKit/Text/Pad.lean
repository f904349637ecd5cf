/-! Texts filled up with spaces to a width. Longer texts are left as they are. -/

namespace ParseKit.Text

def spaces (n : Nat) : String :=
  String.ofList (List.replicate n ' ')

def padLeft (width : Nat) (s : String) : String :=
  spaces (width - s.length) ++ s

def padRight (width : Nat) (s : String) : String :=
  s ++ spaces (width - s.length)

end ParseKit.Text
