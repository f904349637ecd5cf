/-! String literals. Inside the quotes three pairs stand for one character each: a backslash
before a quote, before a backslash, and before the letter `n`, which makes a line feed. Any other
backslash stands for itself. -/

namespace ParseKit.Literal

def resolve : List Char → List Char
  | '\\' :: '"' :: rest => '"' :: resolve rest
  | '\\' :: '\\' :: rest => '\\' :: resolve rest
  | '\\' :: 'n' :: rest => '\n' :: resolve rest
  | c :: rest => c :: resolve rest
  | [] => []

/-- What stands between the quotes; a text that lacks one of them is its own interior. -/
def interior (raw : List Char) : List Char :=
  match raw with
  | '"' :: rest => if rest.getLast? = some '"' then rest.dropLast else raw
  | _ => raw

def decode (raw : List Char) : List Char :=
  resolve (interior raw)

/-- Splits what follows an opening quote at the quote that closes the string: the interior, and
what stands after the closing quote. A quote inside an escape pair closes the string only when no
later quote does. -/
def close? : List Char → Option (List Char × List Char)
  | [] => none
  | '"' :: rest => some ([], rest)
  | '\\' :: '"' :: rest =>
    match close? rest with
    | some (body, after) => some ('\\' :: '"' :: body, after)
    | none => some (['\\'], rest)
  | '\\' :: '\\' :: rest => (close? rest).map fun (body, after) => ('\\' :: '\\' :: body, after)
  | c :: rest => (close? rest).map fun (body, after) => (c :: body, after)

theorem length_of_close? {text body after : List Char} (h : close? text = some (body, after)) :
    after.length < text.length := by
  fun_induction close? text generalizing body after with
  | case1 => cases h
  | case2 rest => cases h; simp
  | case3 rest body' after' hrest ih =>
    cases h
    have := ih hrest
    simp only [List.length_cons]; omega
  | case4 rest hrest => cases h; simp only [List.length_cons]; omega
  | case5 rest ih =>
    obtain ⟨⟨body', after'⟩, hrest, heq⟩ := Option.map_eq_some_iff.1 h
    cases heq
    have := ih hrest
    simp only [List.length_cons]; omega
  | case6 c rest _ _ _ ih =>
    obtain ⟨⟨body', after'⟩, hrest, heq⟩ := Option.map_eq_some_iff.1 h
    cases heq
    have := ih hrest
    simp only [List.length_cons]; omega

end ParseKit.Literal
