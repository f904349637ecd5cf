import ParseKit.Text.Digits

/-! Strings of TOML. Between double quotes a backslash begins an escape, between single quotes
everything stands for itself. Three quotes on either side allow line breaks, of which one right
after the opening quotes is dropped. -/

namespace ParseKit.Toml

/-- Tabs, and all characters that are not control characters of ASCII. -/
def isVisible (c : Char) : Bool :=
  c == '\t' || (' ' ≤ c && c != '\x7f')

def isSpace (c : Char) : Bool :=
  c == ' ' || c == '\t'

/-- The character of a code point in hexadecimal, if there is one. -/
def codePoint? (digits : List Char) : Option Char := do
  let point ← Text.natOfDigits? 16 digits
  guard point.isValidChar
  return Char.ofNat point

/-- What the letters after a backslash stand for, and what follows them. -/
def escape? : List Char → Option (Char × List Char)
  | 'b' :: rest => some ('\x08', rest)
  | 't' :: rest => some ('\t', rest)
  | 'n' :: rest => some ('\n', rest)
  | 'f' :: rest => some ('\x0c', rest)
  | 'r' :: rest => some ('\r', rest)
  | '"' :: rest => some ('"', rest)
  | '\\' :: rest => some ('\\', rest)
  | 'u' :: rest =>
    if rest.length < 4 then none else (codePoint? (rest.take 4)).map (·, rest.drop 4)
  | 'U' :: rest =>
    if rest.length < 8 then none else (codePoint? (rest.take 8)).map (·, rest.drop 8)
  | _ => none

theorem length_of_escape? {text after : List Char} {c : Char} (h : escape? text = some (c, after)) :
    after.length < text.length := by
  unfold escape? at h
  split at h
  case h_8 rest =>
    split at h
    · cases h
    · obtain ⟨_, _, h⟩ := Option.map_eq_some_iff.1 h
      cases h
      simp only [List.length_drop, List.length_cons]; omega
  case h_9 rest =>
    split at h
    · cases h
    · obtain ⟨_, _, h⟩ := Option.map_eq_some_iff.1 h
      cases h
      simp only [List.length_drop, List.length_cons]; omega
  all_goals cases h
  all_goals simp

def newline? : List Char → Option (List Char)
  | '\n' :: rest => some rest
  | '\r' :: '\n' :: rest => some rest
  | _ => none

theorem length_of_newline? {text after : List Char} (h : newline? text = some after) :
    after.length < text.length := by
  unfold newline? at h
  split at h <;> cases h <;> simp only [List.length_cons] <;> omega

def skipBlank : List Char → List Char
  | '\r' :: '\n' :: rest => skipBlank rest
  | c :: rest => if isSpace c || c == '\n' then skipBlank rest else c :: rest
  | [] => []

theorem length_skipBlank_le (text : List Char) : (skipBlank text).length ≤ text.length := by
  fun_induction skipBlank text with
  | case1 rest ih => simp only [List.length_cons]; omega
  | case2 c rest _ h ih => simp only [List.length_cons]; omega
  | case3 => exact Nat.le_refl _
  | case4 => exact Nat.le_refl _

/-- Splits off spaces, tabs and line breaks after a backslash, if they begin with a line break. -/
def lineEnd? (text : List Char) : Option (List Char) :=
  (newline? (text.dropWhile isSpace)).map skipBlank

theorem length_of_lineEnd? {text after : List Char} (h : lineEnd? text = some after) :
    after.length < text.length := by
  obtain ⟨rest, hrest, rfl⟩ := Option.map_eq_some_iff.1 h
  have h₁ := length_of_newline? hrest
  have h₂ := length_skipBlank_le rest
  have h₃ := (List.dropWhile_sublist isSpace (l := text)).length_le
  omega

/-- A string on one line after its opening double quote, and what follows the closing one. -/
def basic? : List Char → Option (List Char × List Char)
  | [] => none
  | '"' :: rest => some ([], rest)
  | '\\' :: rest =>
    match h : escape? rest with
    | some (c, after) =>
      have := length_of_escape? h
      (basic? after).map fun (body, after) => (c :: body, after)
    | none => none
  | c :: rest =>
    if isVisible c then (basic? rest).map fun (body, after) => (c :: body, after) else none
termination_by text => text.length
decreasing_by
  all_goals simp only [List.length_cons]
  all_goals omega

/-- A string on several lines after its opening double quotes, and what follows the closing ones.
Up to two quotes more than the three that close it belong to the string. -/
def basicLines? : List Char → Option (List Char × List Char)
  | [] => none
  | '"' :: '"' :: '"' :: '"' :: '"' :: rest => some (['"', '"'], rest)
  | '"' :: '"' :: '"' :: '"' :: rest => some (['"'], rest)
  | '"' :: '"' :: '"' :: rest => some ([], rest)
  | '\\' :: rest =>
    match h : escape? rest with
    | some (c, after) =>
      have := length_of_escape? h
      (basicLines? after).map fun (body, after) => (c :: body, after)
    | none =>
      match h : lineEnd? rest with
      | some after =>
        have := length_of_lineEnd? h
        basicLines? after
      | none => none
  | '\r' :: '\n' :: rest => (basicLines? rest).map fun (body, after) => ('\n' :: body, after)
  | c :: rest =>
    if isVisible c || c == '\n' then (basicLines? rest).map fun (body, after) => (c :: body, after)
    else none
termination_by text => text.length
decreasing_by
  all_goals simp only [List.length_cons]
  all_goals omega

/-- A string on one line after its opening single quote, and what follows the closing one. -/
def literal? : List Char → Option (List Char × List Char)
  | [] => none
  | '\'' :: rest => some ([], rest)
  | c :: rest =>
    if isVisible c then (literal? rest).map fun (body, after) => (c :: body, after) else none

/-- A string on several lines after its opening single quotes, and what follows the closing ones.
Up to two quotes more than the three that close it belong to the string. -/
def literalLines? : List Char → Option (List Char × List Char)
  | [] => none
  | '\'' :: '\'' :: '\'' :: '\'' :: '\'' :: rest => some (['\'', '\''], rest)
  | '\'' :: '\'' :: '\'' :: '\'' :: rest => some (['\''], rest)
  | '\'' :: '\'' :: '\'' :: rest => some ([], rest)
  | '\r' :: '\n' :: rest => (literalLines? rest).map fun (body, after) => ('\n' :: body, after)
  | c :: rest =>
    if isVisible c || c == '\n' then
      (literalLines? rest).map fun (body, after) => (c :: body, after)
    else none

def dropNewline (text : List Char) : List Char :=
  (newline? text).getD text

/-- A string of any of the four forms, and what follows it. -/
def string? (text : List Char) : Option (String × List Char) :=
  let found? :=
    match text with
    | '"' :: '"' :: '"' :: rest => basicLines? (dropNewline rest)
    | '"' :: rest => basic? rest
    | '\'' :: '\'' :: '\'' :: rest => literalLines? (dropNewline rest)
    | '\'' :: rest => literal? rest
    | _ => none
  found?.map fun (body, after) => (String.ofList body, after)

end ParseKit.Toml
