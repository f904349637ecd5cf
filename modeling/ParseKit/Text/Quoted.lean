import ParseKit.Text.Shown

/-! Texts written between double quotes for people to read. Quotes and backslashes are escaped,
tab, carriage return, line feed and NUL have letters of their own, and every other character that
does not show as itself is written as its code point. -/

namespace ParseKit.Text

/-- The code point in braces, in hexadecimal without leading zeros. -/
def codePoint (c : Char) : String :=
  "\\u\x7b" ++ String.ofList (Nat.toDigits 16 c.toNat) ++ "\x7d"

def quotedChar (c : Char) : String :=
  match c with
  | '\x00' => "\\0"
  | '\t' => "\\t"
  | '\r' => "\\r"
  | '\n' => "\\n"
  | '"' => "\\\""
  | '\\' => "\\\\"
  | c => if isShown c then c.toString else codePoint c

def quoted (s : String) : String :=
  "\"" ++ String.join (s.toList.map quotedChar) ++ "\""

end ParseKit.Text
