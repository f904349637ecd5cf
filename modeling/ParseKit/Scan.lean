import ParseKit.Literal
import ParseKit.Text.Blank
import ParseKit.Text.Digits
import ParseKit.Token

/-! Scanning one physical line. Blanks separate lexemes and a comment runs from two slashes to the
end of the line. The scanner needs no line number: numbering its lexemes is left to whoever knows
which line they stand on. -/

namespace ParseKit

inductive ScanFault where
  /-- No lexeme starts at this column, counted in bytes from one. -/
  | badToken (column : Nat) (near : String)
  | numberOutOfRange (digits : String)
  deriving DecidableEq, Repr

namespace Scan

/-- What stands at the front of a text, which is not blank there. -/
inductive Front where
  | comment
  | lexeme (lexeme : Lexeme)
  | tooLarge (digits : List Char)
  | nothing
  deriving DecidableEq, Repr

/-- The largest value of a number literal, which is the largest signed integer of 64 bits. -/
def maxNumber : Nat := 9223372036854775807

def isNameStart (c : Char) : Bool :=
  c.isAlpha || c == '_'

def isNamePart (c : Char) : Bool :=
  c.isAlphanum || c == '_'

def isPair : Char → Char → Bool
  | '=', '=' => true
  | '<', '=' => true
  | '>', '=' => true
  | '&', '&' => true
  | '|', '|' => true
  | _, _ => false

/-- ASCII punctuation without the grave accent, which is reserved. -/
def isPunctuation (c : Char) : Bool :=
  Text.inRanges [(0x21, 0x2F), (0x3A, 0x40), (0x5B, 0x5F), (0x7B, 0x7E)] c.toNat

/-- The number that digits write, unless it is too large. -/
def numberFront (digits : List Char) : Front :=
  let value := Text.natOfDigits digits
  if value ≤ maxNumber then .lexeme (.number value) else .tooLarge digits

/-- An operator of one character, or nothing that can be read. -/
def operatorFront (c : Char) : Front :=
  if isPunctuation c then .lexeme (.operator c.toString) else .nothing

/-- The front of the text `c :: rest`, and what follows it. Of the possible readings the first in
the order comment, number, string, identifier, operator wins. -/
def front (c : Char) (rest : List Char) : Front × List Char :=
  if c == '/' && rest.head? == some '/' then
    (.comment, rest.dropWhile (· != '\n'))
  else if c.isDigit then
    (numberFront (c :: rest.takeWhile Char.isDigit), rest.dropWhile Char.isDigit)
  else if c == '"' then
    match Literal.close? rest with
    | some (body, after) => (.lexeme (.string (String.ofList (Literal.resolve body))), after)
    | none => (operatorFront c, rest)
  else if isNameStart c then
    (.lexeme (.identifier (String.ofList (c :: rest.takeWhile isNamePart))),
      rest.dropWhile isNamePart)
  else
    match rest with
    | d :: after =>
      if isPair c d then (.lexeme (.operator (String.ofList [c, d])), after)
      else (operatorFront c, rest)
    | [] => (operatorFront c, rest)

theorem length_dropWhile_le (p : Char → Bool) (text : List Char) :
    (text.dropWhile p).length ≤ text.length :=
  (List.dropWhile_suffix p).length_le

theorem length_front_le (c : Char) (rest : List Char) :
    (front c rest).2.length ≤ rest.length := by
  unfold front
  split
  · exact length_dropWhile_le _ _
  split
  · exact length_dropWhile_le _ _
  split
  · split
    · next h => exact Nat.le_of_lt (Literal.length_of_close? h)
    · exact Nat.le_refl _
  split
  · exact length_dropWhile_le _ _
  split
  · split <;> simp
  · simp

def byteLength : List Char → Nat
  | [] => 0
  | c :: rest => c.utf8Size + byteLength rest

/-- At most ten characters, to show where scanning stopped. -/
def excerpt (text : List Char) : String :=
  String.ofList (text.take 10)

theorem length_after_lt {text rest after : List Char} {c : Char} {f : Front}
    (h : text.dropWhile Text.isBlank = c :: rest) (hf : front c rest = (f, after)) :
    after.length < text.length := by
  have hle := length_front_le c rest
  have hdrop := length_dropWhile_le Text.isBlank text
  rw [hf] at hle
  rw [h, List.length_cons] at hdrop
  exact Nat.lt_of_le_of_lt hle hdrop

/-- The lexemes of `text`, the end of a line of `size` bytes. -/
def lexemesFrom (size : Nat) (text : List Char) : Except ScanFault (List Lexeme) :=
  match _h : text.dropWhile Text.isBlank with
  | [] => .ok []
  | c :: rest =>
    match hf : front c rest with
    | (.comment, after) => lexemesFrom size after
    | (.lexeme lexeme, after) => (lexeme :: ·) <$> lexemesFrom size after
    | (.tooLarge digits, _) => .error (.numberOutOfRange (String.ofList digits))
    | (.nothing, _) => .error (.badToken (size - byteLength (c :: rest) + 1) (excerpt (c :: rest)))
termination_by text.length
decreasing_by all_goals exact length_after_lt _h hf

/-- The lexemes of one physical line, its terminator already removed. A bad line has none. -/
def lexemes (line : List Char) : Except ScanFault (List Lexeme) :=
  lexemesFrom (byteLength line) line

end Scan

end ParseKit
