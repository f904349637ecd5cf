import ParseKit.Decimal.Literal
import ParseKit.Text.Digits

/-! Plain texts that YAML readers take for something else than a string: nothing, truth values and
numbers. -/

namespace ParseKit.Yaml

def isNull (text : String) : Bool :=
  ["", "~", "null", "Null", "NULL"].contains text

def isBool (text : String) : Bool :=
  ["true", "True", "TRUE", "false", "False", "FALSE"].contains text

/-- Digits after a needless zero, with or without a sign. Readers disagree about them. -/
def hasLeadingZero (text : List Char) : Bool :=
  match (Decimal.splitSign text).2 with
  | '0' :: c :: rest => (c :: rest).all Char.isDigit
  | _ => false

def isBelow (base limit : Nat) (digits : List Char) : Bool :=
  (Text.natOfDigits? base digits).any (· < limit)

/-- A number without a sign of at most `limit`, exclusively, in the base that its first two
characters tell. -/
def isUnsigned (limit : Nat) (text : List Char) : Bool :=
  match text with
  | '0' :: 'x' :: digits => isBelow 16 limit digits
  | '0' :: 'o' :: digits => isBelow 8 limit digits
  | '0' :: 'b' :: digits => isBelow 2 limit digits
  | digits => isBelow 10 limit digits && !hasLeadingZero digits

/-- Integers of at most 128 bits, the sign bit included if they are negative. -/
def isInteger (text : List Char) : Bool :=
  match text with
  | '-' :: rest => isUnsigned (Decimal.twoTo 127 + 1) rest
  | '+' :: rest => isUnsigned (Decimal.twoTo 128) rest
  | text => isUnsigned (Decimal.twoTo 128) text

/-- The spellings of infinity and of what is not a number. -/
def isSpecialFloat (text : String) : Bool :=
  [".inf", ".Inf", ".INF", "+.inf", "+.Inf", "+.INF", "-.inf", "-.Inf", "-.INF",
    ".nan", ".NaN", ".NAN"].contains text

def isFloat (text : List Char) : Bool :=
  (Decimal.Literal.ofChars? text).any (!·.overflows)

/-- Whether a plain text would not be read as a string, or not by all readers. -/
def isTyped (text : String) : Bool :=
  isNull text || isBool text || isInteger text.toList || hasLeadingZero text.toList ||
    isSpecialFloat text || isFloat text.toList

end ParseKit.Yaml
