import ParseKit.Text.Pad
import ParseKit.Yaml.Typed

/-! Strings as YAML scalars. A string is written plain when a reader takes it for the same string,
as a block of lines when it holds line feeds, between single quotes otherwise, and between double
quotes when it holds something that has to be escaped. -/

namespace ParseKit.Yaml

def isBreak (c : Char) : Bool :=
  c == '\n' || c == '\r' || c == '\u0085' || c == '\u2028' || c == '\u2029'

/-- Line feeds, spaces and everything visible. A byte order mark does not count, nor do tabs. -/
def isPrintable (c : Char) : Bool :=
  c == '\n' || (' ' ≤ c && c ≤ '~') ||
    ('\u00a0' ≤ c && c != '\ufeff' && c != '\ufffe' && c != '\uffff')

def isBlank (c : Char) : Bool :=
  c == ' ' || c == '\t' || c == '\x00' || isBreak c

/-- Whether `p` holds of a character and `q` of the next one. -/
def hasPair (p q : Char → Bool) : List Char → Bool
  | a :: b :: rest => (p a && q b) || hasPair p q (b :: rest)
  | _ => false

/-- Whether a character that `p` holds of ends the text or stands before a blank. -/
def endsWord (p : Char → Bool) (text : List Char) : Bool :=
  hasPair p isBlank text || text.getLast?.any p

/-- Whether a text begins with a character that plain scalars do not begin with. -/
def startsReserved : List Char → Bool
  | c :: rest =>
    "#,[]\x7b\x7d&*!|>'\"%@\x60".toList.contains c ||
      ((c == '?' || c == '-') && rest.head?.all isBlank)
  | [] => false

/-- Whether a part of the text would be read as the beginning or the end of something. -/
def hasIndicator (text : List Char) : Bool :=
  startsReserved text || ['-', '-', '-'].isPrefixOf text || ['.', '.', '.'].isPrefixOf text ||
    endsWord (· == ':') text || hasPair isBlank (· == '#') text

def needsEscapes (text : List Char) : Bool :=
  text.any (!isPrintable ·) || hasPair (· == ' ') isBreak text

def allowsPlain (text : List Char) : Bool :=
  !needsEscapes text && !text.any isBreak && !hasIndicator text &&
    text.head? != some ' ' && text.getLast? != some ' '

def allowsSingle (text : List Char) : Bool :=
  !needsEscapes text && !hasPair isBreak (· == ' ') text

def allowsBlock (text : List Char) : Bool :=
  !needsEscapes text && text.getLast? != some ' '

inductive Style where
  | plain
  | single
  | double
  | block
  deriving DecidableEq, Repr

def Style.of (text : String) : Style :=
  let chars := text.toList
  if chars.contains '\n' then if allowsBlock chars then block else double
  else if !isTyped text && allowsPlain chars then plain
  else if allowsSingle chars then single
  else double

/-- The characters between single quotes. A quote is written twice, and after a line break come
`indent` spaces. `broken` tells whether the line was just broken. -/
def singleQuoted (indent : Nat) (broken : Bool) : List Char → List Char
  | [] => if broken then List.replicate indent ' ' else []
  | c :: rest =>
    if isBreak c then c :: singleQuoted indent true rest
    else
      (if broken then List.replicate indent ' ' else []) ++ (if c = '\'' then [c, c] else [c]) ++
        singleQuoted indent false rest

/-- The last `width` hexadecimal digits of a number, in upper case. -/
def hexDigits (width n : Nat) : List Char :=
  match width with
  | 0 => []
  | width + 1 => hexDigits width (n / 16) ++ [(Nat.digitChar (n % 16)).toUpper]

def escapeLetter? : Char → Option Char
  | '\x00' => some '0'
  | '\x07' => some 'a'
  | '\x08' => some 'b'
  | '\t' => some 't'
  | '\n' => some 'n'
  | '\x0b' => some 'v'
  | '\x0c' => some 'f'
  | '\r' => some 'r'
  | '\x1b' => some 'e'
  | '"' => some '"'
  | '\\' => some '\\'
  | '\u0085' => some 'N'
  | '\u2028' => some 'L'
  | '\u2029' => some 'P'
  | _ => none

def doubleQuotedChar (c : Char) : List Char :=
  match escapeLetter? c with
  | some letter => ['\\', letter]
  | none =>
    if isPrintable c then [c]
    else if c.toNat < 0x100 then '\\' :: 'x' :: hexDigits 2 c.toNat
    else if c.toNat < 0x10000 then '\\' :: 'u' :: hexDigits 4 c.toNat
    else '\\' :: 'U' :: hexDigits 8 c.toNat

/-- The mark of a block. It tells the indentation if the first line does not show it, and whether
line breaks at the end are none, one, or all that stand there. -/
def blockMark (text : List Char) : List Char :=
  let indentation := if text.head?.any fun c => c == ' ' || isBreak c then ['2'] else []
  let ending :=
    match text.reverse with
    | [] => ['-']
    | [c] => if isBreak c then ['+'] else ['-']
    | c :: d :: _ => if !isBreak c then ['-'] else if isBreak d then ['+'] else []
  '|' :: indentation ++ ending

/-- The lines of a block, indented where they are not empty, with a line feed at the end. `broken`
tells whether the line was just broken. -/
def blockLines (indent : Nat) (broken : Bool) : List Char → List Char
  | [] => if broken then [] else ['\n']
  | c :: rest =>
    if isBreak c then c :: blockLines indent true rest
    else
      (if broken then List.replicate indent ' ' else []) ++ c :: blockLines indent false rest

/-- A string as a scalar, with the line feed after it. Lines after the first are indented. -/
def scalar (indent : Nat) (text : String) : String :=
  let chars := text.toList
  String.ofList <|
    match Style.of text with
    | .plain => chars ++ ['\n']
    | .single => '\'' :: singleQuoted indent false chars ++ ['\'', '\n']
    | .double => '"' :: chars.flatMap doubleQuotedChar ++ ['"', '\n']
    | .block => blockMark chars ++ '\n' :: blockLines indent true chars

end ParseKit.Yaml
