import ParseKit.Text.Quoted

/-! Tokens: lexical units tagged with the physical line they were scanned from, and one sentinel
for the end of the input, which has no line. Reserved words are plain identifiers here; a grammar
decides which of them it reserves. -/

namespace ParseKit

inductive Lexeme where
  | number (value : Int)
  /-- A string literal, escapes already resolved. -/
  | string (text : String)
  | identifier (name : String)
  | operator (symbol : String)
  /-- The marker after a physical line. -/
  | endOfLine
  deriving DecidableEq, Repr

/-- A lexeme on its line, or the end of the input. -/
inductive Token where
  | scanned (line : Nat) (lexeme : Lexeme)
  | endOfInput
  deriving DecidableEq, Repr

instance : Inhabited Token := ⟨.endOfInput⟩

/-- How the end of a line is spelled in grammars and listings. -/
def endOfLineText : String := "\\n"

namespace Lexeme

def text : Lexeme → String
  | number value => toString value
  | string text => text
  | identifier name => name
  | operator symbol => symbol
  | endOfLine => endOfLineText

/-- Literals are never spelled: no grammar names them by their text. -/
def isSpelled : Lexeme → String → Bool
  | identifier name, spelling => name == spelling
  | operator symbol, spelling => symbol == spelling
  | endOfLine, spelling => spelling == endOfLineText
  | number _, _ => false
  | string _, _ => false

/-- The class of a lexeme with its payload, a string in quotes. -/
def describe : Lexeme → String
  | number value => "Number(" ++ toString value ++ ")"
  | string text => "String(" ++ Text.quoted text ++ ")"
  | identifier name => "Identifier(" ++ name ++ ")"
  | operator symbol => "Operator(" ++ symbol ++ ")"
  | endOfLine => "EOL"

end Lexeme

/-- A payload was asked of a token that does not carry it. -/
inductive TokenError where
  | notANumber (text : String)
  deriving DecidableEq, Repr

def TokenError.message : TokenError → String
  | notANumber text => "not a number token: '" ++ text ++ "'"

namespace Token

def lexeme? : Token → Option Lexeme
  | scanned _ lexeme => some lexeme
  | endOfInput => none

def line? : Token → Option Nat
  | scanned line _ => some line
  | endOfInput => none

def text : Token → String
  | scanned _ lexeme => lexeme.text
  | endOfInput => ""

def isSpelled : Token → String → Bool
  | scanned _ lexeme, spelling => lexeme.isSpelled spelling
  | endOfInput, _ => false

def describe : Token → String
  | scanned _ lexeme => lexeme.describe
  | endOfInput => "EOF"

def isNumber : Token → Bool
  | scanned _ (.number _) => true
  | _ => false

def isString : Token → Bool
  | scanned _ (.string _) => true
  | _ => false

def isIdentifier : Token → Bool
  | scanned _ (.identifier _) => true
  | _ => false

def isOperator : Token → Bool
  | scanned _ (.operator _) => true
  | _ => false

def isEndOfLine : Token → Bool
  | scanned _ .endOfLine => true
  | _ => false

def isEndOfInput : Token → Bool
  | endOfInput => true
  | scanned _ _ => false

def numberValue : Token → Except TokenError Int
  | scanned _ (.number value) => .ok value
  | token => .error (.notANumber token.text)

def name? : Token → Option String
  | scanned _ (.identifier name) => some name
  | _ => none

@[simp] theorem isEndOfInput_iff {token : Token} :
    token.isEndOfInput = true ↔ token = endOfInput := by
  cases token <;> simp [isEndOfInput]

end Token

end ParseKit
