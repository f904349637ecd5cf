import ParseKit.Source
import ParseKit.TokenStream

/-! A lexer over the physical lines of a source. Lines are scanned on demand and their tokens are
buffered; `head` is the index of the next token in the buffer. Tokens before `head` are dropped as
soon as no checkpoint needs them. After the last line every answer is the end of the input. -/

namespace ParseKit

structure LexerOptions where
  /-- Whether every physical line is followed by an end-of-line token. -/
  emitEol : Bool := true
  deriving DecidableEq, Repr

structure Lexer where
  options : LexerOptions := {}
  /-- The lines that are not read yet. -/
  pending : Source
  buffer : Array Token := #[]
  head : Nat := 0
  /-- How many tokens were dropped from the front of the buffer. -/
  discarded : Nat := 0
  /-- How many checkpoints are outstanding. -/
  pins : Nat := 0
  /-- False once the end of the source was seen. -/
  hasMore : Bool := true
  /-- How many lines were read. -/
  lineNumber : Nat := 0
  journal : Journal := []

/-- The lexemes of line `line` as tokens, followed by an end-of-line token if one is asked for. -/
def lineTokens (options : LexerOptions) (line : Nat) (lexemes : List Lexeme) : List Token :=
  (lexemes ++ if options.emitEol then [Lexeme.endOfLine] else []).map (.scanned line)

namespace Lexer

def ofSource (source : Source) (options : LexerOptions) : Lexer where
  options := options
  pending := source

def report (note : Note) (lexer : Lexer) : Lexer :=
  { lexer with journal := note :: lexer.journal }

def trace (text : String) (lexer : Lexer) : Lexer :=
  lexer.report ⟨.trace, text⟩

def cursor (lexer : Lexer) : Nat :=
  lexer.discarded + lexer.head

/-- Drops the tokens before `head`, unless a checkpoint is outstanding. -/
def compact (lexer : Lexer) : Lexer :=
  if lexer.pins = 0 then
    { lexer with
      buffer := lexer.buffer.extract lexer.head lexer.buffer.size
      discarded := lexer.discarded + lexer.head
      head := 0 }
  else lexer

/-- Buffers the tokens of one more line. A line that is not text is skipped without being counted,
one that does not scan is counted and leaves no token. -/
def readLine (line : PhysicalLine) (lexer : Lexer) : Except LexError Unit × Lexer :=
  match line with
  | .undecodable => (.error ⟨lexer.lineNumber + 1, .unreadable notUtf8⟩, lexer)
  | .text chars =>
    let lexer := { lexer with lineNumber := lexer.lineNumber + 1 }
    match Scan.lexemes chars with
    | .error fault => (.error ⟨lexer.lineNumber, .scan fault⟩, lexer)
    | .ok lexemes =>
      let lexer := lexer.trace s!"line {lexer.lineNumber}: {lexemes.length} tokens"
      let tokens := lineTokens lexer.options lexer.lineNumber lexemes
      (.ok (), { lexer with buffer := lexer.buffer ++ tokens })

def finish (lexer : Lexer) : Lexer :=
  if lexer.hasMore then
    { lexer.trace s!"source exhausted after {lexer.lineNumber} lines" with hasMore := false }
  else lexer

/-- Reads from `lines`, which are the pending ones, until token `k` past the head is buffered.
The answer is false when the source ends before it. -/
def fillFrom (k : Nat) (lexer : Lexer) (lines : Source) : Except LexError Bool × Lexer :=
  if lexer.head + k < lexer.buffer.size then (.ok true, lexer)
  else
    match lines with
    | [] => (.ok false, lexer.finish)
    | line :: rest =>
      match readLine line { lexer with pending := rest } with
      | (.error error, lexer) => (.error error, lexer)
      | (.ok (), lexer) => fillFrom k lexer rest

def fill (k : Nat) (lexer : Lexer) : Except LexError Bool × Lexer :=
  lexer.fillFrom k lexer.pending

/-- The buffered token `k` places past the head, the end of the input if there is none. -/
def buffered (k : Nat) (lexer : Lexer) : Token :=
  lexer.buffer.getD (lexer.head + k) .endOfInput

/-- The token `k` places ahead of the next one. Nothing is taken. -/
def peek (k : Nat) (lexer : Lexer) : Except LexError Token × Lexer :=
  match lexer.fill k with
  | (.error error, lexer) => (.error error, lexer)
  | (.ok _, lexer) => (.ok (lexer.buffered k), lexer)

def read (lexer : Lexer) : Except LexError Token × Lexer :=
  match lexer.fill 0 with
  | (.error error, lexer) => (.error error, lexer)
  | (.ok false, lexer) => (.ok .endOfInput, lexer)
  | (.ok true, lexer) =>
    (.ok (lexer.buffered 0), { lexer with head := lexer.head + 1 }.compact)

def checkpoint (lexer : Lexer) : Checkpoint × Lexer :=
  (⟨lexer.cursor⟩, { lexer with pins := lexer.pins + 1 })

def rewind (mark : Checkpoint) (lexer : Lexer) : Lexer :=
  let lexer := lexer.trace s!"rewinding lexer from token {lexer.cursor} to {mark.position}"
  { lexer with head := mark.position - lexer.discarded, pins := lexer.pins - 1 }

def commit (lexer : Lexer) : Lexer :=
  { lexer with pins := lexer.pins - 1 }.compact

/-- A line of `n` characters has at most `n` lexemes, and an end-of-line token may follow them. -/
def lineBound : PhysicalLine → Nat
  | .text chars => chars.length + 1
  | .undecodable => 0

def sourceBound : Source → Nat
  | [] => 0
  | line :: rest => lineBound line + sourceBound rest

/-- At least as many as the tokens that can still be taken. -/
def unread (lexer : Lexer) : Nat :=
  (lexer.buffer.size - lexer.head) + sourceBound lexer.pending

instance : TokenStream Lexer where
  peek := peek
  read := read
  cursor := cursor
  checkpoint := checkpoint
  rewind := rewind
  commit := commit
  report := report
  unread := unread

/-- The next token, or none at the end of the input. -/
def next? (lexer : Lexer) : Except LexError (Option Token) × Lexer :=
  match lexer.read with
  | (.error error, lexer) => (.error error, lexer)
  | (.ok .endOfInput, lexer) => (.ok none, lexer)
  | (.ok token, lexer) => (.ok (some token), lexer)

/-- Takes tokens until the end of the input or the first error, at most `bound` of them. The first
component holds the tokens taken, the second the error that ended the run. -/
def drain (bound : Nat) (lexer : Lexer) : List Token × Option LexError × Lexer :=
  match bound with
  | 0 => ([], none, lexer)
  | bound + 1 =>
    match lexer.next? with
    | (.error error, lexer) => ([], some error, lexer)
    | (.ok none, lexer) => ([], none, lexer)
    | (.ok (some token), lexer) =>
      let (tokens, error?, lexer) := drain bound lexer
      (token :: tokens, error?, lexer)

/-- All tokens up to the end of the input, and the error that came before it if there was one. -/
def rest (lexer : Lexer) : List Token × Option LexError × Lexer :=
  lexer.drain (lexer.unread + 1)

end Lexer

/-- All tokens of a source, end-of-line tokens included, or its first error. -/
def tokenize (source : Source) (options : LexerOptions) : Except LexError (List Token) :=
  match (Lexer.ofSource source options).rest with
  | (tokens, none, _) => .ok tokens
  | (_, some error, _) => .error error

end ParseKit
