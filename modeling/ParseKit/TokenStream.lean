import ParseKit.Journal
import ParseKit.LexError

/-! What a parser needs of its input: looking ahead, reading, and going back to a checkpoint. -/

namespace ParseKit

structure Checkpoint where
  position : Nat
  deriving DecidableEq, Repr

/-- States of type `σ` that give tokens one after the other. Past the last token every answer is
the end of the input. -/
class TokenStream (σ : Type) where
  /-- The token `k` places ahead of the next one. -/
  peek (k : Nat) (s : σ) : Except LexError Token × σ
  /-- Takes the next token. -/
  read (s : σ) : Except LexError Token × σ
  /-- The number of tokens taken so far. -/
  cursor (s : σ) : Nat
  /-- Marks the current position, to be rewound to or committed later. -/
  checkpoint (s : σ) : Checkpoint × σ
  /-- Goes back to a checkpoint and releases it. -/
  rewind (mark : Checkpoint) (s : σ) : σ
  /-- Keeps what was taken since the checkpoint and releases it. -/
  commit (s : σ) : σ
  /-- Adds a note to the journal. -/
  report (note : Note) (s : σ) : σ
  /-- At least as many as the tokens that can still be taken. -/
  unread (s : σ) : Nat

end ParseKit
