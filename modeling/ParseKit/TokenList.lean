import ParseKit.TokenStream

/-! Tokens that are all there from the start, read by position. Nothing is buffered or dropped, so
a checkpoint is the position itself. -/

namespace ParseKit

structure TokenList where
  tokens : Array Token
  position : Nat := 0
  journal : Journal := []

namespace TokenList

/-- The token `k` places ahead, the end of the input if there is none. -/
def ahead (k : Nat) (list : TokenList) : Token :=
  list.tokens.getD (list.position + k) .endOfInput

/-- The list after its next token. At the end it stays where it is. -/
def advance (list : TokenList) : TokenList :=
  if list.position < list.tokens.size then { list with position := list.position + 1 } else list

instance : TokenStream TokenList where
  peek k list := (.ok (list.ahead k), list)
  read list := (.ok (list.ahead 0), list.advance)
  cursor list := list.position
  checkpoint list := (⟨list.position⟩, list)
  rewind mark list := { list with position := mark.position }
  commit list := list
  report note list := { list with journal := note :: list.journal }
  unread list := list.tokens.size - list.position

end TokenList

end ParseKit
