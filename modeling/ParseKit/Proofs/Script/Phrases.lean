import ParseKit.Script
import ParseKit.Proofs.TokenClasses
import ParseKit.Proofs.WholeInput

/-! The phrases of the statement language as relations between tokens and nodes, one constructor for
each alternative of the documented grammar, and the tokens that phrases begin with. -/

namespace ParseKit

namespace Script

def IsSymbol (symbol : String) (token : Token) : Prop :=
  ∃ line, token = .scanned line (.operator symbol)

def IsWord (word : String) (token : Token) : Prop :=
  ∃ line, token = .scanned line (.identifier word)

/-- What ends a statement: a semicolon or the end of a line. -/
def IsSeparator (token : Token) : Prop :=
  IsSymbol ";" token ∨ ∃ line, token = .scanned line .endOfLine

def IsOperator (token : Token) : Prop :=
  ∃ symbol precedence, IsSymbol symbol token ∧ operators.get? symbol = some precedence

section Spellings

variable {token : Token}

theorem eq_of_spelling {text : String} (h : token.spelling? = some text) (hscannable : token.Scannable) :
    (Lexeme.identifier text).Scannable ∧ IsWord text token ∨
      Scan.isSymbol text = true ∧ IsSymbol text token ∨
      text = endOfLineText ∧ ∃ line, token = .scanned line .endOfLine := by
  rcases token with ⟨line, lexeme⟩ | _
  · cases lexeme with
    | identifier name =>
      cases h
      exact .inl ⟨hscannable.resolve_right (by simp), line, rfl⟩
    | operator symbol =>
      cases h
      exact .inr (.inl ⟨Lexeme.scannable_operator_iff.1 (hscannable.resolve_right (by simp)), line, rfl⟩)
    | endOfLine =>
      cases h
      exact .inr (.inr ⟨rfl, line, rfl⟩)
    | number | string => cases h
  · cases h

theorem isSymbol_iff {symbol : String} (hsymbol : Scan.isSymbol symbol = true)
    (hname : Scan.beginsName symbol = false) (hne : symbol ≠ endOfLineText) : IsSymbol symbol token ↔
      (TokenClass.spelled [symbol]).accepts token = true ∧ token.Scannable := by
  constructor
  · rintro ⟨line, rfl⟩
    exact ⟨TokenClass.accepts_spelled_iff.2 ⟨symbol, by simp, rfl⟩,
      .inl (Lexeme.scannable_operator_iff.2 hsymbol)⟩
  · rintro ⟨haccepts, hscannable⟩
    obtain ⟨text, hmem, hspelling⟩ := TokenClass.accepts_spelled_iff.1 haccepts
    obtain rfl := List.mem_singleton.1 hmem
    rcases eq_of_spelling hspelling hscannable with ⟨hword, _⟩ | ⟨_, h⟩ | ⟨heq, _⟩
    · rw [hword.beginsName] at hname
      cases hname
    · exact h
    · exact absurd heq hne

theorem isWord_iff {word : String} (hword : (Lexeme.identifier word).Scannable)
    (hsymbol : Scan.isSymbol word = false) (hne : word ≠ endOfLineText) : IsWord word token ↔
      (TokenClass.spelled [word]).accepts token = true ∧ token.Scannable := by
  constructor
  · rintro ⟨line, rfl⟩
    exact ⟨TokenClass.accepts_spelled_iff.2 ⟨word, by simp, rfl⟩, .inl hword⟩
  · rintro ⟨haccepts, hscannable⟩
    obtain ⟨text, hmem, hspelling⟩ := TokenClass.accepts_spelled_iff.1 haccepts
    obtain rfl := List.mem_singleton.1 hmem
    rcases eq_of_spelling hspelling hscannable with ⟨_, h⟩ | ⟨hsymbol', _⟩ | ⟨heq, _⟩
    · exact h
    · rw [hsymbol'] at hsymbol
      cases hsymbol
    · exact absurd heq hne

theorem isSeparator_iff : IsSeparator token ↔
    (TokenClass.spelled separators).accepts token = true ∧ token.Scannable := by
  constructor
  · rintro (⟨line, rfl⟩ | ⟨line, rfl⟩)
    · exact ⟨TokenClass.accepts_spelled_iff.2 ⟨";", by simp [separators], rfl⟩,
        .inl (Lexeme.scannable_operator_iff.2 rfl)⟩
    · exact ⟨TokenClass.accepts_spelled_iff.2 ⟨endOfLineText, by simp [separators], rfl⟩, .inr rfl⟩
  · rintro ⟨haccepts, hscannable⟩
    obtain ⟨text, hmem, hspelling⟩ := TokenClass.accepts_spelled_iff.1 haccepts
    have hname : ∀ text ∈ separators, Scan.beginsName text = false := by decide
    rcases eq_of_spelling hspelling hscannable with ⟨hword, _⟩ | ⟨hsymbol, h⟩ | ⟨_, h⟩
    · have hnot := hname text hmem
      rw [hword.beginsName] at hnot
      cases hnot
    · have hsemicolon : ∀ text ∈ separators, Scan.isSymbol text = true → text = ";" := by decide
      exact .inl (hsemicolon text hmem hsymbol ▸ h)
    · exact .inr h

theorem isOperator_iff : IsOperator token ↔ operators.Names token ∧ token.Scannable := by
  have hkeys : ∀ text ∈ operators.keys, Scan.isSymbol text = true ∧ Scan.beginsName text = false ∧
      text ≠ endOfLineText := by decide
  constructor
  · rintro ⟨symbol, precedence, ⟨line, rfl⟩, hget⟩
    have hnames : operators.Names (.scanned line (.operator symbol)) := ⟨.inr rfl, precedence, hget⟩
    refine ⟨hnames, .inl (Lexeme.scannable_operator_iff.2 ?_)⟩
    obtain ⟨text, hmem, hspelling⟩ := TokenClass.accepts_spelled_iff.1 (Grammar.accepts_keys_of_names hnames)
    cases hspelling
    exact (hkeys symbol hmem).1
  · rintro ⟨hnames, hscannable⟩
    obtain ⟨text, hmem, hspelling⟩ := TokenClass.accepts_spelled_iff.1 (Grammar.accepts_keys_of_names hnames)
    obtain ⟨_, hname, hne⟩ := hkeys text hmem
    rcases eq_of_spelling hspelling hscannable with ⟨hword, _⟩ | ⟨_, line, rfl⟩ | ⟨heq, _⟩
    · rw [hword.beginsName] at hname
      cases hname
    · obtain ⟨_, precedence, hget⟩ := hnames
      exact ⟨text, precedence, ⟨line, rfl⟩, hget⟩
    · exact absurd heq hne

end Spellings

def treeNode : OperatorTree → Node
  | .operand node => node
  | .binary left operator right =>
    .list binaryKind [treeNode left, .leaf .leaf operator, treeNode right]

mutual

inductive Primary : List Token → Node → Prop
  | paren {opening closing : Token} {us : List Token} {node : Node} (hopening : IsSymbol "(" opening)
    (h : Expr us node) (hclosing : IsSymbol ")" closing) : Primary (opening :: us ++ [closing]) node
  | number (line : Nat) {value : Int} (h : (Lexeme.number value).Scannable) :
    Primary [.scanned line (.number value)] (.leaf numberKind (.scanned line (.number value)))
  | name (line : Nat) {name : String} (h : (Lexeme.identifier name).Scannable)
    (hreserved : name ∉ keywords) :
    Primary [.scanned line (.identifier name)] (.leaf nameKind (.scanned line (.identifier name)))
  | string (line : Nat) (text : String) :
    Primary [.scanned line (.string text)] (.leaf stringKind (.scanned line (.string text)))

inductive Factor : List Token → Node → Prop
  | negative {minus : Token} {us : List Token} {node : Node} (hminus : IsSymbol "-" minus)
    (h : Primary us node) : Factor (minus :: us) (.list negativeKind [node])
  | primary {us : List Token} {node : Node} (h : Primary us node) : Factor us node

/-- A factor, and operators with a factor after each. -/
inductive Chain : List Token → Node → List (Token × Node) → Prop
  | factor {us : List Token} {node : Node} (h : Factor us node) : Chain us node []
  | operator {operator : Token} {us vs : List Token} {node next : Node} {rest : List (Token × Node)}
    (h : Factor us node) (hoperator : IsOperator operator) (hrest : Chain vs next rest) :
    Chain (us ++ operator :: vs) node ((operator, next) :: rest)

/-- The tree of an expression groups its chain as the precedences say. -/
inductive Expr : List Token → Node → Prop
  | grouped {us : List Token} {first : Node} {rest : List (Token × Node)} {tree : OperatorTree}
    (h : Chain us first rest) (hgroups : tree.Groups operators.Yields first rest) :
    Expr us (treeNode tree)

end

mutual

/-- An optional statement and separators with an optional statement after each, in braces. -/
inductive Block : List Token → Node → Prop
  | blank {opening closing : Token} {us : List Token} {nodes : List Node}
    (hopening : IsSymbol "\x7b" opening) (h : Items us nodes) (hclosing : IsSymbol "\x7d" closing) :
    Block (opening :: us ++ [closing]) (.list blockKind nodes)
  | filled {opening closing : Token} {us vs : List Token} {node : Node} {nodes : List Node}
    (hopening : IsSymbol "\x7b" opening) (h : Statement us node) (hrest : Items vs nodes)
    (hclosing : IsSymbol "\x7d" closing) :
    Block (opening :: us ++ vs ++ [closing]) (.list blockKind (node :: nodes))

/-- Separators, each with an optional statement after it. A blank item leaves no node. -/
inductive Items : List Token → List Node → Prop
  | nil : Items [] []
  | blank {separator : Token} {us : List Token} {nodes : List Node}
    (hseparator : IsSeparator separator) (h : Items us nodes) : Items (separator :: us) nodes
  | statement {separator : Token} {us vs : List Token} {node : Node} {nodes : List Node}
    (hseparator : IsSeparator separator) (h : Statement us node) (hrest : Items vs nodes) :
    Items (separator :: us ++ vs) (node :: nodes)

/-- A simple statement is an expression and adds no node of its own. -/
inductive Statement : List Token → Node → Prop
  | ifThen {word : Token} {us vs : List Token} {condition body : Node} (hword : IsWord "if" word)
    (hcondition : Expr us condition) (hbody : Block vs body) :
    Statement (word :: us ++ vs) (.list ifKind [condition, body])
  | ifElse {word other : Token} {us vs ws : List Token} {condition body otherwise : Node}
    (hword : IsWord "if" word) (hcondition : Expr us condition) (hbody : Block vs body)
    (hother : IsWord "else" other) (hotherwise : Block ws otherwise) :
    Statement (word :: us ++ vs ++ other :: ws) (.list ifKind [condition, body, otherwise])
  | whileLoop {word : Token} {us vs : List Token} {condition body : Node}
    (hword : IsWord "while" word) (hcondition : Expr us condition) (hbody : Block vs body) :
    Statement (word :: us ++ vs) (.list whileKind [condition, body])
  | simple {us : List Token} {node : Node} (h : Expr us node) : Statement us node

end

/-- An optional statement and a separator. -/
inductive Program : List Token → Node → Prop
  | statement {us : List Token} {node : Node} {separator : Token} (h : Statement us node)
    (hseparator : IsSeparator separator) : Program (us ++ [separator]) node
  | null {separator : Token} (hseparator : IsSeparator separator) :
    Program [separator] (.list nullKind [])

theorem Factor.expr {us : List Token} {node : Node} (h : Factor us node) : Expr us node :=
  @Expr.grouped us node [] (.operand node) (.factor h) ⟨rfl, rfl, trivial⟩

inductive ElsePart : List Token → Node → Prop
  | intro {word : Token} {us : List Token} {body : Node} (hword : IsWord "else" word)
    (hbody : Block us body) : ElsePart (word :: us) body

mutual

theorem Primary.not_empty {us : List Token} {node : Node} :
    Primary us node → node.isGenericEmpty = false
  | .paren _ h _ => h.not_empty
  | .number _ _ | .name _ _ _ | .string _ _ => rfl

theorem Factor.not_empty {us : List Token} {node : Node} :
    Factor us node → node.isGenericEmpty = false
  | .negative _ _ => rfl
  | .primary h => h.not_empty

theorem Chain.not_empty {us : List Token} {first : Node} {rest : List (Token × Node)} :
    Chain us first rest → first.isGenericEmpty = false
  | .factor h => h.not_empty
  | .operator h _ _ => h.not_empty

theorem Expr.not_empty {us : List Token} {node : Node} :
    Expr us node → node.isGenericEmpty = false
  | @Expr.grouped _ first _ tree h hgroups => by
    have hfirst : tree.first = first := hgroups.first
    cases tree with
    | operand node =>
      rw [treeNode, show node = first from hfirst]
      exact h.not_empty
    | binary left operator right => rfl

end

theorem Statement.kept {us : List Token} {node : Node} (h : Statement us node) :
    node.kept = [node] := by
  have hnode : node.isGenericEmpty = false := by
    cases h with
    | ifThen | ifElse | whileLoop => rfl
    | simple h => exact h.not_empty
  simp [Node.kept, hnode]

theorem Block.kept {us : List Token} {node : Node} (h : Block us node) : node.kept = [node] := by
  have hnode : node.isGenericEmpty = false := by
    cases h with
    | @blank _ _ _ nodes => cases nodes <;> rfl
    | filled => rfl
  simp [Node.kept, hnode]

theorem ElsePart.kept {us : List Token} {node : Node} (h : ElsePart us node) : node.kept = [node] := by
  obtain ⟨_, hbody⟩ := h
  exact hbody.kept

end Script

end ParseKit
