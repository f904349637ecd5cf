import ParseKit.Proofs.Script.WellFormed
import ParseKit.Proofs.WrittenSource

/-! Printing programs. A statement is printed on a line of its own, compound operands in parentheses
and blocks in braces. What is printed for a tree is a phrase with this tree, and a printed line scans
to what was printed on it. Main statement: `Script.parseProgram_print`, a printed program parses to
the program, and every program is one that can be printed. -/

namespace ParseKit

def Token.onLine (line : Nat) : Token → Token
  | scanned _ lexeme => scanned line lexeme
  | endOfInput => endOfInput

namespace Node

mutual

def onLine (line : Nat) : Node → Node
  | leaf kind token => leaf kind (token.onLine line)
  | list kind children => list kind (allOnLine line children)

def allOnLine (line : Nat) : List Node → List Node
  | [] => []
  | node :: rest => node.onLine line :: allOnLine line rest

end

@[simp] theorem onLine_leaf (line : Nat) (kind : NodeKind) (token : Token) :
    (leaf kind token).onLine line = leaf kind (token.onLine line) := by
  rw [onLine]

@[simp] theorem onLine_list (line : Nat) (kind : NodeKind) (children : List Node) :
    (list kind children).onLine line = list kind (children.map (onLine line)) := by
  rw [onLine]
  congr 1
  induction children with
  | nil => rw [allOnLine, List.map_nil]
  | cons node rest ih => rw [allOnLine, ih, List.map_cons]

mutual

theorem onLine_onLine (line other : Nat) : ∀ node : Node, (node.onLine other).onLine line = node.onLine line
  | leaf kind token => by cases token <;> simp [Token.onLine]
  | list kind children => by simp [-List.map_map, map_onLine_onLine line other children]

theorem map_onLine_onLine (line other : Nat) :
    ∀ nodes : List Node, (nodes.map (onLine other)).map (onLine line) = nodes.map (onLine line)
  | [] => rfl
  | node :: rest => by
    rw [List.map_cons, List.map_cons, List.map_cons, onLine_onLine line other node,
      map_onLine_onLine line other rest]

end

end Node

namespace Script

def enclose (operand : Node) (lexemes : List Lexeme) : List Lexeme :=
  if operand.isLeaf then lexemes else .operator "(" :: lexemes ++ [.operator ")"]

mutual

def printed : Node → List Lexeme
  | .leaf _ token => token.lexeme?.toList
  | .list kind children =>
    if kind = negativeKind then .operator "-" :: printedOperands children
    else if kind = binaryKind then printedOperands children
    else if kind = blockKind then .operator "\x7b" :: printedBody children ++ [.operator "\x7d"]
    else if kind = ifKind then .identifier "if" :: printedParts children
    else if kind = whileKind then .identifier "while" :: printedParts children
    else []

def printedOperands : List Node → List Lexeme
  | [] => []
  | node :: rest => enclose node (printed node) ++ printedOperands rest

def printedBody : List Node → List Lexeme
  | [] => []
  | statement :: rest => printed statement ++ printedItems rest

def printedItems : List Node → List Lexeme
  | [] => []
  | statement :: rest => .operator ";" :: printed statement ++ printedItems rest

def printedParts : List Node → List Lexeme
  | [condition, body] => printed condition ++ printed body
  | [condition, body, otherwise] =>
    printed condition ++ printed body ++ .identifier "else" :: printed otherwise
  | _ => []

end

/-- A program as a text, with one line for each statement. -/
def print (nodes : List Node) : String :=
  String.ofList (Source.writeLines (nodes.map printed))

section Printed

/-- The kinds that printing tells apart, in the order in which it asks for them. -/
theorem kinds_apart : binaryKind ≠ negativeKind ∧
    (blockKind ≠ negativeKind ∧ blockKind ≠ binaryKind) ∧
    (ifKind ≠ negativeKind ∧ ifKind ≠ binaryKind ∧ ifKind ≠ blockKind) ∧
    (whileKind ≠ negativeKind ∧ whileKind ≠ binaryKind ∧ whileKind ≠ blockKind ∧ whileKind ≠ ifKind) ∧
    nullKind ≠ negativeKind ∧ nullKind ≠ binaryKind ∧ nullKind ≠ blockKind ∧ nullKind ≠ ifKind ∧
      nullKind ≠ whileKind := by
  decide

@[simp] theorem printed_leaf (kind : NodeKind) (line : Nat) (lexeme : Lexeme) :
    printed (.leaf kind (.scanned line lexeme)) = [lexeme] := by
  simp [printed, Token.lexeme?]

@[simp] theorem printed_negative (operand : Node) : printed (.list negativeKind [operand]) =
    .operator "-" :: enclose operand (printed operand) := by
  simp [printed, printedOperands]

@[simp] theorem printed_binary (left operator right : Node) :
    printed (.list binaryKind [left, operator, right]) = enclose left (printed left) ++
      (enclose operator (printed operator) ++ enclose right (printed right)) := by
  simp [printed, printedOperands, kinds_apart]

@[simp] theorem printed_block (statements : List Node) : printed (.list blockKind statements) =
    .operator "\x7b" :: printedBody statements ++ [.operator "\x7d"] := by
  simp [printed, kinds_apart]

@[simp] theorem printed_ifThen (condition body : Node) : printed (.list ifKind [condition, body]) =
    .identifier "if" :: (printed condition ++ printed body) := by
  simp [printed, printedParts, kinds_apart]

@[simp] theorem printed_ifElse (condition body otherwise : Node) :
    printed (.list ifKind [condition, body, otherwise]) = .identifier "if" ::
      (printed condition ++ printed body ++ .identifier "else" :: printed otherwise) := by
  simp [printed, printedParts, kinds_apart]

@[simp] theorem printed_while (condition body : Node) : printed (.list whileKind [condition, body]) =
    .identifier "while" :: (printed condition ++ printed body) := by
  simp [printed, printedParts, kinds_apart]

@[simp] theorem printed_null : printed (.list nullKind []) = [] := by
  simp [printed, kinds_apart]

@[simp] theorem enclose_leaf (kind : NodeKind) (token : Token) (lexemes : List Lexeme) :
    enclose (.leaf kind token) lexemes = lexemes := rfl

@[simp] theorem enclose_list (kind : NodeKind) (children : List Node) (lexemes : List Lexeme) :
    enclose (.list kind children) lexemes = .operator "(" :: lexemes ++ [.operator ")"] := rfl

end Printed

section Phrases

variable (line : Nat)

theorem isSymbol_scanned (symbol : String) : IsSymbol symbol (.scanned line (.operator symbol)) :=
  ⟨line, rfl⟩

theorem isWord_scanned (word : String) : IsWord word (.scanned line (.identifier word)) :=
  ⟨line, rfl⟩

theorem Factor.binary {us vs : List Token} {left right : Node} {operator : Token} (hleft : Factor us left)
    (hoperator : IsOperator operator) (hright : Factor vs right) :
    Expr (us ++ operator :: vs) (.list binaryKind [left, .leaf .leaf operator, right]) := by
  have hgroups : (OperatorTree.binary (.operand left) operator (.operand right)).Groups operators.Yields
      left [(operator, right)] :=
    ⟨rfl, rfl, by simp [OperatorTree.Grouped, OperatorTree.leftSpine, OperatorTree.rightSpine]⟩
  exact .grouped (.operator hleft hoperator (.factor hright)) hgroups

/-- What is printed for the tree is an expression with this tree, and in parentheses an operand. -/
structure ReadsBack (node : Node) : Prop where
  expr : Expr ((printed node).map (.scanned line)) (node.onLine line)
  operand : Primary ((enclose node (printed node)).map (.scanned line)) (node.onLine line)

variable {line}

theorem ReadsBack.leaf {kind : NodeKind} {lexeme : Lexeme} (other : Nat)
    (h : Primary [.scanned line lexeme] (.leaf kind (.scanned line lexeme))) :
    ReadsBack line (.leaf kind (.scanned other lexeme)) where
  expr := by simpa [Token.onLine] using (Factor.primary h).expr
  operand := by simpa [Token.onLine] using h

theorem ReadsBack.list {kind : NodeKind} {children : List Node}
    (h : Expr ((printed (.list kind children)).map (.scanned line)) ((Node.list kind children).onLine line)) :
    ReadsBack line (.list kind children) where
  expr := h
  operand := by simpa using Primary.paren (isSymbol_scanned line "(") h (isSymbol_scanned line ")")

theorem IsExpression.readsBack (line : Nat) {node : Node} (h : IsExpression node) : ReadsBack line node := by
  induction h with
  | number other hlower hupper => exact .leaf other (.number line ⟨hlower, hupper⟩)
  | name other h hreserved => exact .leaf other (.name line h hreserved)
  | string other text => exact .leaf other (.string line text)
  | negative _ ih =>
    have hexpr := (Factor.negative (isSymbol_scanned line "-") ih.operand).expr
    exact .list (by simpa using hexpr)
  | binary _ hoperator _ ihl ihr =>
    obtain ⟨symbol, precedence, ⟨other, rfl⟩, hget⟩ := hoperator
    have hoperator : IsOperator (.scanned line (.operator symbol)) :=
      ⟨symbol, precedence, isSymbol_scanned line symbol, hget⟩
    have hexpr := (Factor.primary ihl.operand).binary hoperator (.primary ihr.operand)
    exact .list (by simpa [Token.onLine] using hexpr)

mutual

theorem IsBlock.reads {node : Node} :
    IsBlock node → Block ((printed node).map (.scanned line)) (node.onLine line)
  | .intro .nil => by
    have hblock := Block.blank (isSymbol_scanned line "\x7b") .nil (isSymbol_scanned line "\x7d")
    simpa [printedBody] using hblock
  | .intro (.cons h hrest) => by
    have hblock := Block.filled (isSymbol_scanned line "\x7b") h.reads hrest.reads
      (isSymbol_scanned line "\x7d")
    simpa [printedBody] using hblock

theorem IsBody.reads {statements : List Node} : IsBody statements →
    Items ((printedItems statements).map (.scanned line)) (statements.map (Node.onLine line))
  | .nil => by
    rw [printedItems]
    exact .nil
  | .cons h hrest => by
    have hitems := Items.statement (.inl (isSymbol_scanned line ";")) h.reads hrest.reads
    simpa [printedItems] using hitems

theorem IsStatement.reads {node : Node} :
    IsStatement node → Statement ((printed node).map (.scanned line)) (node.onLine line)
  | .expression h => .simple (h.readsBack line).expr
  | .ifThen hcondition hbody => by
    have hstatement := Statement.ifThen (isWord_scanned line "if")
      (hcondition.readsBack line).expr hbody.reads
    simpa using hstatement
  | .ifElse hcondition hbody hotherwise => by
    have hstatement := Statement.ifElse (isWord_scanned line "if")
      (hcondition.readsBack line).expr hbody.reads (isWord_scanned line "else") hotherwise.reads
    simpa using hstatement
  | .whileLoop hcondition hbody => by
    have hstatement := Statement.whileLoop (isWord_scanned line "while")
      (hcondition.readsBack line).expr hbody.reads
    simpa using hstatement

end

end Phrases

/-- The lines of a printed program are its statements, up to line numbers. -/
theorem IsProgram.reads {nodes : List Node} (h : IsProgram nodes) (line : Nat) :
    ∃ parsed, Phrases Program (Source.linesTokens {} line (nodes.map printed)) parsed ∧
      parsed.map (Node.onLine 0) = nodes.map (Node.onLine 0) := by
  induction h generalizing line with
  | nil => exact ⟨[], .nil, rfl⟩
  | @statement node nodes h _ ih =>
    obtain ⟨parsed, hphrases, hparsed⟩ := ih (line + 1)
    have hread : Statement ((printed node).map (.scanned (line + 1))) (node.onLine (line + 1)) := h.reads
    have hline := Program.statement hread (.inr ⟨line + 1, rfl⟩)
    refine ⟨node.onLine (line + 1) :: parsed, ?_, ?_⟩
    · have hall := Phrases.cons hline hphrases
      simpa [Source.linesTokens, lineTokens] using hall
    · rw [List.map_cons, List.map_cons, Node.onLine_onLine, hparsed]
  | @null nodes _ ih =>
    obtain ⟨parsed, hphrases, hparsed⟩ := ih (line + 1)
    refine ⟨.list nullKind [] :: parsed, ?_, ?_⟩
    · have hline : Program [.scanned (line + 1) .endOfLine] (.list nullKind []) :=
        .null (.inr ⟨line + 1, rfl⟩)
      simpa [Source.linesTokens, lineTokens] using Phrases.cons hline hphrases
    · rw [List.map_cons, List.map_cons, hparsed]

section Plain

open Scan

theorem isPlain_operator {symbol : String} (h : isSymbol symbol = true) (hunderscore : symbol ≠ "_")
    (hquote : symbol ≠ "\"") : IsPlain (.operator symbol) where
  scannable := Lexeme.scannable_operator_iff.2 h
  notUnderscore heq := hunderscore (Lexeme.operator.inj heq)
  notQuote heq := hquote (Lexeme.operator.inj heq)

theorem isPlain_identifier {name : String} (h : (Lexeme.identifier name).Scannable) :
    IsPlain (.identifier name) :=
  ⟨h, by simp, by simp⟩

theorem isPlain_word {word : String} (h : word ∈ keywords) : IsPlain (.identifier word) := by
  simp only [keywords, List.mem_cons, List.not_mem_nil, or_false] at h
  rcases h with rfl | rfl | rfl <;> exact isPlain_identifier ⟨_, _, rfl, rfl, rfl⟩

theorem IsOperator.isPlain {line : Nat} {symbol : String} (h : IsOperator (.scanned line (.operator symbol))) :
    IsPlain (.operator symbol) := by
  have hscannable := (isOperator_iff.1 h).2.resolve_right (by simp)
  obtain ⟨_, precedence, ⟨_, ⟨⟩⟩, hget⟩ := h
  have hunderscore : operators.get? "_" = none := by decide
  have hquote : operators.get? "\"" = none := by decide
  refine isPlain_operator (Lexeme.scannable_operator_iff.1 hscannable) ?_ ?_
  · rintro rfl
    cases hunderscore.symm.trans hget
  · rintro rfl
    cases hquote.symm.trans hget

theorem isPlain_enclose {lexemes : List Lexeme} (node : Node) (h : ∀ lexeme ∈ lexemes, IsPlain lexeme) :
    ∀ lexeme ∈ enclose node lexemes, IsPlain lexeme := by
  have hopening : IsPlain (.operator "(") := isPlain_operator rfl (by decide) (by decide)
  have hclosing : IsPlain (.operator ")") := isPlain_operator rfl (by decide) (by decide)
  unfold enclose
  split
  · exact h
  · simpa [or_imp, forall_and, hopening, hclosing] using h

theorem IsExpression.isPlain {node : Node} (h : IsExpression node) :
    ∀ lexeme ∈ printed node, IsPlain lexeme := by
  induction h with
  | number other hlower hupper => simpa using ⟨⟨hlower, hupper⟩, by simp, by simp⟩
  | name other h hreserved => simpa using isPlain_identifier h
  | string other text => simpa using ⟨trivial, by simp, by simp⟩
  | @negative operand _ ih =>
    have hminus : IsPlain (.operator "-") := isPlain_operator rfl (by decide) (by decide)
    simpa [hminus] using isPlain_enclose operand ih
  | @binary left right _ _ hoperator _ ihl ihr =>
    obtain ⟨symbol, precedence, ⟨other, rfl⟩, hget⟩ := id hoperator
    have hleft := isPlain_enclose left ihl
    have hright := isPlain_enclose right ihr
    simpa [or_imp, forall_and, hoperator.isPlain] using ⟨hleft, hright⟩

mutual

theorem IsBlock.isPlain {node : Node} : IsBlock node → ∀ lexeme ∈ printed node, IsPlain lexeme
  | .intro h => by
    have hopening : IsPlain (.operator "\x7b") := isPlain_operator rfl (by decide) (by decide)
    have hclosing : IsPlain (.operator "\x7d") := isPlain_operator rfl (by decide) (by decide)
    have hbody : ∀ lexeme ∈ printedBody _, IsPlain lexeme := h.isPlain.1
    simpa [or_imp, forall_and, hopening, hclosing] using hbody

theorem IsBody.isPlain {statements : List Node} : IsBody statements →
    (∀ lexeme ∈ printedBody statements, IsPlain lexeme) ∧ ∀ lexeme ∈ printedItems statements, IsPlain lexeme
  | .nil => by simp [printedBody, printedItems]
  | .cons h hrest => by
    have hsemicolon : IsPlain (.operator ";") := isPlain_operator rfl (by decide) (by decide)
    simpa [printedBody, printedItems, or_imp, forall_and, hsemicolon] using ⟨h.isPlain, hrest.isPlain.2⟩

theorem IsStatement.isPlain {node : Node} : IsStatement node → ∀ lexeme ∈ printed node, IsPlain lexeme
  | .expression h => h.isPlain
  | .ifThen hcondition hbody => by
    have hif : IsPlain (.identifier "if") := isPlain_word (by decide)
    simpa [or_imp, forall_and, hif] using ⟨hcondition.isPlain, hbody.isPlain⟩
  | .ifElse hcondition hbody hotherwise => by
    have hif : IsPlain (.identifier "if") := isPlain_word (by decide)
    have helse : IsPlain (.identifier "else") := isPlain_word (by decide)
    simpa [or_imp, forall_and, hif, helse] using
      ⟨hcondition.isPlain, hbody.isPlain, hotherwise.isPlain⟩
  | .whileLoop hcondition hbody => by
    have hwhile : IsPlain (.identifier "while") := isPlain_word (by decide)
    simpa [or_imp, forall_and, hwhile] using ⟨hcondition.isPlain, hbody.isPlain⟩

end

end Plain

theorem IsProgram.writable {nodes : List Node} (h : IsProgram nodes) :
    ∀ lexemes ∈ nodes.map printed, Scan.Writable lexemes := by
  induction h with
  | nil => simp
  | statement h _ ih => exact List.forall_mem_cons.2 ⟨Scan.writable_of_isPlain h.isPlain, ih⟩
  | null _ ih => exact List.forall_mem_cons.2 ⟨by rw [printed_null]; trivial, ih⟩

/-- Printing undoes parsing. What a program parses to is a list of such trees, and each such list is
what its printed text parses to, but for the lines that the tokens are on. -/
theorem parseProgram_print :
    (∀ source options nodes, parseProgram source options = .ok nodes → IsProgram nodes) ∧
      ∀ nodes, IsProgram nodes → ∃ parsed, parseProgram (Source.ofString (print nodes)) {} = .ok parsed ∧
        parsed.map (Node.onLine 0) = nodes.map (Node.onLine 0) := by
  refine ⟨fun source options nodes => isProgram_of_parseProgram, fun nodes h => ?_⟩
  have hsource : Source.ofString (print nodes) = Source.ofChars (Source.writeLines (nodes.map printed)) := by
    rw [Source.ofString, print, String.toList_ofList]
  obtain ⟨parsed, hphrases, hparsed⟩ := h.reads 0
  refine ⟨parsed, ?_, hparsed⟩
  rw [parseProgram_eq_ok_iff, hsource, Source.tokens_ofChars_writeLines h.writable]
  exact ⟨Source.fault?_ofChars_writeLines h.writable, hphrases⟩

def loopAndSum : List Node :=
  [.list whileKind [.leaf nameKind (.scanned 1 (.identifier "x")),
    .list blockKind [.leaf numberKind (.scanned 2 (.number 1)), .leaf numberKind (.scanned 3 (.number 2))]],
    .list nullKind [],
    .list binaryKind [.list negativeKind [.leaf numberKind (.scanned 5 (.number 10))],
      .leaf .leaf (.scanned 5 (.operator "+")), .leaf stringKind (.scanned 6 (.string "\"a\\\n"))]]

example : print loopAndSum =
    "while x \x7b 1 ; 2 \x7d\n\n( - 10 ) + \"\\\"a\\\\\\n\"\n" := by cbv

theorem parseProgram_print_loopAndSum : IsProgram loopAndSum ∧ ∃ parsed,
    parseProgram (Source.ofString (print loopAndSum)) {} = .ok parsed ∧
      parsed.map (Node.onLine 0) = loopAndSum.map (Node.onLine 0) ∧ IsProgram parsed := by
  have hname : IsExpression (.leaf nameKind (.scanned 1 (.identifier "x"))) :=
    .name 1 ⟨'x', [], rfl, rfl, rfl⟩ (by decide)
  have hnumber (line : Nat) {value : Int} (hlower : 0 ≤ value) (hupper : value ≤ 10) :
      IsExpression (.leaf numberKind (.scanned line (.number value))) :=
    .number line hlower (Int.le_trans hupper (by decide))
  have hbody : IsBody [.leaf numberKind (.scanned 2 (.number 1)), .leaf numberKind (.scanned 3 (.number 2))] :=
    .cons (.expression (hnumber 2 (by decide) (by decide)))
      (.cons (.expression (hnumber 3 (by decide) (by decide))) .nil)
  have hsum : IsExpression (.list binaryKind [.list negativeKind [.leaf numberKind (.scanned 5 (.number 10))],
      .leaf .leaf (.scanned 5 (.operator "+")), .leaf stringKind (.scanned 6 (.string "\"a\\\n"))]) :=
    .binary (.negative (hnumber 5 (by decide) (by decide))) ⟨"+", ⟨3, .left⟩, ⟨5, rfl⟩, by decide⟩ (.string 6 _)
  have hprogram : IsProgram loopAndSum :=
    .statement (.whileLoop hname (.intro hbody)) (.null (.statement (.expression hsum) .nil))
  obtain ⟨parsed, hparse, hsame⟩ := parseProgram_print.2 loopAndSum hprogram
  exact ⟨hprogram, parsed, hparse, hsame, parseProgram_print.1 _ _ _ hparse⟩

end Script

end ParseKit
