import ParseKit.Proofs.Leaves
import ParseKit.Proofs.Script.Program

/-! What becomes of the tokens of a program. The grammar drops the tokens that only give a program
its shape, and a minus sign either joins two operands, as a leaf, or stands for a node of its own.
Every phrase accounts for its tokens in this way, so a program does. Main statement:
`Script.parseProgram_accounts`. -/

namespace ParseKit

namespace Node

mutual

def countLists (kind : NodeKind) : Node → Nat
  | leaf _ _ => 0
  | list k children => (if k = kind then 1 else 0) + countListsAmong kind children

def countListsAmong (kind : NodeKind) : List Node → Nat
  | [] => 0
  | node :: rest => node.countLists kind + countListsAmong kind rest

end

variable (kind : NodeKind)

@[simp] theorem countLists_leaf (k : NodeKind) (token : Token) : (leaf k token).countLists kind = 0 := by
  rw [countLists]

@[simp] theorem countLists_list (k : NodeKind) (children : List Node) : (list k children).countLists kind =
    (if k = kind then 1 else 0) + countListsAmong kind children := by
  rw [countLists]

@[simp] theorem countListsAmong_nil : countListsAmong kind [] = 0 := by
  rw [countListsAmong]

@[simp] theorem countListsAmong_cons (node : Node) (rest : List Node) :
    countListsAmong kind (node :: rest) = node.countLists kind + countListsAmong kind rest := by
  rw [countListsAmong]

@[simp] theorem countListsAmong_append (nodes rest : List Node) :
    countListsAmong kind (nodes ++ rest) = countListsAmong kind nodes + countListsAmong kind rest := by
  induction nodes with
  | nil => simp
  | cons node nodes ih => simp [ih, Nat.add_assoc]

end Node

namespace Script

def isMinus : Token → Bool
  | .scanned _ (.operator symbol) => symbol == "-"
  | _ => false

/-- The token gives a program its shape and leaves no node: it ends a line or a statement, is a
parenthesis or a brace, or is a reserved word. -/
def isShape : Token → Bool
  | .scanned _ .endOfLine => true
  | .scanned _ (.operator symbol) => ["(", ")", "\x7b", "\x7d", ";"].contains symbol
  | .scanned _ (.identifier name) => keywords.contains name
  | _ => false

/-- The tokens without those that give the shape and without the minus signs. -/
def content (tokens : List Token) : List Token :=
  tokens.filter fun token => !isShape token && !isMinus token

@[simp] theorem content_append (us vs : List Token) : content (us ++ vs) = content us ++ content vs :=
  List.filter_append us vs

/-- The nodes account for the tokens: their leaves are the content of these in order, but for minus
signs, and of those each is a leaf or a negation. -/
structure Accounts (us : List Token) (nodes : List Node) : Prop where
  content : (Node.leavesAmong nodes).filter (!isMinus ·) = content us
  minus : (Node.leavesAmong nodes).countP isMinus + Node.countListsAmong negativeKind nodes =
    us.countP isMinus

namespace Accounts

variable {us vs : List Token} {nodes others : List Node} {token : Token}

theorem nil : Accounts [] [] :=
  ⟨rfl, rfl⟩

theorem append (h : Accounts us nodes) (h' : Accounts vs others) :
    Accounts (us ++ vs) (nodes ++ others) where
  content := by
    rw [Node.leavesAmong_append, List.filter_append, h.content, h'.content, content_append]
  minus := by
    have hminus := h.minus
    have hminus' := h'.minus
    simp only [Node.leavesAmong_append, List.countP_append, Node.countListsAmong_append]
    omega

theorem isMinus_eq_false_of_isShape (h : isShape token = true) : isMinus token = false := by
  rcases token with ⟨line, lexeme⟩ | _
  · cases lexeme with
    | operator symbol =>
      have hne : ∀ symbol ∈ ["(", ")", "\x7b", "\x7d", ";"], (symbol == "-") = false := by decide
      exact hne symbol (List.contains_iff_mem.1 h)
    | number | string | identifier | endOfLine => rfl
  · rfl

theorem shape (h : isShape token = true) : Accounts [token] [] := by
  have hminus := isMinus_eq_false_of_isShape h
  exact ⟨by simp [Script.content, h], by simp [hminus]⟩

theorem shape_cons (htoken : isShape token = true) (h : Accounts us nodes) :
    Accounts (token :: us) nodes :=
  (shape htoken).append h

theorem append_shape (h : Accounts us nodes) (htoken : isShape token = true) :
    Accounts (us ++ [token]) nodes := by
  have happend := h.append (shape htoken)
  rwa [List.append_nil] at happend

theorem leaf (kind : NodeKind) (h : isShape token = false) : Accounts [token] [.leaf kind token] := by
  refine ⟨?_, by simp [List.countP_cons]⟩
  by_cases hminus : isMinus token = true <;> simp [Script.content, h, hminus]

theorem list {kind : NodeKind} (hkind : kind ≠ negativeKind) (h : Accounts us nodes) :
    Accounts us [.list kind nodes] := by
  obtain ⟨hcontent, hminus⟩ := h
  exact ⟨by simpa using hcontent, by simpa [hkind] using hminus⟩

/-- A minus sign before a single operand is accounted for by the node it makes. -/
theorem negative (hminus : isMinus token = true) (h : Accounts us nodes) :
    Accounts (token :: us) [.list negativeKind nodes] := by
  obtain ⟨hcontent, hcount⟩ := h
  refine ⟨?_, ?_⟩
  · simpa [Script.content, hminus] using hcontent
  · simp only [Node.leavesAmong_cons, Node.leaves_list, Node.leavesAmong_nil, List.append_nil,
      Node.countListsAmong_cons, Node.countLists_list, Node.countListsAmong_nil, if_true,
      List.countP_cons_of_pos hminus]
    omega

end Accounts

section Shape

variable {token : Token}

theorem IsSymbol.isShape {symbol : String} (h : IsSymbol symbol token)
    (hmem : symbol ∈ ["(", ")", "\x7b", "\x7d", ";"]) : isShape token = true := by
  obtain ⟨line, rfl⟩ := h
  exact List.contains_iff_mem.2 hmem

theorem IsWord.isShape {word : String} (h : IsWord word token) (hmem : word ∈ keywords) :
    isShape token = true := by
  obtain ⟨line, rfl⟩ := h
  exact List.contains_iff_mem.2 hmem

theorem IsSeparator.isShape (h : IsSeparator token) : isShape token = true := by
  rcases h with hsemicolon | ⟨line, rfl⟩
  · exact hsemicolon.isShape (by simp)
  · rfl

theorem IsOperator.not_isShape (h : IsOperator token) : isShape token = false := by
  obtain ⟨symbol, precedence, ⟨line, rfl⟩, hget⟩ := h
  have hnot : ∀ symbol ∈ ["(", ")", "\x7b", "\x7d", ";"], operators.get? symbol = none := by decide
  refine Bool.eq_false_iff.2 fun hshape => ?_
  rw [hnot symbol (List.contains_iff_mem.1 hshape)] at hget
  cases hget

end Shape

def chainNodes (first : Node) (rest : List (Token × Node)) : List Node :=
  first :: rest.flatMap fun (operator, node) => [.leaf .leaf operator, node]

theorem chainNodes_binary (left : OperatorTree) (operator : Token) (right : OperatorTree) :
    chainNodes (left.binary operator right).first (left.binary operator right).rest =
      chainNodes left.first left.rest ++ .leaf .leaf operator :: chainNodes right.first right.rest := by
  simp [chainNodes, OperatorTree.first, OperatorTree.rest]

theorem leaves_treeNode (tree : OperatorTree) :
    (treeNode tree).leaves = Node.leavesAmong (chainNodes tree.first tree.rest) := by
  induction tree with
  | operand node => simp [treeNode, chainNodes, OperatorTree.first, OperatorTree.rest]
  | binary left operator right ihl ihr => simp [treeNode, chainNodes_binary, ihl, ihr]

theorem countLists_treeNode (tree : OperatorTree) : (treeNode tree).countLists negativeKind =
    Node.countListsAmong negativeKind (chainNodes tree.first tree.rest) := by
  have hkind : binaryKind ≠ negativeKind := by decide
  induction tree with
  | operand node => simp [treeNode, chainNodes, OperatorTree.first, OperatorTree.rest]
  | binary left operator right ihl ihr => simp [treeNode, chainNodes_binary, hkind, ihl, ihr]

theorem Accounts.tree {us : List Token} (tree : OperatorTree)
    (h : Accounts us (chainNodes tree.first tree.rest)) : Accounts us [treeNode tree] := by
  obtain ⟨hcontent, hminus⟩ := h
  rw [← leaves_treeNode] at hcontent hminus
  rw [← countLists_treeNode] at hminus
  exact ⟨by simpa using hcontent, by simpa using hminus⟩

mutual

theorem Primary.accounts {us : List Token} {node : Node} : Primary us node → Accounts us [node]
  | .paren hopening h hclosing =>
    .shape_cons (hopening.isShape (by simp)) (h.accounts.append_shape (hclosing.isShape (by simp)))
  | .number _ _ => .leaf numberKind rfl
  | .name _ _ hreserved => .leaf nameKind (by simpa [isShape] using hreserved)
  | .string _ _ => .leaf stringKind rfl

theorem Factor.accounts {us : List Token} {node : Node} : Factor us node → Accounts us [node]
  | .negative ⟨_, hminus⟩ h => .negative (by rw [hminus]; rfl) h.accounts
  | .primary h => h.accounts

theorem Chain.accounts {us : List Token} {first : Node} {rest : List (Token × Node)} :
    Chain us first rest → Accounts us (chainNodes first rest)
  | .factor h => h.accounts
  | .operator h hoperator hrest =>
    h.accounts.append ((Accounts.leaf .leaf hoperator.not_isShape).append hrest.accounts)

theorem Expr.accounts {us : List Token} {node : Node} : Expr us node → Accounts us [node]
  | .grouped h hgroups => .tree _ (by rw [hgroups.first, hgroups.rest]; exact h.accounts)

end

mutual

theorem Block.accounts {us : List Token} {node : Node} : Block us node → Accounts us [node]
  | .blank hopening h hclosing =>
    .list (by decide) (.shape_cons (hopening.isShape (by simp))
      (h.accounts.append_shape (hclosing.isShape (by simp))))
  | .filled hopening h hrest hclosing =>
    .list (by decide) ((Accounts.shape_cons (hopening.isShape (by simp))
      (h.accounts.append hrest.accounts)).append_shape (hclosing.isShape (by simp)))

theorem Items.accounts {us : List Token} {nodes : List Node} : Items us nodes → Accounts us nodes
  | .nil => .nil
  | .blank hseparator h => h.accounts.shape_cons hseparator.isShape
  | .statement hseparator h hrest => (h.accounts.append hrest.accounts).shape_cons hseparator.isShape

theorem Statement.accounts {us : List Token} {node : Node} : Statement us node → Accounts us [node]
  | .ifThen hword hcondition hbody =>
    .list (by decide) (.shape_cons (hword.isShape (by decide))
      (hcondition.accounts.append hbody.accounts))
  | .ifElse hword hcondition hbody hother hotherwise =>
    .list (by decide) (.shape_cons (hword.isShape (by decide))
      ((hcondition.accounts.append hbody.accounts).append
        (.shape_cons (hother.isShape (by decide)) hotherwise.accounts)))
  | .whileLoop hword hcondition hbody =>
    .list (by decide) (.shape_cons (hword.isShape (by decide))
      (hcondition.accounts.append hbody.accounts))
  | .simple h => h.accounts

end

theorem Program.accounts {us : List Token} {node : Node} (h : Program us node) : Accounts us [node] := by
  cases h with
  | statement h hseparator => exact h.accounts.append_shape hseparator.isShape
  | null hseparator => exact .list (by decide) (.shape hseparator.isShape)

theorem accounts_of_phrases {us : List Token} {nodes : List Node} (h : Phrases Program us nodes) :
    Accounts us nodes := by
  induction h with
  | nil => exact .nil
  | cons hphrase _ ih => exact hphrase.accounts.append ih

/-- A program loses no token, repeats none and makes none up. The leaves of what it parses to are
its tokens in order, but for those that give it its shape and for the minus signs, and there are as
many minus signs as leaves of minus signs and negations together. -/
theorem parseProgram_accounts {source : Source} {options : LexerOptions} {nodes : List Node}
    (h : parseProgram source options = .ok nodes) :
    ∃ tokens, tokenize source options = .ok tokens ∧
      (Node.leavesAmong nodes).filter (!isMinus ·) = content tokens ∧
      (Node.leavesAmong nodes).countP isMinus + Node.countListsAmong negativeKind nodes =
        tokens.countP isMinus := by
  obtain ⟨hfault, hphrases⟩ := (parseProgram_eq_ok_iff source options).1 h
  obtain ⟨hcontent, hminus⟩ := accounts_of_phrases hphrases
  have htokens : tokenize source options = .ok (source.tokens options) := by
    rw [tokenize_eq, hfault]
  exact ⟨source.tokens options, htokens, hcontent, hminus⟩

/-- A minus sign of either use. -/
theorem parseProgram_accounts_bothMinus :
    let nodes : List Node := [.list binaryKind [.list negativeKind
      [.leaf nameKind (.scanned 1 (.identifier "x"))], .leaf .leaf (.scanned 1 (.operator "-")),
      .leaf numberKind (.scanned 1 (.number 1))]]
    parseProgram [.text ['-', 'x', '-', '1', ';']] ⟨false⟩ = .ok nodes ∧
      ∃ tokens, tokenize [.text ['-', 'x', '-', '1', ';']] ⟨false⟩ = .ok tokens ∧
        (Node.leavesAmong nodes).filter (!isMinus ·) = content tokens ∧
        (Node.leavesAmong nodes).countP isMinus + Node.countListsAmong negativeKind nodes =
          tokens.countP isMinus := by
  intro nodes
  have htokens : Source.tokens ⟨false⟩ [.text ['-', 'x', '-', '1', ';']] = [.scanned 1 (.operator "-"),
      .scanned 1 (.identifier "x"), .scanned 1 (.operator "-"), .scanned 1 (.number 1),
      .scanned 1 (.operator ";")] := by cbv
  have hname : Factor [.scanned 1 (.operator "-"), .scanned 1 (.identifier "x")]
      (.list negativeKind [.leaf nameKind (.scanned 1 (.identifier "x"))]) :=
    .negative ⟨1, rfl⟩ (.name 1 ⟨'x', [], rfl, rfl, rfl⟩ (by decide))
  have hone : Factor [.scanned 1 (.number 1)] (.leaf numberKind (.scanned 1 (.number 1))) :=
    .primary (.number 1 ⟨by decide, by decide⟩)
  have hexpr : Expr [.scanned 1 (.operator "-"), .scanned 1 (.identifier "x"),
      .scanned 1 (.operator "-"), .scanned 1 (.number 1)] (treeNode (.binary (.operand _) _ (.operand _))) :=
    .grouped (.operator hname ⟨"-", ⟨3, .left⟩, ⟨1, rfl⟩, by decide⟩ (.factor hone))
      ⟨rfl, rfl, by simp [OperatorTree.Grouped, OperatorTree.rightSpine, OperatorTree.leftSpine]⟩
  have hphrases : Phrases Program (Source.tokens ⟨false⟩ [.text ['-', 'x', '-', '1', ';']]) nodes := by
    rw [htokens]
    exact .cons (Program.statement (.simple hexpr) (.inl ⟨1, rfl⟩)) .nil
  have hparse := (parseProgram_eq_ok_iff _ _).2 ⟨by cbv, hphrases⟩
  exact ⟨hparse, parseProgram_accounts hparse⟩

end Script

end ParseKit
