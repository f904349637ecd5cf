import ParseKit.Proofs.OutputLines
import ParseKit.Proofs.Script.Accounting
import ParseKit.Proofs.Script.Joining

/-! Which lines the nodes of a program are on. The location of a node is the line of its first leaf,
and parentheses, braces, keywords and minus signs before an operand leave none. It is still the line the
node begins on, as no expression, and nothing from a keyword to the end of the condition after it, goes
on past the end of a line. Main statement: `Script.parseProgram_locations`. -/

namespace ParseKit

namespace Token

def IsInline (token : Token) : Prop :=
  ∃ line lexeme, token = .scanned line lexeme ∧ lexeme ≠ .endOfLine

/-- The tokens that may come one after the other. Only an end-of-line token is followed by another line. -/
inductive Precedes : Token → Token → Prop
  | sameLine (line : Nat) (lexeme next : Lexeme) : Precedes (.scanned line lexeme) (.scanned line next)
  | lineBreak {line later : Nat} (h : line ≤ later) (next : Lexeme) :
    Precedes (.scanned line .endOfLine) (.scanned later next)

theorem Precedes.same {token next : Token} (h : Precedes token next) (hinline : token.IsInline) :
    next.line? = token.line? := by
  cases h with
  | sameLine => rfl
  | lineBreak =>
    obtain ⟨line, lexeme, heq, hmarker⟩ := hinline
    cases heq
    exact absurd rfl hmarker

end Token

structure Lined (us : List Token) : Prop where
  lines : ∀ token ∈ us, ∃ line, token.line? = some line
  chain : us.IsChain Token.Precedes

namespace Lined

variable {first : Token} {us vs : List Token}

theorem left (h : Lined (us ++ vs)) : Lined us where
  lines token hmem := h.lines token (List.mem_append_left _ hmem)
  chain := h.chain.left_of_append

theorem right (h : Lined (us ++ vs)) : Lined vs where
  lines token hmem := h.lines token (List.mem_append_right _ hmem)
  chain := h.chain.right_of_append

theorem tail (h : Lined (first :: us)) : Lined us where
  lines token hmem := h.lines token (List.mem_cons_of_mem _ hmem)
  chain := h.chain.tail

theorem line?_eq (h : Lined (first :: us)) (hinline : ∀ token ∈ first :: us, token.IsInline) :
    ∀ token ∈ first :: us, token.line? = first.line? := by
  induction us generalizing first with
  | nil => simp
  | cons next us ih =>
    have hnext : next.line? = first.line? := by
      apply Token.Precedes.same
      · exact (List.isChain_cons_cons.1 h.chain).1
      · exact hinline first (by simp)
    have hrest := ih h.tail fun token hmem => hinline token (List.mem_cons_of_mem _ hmem)
    intro token hmem
    rcases List.mem_cons.1 hmem with rfl | hmem
    · rfl
    · rw [hrest token hmem, hnext]

theorem exists_numbers (h : Lined us) :
    ∃ numbers : List Nat, us.map Token.line? = numbers.map some ∧ numbers.Pairwise (· ≤ ·) := by
  let number : Token → Nat := fun token => token.line?.getD 0
  have hlines : us.map Token.line? = (us.map number).map some := by
    rw [List.map_map]
    apply List.map_congr_left
    intro token hmem
    obtain ⟨line, hline⟩ := h.lines token hmem
    simp [number, hline]
  have hle : ∀ token next, token.Precedes next → number token ≤ number next := by
    intro token next hprecedes
    cases hprecedes with
    | sameLine => exact Nat.le_refl _
    | lineBreak hle => exact hle
  have hchain : (us.map number).IsChain (· ≤ ·) := (List.isChain_map number).2 (h.chain.imp hle)
  exact ⟨us.map number, hlines, List.isChain_iff_pairwise.1 hchain⟩

end Lined

namespace Source

theorem lined_lineTokens (line : Nat) (lexemes : List Lexeme) : Lined (lineTokens ⟨true⟩ line lexemes) where
  lines := by
    intro token hmem
    obtain ⟨lexeme, -, rfl⟩ := List.mem_map.1 hmem
    exact ⟨line, rfl⟩
  chain := by
    rw [lineTokens, List.isChain_map]
    exact (List.pairwise_of_forall fun lexeme next => Token.Precedes.sameLine line lexeme next).isChain

/-- Where every line ends with its token, the tokens of a source come in the order of their lines. -/
theorem lined_items (source : Source) (line : Nat) : Lined (Item.tokens (source.items ⟨true⟩ line)) ∧
    ∀ token ∈ Item.tokens (source.items ⟨true⟩ line),
      ∃ later lexeme, token = .scanned later lexeme ∧ line < later := by
  have hnil : Lined [] := ⟨by simp, .nil⟩
  induction source generalizing line with
  | nil => exact ⟨hnil, by simp [items, Item.tokens]⟩
  | cons physical rest ih =>
    cases physical with
    | undecodable => exact ⟨hnil, by simp [items, Item.tokens]⟩
    | text chars =>
      rw [items]
      cases hlexemes : Scan.lexemes chars with
      | error fault => exact ⟨hnil, by simp [Item.tokens]⟩
      | ok lexemes =>
        obtain ⟨hrest, hlater⟩ := ih (line + 1)
        have hfirst := lined_lineTokens (line + 1) lexemes
        have hlast : (lineTokens ⟨true⟩ (line + 1) lexemes).getLast? =
            some (.scanned (line + 1) .endOfLine) := by
          simp [lineTokens]
        simp only [Item.tokens_map_ok_append]
        refine ⟨⟨?_, ?_⟩, ?_⟩
        · intro token hmem
          exact (List.mem_append.1 hmem).elim (hfirst.lines token) (hrest.lines token)
        · -- the first line ends in its marker, so any later line may come after it
          apply hfirst.chain.append hrest.chain
          intro token htoken next hnext
          obtain ⟨later, lexeme, rfl, hlt⟩ := hlater next (List.mem_of_mem_head? hnext)
          obtain rfl : .scanned (line + 1) .endOfLine = token := by simpa [hlast] using htoken
          exact .lineBreak (Nat.le_of_lt hlt) lexeme
        · intro token hmem
          rcases List.mem_append.1 hmem with hmem | hmem
          · obtain ⟨lexeme, -, rfl⟩ := List.mem_map.1 hmem
            exact ⟨line + 1, lexeme, rfl, Nat.lt_succ_self line⟩
          · obtain ⟨later, lexeme, heq, hlt⟩ := hlater token hmem
            exact ⟨later, lexeme, heq, Nat.lt_of_succ_lt hlt⟩

end Source

namespace Node

/-- The node has leaves, and all of them are on the line. -/
def LiesOn (line : Nat) (node : Node) : Prop :=
  node.leaves ≠ [] ∧ ∀ token ∈ node.leaves, token.line? = some line

theorem LiesOn.location {line : Nat} {node : Node} (h : node.LiesOn line) : node.location = some line := by
  obtain ⟨hne, hlines⟩ := h
  rw [location_eq]
  cases hleaves : node.leaves with
  | nil => exact absurd hleaves hne
  | cons token rest => simp [hlines token (by simp [hleaves])]

theorem LiesOn.location_list {line : Nat} {node : Node} (h : node.LiesOn line) (kind : NodeKind)
    (rest : List Node) : (list kind (node :: rest)).location = some line := by
  simp [Node.location, locationAmong, h.location]

end Node

/-- Cut into phrases of which none is a proper beginning of another, tokens are cut in one way only. -/
theorem PrefixFree.eq_of_flatten {D : List Token → Node → Prop} (hfree : PrefixFree D)
    {phrases others : List (List Token)} {nodes nodes' : List Node} (h : List.Forall₂ D phrases nodes)
    (h' : List.Forall₂ D others nodes') (hflatten : others.flatten = phrases.flatten) : others = phrases := by
  induction h generalizing others nodes' with
  | nil =>
    cases h' with
    | nil => rfl
    | cons hother _ => exact absurd (List.append_eq_nil_iff.1 hflatten).1 (hfree.ne_nil hother)
  | @cons us _ phrases _ hphrase _ ih =>
    cases h' with
    | nil => exact absurd (List.append_eq_nil_iff.1 hflatten.symm).1 (hfree.ne_nil hphrase)
    | @cons vs _ others _ hother hothers =>
      have hwhole : vs ++ others.flatten = us ++ phrases.flatten := hflatten
      have hsame : vs = us := by
        obtain ⟨more, rfl, -⟩ | ⟨more, rfl, -⟩ := List.append_eq_append_iff.1 hwhole
        · rw [hfree.eq_nil hother hphrase, List.append_nil]
        · rw [hfree.eq_nil hphrase hother, List.append_nil]
      subst hsame
      rw [ih hothers (List.append_cancel_left hwhole)]

theorem Phrases.exists_cut {D : List Token → Node → Prop} {us : List Token} {nodes : List Node}
    (h : Phrases D us nodes) : ∃ phrases, phrases.flatten = us ∧ List.Forall₂ D phrases nodes := by
  induction h with
  | nil => exact ⟨[], rfl, .nil⟩
  | @cons us _ _ _ hphrase _ ih =>
    obtain ⟨phrases, rfl, hphrases⟩ := ih
    exact ⟨us :: phrases, rfl, .cons hphrase hphrases⟩

namespace Script

def expressionKinds : List NodeKind :=
  [numberKind, nameKind, stringKind, negativeKind, binaryKind]

/-- An expression is on one line, a conditional or a loop on that of its condition, and the statements
of a block are on lines that never decrease. -/
structure Located (node : Node) : Prop where
  expression : node.kind ∈ expressionKinds → ∃ line, node.LiesOn line
  condition : node.kind ∈ [ifKind, whileKind] → ∃ condition rest line,
    node.children = condition :: rest ∧ condition.LiesOn line ∧ node.location = some line
  block : node.kind = blockKind →
    ∃ lines : List Nat, node.children.map Node.location = lines.map some ∧ lines.Pairwise (· ≤ ·)

def StartsAt (us : List Token) (node : Node) : Prop :=
  ∃ first rest line, us = first :: rest ∧ first.line? = some line ∧ node.location = some line

section Inline

variable {token : Token}

theorem IsSymbol.isInline {symbol : String} (h : IsSymbol symbol token) : token.IsInline := by
  obtain ⟨line, rfl⟩ := h
  exact ⟨line, _, rfl, by simp⟩

theorem IsWord.isInline {word : String} (h : IsWord word token) : token.IsInline := by
  obtain ⟨line, rfl⟩ := h
  exact ⟨line, _, rfl, by simp⟩

theorem IsOperator.isInline (h : IsOperator token) : token.IsInline := by
  obtain ⟨symbol, _, hsymbol, _⟩ := h
  exact hsymbol.isInline

/-- None of the tokens ends a line, and the leaves of the nodes are some of them. -/
structure Inline (us : List Token) (nodes : List Node) : Prop where
  tokens : ∀ token ∈ us, token.IsInline
  leaves : Node.leavesAmong nodes ⊆ us

namespace Inline

variable {us vs : List Token} {nodes others : List Node}

theorem leaf (kind : NodeKind) (h : token.IsInline) : Inline [token] [.leaf kind token] where
  tokens := by simpa using h
  leaves := by simp

theorem append (h : Inline us nodes) (h' : Inline vs others) : Inline (us ++ vs) (nodes ++ others) where
  tokens token hmem := (List.mem_append.1 hmem).elim (h.tokens token) (h'.tokens token)
  leaves := by
    rw [Node.leavesAmong_append]
    intro token hmem
    exact List.mem_append.2 ((List.mem_append.1 hmem).imp (h.leaves ·) (h'.leaves ·))

theorem dropped (h : token.IsInline) : Inline [token] [] where
  tokens := by simpa using h
  leaves := by simp

theorem cons (htoken : token.IsInline) (h : Inline us nodes) : Inline (token :: us) nodes :=
  (dropped htoken).append h

theorem list (kind : NodeKind) (h : Inline us nodes) : Inline us [.list kind nodes] where
  tokens := h.tokens
  leaves := by simpa using h.leaves

end Inline

mutual

theorem Primary.inline {us : List Token} {node : Node} : Primary us node → Inline us [node]
  | .paren hopening h hclosing => (h.inline.cons hopening.isInline).append (.dropped hclosing.isInline)
  | .number line _ => .leaf numberKind ⟨line, _, rfl, by simp⟩
  | .name line _ _ => .leaf nameKind ⟨line, _, rfl, by simp⟩
  | .string line _ => .leaf stringKind ⟨line, _, rfl, by simp⟩

theorem Factor.inline {us : List Token} {node : Node} : Factor us node → Inline us [node]
  | .negative hminus h => (h.inline.cons hminus.isInline).list negativeKind
  | .primary h => h.inline

theorem Chain.inline {us : List Token} {first : Node} {rest : List (Token × Node)} :
    Chain us first rest → Inline us (chainNodes first rest)
  | .factor h => h.inline
  | .operator h hoperator hrest =>
    h.inline.append ((Inline.leaf .leaf hoperator.isInline).append hrest.inline)

theorem Expr.inline {us : List Token} {node : Node} : Expr us node → Inline us [node]
  | @Expr.grouped _ first rest tree h hgroups => by
    have hchain : Inline us (chainNodes tree.first tree.rest) := by
      rw [hgroups.first, hgroups.rest]
      exact h.inline
    refine ⟨hchain.tokens, ?_⟩
    rw [Node.leavesAmong_cons, leaves_treeNode, Node.leavesAmong_nil, List.append_nil]
    exact hchain.leaves

end

end Inline

section Expressions

variable {node : Node}

theorem IsExpression.kind_mem (h : IsExpression node) : node.kind ∈ expressionKinds := by
  cases h <;> simp [expressionKinds, Node.kind]

theorem IsExpression.leaves_ne_nil (h : IsExpression node) : node.leaves ≠ [] := by
  induction h with
  | number | name | string => simp
  | negative _ ih => simpa using ih
  | binary => simp

theorem IsExpression.subtrees (h : IsExpression node) :
    ∀ n ∈ node.subtrees, IsExpression n ∨ n.kind = .leaf := by
  induction h with
  | number line hlower hupper => simpa using Or.inl (IsExpression.number line hlower hupper)
  | name line h hreserved => simpa using Or.inl (IsExpression.name line h hreserved)
  | string line text => simpa using Or.inl (IsExpression.string line text)
  | negative h ih =>
    simp only [Node.subtrees_list, Node.subtreesAmong_cons, Node.subtreesAmong_nil, List.append_nil,
      List.forall_mem_cons]
    exact ⟨.inl (.negative h), ih⟩
  | binary hleft hoperator hright ihl ihr =>
    simp only [Node.subtrees_list, Node.subtreesAmong_cons, Node.subtrees_leaf, Node.subtreesAmong_nil,
      List.append_nil, List.forall_mem_cons, List.forall_mem_append, List.singleton_append]
    exact ⟨.inl (.binary hleft hoperator hright), ihl, .inr rfl, ihr⟩

theorem Inline.liesOn {first : Token} {us : List Token} (h : Inline (first :: us) [node])
    (hexpr : IsExpression node) (hlined : Lined (first :: us)) :
    ∃ line, first.line? = some line ∧ node.LiesOn line := by
  obtain ⟨line, hline⟩ := hlined.lines first (by simp)
  have hleaves : node.leaves ⊆ first :: us := by simpa using h.leaves
  refine ⟨line, hline, hexpr.leaves_ne_nil, fun token hmem => ?_⟩
  rw [hlined.line?_eq h.tokens token (hleaves hmem), hline]

theorem Expr.liesOn_after {word : Token} {us : List Token} (h : Expr us node) (hword : word.IsInline)
    (hlined : Lined (word :: us)) : ∃ line, word.line? = some line ∧ node.LiesOn line :=
  (h.inline.cons hword).liesOn h.isExpression hlined

theorem Expr.liesOn {us : List Token} (h : Expr us node) (hlined : Lined us) :
    ∃ first rest line, us = first :: rest ∧ first.line? = some line ∧ node.LiesOn line := by
  cases us with
  | nil =>
    have hnone : node.leaves = [] := by simpa using h.inline.leaves
    exact absurd hnone h.isExpression.leaves_ne_nil
  | cons first rest =>
    obtain ⟨line, hline, hlies⟩ := h.inline.liesOn h.isExpression hlined
    exact ⟨first, rest, line, rfl, hline, hlies⟩

end Expressions

section Starting

variable {us vs : List Token} {node : Node} {nodes : List Node}

theorem StartsAt.append (h : StartsAt us node) (vs : List Token) : StartsAt (us ++ vs) node := by
  obtain ⟨first, rest, line, rfl, hline, hlocation⟩ := h
  exact ⟨first, rest ++ vs, line, rfl, hline, hlocation⟩

theorem StartsAt.sublist (h : StartsAt us node)
    (hrest : (nodes.map Node.location).Sublist (vs.map Token.line?)) :
    ((node :: nodes).map Node.location).Sublist ((us ++ vs).map Token.line?) := by
  obtain ⟨first, rest, line, rfl, hline, hlocation⟩ := h
  rw [List.map_append, List.map_cons, List.map_cons, hline, hlocation]
  exact (hrest.trans (List.sublist_append_right _ _)).cons_cons _

theorem Expr.startsAt (h : Expr us node) (hlined : Lined us) : StartsAt us node := by
  obtain ⟨first, rest, line, heq, hline, hlies⟩ := h.liesOn hlined
  exact ⟨first, rest, line, heq, hline, hlies.location⟩

theorem Expr.startsAt_after {word : Token} (h : Expr us node) (hword : word.IsInline)
    (hlined : Lined (word :: us)) (kind : NodeKind) (rest : List Node) :
    StartsAt (word :: us) (.list kind (node :: rest)) := by
  obtain ⟨line, hline, hlies⟩ := h.liesOn_after hword hlined
  exact ⟨word, us, line, rfl, hline, hlies.location_list kind rest⟩

/-- A statement is on the line of its first token, be it kept or not. -/
theorem Statement.startsAt (h : Statement us node) (hlined : Lined us) : StartsAt us node := by
  cases h with
  | ifThen hword hcondition _ =>
    exact (hcondition.startsAt_after hword.isInline hlined.left ifKind _).append _
  | ifElse hword hcondition _ _ _ =>
    exact ((hcondition.startsAt_after hword.isInline hlined.left.left ifKind _).append _).append _
  | whileLoop hword hcondition _ =>
    exact (hcondition.startsAt_after hword.isInline hlined.left whileKind _).append _
  | simple h => exact h.startsAt hlined

/-- The lines of statements are lines of their tokens, in the same order. -/
theorem Items.locations {us : List Token} {nodes : List Node} :
    Items us nodes → Lined us → (nodes.map Node.location).Sublist (us.map Token.line?)
  | .nil, _ => .slnil
  | .blank _ h, hlined => (h.locations hlined.tail).cons _
  | .statement _ h hrest, hlined =>
    ((h.startsAt hlined.left.tail).sublist (hrest.locations hlined.right)).cons _

end Starting

def AllLocated (nodes : List Node) : Prop :=
  ∀ node ∈ Node.subtreesAmong nodes, Located node

namespace AllLocated

variable {node : Node} {nodes : List Node}

theorem nil : AllLocated [] := by simp [AllLocated]

theorem cons (h : AllLocated [node]) (hrest : AllLocated nodes) : AllLocated (node :: nodes) :=
  Node.forall_subtreesAmong_cons h hrest

theorem list {kind : NodeKind} (h : Located (.list kind nodes)) (hnodes : AllLocated nodes) :
    AllLocated [.list kind nodes] :=
  Node.forall_subtreesAmong_list h hnodes

theorem expression {us : List Token} (h : Expr us node) (hlined : Lined us) : AllLocated [node] := by
  have hleaf : NodeKind.leaf ∉ expressionKinds := by decide
  have hkinds : ∀ kind ∈ .leaf :: expressionKinds, kind ∉ [ifKind, whileKind] ∧ kind ≠ blockKind := by
    decide
  obtain ⟨_, _, line, -, -, hlies⟩ := h.liesOn hlined
  intro n hmem
  have hn : n ∈ node.subtrees := by simpa using hmem
  have hbelow := h.isExpression.subtrees n hn
  have hkind : n.kind ∈ .leaf :: expressionKinds := by
    rcases hbelow with hexpr | hoperator
    · exact List.mem_cons_of_mem _ hexpr.kind_mem
    · exact hoperator ▸ List.mem_cons_self
  obtain ⟨hcondition, hblock⟩ := hkinds n.kind hkind
  refine ⟨fun hkind => ?_, (absurd · hcondition), (absurd · hblock)⟩
  have hexpr : IsExpression n := hbelow.resolve_right fun hoperator => hleaf (hoperator ▸ hkind)
  exact ⟨line, hexpr.leaves_ne_nil, fun token htoken => hlies.2 token (Node.leaves_subset hn htoken)⟩

theorem conditional {kind : NodeKind} (hkind : kind ∈ [ifKind, whileKind]) {word : Token} {us : List Token}
    (h : Expr us node) (hword : word.IsInline) (hlined : Lined (word :: us)) (hnodes : AllLocated nodes) :
    AllLocated [.list kind (node :: nodes)] := by
  have hkinds : ∀ kind ∈ [ifKind, whileKind], kind ∉ expressionKinds ∧ kind ≠ blockKind := by decide
  obtain ⟨hexpression, hblock⟩ := hkinds kind hkind
  obtain ⟨line, -, hlies⟩ := h.liesOn_after hword hlined
  have hlocation := hlies.location_list kind nodes
  apply list _ ((expression h hlined.tail).cons hnodes)
  exact ⟨(absurd · hexpression), fun _ => ⟨node, nodes, line, rfl, hlies, hlocation⟩, (absurd · hblock)⟩

theorem block {us : List Token} (hlined : Lined us)
    (hlocations : (nodes.map Node.location).Sublist (us.map Token.line?)) (hnodes : AllLocated nodes) :
    AllLocated [.list blockKind nodes] := by
  have hkinds : blockKind ∉ expressionKinds ∧ blockKind ∉ [ifKind, whileKind] := by decide
  apply list _ hnodes
  refine ⟨(absurd · hkinds.1), (absurd · hkinds.2), fun _ => ?_⟩
  obtain ⟨numbers, hnumbers, hsorted⟩ := hlined.exists_numbers
  rw [hnumbers] at hlocations
  obtain ⟨lines, hsublist, hlines⟩ := List.sublist_map_iff.1 hlocations
  exact ⟨lines, hlines, hsorted.sublist hsublist⟩

end AllLocated

section Statements

mutual

theorem Block.allLocated {us : List Token} {node : Node} : Block us node → Lined us → AllLocated [node]
  | .blank _ h _, hlined =>
    have hinner := hlined.left.tail
    .block hinner (h.locations hinner) (h.allLocated hinner)
  | .filled _ h hrest _, hlined =>
    have hinner := hlined.left.tail
    .block hinner ((h.startsAt hinner.left).sublist (hrest.locations hinner.right))
      ((h.allLocated hinner.left).cons (hrest.allLocated hinner.right))

theorem Items.allLocated {us : List Token} {nodes : List Node} :
    Items us nodes → Lined us → AllLocated nodes
  | .nil, _ => .nil
  | .blank _ h, hlined => h.allLocated hlined.tail
  | .statement _ h hrest, hlined =>
    (h.allLocated hlined.left.tail).cons (hrest.allLocated hlined.right)

theorem Statement.allLocated {us : List Token} {node : Node} :
    Statement us node → Lined us → AllLocated [node]
  | .ifThen hword hcondition hbody, hlined =>
    .conditional (by simp) hcondition hword.isInline hlined.left (hbody.allLocated hlined.right)
  | .ifElse hword hcondition hbody _ hotherwise, hlined =>
    .conditional (by simp) hcondition hword.isInline hlined.left.left
      ((hbody.allLocated hlined.left.right).cons (hotherwise.allLocated hlined.right.tail))
  | .whileLoop hword hcondition hbody, hlined =>
    .conditional (by simp) hcondition hword.isInline hlined.left (hbody.allLocated hlined.right)
  | .simple h, hlined => .expression h hlined

end

theorem Program.startsAt {us : List Token} {node : Node} (h : Program us node) (hlined : Lined us)
    (hkind : node.kind ≠ nullKind) : StartsAt us node := by
  cases h with
  | statement h _ => exact (h.startsAt hlined.left).append _
  | null _ => exact absurd rfl hkind

theorem Program.allLocated {us : List Token} {node : Node} (h : Program us node) (hlined : Lined us) :
    AllLocated [node] := by
  cases h with
  | statement h _ => exact h.allLocated hlined.left
  | null _ =>
    have hkinds : nullKind ∉ expressionKinds ∧ nullKind ∉ [ifKind, whileKind] ∧
        nullKind ≠ blockKind := by decide
    obtain ⟨hexpression, hcondition, hblock⟩ := hkinds
    exact .list ⟨(absurd · hexpression), (absurd · hcondition), (absurd · hblock)⟩ .nil

theorem located_of_programs {phrases : List (List Token)} {nodes : List Node}
    (h : List.Forall₂ Program phrases nodes) (hlined : Lined phrases.flatten) :
    List.Forall₂ (fun us node => node.kind ≠ nullKind → StartsAt us node) phrases nodes ∧ AllLocated nodes := by
  induction h with
  | nil => exact ⟨.nil, .nil⟩
  | cons hphrase _ ih =>
    rw [List.flatten_cons] at hlined
    obtain ⟨hstarts, hlocated⟩ := ih hlined.right
    exact ⟨.cons (hphrase.startsAt hlined.left) hstarts, (hphrase.allLocated hlined.left).cons hlocated⟩

end Statements

/-- Where the nodes of a program are. There is one way to cut the tokens into a program phrase for each
node. A node that is no null statement is on the line of the first token of its phrase, kept or not. And
all nodes below are located: expressions on one line, conditionals and loops on that of their condition,
and the statements of a block in order. -/
theorem parseProgram_locations {source : Source} {nodes : List Node}
    (h : parseProgram source {} = .ok nodes) : ∃ tokens phrases, tokenize source {} = .ok tokens ∧
      phrases.flatten = tokens ∧ List.Forall₂ Program phrases nodes ∧
      (∀ others, others.flatten = tokens → List.Forall₂ Program others nodes → others = phrases) ∧
      List.Forall₂ (fun us node => node.kind ≠ nullKind → StartsAt us node) phrases nodes ∧
      ∀ node ∈ Node.subtreesAmong nodes, Located node := by
  obtain ⟨hfault, hphrases⟩ := (parseProgram_eq_ok_iff source {}).1 h
  have htokens : tokenize source {} = .ok (source.tokens {}) := by
    rw [tokenize_eq, hfault]
  have hlined : Lined (source.tokens {}) := (source.lined_items 0).1
  obtain ⟨phrases, hflatten, hprograms⟩ := hphrases.exists_cut
  rw [← hflatten] at hlined
  obtain ⟨hstarts, hlocated⟩ := located_of_programs hprograms hlined
  refine ⟨source.tokens {}, phrases, htokens, hflatten, hprograms, ?_, hstarts, hlocated⟩
  intro others hothers hprograms'
  exact prefixFree_program.eq_of_flatten hprograms hprograms' (hothers.trans hflatten.symm)

/-- A loop over several lines. -/
theorem parseProgram_locations_loop :
    let source : Source := [.text ['w', 'h', 'i', 'l', 'e', '-', 'x', '\x7b'], .text [], .text ['y', '\x7d']]
    let nodes : List Node := [.list whileKind
      [.list negativeKind [.leaf nameKind (.scanned 1 (.identifier "x"))],
        .list blockKind [.leaf nameKind (.scanned 3 (.identifier "y"))]]]
    parseProgram source {} = .ok nodes ∧ ∃ phrases, phrases.flatten = source.tokens {} ∧
      List.Forall₂ (fun us node => node.kind ≠ nullKind → StartsAt us node) phrases nodes ∧
      ∀ node ∈ Node.subtreesAmong nodes, Located node := by
  intro source nodes
  have htokens : source.tokens {} = [.scanned 1 (.identifier "while"), .scanned 1 (.operator "-"),
      .scanned 1 (.identifier "x"), .scanned 1 (.operator "\x7b"), .scanned 1 .endOfLine,
      .scanned 2 .endOfLine, .scanned 3 (.identifier "y"), .scanned 3 (.operator "\x7d"),
      .scanned 3 .endOfLine] := by cbv
  have hcondition : Expr [.scanned 1 (.operator "-"), .scanned 1 (.identifier "x")]
      (.list negativeKind [.leaf nameKind (.scanned 1 (.identifier "x"))]) :=
    (Factor.negative ⟨1, rfl⟩ (.name 1 ⟨'x', [], rfl, rfl, rfl⟩ (by decide))).expr
  have hy : Statement [.scanned 3 (.identifier "y")] (.leaf nameKind (.scanned 3 (.identifier "y"))) :=
    .simple (Factor.primary (.name 3 ⟨'y', [], rfl, rfl, rfl⟩ (by decide))).expr
  have hbody : Block [.scanned 1 (.operator "\x7b"), .scanned 1 .endOfLine, .scanned 2 .endOfLine,
      .scanned 3 (.identifier "y"), .scanned 3 (.operator "\x7d")]
      (.list blockKind [.leaf nameKind (.scanned 3 (.identifier "y"))]) :=
    .blank ⟨1, rfl⟩ (.blank (.inr ⟨1, rfl⟩) (.statement (.inr ⟨2, rfl⟩) hy .nil)) ⟨3, rfl⟩
  have hphrases : Phrases Program (source.tokens {}) nodes := by
    rw [htokens]
    exact .cons (Program.statement (.whileLoop ⟨1, rfl⟩ hcondition hbody) (.inr ⟨3, rfl⟩)) .nil
  have hparse : parseProgram source {} = .ok nodes := (parseProgram_eq_ok_iff _ _).2 ⟨by cbv, hphrases⟩
  obtain ⟨tokens, phrases, hall, hflatten, -, -, hstarts, hlocated⟩ := parseProgram_locations hparse
  rw [tokenize_eq, ((parseProgram_eq_ok_iff _ _).1 hparse).1] at hall
  cases hall
  exact ⟨hparse, phrases, hflatten, hstarts, hlocated⟩

end Script

end ParseKit
