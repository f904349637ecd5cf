import ParseKit.Proofs.LexerTape
import ParseKit.Proofs.OperatorTree
import ParseKit.Proofs.Walking

/-! What an expression element takes and builds. Precedence climbing is the process `Climbs` on the
chain of factors and operators that is taken, where an operator yields to another as their table
entries do. Main statement: `Grammar.expression_builds_grouped_tree`. -/

namespace ParseKit

namespace Operators

variable (operators : Operators)

def precedence? (token : Token) : Option Precedence :=
  if token.isIdentifier || token.isOperator then operators.get? token.text else none

/-- The token is an identifier or an operator, and the table has its text. -/
def Names (token : Token) : Prop :=
  (token.isIdentifier = true ∨ token.isOperator = true) ∧
    ∃ precedence, operators.get? token.text = some precedence

/-- Operator `next`, coming after `token`, belongs to the right operand of the latter. -/
def Yields (token next : Token) : Prop :=
  ∃ p q, operators.precedence? token = some p ∧ operators.precedence? next = some q ∧
    p.yieldsTo q = true

variable {operators}

theorem names_iff {token : Token} :
    operators.Names token ↔ ∃ precedence, operators.precedence? token = some precedence := by
  unfold Names precedence?
  by_cases h : (token.isIdentifier || token.isOperator) = true
  · simp [← Bool.or_eq_true, h]
  · simp [← Bool.or_eq_true, h]

theorem yields_iff {token next : Token} {p q : Precedence} (hp : operators.precedence? token = some p)
    (hq : operators.precedence? next = some q) :
    operators.Yields token next ↔ p.yieldsTo q = true := by
  simp [Yields, hp, hq]

end Operators

/-- Operators with the operands after them, as they are taken from a stream: each operator is read
and then an operand is parsed. `takes` says which tokens a parse takes. -/
inductive Operands {σ : Type} [TokenStream σ] (takes : σ → List Token → σ → Prop)
    (parse : ParseM σ Node) (operators : Operators) :
    σ → List Token → List (Token × Node) → σ → Prop
  | nil (s : σ) : Operands takes parse operators s [] [] s
  | cons {s s₁ s₂ s₃ : σ} {operator : Token} {node : Node} {us vs : List Token}
    {rest : List (Token × Node)} (hnames : operators.Names operator)
    (hread : TokenStream.read s = (.ok operator, s₁)) (hparse : parse s₁ = (.ok node, s₂))
    (htakes : takes s₁ us s₂) (hrest : Operands takes parse operators s₂ vs rest s₃) :
    Operands takes parse operators s (operator :: us ++ vs) ((operator, node) :: rest) s₃

/-- The node of a tree: leaves for its operators, and lists of the given kind. -/
def OperatorTree.build (g : Grammar) (kind : NodeKind) : OperatorTree → Except ParseError Node
  | operand node => .ok node
  | binary left operator right => do
    let left ← left.build g kind
    let operator ← g.tokenNode .leaf operator
    let right ← right.build g kind
    g.listNode kind [left, operator, right]

namespace Operands

theorem append {σ : Type} [TokenStream σ] {takes : σ → List Token → σ → Prop}
    {parse : ParseM σ Node} {operators : Operators} {s s₁ s₂ : σ} {us vs : List Token}
    {rest rest' : List (Token × Node)} (h : Operands takes parse operators s us rest s₁)
    (h' : Operands takes parse operators s₁ vs rest' s₂) :
    Operands takes parse operators s (us ++ vs) (rest ++ rest') s₂ := by
  induction h with
  | nil => exact h'
  | cons hnames hread hparse htakes _ ih =>
    simpa using Operands.cons hnames hread hparse htakes (ih h')

variable {parse : ParseM Tape Node} {operators : Operators} {tape tape' : Tape} {us : List Token}
  {rest : List (Token × Node)}

theorem read_names {operator : Token} {tape₁ : Tape} (hnames : operators.Names operator)
    (hread : TokenStream.read tape = (.ok operator, tape₁)) :
    tape.next? = some operator ∧ tape.Leads [operator] tape₁ := by
  rcases tape with ⟨past, _ | ⟨fault | token, ahead⟩⟩ <;> cases hread
  · obtain ⟨precedence, hprecedence⟩ := Operators.names_iff.1 hnames
    cases hprecedence
  · exact ⟨rfl, rfl, rfl⟩

theorem leads (h : Operands Tape.Leads parse operators tape us rest tape') : tape.Leads us tape' := by
  induction h with
  | nil tape => exact .refl tape
  | cons hnames hread _ htakes _ ih =>
    exact (((read_names hnames hread).2.trans htakes).trans ih)

theorem head (h : Operands Tape.Leads parse operators tape us rest tape') :
    rest = [] ∧ tape' = tape ∨ ∃ next more, rest = next :: more ∧ tape.next? = some next.1 ∧
      operators.Names next.1 := by
  cases h with
  | nil => exact .inl ⟨rfl, rfl⟩
  | cons hnames hread =>
    exact .inr ⟨_, _, rfl, (read_names hnames hread).1, hnames⟩

end Operands

namespace Grammar

variable {g : Grammar} {operators : Operators}

theorem nextOperator_eq_ok {tape tape' : Tape} {precedence? : Option Precedence}
    (h : nextOperator operators tape = (.ok precedence?, tape')) : tape' = tape ∧
      ∃ token, tape.next? = some token ∧ operators.precedence? token = precedence? := by
  rcases tape with ⟨past, _ | ⟨fault | token, ahead⟩⟩ <;> cases h
  · exact ⟨rfl, .endOfInput, rfl, rfl⟩
  · exact ⟨rfl, token, rfl, rfl⟩

theorem read_of_precedence {tape tape' : Tape} {token next : Token} {p : Precedence}
    (hnext : tape.next? = some token) (hp : operators.precedence? token = some p)
    (hread : ParseM.read tape = (.ok next, tape')) :
    TokenStream.read tape = (.ok token, tape') ∧ next = token := by
  rcases tape with ⟨past, _ | ⟨fault | seen, ahead⟩⟩ <;> cases hnext <;> cases hread
  · cases hp
  · exact ⟨rfl, rfl⟩

section Climbing

variable {run : Runner Tape} {kind : NodeKind} {factor : RuleId} {outer? : Option Precedence}
  {bound : Nat} {tape tape' : Tape}

/-- One round of climbing stops before what is no operator or is not admitted, or it shifts an
operator. -/
theorem parseOperators_eq_ok {left node : Node}
    (h : g.parseOperators run kind factor operators outer? left (bound + 1) tape = (.ok node, tape')) :
    (node = left ∧ tape' = tape ∧ ∃ next, tape.next? = some next ∧
      ∀ p, operators.precedence? next = some p → outer?.all (·.yieldsTo p) = false) ∨
    ∃ operator p opNode operand right inner tape₁ tape₂ tape₃,
      operators.precedence? operator = some p ∧ outer?.all (·.yieldsTo p) = true ∧
      TokenStream.read tape = (.ok operator, tape₁) ∧ g.tokenNode .leaf operator = .ok opNode ∧
      run.parse factor tape₁ = (.ok operand, tape₂) ∧
      g.parseOperators run kind factor operators (some p) operand bound tape₂ = (.ok right, tape₃) ∧
      g.listNode kind [left, opNode, right] = .ok inner ∧
      g.parseOperators run kind factor operators outer? inner bound tape₃ = (.ok node, tape') := by
  simp only [parseOperators] at h
  obtain ⟨precedence?, tape₀, hnext, h⟩ := ParseM.bind_eq_ok.1 h
  obtain ⟨rfl, token, htoken, rfl⟩ := nextOperator_eq_ok hnext
  cases hprecedence : operators.precedence? token with
  | none =>
    rw [hprecedence] at h
    cases h
    exact .inl ⟨rfl, rfl, token, htoken, by simp [hprecedence]⟩
  | some p =>
    simp only [hprecedence] at h
    by_cases hadmitted : outer?.all (·.yieldsTo p) = true
    · rw [if_pos hadmitted] at h
      obtain ⟨leaf, t, hleaf, h⟩ := ParseM.bind_eq_ok.1 h
      obtain ⟨read, tape₁, hread, h⟩ := ParseM.bind_eq_ok.1 h
      obtain ⟨opNode, t', hop, h⟩ := ParseM.bind_eq_ok.1 h
      obtain ⟨operand, tape₂, hoperand, h⟩ := ParseM.bind_eq_ok.1 h
      obtain ⟨right, tape₃, hright, h⟩ := ParseM.bind_eq_ok.1 h
      obtain ⟨inner, t'', hinner, h⟩ := ParseM.bind_eq_ok.1 h
      obtain ⟨hfactory, rfl⟩ := ParseM.ofGrammar_eq_ok hleaf
      obtain ⟨hread, hcons⟩ := read_of_precedence htoken hprecedence hread
      rw [ParseM.run_ofExcept] at hop
      rw [run_makeList] at hinner
      obtain ⟨hopNode, rfl⟩ := Prod.mk.inj hop
      obtain ⟨hinnerNode, rfl⟩ := Prod.mk.inj hinner
      refine .inr ⟨token, p, opNode, operand, right, inner, tape₁, tape₂, tape₃, hprecedence,
        hadmitted, hread, ?_, hoperand, hright, hinnerNode, h⟩
      rw [tokenNode, hfactory, ← hcons]
      exact hopNode
    · rw [if_neg hadmitted] at h
      cases h
      refine .inl ⟨rfl, rfl, token, htoken, fun q hq => ?_⟩
      obtain rfl : p = q := Option.some.inj (hprecedence.symm.trans hq)
      simpa using hadmitted

/-- Climbing takes operators with their operands and ends with the tree that the process reaches on
them, whatever chain `more` could follow where it stopped. `outer?` and `admits` tell the same. -/
theorem climbs_of_parseOperators
    (hrun : ∀ tape node tape', run.parse factor tape = (.ok node, tape') →
      ∃ us, tape.Leads us tape')
    {admits : Token → Prop} (hadmits : ∀ token p, operators.precedence? token = some p →
      (admits token ↔ outer?.all (·.yieldsTo p) = true))
    {left : OperatorTree} {leftNode node : Node} (hleft : left.build g kind = .ok leftNode)
    (h : g.parseOperators run kind factor operators outer? leftNode bound tape = (.ok node, tape')) :
    ∃ us rest tree, Operands Tape.Leads (run.parse factor) operators tape us rest tape' ∧
      tree.build g kind = .ok node ∧
      (∃ next, tape'.next? = some next ∧ (operators.Names next → ¬ admits next)) ∧
      ∀ more : List (Token × Node),
        (∀ next ∈ more.head?, tape'.next? = some next.1 ∧ operators.Names next.1) →
        Climbs operators.Yields admits left (rest ++ more) tree more := by
  induction bound generalizing outer? admits left leftNode node tape tape' with
  | zero => cases h
  | succ bound ih =>
    rcases parseOperators_eq_ok h with ⟨rfl, rfl, next, hnext, hstop⟩ |
      ⟨operator, p, opNode, operand, right, inner, tape₁, tape₂, tape₃, hp, hadmitted, hread, hop,
        hoperand, hright, hinner, h⟩
    · have hnot : operators.Names next → ¬ admits next := by
        intro hnames hadmit
        obtain ⟨p, hp⟩ := Operators.names_iff.1 hnames
        rw [hadmits next p hp, hstop p hp] at hadmit
        cases hadmit
      refine ⟨[], [], left, .nil _, hleft, ⟨next, hnext, hnot⟩, fun more hmore => .stop ?_⟩
      intro head hhead
      obtain ⟨hhead, hnames⟩ := hmore head hhead
      rw [hnext] at hhead
      obtain rfl := Option.some.inj hhead
      exact hnot hnames
    · have hnames : operators.Names operator := Operators.names_iff.2 ⟨p, hp⟩
      have hyields : ∀ token q, operators.precedence? token = some q →
          (operators.Yields operator token ↔ (some p).all (·.yieldsTo q) = true) :=
        fun token q hq => Operators.yields_iff hp hq
      have hoperandTree : (OperatorTree.operand operand).build g kind = .ok operand := rfl
      obtain ⟨us₁, rest₁, rightTree, hoperands₁, hbuild₁, -, hclimbs₁⟩ :=
        ih hyields hoperandTree hright
      have hinnerTree : (OperatorTree.binary left operator rightTree).build g kind = .ok inner := by
        simp only [OperatorTree.build, hleft, hop, hbuild₁]
        exact hinner
      obtain ⟨us₂, rest₂, tree, hoperands₂, hbuild, hend, hclimbs₂⟩ := ih hadmits hinnerTree h
      obtain ⟨us, hleads⟩ := hrun tape₁ operand tape₂ hoperand
      refine ⟨_, _, tree, .cons hnames hread hoperand hleads (hoperands₁.append hoperands₂), hbuild,
        hend, fun more hmore => ?_⟩
      rw [List.cons_append, List.append_assoc]
      refine .shift ((hadmits operator p hp).2 hadmitted) ?_ (hclimbs₂ more hmore)
      refine hclimbs₁ (rest₂ ++ more) fun next hhead => ?_
      rcases hoperands₂.head with ⟨rfl, rfl⟩ | ⟨first, others, rfl, hfirst, hfirstNames⟩
      · exact hmore next hhead
      · cases hhead
        exact ⟨hfirst, hfirstNames⟩

/-- The tree of an expression is the grouped tree of the chain that it takes. -/
theorem groups_of_parseOperators
    (hrun : ∀ tape node tape', run.parse factor tape = (.ok node, tape') →
      ∃ us, tape.Leads us tape')
    {first node : Node}
    (h : g.parseOperators run kind factor operators none first bound tape = (.ok node, tape')) :
    ∃ us rest tree, Operands Tape.Leads (run.parse factor) operators tape us rest tape' ∧
      OperatorTree.build g kind tree = .ok node ∧
      OperatorTree.Groups operators.Yields first rest tree ∧
      ∃ next, tape'.next? = some next ∧ ¬ operators.Names next := by
  have hadmits : ∀ token p, operators.precedence? token = some p →
      ((fun _ => True) token ↔ (none : Option Precedence).all (·.yieldsTo p) = true) := by simp
  have hfirstTree : (OperatorTree.operand first).build g kind = .ok first := rfl
  obtain ⟨us, rest, tree, hoperands, hbuild, ⟨next, hnext, hnot⟩, hclimbs⟩ :=
    climbs_of_parseOperators hrun hadmits hfirstTree h
  have hclimbs := hclimbs [] (by simp)
  rw [List.append_nil] at hclimbs
  obtain ⟨hfirst, hrest, _⟩ := hclimbs.reads
  have hgrouped := hclimbs.grouped trivial (by simp [OperatorTree.rightSpine]) fun _ _ => trivial
  refine ⟨us, rest, tree, hoperands, hbuild, ⟨hfirst, ?_, hgrouped.1⟩, next, hnext, ?_⟩
  · simpa [OperatorTree.rest] using hrest.symm
  · exact fun hnames => hnot hnames trivial

end Climbing

theorem leads_of_parseWithin (g : Grammar) (bound depth : Nat) (id : RuleId) {tape tape' : Tape}
    {node : Node} (h : g.parseWithin bound depth id tape = (.ok node, tape')) :
    ∃ us, tape.Leads us tape' :=
  let ⟨us, hleads, _⟩ := (g.parseWithin_walks bound depth id).leads_of_ok h
  ⟨us, hleads⟩

end Grammar

theorem Operands.shows {parse : ParseM Tape Node} {parse' : ParseM Lexer Node}
    (hagree : Agree Lexer.Shows parse' parse) {operators : Operators} {tape tape' : Tape}
    {us : List Token} {rest : List (Token × Node)} {marks : List Checkpoint} {lexer : Lexer}
    (h : Operands Tape.Leads parse operators tape us rest tape') (hshows : Lexer.Shows marks lexer tape) :
    ∃ lexer', Operands Lexer.Takes parse' operators lexer us rest lexer' ∧
      Lexer.Shows marks lexer' tape' := by
  induction h generalizing lexer with
  | nil => exact ⟨lexer, .nil lexer, hshows⟩
  | cons hnames hread hparse htakes _ ih =>
    obtain ⟨hresult₁, hshows₁⟩ := Lexer.simulation.read hshows
    rw [hread] at hresult₁ hshows₁
    obtain ⟨hresult₂, hshows₂⟩ := hagree marks _ _ hshows₁
    rw [hparse] at hresult₂ hshows₂
    obtain ⟨lexer', hoperands, hshows'⟩ := ih hshows₂
    exact ⟨lexer', .cons hnames (Prod.ext hresult₁ rfl) (Prod.ext hresult₂ rfl)
      (hshows₁.takes hshows₂ htakes) hoperands, hshows'⟩

namespace Grammar

/-- What an expression took and built: factors joined by operators of the table, up to a token that
is none, and the node of the tree that groups this chain. -/
def ExpressionParsed (g : Grammar) (factor : ParseM Lexer Node) (kind : NodeKind)
    (operators : Operators) (lexer : Lexer) (nodes : List Node) (lexer' : Lexer) : Prop :=
  ∃ first lexer₁ us vs rest lexer₂ tree node next,
    factor lexer = (.ok first, lexer₁) ∧ lexer.Takes us lexer₁ ∧
    Operands Lexer.Takes factor operators lexer₁ vs rest lexer₂ ∧ lexer₂.Takes [] lexer' ∧
    lexer.Takes (us ++ vs) lexer' ∧ (lexer'.peek 0).1 = .ok next ∧ ¬ operators.Names next ∧
    nodes = [node] ∧ OperatorTree.build g kind tree = .ok node ∧
    OperatorTree.Groups operators.Yields first rest tree

/-- Precedence climbing builds the one correct tree, for any table and any rule for the factors. -/
theorem expression_builds_grouped_tree (g : Grammar) (bound depth : Nat) (kind : NodeKind)
    (factor : RuleId) (operators : Operators) :
    (∀ (lexer lexer' : Lexer) (nodes : List Node), lexer.Sound →
      g.parseElement ⟨g.parseWithin bound depth, bound⟩ (.expression kind factor operators) lexer =
        (.ok nodes, lexer') →
      g.ExpressionParsed (g.parseWithin bound depth factor) kind operators lexer nodes lexer') ∧
    ∀ first rest tree tree', OperatorTree.Groups operators.Yields first rest tree →
      OperatorTree.Groups operators.Yields first rest tree' → tree = tree' := by
  refine ⟨fun lexer lexer' nodes hlexer h => ?_, fun _ _ _ _ htree htree' => htree.unique htree'⟩
  obtain ⟨marks, tape, hshows⟩ := hlexer.exists_shows
  have hagree := Lexer.simulation.parseWithin g bound depth
  obtain ⟨first, lexer₁, hfirst, h⟩ := ParseM.bind_eq_ok.1 h
  obtain ⟨node, lexer₃, hnode, h⟩ := ParseM.bind_eq_ok.1 h
  cases h
  obtain ⟨tape₁, hfirstTape, hshows₁⟩ := (hagree factor).of_ok hshows hfirst
  have hoperators : Agree Lexer.Shows
      (g.parseOperators ⟨g.parseWithin bound depth, bound⟩ kind factor operators none first (bound + 1))
      (g.parseOperators ⟨g.parseWithin bound depth, bound⟩ kind factor operators none first (bound + 1)) :=
    Lexer.simulation.parseOperators g hagree kind factor operators none first (bound + 1)
  obtain ⟨tape₃, hnodeTape, hshows₃⟩ := hoperators.of_ok hshows₁ hnode
  obtain ⟨us, hleads⟩ := leads_of_parseWithin g bound depth factor hfirstTape
  obtain ⟨vs, rest, tree, hoperands, hbuild, hgroups, next, hnext, hnot⟩ :=
    groups_of_parseOperators (fun _ _ _ => leads_of_parseWithin g bound depth factor) hnodeTape
  obtain ⟨lexer₂, hoperands₂, hshows₂⟩ := hoperands.shows (hagree factor) hshows₁
  have hpeek : (lexer'.peek 0).1 = .ok next := by
    rw [(hshows₃.peek 0).1]
    exact Tape.peek_zero_of_next? hnext
  exact ⟨first, lexer₁, us, vs, rest, lexer₂, tree, node, next, hfirst,
    hshows.takes hshows₁ hleads, hoperands₂, hshows₂.takes hshows₃ (.refl _),
    hshows.takes hshows₃ (hleads.trans hoperands.leads), hpeek, hnot, rfl, hbuild, hgroups⟩

def numbers : Grammar where
  rules := #[⟨"number", Rule.untyped.number ⟨"number"⟩⟩]
  tokens := (Table.insert ∅ .leaf ⟨.leaf, .leaf .leaf⟩).insert ⟨"number"⟩ ⟨⟨"number"⟩, .leaf ⟨"number"⟩⟩
  lists := (Table.insert ∅ .list ⟨.list, .flattenOrWrap .list⟩).insert ⟨"sum"⟩ ⟨⟨"sum"⟩, .wrap ⟨"sum"⟩⟩

/-- Two operators of one strength that group to different sides. -/
theorem expression_builds_grouped_tree_mixed :
    let operators := Operators.ofList [("+", ⟨1, .left⟩), ("^", ⟨1, .right⟩)]
    let number := fun value => Token.scanned 1 (.number value)
    let operator := fun symbol => Token.scanned 1 (.operator symbol)
    let chain := #[number 1, operator "+", number 2, operator "^", number 3]
    let lexer : Lexer := { pending := [], buffer := chain }
    ∃ nodes lexer', lexer.Sound ∧
      numbers.parseElement ⟨numbers.parseWithin 5 1, 5⟩ (.expression ⟨"sum"⟩ 0 operators) lexer =
        (.ok nodes, lexer') ∧
      numbers.ExpressionParsed (numbers.parseWithin 5 1 0) ⟨"sum"⟩ operators lexer nodes lexer' := by
  intro operators number operator chain lexer
  have hlexer : lexer.Sound := Nat.zero_le _
  have hok : (numbers.parseElement ⟨numbers.parseWithin 5 1, 5⟩ (.expression ⟨"sum"⟩ 0 operators)
      lexer).1.isOk = true := by decide +kernel
  rcases h : numbers.parseElement ⟨numbers.parseWithin 5 1, 5⟩ (.expression ⟨"sum"⟩ 0 operators)
      lexer with ⟨error | nodes, lexer'⟩
  · rw [h] at hok
    cases hok
  · exact ⟨nodes, lexer', hlexer, rfl,
      (expression_builds_grouped_tree numbers 5 1 ⟨"sum"⟩ 0 operators).1 lexer lexer' nodes hlexer h⟩

end Grammar

end ParseKit
