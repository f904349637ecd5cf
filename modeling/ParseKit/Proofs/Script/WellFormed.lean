import ParseKit.Proofs.Script.Program

/-! The trees that programs parse to: operands are numbers, names that are not reserved, and strings,
and every list has the children of its kind. Main statement: `Script.isProgram_of_parseProgram`, a
program parses to such trees only. -/

namespace ParseKit

namespace Script

inductive IsExpression : Node → Prop
  | number (line : Nat) {value : Int} (hlower : 0 ≤ value) (hupper : value ≤ Scan.maxNumber) :
    IsExpression (.leaf numberKind (.scanned line (.number value)))
  | name (line : Nat) {name : String} (h : (Lexeme.identifier name).Scannable) (hreserved : name ∉ keywords) :
    IsExpression (.leaf nameKind (.scanned line (.identifier name)))
  | string (line : Nat) (text : String) : IsExpression (.leaf stringKind (.scanned line (.string text)))
  | negative {operand : Node} (h : IsExpression operand) : IsExpression (.list negativeKind [operand])
  | binary {left right : Node} {operator : Token} (hleft : IsExpression left)
    (hoperator : IsOperator operator) (hright : IsExpression right) :
    IsExpression (.list binaryKind [left, .leaf .leaf operator, right])

mutual

inductive IsBlock : Node → Prop
  | intro {statements : List Node} (h : IsBody statements) : IsBlock (.list blockKind statements)

inductive IsBody : List Node → Prop
  | nil : IsBody []
  | cons {statement : Node} {statements : List Node} (h : IsStatement statement)
    (hrest : IsBody statements) : IsBody (statement :: statements)

inductive IsStatement : Node → Prop
  | expression {node : Node} (h : IsExpression node) : IsStatement node
  | ifThen {condition body : Node} (hcondition : IsExpression condition) (hbody : IsBlock body) :
    IsStatement (.list ifKind [condition, body])
  | ifElse {condition body otherwise : Node} (hcondition : IsExpression condition) (hbody : IsBlock body)
    (hotherwise : IsBlock otherwise) : IsStatement (.list ifKind [condition, body, otherwise])
  | whileLoop {condition body : Node} (hcondition : IsExpression condition) (hbody : IsBlock body) :
    IsStatement (.list whileKind [condition, body])

end

/-- The trees of a program: statements, and null statements where one was left out. -/
inductive IsProgram : List Node → Prop
  | nil : IsProgram []
  | statement {node : Node} {nodes : List Node} (h : IsStatement node) (hrest : IsProgram nodes) :
    IsProgram (node :: nodes)
  | null {nodes : List Node} (hrest : IsProgram nodes) : IsProgram (.list nullKind [] :: nodes)

theorem isExpression_treeNode (tree : OperatorTree) (hfirst : IsExpression tree.first)
    (hrest : ∀ step ∈ tree.rest, IsOperator step.1 ∧ IsExpression step.2) : IsExpression (treeNode tree) := by
  induction tree with
  | operand node => exact hfirst
  | binary left operator right ihl ihr =>
    have hleft : ∀ step ∈ left.rest, IsOperator step.1 ∧ IsExpression step.2 := by
      intro step hmem
      exact hrest step (List.mem_append_left _ hmem)
    obtain ⟨hoperator, hnext⟩ := hrest (operator, right.first) (by simp [OperatorTree.rest])
    have hright : ∀ step ∈ right.rest, IsOperator step.1 ∧ IsExpression step.2 := by
      intro step hmem
      exact hrest step (List.mem_append_right _ (List.mem_cons_of_mem _ hmem))
    exact .binary (ihl hfirst hleft) hoperator (ihr hnext hright)

mutual

theorem Primary.isExpression {us : List Token} {node : Node} : Primary us node → IsExpression node
  | .paren _ h _ => h.isExpression
  | .number line h => .number line h.1 h.2
  | .name line h hreserved => .name line h hreserved
  | .string line text => .string line text

theorem Factor.isExpression {us : List Token} {node : Node} : Factor us node → IsExpression node
  | .negative _ h => .negative h.isExpression
  | .primary h => h.isExpression

theorem Chain.isExpression {us : List Token} {first : Node} {rest : List (Token × Node)} :
    Chain us first rest → IsExpression first ∧ ∀ step ∈ rest, IsOperator step.1 ∧ IsExpression step.2
  | .factor h => ⟨h.isExpression, by simp⟩
  | .operator h hoperator hrest =>
    ⟨h.isExpression, List.forall_mem_cons.2 ⟨⟨hoperator, hrest.isExpression.1⟩, hrest.isExpression.2⟩⟩

theorem Expr.isExpression {us : List Token} {node : Node} : Expr us node → IsExpression node
  | .grouped h hgroups => isExpression_treeNode _ (by rw [hgroups.first]; exact h.isExpression.1)
      (by rw [hgroups.rest]; exact h.isExpression.2)

end

mutual

theorem Block.isBlock {us : List Token} {node : Node} : Block us node → IsBlock node
  | .blank _ h _ => .intro h.isBody
  | .filled _ h hrest _ => .intro (.cons h.isStatement hrest.isBody)

theorem Items.isBody {us : List Token} {nodes : List Node} : Items us nodes → IsBody nodes
  | .nil => .nil
  | .blank _ h => h.isBody
  | .statement _ h hrest => .cons h.isStatement hrest.isBody

theorem Statement.isStatement {us : List Token} {node : Node} : Statement us node → IsStatement node
  | .ifThen _ hcondition hbody => .ifThen hcondition.isExpression hbody.isBlock
  | .ifElse _ hcondition hbody _ hotherwise =>
    .ifElse hcondition.isExpression hbody.isBlock hotherwise.isBlock
  | .whileLoop _ hcondition hbody => .whileLoop hcondition.isExpression hbody.isBlock
  | .simple h => .expression h.isExpression

end

theorem isProgram_of_phrases {us : List Token} {nodes : List Node} (h : Phrases Program us nodes) :
    IsProgram nodes := by
  induction h with
  | nil => exact .nil
  | cons hphrase _ ih =>
    cases hphrase with
    | statement h _ => exact .statement h.isStatement ih
    | null _ => exact .null ih

theorem isProgram_of_parseProgram {source : Source} {options : LexerOptions} {nodes : List Node}
    (h : parseProgram source options = .ok nodes) : IsProgram nodes :=
  isProgram_of_phrases ((parseProgram_eq_ok_iff source options).1 h).2

end Script

end ParseKit
