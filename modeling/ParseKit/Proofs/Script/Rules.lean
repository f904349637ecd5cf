import Mathlib
import ParseKit.Proofs.Script.Phrases

/-! The grammar of the statement language as it is built: its rules, what its builders give, and the
tokens with which its rules could start. -/

namespace ParseKit

namespace Script

def grammar : Grammar where
  rules := #[
    ⟨"expr", Rule.untyped.expression binaryKind 8 operators⟩,
    ⟨"statement", Rule.untyped.choice [13, 14, 11]⟩,
    ⟨"#2", Rule.untyped.separator ["("] |>.tree 0 |>.separator [")"]⟩,
    ⟨"#3", Rule.untyped.number numberKind⟩,
    ⟨"#4", Rule.untyped.identifier nameKind keywords⟩,
    ⟨"#5", Rule.untyped.string stringKind⟩,
    ⟨"primary", (Rule.of primaryKind).choice [2, 3, 4, 5]⟩,
    ⟨"#7", (Rule.of negativeKind).separator ["-"] |>.tree 6⟩,
    ⟨"factor", Rule.untyped.choice [7, 6]⟩,
    ⟨"#9", Rule.untyped.separator separators |>.optional 1⟩,
    ⟨"block", (Rule.of blockKind).separator ["\x7b"] |>.optional 1 |>.many 9 |>.separator ["\x7d"]⟩,
    ⟨"simple", (Rule.of primaryKind).tree 0⟩,
    ⟨"#12", Rule.untyped.separator ["else"] |>.tree 10⟩,
    ⟨"if", (Rule.of ifKind).separator ["if"] |>.tree 0 |>.tree 10 |>.optional 12⟩,
    ⟨"while", (Rule.of whileKind).separator ["while"] |>.tree 0 |>.tree 10⟩,
    ⟨"#15", Rule.untyped.tree 1 |>.separator separators⟩,
    ⟨"#16", (Rule.of nullKind).separator separators⟩,
    ⟨"program", Rule.untyped.choice [15, 16]⟩]
  tokens := ⟨[stringKind, nameKind, numberKind, .leaf].map fun kind => (kind, ⟨kind, .leaf kind⟩)⟩
  lists := ⟨[nullKind, whileKind, ifKind, blockKind, negativeKind].map
      (fun kind => (kind, ⟨kind, .wrap kind⟩)) ++
    [(primaryKind, ⟨primaryKind, .flattenOrWrap primaryKind⟩), (binaryKind, ⟨binaryKind, .wrap binaryKind⟩),
      (.list, ⟨.list, .flattenOrWrap .list⟩)]⟩

def ruleAt (id : RuleId) : Rule :=
  (grammar.rules.getD id ⟨"", .untyped⟩).rule

theorem rule_eq_ruleAt {id : RuleId} {rule : Rule} (h : grammar.rule id = .ok rule) :
    id < 18 ∧ rule = ruleAt id := by
  obtain ⟨name, hname⟩ := Grammar.rule_eq_ok_iff.1 h
  refine ⟨Grammar.lt_size_of_rule h, ?_⟩
  rw [ruleAt, Array.getD_eq_getD_getElem?, hname]
  rfl

theorem parser_eq : parser.1 = .ok ⟨grammar, ⟨6, 8, 0, 10, 11, 1, 17⟩⟩ := by cbv

section Builders

variable (token : Token) (nodes : List Node)

theorem tokenNode_leaf : grammar.tokenNode .leaf token = .ok (.leaf .leaf token) := rfl

theorem listNode_list (node : Node) : grammar.listNode .list [node] = .ok node := rfl

theorem listNode_primary (node : Node) : grammar.listNode primaryKind [node] = .ok node := rfl

theorem listNode_wrap {kind : NodeKind}
    (h : kind ∈ [negativeKind, binaryKind, blockKind, ifKind, whileKind, nullKind]) :
    grammar.listNode kind nodes = .ok (.list kind nodes) := by
  simp only [List.mem_cons, List.not_mem_nil, or_false] at h
  rcases h with rfl | rfl | rfl | rfl | rfl | rfl <;> rfl

/-- The two kinds that stand for a single child give a node of any children. -/
theorem exists_listNode_flatten {kind : NodeKind} (h : kind ∈ [.list, primaryKind]) :
    ∃ node, grammar.listNode kind nodes = .ok node := by
  simp only [List.mem_cons, List.not_mem_nil, or_false] at h
  rcases h with rfl | rfl <;> rcases nodes with _ | ⟨first, _ | ⟨second, rest⟩⟩ <;> exact ⟨_, rfl⟩

theorem exists_listNode {kind : NodeKind} (h : kind ∈ [.list, primaryKind] ++
      [negativeKind, binaryKind, blockKind, ifKind, whileKind, nullKind]) :
    ∃ node, grammar.listNode kind nodes = .ok node :=
  (List.mem_append.1 h).elim (exists_listNode_flatten nodes) fun h => ⟨_, listNode_wrap nodes h⟩

theorem exists_tokenNode {kind : NodeKind} (h : kind ∈ [numberKind, nameKind, stringKind, .leaf]) :
    ∃ node, grammar.tokenNode kind token = .ok node := by
  simp only [List.mem_cons, List.not_mem_nil, or_false] at h
  rcases h with rfl | rfl | rfl | rfl <;> exact ⟨_, rfl⟩

end Builders

theorem buildsRule {id : RuleId} {rule : Rule} (h : grammar.rule id = .ok rule) :
    grammar.BuildsRule rule := by
  obtain ⟨hlt, rfl⟩ := rule_eq_ruleAt h
  have hkinds : ∀ id < 18, (ruleAt id).kind ∈ [.list, primaryKind] ++
      [negativeKind, binaryKind, blockKind, ifKind, whileKind, nullKind] := by decide
  have htokens : ∀ id < 18, ∀ element ∈ (ruleAt id).elements, ∀ kind ∈ element.tokenKinds,
      kind ∈ [numberKind, nameKind, stringKind, .leaf] := by decide
  have hlists : ∀ id < 18, ∀ element ∈ (ruleAt id).elements, ∀ kind ∈ element.listKinds,
      kind ∈ [.list, primaryKind] ++
        [negativeKind, binaryKind, blockKind, ifKind, whileKind, nullKind] := by decide
  exact ⟨fun nodes => exists_listNode nodes (hkinds id hlt),
    fun element hmem kind hkind token => exists_tokenNode token (htokens id hlt element hmem kind hkind),
    fun element hmem kind hkind nodes => exists_listNode nodes (hlists id hlt element hmem kind hkind)⟩

def level (id : RuleId) : Nat :=
  [3, 5, 0, 0, 0, 0, 1, 0, 2, 0, 0, 4, 0, 0, 0, 6, 0, 7].getD id 0

theorem descends : grammar.Descends level = true := by decide

theorem not_leftRecursive : ¬ grammar.LeftRecursive :=
  Grammar.not_leftRecursive_of_descends descends

theorem predictive : grammar.Predictive where
  not_leftRecursive := not_leftRecursive
  not_nullable := Grammar.not_nullableRule_of_descends descends
  isPredictive := by decide
  builds := buildsRule

end Script

end ParseKit
