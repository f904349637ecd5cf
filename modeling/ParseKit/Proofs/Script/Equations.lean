import ParseKit.Proofs.Script.Rules

/-! The phrases satisfy the equations of the grammar as it is built: for every rule, what its
elements take and give is what the documented grammar says. Main statement: `Script.describes`. -/

namespace ParseKit

namespace Script

/-- The phrases of the rules that the language names, and of the part after a conditional. -/
def named? : RuleId → Option (List Token → Node → Prop)
  | 0 => some Expr
  | 1 => some Statement
  | 6 => some Primary
  | 8 => some Factor
  | 10 => some Block
  | 11 => some Expr
  | 12 => some ElsePart
  | 17 => some Program
  | _ => none

def named (id : RuleId) : List Token → Node → Prop :=
  (named? id).getD fun _ _ => False

/-- The phrases of all rules. Those without a name take and give what their elements say. -/
def phrase (id : RuleId) : List Token → Node → Prop :=
  (named? id).getD (grammar.RuleForm named (ruleAt id))

section Unnamed

variable {us : List Token} {node : Node}

theorem phrase_paren_iff : phrase 2 us node ↔ ∃ opening inner closing,
    us = opening :: inner ++ [closing] ∧ IsSymbol "(" opening ∧ Expr inner node ∧
      IsSymbol ")" closing := by
  have hopening : ∀ {token}, IsSymbol "(" token ↔ _ := isSymbol_iff rfl rfl (by decide)
  have hclosing : ∀ {token}, IsSymbol ")" token ↔ _ := isSymbol_iff rfl rfl (by decide)
  constructor
  · rintro ⟨nodes, ⟨⟨haccepts, hscannable⟩, ⟨h⟩, ⟨haccepts', hscannable'⟩, ⟨⟩⟩, hnode⟩
    cases hnode
    exact ⟨_, _, _, rfl, hopening.2 ⟨haccepts, hscannable⟩, h, hclosing.2 ⟨haccepts', hscannable'⟩⟩
  · rintro ⟨opening, inner, closing, rfl, hopen, h, hclose⟩
    exact ⟨[node], .drop (hopening.1 hopen) (.tree h (.drop (hclosing.1 hclose) .nil)), rfl⟩

theorem phrase_number_iff : phrase 3 us node ↔ ∃ line value, (Lexeme.number value).Scannable ∧
    us = [.scanned line (.number value)] ∧ node = .leaf numberKind (.scanned line (.number value)) := by
  refine (Grammar.ruleForm_keep_iff listNode_list).trans ⟨?_, ?_⟩
  · rintro ⟨token, rfl, haccepts, hscannable, hnode⟩
    obtain ⟨line, value, rfl⟩ := TokenClass.accepts_number_iff.1 haccepts
    cases hnode
    exact ⟨line, value, hscannable.resolve_right (by simp), rfl, rfl⟩
  · rintro ⟨line, value, h, rfl, rfl⟩
    exact ⟨_, rfl, rfl, .inl h, rfl⟩

theorem phrase_name_iff : phrase 4 us node ↔ ∃ line name, (Lexeme.identifier name).Scannable ∧
    name ∉ keywords ∧ us = [.scanned line (.identifier name)] ∧
      node = .leaf nameKind (.scanned line (.identifier name)) := by
  refine (Grammar.ruleForm_keep_iff listNode_list).trans ⟨?_, ?_⟩
  · rintro ⟨token, rfl, haccepts, hscannable, hnode⟩
    obtain ⟨line, name, rfl, hfree⟩ := TokenClass.accepts_identifier_iff.1 haccepts
    cases hnode
    exact ⟨line, name, hscannable.resolve_right (by simp), hfree, rfl, rfl⟩
  · rintro ⟨line, name, h, hfree, rfl, rfl⟩
    exact ⟨_, rfl, TokenClass.accepts_identifier_iff.2 ⟨line, name, rfl, hfree⟩, .inl h, rfl⟩

theorem phrase_string_iff : phrase 5 us node ↔ ∃ line text, us = [.scanned line (.string text)] ∧
    node = .leaf stringKind (.scanned line (.string text)) := by
  refine (Grammar.ruleForm_keep_iff listNode_list).trans ⟨?_, ?_⟩
  · rintro ⟨token, rfl, haccepts, _, hnode⟩
    obtain ⟨line, text, rfl⟩ := TokenClass.accepts_string_iff.1 haccepts
    cases hnode
    exact ⟨line, text, rfl, rfl⟩
  · rintro ⟨line, text, rfl, rfl⟩
    exact ⟨_, rfl, rfl, .inl trivial, rfl⟩

theorem phrase_negative_iff : phrase 7 us node ↔ ∃ minus inner operand, us = minus :: inner ∧
    IsSymbol "-" minus ∧ Primary inner operand ∧ node = .list negativeKind [operand] := by
  have hminus : ∀ {token}, IsSymbol "-" token ↔ _ := isSymbol_iff rfl rfl (by decide)
  constructor
  · rintro ⟨nodes, ⟨⟨haccepts, hscannable⟩, ⟨h⟩, ⟨⟩⟩, hnode⟩
    cases hnode
    exact ⟨_, _, _, by simp, hminus.2 ⟨haccepts, hscannable⟩, h, rfl⟩
  · rintro ⟨minus, inner, operand, rfl, hsymbol, h, rfl⟩
    exact ⟨[operand], .drop (hminus.1 hsymbol) (.single (SingleForm.intro h)), rfl⟩

/-- An item of a block. A blank one gives a generic empty list. -/
theorem phrase_item_iff : phrase 9 us node ↔ ∃ separator vs, us = separator :: vs ∧
    IsSeparator separator ∧ (vs = [] ∧ node = .list .list [] ∨ Statement vs node) := by
  constructor
  · rintro ⟨nodes, ⟨⟨haccepts, hscannable⟩, hstatement, ⟨⟩⟩, hnode⟩
    refine ⟨_, _, List.cons_eq_cons.2 ⟨rfl, List.append_nil _⟩,
      isSeparator_iff.2 ⟨haccepts, hscannable⟩, ?_⟩
    cases hstatement with
    | none =>
      cases hnode
      exact .inl ⟨rfl, rfl⟩
    | some h =>
      rw [Statement.kept h] at hnode
      cases hnode
      exact .inr h
  · rintro ⟨separator, vs, rfl, hseparator, ⟨rfl, rfl⟩ | h⟩
    · exact ⟨[], .drop (isSeparator_iff.1 hseparator) (.optional_none .nil), rfl⟩
    · have hform : Element.FormOf grammar named (ruleAt 9).elements (separator :: vs) node.kept :=
        .drop (isSeparator_iff.1 hseparator) (.single (OptionalForm.some h))
      rw [Statement.kept h] at hform
      exact ⟨[node], hform, rfl⟩

theorem phrase_if_iff : phrase 13 us node ↔ ∃ word vs ws condition body, IsWord "if" word ∧
    Expr vs condition ∧ Block ws body ∧ (us = word :: vs ++ ws ∧ node = .list ifKind [condition, body] ∨
      ∃ xs otherwise, us = word :: vs ++ ws ++ xs ∧ ElsePart xs otherwise ∧
        node = .list ifKind [condition, body, otherwise]) := by
  have hword : ∀ {token}, IsWord "if" token ↔ _ := isWord_iff ⟨'i', ['f'], rfl, rfl, rfl⟩ rfl (by decide)
  constructor
  · rintro ⟨nodes, ⟨⟨haccepts, hscannable⟩, ⟨hcondition⟩, ⟨hbody⟩, helse, ⟨⟩⟩, hnode⟩
    refine ⟨_, _, _, _, _, hword.2 ⟨haccepts, hscannable⟩, hcondition, hbody, ?_⟩
    cases helse with
    | none =>
      cases hnode
      exact .inl ⟨by simp, rfl⟩
    | some h =>
      rw [ElsePart.kept h] at hnode
      cases hnode
      exact .inr ⟨_, _, by simp, h, rfl⟩
  · rintro ⟨word, vs, ws, condition, body, hif, hcondition, hbody, ⟨rfl, rfl⟩ | ⟨xs, otherwise, rfl, h, rfl⟩⟩
    · have hform : Element.FormOf grammar named (ruleAt 13).elements (word :: (vs ++ (ws ++ [])))
          [condition, body] :=
        .drop (hword.1 hif) (.tree hcondition (.tree hbody (.optional_none .nil)))
      exact ⟨[condition, body], by simpa using hform, rfl⟩
    · have hform : Element.FormOf grammar named (ruleAt 13).elements (word :: (vs ++ (ws ++ xs)))
          (condition :: body :: otherwise.kept) :=
        .drop (hword.1 hif) (.tree hcondition (.tree hbody (.single (OptionalForm.some h))))
      rw [ElsePart.kept h] at hform
      exact ⟨[condition, body, otherwise], by simpa using hform, rfl⟩

theorem phrase_while_iff : phrase 14 us node ↔ ∃ word vs ws condition body, IsWord "while" word ∧
    Expr vs condition ∧ Block ws body ∧ us = word :: vs ++ ws ∧
      node = .list whileKind [condition, body] := by
  have hword : ∀ {token}, IsWord "while" token ↔ _ :=
    isWord_iff ⟨'w', ['h', 'i', 'l', 'e'], rfl, rfl, rfl⟩ rfl (by decide)
  constructor
  · rintro ⟨nodes, ⟨⟨haccepts, hscannable⟩, ⟨hcondition⟩, ⟨hbody⟩, ⟨⟩⟩, hnode⟩
    cases hnode
    exact ⟨_, _, _, _, _, hword.2 ⟨haccepts, hscannable⟩, hcondition, hbody, by simp, rfl⟩
  · rintro ⟨word, vs, ws, condition, body, hwhile, hcondition, hbody, rfl, rfl⟩
    exact ⟨[condition, body],
      .drop (hword.1 hwhile) (.tree hcondition (.single (SingleForm.intro hbody))), rfl⟩

theorem phrase_fullLine_iff : phrase 15 us node ↔ ∃ vs separator, us = vs ++ [separator] ∧
    Statement vs node ∧ IsSeparator separator := by
  constructor
  · rintro ⟨nodes, ⟨⟨h⟩, ⟨haccepts, hscannable⟩, ⟨⟩⟩, hnode⟩
    cases hnode
    exact ⟨_, _, rfl, h, isSeparator_iff.2 ⟨haccepts, hscannable⟩⟩
  · rintro ⟨vs, separator, rfl, h, hseparator⟩
    exact ⟨[node], .tree h (.drop (isSeparator_iff.1 hseparator) .nil), rfl⟩

theorem phrase_nullLine_iff : phrase 16 us node ↔ ∃ separator, us = [separator] ∧
    IsSeparator separator ∧ node = .list nullKind [] := by
  constructor
  · rintro ⟨nodes, ⟨⟨haccepts, hscannable⟩, ⟨⟩⟩, hnode⟩
    cases hnode
    exact ⟨_, rfl, isSeparator_iff.2 ⟨haccepts, hscannable⟩, rfl⟩
  · rintro ⟨separator, rfl, hseparator, rfl⟩
    exact ⟨[], .drop (isSeparator_iff.1 hseparator) .nil, rfl⟩

end Unnamed

section Named

variable {us : List Token} {node : Node}

theorem Chain.split {us : List Token} {first : Node} {rest : List (Token × Node)}
    (h : Chain us first rest) :
    ∃ vs ws, us = vs ++ ws ∧ Factor vs first ∧ OperandsForm Factor operators ws rest := by
  induction rest generalizing us first with
  | nil =>
    cases h with
    | factor h => exact ⟨us, [], (List.append_nil us).symm, h, .nil⟩
  | cons next rest ih =>
    cases h with
    | operator h hoperator hrest =>
      obtain ⟨vs, ws, rfl, hnext, hform⟩ := ih hrest
      obtain ⟨hnames, hscannable⟩ := isOperator_iff.1 hoperator
      exact ⟨_, _, rfl, h, .cons hnames hscannable hnext hform⟩

theorem chain_of_operands {us vs : List Token} {first : Node} {rest : List (Token × Node)}
    (hfirst : Factor us first) (h : OperandsForm Factor operators vs rest) :
    Chain (us ++ vs) first rest := by
  induction h generalizing us first with
  | nil =>
    rw [List.append_nil]
    exact .factor hfirst
  | cons hnames hscannable hnext _ ih =>
    exact .operator hfirst (isOperator_iff.2 ⟨hnames, hscannable⟩) (ih hnext)

theorem build_eq (tree : OperatorTree) : tree.build grammar binaryKind = .ok (treeNode tree) := by
  induction tree with
  | operand node => rfl
  | binary left operator right ihleft ihright =>
    have hwrap := listNode_wrap [treeNode left, .leaf .leaf operator, treeNode right]
      (show binaryKind ∈ _ by decide)
    simp only [OperatorTree.build, ihleft, ihright, tokenNode_leaf]
    exact hwrap

theorem expr_iff : Expr us node ↔ ExpressionForm Factor grammar binaryKind operators us node := by
  constructor
  · rintro ⟨hchain, hgroups⟩
    obtain ⟨vs, ws, rfl, hfirst, hrest⟩ := hchain.split
    exact .intro hfirst hrest hgroups (build_eq _)
  · rintro ⟨hfirst, hrest, hgroups, hbuild⟩
    cases (build_eq _).symm.trans hbuild
    exact .grouped (chain_of_operands hfirst hrest) hgroups

theorem expr_equation : phrase 0 us node ↔ grammar.RuleForm phrase (ruleAt 0) us node := by
  refine expr_iff.trans ⟨fun h => ⟨[node], .single (SingleForm.intro h), rfl⟩, ?_⟩
  rintro ⟨nodes, ⟨⟨h⟩, ⟨⟩⟩, hnode⟩
  cases hnode
  rw [List.append_nil]
  exact h

theorem primary_equation : phrase 6 us node ↔ grammar.RuleForm phrase (ruleAt 6) us node := by
  refine Iff.trans ?_ (Grammar.ruleForm_choice_iff listNode_primary).symm
  constructor
  · intro h
    cases h with
    | paren hopening h hclosing =>
      exact ⟨2, by decide, phrase_paren_iff.2 ⟨_, _, _, rfl, hopening, h, hclosing⟩⟩
    | number line h => exact ⟨3, by decide, phrase_number_iff.2 ⟨line, _, h, rfl, rfl⟩⟩
    | name line h hreserved => exact ⟨4, by decide, phrase_name_iff.2 ⟨line, _, h, hreserved, rfl, rfl⟩⟩
    | string line text => exact ⟨5, by decide, phrase_string_iff.2 ⟨line, text, rfl, rfl⟩⟩
  · rintro ⟨id, hmem, h⟩
    simp only [List.mem_cons, List.not_mem_nil, or_false] at hmem
    rcases hmem with rfl | rfl | rfl | rfl
    · obtain ⟨_, _, _, rfl, hopening, hinner, hclosing⟩ := phrase_paren_iff.1 h
      exact .paren hopening hinner hclosing
    · obtain ⟨line, value, hvalue, rfl, rfl⟩ := phrase_number_iff.1 h
      exact .number line hvalue
    · obtain ⟨line, name, hname, hreserved, rfl, rfl⟩ := phrase_name_iff.1 h
      exact .name line hname hreserved
    · obtain ⟨line, text, rfl, rfl⟩ := phrase_string_iff.1 h
      exact .string line text

theorem factor_equation : phrase 8 us node ↔ grammar.RuleForm phrase (ruleAt 8) us node := by
  refine Iff.trans ?_ (Grammar.ruleForm_choice_iff listNode_list).symm
  constructor
  · intro h
    cases h with
    | negative hminus h => exact ⟨7, by decide, phrase_negative_iff.2 ⟨_, _, _, rfl, hminus, h, rfl⟩⟩
    | primary h => exact ⟨6, by decide, h⟩
  · rintro ⟨id, hmem, h⟩
    simp only [List.mem_cons, List.not_mem_nil, or_false] at hmem
    rcases hmem with rfl | rfl
    · obtain ⟨_, _, _, rfl, hminus, hoperand, rfl⟩ := phrase_negative_iff.1 h
      exact .negative hminus hoperand
    · exact .primary h

theorem statement_equation : phrase 1 us node ↔ grammar.RuleForm phrase (ruleAt 1) us node := by
  refine Iff.trans ?_ (Grammar.ruleForm_choice_iff listNode_list).symm
  constructor
  · intro h
    cases h with
    | ifThen hword hcondition hbody =>
      exact ⟨13, by decide, phrase_if_iff.2 ⟨_, _, _, _, _, hword, hcondition, hbody, .inl ⟨rfl, rfl⟩⟩⟩
    | ifElse hword hcondition hbody hother hotherwise =>
      exact ⟨13, by decide, phrase_if_iff.2 ⟨_, _, _, _, _, hword, hcondition, hbody,
        .inr ⟨_, _, rfl, .intro hother hotherwise, rfl⟩⟩⟩
    | whileLoop hword hcondition hbody =>
      exact ⟨14, by decide, phrase_while_iff.2 ⟨_, _, _, _, _, hword, hcondition, hbody, rfl, rfl⟩⟩
    | simple h => exact ⟨11, by decide, h⟩
  · rintro ⟨id, hmem, h⟩
    simp only [List.mem_cons, List.not_mem_nil, or_false] at hmem
    rcases hmem with rfl | rfl | rfl
    · obtain ⟨_, _, _, _, _, hword, hcondition, hbody, ⟨rfl, rfl⟩ | ⟨_, _, rfl, helse, rfl⟩⟩ :=
        phrase_if_iff.1 h
      · exact .ifThen hword hcondition hbody
      · obtain ⟨hother, hotherwise⟩ := helse
        exact .ifElse hword hcondition hbody hother hotherwise
    · obtain ⟨_, _, _, _, _, hword, hcondition, hbody, rfl, rfl⟩ := phrase_while_iff.1 h
      exact .whileLoop hword hcondition hbody
    · exact .simple h

theorem program_equation : phrase 17 us node ↔ grammar.RuleForm phrase (ruleAt 17) us node := by
  refine Iff.trans ?_ (Grammar.ruleForm_choice_iff listNode_list).symm
  constructor
  · intro h
    cases h with
    | statement h hseparator => exact ⟨15, by decide, phrase_fullLine_iff.2 ⟨_, _, rfl, h, hseparator⟩⟩
    | null hseparator => exact ⟨16, by decide, phrase_nullLine_iff.2 ⟨_, rfl, hseparator, rfl⟩⟩
  · rintro ⟨id, hmem, h⟩
    simp only [List.mem_cons, List.not_mem_nil, or_false] at hmem
    rcases hmem with rfl | rfl
    · obtain ⟨_, _, rfl, h, hseparator⟩ := phrase_fullLine_iff.1 h
      exact .statement h hseparator
    · obtain ⟨_, rfl, hseparator, rfl⟩ := phrase_nullLine_iff.1 h
      exact .null hseparator

theorem Items.repeated {us : List Token} {nodes : List Node} :
    Items us nodes → RepeatedForm (phrase 9) us nodes
  | .nil => .nil
  | .blank hseparator h =>
    RepeatedForm.cons (phrase_item_iff.2 ⟨_, [], rfl, hseparator, .inl ⟨rfl, rfl⟩⟩) h.repeated
  | @Items.statement separator us _ node _ hseparator h hrest => by
    have hitem : phrase 9 (separator :: us) node :=
      phrase_item_iff.2 ⟨separator, us, rfl, hseparator, .inr h⟩
    have hitems := RepeatedForm.cons hitem hrest.repeated
    rwa [h.kept] at hitems

theorem items_of_repeated {us : List Token} {nodes : List Node} (h : RepeatedForm (phrase 9) us nodes) :
    Items us nodes := by
  induction h with
  | nil => exact .nil
  | cons hitem _ ih =>
    obtain ⟨separator, vs, rfl, hseparator, ⟨rfl, rfl⟩ | hstatement⟩ := phrase_item_iff.1 hitem
    · exact .blank hseparator ih
    · rw [hstatement.kept]
      exact .statement hseparator hstatement ih

theorem block_equation : phrase 10 us node ↔ grammar.RuleForm phrase (ruleAt 10) us node := by
  have hopening : ∀ {token}, IsSymbol "\x7b" token ↔ _ := isSymbol_iff rfl rfl (by decide)
  have hclosing : ∀ {token}, IsSymbol "\x7d" token ↔ _ := isSymbol_iff rfl rfl (by decide)
  constructor
  · intro h
    cases h with
    | @blank opening closing us nodes hopen h hclose =>
      have hform : Element.FormOf grammar phrase (ruleAt 10).elements (opening :: (us ++ [closing]))
          (nodes ++ []) :=
        .drop (hopening.1 hopen) (.optional_none (.many h.repeated (.drop (hclosing.1 hclose) .nil)))
      exact ⟨nodes, by simpa using hform, rfl⟩
    | @filled opening closing us vs first nodes hopen h hrest hclose =>
      have hform : Element.FormOf grammar phrase (ruleAt 10).elements
          (opening :: (us ++ (vs ++ [closing]))) (first.kept ++ (nodes ++ [])) :=
        .drop (hopening.1 hopen) (.optional_some h (.many hrest.repeated (.drop (hclosing.1 hclose) .nil)))
      rw [h.kept] at hform
      exact ⟨first :: nodes, by simpa using hform, rfl⟩
  · rintro ⟨nodes, ⟨⟨hopen, hscannable⟩, hfirst, hrest, ⟨hclose, hscannable'⟩, ⟨⟩⟩, hnode⟩
    have hbegin := hopening.2 ⟨hopen, hscannable⟩
    have hend := hclosing.2 ⟨hclose, hscannable'⟩
    have hitems := items_of_repeated hrest
    cases hfirst with
    | none =>
      cases hnode
      have hblock := Block.blank hbegin hitems hend
      show Block _ _
      simpa using hblock
    | some h =>
      rw [Statement.kept h] at hnode
      cases hnode
      have hblock := Block.filled hbegin h hitems hend
      show Block _ _
      simpa using hblock

theorem else_equation : phrase 12 us node ↔ grammar.RuleForm phrase (ruleAt 12) us node := by
  have hword : ∀ {token}, IsWord "else" token ↔ _ :=
    isWord_iff ⟨'e', ['l', 's', 'e'], rfl, rfl, rfl⟩ rfl (by decide)
  constructor
  · rintro ⟨helse, hbody⟩
    exact ⟨[node], .drop (hword.1 helse) (.single (SingleForm.intro hbody)), rfl⟩
  · rintro ⟨nodes, ⟨⟨haccepts, hscannable⟩, ⟨hbody⟩, ⟨⟩⟩, hnode⟩
    cases hnode
    have helse := ElsePart.intro (hword.2 ⟨haccepts, hscannable⟩) hbody
    show ElsePart _ _
    simpa using helse

end Named

section Inhabited

theorem primary_zero :
    Primary [.scanned 0 (.number 0)] (.leaf numberKind (.scanned 0 (.number 0))) :=
  .number 0 ⟨Int.le_refl 0, by decide⟩

theorem expr_zero : Expr [.scanned 0 (.number 0)] (.leaf numberKind (.scanned 0 (.number 0))) :=
  (Factor.primary primary_zero).expr

theorem block_empty :
    Block [.scanned 0 (.operator "\x7b"), .scanned 0 (.operator "\x7d")] (.list blockKind []) :=
  .blank ⟨0, rfl⟩ .nil ⟨0, rfl⟩

theorem isSeparator_semicolon : IsSeparator (.scanned 0 (.operator ";")) :=
  .inl ⟨0, rfl⟩

theorem exists_phrase {id : RuleId} (h : id < 18) : ∃ us node, phrase id us node := by
  interval_cases id
  · exact ⟨_, _, expr_zero⟩
  · exact ⟨_, _, Statement.simple expr_zero⟩
  · exact ⟨_, _, phrase_paren_iff.2 ⟨.scanned 0 (.operator "("), _, .scanned 0 (.operator ")"), rfl,
      ⟨0, rfl⟩, expr_zero, ⟨0, rfl⟩⟩⟩
  · exact ⟨_, _, phrase_number_iff.2 ⟨0, 0, ⟨Int.le_refl 0, by decide⟩, rfl, rfl⟩⟩
  · exact ⟨_, _, phrase_name_iff.2 ⟨0, "x", ⟨'x', [], rfl, rfl, rfl⟩, by decide, rfl, rfl⟩⟩
  · exact ⟨_, _, phrase_string_iff.2 ⟨0, "", rfl, rfl⟩⟩
  · exact ⟨_, _, primary_zero⟩
  · exact ⟨_, _, phrase_negative_iff.2 ⟨.scanned 0 (.operator "-"), _, _, rfl, ⟨0, rfl⟩, primary_zero, rfl⟩⟩
  · exact ⟨_, _, Factor.primary primary_zero⟩
  · exact ⟨_, _, phrase_item_iff.2 ⟨_, _, rfl, isSeparator_semicolon, .inl ⟨rfl, rfl⟩⟩⟩
  · exact ⟨_, _, block_empty⟩
  · exact ⟨_, _, expr_zero⟩
  · exact ⟨_, _, @ElsePart.intro (.scanned 0 (.identifier "else")) _ _ ⟨0, rfl⟩ block_empty⟩
  · exact ⟨_, _, phrase_if_iff.2 ⟨.scanned 0 (.identifier "if"), _, _, _, _, ⟨0, rfl⟩, expr_zero,
      block_empty, .inl ⟨rfl, rfl⟩⟩⟩
  · exact ⟨_, _, phrase_while_iff.2 ⟨.scanned 0 (.identifier "while"), _, _, _, _, ⟨0, rfl⟩, expr_zero,
      block_empty, rfl, rfl⟩⟩
  · exact ⟨_, _, phrase_fullLine_iff.2 ⟨_, _, rfl, .simple expr_zero, isSeparator_semicolon⟩⟩
  · exact ⟨_, _, phrase_nullLine_iff.2 ⟨_, rfl, isSeparator_semicolon, rfl⟩⟩
  · exact ⟨_, _, Program.null isSeparator_semicolon⟩

end Inhabited

theorem describes : grammar.Describes phrase where
  iff {id rule us node} h := by
    obtain ⟨hlt, rfl⟩ := rule_eq_ruleAt h
    interval_cases id
    · exact expr_equation
    · exact statement_equation
    · exact Iff.rfl
    · exact Iff.rfl
    · exact Iff.rfl
    · exact Iff.rfl
    · exact primary_equation
    · exact Iff.rfl
    · exact factor_equation
    · exact Iff.rfl
    · exact block_equation
    · exact (Grammar.ruleForm_tree_iff listNode_primary).symm
    · exact else_equation
    · exact Iff.rfl
    · exact Iff.rfl
    · exact Iff.rfl
    · exact Iff.rfl
    · exact program_equation
  inhabited h := exists_phrase (rule_eq_ruleAt h).1

end Script

end ParseKit
