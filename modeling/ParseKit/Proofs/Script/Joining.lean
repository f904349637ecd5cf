import ParseKit.Proofs.JoinedSource
import ParseKit.Proofs.Script.Program

/-! Programs one after the other. The phrases of the language do not depend on the lines of their
tokens, and no program phrase is a proper beginning of another, so that what a text gives after a
program is what it gives alone, on later lines. Main statement: `Script.parseProgram_append`. -/

namespace ParseKit

section Cancelling

variable {D : List Token → Node → Prop} {us vs ws : List Token} {nodes others : List Node}

theorem Phrases.append (h : Phrases D us nodes) (h' : Phrases D vs others) :
    Phrases D (us ++ vs) (nodes ++ others) := by
  induction h with
  | nil => exact h'
  | cons hphrase _ ih =>
    rw [List.append_assoc, List.cons_append]
    exact .cons hphrase ih

/-- No phrase is a proper beginning of another one, and none is empty. -/
structure PrefixFree (D : List Token → Node → Prop) : Prop where
  eq_nil {us vs : List Token} {node other : Node} (h : D us node) (h' : D (us ++ vs) other) : vs = []
  ne_nil {us : List Token} {node : Node} (h : D us node) : us ≠ []

theorem PrefixFree.cancel (hfree : PrefixFree D) (h : Phrases D us nodes)
    (h' : Phrases D (us ++ ws) others) : ∃ rest, Phrases D ws rest := by
  induction h generalizing others with
  | nil => exact ⟨others, h'⟩
  | @cons us vs node nodes hphrase _ ih =>
    rw [List.append_assoc] at h'
    generalize hwhole : us ++ (vs ++ ws) = whole at h'
    -- both lists begin with a phrase, and neither phrase is a proper beginning of the other
    cases h' with
    | nil => exact absurd (List.append_eq_nil_iff.1 hwhole).1 (hfree.ne_nil hphrase)
    | @cons us' vs' _ _ hphrase' hrest' =>
      obtain ⟨more, rfl, hvs⟩ | ⟨more, rfl, hvs⟩ := List.append_eq_append_iff.1 hwhole
      · obtain rfl := hfree.eq_nil hphrase hphrase'
        obtain rfl : vs ++ ws = vs' := by simpa using hvs
        exact ih hrest'
      · obtain rfl := hfree.eq_nil hphrase' hphrase
        obtain rfl : vs' = vs ++ ws := by simpa using hvs
        exact ih hrest'

theorem PrefixFree.viable_append_iff (hfree : PrefixFree D) (h : Phrases D us nodes) :
    Viable D (us ++ ws) ↔ Viable D ws := by
  constructor
  · rintro ⟨vs, others, hphrases⟩
    rw [List.append_assoc] at hphrases
    obtain ⟨rest, hrest⟩ := hfree.cancel h hphrases
    exact ⟨vs, rest, hrest⟩
  · rintro ⟨vs, others, hphrases⟩
    refine ⟨vs, nodes ++ others, ?_⟩
    rw [List.append_assoc]
    exact h.append hphrases

theorem Verdict.eq_error {fault? : Option LexError} {result : Except ParseError (List Node)}
    {error : ParseError} (h : Verdict D us fault? result) (h' : Verdict D us fault? (.error error)) :
    result = .error error := by
  cases h' with
  | @unexpected vs ws token heq hviable hnot =>
    subst heq
    have htake : (vs ++ token :: ws).take (vs.length + 1) = vs ++ [token] := by simp [List.take_append]
    have hresult := h.eq_unexpected (i := vs.length) (by simp) (by rwa [htake]) fun j hj => by
      rw [List.take_append_of_le_length hj]
      exact hviable.take (j + 1)
    simpa using hresult
  | faulted hviable hfault => exact h.eq_lex hviable hfault
  | incomplete hviable hfault hnot => exact h.eq_incomplete hviable hfault hnot

end Cancelling

/-- A rule whose phrases could not go on with any token has no phrase that is a proper beginning of
another: both are read from the same tape. -/
theorem Grammar.Predictive.prefixFree {g : Grammar} {D : RuleId → List Token → Node → Prop}
    (hg : g.Predictive) (hD : g.Describes D) {id : RuleId} {rule : Rule} (hrule : g.rule id = .ok rule)
    (hends : g.extensions id = []) : PrefixFree (D id) where
  eq_nil {us vs node other} h h' := by
    -- no token goes on with either phrase, so that the same run would have to stop at both ends
    let whole : Tape := ⟨[], (us ++ vs).map .ok⟩
    let here : Tape := ⟨us, vs.map .ok⟩
    let done : Tape := ⟨us ++ vs, []⟩
    have hhalts : (g.parseBounded whole.reach.length id).Halts whole :=
      parseBounded_halts hg.not_leftRecursive (Nat.le_refl _) id
    have hends' : ∀ token : Token, token.isIn (g.extensions id) = false := by simp [hends]
    obtain ⟨next, hnext⟩ : ∃ next, here.next? = some next := by
      cases vs <;> exact ⟨_, rfl⟩
    have hhere : Gives (g.parseBounded whole.reach.length id) whole node here :=
      hg.parseWithin_accepts hD hrule _ _ h ⟨rfl, by simp [whole, here]⟩ hnext (hends' next)
    have hdone : Gives (g.parseBounded whole.reach.length id) whole other done :=
      hg.parseWithin_accepts hD hrule _ _ h' ⟨rfl, by simp [whole, done]⟩ rfl (hends' .endOfInput)
    have heq := (hhere.of_halts hhalts).symm.trans (hdone.of_halts hhalts)
    have hpast : us = us ++ vs := congrArg (fun run => run.2.past) heq
    simpa using hpast
  ne_nil h hnil := by
    obtain ⟨token, vs, hus, _⟩ := hD.begins hg hrule h
    rw [hnil] at hus
    cases hus

namespace OperatorTree

variable (f : Nat → Nat)

def mapLines : OperatorTree → OperatorTree
  | operand node => operand (node.mapLines f)
  | binary left operator right => binary left.mapLines (operator.mapLine f) right.mapLines

theorem first_mapLines (tree : OperatorTree) : (tree.mapLines f).first = tree.first.mapLines f := by
  induction tree with
  | operand => rfl
  | binary left _ _ ih => exact ih

theorem rest_mapLines (tree : OperatorTree) :
    (tree.mapLines f).rest = tree.rest.map fun (operator, node) => (operator.mapLine f, node.mapLines f) := by
  induction tree with
  | operand => rfl
  | binary left operator right ihl ihr => simp [mapLines, rest, ihl, ihr, first_mapLines]

theorem leftSpine_mapLines (tree : OperatorTree) :
    (tree.mapLines f).leftSpine = tree.leftSpine.map (Token.mapLine f) := by
  induction tree with
  | operand => rfl
  | binary left operator _ ih => simp [mapLines, leftSpine, ih]

theorem rightSpine_mapLines (tree : OperatorTree) :
    (tree.mapLines f).rightSpine = tree.rightSpine.map (Token.mapLine f) := by
  induction tree with
  | operand => rfl
  | binary _ operator right _ ih => simp [mapLines, rightSpine, ih]

variable {f} {yields : Token → Token → Prop}
  (hyields : ∀ l o, yields (Token.mapLine f l) (Token.mapLine f o) ↔ yields l o)
include hyields

theorem grouped_mapLines_iff (tree : OperatorTree) :
    (tree.mapLines f).Grouped yields ↔ tree.Grouped yields := by
  induction tree with
  | operand => rfl
  | binary left operator right ihl ihr =>
    simp [mapLines, Grouped, leftSpine_mapLines, rightSpine_mapLines, ihl, ihr, hyields]

theorem Groups.mapLines {first : Node} {rest : List (Token × Node)} {tree : OperatorTree}
    (h : tree.Groups yields first rest) : (tree.mapLines f).Groups yields (first.mapLines f)
      (rest.map fun (operator, node) => (operator.mapLine f, node.mapLines f)) where
  first := by rw [first_mapLines, h.first]
  rest := by rw [rest_mapLines, h.rest]
  grouped := (grouped_mapLines_iff hyields tree).2 h.grouped

end OperatorTree

namespace Script

section Lines

variable {f : Nat → Nat} {token : Token}

theorem IsSymbol.mapLine {symbol : String} : IsSymbol symbol token → IsSymbol symbol (token.mapLine f) := by
  rintro ⟨line, rfl⟩
  exact ⟨f line, rfl⟩

theorem IsWord.mapLine {word : String} : IsWord word token → IsWord word (token.mapLine f) := by
  rintro ⟨line, rfl⟩
  exact ⟨f line, rfl⟩

theorem IsSeparator.mapLine : IsSeparator token → IsSeparator (token.mapLine f) := by
  rintro (h | ⟨line, rfl⟩)
  · exact .inl h.mapLine
  · exact .inr ⟨f line, rfl⟩

theorem IsOperator.mapLine : IsOperator token → IsOperator (token.mapLine f) := by
  rintro ⟨symbol, precedence, h, hget⟩
  exact ⟨symbol, precedence, h.mapLine, hget⟩

theorem precedence?_mapLine (token : Token) :
    operators.precedence? (token.mapLine f) = operators.precedence? token := by
  rcases token with ⟨_, _ | _ | _ | _ | _⟩ | _ <;> rfl

theorem yields_mapLine (l o : Token) :
    operators.Yields (l.mapLine f) (o.mapLine f) ↔ operators.Yields l o := by
  simp only [Operators.Yields, precedence?_mapLine]

theorem treeNode_mapLines (tree : OperatorTree) : treeNode (tree.mapLines f) = (treeNode tree).mapLines f := by
  induction tree with
  | operand => rfl
  | binary left operator right ihl ihr => simp [OperatorTree.mapLines, treeNode, ihl, ihr]

mutual

theorem Primary.mapLines {us : List Token} {node : Node} :
    Primary us node → Primary (us.map (Token.mapLine f)) (node.mapLines f)
  | .paren hopening h hclosing => by
    simpa using Primary.paren hopening.mapLine h.mapLines hclosing.mapLine
  | .number line h => by simpa using Primary.number (f line) h
  | .name line h hreserved => by simpa using Primary.name (f line) h hreserved
  | .string line text => by simpa using Primary.string (f line) text

theorem Factor.mapLines {us : List Token} {node : Node} :
    Factor us node → Factor (us.map (Token.mapLine f)) (node.mapLines f)
  | .negative hminus h => by simpa using Factor.negative hminus.mapLine h.mapLines
  | .primary h => .primary h.mapLines

theorem Chain.mapLines {us : List Token} {first : Node} {rest : List (Token × Node)} :
    Chain us first rest → Chain (us.map (Token.mapLine f)) (first.mapLines f)
      (rest.map fun (operator, node) => (operator.mapLine f, node.mapLines f))
  | .factor h => .factor h.mapLines
  | .operator h hoperator hrest => by
    simpa using Chain.operator h.mapLines hoperator.mapLine hrest.mapLines

theorem Expr.mapLines {us : List Token} {node : Node} :
    Expr us node → Expr (us.map (Token.mapLine f)) (node.mapLines f)
  | .grouped h hgroups => by
    rw [← treeNode_mapLines]
    exact .grouped h.mapLines (hgroups.mapLines yields_mapLine)

end

mutual

theorem Block.mapLines {us : List Token} {node : Node} :
    Block us node → Block (us.map (Token.mapLine f)) (node.mapLines f)
  | .blank hopening h hclosing => by
    simpa using Block.blank hopening.mapLine h.mapLines hclosing.mapLine
  | .filled hopening h hrest hclosing => by
    simpa using Block.filled hopening.mapLine h.mapLines hrest.mapLines hclosing.mapLine

theorem Items.mapLines {us : List Token} {nodes : List Node} :
    Items us nodes → Items (us.map (Token.mapLine f)) (nodes.map (Node.mapLines f))
  | .nil => .nil
  | .blank hseparator h => .blank hseparator.mapLine h.mapLines
  | .statement hseparator h hrest => by
    simpa using Items.statement hseparator.mapLine h.mapLines hrest.mapLines

theorem Statement.mapLines {us : List Token} {node : Node} :
    Statement us node → Statement (us.map (Token.mapLine f)) (node.mapLines f)
  | .ifThen hword hcondition hbody => by
    simpa using Statement.ifThen hword.mapLine hcondition.mapLines hbody.mapLines
  | .ifElse hword hcondition hbody hother hotherwise => by
    simpa using Statement.ifElse hword.mapLine hcondition.mapLines hbody.mapLines hother.mapLine
      hotherwise.mapLines
  | .whileLoop hword hcondition hbody => by
    simpa using Statement.whileLoop hword.mapLine hcondition.mapLines hbody.mapLines
  | .simple h => .simple h.mapLines

end

theorem Program.mapLines {us : List Token} {node : Node} (h : Program us node) :
    Program (us.map (Token.mapLine f)) (node.mapLines f) := by
  cases h with
  | statement h hseparator => simpa using Program.statement h.mapLines hseparator.mapLine
  | null hseparator => simpa using Program.null hseparator.mapLine

theorem phrases_mapLines {us : List Token} {nodes : List Node} (h : Phrases Program us nodes) :
    Phrases Program (us.map (Token.mapLine f)) (nodes.map (Node.mapLines f)) := by
  induction h with
  | nil => exact .nil
  | cons hphrase _ ih =>
    rw [List.map_append, List.map_cons]
    exact .cons hphrase.mapLines ih

theorem map_later_back (n : Nat) (us : List Token) :
    (us.map (Token.mapLine (· + n))).map (Token.mapLine (· - n)) = us := by
  rw [List.map_map, List.map_congr_left fun token _ => ?_, List.map_id]
  exact Token.mapLine_mapLine (fun line => Nat.add_sub_cancel line n) token

end Lines

theorem extensions_program : grammar.extensions 17 = [] := by decide

theorem prefixFree_program : PrefixFree Program :=
  predictive.prefixFree describes rule_program extensions_program

section Later

variable {us vs : List Token} {nodes : List Node} {n : Nat}

theorem exists_phrases_of_later {others : List Node}
    (h : Phrases Program (vs.map (Token.mapLine (· + n))) others) : ∃ rest, Phrases Program vs rest := by
  have hback := phrases_mapLines (f := (· - n)) h
  rw [map_later_back] at hback
  exact ⟨_, hback⟩

theorem viable_later_iff : Viable Program (vs.map (Token.mapLine (· + n))) ↔ Viable Program vs := by
  constructor
  · rintro ⟨ws, others, hphrases⟩
    have hback := phrases_mapLines (f := (· - n)) hphrases
    rw [List.map_append, map_later_back] at hback
    exact ⟨_, _, hback⟩
  · rintro ⟨ws, others, hphrases⟩
    have hlater := phrases_mapLines (f := (· + n)) hphrases
    rw [List.map_append] at hlater
    exact ⟨_, _, hlater⟩

def joined (nodes : List Node) (n : Nat) : Except ParseError (List Node) → Except ParseError (List Node)
  | .ok others => .ok (nodes ++ others.map (Node.mapLines (· + n)))
  | .error error => .error (error.mapLine (· + n))

/-- After a program the verdict is the same, on later lines. -/
theorem verdict_joined (h : Phrases Program us nodes) {fault? : Option LexError}
    {result : Except ParseError (List Node)} (hresult : Verdict Program vs fault? result) :
    Verdict Program (us ++ vs.map (Token.mapLine (· + n))) (fault?.map (LexError.mapLine (· + n)))
      (joined nodes n result) := by
  -- what goes on with a program is decided behind the first one, and there the lines do not matter
  have hviable_iff : ∀ ws, Viable Program (us ++ ws.map (Token.mapLine (· + n))) ↔ Viable Program ws :=
    fun ws => (prefixFree_program.viable_append_iff h).trans viable_later_iff
  cases hresult with
  | accepted hphrases hfault =>
    exact .accepted (h.append (phrases_mapLines hphrases)) (by rw [hfault]; rfl)
  | @unexpected before after token heq hviable hnot =>
    have hcut : us ++ vs.map (Token.mapLine (· + n)) = (us ++ before.map (Token.mapLine (· + n))) ++
        token.mapLine (· + n) :: after.map (Token.mapLine (· + n)) := by
      simp [heq]
    have hoffends : ¬ Viable Program ((us ++ before.map (Token.mapLine (· + n))) ++
        [token.mapLine (· + n)]) := by
      simpa using mt (hviable_iff (before ++ [token])).1 hnot
    exact .unexpected hcut ((hviable_iff before).2 hviable) hoffends
  | faulted hviable hfault => exact .faulted ((hviable_iff _).2 hviable) (by rw [hfault]; rfl)
  | incomplete hviable hfault hnot =>
    refine .incomplete ((hviable_iff _).2 hviable) (by rw [hfault]; rfl) fun others hphrases => ?_
    obtain ⟨rest, hrest⟩ := prefixFree_program.cancel h hphrases
    obtain ⟨_, hphrases⟩ := exists_phrases_of_later hrest
    exact hnot _ hphrases

end Later

section Append

variable {options : LexerOptions} {nodes : List Node}

/-- Lines after those of a program give what they give alone, on later lines. -/
theorem parseProgram_append_source {first : Source} (h : parseProgram first options = .ok nodes)
    (second : Source) : parseProgram (first ++ second) options =
      joined nodes first.length (parseProgram second options) := by
  obtain ⟨hfault, hphrases⟩ := (parseProgram_eq_ok_iff first options).1 h
  have hverdict := verdict_joined (n := first.length) hphrases (parseProgram_verdict second options)
  rw [← Source.tokens_append hfault, ← Source.fault?_append hfault] at hverdict
  cases hresult : joined nodes first.length (parseProgram second options) with
  | error error =>
    rw [hresult] at hverdict
    exact (parseProgram_verdict (first ++ second) options).eq_error hverdict
  | ok others =>
    rw [hresult] at hverdict
    cases hverdict with
    | accepted hphrases hnone => exact (parseProgram_eq_ok_iff _ _).2 ⟨hnone, hphrases⟩

/-- Parsing takes texts one after the other to nodes one after the other. If the first text ends its
last line and is a program, then a second text gives its own nodes after those of the first one or
fails with its own error, on lines that come later by as many as the first text has. -/
theorem parseProgram_append {first : String} (hended : first = "" ∨ first.toList.getLast? = some '\n')
    (h : parseProgram (.ofString first) options = .ok nodes) (second : String) :
    let later := (· + first.toList.count '\n')
    (∀ others, parseProgram (.ofString second) options = .ok others →
      parseProgram (.ofString (first ++ second)) options = .ok (nodes ++ others.map (Node.mapLines later))) ∧
    ∀ error, parseProgram (.ofString second) options = .error error →
      parseProgram (.ofString (first ++ second)) options = .error (error.mapLine later) := by
  have happend := parseProgram_append_source h (.ofString second)
  rw [← Source.ofString_append hended, Source.length_ofString hended] at happend
  refine ⟨fun others hothers => ?_, fun error herror => ?_⟩
  · rw [happend, hothers]
    rfl
  · rw [happend, herror]
    rfl

/-- A name after a name, and a character after it that begins no token. -/
theorem parseProgram_append_names :
    parseProgram (.ofString ("x\n" ++ "x")) {} =
        .ok [.leaf nameKind (.scanned 1 (.identifier "x")), .leaf nameKind (.scanned 2 (.identifier "x"))] ∧
      parseProgram (.ofString ("x\n" ++ "\x60")) {} = .error (.lex ⟨2, .scan (.badToken 1 "\x60")⟩) := by
  have hname : Phrases Program [.scanned 1 (.identifier "x"), .scanned 1 .endOfLine]
      [.leaf nameKind (.scanned 1 (.identifier "x"))] :=
    .cons (Program.statement (.simple (@Expr.grouped _ _ [] (.operand _)
      (.factor (.primary (.name 1 ⟨'x', [], rfl, rfl, rfl⟩ (by decide)))) ⟨rfl, rfl, trivial⟩))
      (.inr ⟨1, rfl⟩)) .nil
  have hended : Source.tokens {} (.ofString "x\n") = [.scanned 1 (.identifier "x"), .scanned 1 .endOfLine] := by
    cbv
  have hopen : Source.tokens {} (.ofString "x") = [.scanned 1 (.identifier "x"), .scanned 1 .endOfLine] := by
    cbv
  have hfirst := (parseProgram_eq_ok_iff (.ofString "x\n") {}).2 ⟨by cbv, hended ▸ hname⟩
  have hsecond := (parseProgram_eq_ok_iff (.ofString "x") {}).2 ⟨by cbv, hopen ▸ hname⟩
  have hnone : Source.tokens {} (.ofString "\x60") = [] := by cbv
  have hviable : Viable Program (Source.tokens {} (.ofString "\x60")) := by
    rw [hnone]
    exact Phrases.nil.viable
  have hfault : (Source.ofString "\x60").fault? = some ⟨1, .scan (.badToken 1 "\x60")⟩ := by cbv
  have hsecondFault := (parseProgram_verdict (.ofString "\x60") {}).eq_lex hviable hfault
  exact ⟨(parseProgram_append (.inr rfl) hfirst "x").1 _ hsecond,
    (parseProgram_append (.inr rfl) hfirst "\x60").2 _ hsecondFault⟩

end Append

end Script

end ParseKit
