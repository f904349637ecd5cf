import ParseKit.Proofs.LeftRecursion
import ParseKit.Proofs.Reading

/-! What the elements of a rule read, from what the rules they refer to read. The alternatives of a
choice are assumed to exclude each other by their next token, and the rules to take a token when they
succeed. Main statements: `Grammar.parseChoice_reads`, `Grammar.parseRepeated_reads` and
`Grammar.expression_reads`. -/

namespace ParseKit

def Node.kept (node : Node) : List Node :=
  if node.isGenericEmpty then [] else [node]

section Forms

variable (D : List Token → Node → Prop)

inductive NoForm : List Token → List Node → Prop
  | intro : NoForm [] []

inductive DroppedForm (what : TokenClass) : List Token → List Node → Prop
  | intro {token : Token} (haccepts : what.accepts token = true) (hscannable : token.Scannable) :
    DroppedForm what [token] []

inductive KeptForm (g : Grammar) (what : TokenClass) (kind : NodeKind) :
    List Token → List Node → Prop
  | intro {token : Token} {node : Node} (haccepts : what.accepts token = true)
    (hscannable : token.Scannable) (hnode : g.tokenNode kind token = .ok node) :
    KeptForm g what kind [token] [node]

inductive SequenceForm (E F : List Token → List Node → Prop) : List Token → List Node → Prop
  | intro {us vs : List Token} {ms ns : List Node} (hfirst : E us ms) (hrest : F vs ns) :
    SequenceForm E F (us ++ vs) (ms ++ ns)

inductive SingleForm : List Token → List Node → Prop
  | intro {us : List Token} {node : Node} (h : D us node) : SingleForm us [node]

inductive OptionalForm : List Token → List Node → Prop
  | none : OptionalForm [] []
  | some {us : List Token} {node : Node} (h : D us node) : OptionalForm us node.kept

inductive RepeatedForm : List Token → List Node → Prop
  | nil : RepeatedForm [] []
  | cons {us vs : List Token} {node : Node} {nodes : List Node} (h : D us node)
    (hrest : RepeatedForm vs nodes) : RepeatedForm (us ++ vs) (node.kept ++ nodes)

/-- A phrase of a rule, or the node that the rule builds from no children. -/
inductive OrEmptyForm (g : Grammar) (id : RuleId) : List Token → List Node → Prop
  | phrase {us : List Token} {node : Node} (h : D us node) : OrEmptyForm g id us [node]
  | empty {rule : Rule} {node : Node} (hrule : g.rule id = .ok rule)
    (hnode : g.listNode rule.kind [] = .ok node) : OrEmptyForm g id [] [node]

inductive OperandsForm (operators : Operators) : List Token → List (Token × Node) → Prop
  | nil : OperandsForm operators [] []
  | cons {operator : Token} {us vs : List Token} {node : Node} {rest : List (Token × Node)}
    (hnames : operators.Names operator) (hscannable : operator.Scannable) (h : D us node)
    (hrest : OperandsForm operators vs rest) :
    OperandsForm operators (operator :: us ++ vs) ((operator, node) :: rest)

/-- An operand and the operands after it, and the node of the tree that groups them. -/
inductive ExpressionForm (g : Grammar) (kind : NodeKind) (operators : Operators) :
    List Token → Node → Prop
  | intro {us vs : List Token} {first node : Node} {rest : List (Token × Node)} {tree : OperatorTree}
    (hfirst : D us first) (hrest : OperandsForm D operators vs rest)
    (hgroups : tree.Groups operators.Yields first rest) (hbuild : tree.build g kind = .ok node) :
    ExpressionForm g kind operators (us ++ vs) node

variable {D}

theorem OperandsForm.append {operators : Operators} {us vs : List Token}
    {rest rest' : List (Token × Node)} (h : OperandsForm D operators us rest)
    (h' : OperandsForm D operators vs rest') : OperandsForm D operators (us ++ vs) (rest ++ rest') := by
  induction h with
  | nil => exact h'
  | cons hnames hscannable h _ ih => simpa using OperandsForm.cons hnames hscannable h ih

end Forms

namespace Peeks

theorem accepts (what : TokenClass) :
    Peeks (return what.accepts (← ParseM.peek 0)) what.accepts where
  next h := by rw [ParseM.bind_of_ok (ParseM.peek_of_next? h)]; rfl
  fault {tape fault rest} h := by
    obtain ⟨past, ahead⟩ := tape
    cases h
    rfl

theorem anyM {f : RuleId → ParseM Tape Bool} {accepts : RuleId → Token → Bool} {ids : List RuleId}
    (hf : ∀ id ∈ ids, Peeks (f id) (accepts id)) (hne : ids ≠ []) :
    Peeks (ids.anyM f) (fun token => ids.any (accepts · token)) where
  next {tape token} h := by
    induction ids with
    | nil => exact absurd rfl hne
    | cons id ids ih =>
      obtain ⟨hid, hids⟩ := List.forall_mem_cons.1 hf
      rw [List.anyM, ParseM.bind_of_ok (hid.next h)]
      cases haccepts : accepts id token with
      | true => simp [haccepts]
      | false =>
        rcases ids with _ | ⟨other, ids⟩
        · simp [haccepts]
        · simpa [haccepts] using ih hids (by simp)
  fault h := by
    rcases ids with _ | ⟨id, ids⟩
    · exact absurd rfl hne
    · exact ParseM.bind_fails ((hf id (by simp)).fault h)

end Peeks

namespace Grammar

variable {g : Grammar} {run : Runner Tape}

section Choice

variable {N : RuleId → Prop} (hwalks : ∀ id, ParseM.Walks (N id) (run.parse id))
include hwalks

/-- When only one alternative could start, the choice ends as this alternative does. -/
theorem parseChoice_follows {last? : Option ParseError} {id : RuleId} {ids : List RuleId} {tape : Tape}
    (hyes : g.starts id tape = (.ok true, tape))
    (hno : ∀ other ∈ ids, g.starts other tape = (.ok false, tape)) :
    Follows (g.parseChoice run last? (id :: ids)) (run.parse id) tape where
  ok a tape' h := by rw [g.parseChoice_of_starts hwalks hyes, h]
  error error h := by
    rw [g.parseChoice_of_starts hwalks hyes]
    rcases hparse : run.parse id tape with ⟨e | node, tape'⟩
    · rw [hparse] at h
      cases h
      dsimp only
      split
      · rw [parseChoice_of_starts_eq_false hno]
        rfl
      · rfl
    · rw [hparse] at h
      cases h

theorem parseChoice_reads {D : List Token → Node → Prop} {accepts : RuleId → Token → Bool}
    {ids : List RuleId} (hguards : ∀ id ∈ ids, Peeks (g.starts id) (accepts id))
    (hdisjoint : ids.Pairwise fun a b =>
      ∀ token : Token, token.Scannable → accepts a token = true → accepts b token = false)
    (hreads : ∀ id ∈ ids, Reads D (run.parse id)) (hinhabited : ∃ us node, D us node) :
    Reads D (g.parseChoice run none ids) := by
  induction ids with
  | nil =>
    refine ⟨hinhabited, fun tape hclean => ?_⟩
    rcases hnext : tape.next? with _ | token
    · obtain ⟨fault, rest, hahead⟩ := Tape.next?_eq_none_iff.1 hnext
      refine .of_fault hahead hinhabited (ParseM.bind_fails ?_)
      obtain ⟨past, ahead⟩ := tape
      cases hahead
      rfl
    · refine .stuck [] token tape (.refl tape) hnext hinhabited fun other other' hother hnext' => ?_
      obtain rfl := hother.eq_of_nil
      rw [parseChoice, ParseM.unexpected, ParseM.bind_of_ok (ParseM.peek_of_next? hnext')]
      rfl
  | cons id ids ih =>
    obtain ⟨hguard, hguards⟩ := List.forall_mem_cons.1 hguards
    obtain ⟨hfirst, hdisjoint⟩ := List.pairwise_cons.1 hdisjoint
    obtain ⟨hread, hreads⟩ := List.forall_mem_cons.1 hreads
    refine ⟨hinhabited, fun tape hclean => ?_⟩
    rcases hnext : tape.next? with _ | token
    · obtain ⟨fault, rest, hahead⟩ := Tape.next?_eq_none_iff.1 hnext
      exact .of_fault hahead hinhabited (ParseM.bind_fails (hguard.fault hahead))
    · cases haccepts : accepts id token with
      | true =>
        refine (hread.outcome tape hclean).follow fun other hother => ?_
        have hnext' := hother.trans hnext
        refine parseChoice_follows hwalks (haccepts ▸ hguard.next hnext') fun id' hmem => ?_
        rw [(hguards id' hmem).next hnext', hfirst id' hmem token (hclean.next hnext) haccepts]
      | false =>
        refine ((ih hguards hdisjoint hreads).outcome tape hclean).follow fun other hother => .of_eq ?_
        rw [parseChoice, ParseM.bind_of_ok (hguard.next (hother.trans hnext)), haccepts]
        rfl

end Choice

section Repeated

/-- A rule that takes a token whenever it succeeds is repeated until it could not start. -/
theorem parseRepeated_succ {id : RuleId} (hmoves : ParseM.Walks False (run.parse id)) (once : Bool)
    (bound : Nat) : g.parseRepeated run id once (bound + 1) =
      g.starts id >>= fun b => if b then run.parse id >>= fun node =>
        if once then pure node.kept
        else g.parseRepeated run id once bound >>= fun nodes => pure (node.kept ++ nodes)
      else pure [] := by
  rw [parseRepeated]
  refine congrArg (g.starts id >>= ·) (funext fun b => ?_)
  cases b with
  | false => rfl
  | true =>
    simp only [↓reduceIte]
    funext tape
    rw [ParseM.bind_of_ok (ParseM.run_cursor tape)]
    rcases hparse : run.parse id tape with ⟨error | node, tape'⟩
    · rw [ParseM.bind_of_error hparse, ParseM.bind_of_error hparse]
    · rw [ParseM.bind_of_ok hparse, ParseM.bind_of_ok hparse,
        ParseM.bind_of_ok (ParseM.run_cursor tape'), hmoves.cursor_ne hparse, Bool.or_false]
      rfl

variable {D : List Token → Node → Prop} {id : RuleId} {accepts : Token → Bool}
  (hmoves : ParseM.Walks False (run.parse id)) (hguard : Peeks (g.starts id) accepts)
  (hreads : Reads D (run.parse id))
include hmoves hguard hreads

theorem optional_reads : Reads (OptionalForm D) (g.parseElement run (.repeated id true)) := by
  rw [parseElement, parseRepeated_succ hmoves]
  have hinhabited : ∃ us nodes, OptionalForm D us nodes := ⟨[], [], .none⟩
  refine Reads.guard hguard hinhabited ?_ ?_
  · intro tape token hclean _ _
    refine (hreads.bind fun node => Reads.pure node.kept).outcome tape hclean |>.mono ?_
    rintro ws nodes ⟨us, vs, node, rfl, hD, rfl, rfl⟩
    rw [List.append_nil]
    exact .some hD
  · intro tape token hclean _ _
    refine (Reads.pure []).outcome tape hclean |>.mono ?_
    rintro us nodes ⟨rfl, rfl⟩
    exact .none

theorem parseRepeated_reads (bound : Nat) :
    Reads (RepeatedForm D) (g.parseRepeated run id false bound) := by
  have hinhabited : ∃ us nodes, RepeatedForm D us nodes := ⟨[], [], .nil⟩
  induction bound with
  | zero => exact Reads.exhausted hinhabited
  | succ bound ih =>
    rw [parseRepeated_succ hmoves]
    refine Reads.guard hguard hinhabited ?_ ?_
    · intro tape token hclean _ _
      refine (hreads.bind fun node => ih.bind fun nodes =>
        Reads.pure (node.kept ++ nodes)).outcome tape hclean |>.mono ?_
      rintro ws nodes ⟨us, _, node, rfl, hD, vs, _, others, rfl, hothers, rfl, rfl⟩
      rw [List.append_nil]
      exact .cons hD hothers
    · intro tape token hclean _ _
      refine (Reads.pure []).outcome tape hclean |>.mono ?_
      rintro us nodes ⟨rfl, rfl⟩
      exact .nil

end Repeated

section Expression

variable {kind : NodeKind} {operators : Operators}

/-- Every operator becomes a leaf, and nodes can be built for them with their operands. -/
structure BuildsOperators (g : Grammar) (kind : NodeKind) : Prop where
  leaf : ∀ token, ∃ node, g.tokenNode .leaf token = .ok node
  list : ∀ children, ∃ node, g.listNode kind children = .ok node

theorem BuildsOperators.build (h : g.BuildsOperators kind) (tree : OperatorTree) :
    ∃ node, tree.build g kind = .ok node := by
  induction tree with
  | operand node => exact ⟨node, rfl⟩
  | binary left operator right ihleft ihright =>
    obtain ⟨leftNode, hleft⟩ := ihleft
    obtain ⟨rightNode, hright⟩ := ihright
    obtain ⟨leaf, hleaf⟩ := h.leaf operator
    obtain ⟨node, hnode⟩ := h.list [leftNode, leaf, rightNode]
    refine ⟨node, ?_⟩
    simp only [OperatorTree.build, hleft, hright, hleaf]
    exact hnode

theorem parseOperators_shift {factor : RuleId} {outer? : Option Precedence} {left opNode : Node}
    {bound : Nat} {token : Token} {p : Precedence} (hp : operators.precedence? token = some p)
    (hadmitted : outer?.all (·.yieldsTo p) = true) (hop : g.tokenNode .leaf token = .ok opNode)
    {tape tape' : Tape} (hleads : tape.Leads [token] tape') :
    g.parseOperators run kind factor operators outer? left (bound + 1) tape =
      (run.parse factor >>= fun operand =>
        g.parseOperators run kind factor operators (some p) operand bound >>= fun right =>
        g.makeList kind [left, opNode, right] >>= fun node =>
        g.parseOperators run kind factor operators outer? node bound) tape' := by
  have hnext : nextOperator operators tape = (.ok (some p), tape) := by
    rw [nextOperator, ParseM.bind_of_ok (ParseM.peek_of_next? hleads.next?), ← hp]
    rfl
  have hread : ParseM.read tape = (.ok token, tape') := by
    rw [ParseM.run_read, hleads.read]
    rfl
  rw [tokenNode] at hop
  cases hleaf : g.tokenFactory .leaf with
  | error error =>
    rw [hleaf] at hop
    cases hop
  | ok leaf =>
    rw [hleaf] at hop
    have hofExcept : (ofExcept (leaf.ofToken token) : ParseM Tape Node) tape' = (.ok opNode, tape') := by
      rw [ParseM.run_ofExcept]
      exact Prod.ext hop rfl
    rw [parseOperators, ParseM.bind_of_ok hnext]
    simp only [hadmitted, ↓reduceIte, hleaf, ParseM.ofGrammar_ok_bind]
    rw [ParseM.bind_of_ok hread, ParseM.bind_of_ok hofExcept]

theorem parseOperators_stop {factor : RuleId} {outer? : Option Precedence} {left : Node} {bound : Nat}
    {token : Token} (hstop : ∀ p, operators.precedence? token = some p →
      outer?.all (·.yieldsTo p) = false) {tape : Tape} (hnext : tape.next? = some token) :
    g.parseOperators run kind factor operators outer? left (bound + 1) tape = (.ok left, tape) := by
  have hoperator : nextOperator operators tape = (.ok (operators.precedence? token), tape) := by
    rw [nextOperator, ParseM.bind_of_ok (ParseM.peek_of_next? hnext)]
    rfl
  rw [parseOperators, ParseM.bind_of_ok hoperator]
  cases hp : operators.precedence? token with
  | none => rfl
  | some p =>
    simp only [hstop p hp]
    rfl

variable {D : List Token → Node → Prop} {factor : RuleId} (hfactor : Reads D (run.parse factor))
  (hbuilds : g.BuildsOperators kind)
include hfactor hbuilds

theorem parseOperators_reads (outer? : Option Precedence) (left : Node) (bound : Nat) :
    Reads (fun us _ => ∃ rest, OperandsForm D operators us rest)
      (g.parseOperators run kind factor operators outer? left bound) := by
  have hinhabited : ∃ us, ∃ _ : Node, ∃ rest, OperandsForm D operators us rest :=
    ⟨[], left, [], .nil⟩
  induction bound generalizing outer? left with
  | zero => exact Reads.exhausted hinhabited
  | succ bound ih =>
    refine ⟨hinhabited, fun tape hclean => ?_⟩
    rcases hnext : tape.next? with _ | token
    · obtain ⟨fault, rest, hahead⟩ := Tape.next?_eq_none_iff.1 hnext
      refine .of_fault hahead hinhabited (ParseM.bind_fails ?_)
      obtain ⟨past, ahead⟩ := tape
      cases hahead
      rfl
    by_cases hstop : ∀ p, operators.precedence? token = some p → outer?.all (·.yieldsTo p) = false
    · refine .took [] left tape (.refl tape) ⟨[], .nil⟩ fun other other' hother hnext' => ?_
      obtain rfl := hother.eq_of_nil
      exact parseOperators_stop hstop (hnext'.trans hnext)
    · push Not at hstop
      obtain ⟨p, hp, hadmitted⟩ := hstop
      have hadmitted : outer?.all (·.yieldsTo p) = true := by simpa using hadmitted
      have hne : token ≠ .endOfInput := by
        rintro rfl
        cases hp
      obtain ⟨opNode, hop⟩ := hbuilds.leaf token
      obtain ⟨tape₁, hleads⟩ := Tape.leads_of_next? hnext hne
      have hread : Outcome (fun us next => us = [token] ∧ next = token) ParseM.read tape :=
        .took [token] token tape₁ hleads ⟨rfl, rfl⟩ fun other other' hother _ => by
          rw [ParseM.run_read, hother.read]
          rfl
      have hrest := hfactor.bind fun operand => (ih (some p) operand).bind fun right =>
        (Reads.of_result (run_makeList g kind · _) (hbuilds.list [left, opNode, right])).bind
          fun node => ih outer? node
      have hseq := hread.bind (fun _ _ tape' hleads' _ => hrest.outcome tape' (hclean.leads hleads'))
        fun _ _ _ => hrest.inhabited
      refine (hseq.follow fun other hother => .of_eq ?_).mono ?_
      · obtain ⟨other₁, hother₁⟩ := Tape.leads_of_next? (hother.trans hnext) hne
        have hread₁ : ParseM.read other = (.ok token, other₁) := by
          rw [ParseM.run_read, hother₁.read]
          rfl
        rw [ParseM.bind_of_ok hread₁]
        exact parseOperators_shift hp hadmitted hop hother₁
      · rintro ws node ⟨_, _, _, rfl, ⟨rfl, rfl⟩, us, _, operand, rfl, hD, vs, _, right, rfl,
          ⟨rest₁, hrest₁⟩, _, xs, _, rfl, ⟨rfl, _⟩, rest₂, hrest₂⟩
        have hform := OperandsForm.cons (Operators.names_iff.2 ⟨p, hp⟩) (hclean.next hnext) hD
          (hrest₁.append hrest₂)
        exact ⟨_, by simpa using hform⟩

omit hbuilds in
/-- Operands that were taken from a clean tape meet the form of the factors. -/
theorem operandsForm_of_operands {tape tape' : Tape} {us : List Token} {rest : List (Token × Node)}
    (h : Operands Tape.Leads (run.parse factor) operators tape us rest tape') (hclean : tape.Clean) :
    OperandsForm D operators us rest := by
  induction h with
  | nil => exact .nil
  | cons hnames hread hparse htakes _ ih =>
    obtain ⟨hnext, hleads⟩ := Operands.read_names hnames hread
    have hclean₁ := hclean.leads hleads
    exact .cons hnames (hclean.next hnext) (hfactor.of_ok hclean₁ hparse htakes) (ih (hclean₁.leads htakes))

/-- An expression reads factors joined by operators, and gives the node of their grouped tree. -/
theorem expression_reads (hmoves : ParseM.Walks False (run.parse factor)) :
    Reads (ExpressionForm D g kind operators) (run.parse factor >>= fun left =>
      g.parseOperators run kind factor operators none left (run.bound + 1)) := by
  have hoperators : ∀ left, Reads (fun us _ => ∃ rest, OperandsForm D operators us rest)
      (g.parseOperators run kind factor operators none left (run.bound + 1)) :=
    fun left => parseOperators_reads hfactor hbuilds none left (run.bound + 1)
  have hcoarse := hfactor.bind hoperators
  have hviable : ∀ us first vs rest, D us first → OperandsForm D operators vs rest →
      ∃ node, ExpressionForm D g kind operators (us ++ vs) node := by
    intro us first vs rest hfirst hrest
    obtain ⟨tree, hgroups⟩ := OperatorTree.exists_groups operators.Yields first rest
    obtain ⟨node, hbuild⟩ := hbuilds.build tree
    exact ⟨node, .intro hfirst hrest hgroups hbuild⟩
  refine ⟨?_, fun tape hclean => (hcoarse.outcome tape hclean).refine_form ?_ ?_⟩
  · obtain ⟨us, first, hfirst⟩ := hfactor.inhabited
    obtain ⟨node, hnode⟩ := hviable us first [] [] hfirst .nil
    exact ⟨_, node, hnode⟩
  · rintro ws _ ⟨us, vs, first, rfl, hfirst, rest, hrest⟩
    exact hviable us first vs rest hfirst hrest
  · intro ws node tape' hparse hleads _
    obtain ⟨first, tape₁, hfirst, hoperators⟩ := ParseM.bind_eq_ok.1 hparse
    obtain ⟨us, hleads₁, _⟩ := hmoves.leads_of_ok hfirst
    have hrun : ∀ tape node tape', run.parse factor tape = (.ok node, tape') →
        ∃ us, tape.Leads us tape' :=
      fun _ _ _ h => let ⟨us, hleads, _⟩ := hmoves.leads_of_ok h; ⟨us, hleads⟩
    obtain ⟨vs, rest, tree, hoperands, hbuild, hgroups, _⟩ := groups_of_parseOperators hrun hoperators
    obtain rfl := hleads.unique (hleads₁.trans hoperands.leads)
    exact .intro (hfactor.of_ok hclean hfirst hleads₁)
      (operandsForm_of_operands hfactor hoperands (hclean.leads hleads₁)) hgroups hbuild

end Expression

section Elements

theorem drop_reads {what : TokenClass} (h : ∃ token, what.accepts token = true ∧ token.Scannable) :
    Reads (DroppedForm what) (g.parseElement run (.drop what)) := by
  refine ((Reads.take h).bind fun _ => Reads.pure []).mono ?_
  rintro ws nodes ⟨us, vs, token, rfl, ⟨rfl, haccepts, hscannable⟩, rfl, rfl⟩
  exact .intro haccepts hscannable

theorem keep_reads {what : TokenClass} {kind : NodeKind}
    (h : ∃ token, what.accepts token = true ∧ token.Scannable)
    (hbuilds : ∀ token, ∃ node, g.tokenNode kind token = .ok node) :
    Reads (KeptForm g what kind) (g.parseElement run (.keep what kind)) := by
  have hmake := fun token => Reads.of_result (run_makeToken g kind · token) (hbuilds token)
  refine ((Reads.take h).bind fun token => (hmake token).bind fun node => Reads.pure [node]).mono ?_
  rintro ws nodes ⟨us, _, token, rfl, ⟨rfl, haccepts, hscannable⟩, _, _, node, rfl, ⟨rfl, hnode⟩,
    rfl, rfl⟩
  exact .intro haccepts hscannable hnode

variable {D : List Token → Node → Prop}

theorem single_reads {p : ParseM Tape Node} (h : Reads D p) :
    Reads (SingleForm D) (p >>= fun node => pure [node]) := by
  refine (h.bind fun node => Reads.pure [node]).mono ?_
  rintro ws nodes ⟨us, vs, node, rfl, hD, rfl, rfl⟩
  rw [List.append_nil]
  exact .intro hD

theorem orEmpty_reads {id : RuleId} {rule : Rule} (hrule : g.rule id = .ok rule)
    {accepts : Token → Bool} (hguard : Peeks (g.starts id) accepts) (hreads : Reads D (run.parse id))
    (hbuilds : ∃ node, g.listNode rule.kind [] = .ok node) :
    Reads (OrEmptyForm D g id) (g.parseElement run (.orEmpty id)) := by
  have hmake := Reads.of_result (run_makeList g rule.kind · []) hbuilds
  have hinhabited : ∃ us nodes, OrEmptyForm D g id us nodes :=
    let ⟨node, hnode⟩ := hbuilds; ⟨[], [node], .empty hrule hnode⟩
  rw [parseElement, hrule]
  refine Reads.guard hguard hinhabited ?_ ?_
  · intro tape token hclean _ _
    refine (single_reads hreads).outcome tape hclean |>.mono ?_
    rintro us nodes ⟨hD⟩
    exact .phrase hD
  · intro tape token hclean _ _
    refine (single_reads hmake).outcome tape hclean |>.mono ?_
    rintro us nodes ⟨rfl, hnode⟩
    exact .empty hrule hnode

theorem parseElements_nil_reads : Reads NoForm (g.parseElements run []) :=
  (Reads.pure []).mono fun _ _ ⟨hus, hnodes⟩ => hus ▸ hnodes ▸ .intro

theorem parseElements_cons_reads {E F : List Token → List Node → Prop} {element : Element}
    {rest : List Element} (hfirst : Reads E (g.parseElement run element))
    (hrest : Reads F (g.parseElements run rest)) :
    Reads (SequenceForm E F) (g.parseElements run (element :: rest)) := by
  refine (hfirst.bind fun nodes => hrest.bind fun others => Reads.pure (nodes ++ others)).mono ?_
  rintro ws nodes ⟨us, _, ms, rfl, hE, vs, _, ns, rfl, hF, rfl, rfl⟩
  rw [List.append_nil]
  exact .intro hE hF

theorem parseWithin_reads {bound depth : Nat} {id : RuleId} {rule : Rule} (hrule : g.rule id = .ok rule)
    {E : List Token → List Node → Prop}
    (helements : Reads E (g.parseElements ⟨g.parseWithin bound depth, bound⟩ rule.elements))
    (hbuilds : ∀ nodes, ∃ node, g.listNode rule.kind nodes = .ok node) :
    Reads (fun us node => ∃ nodes, E us nodes ∧ g.listNode rule.kind nodes = .ok node)
      (g.parseWithin bound (depth + 1) id) := by
  rw [parseWithin, hrule, ParseM.ofGrammar_ok_bind]
  have hmake := fun nodes => Reads.of_result (run_makeList g rule.kind · nodes) (hbuilds nodes)
  refine (helements.bind hmake).mono ?_
  rintro ws node ⟨us, vs, nodes, rfl, hE, rfl, hnode⟩
  rw [List.append_nil]
  exact ⟨nodes, hE, hnode⟩

theorem parseWithin_zero_reads {bound : Nat} {id : RuleId} {rule : Rule} (hrule : g.rule id = .ok rule)
    (hinhabited : ∃ us node, D us node) : Reads D (g.parseWithin bound 0 id) := by
  rw [parseWithin, hrule, ParseM.ofGrammar_ok_bind]
  exact Reads.exhausted hinhabited

end Elements

end Grammar

end ParseKit
