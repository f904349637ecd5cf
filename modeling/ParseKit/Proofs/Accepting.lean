import ParseKit.Proofs.Halting
import ParseKit.Proofs.ReadingRules

/-! Parsers that accept a form: given any tokens that meet the form, and a token after them that
could not go on with it, they take exactly these tokens and give what the form says, unless they run
out of depth or rounds. Main statements: one closure lemma for each element of a rule. -/

namespace ParseKit

section Gives

variable {α β : Type}

/-- The parser gives `a` and moves on to `tape'`, unless it runs out of depth or rounds. -/
def Gives (p : ParseM Tape α) (tape : Tape) (a : α) (tape' : Tape) : Prop :=
  p tape = (.ok a, tape') ∨ (p tape).1 = .error (.grammar .leftRecursion)

namespace Gives

variable {p : ParseM Tape α} {f : α → ParseM Tape β} {tape tape' tape'' : Tape} {a : α} {b : β}

theorem pure (a : α) (tape : Tape) : Gives (Pure.pure a) tape a tape := .inl rfl

theorem bind (hp : Gives p tape a tape') (hf : Gives (f a) tape' b tape'') :
    Gives (p >>= f) tape b tape'' := by
  rcases hp with hp | hp
  · rw [Gives, ParseM.bind_of_ok hp]
    exact hf
  · exact .inr (ParseM.bind_fails hp)

theorem of_halts (h : Gives p tape a tape') (hhalts : ParseM.Halts p tape) : p tape = (.ok a, tape') :=
  h.resolve_right hhalts

end Gives

/-- The parser accepts the form, if no token that `continues` it comes next. -/
def Accepts (D : List Token → α → Prop) (continues : Token → Bool) (p : ParseM Tape α) : Prop :=
  ∀ {us a tape tape' next}, D us a → tape.Leads us tape' → tape'.next? = some next →
    continues next = false → Gives p tape a tape'

end Gives

/-- Operands begin with their first operator, and no tokens remain of none. -/
theorem OperandsForm.next? {D : List Token → Node → Prop} {operators : Operators} {us : List Token}
    {rest : List (Token × Node)} (h : OperandsForm D operators us rest) {tape tape' : Tape}
    (hleads : tape.Leads us tape') : rest = [] ∧ us = [] ∧ tape' = tape ∨
      ∃ next more, rest = next :: more ∧ tape.next? = some next.1 ∧ next.1.Scannable ∧
        operators.Names next.1 := by
  cases h with
  | nil => exact .inl ⟨rfl, rfl, hleads.eq_of_nil⟩
  | cons hnames hscannable => exact .inr ⟨_, _, rfl, hleads.next?, hscannable, hnames⟩

namespace Grammar

variable {g : Grammar} {run : Runner Tape} {tape tape' : Tape}

theorem drop_gives {what : TokenClass} {token : Token} (h : what.accepts token = true)
    (hleads : tape.Leads [token] tape') : Gives (g.parseElement run (.drop what)) tape [] tape' :=
  Gives.bind (.inl (TokenClass.take_of_leads h hleads)) (.pure [] tape')

theorem keep_gives {what : TokenClass} {kind : NodeKind} {token : Token} {node : Node}
    (hnode : g.tokenNode kind token = .ok node) (h : what.accepts token = true)
    (hleads : tape.Leads [token] tape') : Gives (g.parseElement run (.keep what kind)) tape [node] tape' := by
  have hmake : (g.makeToken kind token : ParseM Tape Node) tape' = (.ok node, tape') := by
    rw [run_makeToken, hnode]
  exact Gives.bind (.inl (TokenClass.take_of_leads h hleads)) (Gives.bind (.inl hmake) (.pure _ tape'))

theorem single_gives {p : ParseM Tape Node} {node : Node} (h : Gives p tape node tape') :
    Gives (p >>= fun node => pure [node]) tape [node] tape' :=
  h.bind (.pure [node] tape')

/-- The alternative that could start is tried, when those before it could not. -/
theorem parseChoice_gives {N : RuleId → Prop} (hwalks : ∀ id, ParseM.Walks (N id) (run.parse id))
    {accepts : RuleId → Token → Bool} {ids : List RuleId}
    (hguards : ∀ id ∈ ids, Peeks (g.starts id) (accepts id)) {token : Token}
    (hnext : tape.next? = some token) {id : RuleId} (hmem : id ∈ ids) (hyes : accepts id token = true)
    (hno : ∀ other ∈ ids, other ≠ id → accepts other token = false) {node : Node}
    (h : Gives (run.parse id) tape node tape') (last? : Option ParseError) :
    Gives (g.parseChoice run last? ids) tape node tape' := by
  induction ids with
  | nil => cases hmem
  | cons other ids ih =>
    obtain ⟨hguard, hguards⟩ := List.forall_mem_cons.1 hguards
    obtain ⟨hother, hno⟩ := List.forall_mem_cons.1 hno
    by_cases heq : other = id
    · subst heq
      rw [Gives, g.parseChoice_of_starts hwalks (hyes ▸ hguard.next hnext)]
      rcases h with h | h
      · exact .inl (by rw [h])
      · refine .inr ?_
        rcases hparse : run.parse other tape with ⟨error | node, tape''⟩ <;> rw [hparse] at h <;> cases h
        rfl
    · have hstarts : g.starts other tape = (.ok false, tape) := hother heq ▸ hguard.next hnext
      rw [Gives, parseChoice, ParseM.bind_of_ok hstarts]
      exact ih hguards ((List.mem_cons.1 hmem).resolve_left (Ne.symm heq)) hno

section Repeated

variable {id : RuleId} {accepts : Token → Bool} (hmoves : ParseM.Walks False (run.parse id))
  (hguard : Peeks (g.starts id) accepts)
include hmoves hguard

theorem optional_none_gives {token : Token} (hnext : tape.next? = some token)
    (hno : accepts token = false) : Gives (g.parseElement run (.repeated id true)) tape [] tape := by
  rw [Gives, parseElement, parseRepeated_succ hmoves, ParseM.bind_of_ok (hno ▸ hguard.next hnext)]
  exact .inl rfl

theorem optional_some_gives {token : Token} (hnext : tape.next? = some token)
    (hyes : accepts token = true) {node : Node} (h : Gives (run.parse id) tape node tape') :
    Gives (g.parseElement run (.repeated id true)) tape node.kept tape' := by
  rw [Gives, parseElement, parseRepeated_succ hmoves, ParseM.bind_of_ok (hyes ▸ hguard.next hnext)]
  exact h.bind (.pure node.kept tape')

/-- Rounds go on while the next token could start one, and no such token goes on with the round
before it. -/
theorem parseRepeated_accepts {D : List Token → Node → Prop} {continues : Token → Bool}
    (hD : ∀ {us node}, D us node → ∃ token vs, us = token :: vs ∧ token.Scannable ∧ accepts token = true)
    (hcontinues : ∀ token : Token, token.Scannable → accepts token = true → continues token = false)
    (h : Accepts D continues (run.parse id)) (bound : Nat) :
    Accepts (RepeatedForm D) (fun token => accepts token || continues token)
      (g.parseRepeated run id false bound) := by
  intro us nodes tape tape' next hform hleads hnext hstop
  obtain ⟨hno, hend⟩ := Bool.or_eq_false_iff.1 hstop
  induction hform generalizing tape bound with
  | nil =>
    obtain rfl := hleads.eq_of_nil
    cases bound with
    | zero => exact .inr rfl
    | succ bound =>
      rw [Gives, parseRepeated_succ hmoves, ParseM.bind_of_ok (hno ▸ hguard.next hnext)]
      exact .inl rfl
  | @cons us vs node nodes hround hrest ih =>
    cases bound with
    | zero => exact .inr rfl
    | succ bound =>
      obtain ⟨tape₁, hleads₁, hleads₂⟩ := hleads.split
      obtain ⟨token, us', rfl, -, hyes⟩ := hD hround
      rw [Gives, parseRepeated_succ hmoves, ParseM.bind_of_ok (hyes ▸ hguard.next hleads₁.next?)]
      have hrounds := ih bound hleads₂
      suffices hround : Gives (run.parse id) tape node tape₁ from
        hround.bind (hrounds.bind (.pure _ tape'))
      cases hrest with
      | nil => exact h hround hleads₁ (hleads₂.eq_of_nil ▸ hnext) hend
      | cons hround' hrest' =>
        obtain ⟨token', vs', rfl, hscannable, hyes'⟩ := hD hround'
        exact h hround hleads₁ hleads₂.next? (hcontinues token' hscannable hyes')

end Repeated

section Expression

variable {D : List Token → Node → Prop} {continues : Token → Bool} {kind : NodeKind}
  {operators : Operators} {factor : RuleId} (hfactor : Accepts D continues (run.parse factor))
  (hbuilds : g.BuildsOperators kind)
  (hoperator : ∀ token : Token, token.Scannable → operators.Names token → continues token = false)
include hfactor hbuilds hoperator

omit hbuilds in
/-- An operand is taken, whether operators come after it or not. -/
theorem factor_gives {us vs : List Token} {node : Node} {rest : List (Token × Node)} {tape₁ : Tape}
    (hnode : D us node) (hleads₁ : tape.Leads us tape₁) (hrest : OperandsForm D operators vs rest)
    (hleads : tape₁.Leads vs tape') {last : Token} (hlast : tape'.next? = some last)
    (hend : continues last = false) : Gives (run.parse factor) tape node tape₁ := by
  rcases hrest.next? hleads with ⟨rfl, rfl, rfl⟩ | ⟨next, more, rfl, hnext, hscannable, hnames⟩
  · exact hfactor hnode hleads₁ hlast hend
  · exact hfactor hnode hleads₁ hnext (hoperator _ hscannable hnames)

/-- Parsing operators follows the climbing of their chain and gives the node of the tree it comes
to. What is admitted is what the operator before the left operand yields to. -/
theorem parseOperators_gives {admits : Token → Prop} {left tree : OperatorTree}
    {rest rest' : List (Token × Node)} (hclimbs : Climbs operators.Yields admits left rest tree rest')
    {outer? : Option Precedence} (hadmits : ∀ token p, operators.precedence? token = some p →
      (admits token ↔ outer?.all (·.yieldsTo p) = true))
    {us : List Token} (hrest : OperandsForm D operators us rest) (hleads : tape.Leads us tape')
    {last : Token} (hlast : tape'.next? = some last) (hnone : operators.precedence? last = none)
    (hend : continues last = false) {leftNode : Node} (hleft : left.build g kind = .ok leftNode)
    (bound : Nat) :
    ∃ ws tape₁ node, OperandsForm D operators ws rest' ∧ tape₁.Leads ws tape' ∧
      tree.build g kind = .ok node ∧
      Gives (g.parseOperators run kind factor operators outer? leftNode bound) tape node tape₁ := by
  induction hclimbs generalizing outer? us tape leftNode bound with
  | @stop admits left rest hstop =>
    refine ⟨us, tape, leftNode, hrest, hleads, hleft, ?_⟩
    cases bound with
    | zero => exact .inr rfl
    | succ bound =>
      rcases hrest.next? hleads with ⟨rfl, rfl, rfl⟩ | ⟨next, more, rfl, hnext, -⟩
      · exact .inl (parseOperators_stop (fun p hp => by cases hnone.symm.trans hp) hlast)
      · refine .inl (parseOperators_stop (fun p hp => ?_) hnext)
        rw [← Bool.not_eq_true, ← hadmits next.1 p hp]
        exact hstop next rfl
  | @shift admits left right tree operator node rest rest₁ rest₂ hadmitted _ _ ihright ihnext =>
    cases hrest with
    | @cons _ us vs _ _ hnames _ hnode hrest =>
      obtain ⟨p, hp⟩ := Operators.names_iff.1 hnames
      obtain ⟨opNode, hop⟩ := hbuilds.leaf operator
      rw [← List.singleton_append, List.append_assoc] at hleads
      obtain ⟨tape₁, hleads₁, hleads⟩ := hleads.split
      obtain ⟨tape₂, hleads₂, hleads⟩ := hleads.split
      have hoperand := factor_gives hfactor hoperator hnode hleads₂ hrest hleads hlast hend
      have hyields : ∀ token q, operators.precedence? token = some q →
          (operators.Yields operator token ↔ (some p).all (·.yieldsTo q) = true) :=
        fun token q hq => Operators.yields_iff hp hq
      obtain ⟨ws, tape₃, rightNode, hrest₁, hleads, hbuild, hright⟩ :=
        ihright hyields hrest hleads rfl (bound - 1)
      obtain ⟨inner, hinner⟩ := hbuilds.list [leftNode, opNode, rightNode]
      have hbinary : (OperatorTree.binary left operator right).build g kind = .ok inner := by
        simp only [OperatorTree.build, hleft, hbuild, hop]
        exact hinner
      obtain ⟨xs, tape₄, result, hrest₂, hleads, hbuild₂, hnext⟩ :=
        ihnext hadmits hrest₁ hleads hbinary (bound - 1)
      refine ⟨xs, tape₄, result, hrest₂, hleads, hbuild₂, ?_⟩
      cases bound with
      | zero => exact .inr rfl
      | succ bound =>
        rw [Gives, parseOperators_shift hp ((hadmits operator p hp).1 hadmitted) hop hleads₁]
        have hmake : Gives (g.makeList kind [leftNode, opNode, rightNode]) tape₃ inner tape₃ :=
          .inl (by rw [run_makeList, hinner])
        exact hoperand.bind (hright.bind (hmake.bind hnext))

/-- An expression accepts the factors joined by operators, with the node of their grouped tree. -/
theorem expression_accepts : Accepts (ExpressionForm D g kind operators)
    (fun token => continues token || (operators.precedence? token).isSome)
    (run.parse factor >>= fun left =>
      g.parseOperators run kind factor operators none left (run.bound + 1)) := by
  intro us node tape tape' last hform hleads hlast hstop
  obtain ⟨hend, hnone⟩ := Bool.or_eq_false_iff.1 hstop
  rw [Option.isSome_eq_false_iff, Option.isNone_iff_eq_none] at hnone
  cases hform with
  | @intro us vs first _ rest tree hfirst hrest hgroups hbuild =>
    obtain ⟨tape₁, hleads₁, hleads⟩ := hleads.split
    have hoperand := factor_gives hfactor hoperator hfirst hleads₁ hrest hleads hlast hend
    have hadmits : ∀ token p, operators.precedence? token = some p →
        (True ↔ (none : Option Precedence).all (·.yieldsTo p) = true) := by simp
    obtain ⟨ws, tape₂, result, hnil, hleads, hresult, hrun⟩ :=
      parseOperators_gives hfactor hbuilds hoperator hgroups.climbs hadmits hrest hleads hlast hnone hend
        rfl (run.bound + 1)
    cases hnil
    obtain rfl := hleads.eq_of_nil
    cases hbuild.symm.trans hresult
    exact hoperand.bind hrun

end Expression

section Elements

variable {ms ns : List Node}

theorem orEmpty_phrase_gives {id : RuleId} {accepts : Token → Bool}
    (hguard : Peeks (g.starts id) accepts) {token : Token} (hnext : tape.next? = some token)
    (hyes : accepts token = true) {node : Node} (h : Gives (run.parse id) tape node tape') :
    Gives (g.parseElement run (.orEmpty id)) tape [node] tape' := by
  rw [Gives, parseElement, ParseM.bind_of_ok (hyes ▸ hguard.next hnext)]
  exact single_gives h

theorem orEmpty_empty_gives {id : RuleId} {accepts : Token → Bool}
    (hguard : Peeks (g.starts id) accepts) {token : Token} (hnext : tape.next? = some token)
    (hno : accepts token = false) {rule : Rule} (hrule : g.rule id = .ok rule) {node : Node}
    (hnode : g.listNode rule.kind [] = .ok node) :
    Gives (g.parseElement run (.orEmpty id)) tape [node] tape := by
  have hmake : Gives (g.makeList rule.kind []) tape node tape := .inl (by rw [run_makeList, hnode])
  rw [Gives, parseElement, ParseM.bind_of_ok (hno ▸ hguard.next hnext), hrule]
  exact single_gives hmake

theorem parseElements_nil_gives (tape : Tape) : Gives (g.parseElements run []) tape [] tape :=
  .pure [] tape

theorem parseElements_cons_gives {element : Element} {rest : List Element} {tape₁ : Tape}
    (hfirst : Gives (g.parseElement run element) tape ms tape₁)
    (hrest : Gives (g.parseElements run rest) tape₁ ns tape') :
    Gives (g.parseElements run (element :: rest)) tape (ms ++ ns) tape' :=
  hfirst.bind (hrest.bind (.pure (ms ++ ns) tape'))

theorem parseWithin_gives {bound depth : Nat} {id : RuleId} {rule : Rule} (hrule : g.rule id = .ok rule)
    (h : Gives (g.parseElements ⟨g.parseWithin bound depth, bound⟩ rule.elements) tape ns tape')
    {node : Node} (hnode : g.listNode rule.kind ns = .ok node) :
    Gives (g.parseWithin bound (depth + 1) id) tape node tape' := by
  rw [Gives, parseWithin, hrule, ParseM.ofGrammar_ok_bind]
  exact h.bind (.inl (by rw [run_makeList, hnode]))

theorem parseWithin_zero_gives {bound : Nat} {id : RuleId} {rule : Rule} (hrule : g.rule id = .ok rule)
    (node : Node) : Gives (g.parseWithin bound 0 id) tape node tape' := by
  rw [Gives, parseWithin, hrule, ParseM.ofGrammar_ok_bind]
  exact .inr rfl

end Elements

end Grammar

end ParseKit
