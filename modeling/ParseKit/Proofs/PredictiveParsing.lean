import ParseKit.Proofs.Predictive

/-! Parsing with a predictive grammar. Whatever forms satisfy the equations of the grammar, a rule
reads its form and accepts it. Main statements: `Grammar.Predictive.parseWithin_reads` and
`Grammar.Predictive.parseWithin_accepts`, both by recursion on the depth. -/

namespace ParseKit

namespace Grammar

variable {g : Grammar} {D : RuleId → List Token → Node → Prop} {run : Runner Tape}

theorem parseElement_expression (kind : NodeKind) (factor : RuleId) (operators : Operators) :
    g.parseElement run (.expression kind factor operators) =
      (run.parse factor >>= fun left =>
        g.parseOperators run kind factor operators none left (run.bound + 1)) >>= fun node =>
          pure [node] := by
  rw [parseElement, bind_assoc]

theorem Predictive.parseWithin_moves (hg : g.Predictive) (bound depth : Nat) (id : RuleId) :
    ParseM.Walks False (g.parseWithin bound depth id) :=
  (g.parseWithin_walks bound depth id).mono (hg.not_nullable id)

namespace Predictive

variable (hg : g.Predictive) (hmoves : ∀ id, ParseM.Walks False (run.parse id)) {id : RuleId} {rule : Rule}
  (hrule : g.rule id = .ok rule)
include hg hrule

theorem buildsOperators {kind : NodeKind} {factor : RuleId} {operators : Operators}
    (hmem : .expression kind factor operators ∈ rule.elements) : g.BuildsOperators kind where
  leaf := (hg.builds hrule).tokens _ hmem .leaf (by simp [Element.tokenKinds])
  list := (hg.builds hrule).lists _ hmem kind (by simp [Element.listKinds])

include hmoves

theorem parseElement_reads {element : Element} (hmem : element ∈ rule.elements)
    (hreads : ∀ other ∈ element.rules, Reads (D other) (run.parse other))
    (hinhabited : ∃ us nodes, element.Form g D us nodes) :
    Reads (element.Form g D) (g.parseElement run element) := by
  have hdecided := (hg.predictiveRule hrule).decided element hmem
  have hguard := hg.peeks_of_mem hrule hmem
  cases element with
  | keep what kind =>
    obtain ⟨_, _, haccepts, hscannable, _⟩ := hinhabited
    exact keep_reads ⟨_, haccepts, hscannable⟩
      ((hg.builds hrule).tokens _ hmem kind (by simp [Element.tokenKinds]))
  | drop what =>
    obtain ⟨_, _, haccepts, hscannable⟩ := hinhabited
    exact drop_reads ⟨_, haccepts, hscannable⟩
  | tree other => exact single_reads (hreads other (by simp [Element.rules]))
  | choice ids =>
    obtain ⟨_, _, ⟨hform⟩⟩ := hinhabited
    rw [Element.isDecided, Bool.and_eq_true, decide_eq_true_eq] at hdecided
    refine single_reads (parseChoice_reads hmoves hguard ?_ ?_ ⟨_, _, hform⟩)
    · exact hdecided.2.imp fun hapart token hscannable hin =>
        TokenClass.not_isIn_of_allApart hapart hscannable hin
    · exact fun other hother => (hreads other hother).mono fun us node h => ⟨other, hother, h⟩
  | repeated other once =>
    have hother : other ∈ (Element.repeated other once).rules := by simp [Element.rules]
    cases once with
    | true => exact optional_reads (hmoves other) (hguard other hother) (hreads other hother)
    | false =>
      exact parseRepeated_reads (hmoves other) (hguard other hother) (hreads other hother) (run.bound + 1)
  | orEmpty other =>
    have hother : other ∈ (Element.orEmpty other).rules := by simp [Element.rules]
    obtain ⟨rule', hrule'⟩ := hg.exists_rule hrule hmem hother
    exact orEmpty_reads hrule' (hguard other hother) (hreads other hother) ((hg.builds hrule').list [])
  | expression kind factor operators =>
    rw [parseElement_expression]
    exact single_reads (expression_reads (hreads factor (by simp [Element.rules]))
      (hg.buildsOperators hrule hmem) (hmoves factor))

/-- The elements of a rule read what they should, one after the other. -/
theorem parseElements_reads {elements : List Element} (hsub : elements ⊆ rule.elements)
    (hreads : ∀ element ∈ elements, ∀ other ∈ element.rules, Reads (D other) (run.parse other))
    (hinhabited : ∃ us nodes, Element.FormOf g D elements us nodes) :
    Reads (Element.FormOf g D elements) (g.parseElements run elements) := by
  induction elements with
  | nil => exact parseElements_nil_reads
  | cons element rest ih =>
    obtain ⟨hmem, hsub⟩ := List.cons_subset.1 hsub
    obtain ⟨helement, hreads⟩ := List.forall_mem_cons.1 hreads
    obtain ⟨_, _, hfirst, hrest⟩ := hinhabited
    exact parseElements_cons_reads (hg.parseElement_reads hmoves hrule hmem helement ⟨_, _, hfirst⟩)
      (ih hsub hreads ⟨_, _, hrest⟩)

omit hmoves in
theorem parseWithin_reads (hD : g.Describes D) (bound depth : Nat) :
    Reads (D id) (g.parseWithin bound depth id) := by
  induction depth generalizing id rule with
  | zero => exact parseWithin_zero_reads hrule (hD.inhabited hrule)
  | succ depth ih =>
    obtain ⟨us, node, hphrase⟩ := hD.inhabited hrule
    obtain ⟨nodes, hform, _⟩ := (hD.iff hrule).1 hphrase
    have hrules : ∀ element ∈ rule.elements, ∀ other ∈ element.rules,
        Reads (D other) (g.parseWithin bound depth other) :=
      fun element hmem other hother => let ⟨_, hother⟩ := hg.exists_rule hrule hmem hother; ih hother
    have helements : Reads (Element.FormOf g D rule.elements)
        (g.parseElements ⟨g.parseWithin bound depth, bound⟩ rule.elements) :=
      hg.parseElements_reads (hg.parseWithin_moves bound depth) hrule (List.Subset.refl _) hrules
        ⟨us, nodes, hform⟩
    exact (parseWithin_reads hrule helements (hg.builds hrule).list).mono fun us node h =>
      (hD.iff hrule).2 h

end Predictive

theorem accepts_keys_of_names {operators : Operators} {token : Token} (h : operators.Names token) :
    (TokenClass.spelled operators.keys).accepts token = true := by
  obtain ⟨hkind, precedence, hprecedence⟩ := h
  have hkey : token.text ∈ operators.keys := by
    rw [Table.get?, Option.map_eq_some_iff] at hprecedence
    obtain ⟨entry, hfind, _⟩ := hprecedence
    have hentry : entry.1 = token.text := by simpa using List.find?_some hfind
    exact List.mem_map.2 ⟨entry, List.mem_of_find?_eq_some hfind, hentry⟩
  refine TokenClass.accepts_spelled_iff.2 ⟨token.text, hkey, ?_⟩
  rcases token with ⟨line, lexeme⟩ | _
  · cases lexeme with
    | identifier | operator => rfl
    | number | string | endOfLine => simp [Token.isIdentifier, Token.isOperator] at hkind
  · simp [Token.isIdentifier, Token.isOperator] at hkind

namespace Predictive

variable (hg : g.Predictive) (hD : g.Describes D) (hmoves : ∀ id, ParseM.Walks False (run.parse id))
  {id : RuleId} {rule : Rule} (hrule : g.rule id = .ok rule)
include hg hD hmoves hrule

theorem repeated_accepts {other : RuleId} {once : Bool} (hmem : .repeated other once ∈ rule.elements)
    (haccepts : Accepts (D other) (·.isIn (g.extensions other)) (run.parse other)) :
    Accepts ((Element.repeated other once).Form g D) (·.isIn (g.firsts other ++ g.extensions other))
      (g.parseElement run (.repeated other once)) := by
  intro us nodes tape tape' next hform hleads hnext hstop
  have hother : other ∈ (Element.repeated other once).rules := by simp [Element.rules]
  have hguard := hg.peeks_of_mem hrule hmem other hother
  have hbegins : ∀ {us node}, D other us node → Begins (g.firsts other) us :=
    fun h => hD.begins_of_mem hg hrule hmem other hother _ _ h
  simp only [Token.isIn_append] at hstop
  cases once with
  | true =>
    obtain ⟨hno, hend⟩ := Bool.or_eq_false_iff.1 hstop
    cases hform with
    | none =>
      obtain rfl := hleads.eq_of_nil
      exact optional_none_gives (hmoves other) hguard hnext hno
    | some h =>
      obtain ⟨token, vs, rfl, _, hin⟩ := hbegins h
      exact optional_some_gives (hmoves other) hguard hleads.next? hin (haccepts h hleads hnext hend)
  | false =>
    have hapart : ∀ token : Token, token.Scannable → token.isIn (g.firsts other) = true →
        token.isIn (g.extensions other) = false := fun token hscannable hin =>
      TokenClass.not_isIn_of_allApart ((hg.predictiveRule hrule).decided _ hmem) hscannable hin
    exact parseRepeated_accepts (hmoves other) hguard hbegins hapart haccepts (run.bound + 1) hform hleads
      hnext hstop

omit hD hmoves in
/-- An operand is followed by an operator of the table or by no token that goes on with it. -/
theorem expression_accepts {kind : NodeKind} {factor : RuleId} {operators : Operators}
    (hmem : .expression kind factor operators ∈ rule.elements)
    (haccepts : Accepts (D factor) (·.isIn (g.extensions factor)) (run.parse factor)) :
    Accepts ((Element.expression kind factor operators).Form g D)
      (·.isIn (.spelled operators.keys :: g.extensions factor))
      (g.parseElement run (.expression kind factor operators)) := by
  intro us nodes tape tape' next hform hleads hnext hstop
  simp only [Token.isIn_cons] at hstop
  obtain ⟨hoperator, hend⟩ := Bool.or_eq_false_iff.1 hstop
  have hnone : (operators.precedence? next).isSome = false := by
    rw [← Bool.not_eq_true, Option.isSome_iff_exists, ← Operators.names_iff]
    intro hnames
    rw [accepts_keys_of_names hnames] at hoperator
    cases hoperator
  have hapart : ∀ token : Token, token.Scannable → operators.Names token →
      token.isIn (g.extensions factor) = false := fun token hscannable hnames =>
    TokenClass.not_isIn_of_allApart ((hg.predictiveRule hrule).decided _ hmem) hscannable
      (by simp [accepts_keys_of_names hnames])
  obtain ⟨h⟩ := hform
  rw [parseElement_expression]
  exact single_gives (Grammar.expression_accepts haccepts (hg.buildsOperators hrule hmem) hapart h hleads
    hnext (Bool.or_eq_false_iff.2 ⟨hend, hnone⟩))

theorem parseElement_accepts {element : Element} (hmem : element ∈ rule.elements)
    (haccepts : ∀ other ∈ element.rules,
      Accepts (D other) (·.isIn (g.extensions other)) (run.parse other)) :
    Accepts (element.Form g D) (·.isIn (element.extensions g.firsts g.extensions))
      (g.parseElement run element) := by
  intro us nodes tape tape' next hform hleads hnext hstop
  have hdecided := (hg.predictiveRule hrule).decided element hmem
  have hguard := hg.peeks_of_mem hrule hmem
  have hbegins := hD.begins_of_mem hg hrule hmem
  cases element with
  | keep what kind =>
    obtain ⟨htoken, _, hnode⟩ := hform
    exact keep_gives hnode htoken hleads
  | drop what =>
    obtain ⟨htoken, _⟩ := hform
    exact drop_gives htoken hleads
  | tree other =>
    obtain ⟨h⟩ := hform
    exact single_gives (haccepts other (by simp [Element.rules]) h hleads hnext hstop)
  | choice ids =>
    obtain ⟨other, hother, h⟩ := hform
    obtain ⟨token, vs, rfl, hscannable, hin⟩ := hbegins other hother _ _ h
    refine single_gives (parseChoice_gives hmoves hguard hleads.next? hother hin ?_ ?_ none)
    · exact fun third hthird hne => Element.not_isIn_of_isDecided hdecided hother hthird hne hscannable hin
    · refine haccepts other hother h hleads hnext ?_
      simp only [Element.extensions, Token.isIn_flatMap, List.any_eq_false] at hstop
      simpa using hstop other hother
  | repeated other once =>
    exact hg.repeated_accepts hD hmoves hrule hmem (haccepts other (by simp [Element.rules])) hform hleads
      hnext hstop
  | orEmpty other =>
    have hother : other ∈ (Element.orEmpty other).rules := by simp [Element.rules]
    simp only [Element.extensions, Token.isIn_append] at hstop
    obtain ⟨hno, hend⟩ := Bool.or_eq_false_iff.1 hstop
    cases hform with
    | phrase h =>
      obtain ⟨token, vs, rfl, _, hin⟩ := hbegins other hother _ _ h
      exact orEmpty_phrase_gives (hguard other hother) hleads.next? hin
        (haccepts other hother h hleads hnext hend)
    | empty hrule' hnode =>
      obtain rfl := hleads.eq_of_nil
      exact orEmpty_empty_gives (hguard other hother) hnext hno hrule' hnode
  | expression kind factor operators =>
    exact hg.expression_accepts hrule hmem (haccepts factor (by simp [Element.rules])) hform
      hleads hnext hstop

/-- What comes after an element begins with no token that goes on with it. -/
theorem parseElements_accepts {elements : List Element} (hsub : elements ⊆ rule.elements)
    (hseparated : Element.areSeparated g.firsts g.extensions elements = true)
    (haccepts : ∀ element ∈ elements, ∀ other ∈ element.rules,
      Accepts (D other) (·.isIn (g.extensions other)) (run.parse other)) :
    Accepts (Element.FormOf g D elements) (·.isIn (Element.extensionsOf g.firsts g.extensions elements))
      (g.parseElements run elements) := by
  intro us nodes tape tape' next hform hleads hnext hstop
  induction elements generalizing us nodes tape with
  | nil =>
    cases hform
    obtain rfl := hleads.eq_of_nil
    exact parseElements_nil_gives tape'
  | cons element rest ih =>
    obtain ⟨hmem, hsub⟩ := List.cons_subset.1 hsub
    obtain ⟨helement, haccepts⟩ := List.forall_mem_cons.1 haccepts
    obtain ⟨hapart, hseparated⟩ := Bool.and_eq_true_iff.1 hseparated
    simp only [Element.extensionsOf, Token.isIn_append] at hstop
    obtain ⟨hstop, hlast⟩ := Bool.or_eq_false_iff.1 hstop
    obtain @⟨us, vs, ms, ns, hfirst, hrest⟩ := hform
    obtain ⟨tape₁, hleads₁, hleads⟩ := hleads.split
    have hheads : ∀ before other after, rest = before ++ other :: after →
        (∀ third ∈ before, third.isOptional = true) →
        ∀ id ∈ other.rules, ∀ us node, D id us node → Begins (g.firsts id) us :=
      fun before other after heq _ => hD.begins_of_mem hg hrule (hsub (by simp [heq]))
    have hgives : ∀ token, tape₁.next? = some token →
        token.isIn (element.extensions g.firsts g.extensions) = false →
        Gives (g.parseElement run element) tape ms tape₁ := fun token =>
      hg.parseElement_accepts hD hmoves hrule hmem helement hfirst hleads₁
    have hlater := ih hsub hseparated haccepts hrest hleads hstop
    rcases hrest.head hheads with ⟨rfl, hoptional⟩ | ⟨token, vs, rfl, hscannable, hin⟩
    · rw [if_pos hoptional] at hlast
      exact parseElements_cons_gives (hgives next (hleads.eq_of_nil ▸ hnext) hlast) hlater
    · have hno := TokenClass.not_isIn_of_allApart hapart hscannable hin
      exact parseElements_cons_gives (hgives token hleads.next? hno) hlater

omit hmoves in
theorem parseWithin_accepts (bound depth : Nat) :
    Accepts (D id) (·.isIn (g.extensions id)) (g.parseWithin bound depth id) := by
  intro us node tape tape' next hphrase hleads hnext hstop
  induction depth generalizing id rule us node tape tape' next with
  | zero => exact parseWithin_zero_gives hrule node
  | succ depth ih =>
    obtain ⟨nodes, hform, hnode⟩ := (hD.iff hrule).1 hphrase
    have hpredictive := hg.predictiveRule hrule
    have hrules : ∀ element ∈ rule.elements, ∀ other ∈ element.rules,
        Accepts (D other) (·.isIn (g.extensions other)) (g.parseWithin bound depth other) := by
      intro element hmem other hother us node tape tape' next
      obtain ⟨_, hother⟩ := hg.exists_rule hrule hmem hother
      exact ih hother
    have helements : Gives (g.parseElements ⟨g.parseWithin bound depth, bound⟩ rule.elements)
        tape nodes tape' := by
      refine hg.parseElements_accepts hD (hg.parseWithin_moves bound depth) hrule (List.Subset.refl _)
        hpredictive.separated hrules hform hleads hnext ?_
      rw [← Bool.not_eq_true] at hstop ⊢
      exact fun hin => hstop (Token.isIn_of_subset hpredictive.extensions hin)
    exact parseWithin_gives hrule helements hnode

end Predictive

end Grammar

end ParseKit
