import Mathlib.Data.List.Pairwise
import ParseKit.Proofs.Accepting
import ParseKit.Proofs.TokenClasses

/-! Predictive grammars: the next token alone decides which alternative to take and whether to go
on. Whether a grammar is predictive is computed from the classes of tokens with which its rules
begin and go on. What the phrases of its rules are may be given by any forms that satisfy the
equations of the grammar. Main statements: `Grammar.Predictive.peeks` and `Grammar.Describes.begins`,
a rule could start where its phrases begin. -/

namespace ParseKit

namespace Element

/-- What an element should take and give, over the forms of the rules. -/
def Form (g : Grammar) (D : RuleId → List Token → Node → Prop) :
    Element → List Token → List Node → Prop
  | keep what kind => KeptForm g what kind
  | drop what => DroppedForm what
  | tree id => SingleForm (D id)
  | choice ids => SingleForm fun us node => ∃ id ∈ ids, D id us node
  | repeated id true => OptionalForm (D id)
  | repeated id false => RepeatedForm (D id)
  | orEmpty id => OrEmptyForm (D id) g id
  | expression kind factor operators => SingleForm (ExpressionForm (D factor) g kind operators)

def FormOf (g : Grammar) (D : RuleId → List Token → Node → Prop) :
    List Element → List Token → List Node → Prop
  | [] => NoForm
  | element :: rest => SequenceForm (element.Form g D) (FormOf g D rest)

section Building

variable {g : Grammar} {D : RuleId → List Token → Node → Prop} {rest : List Element} {us vs : List Token}
  {nodes : List Node}

theorem FormOf.nil : FormOf g D [] [] [] := NoForm.intro

theorem FormOf.single {element : Element} (h : element.Form g D us nodes) :
    FormOf g D [element] us nodes := by
  have hform : FormOf g D [element] (us ++ []) (nodes ++ []) := SequenceForm.intro h .nil
  rwa [List.append_nil, List.append_nil] at hform

theorem FormOf.drop {what : TokenClass} {token : Token}
    (h : what.accepts token = true ∧ token.Scannable) (hrest : FormOf g D rest us nodes) :
    FormOf g D (.drop what :: rest) (token :: us) nodes :=
  SequenceForm.intro (DroppedForm.intro h.1 h.2) hrest

theorem FormOf.tree {id : RuleId} {node : Node} (h : D id us node) (hrest : FormOf g D rest vs nodes) :
    FormOf g D (.tree id :: rest) (us ++ vs) (node :: nodes) :=
  SequenceForm.intro (SingleForm.intro h) hrest

theorem FormOf.optional_none {id : RuleId} (hrest : FormOf g D rest us nodes) :
    FormOf g D (.repeated id true :: rest) us nodes :=
  SequenceForm.intro OptionalForm.none hrest

theorem FormOf.optional_some {id : RuleId} {node : Node} (h : D id us node)
    (hrest : FormOf g D rest vs nodes) :
    FormOf g D (.repeated id true :: rest) (us ++ vs) (node.kept ++ nodes) :=
  SequenceForm.intro (OptionalForm.some h) hrest

theorem FormOf.many {id : RuleId} {ms : List Node} (h : RepeatedForm (D id) us ms)
    (hrest : FormOf g D rest vs nodes) :
    FormOf g D (.repeated id false :: rest) (us ++ vs) (ms ++ nodes) :=
  SequenceForm.intro h hrest

end Building

section Classes

variable (begins ends : RuleId → List TokenClass)

def firsts : Element → List TokenClass
  | keep what _ => [what]
  | drop what => [what]
  | tree id => begins id
  | choice ids => ids.flatMap begins
  | repeated id _ => begins id
  | orEmpty id => begins id
  | expression _ factor _ => begins factor

def firstsOf : List Element → List TokenClass
  | [] => []
  | element :: rest =>
    element.firsts begins ++ if element.isOptional then firstsOf rest else []

/-- The classes of tokens with which an element could still go on where it could end. -/
def extensions : Element → List TokenClass
  | keep _ _ => []
  | drop _ => []
  | tree id => ends id
  | choice ids => ids.flatMap ends
  | repeated id _ => begins id ++ ends id
  | orEmpty id => begins id ++ ends id
  | expression _ factor operators => .spelled operators.keys :: ends factor

def extensionsOf : List Element → List TokenClass
  | [] => []
  | element :: rest => extensionsOf rest ++
      if rest.all (·.isOptional) then element.extensions begins ends else []

/-- Whether the next token decides an element: alternatives begin with different tokens, and what
comes after one round or operand goes on with no other way. -/
def isDecided : Element → Bool
  | choice ids => !ids.isEmpty &&
      decide (ids.Pairwise fun a b => TokenClass.allApart (begins a) (begins b) = true)
  | repeated id false => TokenClass.allApart (begins id) (ends id)
  | expression _ factor operators => TokenClass.allApart [.spelled operators.keys] (ends factor)
  | _ => true

variable {begins ends} in
theorem not_isIn_of_isDecided {ids : List RuleId} (h : (choice ids).isDecided begins ends = true)
    {id other : RuleId} (hid : id ∈ ids) (hother : other ∈ ids) (hne : other ≠ id) {token : Token}
    (hscannable : token.Scannable) (hin : token.isIn (begins id) = true) :
    token.isIn (begins other) = false := by
  rw [isDecided, Bool.and_eq_true, decide_eq_true_eq] at h
  let Excludes : RuleId → RuleId → Prop := fun a b =>
    ¬ (token.isIn (begins a) = true ∧ token.isIn (begins b) = true)
  have hsymm : Std.Symm Excludes := ⟨fun _ _ hnot hand => hnot hand.symm⟩
  have hpairwise : ids.Pairwise Excludes := h.2.imp fun hapart ⟨ha, hb⟩ => by
    rw [TokenClass.not_isIn_of_allApart hapart hscannable ha] at hb
    cases hb
  have hboth : Excludes other id := hpairwise.forall hother hid hne
  simpa [Excludes, hin] using hboth

def areSeparated : List Element → Bool
  | [] => true
  | element :: rest =>
    TokenClass.allApart (firstsOf begins rest) (element.extensions begins ends) &&
      areSeparated rest

end Classes

end Element

/-- The tokens begin with one of a source that is in one of the classes. -/
def Begins (classes : List TokenClass) (us : List Token) : Prop :=
  ∃ token vs, us = token :: vs ∧ token.Scannable ∧ token.isIn classes = true

theorem Begins.mono {classes others : List TokenClass} {us : List Token} (h : Begins classes us)
    (hsub : classes ⊆ others) : Begins others us :=
  let ⟨token, vs, hus, hscannable, hin⟩ := h
  ⟨token, vs, hus, hscannable, Token.isIn_of_subset hsub hin⟩

theorem Begins.append {classes : List TokenClass} {us : List Token} (h : Begins classes us)
    (vs : List Token) : Begins classes (us ++ vs) :=
  let ⟨token, rest, hus, hscannable, hin⟩ := h
  ⟨token, rest ++ vs, by rw [hus]; rfl, hscannable, hin⟩

namespace Element

variable {g : Grammar} {D : RuleId → List Token → Node → Prop} {begins ends : RuleId → List TokenClass}

/-- What an element takes begins as its rules do, and an optional one may take nothing. -/
theorem Form.head {element : Element} {us : List Token} {nodes : List Node}
    (h : element.Form g D us nodes)
    (hD : ∀ id ∈ element.rules, ∀ us node, D id us node → Begins (begins id) us) :
    us = [] ∧ element.isOptional = true ∨ Begins (element.firsts begins) us := by
  cases element with
  | keep what kind =>
    obtain ⟨haccepts, hscannable, hnode⟩ := h
    exact .inr ⟨_, [], rfl, hscannable, by simp [firsts, haccepts]⟩
  | drop what =>
    obtain ⟨haccepts, hscannable⟩ := h
    exact .inr ⟨_, [], rfl, hscannable, by simp [firsts, haccepts]⟩
  | tree id =>
    obtain ⟨h⟩ := h
    exact .inr (hD id (by simp [rules]) _ _ h)
  | choice ids =>
    obtain ⟨id, hmem, h⟩ := h
    exact .inr ((hD id hmem _ _ h).mono fun what hwhat => List.mem_flatMap.2 ⟨id, hmem, hwhat⟩)
  | repeated id once =>
    have hrule := hD id (by simp [rules])
    cases once with
    | true =>
      cases h with
      | none => exact .inl ⟨rfl, rfl⟩
      | some h => exact .inr (hrule _ _ h)
    | false =>
      cases h with
      | nil => exact .inl ⟨rfl, rfl⟩
      | cons h => exact .inr ((hrule _ _ h).append _)
  | orEmpty id =>
    cases h with
    | phrase h => exact .inr (hD id (by simp [rules]) _ _ h)
    | empty => exact .inl ⟨rfl, rfl⟩
  | expression kind factor operators =>
    obtain ⟨h⟩ := h
    obtain ⟨hfirst⟩ := h
    exact .inr ((hD factor (by simp [rules]) _ _ hfirst).append _)

theorem FormOf.head {elements : List Element} {us : List Token} {nodes : List Node}
    (h : FormOf g D elements us nodes)
    (hD : ∀ before element after, elements = before ++ element :: after →
      (∀ other ∈ before, other.isOptional = true) →
      ∀ id ∈ element.rules, ∀ us node, D id us node → Begins (begins id) us) :
    us = [] ∧ elements.all (·.isOptional) = true ∨ Begins (firstsOf begins elements) us := by
  induction elements generalizing us nodes with
  | nil =>
    cases h
    exact .inl ⟨rfl, rfl⟩
  | cons element rest ih =>
    obtain ⟨hfirst, hrest⟩ := h
    rcases hfirst.head (hD [] element rest rfl (by simp)) with ⟨rfl, hoptional⟩ | hbegins
    · have hlater := ih hrest fun before other after heq hbefore =>
        hD (element :: before) other after (by rw [heq]; rfl) (by simpa [hoptional] using hbefore)
      simpa [firstsOf, hoptional] using hlater.imp id fun hbegins =>
        hbegins.mono (List.subset_append_right _ _)
    · exact .inr ((hbegins.append _).mono (List.subset_append_left _ _))

end Element

namespace Grammar

/-- The classes of tokens with which a rule could begin, found by at most `depth` nested rules. -/
def firstsWithin (g : Grammar) : Nat → RuleId → List TokenClass
  | 0, _ => []
  | depth + 1, id =>
    match g.rule id with
    | .ok rule => Element.firstsOf (g.firstsWithin depth) rule.elements
    | .error _ => []

def firsts (g : Grammar) (id : RuleId) : List TokenClass :=
  g.firstsWithin g.size id

/-- The classes of tokens with which a rule could still go on where it could end. -/
def extensionsWithin (g : Grammar) : Nat → RuleId → List TokenClass
  | 0, _ => []
  | depth + 1, id =>
    match g.rule id with
    | .ok rule => Element.extensionsOf g.firsts (g.extensionsWithin depth) rule.elements
    | .error _ => []

def extensions (g : Grammar) (id : RuleId) : List TokenClass :=
  g.extensionsWithin g.size id

/-- The classes of a rule are those of its elements, and the next token decides what to do at each
of them. -/
structure PredictiveRule (g : Grammar) (id : RuleId) (rule : Rule) : Prop where
  firsts : g.firsts id = Element.firstsOf g.firsts rule.elements
  extensions : Element.extensionsOf g.firsts g.extensions rule.elements ⊆ g.extensions id
  known : ∀ element ∈ rule.elements, ∀ other ∈ element.rules, other < g.size
  decided : ∀ element ∈ rule.elements, element.isDecided g.firsts g.extensions = true
  separated : Element.areSeparated g.firsts g.extensions rule.elements = true

instance (g : Grammar) (id : RuleId) (rule : Rule) : Decidable (g.PredictiveRule id rule) :=
  decidable_of_iff (g.firsts id = Element.firstsOf g.firsts rule.elements ∧
    Element.extensionsOf g.firsts g.extensions rule.elements ⊆ g.extensions id ∧
    (∀ element ∈ rule.elements, ∀ other ∈ element.rules, other < g.size) ∧
    (∀ element ∈ rule.elements, element.isDecided g.firsts g.extensions = true) ∧
    Element.areSeparated g.firsts g.extensions rule.elements = true)
    ⟨fun ⟨h₁, h₂, h₃, h₄, h₅⟩ => ⟨h₁, h₂, h₃, h₄, h₅⟩, fun ⟨h₁, h₂, h₃, h₄, h₅⟩ => ⟨h₁, h₂, h₃, h₄, h₅⟩⟩

def isPredictive (g : Grammar) : Bool :=
  (List.range g.size).all fun id =>
    match g.rule id with
    | .ok rule => decide (g.PredictiveRule id rule)
    | .error _ => true

structure BuildsRule (g : Grammar) (rule : Rule) : Prop where
  list : ∀ nodes, ∃ node, g.listNode rule.kind nodes = .ok node
  tokens : ∀ element ∈ rule.elements, ∀ kind ∈ element.tokenKinds, ∀ token,
    ∃ node, g.tokenNode kind token = .ok node
  lists : ∀ element ∈ rule.elements, ∀ kind ∈ element.listKinds, ∀ nodes,
    ∃ node, g.listNode kind nodes = .ok node

/-- Only tokens decide whether a parse succeeds, and the next one decides how it goes on. -/
structure Predictive (g : Grammar) : Prop where
  not_leftRecursive : ¬ g.LeftRecursive
  not_nullable : ∀ id, ¬ g.NullableRule id
  isPredictive : g.isPredictive = true
  builds : ∀ {id rule}, g.rule id = .ok rule → g.BuildsRule rule

/-- What a rule takes and gives, over the forms of the rules it refers to. -/
def RuleForm (g : Grammar) (D : RuleId → List Token → Node → Prop) (rule : Rule) (us : List Token)
    (node : Node) : Prop :=
  ∃ nodes, Element.FormOf g D rule.elements us nodes ∧ g.listNode rule.kind nodes = .ok node

section RuleForm

variable {g : Grammar} {D : RuleId → List Token → Node → Prop} {kind : NodeKind} {us : List Token}
  {node : Node} (hflat : ∀ node, g.listNode kind [node] = .ok node)
include hflat

theorem ruleForm_choice_iff {ids : List RuleId} :
    g.RuleForm D ⟨kind, [.choice ids]⟩ us node ↔ ∃ id ∈ ids, D id us node := by
  constructor
  · rintro ⟨nodes, ⟨⟨⟨id, hmem, h⟩⟩, ⟨⟩⟩, hnode⟩
    cases (hflat _).symm.trans hnode
    exact ⟨id, hmem, by simpa using h⟩
  · intro h
    exact ⟨[node], .single (SingleForm.intro h), hflat node⟩

theorem ruleForm_tree_iff {id : RuleId} :
    g.RuleForm D ⟨kind, [.tree id]⟩ us node ↔ D id us node := by
  constructor
  · rintro ⟨nodes, ⟨⟨h⟩, ⟨⟩⟩, hnode⟩
    cases (hflat _).symm.trans hnode
    simpa using h
  · intro h
    exact ⟨[node], .single (SingleForm.intro h), hflat node⟩

theorem ruleForm_keep_iff {what : TokenClass} {leaf : NodeKind} :
    g.RuleForm D ⟨kind, [.keep what leaf]⟩ us node ↔ ∃ token, us = [token] ∧
      what.accepts token = true ∧ token.Scannable ∧ g.tokenNode leaf token = .ok node := by
  constructor
  · rintro ⟨nodes, ⟨⟨haccepts, hscannable, hleaf⟩, ⟨⟩⟩, hnode⟩
    cases (hflat _).symm.trans hnode
    exact ⟨_, rfl, haccepts, hscannable, hleaf⟩
  · rintro ⟨token, rfl, haccepts, hscannable, hleaf⟩
    exact ⟨[node], .single (KeptForm.intro haccepts hscannable hleaf), hflat node⟩

end RuleForm

structure Describes (g : Grammar) (D : RuleId → List Token → Node → Prop) : Prop where
  iff : ∀ {id rule us node}, g.rule id = .ok rule → (D id us node ↔ g.RuleForm D rule us node)
  inhabited : ∀ {id rule}, g.rule id = .ok rule → ∃ us node, D id us node

namespace Predictive

variable {g : Grammar} (hg : g.Predictive) {id : RuleId} {rule : Rule} (hrule : g.rule id = .ok rule)
include hg hrule

theorem predictiveRule : g.PredictiveRule id rule := by
  have hid := List.all_eq_true.1 hg.isPredictive id (List.mem_range.2 (lt_size_of_rule hrule))
  rw [hrule] at hid
  exact of_decide_eq_true hid

theorem exists_rule {element : Element} (hmem : element ∈ rule.elements) {other : RuleId}
    (hother : other ∈ element.rules) : ∃ rule, g.rule other = .ok rule :=
  exists_rule_of_lt ((hg.predictiveRule hrule).known element hmem other hother)

theorem exists_required : ∃ element ∈ rule.elements, element.isOptional = false := by
  by_contra hnone
  push Not at hnone
  exact hg.not_nullable id ⟨hrule, fun element hmem =>
    nullableElement_of_isOptional g (by simpa using hnone element hmem)⟩

end Predictive

end Grammar

section Peeks

variable {f : RuleId → ParseM Tape Bool} {begins : RuleId → List TokenClass}

theorem Peeks.startsWith {element : Element} {ends : RuleId → List TokenClass}
    (hdecided : element.isDecided begins ends = true)
    (hf : ∀ id ∈ element.rules, Peeks (f id) (·.isIn (begins id))) :
    Peeks (element.startsWith f) (·.isIn (element.firsts begins)) := by
  cases element with
  | keep what kind | drop what =>
    have heq : (fun token : Token => token.isIn [what]) = what.accepts := by simp
    exact heq ▸ Peeks.accepts what
  | choice ids =>
    have hne : ids ≠ [] := by
      rintro rfl
      cases hdecided
    have heq : (fun token : Token => token.isIn (ids.flatMap begins)) =
        fun token => ids.any fun id => token.isIn (begins id) := by simp
    exact heq ▸ Peeks.anyM hf hne
  | tree id | repeated id once | orEmpty id => exact hf id (by simp [Element.rules])
  | expression kind factor operators => exact hf factor (by simp [Element.rules])

theorem Peeks.allStartWith {elements : List Element}
    (hrequired : ∃ element ∈ elements, element.isOptional = false)
    (hf : ∀ before element after, elements = before ++ element :: after →
      (∀ other ∈ before, other.isOptional = true) →
      Peeks (element.startsWith f) (·.isIn (element.firsts begins))) :
    Peeks (Element.allStartWith f elements) (·.isIn (Element.firstsOf begins elements)) := by
  induction elements with
  | nil => simp at hrequired
  | cons element rest ih =>
    have hfirst := hf [] element rest rfl (by simp)
    refine ⟨fun {tape token} hnext => ?_, fun hahead => ParseM.bind_fails (hfirst.fault hahead)⟩
    rw [Element.allStartWith, ParseM.bind_of_ok (hfirst.next hnext)]
    by_cases hoptional : element.isOptional = true
    · have hrest := ih (by simpa [hoptional] using hrequired) fun before other after heq hbefore =>
        hf (element :: before) other after (by rw [heq]; rfl) (by simpa [hoptional] using hbefore)
      cases hin : token.isIn (element.firsts begins) with
      | true => simp [Element.firstsOf, hin]
      | false => simpa [Element.firstsOf, hin, hoptional] using hrest.next hnext
    · cases hin : token.isIn (element.firsts begins) <;> simp [Element.firstsOf, hin, hoptional]

end Peeks

namespace Grammar

variable {g : Grammar} (hg : g.Predictive) {D : RuleId → List Token → Node → Prop}
include hg

theorem Predictive.peeks {id : RuleId} {rule : Rule} (hrule : g.rule id = .ok rule) :
    Peeks (g.starts id) (·.isIn (g.firsts id)) := by
  refine starts_induction (σ := Tape) hg.not_leftRecursive (motive := fun id p =>
    (∃ rule, g.rule id = .ok rule) → Peeks p (·.isIn (g.firsts id))) ?_ ?_ id ⟨rule, hrule⟩
  · rintro id error herror ⟨rule, hrule⟩
    cases herror.symm.trans hrule
  · intro id rule hrule ih _
    rw [(hg.predictiveRule hrule).firsts]
    refine Peeks.allStartWith (hg.exists_required hrule) fun before element after heq hbefore => ?_
    have hmem : element ∈ rule.elements := by simp [heq]
    refine Peeks.startsWith ((hg.predictiveRule hrule).decided element hmem) fun other hother => ?_
    exact ih other (leftCalls_of_split hrule heq hbefore hother) (hg.exists_rule hrule hmem hother)

theorem Predictive.peeks_of_mem {id : RuleId} {rule : Rule} (hrule : g.rule id = .ok rule)
    {element : Element} (hmem : element ∈ rule.elements) :
    ∀ other ∈ element.rules, Peeks (g.starts other) (·.isIn (g.firsts other)) := by
  intro other hother
  obtain ⟨_, hother⟩ := hg.exists_rule hrule hmem hother
  exact hg.peeks hother

theorem Describes.begins (hD : g.Describes D) {id : RuleId} {rule : Rule} (hrule : g.rule id = .ok rule)
    {us : List Token} {node : Node} (h : D id us node) : Begins (g.firsts id) us := by
  induction hn : g.rank id using Nat.strong_induction_on generalizing id rule us node with
  | _ n ih =>
    obtain ⟨nodes, hform, _⟩ := (hD.iff hrule).1 h
    rw [(hg.predictiveRule hrule).firsts]
    refine (hform.head ?_).resolve_left ?_
    · intro before element after heq hbefore other hother us node hphrase
      have hmem : element ∈ rule.elements := by simp [heq]
      have hcall : g.LeftCalls id other := leftCalls_of_split hrule heq hbefore hother
      obtain ⟨other', hother'⟩ := hg.exists_rule hrule hmem hother
      have hrank := rank_lt hg.not_leftRecursive hcall (lt_size_of_rule hother')
      exact ih _ (hn ▸ hrank) hother' hphrase rfl
    · rintro ⟨_, hoptional⟩
      obtain ⟨element, hmem, hrequired⟩ := hg.exists_required hrule
      have hopt := List.all_eq_true.1 hoptional element hmem
      rw [hrequired] at hopt
      cases hopt

/-- The phrases of the rules that an element refers to begin with tokens of their classes. -/
theorem Describes.begins_of_mem (hD : g.Describes D) {id : RuleId} {rule : Rule}
    (hrule : g.rule id = .ok rule) {element : Element} (hmem : element ∈ rule.elements) :
    ∀ other ∈ element.rules, ∀ us node, D other us node → Begins (g.firsts other) us := by
  intro other hother us node h
  obtain ⟨_, hother⟩ := hg.exists_rule hrule hmem hother
  exact hD.begins hg hother h

end Grammar

end ParseKit
