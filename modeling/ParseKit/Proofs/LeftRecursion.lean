import Mathlib.Data.Finset.Filter
import Mathlib.Data.Finset.Range
import Mathlib.Data.Finset.Card
import Mathlib.Logic.Relation
import ParseKit.Proofs.Running

/-! Left recursion. A rule calls another on the left when the call may come before any token is
taken. Without a cycle of such calls the rules have a rank that every left call lowers, and looking
ahead runs out of no depth that is greater than the rank. Main statement: `Grammar.starts_eq`,
the lookahead of a rule is that of its elements. -/

namespace ParseKit

namespace Grammar

mutual

/-- An element that may be passed without a token. -/
inductive NullableElement (g : Grammar) : Element → Prop
  | repeated (id : RuleId) (once : Bool) : NullableElement g (.repeated id once)
  | orEmpty (id : RuleId) : NullableElement g (.orEmpty id)
  | tree {id : RuleId} (h : NullableRule g id) : NullableElement g (.tree id)
  | choice {ids : List RuleId} {id : RuleId} (hmem : id ∈ ids) (h : NullableRule g id) :
    NullableElement g (.choice ids)
  | expression {kind : NodeKind} {factor : RuleId} {operators : Operators}
    (h : NullableRule g factor) : NullableElement g (.expression kind factor operators)

inductive NullableRule (g : Grammar) : RuleId → Prop
  | all {id : RuleId} {rule : Rule} (hrule : g.rule id = .ok rule)
    (h : ∀ element ∈ rule.elements, NullableElement g element) : NullableRule g id

end

/-- The element may be reached by the rule before any token is taken. -/
def Opens (g : Grammar) (id : RuleId) (element : Element) : Prop :=
  ∃ rule before after, g.rule id = .ok rule ∧ rule.elements = before ++ element :: after ∧
    ∀ other ∈ before, g.NullableElement other

/-- The first rule may call the second before any token is taken. -/
def LeftCalls (g : Grammar) (id other : RuleId) : Prop :=
  ∃ element, g.Opens id element ∧ other ∈ element.rules

/-- A rule comes back to itself before any token is taken. -/
def LeftRecursive (g : Grammar) : Prop :=
  ∃ id, Relation.TransGen g.LeftCalls id id

theorem rule_eq_ok_iff {g : Grammar} {id : RuleId} {rule : Rule} :
    g.rule id = .ok rule ↔ ∃ name, g.rules[id]? = some ⟨name, rule⟩ := by
  unfold Grammar.rule
  split
  · next named h => cases named; simp [h, eq_comm]
  · next h => simp [h]

theorem lt_size_of_rule {g : Grammar} {id : RuleId} {rule : Rule} (h : g.rule id = .ok rule) :
    id < g.size := by
  obtain ⟨name, hname⟩ := rule_eq_ok_iff.1 h
  exact (Array.getElem?_eq_some_iff.1 hname).1

theorem exists_rule_of_lt {g : Grammar} {id : RuleId} (h : id < g.size) : ∃ rule, g.rule id = .ok rule := by
  refine ⟨g.rules[id].rule, rule_eq_ok_iff.2 ⟨g.rules[id].name, ?_⟩⟩
  exact Array.getElem?_eq_getElem h

theorem rule_of_le {g : Grammar} {id : RuleId} (h : g.size ≤ id) :
    g.rule id = .error (.unknownRule id) := by
  simp [Grammar.rule, Array.getElem?_eq_none h]

theorem nullableElement_of_isOptional (g : Grammar) {element : Element}
    (h : element.isOptional = true) : g.NullableElement element := by
  cases element with
  | repeated id once => exact .repeated id once
  | orEmpty id => exact .orEmpty id
  | keep | drop | tree | choice | expression => cases h

theorem Opens.leftCalls {g : Grammar} {id other : RuleId} {element : Element}
    (h : g.Opens id element) (hmem : other ∈ element.rules) : g.LeftCalls id other :=
  ⟨element, h, hmem⟩

theorem leftCalls_of_split {g : Grammar} {id other : RuleId} {rule : Rule} (hrule : g.rule id = .ok rule)
    {before after : List Element} {element : Element} (heq : rule.elements = before ++ element :: after)
    (hbefore : ∀ first ∈ before, first.isOptional = true) (hmem : other ∈ element.rules) :
    g.LeftCalls id other :=
  ⟨element, ⟨rule, before, after, hrule, heq,
    fun first hfirst => nullableElement_of_isOptional g (hbefore first hfirst)⟩, hmem⟩

open Classical in
noncomputable def rank (g : Grammar) (id : RuleId) : Nat :=
  ((Finset.range g.size).filter fun other => Relation.TransGen g.LeftCalls id other).card

theorem rank_lt {g : Grammar} (hg : ¬ g.LeftRecursive) {id other : RuleId}
    (h : g.LeftCalls id other) (hknown : other < g.size) : g.rank other < g.rank id := by
  refine Finset.card_lt_card (Finset.ssubset_iff_of_subset ?_ |>.2 ⟨other, ?_, ?_⟩)
  · intro third hthird
    simp only [Finset.mem_filter] at hthird ⊢
    exact ⟨hthird.1, .head h hthird.2⟩
  · simpa [hknown] using Relation.TransGen.single h
  · simpa using fun _ hcycle => hg ⟨other, hcycle⟩

open Classical in
theorem rank_lt_size {g : Grammar} (hg : ¬ g.LeftRecursive) {id : RuleId} (hid : id < g.size) :
    g.rank id < g.size := by
  have hss : ((Finset.range g.size).filter fun other => Relation.TransGen g.LeftCalls id other) ⊂
      Finset.range g.size := by
    refine Finset.ssubset_iff_of_subset (Finset.filter_subset _ _) |>.2 ⟨id, by simpa using hid, ?_⟩
    simpa using fun _ hcycle => hg ⟨id, hcycle⟩
  simpa [rank] using Finset.card_lt_card hss

/-- The rules that are called before the first element that is not optional is passed. -/
def leftRules : List Element → List RuleId
  | [] => []
  | element :: rest => element.rules ++ if element.isOptional then leftRules rest else []

/-- A check that needs no closure: every rule has an element that is not optional, and the calls up
to it lower the measure. -/
def Descends (g : Grammar) (measure : RuleId → Nat) : Bool :=
  (List.range g.size).all fun id =>
    match g.rule id with
    | .ok rule => rule.elements.any (!·.isOptional) &&
        (leftRules rule.elements).all (measure · < measure id)
    | .error _ => true

def RefersBack (g : Grammar) : Bool :=
  (List.range g.size).all fun id =>
    match g.rule id with
    | .ok rule => rule.elements.all fun element => element.rules.all (· < id)
    | .error _ => true

section Descends

variable {g : Grammar} {measure : RuleId → Nat}

theorem not_leftRecursive_of_lt (h : ∀ {id other}, g.LeftCalls id other → measure other < measure id) :
    ¬ g.LeftRecursive := by
  rintro ⟨id, hcycle⟩
  have hlt : measure id < measure id := by
    refine Relation.TransGen.trans_induction_on (motive := fun {a b} _ => measure b < measure a)
      hcycle h fun _ _ hab hbc => hbc.trans hab
  exact Nat.lt_irrefl _ hlt

theorem descends_rule (h : g.Descends measure = true) {id : RuleId} {rule : Rule}
    (hrule : g.rule id = .ok rule) : (∃ element ∈ rule.elements, element.isOptional = false) ∧
      ∀ other ∈ leftRules rule.elements, measure other < measure id := by
  have hid := List.all_eq_true.1 h id (List.mem_range.2 (lt_size_of_rule hrule))
  simpa [hrule] using hid

theorem exists_rules_of_nullableElement {element : Element} (h : g.NullableElement element)
    (hrequired : element.isOptional = false) : ∃ id ∈ element.rules, g.NullableRule id := by
  cases h with
  | repeated | orEmpty => cases hrequired
  | tree h => exact ⟨_, by simp [Element.rules], h⟩
  | choice hmem h => exact ⟨_, hmem, h⟩
  | expression h => exact ⟨_, by simp [Element.rules], h⟩

theorem exists_required {elements : List Element}
    (h : ∃ element ∈ elements, element.isOptional = false) :
    ∃ element ∈ elements, element.isOptional = false ∧ ∀ id ∈ element.rules, id ∈ leftRules elements := by
  induction elements with
  | nil => simp at h
  | cons first rest ih =>
    by_cases hfirst : first.isOptional = true
    · obtain ⟨element, hmem, hrequired, hrules⟩ := ih (by simpa [hfirst] using h)
      refine ⟨element, List.mem_cons_of_mem _ hmem, hrequired, fun id hid => ?_⟩
      simpa [leftRules, hfirst] using Or.inr (hrules id hid)
    · exact ⟨first, by simp, by simpa using hfirst, fun id hid => by simp [leftRules, hid]⟩

theorem not_nullableRule_of_descends (h : g.Descends measure = true) (id : RuleId) :
    ¬ g.NullableRule id := by
  induction hn : measure id using Nat.strong_induction_on generalizing id with
  | _ n ih =>
    rintro ⟨hrule, hnullable⟩
    obtain ⟨hrequired, hmeasure⟩ := descends_rule h hrule
    obtain ⟨element, hmem, hreq, hrules⟩ := exists_required hrequired
    obtain ⟨other, hother, hnull⟩ :=
      exists_rules_of_nullableElement (hnullable element hmem) hreq
    exact ih _ (hn ▸ hmeasure other (hrules other hother)) other rfl hnull

/-- Where no rule is nullable, only optional elements are passed over. -/
theorem mem_leftRules (hnone : ∀ id, ¬ g.NullableRule id) {before after : List Element}
    {element : Element} (hbefore : ∀ other ∈ before, g.NullableElement other) {id : RuleId}
    (hid : id ∈ element.rules) : id ∈ leftRules (before ++ element :: after) := by
  induction before with
  | nil => simp [leftRules, hid]
  | cons first before ih =>
    obtain ⟨hfirst, hrest⟩ := List.forall_mem_cons.1 hbefore
    have hoptional : first.isOptional = true := by
      by_contra hrequired
      obtain ⟨other, _, hnull⟩ := exists_rules_of_nullableElement hfirst (by simpa using hrequired)
      exact hnone other hnull
    simpa [leftRules, hoptional] using Or.inr (ih hrest)

theorem leftCalls_lt_of_descends (h : g.Descends measure = true) {id other : RuleId}
    (hcall : g.LeftCalls id other) : measure other < measure id := by
  obtain ⟨element, ⟨rule, before, after, hrule, hsplit, hbefore⟩, hmem⟩ := hcall
  refine (descends_rule h hrule).2 other ?_
  rw [hsplit]
  exact mem_leftRules (not_nullableRule_of_descends h) hbefore hmem

theorem not_leftRecursive_of_descends (h : g.Descends measure = true) : ¬ g.LeftRecursive :=
  not_leftRecursive_of_lt fun hcall => leftCalls_lt_of_descends h hcall

/-- Such rules are not left-recursive, also when some of them may take nothing. -/
theorem not_leftRecursive_of_refersBack (h : g.RefersBack = true) : ¬ g.LeftRecursive := by
  have hlower : ∀ {id other}, g.LeftCalls id other → other < id := by
    rintro id other ⟨element, ⟨rule, before, after, hrule, hsplit, _⟩, hmem⟩
    have hid := List.all_eq_true.1 h id (List.mem_range.2 (lt_size_of_rule hrule))
    simp only [hrule, List.all_eq_true, decide_eq_true_eq] at hid
    exact hid element (by simp [hsplit]) other hmem
  exact not_leftRecursive_of_lt hlower

end Descends

end Grammar

section Lookahead

variable {σ : Type} {f f' : RuleId → ParseM σ Bool}

theorem anyM_congr {ids : List RuleId} (h : ∀ id ∈ ids, f id = f' id) :
    ids.anyM f = ids.anyM f' := by
  induction ids with
  | nil => rfl
  | cons id ids ih =>
    simp only [List.anyM, h id (by simp), ih fun other hmem => h other (by simp [hmem])]

variable [TokenStream σ]

theorem Element.startsWith_congr {element : Element} (h : ∀ id ∈ element.rules, f id = f' id) :
    element.startsWith f = element.startsWith f' := by
  cases element with
  | choice ids => exact anyM_congr h
  | tree id | repeated id once | orEmpty id => exact h id (by simp [Element.rules])
  | expression kind factor operators => exact h factor (by simp [Element.rules])
  | keep what kind | drop what => rfl

theorem Element.allStartWith_congr {elements : List Element}
    (h : ∀ before element after, elements = before ++ element :: after →
      (∀ other ∈ before, other.isOptional = true) → ∀ id ∈ element.rules, f id = f' id) :
    allStartWith f elements = allStartWith f' elements := by
  induction elements with
  | nil => rfl
  | cons element rest ih =>
    have hhead := startsWith_congr (h [] element rest rfl (by simp))
    simp only [allStartWith, hhead]
    by_cases hopt : element.isOptional = true
    · have htail := ih fun before other after heq hbefore =>
        h (element :: before) other after (by rw [heq]; rfl) (by simpa [hopt] using hbefore)
      simp only [htail]
    · simp only [hopt, Bool.false_eq_true, if_false]

namespace Grammar

variable {g : Grammar}

theorem startsWithin_of_le {id : RuleId} {depth depth' : Nat} (h : g.size ≤ id) :
    (g.startsWithin depth id : ParseM σ Bool) = g.startsWithin depth' id := by
  cases depth <;> cases depth' <;>
    simp only [startsWithin, rule_of_le h, ParseM.ofGrammar_error_bind]

variable (hg : ¬ g.LeftRecursive)
include hg

theorem startsWithin_eq {id : RuleId} {depth depth' : Nat} (h : g.rank id < depth)
    (h' : g.rank id < depth') :
    (g.startsWithin depth id : ParseM σ Bool) = g.startsWithin depth' id := by
  induction depth generalizing id depth' with
  | zero => cases h
  | succ depth ih =>
    obtain _ | depth' := depth'
    · cases h'
    simp only [startsWithin]
    cases hrule : g.rule id with
    | error error => rfl
    | ok rule =>
      simp only [ParseM.ofGrammar_ok_bind]
      refine Element.allStartWith_congr fun before element after heq hbefore other hmem => ?_
      have hcall : g.LeftCalls id other := leftCalls_of_split hrule heq hbefore hmem
      by_cases hknown : other < g.size
      · have hrank := rank_lt hg hcall hknown
        exact ih (by omega) (by omega)
      · exact startsWithin_of_le (Nat.le_of_not_lt hknown)

/-- A depth of more than the number of rules is enough to look ahead. -/
theorem startsWithin_eq_starts {depth : Nat} (h : g.size < depth) (id : RuleId) :
    (g.startsWithin depth id : ParseM σ Bool) = g.starts id := by
  by_cases hknown : id < g.size
  · have hrank := rank_lt_size hg hknown
    exact startsWithin_eq hg (Nat.lt_trans hrank h) (Nat.lt_succ_of_lt hrank)
  · exact startsWithin_of_le (Nat.le_of_not_lt hknown)

theorem starts_eq (id : RuleId) : (g.starts id : ParseM σ Bool) =
    ParseM.ofGrammar (g.rule id) >>= fun rule => Element.allStartWith g.starts rule.elements := by
  rw [starts, startsWithin]
  refine congrArg (ParseM.ofGrammar (g.rule id) >>= ·) (funext fun rule => ?_)
  refine Element.allStartWith_congr fun _ _ _ _ _ other _ => ?_
  by_cases hknown : other < g.size
  · have hrank := rank_lt_size hg hknown
    exact startsWithin_eq hg hrank (Nat.lt_succ_of_lt hrank)
  · exact startsWithin_of_le (Nat.le_of_not_lt hknown)

/-- A property of all lookaheads follows when it passes from the rules that a rule calls on the
left to the rule. -/
theorem starts_induction {motive : RuleId → ParseM σ Bool → Prop}
    (unknown : ∀ id error, g.rule id = .error error → motive id (throw (.grammar error)))
    (rule : ∀ id rule, g.rule id = .ok rule →
      (∀ other, g.LeftCalls id other → motive other (g.starts other)) →
      motive id (Element.allStartWith g.starts rule.elements)) (id : RuleId) :
    motive id (g.starts id) := by
  induction hn : g.rank id using Nat.strong_induction_on generalizing id with
  | _ n ih =>
    rw [starts_eq hg]
    cases hrule : g.rule id with
    | error error => exact unknown id error hrule
    | ok r =>
      refine rule id r hrule fun other hcall => ?_
      by_cases hknown : other < g.size
      · exact ih _ (hn ▸ rank_lt hg hcall hknown) other rfl
      · have herror := rule_of_le (Nat.le_of_not_lt hknown)
        rw [starts_eq hg, herror]
        exact unknown other _ herror

end Grammar

end Lookahead

end ParseKit
