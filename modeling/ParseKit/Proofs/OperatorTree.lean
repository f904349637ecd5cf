import ParseKit.Node

/-! Binary trees over a chain of operands and operators, and which of them is the grouping of the
chain. `yields l o` says that operator `o`, coming after `l`, belongs to the right operand of `l`.
Grouping an operand with the operators that follow it is a deterministic process that always ends,
and it ends in grouped trees and in all of them. Main statements: `OperatorTree.exists_groups` and
`OperatorTree.Groups.unique`, a chain has one grouped tree, for any relation `yields` at all. -/

namespace ParseKit

/-- A binary tree whose leaves are nodes and whose inner nodes are operator tokens. -/
inductive OperatorTree where
  | operand (node : Node)
  | binary (left : OperatorTree) (operator : Token) (right : OperatorTree)

namespace OperatorTree

def first : OperatorTree → Node
  | operand node => node
  | binary left _ _ => left.first

def rest : OperatorTree → List (Token × Node)
  | operand _ => []
  | binary left operator right => left.rest ++ (operator, right.first) :: right.rest

def leftSpine : OperatorTree → List Token
  | operand _ => []
  | binary left operator _ => operator :: left.leftSpine

def rightSpine : OperatorTree → List Token
  | operand _ => []
  | binary _ operator right => operator :: right.rightSpine

variable (yields : Token → Token → Prop)

/-- At every inner node the operators that end the left subtree do not yield to its operator, and
its operator yields to those that begin the right subtree. -/
def Grouped : OperatorTree → Prop
  | operand _ => True
  | binary left operator right => (∀ l ∈ left.rightSpine, ¬ yields l operator) ∧
      (∀ r ∈ right.leftSpine, yields operator r) ∧ Grouped left ∧ Grouped right

structure Groups (first : Node) (rest : List (Token × Node)) (tree : OperatorTree) : Prop where
  first : tree.first = first
  rest : tree.rest = rest
  grouped : tree.Grouped yields

end OperatorTree

open OperatorTree

section Climbs

variable {yields : Token → Token → Prop}

/-- Extending `left` by the operators of a chain as long as they are admitted, each with a right
operand that is extended by the operators it yields to. -/
inductive Climbs (yields : Token → Token → Prop) : (Token → Prop) → OperatorTree →
    List (Token × Node) → OperatorTree → List (Token × Node) → Prop
  | stop {admits : Token → Prop} {left : OperatorTree} {rest : List (Token × Node)}
    (h : ∀ next ∈ rest.head?, ¬ admits next.1) : Climbs yields admits left rest left rest
  | shift {admits : Token → Prop} {left right tree : OperatorTree} {operator : Token} {node : Node}
    {rest rest₁ rest₂ : List (Token × Node)} (h : admits operator)
    (hright : Climbs yields (yields operator) (operand node) rest right rest₁)
    (hnext : Climbs yields admits (binary left operator right) rest₁ tree rest₂) :
    Climbs yields admits left ((operator, node) :: rest) tree rest₂

namespace Climbs

variable {admits : Token → Prop} {left tree tree' : OperatorTree} {rest rest' : List (Token × Node)}

theorem deterministic {rest₁ rest₂ : List (Token × Node)}
    (h : Climbs yields admits left rest tree rest₁) (h' : Climbs yields admits left rest tree' rest₂) :
    tree = tree' ∧ rest₁ = rest₂ := by
  induction h generalizing tree' rest₂ with
  | stop h =>
    cases h' with
    | stop => exact ⟨rfl, rfl⟩
    | shift hadmits => exact absurd hadmits (h _ rfl)
  | shift hadmits _ _ ihright ihnext =>
    cases h' with
    | stop h => exact absurd hadmits (h _ rfl)
    | shift _ hright hnext =>
      obtain ⟨rfl, rfl⟩ := ihright hright
      exact ihnext hnext

/-- The chain is kept, and the process stops before an operator that is not admitted. -/
theorem reads (h : Climbs yields admits left rest tree rest') : tree.first = left.first ∧
    left.rest ++ rest = tree.rest ++ rest' ∧ ∀ next ∈ rest'.head?, ¬ admits next.1 := by
  induction h with
  | stop h => exact ⟨rfl, rfl, h⟩
  | shift _ _ _ ihright ihnext =>
    obtain ⟨hfirst, hrest, _⟩ := ihright
    obtain ⟨hfirst', hrest', hstop⟩ := ihnext
    refine ⟨hfirst', ?_, hstop⟩
    rw [← hrest']
    simp only [OperatorTree.first, OperatorTree.rest] at hfirst hrest ⊢
    simp [hfirst, ← hrest]

/-- What is reached is grouped, and no operator at its right end yields to the next one. -/
theorem grouped (h : Climbs yields admits left rest tree rest') (hleft : left.Grouped yields)
    (hend : ∀ next ∈ rest.head?, ∀ l ∈ left.rightSpine, ¬ yields l next.1)
    (hstart : ∀ o ∈ left.leftSpine, admits o) :
    tree.Grouped yields ∧ (∀ next ∈ rest'.head?, ∀ l ∈ tree.rightSpine, ¬ yields l next.1) ∧
      ∀ o ∈ tree.leftSpine, admits o := by
  induction h with
  | stop => exact ⟨hleft, hend, hstart⟩
  | shift hadmits hright _ ihright ihnext =>
    obtain ⟨hgrouped, hright', hspine⟩ :=
      ihright trivial (by simp [rightSpine]) (by simp [leftSpine])
    refine ihnext ⟨fun l hl => hend _ rfl l hl, hspine, hleft, hgrouped⟩ ?_ ?_
    · intro next hnext l hl
      rcases List.mem_cons.1 hl with rfl | hl
      · exact hright.reads.2.2 next hnext
      · exact hright' next hnext l hl
    · intro o ho
      rcases List.mem_cons.1 ho with rfl | ho
      · exact hadmits
      · exact hstart o ho

/-- The process ends, since every operator that is shifted leaves a shorter chain. -/
theorem total (yields : Token → Token → Prop) (admits : Token → Prop) (left : OperatorTree)
    (rest : List (Token × Node)) : ∃ tree rest', rest'.length ≤ rest.length ∧
      Climbs yields admits left rest tree rest' := by
  induction hn : rest.length using Nat.strongRecOn generalizing admits left rest with
  | ind n ih =>
    rcases rest with _ | ⟨⟨operator, node⟩, rest⟩
    · exact ⟨left, [], hn ▸ Nat.le_refl _, .stop (by simp)⟩
    · by_cases h : admits operator
      · have hlt : rest.length < n := by simp [← hn]
        obtain ⟨right, rest₁, hle₁, hright⟩ := ih _ hlt (yields operator) (operand node) rest rfl
        obtain ⟨tree, rest₂, hle₂, hnext⟩ :=
          ih _ (Nat.lt_of_le_of_lt hle₁ hlt) admits (binary left operator right) rest₁ rfl
        exact ⟨tree, rest₂, by omega, .shift h hright hnext⟩
      · exact ⟨left, _, hn ▸ Nat.le_refl _, .stop (by simpa using h)⟩

end Climbs

/-- The process comes through every grouped tree, if the operators on its left spine are admitted
and those on its right spine do not yield to what follows. -/
theorem OperatorTree.Grouped.climbs {tree : OperatorTree} (h : tree.Grouped yields)
    {admits : Token → Prop} {rest : List (Token × Node)} (hstart : ∀ o ∈ tree.leftSpine, admits o)
    (hend : ∀ next ∈ rest.head?, ∀ l ∈ tree.rightSpine, ¬ yields l next.1)
    {result : OperatorTree} {rest' : List (Token × Node)}
    (hresult : Climbs yields admits tree rest result rest') :
    Climbs yields admits (operand tree.first) (tree.rest ++ rest) result rest' := by
  induction tree generalizing admits rest result rest' with
  | operand node => exact hresult
  | binary left operator right ihleft ihright =>
    obtain ⟨hl, hr, hleft, hright⟩ := h
    rw [OperatorTree.rest, List.append_assoc]
    refine ihleft hleft (fun o ho => hstart o (List.mem_cons_of_mem _ ho)) ?_ ?_
    · rintro next ⟨⟩ l hmem
      exact hl l hmem
    · have hstop : ∀ next ∈ rest.head?, ¬ yields operator next.1 :=
        fun next hnext => hend next hnext operator (by simp [rightSpine])
      have hclimbs := ihright hright hr
        (fun next hnext l hmem => hend next hnext l (List.mem_cons_of_mem _ hmem)) (.stop hstop)
      exact .shift (hstart operator (by simp [leftSpine])) hclimbs hresult

end Climbs

namespace OperatorTree

variable {yields : Token → Token → Prop}

theorem Grouped.climbs_all {tree : OperatorTree} (h : tree.Grouped yields) :
    Climbs yields (fun _ => True) (operand tree.first) tree.rest tree [] := by
  have hstop : Climbs yields (fun _ => True) tree [] tree [] := .stop (by simp)
  simpa using h.climbs (fun _ _ => trivial) (by simp) hstop

theorem exists_groups (yields : Token → Token → Prop) (first : Node) (rest : List (Token × Node)) :
    ∃ tree, Groups yields first rest tree := by
  obtain ⟨tree, rest', _, hclimbs⟩ := Climbs.total yields (fun _ => True) (operand first) rest
  obtain ⟨hfirst, hrest, hstop⟩ := hclimbs.reads
  obtain rfl : rest' = [] := by
    rcases rest' with _ | ⟨next, rest'⟩
    · rfl
    · exact absurd trivial (hstop next rfl)
  refine ⟨tree, hfirst, ?_, (hclimbs.grouped trivial (by simp [rightSpine]) fun _ _ => trivial).1⟩
  simpa [OperatorTree.rest] using hrest.symm

variable {first : Node} {rest : List (Token × Node)} {tree tree' : OperatorTree}

theorem Groups.climbs (h : Groups yields first rest tree) :
    Climbs yields (fun _ => True) (operand first) rest tree [] := by
  rw [← h.first, ← h.rest]
  exact h.grouped.climbs_all

theorem Groups.unique (h : Groups yields first rest tree) (h' : Groups yields first rest tree') :
    tree = tree' :=
  (h.climbs.deterministic h'.climbs).1

end OperatorTree

end ParseKit
