import ParseKit.Factory
import ParseKit.Grammar.Rule

/-! Grammars and how they are put together. A draft collects rules, which may be declared before
they are defined, and builders for their nodes. Building it checks that every rule is defined and
refers to rules that exist, and resolves the builder of every kind that the rules mention, so that
a broken grammar fails here and not in the middle of a parse. -/

namespace ParseKit

structure Slot where
  name : String
  rule? : Option Rule

structure Draft where
  slots : Array Slot := #[]
  registry : Registry := .initial

namespace Draft

def declare (draft : Draft) (name : String) : RuleId × Draft :=
  (draft.slots.size, { draft with slots := draft.slots.push ⟨name, none⟩ })

def addNamed (draft : Draft) (name : String) (rule : Rule) : RuleId × Draft :=
  (draft.slots.size, { draft with slots := draft.slots.push ⟨name, some rule⟩ })

def add (draft : Draft) (rule : Rule) : RuleId × Draft :=
  draft.addNamed s!"#{draft.slots.size}" rule

def define (draft : Draft) (id : RuleId) (rule : Rule) : Except GrammarError Draft :=
  match draft.slots[id]? with
  | some slot =>
    .ok { draft with slots := draft.slots.setIfInBounds id { slot with rule? := some rule } }
  | none => .error (.unknownRule id)

/-- The rule with one more alternative in front, if it starts with an alternation. -/
def withChoice? (alternative : RuleId) (rule : Rule) : Option Rule :=
  match rule.elements with
  | .choice rules :: rest => some { rule with elements := .choice (alternative :: rules) :: rest }
  | _ => none

/-- Makes `alternative` the first option of the alternation that rule `target` starts with. -/
def insertChoice (draft : Draft) (target alternative : RuleId) : Except GrammarError Draft :=
  match draft.slots[target]? with
  | none => .error (.unknownRule target)
  | some slot =>
    match slot.rule?.bind (withChoice? alternative) with
    | some rule => draft.define target rule
    | none => .error (.notAnAlternation slot.name)

def registering (draft : Draft) (change : Registry → Registry) : Draft :=
  { draft with registry := change draft.registry }

end Draft

structure NamedRule where
  name : String
  rule : Rule

structure Grammar where
  rules : Array NamedRule
  tokens : Table NodeKind (Factory Token)
  lists : Table NodeKind (Factory (List Node))

namespace Grammar

def size (g : Grammar) : Nat :=
  g.rules.size

def ruleName? (g : Grammar) (id : RuleId) : Option String :=
  g.rules[id]?.map (·.name)

def rule (g : Grammar) (id : RuleId) : Except GrammarError Rule :=
  match g.rules[id]? with
  | some named => .ok named.rule
  | none => .error (.unknownRule id)

def tokenFactory (g : Grammar) (kind : NodeKind) : Except GrammarError (Factory Token) :=
  match g.tokens.get? kind with
  | some factory => .ok factory
  | none => .error (.missingFactory kind .token)

def listFactory (g : Grammar) (kind : NodeKind) : Except GrammarError (Factory (List Node)) :=
  match g.lists.get? kind with
  | some factory => .ok factory
  | none => .error (.missingFactory kind .list)

end Grammar

namespace Draft

abbrev BuildM := ExceptT GrammarError (StateM Registry)

def resolveToken (kind : NodeKind) : BuildM (Factory Token) :=
  fun registry => registry.resolveToken kind

def resolveList (kind : NodeKind) : BuildM (Factory (List Node)) :=
  fun registry => registry.resolveList kind

/-- Resolves a kind of lists and keeps the builder, unless the grammar has one for it. -/
def addListKind (g : Grammar) (kind : NodeKind) : BuildM Grammar := do
  let factory ← resolveList kind
  return { g with lists := g.lists.insertIfNew kind factory }

/-- Resolves a kind of tokens and keeps the builder, unless the grammar has one for it. -/
def addTokenKind (g : Grammar) (kind : NodeKind) : BuildM Grammar := do
  let factory ← resolveToken kind
  return { g with tokens := g.tokens.insertIfNew kind factory }

/-- Checks one element of a grammar of `count` rules. -/
def addElement (count : Nat) (g : Grammar) (element : Element) : BuildM Grammar := do
  if let some id := element.rules.find? (count ≤ ·) then
    throw (.unknownRule id)
  let g ← element.listKinds.foldlM addListKind g
  element.tokenKinds.foldlM addTokenKind g

/-- Checks one rule of a grammar of `count` rules. -/
def addSlot (count : Nat) (g : Grammar) (slot : Slot) : BuildM Grammar := do
  match slot.rule? with
  | none => throw (.undefinedRule slot.name)
  | some rule =>
    let g ← addListKind g rule.kind
    let g ← rule.elements.foldlM (addElement count) g
    return { g with rules := g.rules.push ⟨slot.name, rule⟩ }

def buildM (draft : Draft) : BuildM Grammar := do
  let g ← draft.slots.foldlM (addSlot draft.slots.size) ⟨#[], ∅, ∅⟩
  modify (·.debug <| s!"grammar built: {g.size} rules, {g.tokens.size} token kinds, " ++
    s!"{g.lists.size} list kinds")
  return g

/-- The grammar of a draft, or its first defect, and the registry with what was resolved. -/
def build (draft : Draft) : Except GrammarError Grammar × Registry :=
  draft.buildM draft.registry

end Draft

end ParseKit
