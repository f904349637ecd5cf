import Mathlib.Logic.Relation
import ParseKit.Proofs.Resolution
import ParseKit.Proofs.Widening

/-! Extending a grammar in the making. Rules and builders are added to a draft, and one of the new rules
is made an alternative of an old one. Main statement: `Grammar.insertChoice_conservative`, an alternative
that starts with a word which the source does not have is as good as none. -/

namespace ParseKit

theorem Table.get?_insertIfNew_eq_some {κ α : Type} [DecidableEq κ] {t : Table κ α} {key other : κ}
    {value found : α} (h : (t.insertIfNew key value).get? other = some found) :
    t.get? other = some found ∨ other = key ∧ found = value := by
  unfold insertIfNew at h
  split at h
  · exact .inl h
  · by_cases hother : other = key
    · rw [hother, get?_insert_self] at h
      exact .inr ⟨hother, (Option.some.inj h).symm⟩
    · rw [get?_insert_of_ne t value hother] at h
      exact .inl h

namespace Shelf

variable {α : Type}

def find? (shelf : Shelf α) (fallback? : Option (Builder α)) (kind : NodeKind) : Option (Factory α) :=
  shelf.resolved.get? kind <|> (shelf.registered? kind <|> fallback?).map (Factory.mk kind)

variable (shelf : Shelf α) {fallback? : Option (Builder α)} {kind other : NodeKind} {build : Builder α}

theorem find?_remember (hnew : shelf.resolved.get? kind = none) (fallback? : NodeKind → Option (Builder α))
    (hbuild : (shelf.registered? kind <|> fallback? kind) = some build) :
    (shelf.remember ⟨kind, build⟩).find? (fallback? other) other = shelf.find? (fallback? other) other := by
  by_cases hother : other = kind
  · subst hother
    simp [find?, remember, hnew, hbuild]
  · simp only [find?, remember, registered?, Table.get?_insert_of_ne _ _ hother]

theorem find?_forget_of_ne (hother : other ≠ kind) :
    (shelf.forget kind).find? fallback? other = shelf.find? fallback? other := by
  simp only [find?, forget, registered?, Table.get?_erase_of_ne _ hother]

theorem find?_addBuilder_of_ne (hother : other ≠ kind) :
    (shelf.addBuilder kind build).find? fallback? other = shelf.find? fallback? other := by
  simp only [find?, addBuilder, forget, registered?, Table.get?_erase_of_ne _ hother,
    Table.get?_insert_of_ne _ _ hother]

theorem find?_addConstructor_of_ne (hother : other ≠ kind) :
    (shelf.addConstructor kind build).find? fallback? other = shelf.find? fallback? other := by
  simp only [find?, addConstructor, forget, registered?, Table.get?_erase_of_ne _ hother,
    Table.get?_insert_of_ne _ _ hother]

end Shelf

namespace Registry

def token? (registry : Registry) (kind : NodeKind) : Option (Factory Token) :=
  registry.tokens.find? none kind

def list? (registry : Registry) (kind : NodeKind) : Option (Factory (List Node)) :=
  registry.lists.find? (registry.default? kind) kind

variable {registry other : Registry} {kind : NodeKind}

theorem resolveToken_eq_ok {factory : Factory Token} :
    (registry.resolveToken kind).1 = .ok factory ↔ registry.token? kind = some factory := by
  rw [resolveToken, token?, Shelf.find?]
  cases registry.tokens.resolved.get? kind with
  | some _ => simp
  | none => cases registry.tokens.registered? kind <;> simp

theorem resolveList_eq_ok {factory : Factory (List Node)} :
    (registry.resolveList kind).1 = .ok factory ↔ registry.list? kind = some factory := by
  rw [resolveList, list?, Shelf.find?]
  cases registry.lists.resolved.get? kind with
  | some _ => simp
  | none => cases (registry.lists.registered? kind <|> registry.default? kind) <;> simp

theorem token?_apply {registration : Registration}
    (h : (.token, kind) ≠ (registration.shape, registration.kind)) :
    (registration.apply registry).token? kind = registry.token? kind := by
  cases registration with
  | default | listBuilder | listConstructor => rfl
  | leaf other | tokenConstructor other =>
    have hother : kind ≠ other := fun heq => h (by rw [heq]; rfl)
    exact Shelf.find?_addConstructor_of_ne _ hother
  | tokenBuilder other =>
    have hother : kind ≠ other := fun heq => h (by rw [heq]; rfl)
    exact Shelf.find?_addBuilder_of_ne _ hother

theorem list?_apply {registration : Registration}
    (h : (.list, kind) ≠ (registration.shape, registration.kind)) :
    (registration.apply registry).list? kind = registry.list? kind := by
  cases registration with
  | leaf | tokenBuilder | tokenConstructor => rfl
  | listConstructor other =>
    have hother : kind ≠ other := fun heq => h (by rw [heq]; rfl)
    exact Shelf.find?_addConstructor_of_ne _ hother
  | listBuilder other =>
    have hother : kind ≠ other := fun heq => h (by rw [heq]; rfl)
    exact Shelf.find?_addBuilder_of_ne _ hother
  | default other =>
    have hother : kind ≠ other := fun heq => h (by rw [heq]; rfl)
    have hdefault : (registry.addDefault other).default? kind = registry.default? kind := by
      simp [default?, addDefault, hother]
    rw [Registration.apply, list?, hdefault]
    exact Shelf.find?_forget_of_ne _ hother

structure Agrees (registry other : Registry) : Prop where
  token? : ∀ kind, other.token? kind = registry.token? kind
  list? : ∀ kind, other.list? kind = registry.list? kind

theorem Agrees.trans {third : Registry} (h : registry.Agrees other) (h' : other.Agrees third) :
    registry.Agrees third :=
  ⟨fun kind => (h'.token? kind).trans (h.token? kind), fun kind => (h'.list? kind).trans (h.list? kind)⟩

variable (registry)

theorem agrees_resolveToken (kind : NodeKind) : registry.Agrees (registry.resolveToken kind).2 := by
  unfold resolveToken
  cases hresolved : registry.tokens.resolved.get? kind with
  | some factory => exact ⟨fun _ => rfl, fun _ => rfl⟩
  | none =>
    cases hregistered : registry.tokens.registered? kind with
    | none => exact ⟨fun _ => rfl, fun _ => rfl⟩
    | some build =>
      refine ⟨fun other => ?_, fun _ => rfl⟩
      exact Shelf.find?_remember registry.tokens hresolved (fun _ => none) (by simp [hregistered])

theorem agrees_resolveList (kind : NodeKind) : registry.Agrees (registry.resolveList kind).2 := by
  unfold resolveList
  cases hresolved : registry.lists.resolved.get? kind with
  | some factory => exact ⟨fun _ => rfl, fun _ => rfl⟩
  | none =>
    cases hregistered : (registry.lists.registered? kind <|> registry.default? kind) with
    | none => exact ⟨fun _ => rfl, fun _ => rfl⟩
    | some build =>
      refine ⟨fun _ => rfl, fun other => ?_⟩
      exact Shelf.find?_remember registry.lists hresolved registry.default? hregistered

end Registry

structure Grammar.Draws (g : Grammar) (registry : Registry) : Prop where
  tokens : ∀ {kind factory}, g.tokens.get? kind = some factory → registry.token? kind = some factory
  lists : ∀ {kind factory}, g.lists.get? kind = some factory → registry.list? kind = some factory

namespace Draft

/-- The step takes nothing from a registry that resolves like the given one but what this one resolves,
and leaves one that resolves like it. -/
def Consults {α : Type} (registry : Registry) (m : BuildM α) (P : α → Prop) : Prop :=
  ∀ r, registry.Agrees r → registry.Agrees (m r).2 ∧ ∀ a, (m r).1 = .ok a → P a

namespace Consults

variable {registry : Registry} {α β : Type} {P : α → Prop} {Q : β → Prop}

theorem pure {a : α} (h : P a) : Consults registry (Pure.pure a) P := by
  intro r hr
  refine ⟨hr, fun b hb => ?_⟩
  cases hb
  exact h

theorem throw (error : GrammarError) : Consults registry (MonadExcept.throw error : BuildM α) P := by
  intro r hr
  refine ⟨hr, fun a ha => ?_⟩
  cases ha

theorem bind {m : BuildM α} {f : α → BuildM β} (hm : Consults registry m P)
    (hf : ∀ a, P a → Consults registry (f a) Q) : Consults registry (m >>= f) Q := by
  intro r hr
  obtain ⟨hr', hP⟩ := hm r hr
  rw [run_bind]
  rcases h : m r with ⟨error | a, r'⟩ <;> rw [h] at hr' hP
  · exact ⟨hr', fun b hb => by cases hb⟩
  · exact hf a (hP a rfl) r' hr'

theorem foldlM {f : β → α → BuildM β} (hf : ∀ b a, Q b → Consults registry (f b a) Q) (l : List α) {b : β}
    (hb : Q b) : Consults registry (l.foldlM f b) Q := by
  induction l generalizing b with
  | nil => exact pure hb
  | cons a l ih =>
    rw [List.foldlM_cons]
    exact (hf b a hb).bind fun _ => ih

end Consults

section Building

variable {registry : Registry}

theorem addListKind_consults (g : Grammar) (kind : NodeKind) (hg : g.Draws registry) :
    Consults registry (addListKind g kind) (·.Draws registry) := by
  have hresolve : Consults registry (resolveList kind) fun factory => registry.list? kind = some factory :=
    fun r hr => ⟨hr.trans (r.agrees_resolveList kind), fun factory hfactory =>
      (hr.list? kind).symm.trans (Registry.resolveList_eq_ok.1 hfactory)⟩
  refine hresolve.bind fun factory hfactory => .pure ⟨hg.tokens, fun {other found} hfound => ?_⟩
  rcases Table.get?_insertIfNew_eq_some hfound with hold | ⟨rfl, rfl⟩
  · exact hg.lists hold
  · exact hfactory

theorem addTokenKind_consults (g : Grammar) (kind : NodeKind) (hg : g.Draws registry) :
    Consults registry (addTokenKind g kind) (·.Draws registry) := by
  have hresolve : Consults registry (resolveToken kind) fun factory => registry.token? kind = some factory :=
    fun r hr => ⟨hr.trans (r.agrees_resolveToken kind), fun factory hfactory =>
      (hr.token? kind).symm.trans (Registry.resolveToken_eq_ok.1 hfactory)⟩
  refine hresolve.bind fun factory hfactory => .pure ⟨fun {other found} hfound => ?_, hg.lists⟩
  rcases Table.get?_insertIfNew_eq_some hfound with hold | ⟨rfl, rfl⟩
  · exact hg.tokens hold
  · exact hfactory

theorem addElement_consults (count : Nat) (g : Grammar) (element : Element) (hg : g.Draws registry) :
    Consults registry (addElement count g element) (·.Draws registry) := by
  unfold addElement
  have hkinds : Consults registry
      (element.listKinds.foldlM addListKind g >>= element.tokenKinds.foldlM addTokenKind) (·.Draws registry) :=
    (Consults.foldlM addListKind_consults element.listKinds hg).bind fun _ =>
      Consults.foldlM addTokenKind_consults element.tokenKinds
  cases element.rules.find? (count ≤ ·) with
  | some id => exact Consults.throw _
  | none => exact hkinds

theorem addSlot_consults (count : Nat) (g : Grammar) (slot : Slot) (hg : g.Draws registry) :
    Consults registry (addSlot count g slot) (·.Draws registry) := by
  unfold addSlot
  cases slot.rule? with
  | none => exact .throw _
  | some rule =>
    refine (addListKind_consults g rule.kind hg).bind fun g₁ hg₁ => ?_
    refine (Consults.foldlM (addElement_consults count) rule.elements hg₁).bind fun g₂ hg₂ => ?_
    exact .pure ⟨hg₂.tokens, hg₂.lists⟩

theorem draws_of_build {draft : Draft} {g : Grammar} (h : draft.build.1 = .ok g) : g.Draws draft.registry := by
  have hnone : Grammar.Draws ⟨#[], ∅, ∅⟩ draft.registry := ⟨by rintro _ _ ⟨⟩, by rintro _ _ ⟨⟩⟩
  have hbuild : Consults draft.registry draft.buildM (·.Draws draft.registry) := by
    rw [buildM, ← Array.foldlM_toList]
    refine (Consults.foldlM (addSlot_consults draft.slots.size) draft.slots.toList hnone).bind fun g hg => ?_
    intro r hr
    exact ⟨⟨hr.token?, hr.list?⟩, fun a ha => by cases ha; exact hg⟩
  exact (hbuild draft.registry ⟨fun _ => rfl, fun _ => rfl⟩).2 g h

end Building

end Draft

def Slot.named? (slot : Slot) : Option NamedRule :=
  slot.rule?.map (NamedRule.mk slot.name)

theorem Slot.named?_eq_some {slot : Slot} {named : NamedRule} :
    slot.named? = some named ↔ slot = ⟨named.name, some named.rule⟩ := by
  obtain ⟨name, rule?⟩ := slot
  obtain ⟨name', rule⟩ := named
  cases rule? <;> simp [named?]

namespace Draft

theorem addSlot_rules (count : Nat) (g : Grammar) (slot : Slot) : Ensures (addSlot count g slot) fun g' =>
    g'.rules.toList.map some = g.rules.toList.map some ++ [slot.named?] := by
  unfold addSlot
  cases hrule : slot.rule? with
  | none => exact .throw _
  | some rule =>
    refine (addListKind_ensures g rule.kind).bind fun g₁ ⟨hfirst, _⟩ => ?_
    have helements := Ensures.foldlM (addElement_ensures count) (fun h hready => hready.extend h)
      rule.elements g₁
    refine helements.bind fun g₂ ⟨hsecond, _⟩ => .pure ?_
    simp [(hfirst.trans hsecond).rules, Slot.named?, hrule]

theorem addSlots_rules (count : Nat) (slots : List Slot) (g : Grammar) :
    Ensures (slots.foldlM (addSlot count) g) fun g' =>
      g'.rules.toList.map some = g.rules.toList.map some ++ slots.map Slot.named? := by
  induction slots generalizing g with
  | nil => exact .pure (by simp)
  | cons slot slots ih =>
    rw [List.foldlM_cons]
    refine (addSlot_rules count g slot).bind fun g₁ hfirst => (ih g₁).mono fun g₂ hrest => ?_
    rw [hrest, hfirst, List.append_assoc]
    rfl

/-- The rules of a grammar that was built are those of the draft, in order. -/
theorem rules_of_build {draft : Draft} {g : Grammar} (h : draft.build.1 = .ok g) :
    g.rules.toList.map some = draft.slots.toList.map Slot.named? := by
  have hbuild : Ensures draft.buildM fun g => g.rules.toList.map some = draft.slots.toList.map Slot.named? := by
    rw [buildM, ← Array.foldlM_toList]
    refine (addSlots_rules draft.slots.size draft.slots.toList ⟨#[], ∅, ∅⟩).bind fun g hg => ?_
    exact (Ensures.trivial _).bind fun _ _ => .pure hg
  exact hbuild draft.registry g h

theorem size_of_build {draft : Draft} {g : Grammar} (h : draft.build.1 = .ok g) : g.size = draft.slots.size := by
  have hlength := congrArg List.length (rules_of_build h)
  simpa [Grammar.size] using hlength

theorem getElem?_of_build {draft : Draft} {g : Grammar} (h : draft.build.1 = .ok g) (id : RuleId)
    (name : String) (rule : Rule) : g.rules[id]? = some ⟨name, rule⟩ ↔ draft.slots[id]? = some ⟨name, some rule⟩ := by
  have hplace := congrArg (·[id]?) (rules_of_build h)
  simp only [List.getElem?_map, Array.getElem?_toList] at hplace
  constructor
  · intro hrule
    rw [hrule] at hplace
    obtain ⟨slot, hslot, hnamed⟩ := Option.map_eq_some_iff.1 hplace.symm
    rw [hslot, Slot.named?_eq_some.1 hnamed]
  · intro hslot
    rw [hslot] at hplace
    simpa [Slot.named?] using hplace

end Draft

/-- The kinds of nodes that a rule builds from tokens, and those that it builds from children. -/
def Rule.Uses (rule : Rule) : Shape → NodeKind → Prop
  | .token, kind => ∃ element ∈ rule.elements, kind ∈ element.tokenKinds
  | .list, kind => kind = rule.kind ∨ ∃ element ∈ rule.elements, kind ∈ element.listKinds

instance (rule : Rule) : ∀ (shape : Shape) (kind : NodeKind), Decidable (rule.Uses shape kind)
  | .token, kind => inferInstanceAs (Decidable (∃ element ∈ rule.elements, kind ∈ element.tokenKinds))
  | .list, kind =>
    inferInstanceAs (Decidable (kind = rule.kind ∨ ∃ element ∈ rule.elements, kind ∈ element.listKinds))

theorem Rule.MayAdd.uses_eq {added : RuleId} {rule rule' : Rule} (h : rule.MayAdd added rule') :
    rule'.Uses = rule.Uses := by
  rcases h with rfl | h
  · rfl
  · obtain ⟨ids, rest, helements, rfl⟩ := withChoice?_eq_some h
    funext shape kind
    cases shape <;> simp [Uses, helements, Element.tokenKinds, Element.listKinds]

namespace Draft

def Uses (draft : Draft) (shape : Shape) (kind : NodeKind) : Prop :=
  ∃ slot ∈ draft.slots, ∃ rule ∈ slot.rule?, rule.Uses shape kind

instance (draft : Draft) (shape : Shape) (kind : NodeKind) : Decidable (draft.Uses shape kind) :=
  inferInstanceAs (Decidable (∃ slot ∈ draft.slots, ∃ rule ∈ slot.rule?, rule.Uses shape kind))

/-- A step that adds to a draft and leaves the rules of `base` and the builders of their kinds alone. -/
inductive Adds (base : Draft) : Draft → Draft → Prop
  | declare (draft : Draft) (name : String) : Adds base draft (draft.declare name).2
  | rule (draft : Draft) (name : String) (rule : Rule) : Adds base draft (draft.addNamed name rule).2
  | define {draft draft' : Draft} {id : RuleId} {rule : Rule} (hnew : base.slots.size ≤ id)
    (h : draft.define id rule = .ok draft') : Adds base draft draft'
  | register (draft : Draft) (registration : Registration)
    (hnew : ¬ base.Uses registration.shape registration.kind) :
    Adds base draft (draft.registering registration.apply)

/-- What the rules of `base` are and how their kinds are resolved is the same in both drafts. -/
structure Keeps (base draft draft' : Draft) : Prop where
  size_le : draft.slots.size ≤ draft'.slots.size
  slots : ∀ id < base.slots.size, draft'.slots[id]? = draft.slots[id]?
  tokens : ∀ kind, base.Uses .token kind → draft'.registry.token? kind = draft.registry.token? kind
  lists : ∀ kind, base.Uses .list kind → draft'.registry.list? kind = draft.registry.list? kind

namespace Keeps

variable {base draft draft' draft'' : Draft}

theorem refl (base draft : Draft) : base.Keeps draft draft :=
  ⟨Nat.le_refl _, fun _ _ => rfl, fun _ _ => rfl, fun _ _ => rfl⟩

theorem trans (h : base.Keeps draft draft') (h' : base.Keeps draft' draft'') : base.Keeps draft draft'' where
  size_le := h.size_le.trans h'.size_le
  slots id hid := (h'.slots id hid).trans (h.slots id hid)
  tokens kind hkind := (h'.tokens kind hkind).trans (h.tokens kind hkind)
  lists kind hkind := (h'.lists kind hkind).trans (h.lists kind hkind)

theorem push (hsize : base.slots.size ≤ draft.slots.size) (slot : Slot) :
    base.Keeps draft { draft with slots := draft.slots.push slot } where
  size_le := by simp
  slots id hid := by
    have hne : id ≠ draft.slots.size := by omega
    simp [Array.getElem?_push, hne]
  tokens _ _ := rfl
  lists _ _ := rfl

theorem of_adds (h : base.Adds draft draft') (hsize : base.slots.size ≤ draft.slots.size) :
    base.Keeps draft draft' := by
  cases h with
  | declare name => exact push hsize _
  | rule name rule => exact push hsize _
  | @define _ id rule hnew h =>
    rw [Draft.define] at h
    split at h
    · cases h
      refine ⟨by simp, fun other hother => ?_, fun _ _ => rfl, fun _ _ => rfl⟩
      have hne : id ≠ other := Nat.ne_of_gt (Nat.lt_of_lt_of_le hother hnew)
      simp [hne]
    · cases h
  | register registration hnew =>
    refine ⟨Nat.le_refl _, fun _ _ => rfl, fun kind hkind => ?_, fun kind hkind => ?_⟩
    · refine Registry.token?_apply fun heq => hnew ?_
      rwa [← (Prod.mk.inj heq).1, ← (Prod.mk.inj heq).2]
    · refine Registry.list?_apply fun heq => hnew ?_
      rwa [← (Prod.mk.inj heq).1, ← (Prod.mk.inj heq).2]

/-- Any number of such steps keep what `base` has. -/
theorem of_reflTransGen (h : Relation.ReflTransGen base.Adds draft draft')
    (hsize : base.slots.size ≤ draft.slots.size) : base.Keeps draft draft' := by
  induction h with
  | refl => exact refl base draft
  | tail _ hstep ih => exact ih.trans (of_adds hstep (hsize.trans ih.size_le))

end Keeps

theorem insertChoice_eq_ok {draft draft' : Draft} {target alternative : RuleId}
    (h : draft.insertChoice target alternative = .ok draft') : ∃ name rule rule',
      draft.slots[target]? = some ⟨name, some rule⟩ ∧ withChoice? alternative rule = some rule' ∧
        draft' = { draft with slots := draft.slots.setIfInBounds target ⟨name, some rule'⟩ } := by
  rw [insertChoice] at h
  cases hslot : draft.slots[target]? with
  | none => simp [hslot] at h
  | some slot =>
    obtain ⟨name, rule?⟩ := slot
    cases hrule : rule?.bind (withChoice? alternative) with
    | none => simp [hslot, hrule] at h
    | some rule' =>
      obtain ⟨rule, rfl, hchoice⟩ := Option.bind_eq_some_iff.1 hrule
      simp only [hslot, hrule, define, Except.ok.injEq] at h
      exact ⟨name, rule, rule', rfl, hchoice, h.symm⟩

end Draft

namespace Grammar

variable {g : Grammar} {kind : NodeKind}

theorem Draws.token?_eq {registry : Registry} (h : g.Draws registry) {factory : Factory Token}
    (hfactory : g.tokenFactory kind = .ok factory) : registry.token? kind = some factory := by
  rw [tokenFactory] at hfactory
  cases hget : g.tokens.get? kind <;> rw [hget] at hfactory <;> cases hfactory
  exact h.tokens hget

theorem Draws.list?_eq {registry : Registry} (h : g.Draws registry) {factory : Factory (List Node)}
    (hfactory : g.listFactory kind = .ok factory) : registry.list? kind = some factory := by
  rw [listFactory] at hfactory
  cases hget : g.lists.get? kind <;> rw [hget] at hfactory <;> cases hfactory
  exact h.lists hget

variable {id : RuleId} {rule : Rule}

theorem Complete.exists_tokenFactory (h : g.Complete) (hrule : g.rule id = .ok rule)
    (huses : rule.Uses .token kind) : ∃ factory, g.tokenFactory kind = .ok factory := by
  obtain ⟨element, hmem, hkind⟩ := huses
  exact h.tokenKinds hrule element hmem kind hkind

theorem Complete.exists_listFactory (h : g.Complete) (hrule : g.rule id = .ok rule)
    (huses : rule.Uses .list kind) : ∃ factory, g.listFactory kind = .ok factory := by
  rcases huses with rfl | ⟨element, hmem, hkind⟩
  · exact h.kind hrule
  · exact h.listKinds hrule element hmem kind hkind

end Grammar

namespace Draft

/-- The draft has the rules of `base` where that has them, with one more alternative at most, and resolves
their kinds as `base` does. -/
structure Widens (base draft : Draft) (added : RuleId) : Prop where
  size_le : base.slots.size ≤ draft.slots.size
  slots : ∀ {id : RuleId} {name : String} {rule : Rule}, base.slots[id]? = some ⟨name, some rule⟩ →
    ∃ rule', rule.MayAdd added rule' ∧ draft.slots[id]? = some ⟨name, some rule'⟩
  tokens : ∀ kind, base.Uses .token kind → draft.registry.token? kind = base.registry.token? kind
  lists : ∀ kind, base.Uses .list kind → draft.registry.list? kind = base.registry.list? kind

variable {base draft : Draft} {small large : Grammar} {id : RuleId} {rule : Rule} {kind : NodeKind}

/-- Adding to a draft before and after an alternative is inserted widens it by the alternative. -/
theorem widens_of_insertChoice {extended chosen : Draft} {target alternative : RuleId}
    (hextended : Relation.ReflTransGen base.Adds base extended)
    (hchosen : extended.insertChoice target alternative = .ok chosen)
    (hfinal : Relation.ReflTransGen base.Adds chosen draft) : base.Widens draft alternative := by
  have hkept := Keeps.of_reflTransGen hextended (Nat.le_refl _)
  obtain ⟨name', old, new, htarget, hchoice, rfl⟩ := insertChoice_eq_ok hchosen
  have hlater := Keeps.of_reflTransGen hfinal (by simpa using hkept.size_le)
  refine ⟨hkept.size_le.trans (by simpa using hlater.size_le), fun {id name rule} hslot => ?_, fun kind hkind => ?_,
    fun kind hkind => ?_⟩
  · have hid : id < base.slots.size := (Array.getElem?_eq_some_iff.1 hslot).1
    have hslot' : extended.slots[id]? = some ⟨name, some rule⟩ := (hkept.slots id hid).trans hslot
    rw [hlater.slots id hid]
    by_cases heq : target = id
    · subst heq
      cases hslot'.symm.trans htarget
      exact ⟨new, .inr hchoice, Array.getElem?_setIfInBounds_self_of_lt (Nat.lt_of_lt_of_le hid hkept.size_le)⟩
    · exact ⟨rule, .inl rfl, by simpa [heq] using hslot'⟩
  · exact (hlater.tokens kind hkind).trans (hkept.tokens kind hkind)
  · exact (hlater.lists kind hkind).trans (hkept.lists kind hkind)

namespace Widens

variable {added : RuleId} (h : base.Widens draft added) (hsmall : base.build.1 = .ok small)
  (hlarge : draft.build.1 = .ok large)
include h hsmall hlarge

theorem exists_named (hrule : small.rule id = .ok rule) : ∃ name rule', rule.MayAdd added rule' ∧
    base.slots[id]? = some ⟨name, some rule⟩ ∧ small.rules[id]? = some ⟨name, rule⟩ ∧
      large.rules[id]? = some ⟨name, rule'⟩ := by
  obtain ⟨name, hnamed⟩ := Grammar.rule_eq_ok_iff.1 hrule
  have hslot := (getElem?_of_build hsmall id name rule).1 hnamed
  obtain ⟨rule', hadds, hslot'⟩ := h.slots hslot
  exact ⟨name, rule', hadds, hslot, hnamed, (getElem?_of_build hlarge id name rule').2 hslot'⟩

/-- Both grammars have the same builder for what a rule of the first one builds from tokens. -/
theorem tokenFactory_eq (hrule : small.rule id = .ok rule) (huses : rule.Uses .token kind) :
    large.tokenFactory kind = small.tokenFactory kind := by
  obtain ⟨name, rule', hadds, hslot, -, hnamed'⟩ := h.exists_named hsmall hlarge hrule
  obtain ⟨factory, hfactory⟩ := (Grammar.complete_of_build hsmall).exists_tokenFactory hrule huses
  obtain ⟨factory', hfactory'⟩ := (Grammar.complete_of_build hlarge).exists_tokenFactory
    (Grammar.rule_eq_ok_iff.2 ⟨name, hnamed'⟩) (hadds.uses_eq ▸ huses)
  have hresolved := h.tokens kind ⟨_, Array.mem_of_getElem? hslot, rule, rfl, huses⟩
  rw [(draws_of_build hsmall).token?_eq hfactory, (draws_of_build hlarge).token?_eq hfactory'] at hresolved
  rw [hfactory, hfactory', Option.some.inj hresolved]

theorem listFactory_eq (hrule : small.rule id = .ok rule) (huses : rule.Uses .list kind) :
    large.listFactory kind = small.listFactory kind := by
  obtain ⟨name, rule', hadds, hslot, -, hnamed'⟩ := h.exists_named hsmall hlarge hrule
  obtain ⟨factory, hfactory⟩ := (Grammar.complete_of_build hsmall).exists_listFactory hrule huses
  obtain ⟨factory', hfactory'⟩ := (Grammar.complete_of_build hlarge).exists_listFactory
    (Grammar.rule_eq_ok_iff.2 ⟨name, hnamed'⟩) (hadds.uses_eq ▸ huses)
  have hresolved := h.lists kind ⟨_, Array.mem_of_getElem? hslot, rule, rfl, huses⟩
  rw [(draws_of_build hsmall).list?_eq hfactory, (draws_of_build hlarge).list?_eq hfactory'] at hresolved
  rw [hfactory, hfactory', Option.some.inj hresolved]

theorem grammar : small.Widens large added where
  ruleName? {id} hid := by
    obtain ⟨rule, hrule⟩ := Grammar.exists_rule_of_lt hid
    obtain ⟨name, rule', -, -, hnamed, hnamed'⟩ := h.exists_named hsmall hlarge hrule
    simp [Grammar.ruleName?, hnamed, hnamed']
  ruleKind {id} hid := by
    obtain ⟨rule, hrule⟩ := Grammar.exists_rule_of_lt hid
    obtain ⟨name, rule', hadds, -, -, hnamed'⟩ := h.exists_named hsmall hlarge hrule
    rw [hrule, Grammar.rule_eq_ok_iff.2 ⟨name, hnamed'⟩]
    exact congrArg Except.ok hadds.kind_eq
  kind _ hrule := h.listFactory_eq hsmall hlarge hrule (.inl rfl)
  tokenKinds _ hrule element hmem kind hkind :=
    h.tokenFactory_eq hsmall hlarge hrule ⟨element, hmem, hkind⟩
  listKinds _ hrule element hmem kind hkind :=
    h.listFactory_eq hsmall hlarge hrule (.inr ⟨element, hmem, hkind⟩)
  size_le := by
    rw [size_of_build hsmall, size_of_build hlarge]
    exact h.size_le
  rule hrule := by
    obtain ⟨name, rule', hadds, -, -, hnamed'⟩ := h.exists_named hsmall hlarge hrule
    exact ⟨rule', hadds, Grammar.rule_eq_ok_iff.2 ⟨name, hnamed'⟩⟩

end Widens

end Draft

/-- Inserting an alternative is conservative. Rules and builders of new kinds are added to a draft, and a
new rule that starts with a separator becomes the first alternative of an alternation. On a source in
which no token is spelled so, all requests for rules of the original grammar, also those after one that
failed, have the same replies as before, and leave the cursor at the same place. -/
theorem Grammar.insertChoice_conservative {base extended chosen final : Draft} {small large : Grammar}
    {target alternative : RuleId} (hextended : Relation.ReflTransGen base.Adds base extended)
    (hchosen : extended.insertChoice target alternative = .ok chosen)
    (hfinal : Relation.ReflTransGen base.Adds chosen final)
    (hsmall : base.build.1 = .ok small) (hnotSmall : ¬ small.LeftRecursive)
    (hlarge : final.build.1 = .ok large) (hnotLarge : ¬ large.LeftRecursive)
    {rule : Rule} {word : String} {rest : List Element} (hrule : large.rule alternative = .ok rule)
    (helements : rule.elements = .drop (.spelled [word]) :: rest)
    (source : Source) (options : LexerOptions) {tokens : List Token}
    (htokens : tokenize source options = .ok tokens) (hword : ∀ token ∈ tokens, token.isSpelled word = false)
    {requests : List Request} (hrequests : ∀ request ∈ requests, request.Within small.size) :
    large.serveAll requests (Lexer.ofSource source options) =
      small.serveAll requests (Lexer.ofSource source options) := by
  have hwidens := (Draft.widens_of_insertChoice hextended hchosen hfinal).grammar hsmall hlarge
  have hnone : ∀ token ∈ tokens, (TokenClass.spelled [word]).accepts token = false := fun token hmem => by
    simp [TokenClass.accepts, hword token hmem]
  have htape : Tape.Holds tokens ⟨[], source.items options 0⟩ := tokenize_eq_ok htokens ▸ .ofTokens tokens
  rw [Lexer.mirrors.serveAll hnotLarge (Lexer.Shows.ofSource source options),
    Lexer.mirrors.serveAll hnotSmall (Lexer.Shows.ofSource source options)]
  exact hwidens.serveAll_eq (complete_of_build hsmall) hnotSmall hnotLarge
    (fun tape => starts_eq_false hrule helements hnone) htape hrequests

def Draft.numbers : Draft :=
  let draft := ({} : Draft).registering (·.addLeaf ⟨"number"⟩)
  let (number, draft) := draft.add (Rule.untyped.number ⟨"number"⟩)
  let (item, draft) := draft.addNamed "item" (Rule.untyped.choice [number])
  (draft.add (Rule.untyped.tree item |>.many item)).2

/-- Items may be shouted. The rule is an alternative of items before it is defined. -/
theorem Grammar.insertChoice_conservative_shout :
    let shout : NodeKind := ⟨"shout"⟩
    let base := Draft.numbers
    let extended := ((base.registering (Registration.default shout).apply).declare "shout").2
    let rule := (Rule.of shout).separator ["shout"] |>.tree 1
    let source : Source := [.text ['4', ' ', '2'], .text ['7', ' ', '+']]
    let tokens : List Token := [.scanned 1 (.number 4), .scanned 1 (.number 2), .scanned 1 .endOfLine,
      .scanned 2 (.number 7), .scanned 2 (.operator "+"), .scanned 2 .endOfLine]
    let requests : List Request := [.starts 2, .parse 2, .parse 1, .read, .parseAll 1, .parse 1]
    ∃ chosen final small large, Relation.ReflTransGen base.Adds base extended ∧
      extended.insertChoice 1 3 = .ok chosen ∧ Relation.ReflTransGen base.Adds chosen final ∧
      base.build.1 = .ok small ∧ ¬ small.LeftRecursive ∧ final.build.1 = .ok large ∧ ¬ large.LeftRecursive ∧
      large.rule 3 = .ok rule ∧ tokenize source {} = .ok tokens ∧
      (∀ token ∈ tokens, token.isSpelled "shout" = false) ∧
      (∀ request ∈ requests, request.Within small.size) ∧
      large.serveAll requests (Lexer.ofSource source {}) = small.serveAll requests (Lexer.ofSource source {}) := by
  intro shout base extended rule source tokens requests
  obtain ⟨chosen, hchosen⟩ : ∃ chosen, extended.insertChoice 1 3 = .ok chosen := ⟨_, rfl⟩
  obtain ⟨final, hdefined⟩ : ∃ final, chosen.define 3 rule = .ok final := by
    cases hchosen
    exact ⟨_, rfl⟩
  have hslot : final.slots[3]? = some ⟨"shout", some rule⟩ := by
    cases hchosen
    cases hdefined
    rfl
  have hnew : ¬ base.Uses .list shout := by decide
  have hextended : Relation.ReflTransGen base.Adds base extended :=
    .tail (.single (.register base (.default shout) hnew)) (.declare _ "shout")
  have hfinal : Relation.ReflTransGen base.Adds chosen final :=
    .single (.define (Nat.le_refl 3) hdefined)
  obtain ⟨small, hsmall⟩ : ∃ small, base.build.1 = .ok small := ⟨_, rfl⟩
  have hnotSmall : ¬ small.LeftRecursive := by
    refine not_leftRecursive_of_refersBack ?_
    cases hsmall
    decide
  obtain ⟨large, hlarge, hdescends⟩ : ∃ large, final.build.1 = .ok large ∧
      large.Descends (fun id => if id = 3 then 0 else id + 1) = true := by
    cases hchosen
    cases hdefined
    exact ⟨_, rfl, by decide⟩
  have hrule : large.rule 3 = .ok rule :=
    rule_eq_ok_iff.2 ⟨_, (Draft.getElem?_of_build hlarge 3 "shout" rule).2 hslot⟩
  have htokens : tokenize source {} = .ok tokens := by cbv
  have hword : ∀ token ∈ tokens, token.isSpelled "shout" = false := by decide
  have hrequests : ∀ request ∈ requests, request.Within small.size := by
    rw [Draft.size_of_build hsmall]
    decide
  have hnotLarge := not_leftRecursive_of_descends hdescends
  exact ⟨chosen, final, small, large, hextended, hchosen, hfinal, hsmall, hnotSmall, hlarge, hnotLarge, hrule,
    htokens, hword, hrequests, insertChoice_conservative hextended hchosen hfinal hsmall hnotSmall hlarge
      hnotLarge hrule rfl source {} htokens hword hrequests⟩

end ParseKit
