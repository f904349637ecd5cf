import ParseKit.Proofs.LeftRecursion

/-! What building a grammar checks. Main statement: `Grammar.complete_of_build`, every rule of a grammar
that was built refers to rules that exist and has a builder for every kind that it mentions. -/

namespace ParseKit

namespace Draft

theorem run_bind {α β : Type} (m : BuildM α) (f : α → BuildM β) (registry : Registry) :
    (m >>= f) registry = match m registry with
      | (.ok a, registry) => f a registry
      | (.error error, registry) => (.error error, registry) := by
  rcases h : m registry with ⟨_ | _, _⟩
  · simp [bind, ExceptT.bind, ExceptT.mk, ExceptT.bindCont, StateT.bind, h]
    rfl
  · simp [bind, ExceptT.bind, ExceptT.mk, ExceptT.bindCont, StateT.bind, h]

/-- What the step gives, if it gives anything, has the property. -/
def Ensures {α : Type} (m : BuildM α) (P : α → Prop) : Prop :=
  ∀ registry a, (m registry).1 = .ok a → P a

namespace Ensures

variable {α β : Type} {P : α → Prop} {Q : β → Prop}

theorem pure {a : α} (h : P a) : Ensures (Pure.pure a) P := by
  intro registry b hb
  cases hb
  exact h

theorem throw (error : GrammarError) : Ensures (MonadExcept.throw error : BuildM α) P := by
  intro registry a ha
  cases ha

theorem bind {m : BuildM α} {f : α → BuildM β} (hm : Ensures m P) (hf : ∀ a, P a → Ensures (f a) Q) :
    Ensures (m >>= f) Q := by
  intro registry b hb
  rw [run_bind] at hb
  rcases h : m registry with ⟨error | a, registry'⟩ <;> rw [h] at hb
  · cases hb
  · exact hf a (hm registry a (by rw [h])) registry' b hb

theorem trivial (m : BuildM α) : Ensures m fun _ => True :=
  fun _ _ _ => True.intro

theorem mono {m : BuildM α} {P' : α → Prop} (h : Ensures m P) (himp : ∀ a, P a → P' a) : Ensures m P' :=
  fun registry a ha => himp a (h registry a ha)

end Ensures

structure Extends (g g' : Grammar) : Prop where
  lists : ∀ {kind}, g.lists.contains kind = true → g'.lists.contains kind = true
  tokens : ∀ {kind}, g.tokens.contains kind = true → g'.tokens.contains kind = true

structure Equips (g g' : Grammar) : Prop extends Extends g g' where
  rules : g'.rules = g.rules

theorem Equips.refl (g : Grammar) : Equips g g :=
  ⟨⟨id, id⟩, rfl⟩

theorem Equips.trans {g₁ g₂ g₃ : Grammar} (h : Equips g₁ g₂) (h' : Equips g₂ g₃) : Equips g₁ g₃ :=
  ⟨⟨fun hkind => h'.lists (h.lists hkind), fun hkind => h'.tokens (h.tokens hkind)⟩,
    h'.rules.trans h.rules⟩

/-- What every step of a fold adds is there at the end, if later steps do not undo it. -/
theorem Ensures.foldlM {α : Type} {f : Grammar → α → BuildM Grammar} {Added : α → Grammar → Prop}
    (hf : ∀ g a, Ensures (f g a) fun g' => Equips g g' ∧ Added a g')
    (hkeep : ∀ {a g g'}, Extends g g' → Added a g → Added a g') (l : List α) (g : Grammar) :
    Ensures (l.foldlM f g) fun g' => Equips g g' ∧ ∀ a ∈ l, Added a g' := by
  induction l generalizing g with
  | nil => exact .pure ⟨.refl g, by simp⟩
  | cons a l ih =>
    rw [List.foldlM_cons]
    refine (hf g a).bind fun g₁ ⟨hstep, hadded⟩ => (ih g₁).mono fun g₂ ⟨hrest, hall⟩ => ?_
    exact ⟨hstep.trans hrest, List.forall_mem_cons.2 ⟨hkeep hrest.toExtends hadded, hall⟩⟩

theorem addListKind_ensures (g : Grammar) (kind : NodeKind) :
    Ensures (addListKind g kind) fun g' => Equips g g' ∧ g'.lists.contains kind = true := by
  refine (Ensures.trivial _).bind fun factory _ => .pure ⟨⟨⟨fun hother => ?_, id⟩, rfl⟩, ?_⟩
  · exact Table.contains_insertIfNew hother kind factory
  · exact Table.contains_insertIfNew_self g.lists kind factory

theorem addTokenKind_ensures (g : Grammar) (kind : NodeKind) :
    Ensures (addTokenKind g kind) fun g' => Equips g g' ∧ g'.tokens.contains kind = true := by
  refine (Ensures.trivial _).bind fun factory _ => .pure ⟨⟨⟨id, fun hother => ?_⟩, rfl⟩, ?_⟩
  · exact Table.contains_insertIfNew hother kind factory
  · exact Table.contains_insertIfNew_self g.tokens kind factory

/-- The element refers to the first `count` rules and its kinds have builders. -/
structure ElementReady (count : Nat) (element : Element) (g : Grammar) : Prop where
  rules : ∀ id ∈ element.rules, id < count
  lists : ∀ kind ∈ element.listKinds, g.lists.contains kind = true
  tokens : ∀ kind ∈ element.tokenKinds, g.tokens.contains kind = true

structure RuleReady (count : Nat) (rule : Rule) (g : Grammar) : Prop where
  kind : g.lists.contains rule.kind = true
  elements : ∀ element ∈ rule.elements, ElementReady count element g

theorem ElementReady.extend {count : Nat} {element : Element} {g g' : Grammar}
    (hready : ElementReady count element g) (h : Extends g g') : ElementReady count element g' :=
  ⟨hready.rules, fun kind hkind => h.lists (hready.lists kind hkind),
    fun kind hkind => h.tokens (hready.tokens kind hkind)⟩

theorem RuleReady.extend {count : Nat} {rule : Rule} {g g' : Grammar} (hready : RuleReady count rule g)
    (h : Extends g g') : RuleReady count rule g' :=
  ⟨h.lists hready.kind, fun element hmem => (hready.elements element hmem).extend h⟩

theorem addElement_ensures (count : Nat) (g : Grammar) (element : Element) :
    Ensures (addElement count g element) fun g' => Equips g g' ∧ ElementReady count element g' := by
  unfold addElement
  cases hfind : element.rules.find? (count ≤ ·) with
  | some id => exact (Ensures.throw (P := fun _ => False) _).bind fun _ => False.elim
  | none =>
    have hrules : ∀ id ∈ element.rules, id < count := by simpa using hfind
    have hlists := Ensures.foldlM addListKind_ensures (fun h => h.lists) element.listKinds g
    refine hlists.bind fun g₁ ⟨hfirst, hkinds⟩ => ?_
    have htokens := Ensures.foldlM addTokenKind_ensures (fun h => h.tokens) element.tokenKinds g₁
    refine htokens.mono fun g₂ ⟨hsecond, hkinds'⟩ => ⟨hfirst.trans hsecond, hrules, ?_, hkinds'⟩
    exact fun kind hkind => hsecond.lists (hkinds kind hkind)

def Ready (count : Nat) (g : Grammar) : Prop :=
  ∀ named ∈ g.rules, RuleReady count named.rule g

theorem addSlot_ensures {count : Nat} {g : Grammar} (hready : Ready count g) (slot : Slot) :
    Ensures (addSlot count g slot) fun g' => Ready count g' ∧ g'.rules.size = g.rules.size + 1 := by
  unfold addSlot
  cases slot.rule? with
  | none => exact .throw _
  | some rule =>
    refine (addListKind_ensures g rule.kind).bind fun g₁ ⟨hfirst, hkind⟩ => ?_
    have helements := Ensures.foldlM (addElement_ensures count) (fun h hready => hready.extend h)
      rule.elements g₁
    refine helements.bind fun g₂ ⟨hsecond, hall⟩ => .pure ⟨fun named hmem => ?_, ?_⟩
    · have hpushed : Extends g₂ { g₂ with rules := g₂.rules.push ⟨slot.name, rule⟩ } := ⟨id, id⟩
      rcases Array.mem_push.1 hmem with hold | rfl
      · rw [(hfirst.trans hsecond).rules] at hold
        exact ((hready named hold).extend (hfirst.trans hsecond).toExtends).extend hpushed
      · exact RuleReady.extend ⟨hsecond.lists hkind, hall⟩ hpushed
    · rw [Array.size_push, (hfirst.trans hsecond).rules]

theorem addSlots_ensures {count : Nat} (slots : List Slot) {g : Grammar} (hready : Ready count g) :
    Ensures (slots.foldlM (addSlot count) g) fun g' =>
      Ready count g' ∧ g'.rules.size = g.rules.size + slots.length := by
  induction slots generalizing g with
  | nil => exact .pure ⟨hready, rfl⟩
  | cons slot slots ih =>
    rw [List.foldlM_cons]
    refine (addSlot_ensures hready slot).bind fun g₁ ⟨hready₁, hsize⟩ => ?_
    refine (ih hready₁).mono fun g₂ ⟨hready₂, hsize₂⟩ => ⟨hready₂, ?_⟩
    rw [hsize₂, hsize, List.length_cons]
    omega

/-- As many rules are built as there are places for rules, and all of them are ready. -/
theorem buildM_ensures (draft : Draft) : Ensures draft.buildM fun g => Ready g.size g := by
  rw [buildM, ← Array.foldlM_toList]
  have hnone : Ready draft.slots.size ⟨#[], ∅, ∅⟩ := by
    intro named hmem
    cases (Array.not_mem_empty named) hmem
  refine (addSlots_ensures draft.slots.toList hnone).bind fun g ⟨hready, hsize⟩ => ?_
  refine (Ensures.trivial _).bind fun _ _ => .pure ?_
  have hcount : g.size = draft.slots.size := by simpa [Grammar.size] using hsize
  rw [hcount]
  exact hready

end Draft

namespace Grammar

/-- Every rule refers to rules of the grammar and has builders for all kinds that it mentions. -/
structure Complete (g : Grammar) : Prop where
  rules : ∀ {id rule}, g.rule id = .ok rule →
    ∀ element ∈ rule.elements, ∀ other ∈ element.rules, other < g.size
  kind : ∀ {id rule}, g.rule id = .ok rule → ∃ factory, g.listFactory rule.kind = .ok factory
  listKinds : ∀ {id rule}, g.rule id = .ok rule → ∀ element ∈ rule.elements,
    ∀ kind ∈ element.listKinds, ∃ factory, g.listFactory kind = .ok factory
  tokenKinds : ∀ {id rule}, g.rule id = .ok rule → ∀ element ∈ rule.elements,
    ∀ kind ∈ element.tokenKinds, ∃ factory, g.tokenFactory kind = .ok factory

theorem exists_listFactory {g : Grammar} {kind : NodeKind} (h : g.lists.contains kind = true) :
    ∃ factory, g.listFactory kind = .ok factory := by
  obtain ⟨factory, hfactory⟩ := Option.isSome_iff_exists.1 h
  exact ⟨factory, by rw [listFactory, hfactory]⟩

theorem exists_tokenFactory {g : Grammar} {kind : NodeKind} (h : g.tokens.contains kind = true) :
    ∃ factory, g.tokenFactory kind = .ok factory := by
  obtain ⟨factory, hfactory⟩ := Option.isSome_iff_exists.1 h
  exact ⟨factory, by rw [tokenFactory, hfactory]⟩

theorem complete_of_build {draft : Draft} {g : Grammar} (h : draft.build.1 = .ok g) : g.Complete := by
  have hready := draft.buildM_ensures draft.registry g h
  have hrule : ∀ {id rule}, g.rule id = .ok rule → Draft.RuleReady g.size rule g := by
    intro id rule hrule
    obtain ⟨name, hname⟩ := rule_eq_ok_iff.1 hrule
    exact hready _ (Array.mem_of_getElem? hname)
  exact {
    rules := fun h element hmem => ((hrule h).elements element hmem).rules
    kind := fun h => exists_listFactory (hrule h).kind
    listKinds := fun h element hmem kind hkind =>
      exists_listFactory (((hrule h).elements element hmem).lists kind hkind)
    tokenKinds := fun h element hmem kind hkind =>
      exists_tokenFactory (((hrule h).elements element hmem).tokens kind hkind) }

end Grammar

end ParseKit
