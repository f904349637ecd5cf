import ParseKit.Proofs.OrderedChoice

/-! A broken grammar fails when it is built and never in the middle of a parse. Building a draft is
a check of its rules, one after the other, that only remembers what it resolved; so whether it
succeeds is a property of the draft alone. And every look-up of a parse is one of those that were
checked. Main statement: `Draft.defects_show_when_building`. -/

namespace ParseKit

namespace Shelf

variable {α : Type}

def Resolves (shelf : Shelf α) (build? : NodeKind → Option (Builder α)) (kind : NodeKind) : Prop :=
  shelf.resolved.get? kind ≠ none ∨ build? kind ≠ none

theorem resolves_remember {shelf : Shelf α} {build? : NodeKind → Option (Builder α)} {factory : Factory α}
    (h : build? factory.kind ≠ none) : (shelf.remember factory).Resolves build? = shelf.Resolves build? := by
  funext kind
  rw [eq_iff_iff, Resolves, Resolves]
  by_cases hkind : kind = factory.kind
  · subst hkind
    exact iff_of_true (.inr h) (.inr h)
  · rw [remember, Table.get?_insert_of_ne _ _ hkind]

end Shelf

@[ext]
structure Kinds where
  tokens : NodeKind → Prop
  lists : NodeKind → Prop

namespace Registry

def kinds (registry : Registry) : Kinds where
  tokens kind := ∃ factory, (registry.resolveToken kind).1 = .ok factory
  lists kind := ∃ factory, (registry.resolveList kind).1 = .ok factory

variable (registry : Registry)

theorem tokens_kinds : registry.kinds.tokens = registry.tokens.Resolves registry.tokens.registered? := by
  funext kind
  rw [eq_iff_iff, Shelf.Resolves]
  simp only [kinds, resolveToken]
  cases registry.tokens.resolved.get? kind <;> cases registry.tokens.registered? kind <;> simp

theorem lists_kinds : registry.kinds.lists = registry.lists.Resolves fun kind =>
    registry.lists.registered? kind <|> registry.default? kind := by
  funext kind
  rw [eq_iff_iff, Shelf.Resolves]
  simp only [kinds, resolveList]
  cases registry.lists.resolved.get? kind <;>
    cases (registry.lists.registered? kind <|> registry.default? kind) <;> simp

variable {registry} {other : Registry}

theorem tokens_kinds_congr (htokens : other.tokens = registry.tokens) :
    other.kinds.tokens = registry.kinds.tokens := by
  rw [tokens_kinds, tokens_kinds, htokens]

theorem lists_kinds_congr (hlists : other.lists = registry.lists)
    (hdefaults : other.defaults = registry.defaults) : other.kinds.lists = registry.kinds.lists := by
  rw [lists_kinds, lists_kinds, hlists]
  simp only [default?, hdefaults]

theorem kinds_resolveToken (kind : NodeKind) : (registry.resolveToken kind).2.kinds = registry.kinds := by
  unfold resolveToken
  cases hresolved : registry.tokens.resolved.get? kind with
  | some factory => rfl
  | none =>
    cases hregistered : registry.tokens.registered? kind with
    | none => rfl
    | some build =>
      have hbuild : registry.tokens.registered? kind ≠ none := by simp [hregistered]
      refine Kinds.ext ?_ (lists_kinds_congr rfl rfl)
      rw [tokens_kinds, tokens_kinds]
      exact Shelf.resolves_remember hbuild

theorem kinds_resolveList (kind : NodeKind) : (registry.resolveList kind).2.kinds = registry.kinds := by
  unfold resolveList
  cases hresolved : registry.lists.resolved.get? kind with
  | some factory => rfl
  | none =>
    cases hregistered : registry.lists.registered? kind <|> registry.default? kind with
    | none => rfl
    | some build =>
      have hbuild : (registry.lists.registered? kind <|> registry.default? kind) ≠ none := by
        simp [hregistered]
      refine Kinds.ext (tokens_kinds_congr rfl) ?_
      rw [lists_kinds, lists_kinds]
      exact Shelf.resolves_remember hbuild

theorem kinds_debug (text : String) : (registry.debug text).kinds = registry.kinds :=
  Kinds.ext (tokens_kinds_congr rfl) (lists_kinds_congr rfl rfl)

end Registry

namespace Draft

/-- With builders for `kinds` the step succeeds if and only if `p` holds, and whether it does or not
there are builders for the same kinds afterwards. -/
def Decides {α : Type} (kinds : Kinds) (m : BuildM α) (p : Prop) : Prop :=
  ∀ registry : Registry, registry.kinds = kinds →
    ((∃ a, (m registry).1 = .ok a) ↔ p) ∧ (m registry).2.kinds = kinds

namespace Decides

variable {α β : Type} {kinds : Kinds} {p q : Prop}

theorem pure (a : α) : Decides kinds (Pure.pure a) True :=
  fun _ hkinds => ⟨iff_true_intro ⟨a, rfl⟩, hkinds⟩

theorem throw (error : GrammarError) : Decides kinds (MonadExcept.throw error : BuildM α) False :=
  fun _ hkinds => ⟨iff_false_intro (by rintro ⟨_, ⟨⟩⟩), hkinds⟩

theorem throw_bind (error : GrammarError) (f : α → BuildM β) :
    Decides kinds (MonadExcept.throw error >>= f) False :=
  throw error

theorem bind {m : BuildM α} {f : α → BuildM β} (hm : Decides kinds m p)
    (hf : ∀ a, Decides kinds (f a) q) : Decides kinds (m >>= f) (p ∧ q) := by
  intro registry hkinds
  obtain ⟨hok, hkinds'⟩ := hm registry hkinds
  rw [run_bind]
  rcases h : m registry with ⟨error | a, registry'⟩ <;> rw [h] at hok hkinds'
  · have hp : ¬ p := fun hp => by
      obtain ⟨_, ⟨⟩⟩ := hok.2 hp
    exact ⟨⟨by rintro ⟨_, ⟨⟩⟩, fun hpq => absurd hpq.1 hp⟩, hkinds'⟩
  · have hp : p := hok.1 ⟨a, rfl⟩
    obtain ⟨hok', hkinds''⟩ := hf a registry' hkinds'
    exact ⟨hok'.trans (and_iff_right hp).symm, hkinds''⟩

theorem congr {m : BuildM α} (h : Decides kinds m p) (hpq : p ↔ q) : Decides kinds m q :=
  fun registry hkinds => ⟨(h registry hkinds).1.trans hpq, (h registry hkinds).2⟩

theorem foldlM {f : β → α → BuildM β} {P : α → Prop} (hf : ∀ b a, Decides kinds (f b a) (P a))
    (l : List α) (b : β) : Decides kinds (l.foldlM f b) (∀ a ∈ l, P a) := by
  induction l generalizing b with
  | nil => exact (pure b).congr (by simp)
  | cons a l ih =>
    rw [List.foldlM_cons]
    exact ((hf b a).bind ih).congr (by simp)

theorem resolveToken (kind : NodeKind) : Decides kinds (Draft.resolveToken kind) (kinds.tokens kind) := by
  rintro registry rfl
  exact ⟨Iff.rfl, Registry.kinds_resolveToken kind⟩

theorem resolveList (kind : NodeKind) : Decides kinds (Draft.resolveList kind) (kinds.lists kind) := by
  rintro registry rfl
  exact ⟨Iff.rfl, Registry.kinds_resolveList kind⟩

theorem debug (text : String) :
    Decides kinds (modify (Registry.debug · text) : BuildM PUnit) True := by
  rintro registry rfl
  exact ⟨iff_true_intro ⟨⟨⟩, rfl⟩, Registry.kinds_debug text⟩

theorem addListKind (g : Grammar) (kind : NodeKind) :
    Decides kinds (Draft.addListKind g kind) (kinds.lists kind) :=
  ((resolveList kind).bind fun _ => pure _).congr (by simp)

theorem addTokenKind (g : Grammar) (kind : NodeKind) :
    Decides kinds (Draft.addTokenKind g kind) (kinds.tokens kind) :=
  ((resolveToken kind).bind fun _ => pure _).congr (by simp)

end Decides

/-- The element refers to the first `count` rules and to kinds with builders. -/
structure ElementBuildable (kinds : Kinds) (count : Nat) (element : Element) : Prop where
  rules : ∀ id ∈ element.rules, id < count
  lists : ∀ kind ∈ element.listKinds, kinds.lists kind
  tokens : ∀ kind ∈ element.tokenKinds, kinds.tokens kind

structure RuleBuildable (kinds : Kinds) (count : Nat) (rule : Rule) : Prop where
  kind : kinds.lists rule.kind
  elements : ∀ element ∈ rule.elements, ElementBuildable kinds count element

section Checks

variable {kinds : Kinds} (count : Nat) (g : Grammar)

theorem addElement_decides (element : Element) :
    Decides kinds (addElement count g element) (ElementBuildable kinds count element) := by
  unfold addElement
  cases hfind : element.rules.find? (count ≤ ·) with
  | some id =>
    have hmem := List.mem_of_find?_eq_some hfind
    have hge : count ≤ id := by simpa using List.find?_some hfind
    exact (Decides.throw_bind _ _).congr ⟨False.elim, fun h => Nat.not_lt.2 hge (h.rules id hmem)⟩
  | none =>
    have hrules : ∀ id ∈ element.rules, id < count := by simpa using hfind
    have hlists : Decides kinds (element.listKinds.foldlM addListKind g)
        (∀ kind ∈ element.listKinds, kinds.lists kind) := .foldlM Decides.addListKind _ g
    have htokens : ∀ g, Decides kinds (element.tokenKinds.foldlM addTokenKind g)
        (∀ kind ∈ element.tokenKinds, kinds.tokens kind) := .foldlM Decides.addTokenKind _
    refine (hlists.bind htokens).congr ?_
    exact ⟨fun ⟨hlists, htokens⟩ => ⟨hrules, hlists, htokens⟩, fun h => ⟨h.lists, h.tokens⟩⟩

theorem addSlot_decides (slot : Slot) : Decides kinds (addSlot count g slot)
    (∃ rule, slot.rule? = some rule ∧ RuleBuildable kinds count rule) := by
  unfold addSlot
  cases hrule : slot.rule? with
  | none => exact (Decides.throw _).congr (by simp)
  | some rule =>
    have helements : ∀ g, Decides kinds (rule.elements.foldlM (addElement count) g)
        (∀ element ∈ rule.elements, ElementBuildable kinds count element) :=
      .foldlM (addElement_decides count) _
    refine ((Decides.addListKind g rule.kind).bind fun g => (helements g).bind fun g => .pure _).congr ?_
    constructor
    · rintro ⟨hkind, helements, -⟩
      exact ⟨rule, rfl, hkind, helements⟩
    · rintro ⟨_, ⟨⟩, h⟩
      exact ⟨h.kind, h.elements, trivial⟩

end Checks

/-- What a draft has to satisfy for a grammar to be built from it. -/
structure Buildable (draft : Draft) : Prop where
  /-- Every place has a rule. -/
  defined : ∀ slot ∈ draft.slots, slot.rule? ≠ none
  /-- Rules refer to rules that have a place. -/
  rules : ∀ slot ∈ draft.slots, ∀ rule, slot.rule? = some rule →
    ∀ element ∈ rule.elements, ∀ id ∈ element.rules, id < draft.slots.size
  kinds : ∀ slot ∈ draft.slots, ∀ rule, slot.rule? = some rule →
    ∃ factory, (draft.registry.resolveList rule.kind).1 = .ok factory
  expressions : ∀ slot ∈ draft.slots, ∀ rule, slot.rule? = some rule →
    ∀ kind factor operators, .expression kind factor operators ∈ rule.elements →
      (∃ factory, (draft.registry.resolveList kind).1 = .ok factory) ∧
      ∃ factory, (draft.registry.resolveToken .leaf).1 = .ok factory
  tokens : ∀ slot ∈ draft.slots, ∀ rule, slot.rule? = some rule →
    ∀ what kind, .keep what kind ∈ rule.elements →
      ∃ factory, (draft.registry.resolveToken kind).1 = .ok factory

theorem buildable_iff (draft : Draft) : draft.Buildable ↔ ∀ slot ∈ draft.slots,
    ∃ rule, slot.rule? = some rule ∧ RuleBuildable draft.registry.kinds draft.slots.size rule := by
  constructor
  · intro h slot hslot
    obtain ⟨rule, hrule⟩ := Option.ne_none_iff_exists'.1 (h.defined slot hslot)
    refine ⟨rule, hrule, h.kinds slot hslot rule hrule, fun element hmem => ?_⟩
    refine ⟨h.rules slot hslot rule hrule element hmem, fun kind hkind => ?_, fun kind hkind => ?_⟩
    · cases element <;> simp only [Element.listKinds, List.not_mem_nil, List.mem_singleton] at hkind
      subst hkind
      exact (h.expressions slot hslot rule hrule _ _ _ hmem).1
    · cases element <;> simp only [Element.tokenKinds, List.not_mem_nil, List.mem_singleton] at hkind
      · subst hkind
        exact h.tokens slot hslot rule hrule _ _ hmem
      · subst hkind
        exact (h.expressions slot hslot rule hrule _ _ _ hmem).2
  · intro h
    have hrule : ∀ slot ∈ draft.slots, ∀ rule, slot.rule? = some rule →
        RuleBuildable draft.registry.kinds draft.slots.size rule := by
      intro slot hslot rule hrule
      obtain ⟨_, hsome, hbuildable⟩ := h slot hslot
      cases hrule.symm.trans hsome
      exact hbuildable
    constructor
    · intro slot hslot hnone
      obtain ⟨_, hsome, _⟩ := h slot hslot
      cases hnone.symm.trans hsome
    · exact fun slot hslot rule hsome element hmem => ((hrule slot hslot rule hsome).elements element hmem).rules
    · exact fun slot hslot rule hsome => (hrule slot hslot rule hsome).kind
    · intro slot hslot rule hsome kind factor operators hmem
      have hready := (hrule slot hslot rule hsome).elements _ hmem
      exact ⟨hready.lists kind (by simp [Element.listKinds]), hready.tokens .leaf (by simp [Element.tokenKinds])⟩
    · intro slot hslot rule hsome what kind hmem
      exact ((hrule slot hslot rule hsome).elements _ hmem).tokens kind (by simp [Element.tokenKinds])

theorem exists_build_iff (draft : Draft) : (∃ g, draft.build.1 = .ok g) ↔ draft.Buildable := by
  have hbuild : Decides draft.registry.kinds draft.buildM draft.Buildable := by
    have hslots : ∀ g, Decides draft.registry.kinds
        (draft.slots.toList.foldlM (addSlot draft.slots.size) g) (∀ slot ∈ draft.slots.toList,
          ∃ rule, slot.rule? = some rule ∧ RuleBuildable draft.registry.kinds draft.slots.size rule) :=
      .foldlM (addSlot_decides draft.slots.size) _
    rw [buildM, ← Array.foldlM_toList]
    refine ((hslots _).bind fun g => (Decides.debug _).bind fun _ => .pure g).congr ?_
    simp [buildable_iff]
  exact (hbuild draft.registry rfl).1

end Draft

/-- What is wrong with a grammar itself, as building can tell. -/
def GrammarError.IsDefect : GrammarError → Prop
  | missingFactory _ _ => True
  | undefinedRule _ => True
  | unknownRule _ => True
  | notAnAlternation _ => True
  | constructionFailed _ _ => False
  | leftRecursion => False

namespace ParseError

def IsDefect : ParseError → Prop
  | grammar error => error.IsDefect
  | _ => False

theorem not_isDefect_of_isRecoverable {error : ParseError} (h : error.isRecoverable = true) :
    ¬ error.IsDefect := by
  cases error with
  | unexpected | invalidArgument => exact id
  | lex | grammar => cases h

end ParseError

theorem Factory.not_isDefect_of_makeAt {α : Type} {factory : Factory α} {line? : Option Nat} {argument : α}
    {error : ParseError} (h : factory.makeAt line? argument = .error error) : ¬ error.IsDefect := by
  rcases makeAt_eq_error h with ⟨_, _, rfl⟩ | ⟨_, _, rfl⟩ <;> exact id

namespace ParseM

variable {σ α β : Type}

def Defectless (p : ParseM σ α) : Prop :=
  ∀ s error, (p s).1 = .error error → ¬ error.IsDefect

namespace Defectless

theorem pure (a : α) : Defectless (Pure.pure a : ParseM σ α) := by
  rintro s error ⟨⟩

theorem throw {error : ParseError} (h : ¬ error.IsDefect) :
    Defectless (MonadExcept.throw error : ParseM σ α) := by
  rintro s _ ⟨⟩
  exact h

theorem bind {p : ParseM σ α} {f : α → ParseM σ β} (hp : Defectless p) (hf : ∀ a, Defectless (f a)) :
    Defectless (p >>= f) := by
  intro s error h
  rw [run_bind] at h
  rcases hfirst : p s with ⟨other | a, s'⟩ <;> rw [hfirst] at h
  · cases h
    exact hp s error (by rw [hfirst])
  · exact hf a s' error h

theorem of_mapError {p : ParseM σ α} (h : ∀ s, ∃ result : Except LexError α, (p s).1 = result.mapError .lex) :
    Defectless p := by
  intro s error herror
  obtain ⟨result, hresult⟩ := h s
  rw [hresult] at herror
  cases result <;> cases herror
  exact id

variable [TokenStream σ]

theorem tryOr {note : ParseError → String} {p : ParseM σ α} {next : ParseError → ParseM σ α}
    (hp : Defectless p) (hnext : ∀ error, error.isRecoverable = true → Defectless (next error)) :
    Defectless (p.tryOr note next) := by
  intro s error h
  rw [run_tryOr] at h
  rcases hattempt : p (TokenStream.checkpoint s).2 with ⟨other | a, s'⟩ <;> rw [hattempt] at h <;>
    dsimp only at h
  · by_cases hrecoverable : other.isRecoverable = true
    · rw [if_pos hrecoverable] at h
      exact hnext other hrecoverable _ error h
    · rw [if_neg hrecoverable] at h
      cases h
      exact hp _ error (by rw [hattempt])
  · cases h

theorem parametric : Parametric (fun error => ¬ error.IsDefect)
    fun (p : ParseM σ _) (_ : ParseM σ _) => Defectless p where
  pure := pure
  bind := bind
  throw := throw
  exhausted := throw id
  recoverable := ParseError.not_isDefect_of_isRecoverable
  peek := of_mapError fun s => ⟨_, congrArg Prod.fst (run_peek 0 s)⟩
  read := of_mapError fun s => ⟨_, congrArg Prod.fst (run_read s)⟩
  cursor := by rintro s error ⟨⟩
  tryOr := tryOr

end Defectless

end ParseM

namespace Grammar

theorem raises_not_isDefect {g : Grammar} (h : g.Complete) :
    g.Raises (· < g.size) fun error => ¬ error.IsDefect where
  rule hid herror := (h.refers.rule hid herror).elim
  known := h.refers.known
  kind _ hrule children error herror := by
    obtain ⟨factory, hfactory⟩ := h.kind hrule
    rw [listNode, hfactory] at herror
    exact Factory.not_isDefect_of_makeAt herror
  tokenKinds _ hrule element hmem kind hkind token error herror := by
    obtain ⟨factory, hfactory⟩ := h.tokenKinds hrule element hmem kind hkind
    rw [tokenNode, hfactory] at herror
    exact Factory.not_isDefect_of_makeAt herror
  listKinds _ hrule element hmem kind hkind children error herror := by
    obtain ⟨factory, hfactory⟩ := h.listKinds hrule element hmem kind hkind
    rw [listNode, hfactory] at herror
    exact Factory.not_isDefect_of_makeAt herror

end Grammar

/-- Defects of a grammar show when it is built, which succeeds if and only if the draft is as it
should be, and a grammar that was built never fails with one, on any stream and in any state of it. -/
theorem Draft.defects_show_when_building (draft : Draft) :
    ((∃ g, draft.build.1 = .ok g) ↔ draft.Buildable) ∧
      ∀ g, draft.build.1 = .ok g → ∀ id < g.size, ∀ (σ : Type) [TokenStream σ] (s : σ) (error : ParseError),
        ((g.parse id s).1 = .error error ∨ (g.starts id s).1 = .error error ∨
          (g.parseAll id s).1 = .error error) → ¬ error.IsDefect := by
  refine ⟨exists_build_iff draft, fun g hbuild id hid σ _ s error herror => ?_⟩
  have hraises := Grammar.raises_not_isDefect (Grammar.complete_of_build hbuild)
  have hparametric := ParseM.Defectless.parametric (σ := σ)
  rcases herror with hparse | hstarts | hparseAll
  · rw [Grammar.run_parse] at hparse
    exact hparametric.parseBounded hraises (.refl _) hid s error hparse
  · exact hparametric.starts hraises.toRefers hid s error hstarts
  · rw [Grammar.run_parseAll] at hparseAll
    exact hparametric.parseUpTo hraises (.refl _) (.refl _) hid s error hparseAll

/-- A rule that is declared and never defined. -/
example : (Draft.declare {} "sum").2.build.1.isOk = false := by decide

/-- Sums of numbers and of sums in parentheses. A sum is declared before its factors. -/
def Draft.parenthesised : Draft :=
  let number : NodeKind := ⟨"number"⟩
  let draft := ({} : Draft).registering (·.addLeaf number)
  let (sum, draft) := draft.declare "sum"
  let (number, draft) := draft.add (Rule.untyped.number number)
  let (paren, draft) := draft.add (Rule.untyped.separator ["("] |>.tree sum |>.separator [")"])
  let (factor, draft) := draft.add (Rule.untyped.choice [paren, number])
  match draft.define sum (Rule.untyped.expression .list factor (.ofList [("+", ⟨1, .left⟩)])) with
  | .ok draft => draft
  | .error _ => draft

def Grammar.parenthesised : Grammar where
  rules := #[
    ⟨"sum", Rule.untyped.expression .list 3 (.ofList [("+", ⟨1, .left⟩)])⟩,
    ⟨"#1", Rule.untyped.number ⟨"number"⟩⟩,
    ⟨"#2", Rule.untyped.separator ["("] |>.tree 0 |>.separator [")"]⟩,
    ⟨"#3", Rule.untyped.choice [2, 1]⟩]
  tokens := ⟨[(⟨"number"⟩, ⟨⟨"number"⟩, .leaf ⟨"number"⟩⟩), (.leaf, ⟨.leaf, .leaf .leaf⟩)]⟩
  lists := ⟨[(.list, ⟨.list, .flattenOrWrap .list⟩)]⟩

/-- A parenthesis that is not closed, in a grammar with a rule that is defined last. -/
theorem Draft.defects_show_when_building_parenthesised :
    parenthesised.build.1 = .ok Grammar.parenthesised ∧ parenthesised.Buildable ∧
      0 < Grammar.parenthesised.size ∧
      let lexer := Lexer.ofSource [.text ['(', '1']] {}
      ∃ error, (Grammar.parenthesised.parse 0 lexer).1 = .error error ∧ ¬ error.IsDefect := by
  obtain ⟨hiff, hparses⟩ := parenthesised.defects_show_when_building
  have hbuild : parenthesised.build.1 = .ok Grammar.parenthesised := by cbv
  have hsize : 0 < Grammar.parenthesised.size := by decide
  refine ⟨hbuild, hiff.1 ⟨_, hbuild⟩, hsize, ?_⟩
  cases hresult : (Grammar.parenthesised.parse 0 (Lexer.ofSource [.text ['(', '1']] {})).1 with
  | error error => exact ⟨error, hresult, hparses _ hbuild 0 hsize Lexer _ error (.inl hresult)⟩
  | ok node =>
    have hfails : (Grammar.parenthesised.parse 0 (Lexer.ofSource [.text ['(', '1']] {})).1.isOk = false := by
      decide +kernel
    rw [hresult] at hfails
    cases hfails

end ParseKit
