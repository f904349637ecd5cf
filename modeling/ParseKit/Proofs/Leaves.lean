import Mathlib
import ParseKit.Proofs.LexerTape
import ParseKit.Proofs.ReadingRules

/-! The leaves of what is parsed, against the tokens that were taken. Where tokens become leaves and
lists keep their children in order, no way of parsing an element changes the order of leaves,
repeats one or makes one up: alternatives that were given up leave none behind, and only dropped
tokens have none. Main statement: `Grammar.leaves_in_source_order`. -/

namespace ParseKit

namespace Node

mutual

def leaves : Node → List Token
  | leaf _ token => [token]
  | list _ children => leavesAmong children

def leavesAmong : List Node → List Token
  | [] => []
  | node :: rest => node.leaves ++ leavesAmong rest

end

@[simp] theorem leaves_leaf (kind : NodeKind) (token : Token) : (leaf kind token).leaves = [token] := by
  rw [leaves]

@[simp] theorem leaves_list (kind : NodeKind) (children : List Node) :
    (list kind children).leaves = leavesAmong children := by
  rw [leaves]

@[simp] theorem leavesAmong_nil : leavesAmong [] = [] := by
  rw [leavesAmong]

@[simp] theorem leavesAmong_cons (node : Node) (rest : List Node) :
    leavesAmong (node :: rest) = node.leaves ++ leavesAmong rest := by
  rw [leavesAmong]

@[simp] theorem leavesAmong_append (nodes rest : List Node) :
    leavesAmong (nodes ++ rest) = leavesAmong nodes ++ leavesAmong rest := by
  induction nodes with
  | nil => simp
  | cons node nodes ih => simp [ih]

@[simp] theorem leavesAmong_kept (node : Node) : leavesAmong node.kept = node.leaves := by
  rcases node with ⟨kind, token⟩ | ⟨kind, _ | ⟨first, rest⟩⟩
  · simp [kept, isGenericEmpty]
  · by_cases h : kind = .list <;> simp [kept, isGenericEmpty, h]
  · simp [kept, isGenericEmpty]

mutual

theorem location_eq : ∀ node : Node, node.location = node.leaves.findSome? Token.line?
  | leaf kind token => by simp [location]
  | list kind children => by rw [location, leaves_list, locationAmong_eq children]

theorem locationAmong_eq :
    ∀ nodes : List Node, locationAmong nodes = (leavesAmong nodes).findSome? Token.line?
  | [] => by simp [locationAmong]
  | node :: rest => by
    rw [locationAmong, location_eq node, locationAmong_eq rest, leavesAmong_cons, List.findSome?_append,
      Option.orElse_eq_orElse, Option.orElse_eq_or]

end

end Node

theorem Builder.leaves_of_flattenOrWrap {kind : NodeKind} {children : List Node} {node : Node}
    (h : flattenOrWrap kind children = .ok node) : node.leaves = Node.leavesAmong children := by
  rcases children with _ | ⟨first, _ | ⟨second, rest⟩⟩ <;> cases h <;> simp

namespace Grammar

/-- Tokens become leaves, and lists keep all their children in order. -/
structure KeepsLeaves (g : Grammar) : Prop where
  tokens : ∀ {kind factory}, g.tokenFactory kind = .ok factory → ∃ leaf, factory.build = .leaf leaf
  lists : ∀ {kind factory}, g.listFactory kind = .ok factory →
    ∃ list, factory.build = .flattenOrWrap list ∨ factory.build = .wrap list

/-- The relation between the leaves that were built and the tokens that were taken goes on when a
token is kept, and when one is dropped that some rule drops. -/
structure Records (g : Grammar) (R : List Token → List Token → Prop) : Prop where
  kept : ∀ {xs us} (token : Token), R xs us → R (xs ++ [token]) (us ++ [token])
  dropped : ∀ {id rule what}, g.rule id = .ok rule → .drop what ∈ rule.elements →
    ∀ {xs us} (token : Token), R xs us → R xs (us ++ [token])

theorem records_sublist (g : Grammar) : g.Records List.Sublist where
  kept token h := h.append (.refl [token])
  dropped _ _ _ _ token h := h.trans (List.sublist_append_left _ [token])

def DropsNothing (g : Grammar) : Prop :=
  ∀ id rule, g.rule id = .ok rule → ∀ what, .drop what ∉ rule.elements

theorem DropsNothing.records_eq {g : Grammar} (h : g.DropsNothing) : g.Records Eq where
  kept _ heq := by rw [heq]
  dropped hrule hmem := absurd hmem (h _ _ hrule _)

variable {g : Grammar}

theorem KeepsLeaves.leaves_of_tokenNode (h : g.KeepsLeaves) {kind : NodeKind} {token : Token} {node : Node}
    (hnode : g.tokenNode kind token = .ok node) : node.leaves = [token] := by
  rw [tokenNode] at hnode
  split at hnode
  · next factory hfactory =>
    obtain ⟨leaf, hbuild⟩ := h.tokens hfactory
    have hbuilt := Factory.makeAt_eq_ok.1 hnode
    rw [hbuild] at hbuilt
    cases hbuilt
    simp
  · cases hnode

theorem KeepsLeaves.leaves_of_listNode (h : g.KeepsLeaves) {kind : NodeKind} {children : List Node}
    {node : Node} (hnode : g.listNode kind children = .ok node) :
    node.leaves = Node.leavesAmong children := by
  rw [listNode] at hnode
  split at hnode
  · next factory hfactory =>
    have hbuilt := Factory.makeAt_eq_ok.1 hnode
    obtain ⟨list, hflatten | hwrap⟩ := h.lists hfactory
    · rw [hflatten] at hbuilt
      exact Builder.leaves_of_flattenOrWrap hbuilt
    · rw [hwrap] at hbuilt
      cases hbuilt
      simp
  · cases hnode

end Grammar

namespace ParseM

variable {α β : Type} {R : List Token → List Token → Prop} {xs : List Token}

/-- If the leaves `xs` are on record for the tokens taken so far, then the parser, when it succeeds,
has taken further tokens, and the leaves `ys` of its result are on record for all of them. -/
def Collects (R : List Token → List Token → Prop) (xs : List Token) (p : ParseM Tape α)
    (ys : α → List Token) : Prop :=
  ∀ tape tape' a us, p tape = (.ok a, tape') → R xs us → ∃ vs, tape.Leads vs tape' ∧ R (ys a) (us ++ vs)

namespace Collects

theorem bind {p : ParseM Tape α} {f : α → ParseM Tape β} {ys : α → List Token} {zs : β → List Token}
    (hp : Collects R xs p ys) (hf : ∀ a, Collects R (ys a) (f a) zs) : Collects R xs (p >>= f) zs := by
  intro tape tape' b us h hxs
  obtain ⟨a, mid, ha, hb⟩ := bind_eq_ok.1 h
  obtain ⟨vs, hleads, hys⟩ := hp _ _ _ _ ha hxs
  obtain ⟨ws, hleads', hzs⟩ := hf a _ _ _ _ hb hys
  rw [List.append_assoc] at hzs
  exact ⟨vs ++ ws, hleads.trans hleads', hzs⟩

theorem of_stays {p : ParseM Tape α} {ys : α → List Token} (hp : Stays p)
    (h : ∀ {tape tape' a}, p tape = (.ok a, tape') → ys a = xs) : Collects R xs p ys := by
  intro tape tape' a us ha hxs
  have hback : tape' = tape := hp.eq_of_ok ha
  rw [hback, h ha]
  exact ⟨[], .refl tape, by rwa [List.append_nil]⟩

theorem look {p : ParseM Tape α} (hp : Stays p) : Collects R xs p fun _ => xs :=
  of_stays hp fun _ => rfl

theorem pure {a : α} {ys : α → List Token} (h : ys a = xs) : Collects R xs (Pure.pure a) ys :=
  of_stays (Stays.pure a) fun hb => by cases hb; exact h

theorem throw (error : ParseError) (ys : α → List Token) :
    Collects R xs (MonadExcept.throw error) ys := by
  intro tape tape' a us h
  cases h

theorem ite {c : Prop} [Decidable c] {p q : ParseM Tape α} {ys : α → List Token}
    (hp : Collects R xs p ys) (hq : Collects R xs q ys) : Collects R xs (if c then p else q) ys := by
  split
  · exact hp
  · exact hq

end Collects

end ParseM

theorem TokenClass.leads_of_take {what : TokenClass} {token : Token} {tape tape' : Tape}
    (h : what.take tape = (.ok token, tape')) : tape.Leads [token] tape' := by
  rcases tape with ⟨past, _ | ⟨fault | next, rest⟩⟩
  · rw [take_of_not_accepts rfl what.accepts_endOfInput] at h
    cases h
  · cases h
  · by_cases haccepts : what.accepts next = true
    · rw [take_of_accepts haccepts] at h
      cases h
      exact ⟨rfl, rfl⟩
    · rw [take_of_not_accepts rfl (by simpa using haccepts)] at h
      cases h

namespace Grammar

open ParseM

variable {g : Grammar} {R : List Token → List Token → Prop}

section Builders

variable (hkeeps : g.KeepsLeaves) (xs : List Token) (kind : NodeKind)
include hkeeps

theorem makeToken_collects (token : Token) :
    Collects R (xs ++ [token]) (g.makeToken kind token) fun node => xs ++ node.leaves := by
  refine .of_stays (Stays.makeToken g kind token) fun {tape tape' node} hnode => ?_
  rw [run_makeToken] at hnode
  rw [hkeeps.leaves_of_tokenNode (Prod.mk.inj hnode).1]

theorem makeList_collects (children : List Node) :
    Collects R (xs ++ Node.leavesAmong children) (g.makeList kind children) fun node => xs ++ node.leaves := by
  refine .of_stays (Stays.makeList g kind children) fun {tape tape' node} hnode => ?_
  rw [run_makeList] at hnode
  rw [hkeeps.leaves_of_listNode (Prod.mk.inj hnode).1]

end Builders

section Runner

variable {run : Runner Tape} {N : RuleId → Prop} (hwalks : ∀ id, Walks (N id) (run.parse id))
  (hrun : ∀ id xs, Collects R xs (run.parse id) fun node => xs ++ node.leaves)

include hwalks hrun in
/-- An alternative that is refused has taken nothing when the next one is tried. -/
theorem parseChoice_collects (last? : Option ParseError) (ids : List RuleId) (xs : List Token) :
    Collects R xs (g.parseChoice run last? ids) fun node => xs ++ node.leaves := by
  induction ids generalizing last? with
  | nil =>
    cases last? with
    | none => exact (Collects.look Stays.peek_zero).bind fun _ => .throw _ _
    | some error => exact .throw error _
  | cons id ids ih =>
    intro tape tape' node us h hxs
    rcases hstarts : g.starts id tape with ⟨error | b, mid⟩
    · rw [parseChoice, bind_of_error hstarts] at h
      cases h
    · have hback : mid = tape := (Stays.starts g id).eq_of_ok hstarts
      subst hback
      cases b with
      | false =>
        rw [parseChoice, bind_of_ok hstarts] at h
        exact ih last? _ _ _ _ h hxs
      | true =>
        rw [g.parseChoice_of_starts hwalks hstarts] at h
        rcases hparse : run.parse id mid with ⟨error | chosen, after⟩ <;> rw [hparse] at h <;> dsimp only at h
        · by_cases hrecoverable : error.isRecoverable = true
          · rw [if_pos hrecoverable] at h
            exact ih (some error) _ _ _ _ h hxs
          · rw [if_neg hrecoverable] at h
            cases h
        · cases h
          exact hrun id xs _ _ _ _ hparse hxs

include hrun

theorem parseRepeated_collects (id : RuleId) (once : Bool) (bound : Nat) (xs : List Token) :
    Collects R xs (g.parseRepeated run id once bound) fun nodes => xs ++ Node.leavesAmong nodes := by
  induction bound generalizing xs with
  | zero => exact .throw _ _
  | succ bound ih =>
    have hnone : xs ++ Node.leavesAmong [] = xs := by simp
    have hkept : ∀ node : Node, xs ++ Node.leavesAmong node.kept = xs ++ node.leaves := by simp
    have hmore : ∀ (node : Node) (nodes : List Node), xs ++ Node.leavesAmong (node.kept ++ nodes) =
        xs ++ node.leaves ++ Node.leavesAmong nodes := by simp
    simp only [parseRepeated]
    refine (Collects.look (Stays.starts g id)).bind fun b => .ite ?_ (.pure hnone)
    refine (Collects.look Stays.cursor).bind fun start => (hrun id xs).bind fun node => ?_
    refine (Collects.look Stays.cursor).bind fun stop => .ite (.pure (hkept node)) ?_
    exact (ih (xs ++ node.leaves)).bind fun nodes => .pure (hmore node nodes)

theorem parseOperators_collects (hkeeps : g.KeepsLeaves) (hrecords : g.Records R) (kind : NodeKind)
    (factor : RuleId) (operators : Operators) (outer? : Option Precedence) (left : Node) (bound : Nat)
    (xs : List Token) : Collects R (xs ++ left.leaves)
      (g.parseOperators run kind factor operators outer? left bound) fun node => xs ++ node.leaves := by
  induction bound generalizing outer? left xs with
  | zero => exact .throw _ _
  | succ bound ih =>
    intro tape tape' node us h hleft
    rcases parseOperators_eq_ok h with ⟨hnode, htape, _⟩ |
      ⟨operator, p, opNode, operand, right, inner, tape₁, tape₂, tape₃, hp, -, hread, hop, hoperand,
        hright, hinner, hrest⟩
    · rw [hnode, htape]
      exact ⟨[], .refl tape, by rwa [List.append_nil]⟩
    · have hnames : operators.Names operator := Operators.names_iff.2 ⟨p, hp⟩
      have hleads₁ : tape.Leads [operator] tape₁ := (Operands.read_names hnames hread).2
      have hrecord := hrecords.kept operator hleft
      obtain ⟨vs₂, hleads₂, hrecord₂⟩ := hrun factor _ _ _ _ _ hoperand hrecord
      obtain ⟨vs₃, hleads₃, hright₃⟩ := ih (some p) operand _ _ _ _ _ hright hrecord₂
      have hleaves : inner.leaves = left.leaves ++ [operator] ++ right.leaves := by
        rw [hkeeps.leaves_of_listNode hinner]
        simp [hkeeps.leaves_of_tokenNode hop]
      have hrecord₃ : R (xs ++ inner.leaves) (us ++ [operator] ++ vs₂ ++ vs₃) := by
        simpa [hleaves] using hright₃
      obtain ⟨vs₄, hleads₄, hrecord₄⟩ := ih outer? inner xs _ _ _ _ hrest hrecord₃
      refine ⟨_, ((hleads₁.trans hleads₂).trans hleads₃).trans hleads₄, ?_⟩
      simpa using hrecord₄

section Element

variable (hkeeps : g.KeepsLeaves) (hrecords : g.Records R) {id : RuleId} {rule : Rule}
  (hrule : g.rule id = .ok rule)
include hwalks hkeeps hrecords hrule

theorem parseElement_collects {element : Element} (hmem : element ∈ rule.elements) (xs : List Token) :
    Collects R xs (g.parseElement run element) fun nodes => xs ++ Node.leavesAmong nodes := by
  have hsingle : ∀ node : Node, xs ++ Node.leavesAmong [node] = xs ++ node.leaves := by simp
  cases element with
  | keep what kind =>
    have htake : Collects R xs what.take fun token => xs ++ [token] := fun _ _ token us h hxs =>
      ⟨[token], TokenClass.leads_of_take h, hrecords.kept _ hxs⟩
    refine htake.bind fun token => (makeToken_collects hkeeps xs kind token).bind fun node => ?_
    exact .pure (hsingle node)
  | drop what =>
    have htake : Collects R xs what.take fun _ => xs := fun _ _ token us h hxs =>
      ⟨[token], TokenClass.leads_of_take h, hrecords.dropped hrule hmem _ hxs⟩
    exact htake.bind fun token => .pure (by simp)
  | tree other => exact (hrun other xs).bind fun node => .pure (hsingle node)
  | choice ids =>
    exact (parseChoice_collects hwalks hrun none ids xs).bind fun node => .pure (hsingle node)
  | repeated other once => exact parseRepeated_collects hrun other once _ xs
  | orEmpty other =>
    have hempty : ∀ kind, Collects R xs (g.makeList kind []) fun node => xs ++ node.leaves := by
      intro kind
      have hmake := makeList_collects (R := R) hkeeps xs kind []
      rwa [Node.leavesAmong_nil, List.append_nil] at hmake
    simp only [parseElement]
    refine (Collects.look (Stays.starts g other)).bind fun b => .ite ?_ ?_
    · exact (hrun other xs).bind fun node => .pure (hsingle node)
    · refine (Collects.look (Stays.ofGrammar _)).bind fun rule => ?_
      exact (hempty rule.kind).bind fun node => .pure (hsingle node)
  | expression kind factor operators =>
    refine (hrun factor xs).bind fun left => ?_
    have hoperators := parseOperators_collects hrun hkeeps hrecords kind factor operators none left
      (run.bound + 1) xs
    exact hoperators.bind fun node => .pure (hsingle node)

theorem parseElements_collects {elements : List Element} (hsub : elements ⊆ rule.elements)
    (xs : List Token) :
    Collects R xs (g.parseElements run elements) fun nodes => xs ++ Node.leavesAmong nodes := by
  induction elements generalizing xs with
  | nil => exact .pure (by simp)
  | cons element rest ih =>
    obtain ⟨hmem, hrest⟩ := List.cons_subset.1 hsub
    refine (parseElement_collects hwalks hrun hkeeps hrecords hrule hmem xs).bind fun nodes => ?_
    exact (ih hrest (xs ++ Node.leavesAmong nodes)).bind fun others => .pure (by simp)

end Element

end Runner

theorem parseWithin_collects (hkeeps : g.KeepsLeaves) (hrecords : g.Records R) (bound depth : Nat)
    (id : RuleId) (xs : List Token) :
    Collects R xs (g.parseWithin bound depth id) fun node => xs ++ node.leaves := by
  induction depth generalizing id xs with
  | zero =>
    simp only [parseWithin]
    exact (Collects.look (Stays.ofGrammar _)).bind fun _ => .throw _ _
  | succ depth ih =>
    simp only [parseWithin]
    cases hrule : g.rule id with
    | error error => exact .throw _ _
    | ok rule =>
      rw [ofGrammar_ok_bind]
      have hwalks : ∀ other, Walks (g.NullableRule other) (g.parseWithin bound depth other) :=
        g.parseWithin_walks bound depth
      have helements : Collects R xs
          (g.parseElements ⟨g.parseWithin bound depth, bound⟩ rule.elements) fun nodes =>
            xs ++ Node.leavesAmong nodes :=
        parseElements_collects hwalks ih hkeeps hrecords hrule (List.Subset.refl _) xs
      exact helements.bind fun nodes => makeList_collects hkeeps xs rule.kind nodes

/-- Every node has its leaves in source order: they are among the tokens that the parse took, and if
no rule drops a token they are these tokens. Nothing is asked of the rules. -/
theorem leaves_in_source_order {g : Grammar} (hkeeps : g.KeepsLeaves) (id : RuleId) {lexer lexer' : Lexer}
    (hlexer : lexer.Sound) {node : Node} (h : g.parse id lexer = (.ok node, lexer')) :
    ∃ us, lexer.Takes us lexer' ∧ node.leaves.Sublist us ∧ (g.DropsNothing → node.leaves = us) := by
  obtain ⟨marks, tape, hshows⟩ := hlexer.exists_shows
  rw [run_parse] at h
  obtain ⟨tape', htape, hshows'⟩ := (Lexer.simulation.parseBounded g _ id).of_ok hshows h
  have hsublist := parseWithin_collects hkeeps g.records_sublist (TokenStream.unread lexer)
    (g.size * (TokenStream.unread lexer + 1) + 1) id []
  obtain ⟨us, hleads, hamong⟩ := hsublist tape tape' node [] htape (.refl [])
  refine ⟨us, hshows.takes hshows' hleads, by simpa using hamong, fun hdrops => ?_⟩
  have hequal := parseWithin_collects hkeeps hdrops.records_eq (TokenStream.unread lexer)
    (g.size * (TokenStream.unread lexer + 1) + 1) id []
  obtain ⟨vs, hleads', heq⟩ := hequal tape tape' node [] htape rfl
  obtain rfl := hleads.unique hleads'
  simpa using heq

theorem KeepsLeaves.of_entries {g : Grammar}
    (htokens : ∀ entry ∈ g.tokens.entries, ∃ leaf, entry.2.build = .leaf leaf)
    (hlists : ∀ entry ∈ g.lists.entries,
      ∃ list, entry.2.build = .flattenOrWrap list ∨ entry.2.build = .wrap list) : g.KeepsLeaves where
  tokens h := by
    obtain ⟨entry, hmem, rfl⟩ := exists_mem_of_tokenFactory h
    exact htokens entry hmem
  lists h := by
    obtain ⟨entry, hmem, rfl⟩ := exists_mem_of_listFactory h
    exact hlists entry hmem

end Grammar

def Draft.marked : Draft :=
  let number : NodeKind := ⟨"number"⟩
  let sum : NodeKind := ⟨"sum"⟩
  let draft := ({} : Draft).registering (·.addLeaf number |>.addListConstructor sum (.wrap sum))
  let (factor, draft) := draft.add (Rule.untyped.number number)
  let (total, draft) := draft.add (Rule.untyped.expression sum factor (.ofList [("+", ⟨1, .left⟩)]))
  let (asked, draft) := draft.add ((Rule.untyped.tree total).token ["?"])
  let (told, draft) := draft.add ((Rule.untyped.tree total).token ["!"])
  let (marked, draft) := draft.add (Rule.untyped.choice [asked, told])
  (draft.add (Rule.untyped.many marked)).2

namespace Grammar

def marked : Grammar where
  rules := #[
    ⟨"#0", Rule.untyped.number ⟨"number"⟩⟩,
    ⟨"#1", Rule.untyped.expression ⟨"sum"⟩ 0 (.ofList [("+", ⟨1, .left⟩)])⟩,
    ⟨"#2", (Rule.untyped.tree 1).token ["?"]⟩,
    ⟨"#3", (Rule.untyped.tree 1).token ["!"]⟩,
    ⟨"#4", Rule.untyped.choice [2, 3]⟩,
    ⟨"#5", Rule.untyped.many 4⟩]
  tokens := ⟨[(.leaf, ⟨.leaf, .leaf .leaf⟩), (⟨"number"⟩, ⟨⟨"number"⟩, .leaf ⟨"number"⟩⟩)]⟩
  lists := ⟨[(⟨"sum"⟩, ⟨⟨"sum"⟩, .wrap ⟨"sum"⟩⟩), (.list, ⟨.list, .flattenOrWrap .list⟩)]⟩

/-- The sum is parsed twice before it turns out to be of the second form. -/
theorem leaves_in_source_order_marked :
    Draft.marked.build.1 = .ok marked ∧ marked.KeepsLeaves ∧ marked.DropsNothing ∧
      let lexer := Lexer.ofSource [.text ['1', '+', '2', '!', '3', '?']] {}
      lexer.Sound ∧ ∃ node lexer', marked.parse 5 lexer = (.ok node, lexer') ∧
        ∃ us, lexer.Takes us lexer' ∧ node.leaves.Sublist us ∧ node.leaves = us := by
  have hbuild : Draft.marked.build.1 = .ok marked := by cbv
  have hkeeps : marked.KeepsLeaves := by
    refine .of_entries ?_ ?_
    · simp [marked]
    · simpa [marked] using ⟨⟨_, .inr rfl⟩, ⟨_, .inl rfl⟩⟩
  have hdrops : marked.DropsNothing := by
    intro id rule hrule what hmem
    obtain ⟨name, hname⟩ := rule_eq_ok_iff.1 hrule
    have hkept : ∀ named ∈ marked.rules.toList, .drop what ∉ named.rule.elements := by
      simp [marked, Rule.untyped, Rule.number, Rule.expression, Rule.token, Rule.tree, Rule.many,
        Rule.choice, Rule.push]
    exact hkept _ (Array.mem_toList_iff.2 (Array.mem_of_getElem? hname)) hmem
  have hok : (marked.parse 5 (Lexer.ofSource [.text ['1', '+', '2', '!', '3', '?']] {})).1.isOk = true := by
    decide +kernel
  refine ⟨hbuild, hkeeps, hdrops, .ofSource _ _, ?_⟩
  rcases h : marked.parse 5 (Lexer.ofSource [.text ['1', '+', '2', '!', '3', '?']] {}) with
    ⟨error | node, lexer'⟩
  · rw [h] at hok
    cases hok
  · obtain ⟨us, htakes, hsublist, hequal⟩ := leaves_in_source_order hkeeps 5 (.ofSource _ _) h
    exact ⟨node, lexer', rfl, us, htakes, hsublist, hequal hdrops⟩

end Grammar

end ParseKit
