import Mathlib
import ParseKit.Proofs.LeftRecursion
import ParseKit.Proofs.LexerTape
import ParseKit.Proofs.Walking

/-! The lookahead of a rule against a parse of it. Both meet the elements of a rule in the same
order, and up to the first element that cannot be passed over neither takes a token. Main statement:
`Grammar.starts_of_parse_and_refusal`, a rule that parses could start, and a rule that could not
start is refused on the spot. -/

namespace ParseKit

theorem ParseM.peek_zero_eq_ok {tape tape' : Tape} {token : Token}
    (h : ParseM.peek 0 tape = (.ok token, tape')) : (tape.peek 0).1 = .ok token := by
  rcases tape with ⟨past, _ | ⟨fault | next, rest⟩⟩ <;> cases h <;> rfl

theorem ParseM.anyM_eq_false {σ : Type} {f : RuleId → ParseM σ Bool} {s t : σ}
    (hf : ∀ id b t, f id s = (.ok b, t) → t = s) {ids : List RuleId} (h : (ids.anyM f) s = (.ok false, t)) :
    ∀ id ∈ ids, f id s = (.ok false, s) := by
  induction ids with
  | nil => simp
  | cons id ids ih =>
    obtain ⟨b, t', hb, hrest⟩ := ParseM.bind_eq_ok.1 h
    obtain rfl := hf id b t' hb
    cases b with
    | true => cases hrest
    | false => exact List.forall_mem_cons.2 ⟨hb, ih hrest⟩

namespace Grammar

variable {g : Grammar}

theorem starts_eq_ok {id : RuleId} {tape tape' : Tape} {b : Bool}
    (h : g.starts id tape = (.ok b, tape')) : tape' = tape :=
  (ParseM.Stays.starts g id).eq_of_ok h

theorem lt_size_of_starts (hg : ¬ g.LeftRecursive) {id : RuleId} {tape tape' : Tape} {b : Bool}
    (h : g.starts id tape = (.ok b, tape')) : id < g.size := by
  by_contra hunknown
  rw [starts_eq hg, rule_of_le (Nat.le_of_not_lt hunknown)] at h
  cases h

section Foretold

def Foretold (g : Grammar) (run : Runner Tape) : Prop :=
  ∀ id tape node tape', run.parse id tape = (.ok node, tape') → g.starts id tape = (.ok true, tape)

variable {run : Runner Tape} {tape tape' : Tape}

theorem anyM_of_parseChoice {last? : Option ParseError} {ids : List RuleId} {node : Node}
    (h : g.parseChoice run last? ids tape = (.ok node, tape')) :
    (ids.anyM g.starts) tape = (.ok true, tape) := by
  induction ids generalizing last? with
  | nil =>
    cases last? with
    | none =>
      obtain ⟨token, _, _, hthrow⟩ := ParseM.bind_eq_ok.1 h
      cases hthrow
    | some error => cases h
  | cons id ids ih =>
    simp only [Grammar.parseChoice] at h
    obtain ⟨b, t, hstarts, hrest⟩ := ParseM.bind_eq_ok.1 h
    obtain rfl := starts_eq_ok hstarts
    rw [List.anyM, ParseM.bind_of_ok hstarts]
    cases b with
    | true => rfl
    | false => exact ih hrest

variable (hrun : g.Foretold run)
include hrun

/-- An element that parses could start, or it is optional and was passed over. -/
theorem startsWith_of_parseElement {element : Element} {nodes : List Node}
    (h : g.parseElement run element tape = (.ok nodes, tape')) :
    element.startsWith g.starts tape = (.ok true, tape) ∨
      element.startsWith g.starts tape = (.ok false, tape) ∧ element.isOptional = true ∧
        tape' = tape := by
  have htake : ∀ {what : TokenClass} {token t}, what.take tape = (.ok token, t) →
      (return what.accepts (← ParseM.peek 0) : ParseM Tape Bool) tape = (.ok true, tape) := by
    intro what token t htaken
    obtain ⟨next, t', hpeek, hnext⟩ := ParseM.bind_eq_ok.1 htaken
    obtain rfl := ParseM.Stays.peek_zero.eq_of_ok hpeek
    by_cases haccepts : what.accepts next = true
    · rw [ParseM.bind_of_ok hpeek, haccepts]
      rfl
    · rw [if_neg haccepts] at hnext
      cases hnext
  cases element with
  | keep what kind =>
    obtain ⟨token, t, htaken, _⟩ := ParseM.bind_eq_ok.1 h
    exact .inl (htake htaken)
  | drop what =>
    obtain ⟨token, t, htaken, _⟩ := ParseM.bind_eq_ok.1 h
    exact .inl (htake htaken)
  | tree id =>
    obtain ⟨node, t, hparse, _⟩ := ParseM.bind_eq_ok.1 h
    exact .inl (hrun id tape node t hparse)
  | choice ids =>
    obtain ⟨node, t, hparse, _⟩ := ParseM.bind_eq_ok.1 h
    exact .inl (anyM_of_parseChoice hparse)
  | repeated id once =>
    simp only [Grammar.parseElement, Grammar.parseRepeated] at h
    obtain ⟨b, t, hstarts, hrest⟩ := ParseM.bind_eq_ok.1 h
    obtain rfl := starts_eq_ok hstarts
    cases b with
    | true => exact .inl hstarts
    | false =>
      cases hrest
      exact .inr ⟨hstarts, rfl, rfl⟩
  | orEmpty id =>
    simp only [Grammar.parseElement] at h
    obtain ⟨b, t, hstarts, hrest⟩ := ParseM.bind_eq_ok.1 h
    obtain rfl := starts_eq_ok hstarts
    cases b with
    | true => exact .inl hstarts
    | false =>
      have hstays : ParseM.Stays (ParseM.ofGrammar (g.rule id) >>= fun rule => do
          return [← g.makeList rule.kind []] : ParseM Tape (List Node)) :=
        (ParseM.Stays.ofGrammar _).bind fun rule =>
          (ParseM.Stays.makeList g rule.kind []).bind fun _ => ParseM.Stays.pure _
      exact .inr ⟨hstarts, rfl, hstays.eq_of_ok hrest⟩
  | expression kind factor operators =>
    obtain ⟨left, t, hparse, _⟩ := ParseM.bind_eq_ok.1 h
    exact .inl (hrun factor tape left t hparse)

theorem allStartWith_of_parseElements {elements : List Element} {nodes : List Node}
    (h : g.parseElements run elements tape = (.ok nodes, tape')) :
    Element.allStartWith g.starts elements tape = (.ok true, tape) := by
  induction elements generalizing tape tape' nodes with
  | nil => rfl
  | cons element rest ih =>
    obtain ⟨first, t, helement, hrest⟩ := ParseM.bind_eq_ok.1 h
    obtain ⟨others, t', hothers, _⟩ := ParseM.bind_eq_ok.1 hrest
    rw [Element.allStartWith]
    rcases startsWith_of_parseElement hrun helement with hstarts | ⟨hstarts, hoptional, rfl⟩
    · rw [ParseM.bind_of_ok hstarts]
      rfl
    · rw [ParseM.bind_of_ok hstarts]
      simp only [Bool.false_eq_true, ↓reduceIte, hoptional]
      exact ih hothers

end Foretold

theorem starts_of_parseWithin (hg : ¬ g.LeftRecursive) (bound depth : Nat) :
    g.Foretold ⟨g.parseWithin bound depth, bound⟩ := by
  induction depth with
  | zero =>
    intro id tape node tape' h
    simp only [parseWithin] at h
    obtain ⟨rule, t, _, hthrow⟩ := ParseM.bind_eq_ok.1 h
    cases hthrow
  | succ depth ih =>
    intro id tape node tape' h
    simp only [parseWithin] at h
    rw [starts_eq hg]
    cases hrule : g.rule id with
    | error error =>
      rw [hrule] at h
      cases h
    | ok rule =>
      rw [hrule, ParseM.ofGrammar_ok_bind] at h
      obtain ⟨nodes, t, hnodes, _⟩ := ParseM.bind_eq_ok.1 h
      exact allStartWith_of_parseElements ih hnodes

/-- Before it takes a token the rule may come to an element that it may leave out and whose empty
node cannot be built. -/
def EmptyNodeFails (g : Grammar) (id : RuleId) (error : ParseError) : Prop :=
  ∃ caller optional rule, Relation.ReflTransGen g.LeftCalls id caller ∧
    g.Opens caller (.orEmpty optional) ∧ g.rule optional = .ok rule ∧
    g.listNode rule.kind [] = .error error

/-- Before it takes a token the rule may come to an alternation without alternatives. No other
lookahead says no without asking for a token. -/
def MeetsBareChoice (g : Grammar) (id : RuleId) : Prop :=
  ∃ caller, Relation.ReflTransGen g.LeftCalls id caller ∧ g.Opens caller (.choice [])

/-- Why a rule may be refused before it takes a token, where `next` is what stands there. -/
inductive Refusal (g : Grammar) (id : RuleId) (next : Item) : ParseError → Prop
  | unexpected {token : Token} (h : next = .ok token) : Refusal g id next (.unexpected token)
  | emptyNode {error : ParseError} (h : g.EmptyNodeFails id error) : Refusal g id next error
  | fault {fault : LexError} (hbare : g.MeetsBareChoice id) (h : next = .error fault) :
    Refusal g id next (.lex fault)

theorem MeetsBareChoice.head {id other : RuleId} (hcall : g.LeftCalls id other)
    (h : g.MeetsBareChoice other) : g.MeetsBareChoice id := by
  obtain ⟨caller, hcalls, hopens⟩ := h
  exact ⟨caller, .head hcall hcalls, hopens⟩

theorem Refusal.head {id other : RuleId} {next : Item} {error : ParseError}
    (hcall : g.LeftCalls id other) (h : g.Refusal other next error) : g.Refusal id next error := by
  cases h with
  | unexpected h => exact .unexpected h
  | emptyNode h =>
    obtain ⟨caller, optional, rule, hcalls, hopens⟩ := h
    exact .emptyNode ⟨caller, optional, rule, .head hcall hcalls, hopens⟩
  | fault hbare h => exact .fault (hbare.head hcall) h

/-- The parser fails where it stands, for one of the reasons that the rule has. -/
def RefusedBy {α : Type} (g : Grammar) (id : RuleId) (p : ParseM Tape α) (tape : Tape) : Prop :=
  ∃ error tape', p tape = (.error error, tape') ∧ tape'.past = tape.past ∧
    g.Refusal id (tape.peek 0).1 error

theorem RefusedBy.bind {α β : Type} {id : RuleId} {p : ParseM Tape α} {tape : Tape}
    (h : g.RefusedBy id p tape) (f : α → ParseM Tape β) : g.RefusedBy id (p >>= f) tape := by
  obtain ⟨error, tape', hp, hpast, hrefusal⟩ := h
  exact ⟨error, tape', ParseM.bind_of_error hp, hpast, hrefusal⟩

theorem RefusedBy.head {α : Type} {id other : RuleId} {p : ParseM Tape α} {tape : Tape}
    (hcall : g.LeftCalls id other) (h : g.RefusedBy other p tape) : g.RefusedBy id p tape := by
  obtain ⟨error, tape', hp, hpast, hrefusal⟩ := h
  exact ⟨error, tape', hp, hpast, hrefusal.head hcall⟩

/-- A lookahead that says no has seen a token, unless it came to a bare alternation. -/
theorem next_of_starts_eq_false (hg : ¬ g.LeftRecursive) {id : RuleId} {tape : Tape}
    (h : g.starts id tape = (.ok false, tape)) :
    (∃ token, (tape.peek 0).1 = .ok token) ∨ g.MeetsBareChoice id := by
  refine starts_induction hg (motive := fun id p => p tape = (.ok false, tape) →
    (∃ token, (tape.peek 0).1 = .ok token) ∨ g.MeetsBareChoice id) ?_ ?_ id h
  · intro id error _ h
    cases h
  intro id rule hrule ih h
  rcases helements : rule.elements with _ | ⟨element, rest⟩ <;> rw [helements] at h
  · cases h
  obtain ⟨b, t, hfirst, hrest⟩ := ParseM.bind_eq_ok.1 h
  obtain rfl := (ParseM.Stays.startsWith g element).eq_of_ok hfirst
  cases b with
  | true => cases hrest
  | false =>
    have hopens : g.Opens id element := ⟨rule, [], rest, hrule, helements, by simp⟩
    have hcalled : ∀ other ∈ element.rules, g.starts other t = (.ok false, t) →
        (∃ token, (t.peek 0).1 = .ok token) ∨ g.MeetsBareChoice id :=
      fun other hmem hstarts => (ih other (hopens.leftCalls hmem) hstarts).imp_right
        fun hbare => hbare.head (hopens.leftCalls hmem)
    cases element with
    | keep what kind =>
      obtain ⟨token, t', hpeek, _⟩ := ParseM.bind_eq_ok.1 hfirst
      exact .inl ⟨token, ParseM.peek_zero_eq_ok hpeek⟩
    | drop what =>
      obtain ⟨token, t', hpeek, _⟩ := ParseM.bind_eq_ok.1 hfirst
      exact .inl ⟨token, ParseM.peek_zero_eq_ok hpeek⟩
    | choice ids =>
      rcases ids with _ | ⟨other, ids⟩
      · exact .inr ⟨id, .refl, hopens⟩
      · have hall := ParseM.anyM_eq_false (fun _ _ _ => starts_eq_ok) hfirst
        exact hcalled other (by simp [Element.rules]) (hall other (by simp))
    | tree other | repeated other once | orEmpty other =>
      exact hcalled other (by simp [Element.rules]) hfirst
    | expression kind factor operators => exact hcalled factor (by simp [Element.rules]) hfirst

section Refused

variable {run : Runner Tape} {id : RuleId} {tape : Tape}

theorem refusedBy_take {what : TokenClass}
    (h : (return what.accepts (← ParseM.peek 0) : ParseM Tape Bool) tape = (.ok false, tape)) :
    g.RefusedBy id what.take tape := by
  obtain ⟨token, t, hpeek, haccepts⟩ := ParseM.bind_eq_ok.1 h
  have hnext := ParseM.peek_zero_eq_ok hpeek
  obtain rfl := ParseM.Stays.peek_zero.eq_of_ok hpeek
  have hfalse : what.accepts token = false := by
    simpa using congrArg Prod.fst haccepts
  refine ⟨.unexpected token, t, ?_, rfl, .unexpected hnext⟩
  rw [TokenClass.take, ParseM.bind_of_ok hpeek, hfalse]
  rfl

theorem refusedBy_unexpected {α : Type}
    (h : (∃ token, (tape.peek 0).1 = .ok token) ∨ g.MeetsBareChoice id) :
    g.RefusedBy id (ParseM.unexpected : ParseM Tape α) tape := by
  rcases tape with ⟨past, _ | ⟨fault | token, rest⟩⟩
  · exact ⟨.unexpected .endOfInput, _, rfl, rfl, .unexpected rfl⟩
  · have hbare := h.resolve_left (by rintro ⟨token, htoken⟩; cases htoken)
    exact ⟨.lex fault, ⟨past, rest⟩, rfl, rfl, .fault hbare rfl⟩
  · exact ⟨.unexpected token, _, rfl, rfl, .unexpected rfl⟩

variable (hg : ¬ g.LeftRecursive)
  (hrun : ∀ other, g.LeftCalls id other → g.starts other tape = (.ok false, tape) →
    g.RefusedBy other (run.parse other) tape)
include hg hrun

/-- An element that could not start is refused, or it is optional and leaves the tape. -/
theorem refusedBy_parseElement {element : Element} (hopens : g.Opens id element)
    (h : element.startsWith g.starts tape = (.ok false, tape)) :
    (element.isOptional = true ∧ ∃ nodes, g.parseElement run element tape = (.ok nodes, tape)) ∨
      g.RefusedBy id (g.parseElement run element) tape := by
  have hcall : ∀ other ∈ element.rules, g.LeftCalls id other := fun _ hmem => hopens.leftCalls hmem
  have hcalled : ∀ other ∈ element.rules, g.starts other tape = (.ok false, tape) →
      g.RefusedBy id (run.parse other) tape :=
    fun other hmem hstarts => (hrun other (hcall other hmem) hstarts).head (hcall other hmem)
  cases element with
  | keep what kind => exact .inr ((refusedBy_take h).bind _)
  | drop what => exact .inr ((refusedBy_take h).bind _)
  | tree other => exact .inr ((hcalled other (by simp [Element.rules]) h).bind _)
  | choice ids =>
    have hall := ParseM.anyM_eq_false (fun _ _ _ => starts_eq_ok) h
    have hchoice : g.parseChoice run none ids tape = ParseM.unexpected tape :=
      parseChoice_of_starts_eq_false hall
    have hrefused : g.RefusedBy id (g.parseChoice run none ids) tape := by
      rw [RefusedBy, hchoice]
      refine refusedBy_unexpected ?_
      rcases ids with _ | ⟨other, ids⟩
      · exact .inr ⟨id, .refl, hopens⟩
      · exact (next_of_starts_eq_false hg (hall other (by simp))).imp_right
          fun hbare => hbare.head (hcall other (by simp [Element.rules]))
    exact .inr (hrefused.bind _)
  | repeated other once =>
    have hstarts : g.starts other tape = (.ok false, tape) := h
    refine .inl ⟨rfl, [], ?_⟩
    rw [parseElement, parseRepeated, ParseM.bind_of_ok hstarts]
    rfl
  | orEmpty other =>
    have hstarts : g.starts other tape = (.ok false, tape) := h
    rw [parseElement, RefusedBy, ParseM.bind_of_ok hstarts]
    cases hrule : g.rule other with
    | error error =>
      rw [starts_eq hg, hrule] at hstarts
      cases hstarts
    | ok rule =>
      simp only [Bool.false_eq_true, ↓reduceIte, ParseM.run_bind, ParseM.run_ofGrammar_ok,
        run_makeList]
      cases hnode : g.listNode rule.kind [] with
      | ok node => exact .inl ⟨rfl, [node], rfl⟩
      | error error =>
        exact .inr ⟨error, tape, rfl, rfl, .emptyNode ⟨id, other, rule, .refl, hopens, hrule, hnode⟩⟩
  | expression kind factor operators =>
    exact .inr ((hcalled factor (by simp [Element.rules]) h).bind _)

/-- `before` are the elements of the rule that were passed over. -/
theorem refusedBy_parseElements {rule : Rule} (hrule : g.rule id = .ok rule)
    {before elements : List Element} (hsplit : rule.elements = before ++ elements)
    (hbefore : ∀ element ∈ before, g.NullableElement element)
    (h : Element.allStartWith g.starts elements tape = (.ok false, tape)) :
    g.RefusedBy id (g.parseElements run elements) tape := by
  induction elements generalizing before with
  | nil => cases h
  | cons element rest ih =>
    obtain ⟨b, t, hfirst, hrest⟩ := ParseM.bind_eq_ok.1 h
    obtain rfl := (ParseM.Stays.startsWith g element).eq_of_ok hfirst
    cases b with
    | true => cases hrest
    | false =>
      rcases refusedBy_parseElement hg hrun ⟨rule, before, rest, hrule, hsplit, hbefore⟩ hfirst with
        ⟨hoptional, nodes, helement⟩ | hrefused
      · rw [parseElements, RefusedBy, ParseM.bind_of_ok helement]
        simp only [Bool.false_eq_true, ↓reduceIte, hoptional] at hrest
        have hpassed : ∀ other ∈ before ++ [element], g.NullableElement other := by
          simpa [or_imp, forall_and] using ⟨hbefore, nullableElement_of_isOptional g hoptional⟩
        exact (ih (by simp [hsplit]) hpassed hrest).bind _
      · exact hrefused.bind _

end Refused

/-- A rule that could not start is refused by any depth that its left calls fit in. -/
theorem refusedBy_parseWithin (hg : ¬ g.LeftRecursive) {bound depth : Nat} {id : RuleId} {tape : Tape}
    (hdepth : g.rank id < depth) (h : g.starts id tape = (.ok false, tape)) :
    g.RefusedBy id (g.parseWithin bound depth id) tape := by
  induction depth generalizing id with
  | zero => cases hdepth
  | succ depth ih =>
    rw [starts_eq hg] at h
    cases hrule : g.rule id with
    | error error =>
      rw [hrule] at h
      cases h
    | ok rule =>
      rw [hrule, ParseM.ofGrammar_ok_bind] at h
      rw [parseWithin, hrule, ParseM.ofGrammar_ok_bind]
      have hrun : ∀ other, g.LeftCalls id other → g.starts other tape = (.ok false, tape) →
          g.RefusedBy other (g.parseWithin bound depth other) tape := by
        intro other hcall hstarts
        have hrank := rank_lt hg hcall (lt_size_of_starts hg hstarts)
        exact ih (by omega) hstarts
      have hnone : ∀ element ∈ ([] : List Element), g.NullableElement element := by simp
      exact RefusedBy.bind (refusedBy_parseElements hg hrun hrule rfl hnone h) _

/-- The lookahead of a rule never lies against a parse of it, in whatever state the lexer is. A rule
that parses could start. A rule that could not start fails where it stands, and its error is that
the next token is unexpected, or is that of an empty node that cannot be built, or is the fault of
the next line, which is only met this early by an alternation without alternatives. -/
theorem starts_of_parse_and_refusal (g : Grammar) (hg : ¬ g.LeftRecursive) (id : RuleId)
    (lexer : Lexer) (hlexer : lexer.Sound) :
    ((∃ node, (g.parse id lexer).1 = .ok node) → (g.starts id lexer).1 = .ok true) ∧
      ((g.starts id lexer).1 = .ok false → ∃ error, (g.parse id lexer).1 = .error error ∧
        (g.parse id lexer).2.cursor = lexer.cursor ∧
        g.Refusal id (lexer.peek 0).1 error) := by
  obtain ⟨marks, tape, hshows⟩ := hlexer.exists_shows
  have hrun : g.parse id lexer = g.parseBounded (TokenStream.unread lexer) id lexer :=
    ParseM.bind_of_ok (ParseM.run_unread lexer)
  rw [hrun, parseBounded]
  generalize TokenStream.unread lexer = bound
  have hdepth : g.size < g.size * (bound + 1) + 1 :=
    Nat.lt_succ_of_le (Nat.le_mul_of_pos_right _ bound.succ_pos)
  generalize g.size * (bound + 1) + 1 = depth at hdepth
  obtain ⟨hresult, hstate⟩ := Lexer.simulation.parseWithin g bound depth id marks lexer tape hshows
  obtain ⟨hstarts, _⟩ := Lexer.simulation.starts g id marks lexer tape hshows
  rw [hresult, hstarts, hstate.cursor, hshows.cursor, (hshows.peek 0).1]
  constructor
  · rintro ⟨node, hnode⟩
    rcases htape : g.parseWithin bound depth id tape with ⟨result, tape'⟩
    rw [htape] at hnode
    cases hnode
    rw [starts_of_parseWithin hg bound depth id tape node tape' htape]
  · intro hfalse
    rcases htape : g.starts id tape with ⟨result, tape'⟩
    rw [htape] at hfalse
    cases hfalse
    obtain rfl := starts_eq_ok htape
    have hrank := rank_lt_size hg (lt_size_of_starts hg htape)
    obtain ⟨error, tape'', herror, hpast, hrefusal⟩ :=
      refusedBy_parseWithin hg (Nat.lt_trans hrank hdepth) htape
    rw [herror]
    exact ⟨error, rfl, congrArg List.length hpast, hrefusal⟩

end Grammar

/-- A name that a number may come before. -/
def Draft.numberThenName : Draft :=
  let number : NodeKind := ⟨"number"⟩
  let name : NodeKind := ⟨"name"⟩
  let draft := ({} : Draft).registering (·.addLeaf number |>.addLeaf name)
  let (first, draft) := draft.add (Rule.untyped.number number)
  (draft.add (Rule.untyped.orEmpty first |>.identifier name [])).2

namespace Grammar

def numberThenName : Grammar where
  rules := #[⟨"#0", Rule.untyped.number ⟨"number"⟩⟩,
    ⟨"#1", Rule.untyped.orEmpty 0 |>.identifier ⟨"name"⟩ []⟩]
  tokens := ⟨[(⟨"name"⟩, ⟨⟨"name"⟩, .leaf ⟨"name"⟩⟩), (⟨"number"⟩, ⟨⟨"number"⟩, .leaf ⟨"number"⟩⟩)]⟩
  lists := ⟨[(.list, ⟨.list, .flattenOrWrap .list⟩)]⟩

/-- An operator is neither, and it is what the parse does not expect. -/
theorem starts_of_parse_and_refusal_numberThenName :
    let lexer := Lexer.ofSource [.text ['+']] {}
    let error := .unexpected (.scanned 1 (.operator "+"))
    Draft.numberThenName.build.1 = .ok numberThenName ∧ ¬ numberThenName.LeftRecursive ∧ lexer.Sound ∧
      (numberThenName.starts 1 lexer).1 = .ok false ∧
      (numberThenName.parse 1 lexer).1 = .error error ∧
      (numberThenName.parse 1 lexer).2.cursor = lexer.cursor ∧
      numberThenName.Refusal 1 (lexer.peek 0).1 error := by
  intro lexer error
  have hbuild : Draft.numberThenName.build.1 = .ok numberThenName := by cbv
  have hdescends : numberThenName.Descends id = true := by decide
  have hg := not_leftRecursive_of_descends hdescends
  have hfalse : (numberThenName.starts 1 (Lexer.ofSource [.text ['+']] {})).1 = .ok false := by cbv
  have hparse : (numberThenName.parse 1 (Lexer.ofSource [.text ['+']] {})).1 =
      .error (.unexpected (.scanned 1 (.operator "+"))) := by cbv
  obtain ⟨failure, hfailure, hcursor, hrefusal⟩ :=
    (starts_of_parse_and_refusal numberThenName hg 1 lexer (.ofSource _ _)).2 hfalse
  obtain rfl : error = failure := by
    rw [hparse] at hfailure
    exact Except.error.inj hfailure
  exact ⟨hbuild, hg, .ofSource _ _, hfalse, hparse, hcursor, hrefusal⟩

end Grammar

def Draft.bareChoice : Draft :=
  (({} : Draft).add (Rule.untyped.choice [])).2

namespace Grammar

/-- Before a line that does not scan a bare alternation says no without looking, and its parse meets
the fault of the line. -/
theorem refusal_needs_fault : ¬ ∀ (draft : Draft) (g : Grammar) (id : RuleId) (lexer : Lexer),
    draft.build.1 = .ok g → ¬ g.LeftRecursive → lexer.Sound → (g.starts id lexer).1 = .ok false →
      ∃ error, (g.parse id lexer).1 = .error error ∧
        (g.parse id lexer).2.cursor = lexer.cursor ∧
        ((∃ token, (lexer.peek 0).1 = .ok token ∧ error = .unexpected token) ∨
          g.EmptyNodeFails id error) := by
  intro hclaim
  obtain ⟨g, hbuild⟩ : ∃ g, Draft.bareChoice.build.1 = .ok g := ⟨_, rfl⟩
  have hdescends : g.Descends id = true := by cases hbuild; decide
  have hg := not_leftRecursive_of_descends hdescends
  let grave : List Char := [Char.ofNat 96]
  have hscan : Scan.lexemes grave = .error (.badToken 1 (String.ofList grave)) := by
    rw [Scan.lexemes, Scan.lexemesFrom]
    rfl
  have hpeek : (Lexer.peek 0 (Lexer.ofSource [.text grave] {})).1 =
      .error ⟨1, .scan (.badToken 1 (String.ofList grave))⟩ := by
    simp [Lexer.peek, Lexer.fill, Lexer.fillFrom, Lexer.readLine, Lexer.ofSource, hscan]
  have hstarts : (g.starts 0 (Lexer.ofSource [.text grave] {})).1 = .ok false := by
    cases hbuild; rfl
  obtain ⟨error, _, _, ⟨token, htoken, _⟩ | ⟨caller, optional, rule, _, hopens, _⟩⟩ :=
    hclaim Draft.bareChoice g 0 _ hbuild hg (.ofSource _ _) hstarts
  · rw [hpeek] at htoken
    cases htoken
  · obtain ⟨rule, before, after, hrule, hsplit, _⟩ := hopens
    have honly : rule.elements = [.choice []] := by
      obtain ⟨name, hname⟩ := rule_eq_ok_iff.1 hrule
      cases hbuild
      rcases caller with _ | caller
      · cases hname
        rfl
      · cases hname
    have hmem : Element.orEmpty optional ∈ rule.elements := by simp [hsplit]
    rw [honly] at hmem
    simp at hmem

end Grammar

end ParseKit
