import ParseKit.Proofs.LeftRecursion
import ParseKit.Proofs.Parametric
import ParseKit.Proofs.Tape

/-! Parsers walk forward over a tape. Unless a parser fails on a fault it leaves the tape some tokens
further, also when it fails otherwise, and a parser that succeeds without taking a token belongs to
something nullable. Main statement: `Grammar.parseWithin_walks`. -/

namespace ParseKit

namespace ParseM

variable {α β : Type}

/-- The parser fails on a fault or walks forward, and if it succeeds on the spot then `N` holds. -/
def Walks (N : Prop) (p : ParseM Tape α) : Prop :=
  ∀ tape, (∃ us, tape.Leads us (p tape).2 ∧ ((∃ a, (p tape).1 = .ok a) → us = [] → N)) ∨
    ∃ fault, (p tape).1 = .error (.lex fault)

def Stays (p : ParseM Tape α) : Prop :=
  ∀ tape, (p tape).2 = tape ∨ ∃ fault, (p tape).1 = .error (.lex fault)

namespace Stays

theorem eq_of_ok {p : ParseM Tape α} (h : Stays p) {tape tape' : Tape} {a : α}
    (hp : p tape = (.ok a, tape')) : tape' = tape := by
  rcases h tape with heq | ⟨fault, hfault⟩
  · rw [← heq, hp]
  · rw [hp] at hfault
    cases hfault

theorem pure (a : α) : Stays (Pure.pure a) :=
  fun _ => .inl rfl

theorem throw (error : ParseError) : Stays (MonadExcept.throw error : ParseM Tape α) :=
  fun _ => .inl rfl

theorem bind {p : ParseM Tape α} {f : α → ParseM Tape β} (hp : Stays p) (hf : ∀ a, Stays (f a)) :
    Stays (p >>= f) := by
  intro tape
  have hrun := run_bind p f tape
  rcases h : p tape with ⟨error | a, tape'⟩ <;> rw [h] at hrun <;> rw [hrun]
  · simpa [h] using hp tape
  · obtain rfl : tape' = tape := by simpa [h] using hp tape
    exact hf a tape'

theorem ofGrammar (result : Except GrammarError α) : Stays (ParseM.ofGrammar result) := by
  cases result
  · exact throw _
  · exact pure _

theorem ofExcept (result : Except ParseError α) :
    Stays (MonadExcept.ofExcept result : ParseM Tape α) := by
  cases result
  · exact throw _
  · exact pure _

theorem peek_zero : Stays (ParseM.peek 0) := by
  rintro ⟨past, _ | ⟨fault | token, rest⟩⟩
  · exact .inl rfl
  · exact .inr ⟨fault, rfl⟩
  · exact .inl rfl

theorem cursor : Stays ParseM.cursor :=
  fun _ => .inl rfl

theorem looking : Looking (fun _ => True) fun p (_ : ParseM Tape _) => Stays p where
  pure := pure
  bind := bind
  throw _ := throw _
  exhausted := throw _
  peek := peek_zero

theorem starts (g : Grammar) (id : RuleId) : Stays (g.starts id) :=
  looking.starts (Grammar.Raises.trivial g).toRefers True.intro

theorem startsWith (g : Grammar) (element : Element) : Stays (element.startsWith g.starts) :=
  @Looking.startsWith _ _ _ _ _ _ looking g.starts g.starts element fun id _ => starts g id

theorem makeToken (g : Grammar) (kind : NodeKind) (token : Token) : Stays (g.makeToken kind token) :=
  looking.makeToken fun _ _ => True.intro

theorem makeList (g : Grammar) (kind : NodeKind) (children : List Node) :
    Stays (g.makeList kind children) :=
  looking.makeList fun _ _ => True.intro

theorem nextOperator (operators : Operators) : Stays (Grammar.nextOperator operators) :=
  peek_zero.bind fun _ => pure _

theorem walks {p : ParseM Tape α} (h : Stays p) : Walks True p := by
  intro tape
  rcases h tape with heq | hfault
  · exact .inl ⟨[], by rw [heq]; exact Tape.Leads.refl tape, fun _ _ => trivial⟩
  · exact .inr hfault

end Stays

namespace Walks

variable {N M : Prop}

theorem mono {p : ParseM Tape α} (h : Walks N p) (hNM : N → M) : Walks M p :=
  fun tape => (h tape).imp_left fun ⟨us, hleads, hnull⟩ => ⟨us, hleads, fun ha hus => hNM (hnull ha hus)⟩

theorem leads_of_ok {p : ParseM Tape α} (h : Walks N p) {tape tape' : Tape} {a : α}
    (hp : p tape = (.ok a, tape')) : ∃ us, tape.Leads us tape' ∧ (us = [] → N) := by
  rcases h tape with ⟨us, hleads, hN⟩ | ⟨fault, hfault⟩
  · rw [hp] at hleads hN
    exact ⟨us, hleads, hN ⟨a, rfl⟩⟩
  · rw [hp] at hfault
    cases hfault

theorem cursor_ne {p : ParseM Tape α} (h : Walks False p) {tape tape' : Tape} {a : α}
    (hp : p tape = (.ok a, tape')) : (TokenStream.cursor tape' == TokenStream.cursor tape) = false := by
  obtain ⟨us, hleads, hmoved⟩ := h.leads_of_ok hp
  have hpos := List.length_pos_of_ne_nil fun hnil => hmoved hnil
  rw [hleads.cursor, beq_eq_false_iff_ne]
  omega

theorem throw (error : ParseError) : Walks N (MonadExcept.throw error : ParseM Tape α) :=
  fun tape => .inl ⟨[], Tape.Leads.refl tape, by rintro ⟨_, h⟩; cases h⟩

theorem bind {p : ParseM Tape α} {f : α → ParseM Tape β} (hp : Walks N p)
    (hf : ∀ a, Walks M (f a)) : Walks (N ∧ M) (p >>= f) := by
  intro tape
  have hrun := run_bind p f tape
  have hhead := hp tape
  rcases h : p tape with ⟨error | a, tape'⟩ <;> rw [h] at hrun hhead <;> rw [hrun]
  · refine hhead.imp ?_ ?_
    · rintro ⟨us, hleads, _⟩
      exact ⟨us, hleads, by rintro ⟨_, ha⟩; cases ha⟩
    · rintro ⟨fault, hfault⟩
      exact ⟨fault, by cases hfault; rfl⟩
  · obtain ⟨us, hleads, hN⟩ := hhead.resolve_right (by rintro ⟨_, hfault⟩; cases hfault)
    refine (hf a tape').imp_left fun ⟨vs, hleads', hM⟩ => ⟨us ++ vs, hleads.trans hleads', ?_⟩
    intro hok hnil
    obtain ⟨rfl, rfl⟩ := List.append_eq_nil_iff.1 hnil
    exact ⟨hN ⟨a, rfl⟩ rfl, hM hok rfl⟩

/-- What the first parser says is enough when the second may stay where it is. -/
theorem bind_left {p : ParseM Tape α} {f : α → ParseM Tape β} (hp : Walks N p)
    (hf : ∀ a, Walks True (f a)) : Walks N (p >>= f) :=
  (hp.bind hf).mono And.left

theorem bind_right {p : ParseM Tape α} {f : α → ParseM Tape β} (hp : Walks True p)
    (hf : ∀ a, Walks N (f a)) : Walks N (p >>= f) :=
  (hp.bind hf).mono And.right

theorem ite {p q : ParseM Tape α} (c : Prop) [Decidable c] (hp : Walks N p) (hq : Walks N q) :
    Walks N (if c then p else q) := by
  split
  · exact hp
  · exact hq

theorem read : Walks True ParseM.read := by
  rintro ⟨past, _ | ⟨fault | token, rest⟩⟩
  · exact .inl ⟨[], Tape.Leads.refl _, fun _ _ => trivial⟩
  · exact .inr ⟨fault, rfl⟩
  · exact .inl ⟨[token], ⟨rfl, rfl⟩, fun _ _ => trivial⟩

/-- An attempt that fails is undone, so the next parser starts where the first one did. -/
theorem run_tryOr {p : ParseM Tape α} (h : Walks N p) (note : ParseError → String)
    (next : ParseError → ParseM Tape α) (tape : Tape) : p.tryOr note next tape =
      match p tape with
      | (.ok a, tape') => (.ok a, tape')
      | (.error error, tape') =>
        if error.isRecoverable then next error tape
        else (.error error, TokenStream.rewind (TokenStream.checkpoint tape).1 tape') := by
  have hattempt := h tape
  rw [ParseM.run_tryOr]
  rw [show (TokenStream.checkpoint tape).2 = tape from rfl]
  rcases hp : p tape with ⟨error | a, tape'⟩ <;> rw [hp] at hattempt <;> dsimp only
  · by_cases hrecoverable : error.isRecoverable = true
    · rcases hattempt with ⟨us, hleads, _⟩ | ⟨fault, hfault⟩
      · rw [if_pos hrecoverable, if_pos hrecoverable]
        rw [show TokenStream.report _ tape' = tape' from rfl, hleads.rewind_eq]
      · cases hfault
        cases hrecoverable
    · rw [if_neg hrecoverable, if_neg hrecoverable]
  · rfl

end Walks

end ParseM

theorem TokenClass.take_walks (what : TokenClass) : ParseM.Walks False what.take := by
  rintro ⟨past, _ | ⟨fault | token, rest⟩⟩
  · rw [take_of_not_accepts rfl what.accepts_endOfInput]
    exact ParseM.Walks.throw _ _
  · exact .inr ⟨fault, rfl⟩
  · by_cases h : what.accepts token = true
    · rw [take_of_accepts h]
      exact .inl ⟨[token], ⟨rfl, rfl⟩, fun _ => by simp⟩
    · rw [take_of_not_accepts rfl (by simpa using h)]
      exact ParseM.Walks.throw _ _

namespace Grammar

theorem parseChoice_of_starts_eq_false {g : Grammar} {run : Runner Tape} {last? : Option ParseError}
    {ids : List RuleId} {tape : Tape} (h : ∀ id ∈ ids, g.starts id tape = (.ok false, tape)) :
    g.parseChoice run last? ids tape = g.parseChoice run last? [] tape := by
  induction ids with
  | nil => rfl
  | cons id ids ih =>
    obtain ⟨hid, hids⟩ := List.forall_mem_cons.1 h
    rw [parseChoice, ParseM.bind_of_ok hid]
    exact ih hids

variable (g : Grammar) {run : Runner Tape} {N : RuleId → Prop}
  (hrun : ∀ id, ParseM.Walks (N id) (run.parse id))
include hrun

theorem parseChoice_of_starts {last? : Option ParseError} {id : RuleId} {ids : List RuleId}
    {tape : Tape} (h : g.starts id tape = (.ok true, tape)) :
    g.parseChoice run last? (id :: ids) tape =
      match run.parse id tape with
      | (.ok node, tape') => (.ok node, tape')
      | (.error error, tape') =>
        if error.isRecoverable then g.parseChoice run (some error) ids tape
        else (.error error, TokenStream.rewind ⟨tape.past.length⟩ tape') := by
  rw [parseChoice_cons, ParseM.bind_of_ok h, if_pos rfl, (hrun id).run_tryOr]
  rcases run.parse id tape with ⟨_ | _, _⟩ <;> rfl

theorem parseChoice_walks (last? : Option ParseError) (ids : List RuleId) :
    ParseM.Walks (∃ id ∈ ids, N id) (g.parseChoice run last? ids) := by
  induction ids generalizing last? with
  | nil =>
    cases last? with
    | none => exact (ParseM.Stays.peek_zero.walks.bind fun _ => .throw _).mono And.right
    | some error => exact .throw error
  | cons id ids ih =>
    have hrest : ∀ last?, ParseM.Walks (∃ other ∈ id :: ids, N other) (g.parseChoice run last? ids) :=
      fun last? => (ih last?).mono fun ⟨other, hmem, h⟩ => ⟨other, List.mem_cons_of_mem _ hmem, h⟩
    intro tape
    rcases hstarts : g.starts id tape with ⟨error | b, tape'⟩
    · have hstays := ParseM.Stays.starts g id tape
      rw [Grammar.parseChoice, ParseM.bind_of_error hstarts]
      rw [hstarts] at hstays
      rcases hstays with rfl | hfault
      · exact .inl ⟨[], Tape.Leads.refl _, by rintro ⟨_, h⟩; cases h⟩
      · exact .inr (by obtain ⟨fault, hfault⟩ := hfault; exact ⟨fault, by cases hfault; rfl⟩)
    · obtain rfl := (ParseM.Stays.starts g id).eq_of_ok hstarts
      cases b with
      | false =>
        rw [Grammar.parseChoice, ParseM.bind_of_ok hstarts]
        exact hrest last? tape'
      | true =>
        rw [g.parseChoice_of_starts hrun hstarts]
        have hattempt := hrun id tape'
        rcases hparse : run.parse id tape' with ⟨error | node, tape''⟩ <;>
          rw [hparse] at hattempt <;> dsimp only
        · split
          · exact hrest (some error) tape'
          · next hrecoverable =>
            rcases hattempt with ⟨us, hleads, _⟩ | ⟨fault, hfault⟩
            · have hback : TokenStream.rewind ⟨tape'.past.length⟩ tape'' = tape' := hleads.rewind_eq
              rw [hback]
              exact ParseM.Walks.throw error tape'
            · cases hfault
              exact .inr ⟨fault, rfl⟩
        · obtain ⟨us, hleads, hN⟩ := hattempt.resolve_right (by rintro ⟨_, hfault⟩; cases hfault)
          exact .inl ⟨us, hleads, fun _ hnil => ⟨id, by simp, hN ⟨node, rfl⟩ hnil⟩⟩

theorem parseRepeated_walks (id : RuleId) (once : Bool) (bound : Nat) :
    ParseM.Walks True (g.parseRepeated run id once bound) := by
  induction bound with
  | zero => exact .throw _
  | succ bound ih =>
    simp only [Grammar.parseRepeated]
    refine (ParseM.Stays.starts g id).walks.bind_left fun b => .ite _ ?_ (ParseM.Stays.pure []).walks
    refine ParseM.Stays.cursor.walks.bind_left fun start => ?_
    refine ((hrun id).mono fun _ => trivial).bind_left fun node => ?_
    refine ParseM.Stays.cursor.walks.bind_left fun stop => .ite _ (ParseM.Stays.pure _).walks ?_
    exact ih.bind_left fun nodes => (ParseM.Stays.pure _).walks

theorem parseOperators_walks (kind : NodeKind) (factor : RuleId) (operators : Operators)
    (outer? : Option Precedence) (left : Node) (bound : Nat) :
    ParseM.Walks True (g.parseOperators run kind factor operators outer? left bound) := by
  induction bound generalizing outer? left with
  | zero => exact .throw _
  | succ bound ih =>
    simp only [Grammar.parseOperators]
    refine (ParseM.Stays.nextOperator operators).walks.bind_left fun next? => ?_
    cases next? with
    | none => exact (ParseM.Stays.pure left).walks
    | some precedence =>
      refine .ite _ ?_ (ParseM.Stays.pure left).walks
      refine (ParseM.Stays.ofGrammar _).walks.bind_left fun leaf => ?_
      refine ParseM.Walks.read.bind_left fun token => ?_
      refine (ParseM.Stays.ofExcept _).walks.bind_left fun operator => ?_
      refine ((hrun factor).mono fun _ => trivial).bind_left fun right => ?_
      refine (ih _ right).bind_left fun right => ?_
      exact (ParseM.Stays.makeList g kind _).walks.bind_left fun node => ih outer? node

theorem parseElement_walks (hN : ∀ id, N id → g.NullableRule id) (element : Element) :
    ParseM.Walks (g.NullableElement element) (g.parseElement run element) := by
  cases element with
  | keep what kind =>
    refine (what.take_walks.mono False.elim).bind_left fun token => ?_
    exact (ParseM.Stays.makeToken g kind token).walks.bind_left fun _ => (ParseM.Stays.pure _).walks
  | drop what =>
    exact (what.take_walks.mono False.elim).bind_left fun _ => (ParseM.Stays.pure _).walks
  | tree id =>
    exact ((hrun id).mono fun h => .tree (hN id h)).bind_left fun _ => (ParseM.Stays.pure _).walks
  | choice ids =>
    have hchoice := (g.parseChoice_walks hrun none ids).mono fun ⟨id, hmem, h⟩ =>
      NullableElement.choice hmem (hN id h)
    exact hchoice.bind_left fun _ => (ParseM.Stays.pure _).walks
  | repeated id once =>
    exact (g.parseRepeated_walks hrun id once _).mono fun _ => .repeated id once
  | orEmpty id =>
    simp only [Grammar.parseElement]
    refine ParseM.Walks.mono (N := True) ?_ fun _ => .orEmpty id
    refine (ParseM.Stays.starts g id).walks.bind_left fun b => .ite _ ?_ ?_
    · exact ((hrun id).mono fun _ => trivial).bind_left fun _ => (ParseM.Stays.pure _).walks
    · refine (ParseM.Stays.ofGrammar _).walks.bind_left fun rule => ?_
      exact (ParseM.Stays.makeList g rule.kind []).walks.bind_left fun _ =>
        (ParseM.Stays.pure _).walks
  | expression kind factor operators =>
    refine ((hrun factor).mono fun h => .expression (hN factor h)).bind_left fun left => ?_
    exact (g.parseOperators_walks hrun kind factor operators none left _).bind_left fun _ =>
      (ParseM.Stays.pure _).walks

theorem parseElements_walks (hN : ∀ id, N id → g.NullableRule id) (elements : List Element) :
    ParseM.Walks (∀ element ∈ elements, g.NullableElement element)
      (g.parseElements run elements) := by
  induction elements with
  | nil => exact (ParseM.Stays.pure []).walks.mono fun _ => by simp
  | cons element rest ih =>
    refine ((g.parseElement_walks hrun hN element).bind fun nodes => ?_).mono fun ⟨h, hrest⟩ =>
      List.forall_mem_cons.2 ⟨h, hrest⟩
    exact ih.bind_left fun others => (ParseM.Stays.pure _).walks

omit hrun in
theorem parseWithin_walks (bound depth : Nat) (id : RuleId) :
    ParseM.Walks (g.NullableRule id) (g.parseWithin bound depth id) := by
  induction depth generalizing id with
  | zero =>
    simp only [Grammar.parseWithin]
    exact (ParseM.Stays.ofGrammar _).walks.bind_right fun _ => .throw _
  | succ depth ih =>
    simp only [Grammar.parseWithin]
    cases hrule : g.rule id with
    | error error => exact .throw _
    | ok rule =>
      rw [ParseM.ofGrammar_ok_bind]
      refine ((g.parseElements_walks ih (fun _ h => h) rule.elements).mono fun h =>
        .all hrule h).bind_left fun nodes => ?_
      exact (ParseM.Stays.makeList g rule.kind nodes).walks

omit hrun in
theorem parse_walks (id : RuleId) : ParseM.Walks (g.NullableRule id) (g.parse id) := by
  intro tape
  rw [run_parse]
  exact g.parseWithin_walks _ _ id tape

end Grammar

end ParseKit
