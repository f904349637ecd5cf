import ParseKit.Proofs.Expression
import ParseKit.Proofs.LeftRecursion

/-! Parsing without left recursion runs out of neither depth nor rounds. Until a token is taken every
call lowers the rank of the rule, and after that the tokens ahead are fewer, so that a depth of the
number of rules for each token is enough. Main statements: `Grammar.parseBounded_halts` and
`Grammar.parseUpTo_halts`. -/

namespace ParseKit

def ParseM.Halts {σ α : Type} (p : ParseM σ α) (s : σ) : Prop :=
  (p s).1 ≠ .error (.grammar .leftRecursion)

namespace ParseM.Halts

variable {σ α β : Type} {s : σ}

theorem bind {p : ParseM σ α} {f : α → ParseM σ β} (hp : Halts p s)
    (hf : ∀ a t, p s = (.ok a, t) → Halts (f a) t) : Halts (p >>= f) s := by
  rcases h : p s with ⟨error | a, t⟩
  · rw [Halts, bind_of_error h]
    rw [Halts, h] at hp
    exact fun heq => hp (by cases heq; rfl)
  · rw [Halts, bind_of_ok h]
    exact hf a t h

theorem pure (a : α) : Halts (Pure.pure a) s := by
  rintro ⟨⟩

theorem ite {p q : ParseM σ α} (c : Prop) [Decidable c] (hp : Halts p s) (hq : Halts q s) :
    Halts (if c then p else q) s := by
  split
  · exact hp
  · exact hq

theorem of_mapError {p : ParseM σ α} {result : Except LexError α} (h : (p s).1 = result.mapError .lex) :
    Halts p s := by
  rw [Halts, h]
  cases result <;> rintro ⟨⟩

theorem peek [TokenStream σ] (k : Nat) : Halts (ParseM.peek k) s :=
  of_mapError (by rw [run_peek])

theorem read [TokenStream σ] : Halts ParseM.read s :=
  of_mapError (by rw [run_read])

theorem cursor [TokenStream σ] : Halts ParseM.cursor s := by
  rintro ⟨⟩

theorem unexpected [TokenStream σ] : Halts (ParseM.unexpected : ParseM σ α) s :=
  (peek 0).bind fun token t _ => by rintro ⟨⟩

theorem take [TokenStream σ] (what : TokenClass) : Halts what.take s :=
  (peek 0).bind fun token t _ => ite _ read (by rintro ⟨⟩)

theorem makeAt {γ : Type} (factory : Factory γ) (line? : Option Nat) (argument : γ) :
    factory.makeAt line? argument ≠ .error (.grammar .leftRecursion) := by
  intro h
  rcases Factory.makeAt_eq_error h with ⟨_, _, ⟨⟩⟩ | ⟨_, _, ⟨⟩⟩

theorem makeToken (g : Grammar) (kind : NodeKind) (token : Token) : Halts (g.makeToken kind token) s := by
  rw [Halts, Grammar.run_makeToken, Grammar.tokenNode, Grammar.tokenFactory]
  cases g.tokens.get? kind with
  | none => rintro ⟨⟩
  | some factory => exact makeAt factory _ _

theorem makeList (g : Grammar) (kind : NodeKind) (children : List Node) :
    Halts (g.makeList kind children) s := by
  rw [Halts, Grammar.run_makeList, Grammar.listNode, Grammar.listFactory]
  cases g.lists.get? kind with
  | none => rintro ⟨⟩
  | some factory => exact makeAt factory _ _

theorem ofExcept {result : Except ParseError α} (h : result ≠ .error (.grammar .leftRecursion)) :
    Halts (MonadExcept.ofExcept result : ParseM σ α) s := by
  rw [Halts, run_ofExcept]
  exact h

theorem tokenFactory (g : Grammar) (kind : NodeKind) :
    Halts (ParseM.ofGrammar (g.tokenFactory kind)) s := by
  rw [Grammar.tokenFactory]
  cases g.tokens.get? kind <;> rintro ⟨⟩

theorem anyM {f : RuleId → ParseM σ Bool} {ids : List RuleId} (hf : ∀ id ∈ ids, ∀ s, Halts (f id) s) :
    Halts (ids.anyM f) s := by
  induction ids generalizing s with
  | nil => exact pure false
  | cons id ids ih =>
    obtain ⟨hid, hids⟩ := List.forall_mem_cons.1 hf
    refine (hid s).bind fun b t _ => ?_
    cases b
    · exact ih hids
    · exact pure true

end ParseM.Halts

open ParseM

section Lookahead

variable {σ : Type} [TokenStream σ] {f : RuleId → ParseM σ Bool}

theorem Element.startsWith_halts {element : Element} (hf : ∀ id ∈ element.rules, ∀ s, Halts (f id) s)
    (s : σ) : Halts (element.startsWith f) s := by
  cases element with
  | keep what kind | drop what => exact (Halts.peek 0).bind fun _ _ _ => Halts.pure _
  | choice ids => exact Halts.anyM hf
  | tree id | repeated id once | orEmpty id => exact hf id (by simp [Element.rules]) s
  | expression kind factor operators => exact hf factor (by simp [Element.rules]) s

theorem Element.allStartWith_halts {elements : List Element}
    (hf : ∀ before element after, elements = before ++ element :: after →
      (∀ other ∈ before, other.isOptional = true) → ∀ id ∈ element.rules, ∀ s, Halts (f id) s)
    (s : σ) : Halts (allStartWith f elements) s := by
  induction elements generalizing s with
  | nil => exact Halts.pure true
  | cons element rest ih =>
    have hhead := hf [] element rest rfl (by simp)
    refine (startsWith_halts hhead s).bind fun b t _ => Halts.ite _ (Halts.pure true) ?_
    by_cases hoptional : element.isOptional = true
    · rw [if_pos hoptional]
      refine ih (fun before other after heq hbefore => ?_) t
      exact hf (element :: before) other after (by rw [heq]; rfl) (by simpa [hoptional] using hbefore)
    · rw [if_neg hoptional]
      exact Halts.pure false

theorem Grammar.starts_halts {g : Grammar} (hg : ¬ g.LeftRecursive) (id : RuleId) (s : σ) :
    Halts (g.starts id) s := by
  refine g.starts_induction hg (motive := fun _ p => ∀ s, Halts p s) ?_ ?_ id s
  · intro id error herror s
    unfold Grammar.rule at herror
    split at herror <;> cases herror
    rintro ⟨⟩
  · intro id rule hrule ih s
    refine Element.allStartWith_halts (fun before element after heq hbefore other hmem => ?_) s
    refine ih other ⟨element, ⟨rule, before, after, hrule, heq, fun e he => ?_⟩, hmem⟩
    exact nullableElement_of_isOptional g (hbefore e he)

end Lookahead

namespace Grammar

variable {g : Grammar} {run : Runner Tape} {N : RuleId → Prop}
  (hwalks : ∀ id, Walks (N id) (run.parse id))

def HaltsAfter (run : Runner Tape) (tape : Tape) : Prop :=
  ∀ id tape', tape'.reach.length < tape.reach.length → Halts (run.parse id) tape'

theorem HaltsAfter.of_le {tape tape' : Tape} (h : HaltsAfter run tape)
    (hle : tape'.reach.length ≤ tape.reach.length) : HaltsAfter run tape' :=
  fun id tape'' hlt => h id tape'' (Nat.lt_of_lt_of_le hlt hle)

theorem length_reach_of_leads {tape tape' : Tape} {us : List Token} (h : tape.Leads us tape') :
    tape.reach.length = us.length + tape'.reach.length := by
  rw [h.reach, List.length_append]

variable (hg : ¬ g.LeftRecursive)
include hwalks hg

theorem parseChoice_halts {last? : Option ParseError} (hlast : last? ≠ some (.grammar .leftRecursion))
    {ids : List RuleId} {tape : Tape} (hrun : ∀ id ∈ ids, Halts (run.parse id) tape) :
    Halts (g.parseChoice run last? ids) tape := by
  induction ids generalizing last? with
  | nil =>
    cases last? with
    | none => exact Halts.unexpected
    | some error => exact fun heq => hlast (by cases heq; rfl)
  | cons id ids ih =>
    obtain ⟨hid, hids⟩ := List.forall_mem_cons.1 hrun
    rcases hstarts : g.starts id tape with ⟨error | b, tape'⟩
    · have hhalts := starts_halts hg id tape
      rw [Halts, hstarts] at hhalts
      rw [Halts, parseChoice, bind_of_error hstarts]
      exact fun heq => hhalts (by cases heq; rfl)
    obtain rfl := (Stays.starts g id).eq_of_ok hstarts
    cases b with
    | false =>
      rw [Halts, parseChoice, bind_of_ok hstarts]
      exact ih hlast hids
    | true =>
      rw [Halts, g.parseChoice_of_starts hwalks hstarts]
      rw [Halts] at hid
      rcases hparse : run.parse id tape' with ⟨error | node, tape''⟩ <;> rw [hparse] at hid <;> dsimp only
      · split
        · exact ih (fun heq => hid (by cases heq; rfl)) hids
        · exact fun heq => hid (by cases heq; rfl)
      · rintro ⟨⟩

theorem parseRepeated_halts {id : RuleId} {once : Bool} {bound : Nat} {tape : Tape}
    (hfirst : Halts (run.parse id) tape) (hlater : HaltsAfter run tape)
    (hbound : tape.reach.length < bound) : Halts (g.parseRepeated run id once bound) tape := by
  induction bound generalizing tape with
  | zero => cases hbound
  | succ bound ih =>
    simp only [parseRepeated]
    refine (starts_halts hg id tape).bind fun b t hstarts => ?_
    obtain rfl := (Stays.starts g id).eq_of_ok hstarts
    refine Halts.ite _ ?_ (Halts.pure [])
    refine Halts.cursor.bind fun start t' hstart => ?_
    cases hstart
    refine hfirst.bind fun node t' hparse => ?_
    obtain ⟨us, hleads, _⟩ := (hwalks id).leads_of_ok hparse
    have hreach := length_reach_of_leads hleads
    refine Halts.cursor.bind fun stop t'' hstop => ?_
    cases hstop
    by_cases hstopped : (once || TokenStream.cursor t' == TokenStream.cursor t) = true
    · rw [if_pos hstopped]
      exact Halts.pure _
    · have hmoved : us ≠ [] := by
        rintro rfl
        exact hstopped (by rw [hleads.cursor]; simp)
      have hpos := List.length_pos_of_ne_nil hmoved
      rw [if_neg hstopped]
      refine Halts.bind ?_ fun nodes t'' _ => Halts.pure _
      exact ih (hlater id t' (by omega)) (hlater.of_le (by omega)) (by omega)

omit hg in
theorem parseOperators_halts {kind : NodeKind} {factor : RuleId} {operators : Operators}
    {outer? : Option Precedence} {left : Node} {bound : Nat} {tape : Tape}
    (hlater : HaltsAfter run tape) (hbound : tape.reach.length < bound) :
    Halts (g.parseOperators run kind factor operators outer? left bound) tape := by
  induction bound generalizing outer? left tape with
  | zero => cases hbound
  | succ bound ih =>
    simp only [parseOperators]
    refine Halts.bind ((Halts.peek 0).bind fun _ _ _ => Halts.pure _) fun next? t hnext => ?_
    obtain ⟨rfl, token, htoken, rfl⟩ := nextOperator_eq_ok hnext
    cases hprecedence : operators.precedence? token with
    | none => exact Halts.pure left
    | some precedence =>
      refine Halts.ite _ ?_ (Halts.pure left)
      refine (Halts.tokenFactory g .leaf).bind fun leaf t' hleaf => ?_
      obtain ⟨-, rfl⟩ := ofGrammar_eq_ok hleaf
      refine Halts.read.bind fun read tape₁ hread => ?_
      obtain ⟨hread, rfl⟩ := read_of_precedence htoken hprecedence hread
      have hnames := Operators.names_iff.2 ⟨precedence, hprecedence⟩
      have hreach₁ := length_reach_of_leads (Operands.read_names hnames hread).2
      rw [List.length_singleton] at hreach₁
      refine (Halts.ofExcept (Halts.makeAt leaf _ _)).bind fun operator t' hoperator => ?_
      rw [run_ofExcept] at hoperator
      obtain ⟨-, rfl⟩ := Prod.mk.inj hoperator
      refine (hlater factor tape₁ (by omega)).bind fun operand tape₂ hoperand => ?_
      obtain ⟨us, hleads₂, _⟩ := (hwalks factor).leads_of_ok hoperand
      have hreach₂ := length_reach_of_leads hleads₂
      refine (ih (hlater.of_le (by omega)) (by omega)).bind fun right tape₃ hright => ?_
      obtain ⟨vs, hleads₃, _⟩ :=
        (g.parseOperators_walks hwalks kind factor operators _ operand bound).leads_of_ok hright
      have hreach₃ := length_reach_of_leads hleads₃
      refine (Halts.makeList g kind _).bind fun node t' hnode => ?_
      rw [run_makeList] at hnode
      obtain ⟨-, rfl⟩ := Prod.mk.inj hnode
      exact ih (hlater.of_le (by omega)) (by omega)

/-- An element halts when the rules it calls first do, here and after more tokens. -/
theorem parseElement_halts {element : Element} {tape : Tape}
    (hfirst : ∀ id ∈ element.rules, Halts (run.parse id) tape) (hlater : HaltsAfter run tape)
    (hbound : tape.reach.length ≤ run.bound) : Halts (g.parseElement run element) tape := by
  cases element with
  | keep what kind =>
    exact (Halts.take what).bind fun token t _ =>
      (Halts.makeToken g kind token).bind fun _ _ _ => Halts.pure _
  | drop what => exact (Halts.take what).bind fun _ _ _ => Halts.pure _
  | tree id => exact (hfirst id (by simp [Element.rules])).bind fun _ _ _ => Halts.pure _
  | choice ids =>
    exact (parseChoice_halts hwalks hg (by simp) hfirst).bind fun _ _ _ => Halts.pure _
  | repeated id once =>
    exact parseRepeated_halts hwalks hg (hfirst id (by simp [Element.rules])) hlater
      (Nat.lt_succ_of_le hbound)
  | orEmpty id =>
    refine (starts_halts hg id tape).bind fun b t hstarts => ?_
    obtain rfl := (Stays.starts g id).eq_of_ok hstarts
    refine Halts.ite _ ?_ ?_
    · exact (hfirst id (by simp [Element.rules])).bind fun _ _ _ => Halts.pure _
    · refine Halts.bind ?_ fun rule _ _ =>
        (Halts.makeList g rule.kind []).bind fun _ _ _ => Halts.pure _
      rw [rule]
      split <;> rintro ⟨⟩
  | expression kind factor operators =>
    refine (hfirst factor (by simp [Element.rules])).bind fun left tape₁ hleft => ?_
    obtain ⟨us, hleads, _⟩ := (hwalks factor).leads_of_ok hleft
    have hreach := length_reach_of_leads hleads
    exact (parseOperators_halts hwalks (hlater.of_le (by omega)) (by omega)).bind
      fun _ _ _ => Halts.pure _

/-- The elements of a rule halt: those that are reached without a token are called on the left, the
others come after one. -/
theorem parseElements_halts (hnull : ∀ id, N id → g.NullableRule id) {id : RuleId} {rule : Rule}
    (hrule : g.rule id = .ok rule) {start tape : Tape} (hlater : HaltsAfter run start)
    (hleft : ∀ other, g.LeftCalls id other → Halts (run.parse other) start)
    (hbound : start.reach.length ≤ run.bound) {before elements : List Element}
    (hsplit : rule.elements = before ++ elements) {us : List Token} (hleads : start.Leads us tape)
    (hbefore : us = [] → ∀ element ∈ before, g.NullableElement element) :
    Halts (g.parseElements run elements) tape := by
  induction elements generalizing before us tape with
  | nil => exact Halts.pure []
  | cons element rest ih =>
    have hreach := length_reach_of_leads hleads
    have hfirst : ∀ other ∈ element.rules, Halts (run.parse other) tape := by
      intro other hmem
      by_cases hnil : us = []
      · subst hnil
        rw [hleads.eq_of_nil]
        exact hleft other ⟨element, ⟨rule, before, rest, hrule, hsplit, hbefore rfl⟩, hmem⟩
      · have hpos := List.length_pos_of_ne_nil hnil
        exact hlater other tape (by omega)
    refine (parseElement_halts hwalks hg hfirst (hlater.of_le (by omega)) (by omega)).bind
      fun nodes tape' helement => ?_
    obtain ⟨vs, hleads', hpassed⟩ := (g.parseElement_walks hwalks hnull element).leads_of_ok helement
    have hsplit' : rule.elements = (before ++ [element]) ++ rest := by simpa using hsplit
    refine (ih hsplit' (hleads.trans hleads') fun hnil => ?_).bind fun _ _ _ => Halts.pure _
    obtain ⟨hus, hvs⟩ := List.append_eq_nil_iff.1 hnil
    simpa [or_imp, forall_and] using ⟨hbefore hus, hpassed hvs⟩

omit hwalks in
theorem parseWithin_halts {bound depth : Nat} {id : RuleId} {tape : Tape}
    (hbound : tape.reach.length ≤ bound)
    (hdepth : g.size * tape.reach.length + g.rank id < depth) :
    Halts (g.parseWithin bound depth id) tape := by
  induction depth generalizing id tape with
  | zero => cases hdepth
  | succ depth ih =>
    simp only [parseWithin]
    cases hrule : g.rule id with
    | error error =>
      rw [rule] at hrule
      split at hrule <;> cases hrule
      rintro ⟨⟩
    | ok rule =>
      rw [ofGrammar_ok_bind]
      refine Halts.bind ?_ fun _ _ _ => Halts.makeList g rule.kind _
      have hunknown : ∀ other, g.size ≤ other →
          ∀ tape' : Tape, Halts (g.parseWithin bound depth other) tape' := by
        intro other hle tape'
        cases depth <;> simp only [parseWithin, rule_of_le hle, ofGrammar_error_bind] <;> rintro ⟨⟩
      have hlater : HaltsAfter ⟨g.parseWithin bound depth, bound⟩ tape := by
        intro other tape' hlt
        by_cases hother : other < g.size
        · have hrank := rank_lt_size hg hother
          have hmul : g.size * tape'.reach.length + g.size ≤ g.size * tape.reach.length :=
            Nat.mul_le_mul_left g.size hlt
          exact ih (by omega) (by omega)
        · exact hunknown other (Nat.le_of_not_lt hother) tape'
      have hleft : ∀ other, g.LeftCalls id other → Halts (g.parseWithin bound depth other) tape := by
        intro other hcall
        by_cases hother : other < g.size
        · have hrank := rank_lt hg hcall hother
          exact ih hbound (by omega)
        · exact hunknown other (Nat.le_of_not_lt hother) tape
      have hnone : ([] : List Token) = [] → ∀ element ∈ ([] : List Element), g.NullableElement element := by
        simp
      exact parseElements_halts (fun other => g.parseWithin_walks bound depth other) hg (fun _ h => h)
        hrule hlater hleft hbound rfl (.refl tape) hnone

omit hwalks in
/-- A depth of the number of rules for each token ahead, and once more, is enough for any rule. -/
theorem parseWithin_halts_of_size {bound depth : Nat} {tape : Tape} (hbound : tape.reach.length ≤ bound)
    (hdepth : g.size * (tape.reach.length + 1) < depth) (id : RuleId) :
    Halts (g.parseWithin bound depth id) tape := by
  rw [Nat.mul_succ] at hdepth
  by_cases hid : id < g.size
  · have hrank := rank_lt_size hg hid
    exact parseWithin_halts hg hbound (by omega)
  · rw [parseWithin, rule_of_le (Nat.le_of_not_lt hid)]
    rintro ⟨⟩

omit hwalks in
/-- A bound on the tokens ahead is enough for any rule of a grammar without left recursion. -/
theorem parseBounded_halts {bound : Nat} {tape : Tape} (hbound : tape.reach.length ≤ bound)
    (id : RuleId) : Halts (g.parseBounded bound id) tape :=
  parseWithin_halts_of_size hg hbound
    (Nat.lt_succ_of_le (Nat.mul_le_mul_left g.size (Nat.succ_le_succ hbound))) id

omit hwalks in
/-- Parsing a rule up to the end of the input stops, since a round that takes nothing fails. -/
theorem parseUpTo_halts {bound limit : Nat} {tape : Tape} (hbound : tape.reach.length ≤ bound)
    (hlimit : tape.reach.length < limit) (id : RuleId) : Halts (g.parseUpTo bound id limit) tape := by
  induction limit generalizing tape with
  | zero => cases hlimit
  | succ limit ih =>
    simp only [parseUpTo]
    refine (Halts.peek 0).bind fun token t hpeek => Halts.ite _ (Halts.pure []) ?_
    obtain rfl := Stays.peek_zero.eq_of_ok hpeek
    refine Halts.cursor.bind fun start t' hstart => ?_
    cases hstart
    refine (parseBounded_halts hg hbound id).bind fun node tape' hparse => ?_
    obtain ⟨us, hleads, _⟩ := (g.parseWithin_walks bound _ id).leads_of_ok hparse
    have hreach := length_reach_of_leads hleads
    refine Halts.cursor.bind fun stop t' hstop => ?_
    cases hstop
    by_cases hmoved : us = []
    · have hstuck : (TokenStream.cursor tape' == TokenStream.cursor t) = true := by
        rw [hleads.cursor, hmoved]
        simp
      rw [if_pos hstuck]
      refine Halts.unexpected.bind fun _ t' hunexpected => ?_
      obtain ⟨_, _, _, hthrow⟩ := bind_eq_ok.1 hunexpected
      cases hthrow
    · have hpos := List.length_pos_of_ne_nil hmoved
      have hgoes : (TokenStream.cursor tape' == TokenStream.cursor t) = false := by
        rw [hleads.cursor]
        simpa using hmoved
      rw [hgoes]
      exact (ih (by omega) (by omega)).bind fun _ _ _ => Halts.pure _

end Grammar

end ParseKit
