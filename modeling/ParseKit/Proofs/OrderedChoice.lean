import Mathlib
import ParseKit.Proofs.Building
import ParseKit.Proofs.Lookahead
import ParseKit.Proofs.Termination

/-! Alternations as ordered choice. An alternation passes over what could not start and puts the
stream back after each attempt, and still gives what the first alternative gives that parses from
where the alternation began. Main statement: `Grammar.choose_eq_first`. -/

namespace ParseKit

/-- The builder may refuse its argument but is never at fault itself. -/
def Factory.NeverFails {α : Type} (factory : Factory α) : Prop :=
  ∀ argument reason, factory.build argument ≠ .error (.failed reason)

theorem Factory.NeverFails.isRecoverable {α : Type} {factory : Factory α} (h : factory.NeverFails)
    {line? : Option Nat} {argument : α} {error : ParseError}
    (herror : factory.makeAt line? argument = .error error) : error.isRecoverable = true := by
  rcases makeAt_eq_error herror with ⟨_, _, rfl⟩ | ⟨reason, hfailed, _⟩
  · rfl
  · exact absurd hfailed (h argument reason)

theorem Factory.leaf_neverFails (kind : NodeKind) : (⟨kind, .leaf kind⟩ : Factory Token).NeverFails := by
  intro token reason h
  cases h

theorem Factory.flattenOrWrap_neverFails (kind : NodeKind) :
    (⟨kind, .flattenOrWrap kind⟩ : Factory (List Node)).NeverFails := by
  intro children reason h
  simp only [Builder.flattenOrWrap] at h
  split at h <;> cases h

namespace Grammar

structure NeverFails (g : Grammar) : Prop where
  tokens : ∀ {kind factory}, g.tokenFactory kind = .ok factory → factory.NeverFails
  lists : ∀ {kind factory}, g.listFactory kind = .ok factory → factory.NeverFails

theorem Complete.refers {g : Grammar} (h : g.Complete) : g.Refers (· < g.size) fun _ => False where
  rule hid herror := by
    obtain ⟨rule, hrule⟩ := exists_rule_of_lt hid
    rw [hrule] at herror
    cases herror
  known _ hrule := h.rules hrule

theorem NeverFails.of_entries {g : Grammar} (htokens : ∀ entry ∈ g.tokens.entries, entry.2.NeverFails)
    (hlists : ∀ entry ∈ g.lists.entries, entry.2.NeverFails) : g.NeverFails where
  tokens h := by
    obtain ⟨entry, hmem, rfl⟩ := exists_mem_of_tokenFactory h
    exact htokens entry hmem
  lists h := by
    obtain ⟨entry, hmem, rfl⟩ := exists_mem_of_listFactory h
    exact hlists entry hmem

theorem NeverFails.isRecoverable_of_tokenNode {g : Grammar} (h : g.NeverFails) {kind : NodeKind}
    (hkind : ∃ factory, g.tokenFactory kind = .ok factory) {token : Token} {error : ParseError}
    (herror : g.tokenNode kind token = .error error) : error.isRecoverable = true := by
  obtain ⟨factory, hfactory⟩ := hkind
  rw [tokenNode, hfactory] at herror
  exact (h.tokens hfactory).isRecoverable herror

theorem NeverFails.isRecoverable_of_listNode {g : Grammar} (h : g.NeverFails) {kind : NodeKind}
    (hkind : ∃ factory, g.listFactory kind = .ok factory) {children : List Node} {error : ParseError}
    (herror : g.listNode kind children = .error error) : error.isRecoverable = true := by
  obtain ⟨factory, hfactory⟩ := hkind
  rw [listNode, hfactory] at herror
  exact (h.lists hfactory).isRecoverable herror

/-- A complete grammar whose builders never fail gives rise to no error by itself that would end an
alternation. -/
theorem raises_recoverable {g : Grammar} (hcomplete : g.Complete) (hnever : g.NeverFails) :
    g.Raises (· < g.size) (·.isRecoverable = true) where
  rule hid herror := (hcomplete.refers.rule hid herror).elim
  known := hcomplete.refers.known
  kind _ hrule _ _ herror := hnever.isRecoverable_of_listNode (hcomplete.kind hrule) herror
  tokenKinds _ hrule element hmem kind hkind _ _ herror :=
    hnever.isRecoverable_of_tokenNode (hcomplete.tokenKinds hrule element hmem kind hkind) herror
  listKinds _ hrule element hmem kind hkind _ _ herror :=
    hnever.isRecoverable_of_listNode (hcomplete.listKinds hrule element hmem kind hkind) herror

end Grammar

namespace ParseM

variable {α β : Type}

/-- On a tape without faults the parser leaves one without faults, and unless it runs out of depth
its errors are such that an alternation goes on. -/
def Mild (p : ParseM Tape α) : Prop :=
  ∀ tape, tape.fault? = none → (p tape).2.fault? = none ∧
    ∀ error, (p tape).1 = .error error → error.isRecoverable = true ∨ error = .grammar .leftRecursion

/-- On a tape without faults the parser leaves the tape as it is, and it answers unless it runs out
of depth. -/
def Answers (p : ParseM Tape α) : Prop :=
  ∀ tape, tape.fault? = none → (∃ a, p tape = (.ok a, tape)) ∨ (p tape).1 = .error (.grammar .leftRecursion)

/-- Where no fault comes, looking ahead finds a token and changes nothing. -/
theorem peek_of_fault?_eq_none {tape : Tape} (h : tape.fault? = none) (k : Nat) :
    ParseM.peek k tape = (.ok (tape.reach.getD k .endOfInput), tape) := by
  have hpeek : TokenStream.peek k tape = (.ok (tape.reach.getD k .endOfInput), tape) :=
    Tape.peek_of_fault?_eq_none h k
  rw [run_peek, hpeek]
  rfl

theorem Answers.looking : Looking (fun _ => False) fun p (_ : ParseM Tape _) => Answers p where
  pure a := fun tape _ => .inl ⟨a, rfl⟩
  bind hp hf := by
    intro tape hfault
    rcases hp tape hfault with ⟨a, ha⟩ | hexhausted
    · rw [bind_of_ok ha]
      exact hf a tape hfault
    · exact .inr (bind_fails hexhausted)
  throw h := h.elim
  exhausted := fun _ _ => .inr rfl
  peek := fun _ hfault => .inl ⟨_, peek_of_fault?_eq_none hfault 0⟩

namespace Mild

theorem bind {p : ParseM Tape α} {f : α → ParseM Tape β} (hp : Mild p) (hf : ∀ a, Mild (f a)) :
    Mild (p >>= f) := by
  intro tape hfault
  have hfirst := hp tape hfault
  rw [run_bind]
  rcases h : p tape with ⟨error | a, tape'⟩ <;> rw [h] at hfirst
  · refine ⟨hfirst.1, fun other hother => ?_⟩
    cases hother
    exact hfirst.2 error rfl
  · exact hf a tape' hfirst.1

theorem of_ok {p : ParseM Tape α} (h : ∀ tape, tape.fault? = none →
    ∃ a tape', p tape = (.ok a, tape') ∧ tape'.fault? = none) : Mild p := by
  intro tape hfault
  obtain ⟨a, tape', hp, hfault'⟩ := h tape hfault
  rw [hp]
  exact ⟨hfault', by rintro _ ⟨⟩⟩

theorem throw {error : ParseError} (h : error.isRecoverable = true ∨ error = .grammar .leftRecursion) :
    Mild (MonadExcept.throw error : ParseM Tape α) := by
  intro tape hfault
  refine ⟨hfault, fun other hother => ?_⟩
  cases hother
  exact h

theorem read : Mild ParseM.read := by
  refine of_ok fun tape hfault => ?_
  rcases tape with ⟨past, _ | ⟨fault | token, rest⟩⟩
  · exact ⟨_, _, rfl, rfl⟩
  · cases hfault
  · exact ⟨_, _, rfl, hfault⟩

theorem tryOr {note : ParseError → String} {p : ParseM Tape α} {next : ParseError → ParseM Tape α}
    (hp : Mild p) (hnext : ∀ error, error.isRecoverable = true → Mild (next error)) :
    Mild (p.tryOr note next) := by
  intro tape hfault
  have hattempt := hp tape hfault
  have hback (mark : Checkpoint) (t : Tape) : (t.rewind mark).fault? = t.fault? :=
    Item.fault?_map_ok_append _ _
  rw [run_tryOr]
  have hmark : (TokenStream.checkpoint tape).2 = tape := rfl
  rw [hmark]
  rcases h : p tape with ⟨error | a, tape'⟩ <;> rw [h] at hattempt
  · by_cases hrecoverable : error.isRecoverable = true
    · simp only [hrecoverable, if_true]
      exact hnext error hrecoverable _ ((hback _ _).trans hattempt.1)
    · simp only [hrecoverable]
      exact ⟨(hback _ _).trans hattempt.1, hattempt.2⟩
  · exact hattempt

theorem parametric : Parametric (·.isRecoverable = true)
    fun p (_ : ParseM Tape _) => Mild p where
  pure a := of_ok fun tape hfault => ⟨a, tape, rfl, hfault⟩
  bind hp hf := hp.bind hf
  throw h := throw (.inl h)
  exhausted := throw (.inr rfl)
  recoverable := id
  peek := of_ok fun tape hfault => ⟨_, tape, peek_of_fault?_eq_none hfault 0, hfault⟩
  read := read
  cursor := of_ok fun tape hfault => ⟨_, tape, rfl, hfault⟩
  tryOr hp hnext := hp.tryOr hnext

end Mild

end ParseM

namespace Grammar

section First

variable {σ : Type}

/-- What the first parser gives that succeeds when it is started from here, and the state after it.
Those before it leave no trace. -/
def firstOf (parse : RuleId → ParseM σ Node) (ids : List RuleId) (s : σ) : Option (Node × σ) :=
  ids.findSome? fun id =>
    match parse id s with
    | (.ok node, s') => some (node, s')
    | (.error _, _) => none

theorem firstOf_cons (parse : RuleId → ParseM σ Node) (id : RuleId) (ids : List RuleId) (s : σ) :
    firstOf parse (id :: ids) s =
      match parse id s with
      | (.ok node, s') => some (node, s')
      | (.error _, _) => firstOf parse ids s := by
  rw [firstOf, List.findSome?_cons]
  rcases parse id s with ⟨_ | _, _⟩ <;> rfl

theorem firstOf_agree {τ : Type} {R : List Checkpoint → σ → τ → Prop} {parse : RuleId → ParseM σ Node}
    {parse' : RuleId → ParseM τ Node} (hparse : ∀ id, Agree R (parse id) (parse' id))
    {marks : List Checkpoint} {s : σ} {t : τ} (h : R marks s t) (ids : List RuleId) :
    Option.Rel (fun x y => x.1 = y.1 ∧ R marks x.2 y.2) (firstOf parse ids s) (firstOf parse' ids t) := by
  induction ids with
  | nil => exact .none
  | cons id ids ih =>
    obtain ⟨hresult, hstate⟩ := hparse id marks s t h
    rw [firstOf_cons, firstOf_cons]
    rcases hs : parse id s with ⟨error | node, s'⟩ <;> rw [hs] at hresult hstate <;>
      rcases ht : parse' id t with ⟨error' | node', t'⟩ <;> rw [ht] at hresult hstate
    · exact ih
    · cases hresult
    · cases hresult
    · cases hresult
      exact .some ⟨rfl, hstate⟩

end First

variable {g : Grammar}

theorem starts_of_parse (hg : ¬ g.LeftRecursive) {id : RuleId} {tape tape' : Tape} {node : Node}
    (h : g.parse id tape = (.ok node, tape')) : g.starts id tape = (.ok true, tape) := by
  rw [run_parse] at h
  exact starts_of_parseWithin hg (TokenStream.unread tape) (g.size * (TokenStream.unread tape + 1) + 1)
    id tape node tape' h

def Picks (tape : Tape) (first? : Option (Node × Tape)) (result : Except ParseError Node × Tape) : Prop :=
  match first? with
  | some (node, tape') => result = (.ok node, tape')
  | none => ∃ error, result = (.error error, tape) ∧ error.isRecoverable = true

section Faultless

variable (hg : ¬ g.LeftRecursive) (hcomplete : g.Complete) (hnever : g.NeverFails)
  {tape : Tape} (hfault : tape.fault? = none) {id : RuleId} (hid : id < g.size)
include hg hcomplete hnever hfault hid

/-- A rule that is not parsed on a tape without faults lets an alternation go on. -/
theorem isRecoverable_of_parse {error : ParseError} (h : (g.parse id tape).1 = .error error) :
    error.isRecoverable = true := by
  have hraises := raises_recoverable hcomplete hnever
  rw [run_parse] at h
  obtain ⟨_, hmild⟩ := ParseM.Mild.parametric.parseBounded hraises
    (.refl (TokenStream.unread tape)) hid tape hfault
  refine (hmild error h).resolve_right fun hexhausted => ?_
  exact parseBounded_halts hg (Nat.le_refl _) id (by rw [← hexhausted]; exact h)

omit hnever in
theorem exists_starts : ∃ b, g.starts id tape = (.ok b, tape) :=
  (ParseM.Answers.looking.starts hcomplete.refers hid tape hfault).resolve_right (starts_halts hg id tape)

omit hid in
theorem parseChoice_picks {last? : Option ParseError}
    (hlast : ∀ error, last? = some error → error.isRecoverable = true) {ids : List RuleId}
    (hids : ∀ id ∈ ids, id < g.size) :
    Picks tape (firstOf g.parse ids tape) (g.parseChoice ⟨g.parse, 0⟩ last? ids tape) := by
  induction ids generalizing last? with
  | nil =>
    cases last? with
    | some error => exact ⟨error, rfl, hlast error rfl⟩
    | none =>
      have hpeek := ParseM.peek_of_fault?_eq_none hfault 0
      exact ⟨_, by rw [parseChoice, ParseM.unexpected, ParseM.bind_of_ok hpeek]; rfl, rfl⟩
  | cons id ids ih =>
    obtain ⟨hid, hrest⟩ := List.forall_mem_cons.1 hids
    obtain ⟨b, hstarts⟩ := exists_starts hg hcomplete hfault hid
    rw [firstOf_cons]
    cases b with
    | false =>
      rw [parseChoice, ParseM.bind_of_ok hstarts]
      rcases hparse : g.parse id tape with ⟨error | node, tape'⟩
      · exact ih hlast hrest
      -- A rule that parses could start.
      · have htrue := starts_of_parse hg hparse
        rw [hstarts] at htrue
        cases htrue
    | true =>
      have hwalks : ∀ id, ParseM.Walks (g.NullableRule id) ((⟨g.parse, 0⟩ : Runner Tape).parse id) :=
        g.parse_walks
      rw [g.parseChoice_of_starts hwalks hstarts]
      dsimp only
      rcases hparse : g.parse id tape with ⟨error | node, tape'⟩
      · have hrecoverable := isRecoverable_of_parse hg hcomplete hnever hfault hid (by rw [hparse])
        simp only [hrecoverable, if_true]
        exact ih (fun other heq => by cases heq; exact hrecoverable) hrest
      · rfl

omit hid in
theorem choose_picks {ids : List RuleId} (hids : ∀ id ∈ ids, id < g.size) :
    Picks tape (firstOf g.parse ids tape) (g.choose ids tape) :=
  parseChoice_picks hg hcomplete hnever hfault (by simp) hids

end Faultless

/-- The alternation gives the node and the place of the first alternative that parses when it is
started where the alternation is, on a lexer of its own. Without such an alternative it fails in a
way that an outer alternation goes on from. -/
def ChoosesFirst (g : Grammar) (ids : List RuleId) (lexer : Lexer) : Prop :=
  match firstOf g.parse ids lexer with
  | some (node, taken) => ∃ after, g.choose ids lexer = (.ok node, after) ∧
      after.cursor = taken.cursor ∧ after.ahead = taken.ahead
  | none => ∃ error after, g.choose ids lexer = (.error error, after) ∧ error.isRecoverable = true

/-- In a grammar that was built, has no left recursion and has only builders that never fail, every
alternation between rules of the grammar is an ordered choice, in whatever state the lexer is, if
all lines that are still to be read scan. -/
theorem choose_eq_first {draft : Draft} {g : Grammar} (hbuild : draft.build.1 = .ok g)
    (hg : ¬ g.LeftRecursive) (hnever : g.NeverFails) {ids : List RuleId} (hids : ∀ id ∈ ids, id < g.size)
    {lexer : Lexer} (hlexer : lexer.Sound) (hscans : Item.fault? lexer.ahead = none) :
    g.ChoosesFirst ids lexer := by
  obtain ⟨marks, tape, hshows⟩ := hlexer.exists_shows
  have hfault : tape.fault? = none := by rw [Tape.fault?, hshows.ahead, hscans]
  have hpicks := choose_picks hg (complete_of_build hbuild) hnever hfault hids
  have hfirst := firstOf_agree (Lexer.mirrors.parse hg) hshows ids
  obtain ⟨hresult, hstate⟩ := Lexer.mirrors.choose hg ids marks lexer tape hshows
  rw [ChoosesFirst]
  generalize firstOf g.parse ids lexer = first at hfirst
  generalize firstOf g.parse ids tape = first' at hfirst hpicks
  cases hfirst with
  | none =>
    obtain ⟨error, herror, hrecoverable⟩ := hpicks
    rw [herror] at hresult
    exact ⟨error, _, Prod.ext hresult rfl, hrecoverable⟩
  | @some taken taken' hsame =>
    have hchosen : g.choose ids tape = (.ok taken'.1, taken'.2) := hpicks
    rw [hchosen, ← hsame.1] at hresult
    rw [hchosen] at hstate
    refine ⟨_, Prod.ext hresult rfl, ?_, ?_⟩
    · rw [hstate.cursor, hsame.2.cursor]
    · rw [← hstate.ahead, hsame.2.ahead]

end Grammar

def Builder.oneDigit (kind : NodeKind) : Builder Token :=
  fun token =>
    match token.numberValue with
    | .ok value =>
      if 0 ≤ value ∧ value < 10 then .ok (.leaf kind token)
      else .error (.invalidArgument s!"{value} has more than one digit")
    | .error error => .error (.invalidArgument error.message)

theorem Factory.oneDigit_neverFails (kind : NodeKind) :
    (⟨kind, .oneDigit kind⟩ : Factory Token).NeverFails := by
  intro token reason h
  simp only [Builder.oneDigit] at h
  split at h
  · split at h <;> cases h
  · cases h

def Draft.smallNumbers : Draft :=
  let small : NodeKind := ⟨"small"⟩
  let number : NodeKind := ⟨"number"⟩
  let draft := ({} : Draft).registering (·.addTokenBuilder small (.oneDigit small) |>.addLeaf number)
  let (first, draft) := draft.add (Rule.untyped.number small)
  let (second, draft) := draft.add (Rule.untyped.number number)
  (draft.add (Rule.untyped.choice [first, second])).2

/-- The first alternative is refused after its token was taken. -/
theorem Grammar.choose_eq_first_smallNumbers : ∃ g, Draft.smallNumbers.build.1 = .ok g ∧
    ¬ g.LeftRecursive ∧ g.NeverFails ∧ (∀ id ∈ [0, 1], id < g.size) ∧
      let lexer := Lexer.ofSource [.text ['4', '2']] {}
      lexer.Sound ∧ Item.fault? lexer.ahead = none ∧ g.ChoosesFirst [0, 1] lexer := by
  obtain ⟨g, hbuild⟩ : ∃ g, Draft.smallNumbers.build.1 = .ok g := ⟨_, rfl⟩
  have hg : ¬ g.LeftRecursive := by
    refine not_leftRecursive_of_refersBack ?_
    cases hbuild
    decide
  have htokens : g.tokens.entries = [(⟨"number"⟩, ⟨⟨"number"⟩, .leaf ⟨"number"⟩⟩),
      (⟨"small"⟩, ⟨⟨"small"⟩, .oneDigit ⟨"small"⟩⟩)] := by
    cases hbuild
    rfl
  have hlists : g.lists.entries = [(.list, ⟨.list, .flattenOrWrap .list⟩)] := by
    cases hbuild
    rfl
  have hnever : g.NeverFails := by
    refine .of_entries ?_ ?_
    · simpa [htokens] using ⟨Factory.leaf_neverFails _, Factory.oneDigit_neverFails _⟩
    · simpa [hlists] using Factory.flattenOrWrap_neverFails _
  have hids : ∀ id ∈ [0, 1], id < g.size := by
    cases hbuild
    decide
  have hscans : Item.fault? (Lexer.ofSource [.text ['4', '2']] {}).ahead = none := by cbv
  exact ⟨g, hbuild, hg, hnever, hids, .ofSource _ _, hscans,
    choose_eq_first hbuild hg hnever hids (.ofSource _ _) hscans⟩

end ParseKit
