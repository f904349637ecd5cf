import ParseKit.Proofs.Termination
import ParseKit.Proofs.WholeInput

/-! What a failed parse leaves behind. The only thing that is lost for good is the fault that it
reports: the line at fault was read and gives no tokens. A parse that fails may have taken tokens, a
lookahead that fails has not, and an alternation that fails has put back what its alternatives took.
Main statements: `Grammar.choose_restores`, and `Grammar.rounds_of_parseAll_error` on the rounds
before the one that fails. -/

namespace ParseKit

/-- The items without the first fault, which is the given one. -/
def Item.Drops (fault : LexError) (items items' : List Item) : Prop :=
  ∃ (us : List Token) (rest : List Item), items = us.map .ok ++ .error fault :: rest ∧
    items' = us.map .ok ++ rest

theorem Item.Drops.isPrefix {fault : LexError} {items items' : List Item} (h : Item.Drops fault items items')
    {ts : List Token} (hfront : ts.map .ok <+: items) : ts.map .ok <+: items' := by
  obtain ⟨us, rest, rfl, rfl⟩ := h
  induction ts generalizing us with
  | nil => exact List.nil_prefix
  | cons t ts ih =>
    cases us with
    | nil => cases (List.cons_prefix_cons.1 hfront).1
    | cons u us =>
      obtain ⟨heq, hrest⟩ := List.cons_prefix_cons.1 hfront
      exact List.cons_prefix_cons.2 ⟨heq, ih us hrest⟩

def ParseError.NotLex (error : ParseError) : Prop :=
  ∀ fault, error ≠ .lex fault

theorem ParseError.notLex_of_isRecoverable {error : ParseError} (h : error.isRecoverable = true) :
    error.NotLex := by
  rintro fault rfl
  cases h

namespace Tape

/-- The tape without its first fault, which is the given one. -/
def Drops (tape : Tape) (fault : LexError) (tape' : Tape) : Prop :=
  tape'.past = tape.past ∧ Item.Drops fault tape.ahead tape'.ahead

theorem drops_head (past : List Token) (fault : LexError) (rest : List Item) :
    Drops ⟨past, .error fault :: rest⟩ fault ⟨past, rest⟩ :=
  ⟨rfl, [], rest, rfl, rfl⟩

def Moves (tape tape' : Tape) : Prop :=
  ∃ us, tape.Leads us tape'

/-- A relation between tapes that one may follow step by step, and in which a fault that is dropped
later might as well have been dropped before. -/
structure Kept (K : Tape → Tape → Prop) : Prop where
  refl : ∀ tape, K tape tape
  trans : ∀ {tape₁ tape₂ tape₃}, K tape₁ tape₂ → K tape₂ tape₃ → K tape₁ tape₃
  drops : ∀ {tape₁ tape₂ tape₃ fault}, K tape₁ tape₂ → tape₂.Drops fault tape₃ →
    ∃ tape, tape₁.Drops fault tape ∧ K tape tape₃

theorem kept_eq : Kept Eq where
  refl _ := rfl
  trans h h' := h.trans h'
  drops h hdrops := ⟨_, h ▸ hdrops, rfl⟩

theorem kept_moves : Kept Moves where
  refl tape := ⟨[], .refl tape⟩
  trans h h' :=
    let ⟨us, hleads⟩ := h
    let ⟨vs, hleads'⟩ := h'
    ⟨us ++ vs, hleads.trans hleads'⟩
  drops {tape₁ tape₂ tape₃ fault} h hdrops := by
    obtain ⟨us, hleads⟩ := h
    obtain ⟨hpast, vs, rest, hahead, hahead'⟩ := hdrops
    refine ⟨⟨tape₁.past, us.map .ok ++ tape₃.ahead⟩, ⟨rfl, us ++ vs, rest, ?_, ?_⟩, us, ?_, rfl⟩
    · rw [hleads.ahead, hahead, List.map_append, List.append_assoc]
    · rw [hahead', List.map_append, List.append_assoc]
    · rw [hpast, hleads.past]

/-- What is left after a failure: the tape up to `K`, without the fault if the failure reports one. -/
inductive Leaves (K : Tape → Tape → Prop) (tape : Tape) : ParseError → Tape → Prop
  | failed {error : ParseError} {tape' : Tape} (hreports : error.NotLex) (hkept : K tape tape') :
    Leaves K tape error tape'
  | faulted {fault : LexError} {tape₁ tape' : Tape} (hdrops : tape.Drops fault tape₁)
    (hkept : K tape₁ tape') : Leaves K tape (.lex fault) tape'

theorem Leaves.of_kept {K : Tape → Tape → Prop} (hK : Kept K) {tape tape₁ tape' : Tape}
    {error : ParseError} (h : K tape tape₁) (hleaves : tape₁.Leaves K error tape') :
    tape.Leaves K error tape' := by
  cases hleaves with
  | failed hreports hkept => exact .failed hreports (hK.trans h hkept)
  | faulted hdrops hkept =>
    obtain ⟨tape₂, hdrops₂, hkept₂⟩ := hK.drops h hdrops
    exact .faulted hdrops₂ (hK.trans hkept₂ hkept)

theorem Leaves.moves {tape tape' : Tape} {error : ParseError} (h : tape.Leaves Eq error tape') :
    tape.Leaves Moves error tape' := by
  cases h with
  | failed hreports hkept => exact .failed hreports (hkept ▸ kept_moves.refl tape)
  | faulted hdrops hkept => exact .faulted hdrops (hkept ▸ kept_moves.refl _)

theorem Leaves.peek_zero {tape tape' : Tape} {error : ParseError} (h : tape.Leaves Eq error tape')
    {token : Token} (hpeek : (tape.peek 0).1 = .ok token) : (tape'.peek 0).1 = .ok token := by
  cases h with
  | failed _ hkept =>
    subst hkept
    exact hpeek
  | faulted hdrops hkept =>
    subst hkept
    obtain ⟨-, _ | ⟨u, us⟩, rest, hahead, hahead'⟩ := hdrops
    · rw [Tape.peek, hahead] at hpeek
      cases hpeek
    · rw [Tape.peek, hahead] at hpeek
      rw [Tape.peek, hahead']
      exact hpeek

theorem Leaves.rewind {tape tape' : Tape} {error : ParseError} (h : tape.Leaves Moves error tape') :
    tape.Leaves Eq error (TokenStream.rewind (TokenStream.checkpoint tape).1 tape') := by
  cases h with
  | failed hreports hkept =>
    obtain ⟨us, hleads⟩ := hkept
    exact .failed hreports hleads.rewind_eq.symm
  | @faulted fault tape₁ _ hdrops hkept =>
    obtain ⟨us, hleads⟩ := hkept
    have hmark : (TokenStream.checkpoint tape).1 = (TokenStream.checkpoint tape₁).1 :=
      congrArg (Checkpoint.mk ·.length) hdrops.1.symm
    rw [hmark, hleads.rewind_eq]
    exact .faulted hdrops rfl

end Tape

namespace ParseM

variable {α β : Type} {K : Tape → Tape → Prop}

/-- The parser leaves the tape up to `K`, without the fault if it fails with one. -/
def Accounts (K : Tape → Tape → Prop) (p : ParseM Tape α) : Prop :=
  ∀ tape, match p tape with
    | (.ok _, tape') => K tape tape'
    | (.error error, tape') => tape.Leaves K error tape'

namespace Accounts

theorem ok {p : ParseM Tape α} (h : Accounts K p) {tape tape' : Tape} {a : α}
    (hp : p tape = (.ok a, tape')) : K tape tape' := by
  have hends := h tape
  rw [hp] at hends
  exact hends

theorem error {p : ParseM Tape α} (h : Accounts K p) {tape tape' : Tape} {error : ParseError}
    (hp : p tape = (.error error, tape')) : tape.Leaves K error tape' := by
  have hends := h tape
  rw [hp] at hends
  exact hends

theorem bind (hK : Tape.Kept K) {p : ParseM Tape α} {f : α → ParseM Tape β} (hp : Accounts K p)
    (hf : ∀ a, Accounts K (f a)) : Accounts K (p >>= f) := by
  intro tape
  rw [run_bind]
  rcases hfirst : p tape with ⟨error | a, tape₁⟩
  · exact hp.error hfirst
  · have hkept := hp.ok hfirst
    dsimp only
    rcases hsecond : f a tape₁ with ⟨error | b, tape₂⟩
    · exact ((hf a).error hsecond).of_kept hK hkept
    · exact hK.trans hkept ((hf a).ok hsecond)

theorem throw (hK : Tape.Kept K) {error : ParseError} (h : error.NotLex) :
    Accounts K (MonadExcept.throw error : ParseM Tape α) :=
  fun tape => .failed h (hK.refl tape)

theorem peek (hK : Tape.Kept K) : Accounts K (ParseM.peek 0) := by
  rintro ⟨past, _ | ⟨fault | token, rest⟩⟩
  · exact hK.refl _
  · exact .faulted (Tape.drops_head past fault rest) (hK.refl _)
  · exact hK.refl _

theorem looking (hK : Tape.Kept K) :
    Looking ParseError.NotLex fun p (_ : ParseM Tape _) => Accounts K p where
  pure _ := hK.refl
  bind hp hf := hp.bind hK hf
  throw h := throw hK h
  exhausted := throw hK (by rintro _ ⟨⟩)
  peek := peek hK

theorem walks {p : ParseM Tape α} (h : Accounts Tape.Moves p) : Walks True p := by
  intro tape
  rcases hp : p tape with ⟨error | a, tape'⟩
  · cases h.error hp with
    | failed _ hkept =>
      obtain ⟨us, hleads⟩ := hkept
      exact .inl ⟨us, hleads, fun _ _ => trivial⟩
    | @faulted fault _ _ _ _ => exact .inr ⟨fault, rfl⟩
  · obtain ⟨us, hleads⟩ := h.ok hp
    exact .inl ⟨us, hleads, fun _ _ => trivial⟩

theorem tryOr_error {note : ParseError → String} {p : ParseM Tape α}
    {next : ParseError → ParseM Tape α} (hp : Accounts Tape.Moves p) {tape tape' : Tape}
    {error : ParseError} (h : p.tryOr note next tape = (.error error, tape'))
    (hnext : ∀ other, other.isRecoverable = true → next other tape = (.error error, tape') →
      tape.Leaves Eq error tape') : tape.Leaves Eq error tape' := by
  rw [hp.walks.run_tryOr] at h
  rcases hattempt : p tape with ⟨other | a, tape''⟩ <;> rw [hattempt] at h <;> dsimp only at h
  · by_cases hrecoverable : other.isRecoverable = true
    · rw [if_pos hrecoverable] at h
      exact hnext other hrecoverable h
    · rw [if_neg hrecoverable] at h
      cases h
      exact (hp.error hattempt).rewind
  · cases h

theorem parametric : Parametric ParseError.NotLex fun p (_ : ParseM Tape _) => Accounts Tape.Moves p where
  toLooking := looking Tape.kept_moves
  recoverable := ParseError.notLex_of_isRecoverable
  read := by
    rintro ⟨past, _ | ⟨fault | token, rest⟩⟩
    · exact Tape.kept_moves.refl _
    · exact .faulted (Tape.drops_head past fault rest) (Tape.kept_moves.refl _)
    · exact ⟨[token], rfl, rfl⟩
  cursor := Tape.kept_moves.refl
  tryOr {_ note p _ next _} hp hnext := by
    intro tape
    rw [hp.walks.run_tryOr]
    rcases hattempt : p tape with ⟨error | a, tape'⟩ <;> dsimp only
    · by_cases hrecoverable : error.isRecoverable = true
      · rw [if_pos hrecoverable]
        exact hnext error hrecoverable tape
      · rw [if_neg hrecoverable]
        exact (hp.error hattempt).rewind.moves
    · exact hp.ok hattempt

end Accounts

end ParseM

namespace Grammar

theorem notLex_of_makeAt {α : Type} {factory : Factory α} {line? : Option Nat} {argument : α}
    {error : ParseError} (h : factory.makeAt line? argument = .error error) : error.NotLex := by
  rcases Factory.makeAt_eq_error h with ⟨_, _, rfl⟩ | ⟨_, _, rfl⟩ <;> rintro fault ⟨⟩

variable (g : Grammar)

theorem notLex_of_listNode {kind : NodeKind} {children : List Node} {error : ParseError}
    (h : g.listNode kind children = .error error) : error.NotLex := by
  unfold listNode at h
  split at h
  · exact notLex_of_makeAt h
  · cases h
    rintro fault ⟨⟩

theorem notLex_of_tokenNode {kind : NodeKind} {token : Token} {error : ParseError}
    (h : g.tokenNode kind token = .error error) : error.NotLex := by
  unfold tokenNode at h
  split at h
  · exact notLex_of_makeAt h
  · cases h
    rintro fault ⟨⟩

theorem raises_notLex : g.Raises (fun _ => True) ParseError.NotLex where
  rule _ _ := by rintro fault ⟨⟩
  known _ _ _ _ _ _ := trivial
  kind _ _ children error herror := g.notLex_of_listNode herror
  tokenKinds _ _ _ _ _ _ token error herror := g.notLex_of_tokenNode herror
  listKinds _ _ _ _ _ _ children error herror := g.notLex_of_listNode herror

theorem parse_accounts (id : RuleId) : ParseM.Accounts Tape.Moves (g.parse id) := by
  intro tape
  rw [run_parse]
  exact ParseM.Accounts.parametric.parseBounded g.raises_notLex (.refl _) trivial tape

theorem starts_accounts (id : RuleId) : ParseM.Accounts Eq (g.starts id) :=
  (ParseM.Accounts.looking Tape.kept_eq).starts g.raises_notLex.toRefers trivial

/-- An alternation that fails leaves the tape as it was, without the fault that it reports. -/
theorem parseChoice_leaves {run : Runner Tape} {ids : List RuleId}
    (hrun : ∀ id ∈ ids, ParseM.Accounts Tape.Moves (run.parse id)) {last? : Option ParseError}
    (hlast : ∀ error, last? = some error → error.NotLex) {tape tape' : Tape} {error : ParseError}
    (h : g.parseChoice run last? ids tape = (.error error, tape')) : tape.Leaves Eq error tape' := by
  induction ids generalizing last? with
  | nil =>
    cases last? with
    | none =>
      have hunexpected : ParseM.Accounts Eq (ParseM.unexpected : ParseM Tape Node) :=
        (ParseM.Accounts.peek Tape.kept_eq).bind Tape.kept_eq fun token =>
          .throw Tape.kept_eq (by rintro fault ⟨⟩)
      exact hunexpected.error h
    | some last =>
      cases h
      exact .failed (hlast error rfl) rfl
  | cons id ids ih =>
    obtain ⟨hid, hids⟩ := List.forall_mem_cons.1 hrun
    rw [parseChoice_cons] at h
    rcases hstarts : g.starts id tape with ⟨other | b, tape₁⟩
    · rw [ParseM.bind_of_error hstarts] at h
      cases h
      exact (g.starts_accounts id).error hstarts
    · obtain rfl := (g.starts_accounts id).ok hstarts
      rw [ParseM.bind_of_ok hstarts] at h
      cases b with
      | false => exact ih hids hlast h
      | true =>
        refine hid.tryOr_error h fun other hrecoverable hnext => ?_
        refine ih hids (fun last hsome => ?_) hnext
        cases hsome
        exact ParseError.notLex_of_isRecoverable hrecoverable

theorem choose_leaves {ids : List RuleId} {tape tape' : Tape} {error : ParseError}
    (h : g.choose ids tape = (.error error, tape')) : tape.Leaves Eq error tape' :=
  g.parseChoice_leaves (fun id _ => g.parse_accounts id) (by simp) h

end Grammar

/-- After a failure the lexer is where it was, under as many checkpoints and before the same token.
The tokens that it had buffered come next again, and what comes after them is the same too, except
that the fault of a line is gone if it was reported. -/
structure Lexer.Restored (error : ParseError) (lexer after : Lexer) : Prop where
  cursor : after.cursor = lexer.cursor
  pins : after.pins = lexer.pins
  next : ∀ token, (lexer.peek 0).1 = .ok token → (after.peek 0).1 = .ok token
  buffered : (lexer.buffer.toList.drop lexer.head).map .ok <+: after.ahead
  ahead : after.ahead = lexer.ahead ∨
    ∃ fault, error = .lex fault ∧ Item.Drops fault lexer.ahead after.ahead

namespace Lexer

variable {marks : List Checkpoint} {lexer after : Lexer} {tape tape' : Tape} {error : ParseError}

theorem Shows.restored (h : Shows marks lexer tape) (h' : Shows marks after tape')
    (hleaves : tape.Leaves Eq error tape') : lexer.Restored error after := by
  have hpins : after.pins = lexer.pins := h'.pins.trans h.pins.symm
  have hnext : ∀ token, (lexer.peek 0).1 = .ok token → (after.peek 0).1 = .ok token := by
    rw [(h.peek 0).1, (h'.peek 0).1]
    exact fun token => hleaves.peek_zero
  have hbuffered : (lexer.buffer.toList.drop lexer.head).map .ok <+: lexer.ahead := List.prefix_append _ _
  cases hleaves with
  | failed hreports hkept =>
    subst hkept
    have hahead : after.ahead = lexer.ahead := h'.ahead.symm.trans h.ahead
    exact ⟨h'.cursor.trans h.cursor.symm, hpins, hnext, hahead ▸ hbuffered, .inl hahead⟩
  | faulted hdrops hkept =>
    subst hkept
    obtain ⟨hpast, hdrops⟩ := hdrops
    rw [h.ahead, h'.ahead] at hdrops
    refine ⟨?_, hpins, hnext, hdrops.isPrefix hbuffered, .inr ⟨_, rfl, hdrops⟩⟩
    rw [h'.cursor, h.cursor, hpast]

end Lexer

/-- A rule that is an alternation alone parses as it does, if its builder hands on a single node. -/
theorem Mirrors.parse_eq_choose {σ : Type} [TokenStream σ] {R : List Checkpoint → σ → Tape → Prop}
    (sim : Mirrors R) {g : Grammar} (hg : ¬ g.LeftRecursive) {id : RuleId} {rule : Rule} {ids : List RuleId}
    (hrule : g.rule id = .ok rule) (helements : rule.elements = [.choice ids])
    (hsingle : ∀ node, g.listNode rule.kind [node] = .ok node) (marks : List Checkpoint) {s : σ}
    {tape : Tape} (h : R marks s tape) : g.parse id s = g.choose ids s := by
  have hmake (node : Node) : g.makeList (σ := σ) rule.kind [node] = pure node := by
    funext s
    rw [Grammar.run_makeList, hsingle]
    rfl
  rw [sim.parse_eq hg h, hrule, ParseM.ofGrammar_ok_bind, helements, Grammar.parseElements,
    Grammar.parseElements, Grammar.parseElement_choice]
  simp only [bind_assoc, pure_bind, List.append_nil, hmake, bind_pure]

/-- Whatever an alternation fails with, it leaves the lexer as it found it. -/
theorem Grammar.choose_restores {g : Grammar} (hg : ¬ g.LeftRecursive) {ids : List RuleId}
    {lexer after : Lexer} (hlexer : lexer.Sound) {error : ParseError}
    (h : g.choose ids lexer = (.error error, after)) : lexer.Restored error after := by
  obtain ⟨marks, tape, hshows⟩ := hlexer.exists_shows
  obtain ⟨hresult, hstate⟩ := Lexer.mirrors.choose hg ids marks lexer tape hshows
  rw [h] at hresult hstate
  exact hshows.restored hstate (g.choose_leaves (Prod.ext hresult.symm rfl))

section Rounds

variable {σ : Type} [TokenStream σ]

/-- Parses of a rule, one after the other, with their nodes and the state after the last of them. -/
inductive Grammar.Rounds (g : Grammar) (id : RuleId) : σ → List Node → σ → Prop
  | nil (s : σ) : Rounds g id s [] s
  | cons {s s₁ s' : σ} {node : Node} {nodes : List Node} (hparse : g.parse id s = (.ok node, s₁))
    (hrest : Rounds g id s₁ nodes s') : Rounds g id s (node :: nodes) s'

theorem Mirrors.rounds {R : List Checkpoint → σ → Tape → Prop} (sim : Mirrors R) {g : Grammar}
    (hg : ¬ g.LeftRecursive) {id : RuleId} {marks : List Checkpoint} {s : σ} {tape tape' : Tape}
    {nodes : List Node} (h : R marks s tape) (hrounds : g.Rounds id tape nodes tape') :
    ∃ s', g.Rounds id s nodes s' ∧ R marks s' tape' := by
  induction hrounds generalizing s with
  | nil => exact ⟨s, .nil s, h⟩
  | cons hparse _ ih =>
    obtain ⟨hresult, hstate⟩ := sim.parse hg id marks s _ h
    rw [hparse] at hresult hstate
    obtain ⟨s', hrest, hs'⟩ := ih hstate
    exact ⟨s', .cons (Prod.ext hresult rfl) hrest, hs'⟩

theorem Tape.mirrors : Mirrors fun _ (tape tape' : Tape) => tape = tape' where
  peek _ h := by rw [h]; exact ⟨rfl, rfl⟩
  read h := by rw [h]; exact ⟨rfl, rfl⟩
  cursor h := by rw [h]
  checkpoint h := by rw [h]; exact ⟨rfl, rfl⟩
  rewind h := by rw [h]
  commit h := by rw [h]
  report _ h := by rw [h]
  reach_le h := by rw [h]; exact Nat.le_refl _

namespace Grammar

variable {g : Grammar} {id : RuleId} {tape tape' : Tape}

theorem Rounds.phrases {D : List Token → Node → Prop}
    (hreads : ∀ bound, Reads D (g.parseBounded bound id)) {nodes : List Node}
    (h : g.Rounds id tape nodes tape') : ∃ us, tape.Leads us tape' ∧ (tape.Clean → Phrases D us nodes) := by
  induction h with
  | nil tape => exact ⟨[], .refl tape, fun _ => .nil⟩
  | @cons tape tape₁ tape' node nodes hparse _ ih =>
    obtain ⟨us, hleads, _⟩ := (g.parse_walks id).leads_of_ok hparse
    obtain ⟨vs, hleads', hphrases⟩ := ih
    refine ⟨us ++ vs, hleads.trans hleads', fun hclean => .cons ?_ (hphrases (hclean.leads hleads))⟩
    rw [run_parse] at hparse
    exact (hreads _).of_ok hclean hparse hleads

/-- A parse up to the end of the input that fails has made whole rounds up to one that fails. What is
taken is what these rounds take, if a failed round leaves the tape as it was. -/
theorem rounds_of_parseAll_error (hg : ¬ g.LeftRecursive) (hmoves : ParseM.Walks False (g.parse id))
    (hleaves : ∀ {tape tape' : Tape} {error : ParseError}, g.parse id tape = (.error error, tape') →
      tape.Leaves Eq error tape')
    (hfaults : ∀ (past : List Token) (fault : LexError) (rest : List Item),
      (g.parse id (⟨past, .error fault :: rest⟩ : Tape)).1 = .error (.lex fault))
    {error : ParseError} (h : g.parseAll id tape = (.error error, tape')) :
    ∃ nodes mid, g.Rounds id tape nodes mid ∧ (g.parse id mid).1 = .error error ∧
      mid.Leaves Eq error tape' := by
  induction hn : tape.reach.length using Nat.strong_induction_on generalizing tape with
  | _ n ih =>
    have hround : g.parseAll id tape = round (g.parse id) (g.parseAll id) tape :=
      @Mirrors.parseAll_eq Tape _ _ Tape.mirrors g hg [] tape tape rfl id
    rw [hround, round_of_moves hmoves] at h
    rcases hnext : tape.next? with _ | token
    · obtain ⟨past, ahead⟩ := tape
      obtain ⟨fault, rest, rfl⟩ := Tape.next?_eq_none_iff.1 hnext
      cases h
      exact ⟨[], _, .nil _, hfaults past fault rest, .faulted (Tape.drops_head past fault rest) rfl⟩
    rw [ParseM.bind_of_ok (peeks_isEndOfInput.next hnext)] at h
    cases hend : token.isEndOfInput with
    | true =>
      rw [hend] at h
      cases h
    | false =>
      rw [hend] at h
      simp only [Bool.false_eq_true, if_false] at h
      rcases hparse : g.parse id tape with ⟨other | node, tape₁⟩
      · rw [ParseM.bind_of_error hparse] at h
        cases h
        exact ⟨[], tape, .nil tape, by rw [hparse], hleaves hparse⟩
      · rw [ParseM.bind_of_ok hparse] at h
        obtain ⟨us, hleads, hmoved⟩ := hmoves.leads_of_ok hparse
        have hreach := congrArg List.length hleads.reach
        have hpos := List.length_pos_of_ne_nil fun hnil => hmoved hnil
        rw [List.length_append] at hreach
        rcases hrest : g.parseAll id tape₁ with ⟨other | nodes, tape₂⟩
        · rw [ParseM.bind_of_error hrest] at h
          cases h
          obtain ⟨nodes, mid, hrounds, hfails, hleft⟩ := ih tape₁.reach.length (by omega) hrest rfl
          exact ⟨node :: nodes, mid, .cons hparse hrounds, hfails, hleft⟩
        · rw [ParseM.bind_of_ok hrest] at h
          cases h

end Grammar

end Rounds

end ParseKit
