import ParseKit.Proofs.Restoring
import ParseKit.Proofs.Script.Program

/-! What a failed parse of statements leaves behind. A statement with its separator is one of two
alternatives, so that nothing is taken by one that fails, and statements that are parsed up to one
that fails leave the lexer before that one. Main statement: `Script.failures_restore`. -/

namespace ParseKit

namespace Script

theorem parse_program_eq {σ : Type} [TokenStream σ] {R : List Checkpoint → σ → Tape → Prop}
    (sim : Mirrors R) (marks : List Checkpoint) {s : σ} {tape : Tape} (h : R marks s tape) :
    grammar.parse 17 s = grammar.choose [15, 16] s :=
  sim.parse_eq_choose not_leftRecursive rule_program rfl listNode_list marks h

section Tape

variable {tape tape' : Tape} {error : ParseError}

theorem program_moves : ParseM.Walks False (grammar.parse 17) :=
  (grammar.parse_walks 17).mono (predictive.not_nullable 17)

theorem program_leaves (h : grammar.parse 17 tape = (.error error, tape')) :
    tape.Leaves Eq error tape' := by
  rw [parse_program_eq Tape.mirrors [] rfl] at h
  exact grammar.choose_leaves h

theorem program_fault (past : List Token) (fault : LexError) (rest : List Item) :
    (grammar.parse 17 (⟨past, .error fault :: rest⟩ : Tape)).1 = .error (.lex fault) := by
  have hahead : (⟨past, .error fault :: rest⟩ : Tape).ahead = .error fault :: rest := rfl
  have hstarts : (grammar.starts 15 (⟨past, .error fault :: rest⟩ : Tape)).1 = .error (.lex fault) :=
    (predictive.peeks rfl).fault hahead
  rw [parse_program_eq Tape.mirrors [] rfl, Grammar.choose, Grammar.parseChoice_cons]
  exact ParseM.bind_fails hstarts

end Tape

/-- Statements were parsed up to one that fails with the error. They are phrases of the tokens taken,
and the lexer is left before the first token of the one that fails. -/
def Parser.Stops (p : Parser) (lexer : Lexer) (error : ParseError) (after : Lexer) : Prop :=
  ∃ nodes us mid, p.grammar.Rounds p.rules.program lexer nodes mid ∧ lexer.Takes us mid ∧
    ((∀ token ∈ lexer.reach, token.Scannable) → Phrases Program us nodes) ∧
    (p.parse mid).1 = .error error ∧ mid.Restored error after

theorem parse_restores {lexer after : Lexer} (hlexer : lexer.Sound) {error : ParseError}
    (h : grammar.parse 17 lexer = (.error error, after)) : lexer.Restored error after := by
  obtain ⟨marks, tape, hshows⟩ := hlexer.exists_shows
  rw [parse_program_eq Lexer.mirrors marks hshows] at h
  exact Grammar.choose_restores not_leftRecursive hlexer h

/-- What the rounds before the failure do on the tape, the lexer does as well. -/
theorem parseAll_stops {rules : Rules} (hprogram : rules.program = 17) {lexer after : Lexer}
    (hlexer : lexer.Sound) {error : ParseError} (h : grammar.parseAll 17 lexer = (.error error, after)) :
    Parser.Stops ⟨grammar, rules⟩ lexer error after := by
  obtain ⟨marks, tape, hshows⟩ := hlexer.exists_shows
  obtain ⟨hresult, hstate⟩ := Lexer.mirrors.parseAll not_leftRecursive 17 marks lexer tape hshows
  rw [h] at hresult hstate
  obtain ⟨nodes, mid, hrounds, hfails, hleaves⟩ := Grammar.rounds_of_parseAll_error not_leftRecursive
    program_moves program_leaves program_fault (Prod.ext hresult.symm rfl)
  have hreads (bound : Nat) : Reads Program (grammar.parseBounded bound 17) :=
    predictive.parseWithin_reads rule_program describes bound _
  obtain ⟨us, hleads, hphrases⟩ := hrounds.phrases hreads
  obtain ⟨mid', hrounds', hmid⟩ := Lexer.mirrors.rounds not_leftRecursive hshows hrounds
  have hfails' : (grammar.parse 17 mid').1 = .error error := by
    rw [(Lexer.mirrors.parse not_leftRecursive 17 marks mid' mid hmid).1, hfails]
  rw [← hprogram] at hrounds' hfails'
  refine ⟨nodes, us, mid', hrounds', hshows.takes hmid hleads, fun hclean => hphrases ?_, hfails',
    hmid.restored hstate hleaves⟩
  rw [Tape.Clean, hshows.reach]
  exact hclean

/-- An alternation that fails in whatever way leaves the lexer as it found it, in every grammar
without left recursion and wherever the lexer is. So does a statement that fails, and statements that
are parsed up to one that fails leave the lexer before it. -/
theorem failures_restore :
    (∀ g : Grammar, ¬ g.LeftRecursive → ∀ (ids : List RuleId) (lexer after : Lexer) (error : ParseError),
      lexer.Sound → g.choose ids lexer = (.error error, after) → lexer.Restored error after) ∧
    ∀ p, parser.1 = .ok p → ∀ (lexer after : Lexer) (error : ParseError), lexer.Sound →
      (p.parse lexer = (.error error, after) → lexer.Restored error after) ∧
      (p.parseAll lexer = (.error error, after) → p.Stops lexer error after) := by
  refine ⟨fun g hg ids lexer after error hlexer => Grammar.choose_restores hg hlexer, fun p hp => ?_⟩
  rw [parser_eq] at hp
  cases hp
  exact fun lexer after error hlexer => ⟨parse_restores hlexer, parseAll_stops rfl hlexer⟩

/-- The line after an opening brace is no text, which is met in a block of a statement. Where the first
two parses start two tokens are buffered and a checkpoint is outstanding. -/
theorem failures_restore_openBlock :
    let opening : PhysicalLine := .text ['i', 'f', ' ', 'y', ' ', '\x7b']
    let held := (Lexer.checkpoint ((Lexer.ofSource [opening, .undecodable] {}).peek 1).2).2
    let lexer := Lexer.ofSource [.text ['x'], opening, .undecodable] {}
    let error : ParseError := .lex ⟨2, .unreadable notUtf8⟩
    let later : ParseError := .lex ⟨3, .unreadable notUtf8⟩
    held.Sound ∧ lexer.Sound ∧
      (∃ g : Grammar, ¬ g.LeftRecursive ∧ ∃ after,
        g.choose [13, 14, 11] held = (.error error, after) ∧ held.Restored error after) ∧
      ∃ p, parser.1 = .ok p ∧
        (∃ after, p.parse held = (.error error, after) ∧ held.Restored error after) ∧
        ∃ after, p.parseAll lexer = (.error later, after) ∧ p.Stops lexer later after := by
  intro opening held lexer error later
  have hheld : held.Sound := ((Lexer.Sound.ofSource _ _).peek 1).checkpoint
  have hlexer : lexer.Sound := .ofSource _ _
  have hchoose : (grammar.choose [13, 14, 11] held).1 = .error error := by cbv
  have hparse : (grammar.parse 17 held).1 = .error error := by cbv
  have hparseAll : (grammar.parseAll 17 lexer).1 = .error later := by cbv
  have hstatements := failures_restore.2 _ parser_eq
  exact ⟨hheld, hlexer, ⟨grammar, not_leftRecursive, _, Prod.ext hchoose rfl,
      failures_restore.1 grammar not_leftRecursive _ held _ error hheld (Prod.ext hchoose rfl)⟩,
    _, parser_eq, ⟨_, Prod.ext hparse rfl, (hstatements held _ error hheld).1 (Prod.ext hparse rfl)⟩,
    _, Prod.ext hparseAll rfl, (hstatements lexer _ later hlexer).2 (Prod.ext hparseAll rfl)⟩

end Script

end ParseKit
