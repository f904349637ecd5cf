import ParseKit.Proofs.Script.Equations

/-! What parsing a program gives. Main statements: `Script.parseProgram_accepts_programs`, a program
parses exactly when its tokens are phrases of the documented grammar, and
`Script.parseProgram_reports_first_offence`, which says where it fails otherwise. -/

namespace ParseKit

namespace Script

variable (source : Source) (options : LexerOptions)

theorem parseProgram_eq : parseProgram source options =
    (grammar.parseAll 17 (Lexer.ofSource source options)).1 := by
  rw [parseProgram, parser_eq]
  rfl

theorem apart_program : TokenClass.allApart (grammar.firsts 17) (grammar.extensions 17) = true := by
  decide

theorem rule_program : grammar.rule 17 = .ok (ruleAt 17) := rfl

theorem parseProgram_verdict : Verdict Program (source.tokens options) source.fault?
    (parseProgram source options) := by
  rw [parseProgram_eq]
  exact predictive.parseAll_verdict describes rule_program apart_program source options

theorem parseProgram_eq_ok_iff {nodes : List Node} : parseProgram source options = .ok nodes ↔
    source.fault? = none ∧ Phrases Program (source.tokens options) nodes := by
  rw [parseProgram_eq]
  exact predictive.parseAll_eq_ok_iff describes rule_program apart_program source options

/-- A source whose lines all scan parses exactly when its tokens are program phrases, and gives their
nodes. Otherwise a token is reported and nothing else. -/
theorem parseProgram_accepts_programs {tokens : List Token} (htokens : tokenize source options = .ok tokens) :
    (∀ nodes, parseProgram source options = .ok nodes ↔ Phrases Program tokens nodes) ∧
      ∀ error, parseProgram source options = .error error → ∃ token, error = .unexpected token := by
  rw [tokenize_eq] at htokens
  cases hfault : source.fault? with
  | some fault =>
    rw [hfault] at htokens
    cases htokens
  | none =>
    rw [hfault] at htokens
    cases htokens
    refine ⟨fun nodes => (parseProgram_eq_ok_iff source options).trans (and_iff_right hfault), ?_⟩
    intro error herror
    have hverdict := parseProgram_verdict source options
    rw [herror] at hverdict
    cases hverdict with
    | unexpected => exact ⟨_, rfl⟩
    | incomplete => exact ⟨_, rfl⟩
    | faulted _ hsome => cases hfault.symm.trans hsome

theorem parseProgram_accepts_programs_negative :
    let source := Source.ofString "-x\n;"
    let tokens : List Token := [.scanned 1 (.operator "-"), .scanned 1 (.identifier "x"),
      .scanned 1 .endOfLine, .scanned 2 (.operator ";"), .scanned 2 .endOfLine]
    let nodes : List Node := [.list negativeKind [.leaf nameKind (.scanned 1 (.identifier "x"))],
      .list nullKind [], .list nullKind []]
    tokenize source {} = .ok tokens ∧ Phrases Program tokens nodes ∧
      parseProgram source {} = .ok nodes := by
  intro source tokens nodes
  have htokens : tokenize source {} = .ok tokens := by cbv
  have hname : Primary [.scanned 1 (.identifier "x")] (.leaf nameKind (.scanned 1 (.identifier "x"))) :=
    .name 1 ⟨'x', [], rfl, rfl, rfl⟩ (by decide)
  have hexpr : Expr [.scanned 1 (.operator "-"), .scanned 1 (.identifier "x")]
      (.list negativeKind [.leaf nameKind (.scanned 1 (.identifier "x"))]) :=
    @Expr.grouped _ _ [] (.operand _) (.factor (.negative ⟨1, rfl⟩ hname)) ⟨rfl, rfl, trivial⟩
  have hphrases : Phrases Program tokens nodes :=
    .cons (Program.statement (.simple hexpr) (.inr ⟨1, rfl⟩))
      (.cons (Program.null (.inl ⟨2, rfl⟩)) (.cons (Program.null (.inr ⟨2, rfl⟩)) .nil))
  exact ⟨htokens, hphrases, ((parseProgram_accepts_programs source {} htokens).1 nodes).2 hphrases⟩

/-- Where parsing fails. The first token that no program has after the tokens before it is reported.
Without such a token the first line at fault is, and without such a line the end of the input, unless
the tokens are a whole program. -/
theorem parseProgram_reports_first_offence :
    (∀ i (hi : i < (source.tokens options).length),
      ¬ Viable Program ((source.tokens options).take (i + 1)) →
      (∀ j < i, Viable Program ((source.tokens options).take (j + 1))) →
      parseProgram source options = .error (.unexpected (source.tokens options)[i])) ∧
    ((∀ i < (source.tokens options).length, Viable Program ((source.tokens options).take (i + 1))) →
      (∀ fault, source.fault? = some fault → parseProgram source options = .error (.lex fault)) ∧
      (source.fault? = none → (∀ nodes, ¬ Phrases Program (source.tokens options) nodes) →
        parseProgram source options = .error (.unexpected .endOfInput))) ∧
    (∀ nodes, parseProgram source options = .ok nodes ↔
      source.fault? = none ∧ Phrases Program (source.tokens options) nodes) := by
  have hverdict := parseProgram_verdict source options
  refine ⟨fun i hi hnot hbefore => hverdict.eq_unexpected hi hnot hbefore, fun hall => ?_,
    fun nodes => parseProgram_eq_ok_iff source options⟩
  have hviable := viable_of_forall_take hall
  exact ⟨fun fault hfault => hverdict.eq_lex hviable hfault,
    fun hfault hnot => hverdict.eq_incomplete hviable hfault hnot⟩

theorem exists_separator_of_phrases {us : List Token} {nodes : List Node} (h : Phrases Program us nodes) :
    us = [] ∨ ∃ vs separator, us = vs ++ [separator] ∧ IsSeparator separator := by
  induction h with
  | nil => exact .inl rfl
  | @cons us vs _ _ hphrase _ ih =>
    rcases ih with rfl | ⟨ws, separator, rfl, hseparator⟩
    · rw [List.append_nil]
      cases hphrase with
      | statement _ hseparator => exact .inr ⟨_, _, rfl, hseparator⟩
      | null hseparator => exact .inr ⟨[], _, rfl, hseparator⟩
    · exact .inr ⟨us ++ ws, separator, (List.append_assoc ..).symm, hseparator⟩

/-- A closing parenthesis, a line that is no text after a statement, and a statement that is not
ended. -/
theorem parseProgram_reports_first_offence_samples :
    parseProgram [.text [')']] {} = .error (.unexpected (.scanned 1 (.operator ")"))) ∧
      parseProgram [.text ['x'], .undecodable] {} = .error (.lex ⟨2, .unreadable notUtf8⟩) ∧
      parseProgram [.text ['x']] ⟨false⟩ = .error (.unexpected .endOfInput) := by
  have hname (line : Nat) : Statement [.scanned line (.identifier "x")]
      (.leaf nameKind (.scanned line (.identifier "x"))) :=
    .simple (@Expr.grouped _ _ [] (.operand _)
      (.factor (.primary (.name line ⟨'x', [], rfl, rfl, rfl⟩ (by decide)))) ⟨rfl, rfl, trivial⟩)
  have hviable : Viable Program ([.scanned 1 (.identifier "x")] ++ [.scanned 1 .endOfLine]) :=
    (Phrases.cons (Program.statement (hname 1) (.inr ⟨1, rfl⟩)) .nil).viable
  have hparen : Source.tokens {} [.text [')']] = [.scanned 1 (.operator ")"), .scanned 1 .endOfLine] := by
    cbv
  have hbefore : Source.tokens {} [.text ['x'], .undecodable] =
      [.scanned 1 (.identifier "x"), .scanned 1 .endOfLine] := by cbv
  have hopen : Source.tokens ⟨false⟩ [.text ['x']] = [.scanned 1 (.identifier "x")] := by cbv
  refine ⟨?_, ?_, ?_⟩
  · have hresult := (parseProgram_reports_first_offence [.text [')']] {}).1 0 (by rw [hparen]; decide) ?_
      (by simp)
    · simpa only [hparen, List.getElem_cons_zero] using hresult
    · rw [hparen]
      intro hviable
      have hin := predictive.isIn_firsts_of_viable describes rule_program hviable
      exact absurd hin (by decide +kernel)
  · obtain ⟨hfault, -⟩ := (parseProgram_reports_first_offence [.text ['x'], .undecodable] {}).2.1
      (by rw [hbefore]; exact fun i _ => hviable.take (i + 1))
    exact hfault _ (by cbv)
  · obtain ⟨-, hincomplete⟩ := (parseProgram_reports_first_offence [.text ['x']] ⟨false⟩).2.1
      (by rw [hopen]; exact fun i _ => (Viable.of_append hviable).take (i + 1))
    refine hincomplete (by cbv) fun nodes hphrases => ?_
    rw [hopen] at hphrases
    rcases exists_separator_of_phrases hphrases with hnil | ⟨vs, separator, heq, hseparator⟩
    · cases hnil
    · obtain rfl : .scanned 1 (.identifier "x") = separator := by simpa using congrArg List.getLast? heq
      rcases hseparator with ⟨_, hsemicolon⟩ | ⟨_, hend⟩
      · cases hsemicolon
      · cases hend

end Script

end ParseKit
